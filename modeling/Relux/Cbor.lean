import Relux.BigEndian

/-! CBOR as far as a record of integers, byte strings and text needs it: an item is a head,
its kind and a number in the shortest form, and for strings the bytes behind it. -/

namespace Relux

variable {major : Nat}

namespace Cbor

def width (n : Nat) : Nat :=
  if n < 2 ^ 8 then 0 else if n < 2 ^ 16 then 1 else if n < 2 ^ 32 then 2 else 3

def head (major n : Nat) : List UInt8 :=
  if n < 24 then [UInt8.ofNat (major * 32 + n)]
  else UInt8.ofNat (major * 32 + 24 + width n) :: beBytes (2 ^ width n) n

def readHead : List UInt8 → Option (Nat × Nat × List UInt8)
  | [] => none
  | b :: rest =>
    let major := b.toNat / 32
    let arg := b.toNat % 32
    if arg < 24 then some (major, arg, rest)
    else if 27 < arg ∨ rest.length < 2 ^ (arg - 24) then none
    else some (major, ofBeBytes (rest.take (2 ^ (arg - 24))), rest.drop (2 ^ (arg - 24)))

theorem width_cases (n : Nat) : width n = 0 ∧ n < 2 ^ 8 ∨ width n = 1 ∧ n < 2 ^ 16 ∨
    width n = 2 ∧ n < 2 ^ 32 ∨ width n = 3 := by
  unfold width
  by_cases h8 : n < 2 ^ 8
  · exact .inl ⟨if_pos h8, h8⟩
  · rw [if_neg h8]
    by_cases h16 : n < 2 ^ 16
    · exact .inr (.inl ⟨if_pos h16, h16⟩)
    · rw [if_neg h16]
      by_cases h32 : n < 2 ^ 32
      · exact .inr (.inr (.inl ⟨if_pos h32, h32⟩))
      · exact .inr (.inr (.inr (if_neg h32)))

theorem width_le (n : Nat) : width n ≤ 3 := by
  have hw := width_cases n
  omega

theorem lt_of_width {n : Nat} (h : n < 2 ^ 64) : n < 256 ^ 2 ^ width n := by
  rcases width_cases n with ⟨hw, hn⟩ | ⟨hw, hn⟩ | ⟨hw, hn⟩ | hw <;> rw [hw] <;> omega

theorem readHead_head {n : Nat} (hm : major < 8) (hn : n < 2 ^ 64) (rest : List UInt8) :
    readHead (head major n ++ rest) = some (major, n, rest) := by
  by_cases hsmall : n < 24
  · have hb : (UInt8.ofNat (major * 32 + n)).toNat = major * 32 + n := by
      rw [UInt8.toNat_ofNat']
      omega
    have hdiv : (major * 32 + n) / 32 = major := by omega
    have hmod : (major * 32 + n) % 32 = n := by omega
    simp only [head, if_pos hsmall, List.singleton_append, readHead, hb, hdiv, hmod]
  · have hw := width_le n
    have hb : (UInt8.ofNat (major * 32 + 24 + width n)).toNat = major * 32 + 24 + width n := by
      rw [UInt8.toNat_ofNat']
      omega
    have hdiv : (major * 32 + 24 + width n) / 32 = major := by omega
    have hmod : (major * 32 + 24 + width n) % 32 = 24 + width n := by omega
    have hsub : 24 + width n - 24 = width n := by omega
    have hlen : (beBytes (2 ^ width n) n).length = 2 ^ width n := beBytes_length _ n
    have hlong : ¬ (27 < 24 + width n ∨
        (beBytes (2 ^ width n) n ++ rest).length < 2 ^ width n) := by
      simp only [List.length_append, hlen]
      omega
    have hbig : ¬ 24 + width n < 24 := by omega
    simp only [head, hsmall, if_false, List.cons_append, readHead, hb, hdiv, hmod, hsub, hbig,
      hlong, List.take_left' hlen, List.drop_left' hlen, ofBeBytes_beBytes (lt_of_width hn)]

theorem head_length_le (major n : Nat) : (head major n).length ≤ 9 := by
  have hw := width_le n
  have hpow : 2 ^ width n ≤ 2 ^ 3 := Nat.pow_le_pow_right (by omega) hw
  by_cases hsmall : n < 24
  · simp [head, hsmall]
  · simp only [head, if_neg hsmall, List.length_cons, beBytes_length]
    omega

def string (major : Nat) (bytes : List UInt8) : List UInt8 := head major bytes.length ++ bytes

def readString (major : Nat) (reader : List UInt8) : Option (List UInt8 × List UInt8) :=
  (readHead reader).bind (fun h =>
    if h.1 = major ∧ h.2.1 ≤ h.2.2.length then some (h.2.2.take h.2.1, h.2.2.drop h.2.1)
    else none)

theorem readString_string {bytes : List UInt8} (hm : major < 8) (hlen : bytes.length < 2 ^ 64)
    (rest : List UInt8) : readString major (string major bytes ++ rest) = some (bytes, rest) := by
  simp [readString, string, List.append_assoc, readHead_head hm hlen]

def int (n : Int) : List UInt8 := if 0 ≤ n then head 0 n.toNat else head 1 (-1 - n).toNat

def readInt (reader : List UInt8) : Option (Int × List UInt8) :=
  (readHead reader).bind (fun h =>
    if h.1 = 0 then some ((h.2.1 : Int), h.2.2)
    else if h.1 = 1 then some (-1 - (h.2.1 : Int), h.2.2)
    else none)

theorem readInt_int {n : Int} (hlow : -2 ^ 64 ≤ n) (hhigh : n < 2 ^ 64) (rest : List UInt8) :
    readInt (int n ++ rest) = some (n, rest) := by
  by_cases hn : 0 ≤ n
  · have hnat : n.toNat < 2 ^ 64 := by omega
    have hhead := readHead_head (show 0 < 8 by omega) hnat rest
    have hback : (n.toNat : Int) = n := Int.toNat_of_nonneg hn
    simp only [readInt, int, if_pos hn, hhead, Option.bind_some, if_true, hback]
  · have hnat : (-1 - n).toNat < 2 ^ 64 := by omega
    have hhead := readHead_head (show 1 < 8 by omega) hnat rest
    have hback : -1 - ((-1 - n).toNat : Int) = n := by omega
    simp only [readInt, int, if_neg hn, hhead, Option.bind_some, if_true, hback,
      Nat.one_ne_zero, if_false]

theorem int_length_le (n : Int) : (int n).length ≤ 9 := by
  by_cases hn : 0 ≤ n
  · rw [int, if_pos hn]
    exact head_length_le 0 _
  · rw [int, if_neg hn]
    exact head_length_le 1 _

def expect (pre reader : List UInt8) : Option (List UInt8) :=
  if pre.isPrefixOf reader then some (reader.drop pre.length) else none

theorem expect_append (pre rest : List UInt8) : expect pre (pre ++ rest) = some rest := by
  simp [expect]

end Cbor

/-! CBOR items that carry the proof that they are read back: integers, byte arrays, text,
lists, options and the named fields of a map, put together from one another. -/

namespace Cbor

structure Item (α : Type) where
  write : α → List UInt8
  read : List UInt8 → Option (α × List UInt8)
  fits : α → Bool
  read_write : ∀ a rest, fits a = true → read (write a ++ rest) = some (a, rest)

namespace Item

variable {α β : Type}

/-- The same bytes for another type, `g` taking apart what `f` puts together. -/
def imap (c : Item α) (f : α → β) (g : β → α) (hfg : ∀ b, f (g b) = b) : Item β where
  write b := c.write (g b)
  read reader := (c.read reader).map (fun r => (f r.1, r.2))
  fits b := c.fits (g b)
  read_write b rest h := by
    rw [c.read_write (g b) rest h, Option.map_some, hfg]

def pair (c : Item α) (d : Item β) : Item (α × β) where
  write p := c.write p.1 ++ d.write p.2
  read reader := (c.read reader).bind (fun r => (d.read r.2).map (fun q => ((r.1, q.1), q.2)))
  fits p := c.fits p.1 && d.fits p.2
  read_write p rest h := by
    obtain ⟨hfirst, hsecond⟩ := Bool.and_eq_true_iff.mp h
    rw [List.append_assoc, c.read_write p.1 _ hfirst, Option.bind_some,
      d.read_write p.2 rest hsecond, Option.map_some]

def behind (pre : List UInt8) (c : Item α) : Item α where
  write a := pre ++ c.write a
  read reader := (expect pre reader).bind c.read
  fits := c.fits
  read_write a rest h := by
    rw [List.append_assoc, expect_append, Option.bind_some, c.read_write a rest h]

def integer : Item Int where
  write := int
  read := readInt
  fits n := decide (-2 ^ 64 ≤ n ∧ n < 2 ^ 64)
  read_write n rest h := by
    obtain ⟨hlow, hhigh⟩ := of_decide_eq_true h
    exact readInt_int hlow hhigh rest

def array (n : Nat) : Item (Vector UInt8 n) where
  write v := string 2 v.toList
  read reader := (readString 2 reader).bind (fun s =>
    if h : s.1.length = n then some (⟨s.1.toArray, List.size_toArray.trans h⟩, s.2) else none)
  fits _ := decide (n < 2 ^ 64)
  read_write v rest h := by
    have hlen : v.toList.length = n := Vector.length_toList
    have hn : v.toList.length < 2 ^ 64 := by
      rw [hlen]
      exact of_decide_eq_true h
    have hread := readString_string (show 2 < 8 by omega) hn rest
    have harray : v.toList.toArray = v.toArray := Array.toArray_toList
    simp [hread, harray]

def text : Item String where
  write s := string 3 s.toByteArray.data.toList
  read reader := (readString 3 reader).bind (fun s =>
    (String.fromUTF8? ⟨s.1.toArray⟩).map (fun text => (text, s.2)))
  fits s := decide (s.toByteArray.data.toList.length < 2 ^ 64)
  read_write s rest h := by
    have hread := readString_string (show 3 < 8 by omega) (of_decide_eq_true h) rest
    have hutf8 : String.fromUTF8? ⟨s.toByteArray.data.toList.toArray⟩ = some s := by
      rw [Array.toArray_toList]
      exact dif_pos s.isValidUTF8
    rw [hread, Option.bind_some, hutf8, Option.map_some]

def readMany (c : Item α) : Nat → List UInt8 → Option (List α × List UInt8)
  | 0, reader => some ([], reader)
  | n + 1, reader => (c.read reader).bind (fun r =>
      (readMany c n r.2).map (fun q => (r.1 :: q.1, q.2)))

theorem readMany_write (c : Item α) (l : List α) (rest : List UInt8)
    (h : ∀ a ∈ l, c.fits a = true) :
    c.readMany l.length (l.flatMap c.write ++ rest) = some (l, rest) := by
  induction l with
  | nil => rfl
  | cons a l ih =>
    have hfirst := h a List.mem_cons_self
    have hrest := ih (fun b hb => h b (List.mem_cons_of_mem a hb))
    simp only [List.flatMap_cons, List.append_assoc, List.length_cons, readMany,
      c.read_write a _ hfirst, Option.bind_some, hrest, Option.map_some]

def list (c : Item α) : Item (List α) where
  write l := head 4 l.length ++ l.flatMap c.write
  read reader := (readHead reader).bind (fun h =>
    if h.1 = 4 then c.readMany h.2.1 h.2.2 else none)
  fits l := decide (l.length < 2 ^ 64) && l.all c.fits
  read_write l rest h := by
    obtain ⟨hlen, hall⟩ := Bool.and_eq_true_iff.mp h
    have hhead := readHead_head (show 4 < 8 by omega) (of_decide_eq_true hlen)
      (l.flatMap c.write ++ rest)
    have hmany := readMany_write c l rest (List.all_eq_true.mp hall)
    simp only [List.append_assoc, hhead, Option.bind_some, if_true, hmany]

def option (c : Item α)
    (hnull : ∀ a rest, c.fits a = true → expect [0xf6] (c.write a ++ rest) = none) :
    Item (Option α) where
  write
    | none => [0xf6]
    | some a => c.write a
  read reader :=
    match expect [0xf6] reader with
    | some rest => some (none, rest)
    | none => (c.read reader).map (fun r => (some r.1, r.2))
  fits
    | none => true
    | some a => c.fits a
  read_write a rest h := by
    cases a with
    | none => rfl
    | some a => simp only [hnull a rest h, c.read_write a rest h, Option.map_some]

end Item

theorem expect_null_head {n : Nat} (hm : major < 4) (rest : List UInt8) :
    expect [0xf6] (head major n ++ rest) = none := by
  have hw := width_le n
  have hfirst : ∃ k tail, k < 0xf6 ∧ head major n ++ rest = UInt8.ofNat k :: tail := by
    by_cases hsmall : n < 24
    · refine ⟨major * 32 + n, rest, by omega, ?_⟩
      simp [head, hsmall]
    · refine ⟨major * 32 + 24 + width n, beBytes (2 ^ width n) n ++ rest, by omega, ?_⟩
      simp [head, hsmall]
  obtain ⟨k, tail, hk, heq⟩ := hfirst
  have hne : (0xf6 : UInt8) ≠ UInt8.ofNat k := by
    intro h
    have hnat := congrArg UInt8.toNat h
    have hbig : (0xf6 : UInt8).toNat = 0xf6 := rfl
    rw [UInt8.toNat_ofNat', hbig] at hnat
    omega
  rw [heq]
  simp [expect, hne]

end Cbor

end Relux
