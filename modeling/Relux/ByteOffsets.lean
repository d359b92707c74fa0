import Mathlib.Data.List.Basic

/-! Texts as the bytes of their encoding see them: lengths, positions and slices in bytes. A slice
that does not begin and end on the boundaries of characters is missing. -/

namespace Relux

def byteLen : List Char → Nat
  | [] => 0
  | c :: cs => c.utf8Size + byteLen cs

def utf8Bytes (s : List Char) : List UInt8 := s.flatMap String.utf8EncodeChar

@[simp] theorem byteLen_nil : byteLen [] = 0 := rfl

@[simp] theorem byteLen_cons (c : Char) (cs : List Char) :
    byteLen (c :: cs) = c.utf8Size + byteLen cs := rfl

@[simp] theorem byteLen_append (s t : List Char) : byteLen (s ++ t) = byteLen s + byteLen t := by
  induction s with
  | nil => simp
  | cons c s ih => simp [ih, Nat.add_assoc]

theorem length_utf8Bytes (s : List Char) : (utf8Bytes s).length = byteLen s := by
  induction s with
  | nil => rfl
  | cons c s ih =>
    unfold utf8Bytes at ih ⊢
    rw [List.flatMap_cons, List.length_append, ih, String.length_utf8EncodeChar, byteLen_cons]

@[simp] theorem utf8Bytes_cons (c : Char) (s : List Char) :
    utf8Bytes (c :: s) = String.utf8EncodeChar c ++ utf8Bytes s := by
  simp [utf8Bytes]

@[simp] theorem utf8Bytes_append (s t : List Char) :
    utf8Bytes (s ++ t) = utf8Bytes s ++ utf8Bytes t := by
  simp [utf8Bytes]

theorem drop_utf8Bytes (s t : List Char) : (utf8Bytes (s ++ t)).drop (byteLen s) = utf8Bytes t := by
  rw [utf8Bytes_append, ← length_utf8Bytes, List.drop_left]

variable {c : Char}

theorem utf8EncodeChar_ascii (h : c.toNat < 128) :
    String.utf8EncodeChar c = [UInt8.ofNat c.toNat] := by
  have hle : c.val.toNat ≤ 0x7f := by
    change c.toNat ≤ 0x7f
    omega
  exact if_pos hle

theorem utf8EncodeChar_high (h : 128 ≤ c.toNat) : ∀ b ∈ String.utf8EncodeChar c, 128 ≤ b.toNat := by
  have hgt : ¬c.val.toNat ≤ 0x7f := by
    change ¬c.toNat ≤ 0x7f
    omega
  intro b hb
  unfold String.utf8EncodeChar at hb
  simp only [if_neg hgt] at hb
  split at hb
  · simp only [List.mem_cons, List.not_mem_nil, or_false] at hb
    rcases hb with rfl | rfl <;> simp only [UInt8.toNat_ofNat'] <;> omega
  · split at hb
    · simp only [List.mem_cons, List.not_mem_nil, or_false] at hb
      rcases hb with rfl | rfl | rfl <;> simp only [UInt8.toNat_ofNat'] <;> omega
    · simp only [List.mem_cons, List.not_mem_nil, or_false] at hb
      rcases hb with rfl | rfl | rfl | rfl <;> simp only [UInt8.toNat_ofNat'] <;> omega

theorem utf8Size_high (h : 128 ≤ c.toNat) : 2 ≤ c.utf8Size := by
  have hgt : ¬c.val.toNat ≤ 0x7f := by
    change ¬c.toNat ≤ 0x7f
    omega
  rw [← String.length_utf8EncodeChar]
  unfold String.utf8EncodeChar
  simp only [if_neg hgt]
  split
  · simp
  · split <;> simp

/-- `&s[n..]`. -/
def sliceFrom : List Char → Nat → Option (List Char)
  | s, 0 => some s
  | [], _ + 1 => none
  | c :: cs, n + 1 => if c.utf8Size ≤ n + 1 then sliceFrom cs (n + 1 - c.utf8Size) else none

/-- `&s[..n]`. -/
def sliceTo : List Char → Nat → Option (List Char)
  | _, 0 => some []
  | [], _ + 1 => none
  | c :: cs, n + 1 =>
    if c.utf8Size ≤ n + 1 then (sliceTo cs (n + 1 - c.utf8Size)).map (c :: ·) else none

/-- `&s[m..n]`. -/
def slice (s : List Char) (m n : Nat) : Option (List Char) :=
  if m ≤ n then (sliceFrom s m).bind (sliceTo · (n - m)) else none

theorem byteLen_succ (c : Char) (s : List Char) :
    ∃ n, byteLen (c :: s) = n + 1 ∧ n + 1 - c.utf8Size = byteLen s := by
  have hpos := c.utf8Size_pos
  exact ⟨c.utf8Size + byteLen s - 1, by simp; omega, by omega⟩

theorem sliceFrom_append (s t : List Char) : sliceFrom (s ++ t) (byteLen s) = some t := by
  induction s with
  | nil => cases t <;> rfl
  | cons c s ih =>
    obtain ⟨n, hn, hrest⟩ := byteLen_succ c s
    rw [hn, List.cons_append, sliceFrom, if_pos (by rw [← hn]; simp), hrest, ih]

theorem sliceTo_append (s t : List Char) : sliceTo (s ++ t) (byteLen s) = some s := by
  induction s with
  | nil => cases t <;> rfl
  | cons c s ih =>
    obtain ⟨n, hn, hrest⟩ := byteLen_succ c s
    rw [hn, List.cons_append, sliceTo, if_pos (by rw [← hn]; simp), hrest, ih, Option.map_some]

variable {s t : List Char} {n : Nat}

theorem sliceFrom_eq_some (h : sliceFrom s n = some t) :
    ∃ front, s = front ++ t ∧ byteLen front = n := by
  induction s generalizing n with
  | nil =>
    cases n with
    | zero =>
      cases h
      exact ⟨[], rfl, rfl⟩
    | succ n => cases h
  | cons c s ih =>
    cases n with
    | zero =>
      cases h
      exact ⟨[], rfl, rfl⟩
    | succ n =>
      rw [sliceFrom] at h
      split at h
      next hle =>
        obtain ⟨front, rfl, hlen⟩ := ih h
        refine ⟨c :: front, rfl, ?_⟩
        rw [byteLen_cons]
        omega
      · cases h

theorem sliceTo_eq_some (h : sliceTo s n = some t) : ∃ rest, s = t ++ rest ∧ byteLen t = n := by
  induction s generalizing n t with
  | nil =>
    cases n with
    | zero =>
      cases h
      exact ⟨[], rfl, rfl⟩
    | succ n => cases h
  | cons c s ih =>
    cases n with
    | zero =>
      cases h
      exact ⟨c :: s, rfl, rfl⟩
    | succ n =>
      rw [sliceTo] at h
      split at h
      next hle =>
        obtain ⟨t', ht', rfl⟩ := Option.map_eq_some_iff.mp h
        obtain ⟨rest, rfl, hlen⟩ := ih ht'
        refine ⟨rest, rfl, ?_⟩
        rw [byteLen_cons]
        omega
      · cases h

theorem slice_append (s t u : List Char) :
    slice (s ++ (t ++ u)) (byteLen s) (byteLen s + byteLen t) = some t := by
  unfold slice
  rw [if_pos (Nat.le_add_right _ _), sliceFrom_append, Option.bind_some, Nat.add_sub_cancel_left,
    sliceTo_append]

variable {m : Nat}

theorem slice_eq_some (h : slice s m n = some t) :
    ∃ front rest, s = front ++ (t ++ rest) ∧ byteLen front = m ∧ m + byteLen t = n := by
  unfold slice at h
  split at h
  next hle =>
    obtain ⟨back, hback, ht⟩ := Option.bind_eq_some_iff.mp h
    obtain ⟨front, rfl, hfront⟩ := sliceFrom_eq_some hback
    obtain ⟨rest, rfl, hlen⟩ := sliceTo_eq_some ht
    exact ⟨front, rest, rfl, hfront, by omega⟩
  · cases h

/-- The number is that of the bytes before some character of the text, or of all its bytes. -/
def IsBoundary (s : List Char) (n : Nat) : Prop :=
  ∃ front rest, s = front ++ rest ∧ byteLen front = n

theorem isBoundary_iff : IsBoundary s n ↔ (sliceFrom s n).isSome = true := by
  constructor
  · rintro ⟨front, rest, rfl, rfl⟩
    rw [sliceFrom_append]
    rfl
  · intro h
    obtain ⟨t, ht⟩ := Option.isSome_iff_exists.mp h
    obtain ⟨front, rfl, hlen⟩ := sliceFrom_eq_some ht
    exact ⟨front, t, rfl, hlen⟩

theorem isBoundary_zero (s : List Char) : IsBoundary s 0 := ⟨[], s, rfl, rfl⟩

instance (s : List Char) (n : Nat) : Decidable (IsBoundary s n) :=
  decidable_of_iff _ isBoundary_iff.symm

theorem exists_between {front front' rest rest' : List Char} (h : front ++ rest = front' ++ rest')
    (hle : byteLen front ≤ byteLen front') : ∃ mid, front' = front ++ mid := by
  rcases List.append_eq_append_iff.mp h with ⟨mid, rfl, -⟩ | ⟨mid, rfl, -⟩
  · exact ⟨mid, rfl⟩
  · cases mid with
    | nil => exact ⟨[], by simp⟩
    | cons c mid =>
      have hpos := c.utf8Size_pos
      simp at hle
      omega

theorem slice_isSome :
    (slice s m n).isSome = true ↔ m ≤ n ∧ IsBoundary s m ∧ IsBoundary s n := by
  constructor
  · intro h
    obtain ⟨t, ht⟩ := Option.isSome_iff_exists.mp h
    obtain ⟨front, rest, rfl, rfl, rfl⟩ := slice_eq_some ht
    exact ⟨Nat.le_add_right _ _, ⟨front, t ++ rest, rfl, rfl⟩, ⟨front ++ t, rest, by simp, by simp⟩⟩
  · rintro ⟨hle, ⟨front, rest, rfl, rfl⟩, ⟨front', rest', heq, rfl⟩⟩
    obtain ⟨mid, rfl⟩ := exists_between heq hle
    rw [List.append_assoc] at heq
    rw [List.append_cancel_left heq, byteLen_append, slice_append]
    rfl

theorem infix_of_sliceFrom (h : sliceFrom s n = some t) : t <:+: s := by
  obtain ⟨front, rfl, -⟩ := sliceFrom_eq_some h
  exact ⟨front, [], by simp⟩

theorem infix_of_slice (h : slice s m n = some t) : t <:+: s := by
  obtain ⟨front, rest, rfl, -, -⟩ := slice_eq_some h
  exact ⟨front, rest, by simp⟩

/-- `s.find(c)`. -/
def findChar (c : Char) (s : List Char) : Option Nat :=
  if c ∈ s then some (byteLen (s.takeWhile (· != c))) else none

theorem findChar_append (h : c ∉ s) (t : List Char) :
    findChar c (s ++ c :: t) = some (byteLen s) := by
  have hall : ∀ d ∈ s, (d != c) = true := by
    intro d hd
    rw [bne_iff_ne]
    rintro rfl
    exact h hd
  unfold findChar
  rw [if_pos (by simp), List.takeWhile_append_of_pos hall]
  simp

theorem findChar_none (h : c ∉ s) : findChar c s = none := if_neg h

/-- `s.find(t)`. -/
def findStr (t : List Char) : List Char → Option Nat
  | [] => if t.isEmpty then some 0 else none
  | c :: s => if t.isPrefixOf (c :: s) then some 0 else (findStr t s).map (c.utf8Size + ·)

/-- The places of a text in another one from the `off`-th byte on, from left to right and without
overlap; the first `skip` characters belong to a place that was found before. -/
def placesFrom (t : List Char) : Nat → Nat → List Char → List Nat
  | _, _, [] => []
  | 0, off, c :: s =>
    if t.isPrefixOf (c :: s) then off :: placesFrom t (t.length - 1) (off + c.utf8Size) s
    else placesFrom t 0 (off + c.utf8Size) s
  | skip + 1, off, c :: s => placesFrom t skip (off + c.utf8Size) s

def places (t s : List Char) : List Nat := placesFrom t 0 0 s

theorem placesFrom_append (t front s : List Char) (off : Nat) :
    placesFrom t front.length off (front ++ s) = placesFrom t 0 (off + byteLen front) s := by
  induction front generalizing off with
  | nil => rfl
  | cons c front ih =>
    rw [List.length_cons, List.cons_append, placesFrom, ih, byteLen_cons, Nat.add_assoc]

theorem placesFrom_prefix (ht : t ≠ []) (s : List Char) (off : Nat) :
    placesFrom t 0 off (t ++ s) = off :: placesFrom t 0 (off + byteLen t) s := by
  obtain ⟨c, t', rfl⟩ := List.exists_cons_of_ne_nil ht
  have hpre : (c :: t').isPrefixOf (c :: (t' ++ s)) = true := by
    rw [List.isPrefixOf_iff_prefix]
    exact ⟨s, rfl⟩
  rw [List.cons_append, placesFrom, if_pos hpre, List.length_cons, Nat.add_sub_cancel,
    placesFrom_append, byteLen_cons, Nat.add_assoc]

theorem findStr_spec (ht : t ≠ []) (s : List Char) (off : Nat) :
    (findStr t s = none ∧ placesFrom t 0 off s = []) ∨
      ∃ front back, s = front ++ (t ++ back) ∧ findStr t s = some (byteLen front) ∧
        placesFrom t 0 off s =
          (off + byteLen front) :: placesFrom t 0 (off + byteLen front + byteLen t) back := by
  induction s generalizing off with
  | nil =>
    left
    refine ⟨?_, rfl⟩
    rw [findStr, if_neg (by simpa using ht)]
  | cons c s ih =>
    by_cases hpre : t.isPrefixOf (c :: s) = true
    · obtain ⟨back, hback⟩ := List.isPrefixOf_iff_prefix.mp hpre
      right
      refine ⟨[], back, hback.symm, ?_, ?_⟩
      · rw [findStr, if_pos hpre]
        rfl
      · rw [← hback, placesFrom_prefix ht]
        rfl
    · rcases ih (off + c.utf8Size) with ⟨hnone, hplaces⟩ | ⟨front, back, rfl, hsome, hplaces⟩
      · left
        rw [findStr, placesFrom, if_neg hpre, if_neg hpre, hnone, hplaces]
        exact ⟨rfl, rfl⟩
      · right
        refine ⟨c :: front, back, rfl, ?_, ?_⟩
        · rw [findStr, if_neg hpre, hsome]
          rfl
        · rw [placesFrom, if_neg hpre, hplaces, byteLen_cons, Nat.add_assoc off]

end Relux
