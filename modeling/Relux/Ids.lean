import Mathlib.Data.Nat.Digits.Defs
import Mathlib.Data.Nat.Digits.Lemmas
import Relux.Text

/-! Minted ids: a prefix and a counter, zero-padded to four digits. -/

namespace Relux

/-- The decimal text of a counter, `{:04}`. -/
def pad4 (n : Nat) : List Char :=
  let ds := (Nat.digits 10 n).reverse.map Nat.digitChar
  List.replicate (4 - ds.length) '0' ++ ds

def mintedId (stem : String) (n : Nat) : String := stem ++ String.ofList (pad4 n)

def charDigit (c : Char) : Nat := c.toNat - '0'.toNat

def decimalValue (s : List Char) : Nat := Nat.ofDigits 10 (s.reverse.map charDigit)

theorem charDigit_digitChar {d : Nat} (h : d < 10) : charDigit (Nat.digitChar d) = d := by
  interval_cases d <;> rfl

theorem decimalValue_pad4 (n : Nat) : decimalValue (pad4 n) = n := by
  have hback : ((Nat.digits 10 n).map Nat.digitChar).map charDigit = Nat.digits 10 n := by
    rw [List.map_map]
    calc (Nat.digits 10 n).map (charDigit ∘ Nat.digitChar)
        = (Nat.digits 10 n).map id :=
          List.map_congr_left fun d hd =>
            charDigit_digitChar (Nat.digits_lt_base (by omega) hd)
      _ = Nat.digits 10 n := List.map_id _
  have hzero : charDigit '0' = 0 := rfl
  unfold decimalValue pad4
  simp only [List.reverse_append, List.map_append, List.reverse_replicate,
    List.map_replicate, List.map_reverse, List.reverse_reverse, hzero, hback]
  rw [Nat.ofDigits_append, Nat.ofDigits_replicate_zero, Nat.mul_zero, Nat.add_zero,
    Nat.ofDigits_digits]

variable {n m : Nat}

theorem pad4_inj (h : pad4 m = pad4 n) : m = n := by
  rw [← decimalValue_pad4 m, ← decimalValue_pad4 n, h]

theorem mintedId_inj {stem : String} (h : mintedId stem m = mintedId stem n) : m = n := by
  have hl := congrArg String.toList h
  simp only [mintedId, String.toList_append, String.toList_ofList] at hl
  exact pad4_inj (List.append_cancel_left hl)

example : mintedId "run_" 42 = "run_0042" := by decide

theorem charDigit_lt {c d : Char} (h : charDigit c < charDigit d) : c < d := by
  unfold charDigit at h
  have : c.toNat < d.toNat := by omega
  exact this

theorem decimalValue_cons (c : Char) (s : List Char) :
    decimalValue (c :: s) = charDigit c * 10 ^ s.length + decimalValue s := by
  unfold decimalValue
  rw [List.reverse_cons, List.map_append, Nat.ofDigits_append]
  simp [Nat.ofDigits_singleton, Nat.mul_comm, Nat.add_comm]

theorem decimalValue_append (s t : List Char) :
    decimalValue (s ++ t) = decimalValue s * 10 ^ t.length + decimalValue t := by
  unfold decimalValue
  rw [List.reverse_append, List.map_append, Nat.ofDigits_append, List.length_map,
    List.length_reverse, Nat.mul_comm, Nat.add_comm]

def Decimal (s : List Char) : Prop := ∀ c ∈ s, ∃ d < 10, c = Nat.digitChar d

variable {s : List Char}

theorem Decimal.value_lt (h : Decimal s) : decimalValue s < 10 ^ s.length := by
  unfold decimalValue
  have := Nat.ofDigits_lt_base_pow_length (b := 10) (l := s.reverse.map charDigit) (by omega) (by
    intro x hx
    rw [List.mem_map] at hx
    obtain ⟨c, hc, rfl⟩ := hx
    obtain ⟨d, hd, rfl⟩ := h c (List.mem_reverse.mp hc)
    rw [charDigit_digitChar hd]
    exact hd)
  simpa using this

variable {t : List Char}

theorem lt_of_value_lt (hs : Decimal s) (ht : Decimal t) (hlen : s.length = t.length)
    (h : decimalValue s < decimalValue t) : s < t := by
  induction s generalizing t with
  | nil =>
    cases t with
    | nil => simp at h
    | cons d t => simp at hlen
  | cons c s ih =>
    cases t with
    | nil => simp at hlen
    | cons d t =>
      have hlen' : s.length = t.length := by simpa using hlen
      rw [decimalValue_cons, decimalValue_cons, hlen'] at h
      have hs' : Decimal s := fun x hx => hs x (List.mem_cons_of_mem c hx)
      have ht' : Decimal t := fun x hx => ht x (List.mem_cons_of_mem d hx)
      have hvt := ht'.value_lt
      rcases lt_trichotomy (charDigit c) (charDigit d) with hlt | heq | hgt
      · exact List.Lex.rel (charDigit_lt hlt)
      · have hcd : c = d := by
          obtain ⟨x, hx, rfl⟩ := hs c List.mem_cons_self
          obtain ⟨y, hy, rfl⟩ := ht d List.mem_cons_self
          rw [charDigit_digitChar hx, charDigit_digitChar hy] at heq
          rw [heq]
        subst hcd
        exact List.Lex.cons (ih hs' ht' hlen' (by omega))
      · exfalso
        have : (charDigit d + 1) * 10 ^ t.length ≤ charDigit c * 10 ^ t.length :=
          Nat.mul_le_mul_right _ hgt
        rw [Nat.add_mul] at this
        omega

theorem Decimal.eq_of_value (hs : Decimal s) (ht : Decimal t) (hlen : s.length = t.length)
    (h : decimalValue s = decimalValue t) : s = t := by
  have hback : ∀ {u : List Char}, Decimal u → (u.map charDigit).map Nat.digitChar = u := by
    intro u hu
    rw [List.map_map]
    refine (List.map_congr_left fun c hc => ?_).trans (List.map_id u)
    obtain ⟨d, hd, rfl⟩ := hu c hc
    rw [Function.comp_apply, charDigit_digitChar hd, id_eq]
  have hdigit : ∀ {u : List Char}, Decimal u → ∀ d ∈ u.reverse.map charDigit, d < 10 := by
    intro u hu d hd
    obtain ⟨c, hc, rfl⟩ := List.mem_map.mp hd
    obtain ⟨d, hd', rfl⟩ := hu c (List.mem_reverse.mp hc)
    rwa [charDigit_digitChar hd']
  have hdigits := Nat.ofDigits_inj_of_len_eq (by omega) (by simp [hlen]) (hdigit hs) (hdigit ht) h
  rw [List.map_reverse, List.map_reverse, List.reverse_inj] at hdigits
  rw [← hback hs, hdigits, hback ht]

theorem Decimal.lt_iff (hs : Decimal s) (ht : Decimal t) (hlen : s.length = t.length) :
    s < t ↔ decimalValue s < decimalValue t := by
  refine ⟨fun h => ?_, lt_of_value_lt hs ht hlen⟩
  rcases lt_trichotomy (decimalValue s) (decimalValue t) with hlt | heq | hgt
  · exact hlt
  · rw [hs.eq_of_value ht hlen heq] at h
    exact absurd h (List.lt_irrefl t)
  · exact absurd h (List.lt_asymm (lt_of_value_lt ht hs hlen.symm hgt))

theorem append_lt_append_iff {u v : List Char} (hlen : s.length = t.length) :
    s ++ u < t ++ v ↔ s < t ∨ s = t ∧ u < v := by
  induction s generalizing t with
  | nil =>
    rw [List.length_nil, eq_comm, List.length_eq_zero_iff] at hlen
    subst hlen
    simp
  | cons c s ih =>
    cases t with
    | nil => simp at hlen
    | cons d t =>
      rw [List.cons_append, List.cons_append, List.cons_lt_cons_iff, List.cons_lt_cons_iff,
        ih (Nat.succ.inj hlen), List.cons_eq_cons]
      tauto

theorem append_lt_append_left_iff {u : List Char} : s ++ t < s ++ u ↔ t < u := by
  rw [append_lt_append_iff rfl, or_iff_right (List.lt_irrefl s), and_iff_right rfl]

theorem pad4_decimal (n : Nat) : Decimal (pad4 n) := by
  intro c hc
  rcases List.mem_append.mp hc with hc | hc
  · exact ⟨0, by omega, List.eq_of_mem_replicate hc⟩
  · rw [List.mem_map] at hc
    obtain ⟨d, hd, rfl⟩ := hc
    exact ⟨d, Nat.digits_lt_base (by omega) (List.mem_reverse.mp hd), rfl⟩

theorem pad4_length (h : n ≤ 9999) : (pad4 n).length = 4 := by
  have hle : (Nat.digits 10 n).length ≤ 4 := (Nat.digits_length_le_iff (by omega) n).mpr (by omega)
  simp [pad4]
  omega

theorem mintedId_lt (stem : String) (h : m < n) (hn : n ≤ 9999) :
    mintedId stem m < mintedId stem n := by
  have hlt : pad4 m < pad4 n := by
    refine lt_of_value_lt (pad4_decimal m) (pad4_decimal n) ?_ ?_
    · rw [pad4_length (by omega), pad4_length hn]
    · rw [decimalValue_pad4, decimalValue_pad4]
      exact h
  rw [String.lt_iff]
  simp only [mintedId, String.toList_append, String.toList_ofList]
  exact List.append_left_lt hlt

def idWidth (n : Nat) : Nat := max 4 (Nat.digits 10 n).length

theorem length_pad4 (n : Nat) : (pad4 n).length = idWidth n := by
  simp only [pad4, idWidth, List.length_append, List.length_replicate, List.length_map,
    List.length_reverse]
  omega

theorem idWidth_mono (h : m ≤ n) : idWidth m ≤ idWidth n :=
  max_le_max (le_refl 4) (Nat.le_length_digits_le 10 m n h)

theorem idWidth_four (h : n ≤ 9999) : idWidth n = 4 := by
  rw [← length_pad4, pad4_length h]

/-- The id of the one counter sorts before that of the other: the longer counter is cut to
the digits of the shorter one. -/
def IdBefore (m n : Nat) : Prop :=
  if m < n then m ≤ n / 10 ^ (idWidth n - idWidth m)
  else m / 10 ^ (idWidth m - idWidth n) < n

theorem pad4_lt_iff (h : m < n) : pad4 m < pad4 n ↔ m ≤ n / 10 ^ (idWidth n - idWidth m) := by
  have hwidth := idWidth_mono h.le
  have hsplit : pad4 n = (pad4 n).take (idWidth m) ++ (pad4 n).drop (idWidth m) :=
    (List.take_append_drop _ _).symm
  have hdec := pad4_decimal n
  generalize hhead : (pad4 n).take (idWidth m) = head at hsplit
  generalize hrest : (pad4 n).drop (idWidth m) = rest at hsplit
  have hlen : (pad4 m).length = head.length := by
    rw [← hhead, List.length_take, length_pad4, length_pad4]
    omega
  have hrestlen : rest.length = idWidth n - idWidth m := by
    rw [← hrest, List.length_drop, length_pad4]
  have hheaddec : Decimal head := fun c hc => hdec c (hsplit ▸ List.mem_append_left _ hc)
  have hrestdec : Decimal rest := fun c hc => hdec c (hsplit ▸ List.mem_append_right _ hc)
  have hvalue : n = decimalValue head * 10 ^ rest.length + decimalValue rest := by
    rw [← decimalValue_append, ← hsplit, decimalValue_pad4]
  have hdiv : decimalValue head = n / 10 ^ rest.length := by
    rw [hvalue, Nat.mul_comm, Nat.mul_add_div (by positivity),
      Nat.div_eq_of_lt hrestdec.value_lt, Nat.add_zero]
  have hlex : pad4 m < head ++ rest ↔ pad4 m < head ∨ pad4 m = head ∧ [] < rest := by
    have h := append_lt_append_iff (u := []) (v := rest) hlen
    rwa [List.append_nil] at h
  rw [hsplit, hlex, (pad4_decimal m).lt_iff hheaddec hlen, decimalValue_pad4, ← hrestlen, ← hdiv,
    Nat.le_iff_lt_or_eq]
  refine or_congr_right ⟨fun he => ?_, fun he => ⟨?_, ?_⟩⟩
  · rw [← he.1, decimalValue_pad4]
  · exact (pad4_decimal m).eq_of_value hheaddec hlen (he ▸ decimalValue_pad4 m)
  · cases rest with
    | cons c rest => exact List.nil_lt_cons c rest
    | nil =>
      rw [List.length_nil, Nat.pow_zero, Nat.div_one] at hdiv
      omega

theorem mintedId_lt_iff (stem : String) (m n : Nat) :
    mintedId stem m < mintedId stem n ↔ m ≠ n ∧ IdBefore m n := by
  have hpad : mintedId stem m < mintedId stem n ↔ pad4 m < pad4 n := by
    rw [String.lt_iff]
    simp only [mintedId, String.toList_append, String.toList_ofList]
    exact append_lt_append_left_iff
  rw [hpad, IdBefore]
  rcases lt_trichotomy m n with hlt | rfl | hgt
  · rw [pad4_lt_iff hlt, if_pos hlt]
    exact (and_iff_right hlt.ne).symm
  · exact iff_of_false (List.lt_irrefl _) (fun h => h.1 rfl)
  · have hflip : pad4 m < pad4 n ↔ ¬ pad4 n < pad4 m := by
      refine ⟨List.lt_asymm, fun h => ?_⟩
      exact (List.le_iff_lt_or_eq.mp (List.not_lt.mp h)).resolve_right
        fun he => hgt.ne' (pad4_inj he)
    rw [hflip, if_neg hgt.asymm, pad4_lt_iff hgt, Nat.not_le]
    exact (and_iff_right hgt.ne').symm

theorem idBefore_of_lt (h : m < n) (hn : n ≤ 9999) : IdBefore m n := by
  rw [IdBefore, if_pos h, idWidth_four hn, idWidth_four (by omega), Nat.sub_self, Nat.pow_zero,
    Nat.div_one]
  exact h.le

end Relux
