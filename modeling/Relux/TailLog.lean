import Mathlib.Data.List.Infix

/-! A log of which only the last `cap` entries are kept. Its readers come back with the
position they have read to, counted from the start of the log, or relative to the entries
that were kept when they last came. -/

namespace Relux

namespace TailLog

variable {α : Type} {cap m n : Nat} {xs ys zs : List α}

def dropped (cap : Nat) (xs : List α) : Nat := xs.length - cap

def kept (cap : Nat) (xs : List α) : List α := xs.drop (dropped cap xs)

/-- What a reader that has seen the first `seen` entries is owed: the later ones, as far as
they are kept. -/
def owed (cap seen : Nat) (xs : List α) : List α := xs.drop (max seen (dropped cap xs))

theorem kept_length (cap : Nat) (xs : List α) : (kept cap xs).length = min xs.length cap := by
  simp only [kept, dropped, List.length_drop]
  omega

theorem kept_append_kept (cap : Nat) (xs ys : List α) :
    kept cap (kept cap xs ++ ys) = kept cap (xs ++ ys) := by
  have hd : dropped cap (xs ++ ys) =
      dropped cap xs + dropped cap (kept cap xs ++ ys) := by
    simp only [dropped, List.length_append, kept_length]
    omega
  have hle : dropped cap xs ≤ xs.length := by
    simp only [dropped]
    omega
  have hxs : (kept cap xs ++ ys) = (xs ++ ys).drop (dropped cap xs) := by
    rw [List.drop_append_of_le_length hle]
    rfl
  unfold kept at *
  rw [hd, ← List.drop_drop, ← hxs]

theorem dropped_append (cap : Nat) (xs ys : List α) :
    dropped cap xs + dropped cap (kept cap xs ++ ys) = dropped cap (xs ++ ys) := by
  simp only [dropped, List.length_append, kept_length]
  omega

theorem dropped_mono (cap : Nat) (xs ys : List α) : dropped cap xs ≤ dropped cap (xs ++ ys) := by
  simp only [dropped, List.length_append]
  omega

theorem owed_eq_drop (cap seen : Nat) (xs : List α) :
    owed cap seen xs = (kept cap xs).drop (seen - dropped cap xs) := by
  unfold owed kept
  rw [List.drop_drop]
  congr 1
  omega

theorem drop_eq_drop_iff (m n : Nat) (xs : List α) :
    xs.drop m = xs.drop n ↔ m = n ∨ (xs.length ≤ m ∧ xs.length ≤ n) := by
  constructor
  · intro h
    have hl := congrArg List.length h
    simp only [List.length_drop] at hl
    omega
  · rintro (rfl | ⟨hm, hn⟩)
    · rfl
    · rw [List.drop_eq_nil_of_le hm, List.drop_eq_nil_of_le hn]

theorem relative_read_iff (hys : ys ≠ []) (zs : List α) (hcap : 0 < cap) :
    (kept cap (ys ++ zs)).drop (kept cap ys).length = owed cap ys.length (ys ++ zs) ↔
      (ys ++ zs).length ≤ cap ∨ zs = [] := by
  have hpos : 0 < ys.length := List.length_pos_of_ne_nil hys
  rw [owed_eq_drop, drop_eq_drop_iff, kept_length, kept_length]
  simp only [dropped, List.length_append]
  constructor
  · intro h
    by_cases hz : zs = []
    · exact .inr hz
    · have hzpos : 0 < zs.length := List.length_pos_of_ne_nil hz
      left
      omega
  · rintro (h | rfl)
    · left
      omega
    · left
      simp only [List.length_nil]
      omega

theorem full_read_iff (ys zs : List α) (hcap : 0 < cap) :
    kept cap (ys ++ zs) = owed cap ys.length (ys ++ zs) ↔
      ys = [] ∨ ys.length + cap ≤ (ys ++ zs).length := by
  have hstart : kept cap (ys ++ zs) = (kept cap (ys ++ zs)).drop 0 := rfl
  rw [owed_eq_drop, hstart, List.drop_drop, drop_eq_drop_iff, kept_length,
    ← List.length_eq_zero_iff]
  simp only [dropped, List.length_append]
  omega

theorem owed_length (cap seen : Nat) (xs : List α) :
    xs.length ≤ max seen (dropped cap xs) + (owed cap seen xs).length := by
  simp only [owed, List.length_drop]
  omega

section Pieces

variable {β : Type} {bs : List β} {f : β → List α}

end Pieces

end TailLog

end Relux
