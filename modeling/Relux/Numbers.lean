import Mathlib.Data.List.Basic

/-! Numbers as the source has them: decimal texts that are read, and 64 bits that are signed. -/

namespace Relux

/-- A decimal number no greater than `max`, a plus sign before it or not. -/
def parseUnsigned (max : Nat) (s : List Char) : Option Nat :=
  let digits := if s.head? = some '+' then s.tail else s
  if digits.isEmpty || !digits.all Char.isDigit then none
  else
    let n := digits.foldl (fun n c => 10 * n + (c.toNat - 48)) 0
    if n ≤ max then some n else none

def parseI64 (s : List Char) : Option Int :=
  if s.head? = some '-' ∧ s.tail.head? ≠ some '+' then
    (parseUnsigned 9223372036854775808 s.tail).map (fun n => -(n : Int))
  else (parseUnsigned 9223372036854775807 s).map (fun n => (n : Int))

theorem parseUnsigned_toDigits {max n : Nat} (h : n ≤ max) :
    parseUnsigned max (Nat.toDigits 10 n) = some n := by
  have hdigits : ∀ c ∈ Nat.toDigits 10 n, c.isDigit = true := by
    intro c hc
    exact Nat.isDigit_of_mem_toDigits (by decide) (by decide) hc
  have hsign : (Nat.toDigits 10 n).head? ≠ some '+' := by
    intro hplus
    have hdigit := hdigits '+' (List.mem_of_mem_head? hplus)
    exact absurd hdigit (by decide)
  have hvalue := Nat.ofDigitChars_ten_toDigits (n := n)
  have hall : (Nat.toDigits 10 n).all Char.isDigit = true := List.all_eq_true.mpr hdigits
  have hne : (Nat.toDigits 10 n).isEmpty = false := by
    rw [List.isEmpty_eq_false_iff]
    exact Nat.toDigits_ne_nil
  have hvalue' : (Nat.toDigits 10 n).foldl (fun n c => 10 * n + (c.toNat - 48)) 0 = n := hvalue
  unfold parseUnsigned
  simp only [if_neg hsign, hall, hne, hvalue', if_pos h, Bool.not_true, Bool.or_self,
    Bool.false_eq_true, if_false]

theorem parseI64_toString {n : Int} (hmin : -9223372036854775808 ≤ n)
    (hmax : n ≤ 9223372036854775807) : parseI64 (toString n).toList = some n := by
  have hplain : ∀ m : Nat, (Nat.toDigits 10 m).head? ≠ some '-' ∧
      (Nat.toDigits 10 m).head? ≠ some '+' := by
    intro m
    constructor
    all_goals
      intro hsign
      have hdigit := Nat.isDigit_of_mem_toDigits (by decide) (by decide)
        (List.mem_of_mem_head? hsign)
      exact absurd hdigit (by decide)
  rw [Int.toString_eq_repr, Int.repr_eq_if]
  unfold parseI64
  by_cases hsign : 0 ≤ n
  · rw [if_pos hsign, Nat.toList_repr, if_neg (fun h => (hplain _).1 h.1),
      parseUnsigned_toDigits (by omega)]
    exact congrArg some (Int.toNat_of_nonneg hsign)
  · rw [if_neg hsign, String.toList_append, Nat.toList_repr]
    have hminus : ("-".toList ++ Nat.toDigits 10 (-n).toNat) = '-' :: Nat.toDigits 10 (-n).toNat :=
      rfl
    rw [hminus, if_pos ⟨rfl, (hplain _).2⟩, List.tail_cons, parseUnsigned_toDigits (by omega)]
    have hback : -((-n).toNat : Int) = n := by omega
    exact congrArg some hback

/-- The 64 bits of `n` as a signed number. -/
def asI64 (n : Nat) : Int := if n ≤ 9223372036854775807 then n else (n : Int) - 18446744073709551616

def saturatingAddI64 (a b : Int) : Int :=
  max (-9223372036854775808) (min 9223372036854775807 (a + b))

end Relux
