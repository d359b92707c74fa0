import Mathlib.Data.List.Basic

/-! Text helpers over character lists: trimming, splitting into fields and joining. -/

namespace Relux

/-- The Unicode `White_Space` property. -/
def isWhitespace (c : Char) : Bool :=
  let n := c.toNat
  (9 ≤ n && n ≤ 13) || n == 0x20 || n == 0x85 || n == 0xA0 || n == 0x1680 ||
    (0x2000 ≤ n && n ≤ 0x200A) || n == 0x2028 || n == 0x2029 || n == 0x202F ||
    n == 0x205F || n == 0x3000

def trimStart (s : List Char) : List Char := s.dropWhile isWhitespace

def trimChars (s : List Char) : List Char := (trimStart (trimStart s).reverse).reverse

def trim (s : String) : String := String.ofList (trimChars s.toList)

def splitFields (sep : Char → Bool) : List Char → List (List Char)
  | [] => [[]]
  | c :: cs =>
    if sep c then [] :: splitFields sep cs
    else match splitFields sep cs with
      | [] => [[c]]
      | w :: ws => (c :: w) :: ws

theorem splitFields_ne_nil (sep : Char → Bool) (s : List Char) : splitFields sep s ≠ [] := by
  cases s with
  | nil => simp [splitFields]
  | cons c cs =>
    unfold splitFields
    split
    · simp
    · split <;> simp

def joinFields (sep : List Char) : List (List Char) → List Char
  | [] => []
  | [w] => w
  | w :: ws => w ++ sep ++ joinFields sep ws

theorem joinFields_splitFields (c : Char) (s : List Char) :
    joinFields [c] (splitFields (· == c) s) = s := by
  induction s with
  | nil => rfl
  | cons d s ih =>
    by_cases hd : d = c
    · have hfields : splitFields (· == c) (d :: s) = [] :: splitFields (· == c) s := by
        simp [splitFields, hd]
      obtain ⟨w, ws, hws⟩ := List.exists_cons_of_ne_nil (splitFields_ne_nil (· == c) s)
      rw [hws] at ih
      rw [hfields, hws, joinFields, ih, hd]
      · rfl
      · simp
    · obtain ⟨w, ws, hws⟩ := List.exists_cons_of_ne_nil (splitFields_ne_nil (· == c) s)
      have hfields : splitFields (· == c) (d :: s) = (d :: w) :: ws := by
        simp [splitFields, hd, hws]
      rw [hws] at ih
      cases ws with
      | nil => simpa [hfields, joinFields] using ih
      | cons v ws => simpa [hfields, joinFields] using ih

variable {c : Char}

theorem head_append {a x : String} (h : a.toList[0]? = some c) : (a ++ x).toList[0]? = some c := by
  have hlen : 0 < a.toList.length := by
    cases ha : a.toList with
    | nil => simp [ha] at h
    | cons d ds => simp
  rw [String.toList_append, List.getElem?_append_left hlen, h]

def toAsciiLowercase (s : List Char) : List Char := s.map Char.toLower

def isControl (c : Char) : Bool := c.toNat < 32 || (127 ≤ c.toNat && c.toNat < 160)

def containsChars (needle : List Char) : List Char → Bool
  | [] => needle.isEmpty
  | c :: cs => needle.isPrefixOf (c :: cs) || containsChars needle cs

def containsText (s needle : String) : Bool := containsChars needle.toList s.toList

def splitOnce (sep : Char) (s : List Char) : Option (List Char × List Char) :=
  match s.dropWhile (· != sep) with
  | [] => none
  | _ :: rest => some (s.takeWhile (· != sep), rest)

theorem splitOnce_append {sep : Char} {s : List Char} (h : sep ∉ s) (rest : List Char) :
    splitOnce sep (s ++ sep :: rest) = some (s, rest) := by
  have hall : ∀ c ∈ s, (c != sep) = true := by
    intro c hc
    rw [bne_iff_ne]
    rintro rfl
    exact h hc
  unfold splitOnce
  rw [List.dropWhile_append_of_pos hall, List.takeWhile_append_of_pos hall]
  simp

def trimMatches (p : Char → Bool) (s : List Char) : List Char :=
  ((s.dropWhile p).reverse.dropWhile p).reverse

variable {w : List Char}

theorem splitFields_append (hw : c ∉ w) (rest : List Char) :
    splitFields (· == c) (w ++ c :: rest) = w :: splitFields (· == c) rest := by
  induction w with
  | nil => simp [splitFields]
  | cons d w ih =>
    rw [List.mem_cons, not_or] at hw
    have hd : (d == c) = false := by simpa using Ne.symm hw.1
    rw [List.cons_append, splitFields, ih hw.2, hd]
    rfl

theorem splitFields_single (hw : c ∉ w) : splitFields (· == c) w = [w] := by
  induction w with
  | nil => rfl
  | cons d w ih =>
    rw [List.mem_cons, not_or] at hw
    have hd : (d == c) = false := by simpa using Ne.symm hw.1
    rw [splitFields, ih hw.2, hd]
    rfl

variable {ws : List (List Char)}

theorem splitFields_joinFields (hne : ws ≠ []) (hfree : ∀ w ∈ ws, c ∉ w) :
    splitFields (· == c) (joinFields [c] ws) = ws := by
  induction ws with
  | nil => exact absurd rfl hne
  | cons w ws ih =>
    cases ws with
    | nil => exact splitFields_single (hfree w List.mem_cons_self)
    | cons v vs =>
      have hjoin : joinFields [c] (w :: v :: vs) = w ++ c :: joinFields [c] (v :: vs) := by
        simp [joinFields]
      rw [hjoin, splitFields_append (hfree w List.mem_cons_self),
        ih (List.cons_ne_nil _ _) (fun x hx => hfree x (List.mem_cons_of_mem _ hx))]

theorem count_joinFields (c : Char) (ws : List (List Char)) :
    ws.length ≤ (joinFields [c] ws).count c + 1 ∧
      ((joinFields [c] ws).count c + 1 ≤ ws.length → ∀ w ∈ ws, c ∉ w) := by
  induction ws with
  | nil => simp
  | cons w ws ih =>
    cases ws with
    | nil =>
      simp only [joinFields, List.length_singleton]
      refine ⟨by omega, fun h v hv => ?_⟩
      rw [List.mem_singleton] at hv
      rw [hv]
      exact List.count_eq_zero.mp (by omega)
    | cons v vs =>
      have hcount : (joinFields [c] (w :: v :: vs)).count c =
          w.count c + 1 + (joinFields [c] (v :: vs)).count c := by
        simp only [joinFields, List.count_append, List.count_singleton_self]
      obtain ⟨hle, hfree⟩ := ih
      have hlen : (w :: v :: vs).length = (v :: vs).length + 1 := rfl
      refine ⟨by omega, fun h x hx => ?_⟩
      rcases List.mem_cons.mp hx with rfl | hx
      · exact List.count_eq_zero.mp (by omega)
      · exact hfree (by omega) x hx

theorem count_joinFields_of_free (hne : ws ≠ []) (hfree : ∀ w ∈ ws, c ∉ w) :
    (joinFields [c] ws).count c + 1 = ws.length := by
  induction ws with
  | nil => exact absurd rfl hne
  | cons w ws ih =>
    have hw : w.count c = 0 := List.count_eq_zero.mpr (hfree w List.mem_cons_self)
    cases ws with
    | nil => simp [joinFields, hw]
    | cons v vs =>
      have hrest := ih (List.cons_ne_nil _ _) (fun x hx => hfree x (List.mem_cons_of_mem _ hx))
      have hcount : (joinFields [c] (w :: v :: vs)).count c =
          w.count c + 1 + (joinFields [c] (v :: vs)).count c := by
        simp only [joinFields, List.count_append, List.count_singleton_self]
      simp only [List.length_cons] at hrest ⊢
      omega

theorem joinFields_inj {vs : List (List Char)} (hlen : ws.length = vs.length)
    (hfree : ∀ w ∈ ws, c ∉ w) (h : joinFields [c] ws = joinFields [c] vs) : ws = vs := by
  by_cases hne : ws = []
  · subst hne
    exact (List.length_eq_zero_iff.mp hlen.symm).symm
  have hne' : vs ≠ [] := by
    intro hnil
    rw [hnil] at hlen
    exact hne (List.length_eq_zero_iff.mp hlen)
  have hcount := count_joinFields_of_free hne hfree
  have hfree' : ∀ v ∈ vs, c ∉ v := (count_joinFields c vs).2 (by rw [← h]; omega)
  calc ws = splitFields (· == c) (joinFields [c] ws) := (splitFields_joinFields hne hfree).symm
    _ = splitFields (· == c) (joinFields [c] vs) := by rw [h]
    _ = vs := splitFields_joinFields hne' hfree'

theorem toList_intercalate_joinFields (sep : String) (l : List String) :
    (String.intercalate sep l).toList = joinFields sep.toList (l.map String.toList) := by
  rw [String.toList_intercalate]
  generalize l.map String.toList = ws
  induction ws with
  | nil => rfl
  | cons w ws ih =>
    cases ws with
    | nil => simp [joinFields]
    | cons v vs =>
      rw [joinFields, ← ih]
      · simp [List.intercalate]
      · simp

/-- `str::splitn`: the text after the last separator that counts is left whole. -/
def splitN (sep : Char) : Nat → List Char → List (List Char)
  | 0, _ => []
  | 1, s => [s]
  | n + 2, s =>
    match splitOnce sep s with
    | none => [s]
    | some (field, rest) => field :: splitN sep (n + 1) rest

end Relux
