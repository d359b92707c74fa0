import Mathlib.Data.List.TakeWhile
import Relux.Text

/-! What splitting and trimming leave of a text. -/

namespace Relux

variable {s : List Char}

theorem splitOnce_eq_some {sep : Char} {before after : List Char} :
    splitOnce sep s = some (before, after) ↔ s = before ++ sep :: after ∧ sep ∉ before := by
  constructor
  · intro h
    have hsplit : s.takeWhile (· != sep) ++ s.dropWhile (· != sep) = s :=
      List.takeWhile_append_dropWhile
    unfold splitOnce at h
    cases hdrop : s.dropWhile (· != sep) with
    | nil =>
      rw [hdrop] at h
      cases h
    | cons c rest =>
      rw [hdrop] at h hsplit
      obtain ⟨rfl, rfl⟩ := Prod.mk.inj (Option.some.inj h)
      have hhead := List.head_dropWhile_not (· != sep) (l := s) (by simp [hdrop])
      have hc : c = sep := by simpa [hdrop] using hhead
      refine ⟨?_, ?_⟩
      · rw [hc] at hsplit
        exact hsplit.symm
      · intro hmem
        have hne := List.mem_takeWhile_imp hmem
        simp at hne
  · rintro ⟨rfl, hfree⟩
    exact splitOnce_append hfree after

theorem splitOnce_eq_none {sep : Char} : splitOnce sep s = none ↔ sep ∉ s := by
  constructor
  · intro h hmem
    obtain ⟨before, after, rfl, hfree⟩ := List.eq_append_cons_of_mem hmem
    rw [splitOnce_append hfree] at h
    cases h
  · intro hfree
    cases h : splitOnce sep s with
    | none => rfl
    | some parts =>
      obtain ⟨rfl, -⟩ := splitOnce_eq_some.mp h
      simp at hfree

variable {sep : Char → Bool} {c : Char}

theorem splitFields_sep (hc : sep c = true) (s : List Char) :
    splitFields sep (c :: s) = [] :: splitFields sep s := if_pos hc

variable {ws : List (List Char)} {w : List Char}

theorem splitFields_cons (hc : sep c = false) (h : splitFields sep s = w :: ws) :
    splitFields sep (c :: s) = (c :: w) :: ws := by
  refine (if_neg (by simp [hc])).trans ?_
  rw [h]

theorem splitFields_free (h : w ∈ splitFields sep s) : ∀ c ∈ w, sep c = false := by
  induction s generalizing w with
  | nil =>
    rw [List.mem_singleton.mp h]
    simp
  | cons d s ih =>
    obtain ⟨v, vs, hvs⟩ := List.exists_cons_of_ne_nil (splitFields_ne_nil sep s)
    by_cases hd : sep d = true
    · rw [splitFields_sep hd] at h
      rcases List.mem_cons.mp h with rfl | hw
      · simp
      · exact ih hw
    · rw [Bool.not_eq_true] at hd
      rw [splitFields_cons hd hvs] at h
      rw [hvs] at ih
      rcases List.mem_cons.mp h with rfl | hw
      · intro c hc
        rcases List.mem_cons.mp hc with rfl | hc
        · exact hd
        · exact ih List.mem_cons_self c hc
      · exact ih (List.mem_cons_of_mem _ hw)

theorem splitFields_of_free (hw : ∀ c ∈ w, sep c = false) : splitFields sep w = [w] := by
  induction w with
  | nil => rfl
  | cons d w ih =>
    rw [List.forall_mem_cons] at hw
    exact splitFields_cons hw.1 (ih hw.2)

theorem splitFields_append_sep (hc : sep c = true) (hw : ∀ d ∈ w, sep d = false) (s : List Char) :
    splitFields sep (w ++ c :: s) = w :: splitFields sep s := by
  induction w with
  | nil => exact splitFields_sep hc s
  | cons d w ih =>
    rw [List.forall_mem_cons] at hw
    exact splitFields_cons hw.1 (ih hw.2)

theorem splitFields_join (hc : sep c = true) (hne : ws ≠ [])
    (hfree : ∀ w ∈ ws, ∀ d ∈ w, sep d = false) : splitFields sep (joinFields [c] ws) = ws := by
  induction ws with
  | nil => exact absurd rfl hne
  | cons w ws ih =>
    rw [List.forall_mem_cons] at hfree
    cases ws with
    | nil => exact splitFields_of_free hfree.1
    | cons v vs =>
      have hjoin : joinFields [c] (w :: v :: vs) = w ++ c :: joinFields [c] (v :: vs) := by
        simp [joinFields]
      rw [hjoin, splitFields_append_sep hc hfree.1, ih (List.cons_ne_nil _ _) hfree.2]

/-- The fields of a text that is cut off after `n` characters. -/
def cutFields : Nat → List (List Char) → List (List Char)
  | _, [] => []
  | n, w :: ws =>
    if n ≤ w.length then [w.take n] else w :: cutFields (n - w.length - 1) ws

variable {n : Nat}

theorem cutFields_cons : cutFields n (w :: ws) =
    if n ≤ w.length then [w.take n] else w :: cutFields (n - w.length - 1) ws := rfl

theorem cutFields_ne_nil (h : ws ≠ []) : cutFields n ws ≠ [] := by
  cases ws with
  | nil => exact absurd rfl h
  | cons w ws =>
    rw [cutFields_cons]
    split <;> simp

theorem joinFields_cutFields (c : Char) (n : Nat) (ws : List (List Char)) :
    joinFields [c] (cutFields n ws) = (joinFields [c] ws).take n := by
  induction ws generalizing n with
  | nil => exact (List.take_nil).symm
  | cons w ws ih =>
    rw [cutFields_cons]
    split
    next hle =>
      cases ws with
      | nil => rfl
      | cons v vs =>
        simp only [joinFields, List.append_assoc]
        rw [List.take_append_of_le_length hle]
    next hlt =>
      cases ws with
      | nil => exact (List.take_of_length_le (show w.length ≤ n by omega)).symm
      | cons v vs =>
        obtain ⟨x, xs, hcut⟩ := List.exists_cons_of_ne_nil
          (cutFields_ne_nil (n := n - w.length - 1) (List.cons_ne_nil v vs))
        have hrest := ih (n - w.length - 1)
        have hjoin : joinFields [c] (w :: v :: vs) = w ++ c :: joinFields [c] (v :: vs) := by
          simp [joinFields]
        have hn : n - w.length = (n - w.length - 1) + 1 := by omega
        rw [hcut] at hrest ⊢
        rw [hjoin, List.take_append, List.take_of_length_le (by omega : w.length ≤ n), hn,
          List.take_succ_cons, ← hrest]
        simp [joinFields]

theorem mem_cutFields_dropLast (h : w ∈ (cutFields n ws).dropLast) : w ∈ ws.dropLast := by
  induction ws generalizing n with
  | nil => cases h
  | cons v vs ih =>
    rw [cutFields_cons] at h
    split at h
    · simp at h
    · cases vs with
      | nil => cases h
      | cons u us =>
        rw [List.dropLast_cons_of_ne_nil (cutFields_ne_nil (List.cons_ne_nil u us))] at h
        rcases List.mem_cons.mp h with rfl | hw
        · exact List.mem_cons_self
        · exact List.mem_cons_of_mem _ (ih hw)

theorem mem_cutFields (h : w ∈ cutFields n ws) : ∃ v ∈ ws, w <+: v := by
  induction ws generalizing n with
  | nil => cases h
  | cons v vs ih =>
    rw [cutFields_cons] at h
    split at h
    · rw [List.mem_singleton.mp h]
      exact ⟨v, List.mem_cons_self, List.take_prefix n v⟩
    · rcases List.mem_cons.mp h with rfl | hw
      · exact ⟨w, List.mem_cons_self, List.prefix_rfl⟩
      · obtain ⟨u, hu, hpre⟩ := ih hw
        exact ⟨u, List.mem_cons_of_mem _ hu, hpre⟩

theorem trimStart_eq_self : trimStart s = s ↔ ∀ c ∈ s.head?, isWhitespace c = false := by
  unfold trimStart
  cases s with
  | nil => simp
  | cons c s =>
    rw [List.dropWhile_eq_self_iff]
    simp

theorem trimChars_eq_self :
    trimChars s = s ↔
      (∀ c ∈ s.head?, isWhitespace c = false) ∧ ∀ c ∈ s.getLast?, isWhitespace c = false := by
  unfold trimChars
  rw [← trimStart_eq_self, ← List.head?_reverse, ← trimStart_eq_self]
  constructor
  · intro h
    have hlen := congrArg List.length h
    rw [List.length_reverse] at hlen
    have hfirst : (trimStart s).length ≤ s.length := (List.dropWhile_sublist _).length_le
    have hsecond : (trimStart (trimStart s).reverse).length ≤ (trimStart s).reverse.length :=
      (List.dropWhile_sublist _).length_le
    rw [List.length_reverse] at hsecond
    have hstart : trimStart s = s :=
      (List.dropWhile_sublist isWhitespace).eq_of_length (by unfold trimStart at *; omega)
    rw [hstart] at h
    refine ⟨hstart, ?_⟩
    rw [← List.reverse_inj, List.reverse_reverse]
    exact h
  · rintro ⟨hstart, hend⟩
    rw [hstart, hend, List.reverse_reverse]

end Relux
