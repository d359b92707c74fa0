import Mathlib.Data.List.Nodup
import Relux.Forest

/-! Parent pointers, seen from above: the search for what is below an element, which stops at
a number of finds, and the guard that looks for an element on the way up. -/

namespace Relux

namespace Forest

variable {α : Type} {next : α → Option α}

theorem Acyclic.mono {next' : α → Option α} (h : Acyclic next)
    (hsub : ∀ a b, next' a = some b → next a = some b) : Acyclic next' := by
  intro a ha
  exact h a (Relation.TransGen.mono hsub a a ha)

variable [DecidableEq α]

/-- Whether `a` is `b` or at most `n` pointers above it. -/
def reaches (next : α → Option α) (a : α) : Nat → α → Bool
  | 0, b => b == a
  | n + 1, b => b == a || (next b).any (reaches next a n)

theorem reaches_iff {a b : α} {n : Nat} :
    reaches next a n b = true ↔ ∃ k ≤ n, upN next k b = some a := by
  induction n generalizing b with
  | zero =>
    constructor
    · intro h
      exact ⟨0, Nat.le_refl 0, congrArg some (eq_of_beq h)⟩
    · rintro ⟨k, hk, hup⟩
      obtain rfl := Nat.le_zero.mp hk
      exact beq_iff_eq.mpr (Option.some.inj hup)
  | succ n ih =>
    rw [reaches, Bool.or_eq_true, beq_iff_eq, Option.any_eq_true]
    constructor
    · rintro (rfl | ⟨p, hp, hreach⟩)
      · exact ⟨0, Nat.zero_le _, rfl⟩
      · obtain ⟨k, hk, hup⟩ := ih.mp hreach
        exact ⟨k + 1, Nat.succ_le_succ hk, (upN_succ hp).trans hup⟩
    · rintro ⟨k, hk, hup⟩
      cases k with
      | zero => exact .inl (Option.some.inj hup)
      | succ k =>
        cases hp : next b with
        | none =>
          rw [upN, hp, Option.bind_none] at hup
          cases hup
        | some p =>
          rw [upN_succ hp] at hup
          exact .inr ⟨p, rfl, ih.mpr ⟨k, Nat.le_of_succ_le_succ hk, hup⟩⟩

def fresh (root : α) (out children : List α) : List α :=
  children.foldl (fun new c => if c ∈ root :: (out ++ new) then new else new ++ [c]) []

/-- The finds of a search downwards that goes on from the last find, and stops when it has
`cap` of them. -/
def descend (children : α → List α) (cap : Nat) (root : α) : Nat → List α → List α → List α
  | 0, out, _ => out
  | _ + 1, out, [] => out
  | n + 1, out, node :: frontier =>
    if cap ≤ out.length then out
    else
      descend children cap root n (out ++ fresh root out (children node))
        ((fresh root out (children node)).reverse ++ frontier)

theorem fresh_spec (root : α) (out children : List α) :
    (∀ c, c ∈ fresh root out children ↔ c ∈ children ∧ c ≠ root ∧ c ∉ out) ∧
      (fresh root out children).Nodup := by
  have hfold : ∀ (l new : List α), new.Nodup → (∀ c ∈ new, c ≠ root ∧ c ∉ out) →
      (∀ c, c ∈ l.foldl (fun new c => if c ∈ root :: (out ++ new) then new else new ++ [c]) new ↔
        c ∈ new ∨ (c ∈ l ∧ c ≠ root ∧ c ∉ out)) ∧
      (l.foldl (fun new c => if c ∈ root :: (out ++ new) then new else new ++ [c]) new).Nodup := by
    intro l
    induction l with
    | nil =>
      intro new hnodup _
      exact ⟨fun c => by simp, hnodup⟩
    | cons d l ih =>
      intro new hnodup hnew
      rw [List.foldl_cons]
      by_cases hd : d ∈ root :: (out ++ new)
      · rw [if_pos hd]
        obtain ⟨hmem, hnd⟩ := ih new hnodup hnew
        refine ⟨fun c => ?_, hnd⟩
        rw [hmem]
        simp only [List.mem_cons, List.mem_append] at hd ⊢
        constructor
        · rintro (hc | ⟨hc, hne⟩)
          · exact .inl hc
          · exact .inr ⟨.inr hc, hne⟩
        · rintro (hc | ⟨rfl | hc, hroot, hout⟩)
          · exact .inl hc
          · rcases hd with rfl | hout' | hnew'
            · exact absurd rfl hroot
            · exact absurd hout' hout
            · exact .inl hnew'
          · exact .inr ⟨hc, hroot, hout⟩
      · rw [if_neg hd]
        simp only [List.mem_cons, List.mem_append, not_or] at hd
        obtain ⟨hroot, hout, hdnew⟩ := hd
        have hnodup' : (new ++ [d]).Nodup := by
          rw [List.nodup_append]
          refine ⟨hnodup, List.nodup_singleton d, ?_⟩
          intro x hx y hy hxy
          rw [hxy, List.mem_singleton.mp hy] at hx
          exact hdnew hx
        have hnew' : ∀ c ∈ new ++ [d], c ≠ root ∧ c ∉ out := by
          intro c hc
          rcases List.mem_append.mp hc with hc | hc
          · exact hnew c hc
          · rw [List.mem_singleton.mp hc]
            exact ⟨hroot, hout⟩
        obtain ⟨hmem, hnd⟩ := ih (new ++ [d]) hnodup' hnew'
        refine ⟨fun c => ?_, hnd⟩
        rw [hmem]
        simp only [List.mem_cons, List.mem_append, List.not_mem_nil, or_false]
        constructor
        · rintro ((hc | rfl) | ⟨hc, hne⟩)
          · exact .inl hc
          · exact .inr ⟨.inl rfl, hroot, hout⟩
          · exact .inr ⟨.inr hc, hne⟩
        · rintro (hc | ⟨rfl | hc, hne⟩)
          · exact .inl (.inl hc)
          · exact .inl (.inr rfl)
          · exact .inr ⟨hc, hne⟩
  obtain ⟨hmem, hnodup⟩ := hfold children [] List.nodup_nil (fun c hc => by cases hc)
  refine ⟨fun c => ?_, hnodup⟩
  rw [fresh, hmem]
  simp

/-- What a search has found: things below the root, each once, and of everything found or
the root all children, but for what is still to be looked at. -/
structure Searched (next : α → Option α) (root : α) (out frontier : List α) : Prop where
  nodup : out.Nodup
  above : ∀ c ∈ out, Above next c root
  notRoot : root ∉ out
  pending : ∀ c ∈ frontier, c ∈ root :: out
  closed : ∀ a ∈ root :: out, a ∈ frontier ∨ ∀ c, next c = some a → c ∈ root :: out

section
variable {children : α → List α} {root : α} {cap : Nat} {frontier : List α}

theorem Searched.step (hchildren : ∀ a c, c ∈ children a ↔ next c = some a) {out : List α}
    {node : α} (h : Searched next root out (node :: frontier)) :
    Searched next root (out ++ fresh root out (children node))
      ((fresh root out (children node)).reverse ++ frontier) := by
  obtain ⟨hmem, hnodup⟩ := fresh_spec root out (children node)
  have hnode : node = root ∨ Above next node root := by
    rcases List.mem_cons.mp (h.pending node List.mem_cons_self) with rfl | hout
    · exact .inl rfl
    · exact .inr (h.above node hout)
  refine ⟨?_, ?_, ?_, ?_, ?_⟩
  · rw [List.nodup_append]
    refine ⟨h.nodup, hnodup, fun x hx y hy hxy => ?_⟩
    rw [hxy] at hx
    exact ((hmem y).mp hy).2.2 hx
  · intro c hc
    rcases List.mem_append.mp hc with hc | hc
    · exact h.above c hc
    · have hnext : next c = some node := (hchildren node c).mp ((hmem c).mp hc).1
      rcases hnode with rfl | habove
      · exact .single hnext
      · exact .head hnext habove
  · intro hroot
    rcases List.mem_append.mp hroot with hroot | hroot
    · exact h.notRoot hroot
    · exact ((hmem root).mp hroot).2.1 rfl
  · intro c hc
    rcases List.mem_append.mp hc with hc | hc
    · exact List.mem_cons_of_mem _ (List.mem_append_right _ (List.mem_reverse.mp hc))
    · rcases List.mem_cons.mp (h.pending c (List.mem_cons_of_mem _ hc)) with rfl | hout
      · exact List.mem_cons_self
      · exact List.mem_cons_of_mem _ (List.mem_append_left _ hout)
  · have hgrow : ∀ c, c ∈ root :: out → c ∈ root :: (out ++ fresh root out (children node)) := by
      intro c hc
      rcases List.mem_cons.mp hc with rfl | hout
      · exact List.mem_cons_self
      · exact List.mem_cons_of_mem _ (List.mem_append_left _ hout)
    have hold : ∀ a ∈ root :: out,
        a ∈ (fresh root out (children node)).reverse ++ frontier ∨
          ∀ c, next c = some a → c ∈ root :: (out ++ fresh root out (children node)) := by
      intro a ha
      rcases h.closed a ha with hfront | hclosed
      · rcases List.mem_cons.mp hfront with rfl | hfront
        · refine .inr (fun c hc => ?_)
          by_cases hseen : c ∈ root :: out
          · exact hgrow c hseen
          · rw [List.mem_cons, not_or] at hseen
            exact List.mem_cons_of_mem _ (List.mem_append_right _
              ((hmem c).mpr ⟨(hchildren a c).mpr hc, hseen⟩))
        · exact .inl (List.mem_append_right _ hfront)
      · exact .inr (fun c hc => hgrow c (hclosed c hc))
    intro a ha
    rcases List.mem_cons.mp ha with rfl | ha
    · exact hold a List.mem_cons_self
    · rcases List.mem_append.mp ha with hout | hnew
      · exact hold a (List.mem_cons_of_mem _ hout)
      · exact .inl (List.mem_append_left _ (List.mem_reverse.mpr hnew))

theorem descend_searched (hchildren : ∀ a c, c ∈ children a ↔ next c = some a) {n : Nat}
    {out : List α} (h : Searched next root out frontier)
    (hfuel : cap ≤ out.length ∧ 1 ≤ n ∨ frontier.length + (cap - out.length) + 1 ≤ n) :
    ∃ rest, Searched next root (descend children cap root n out frontier) rest ∧
      (rest = [] ∨ cap ≤ (descend children cap root n out frontier).length) := by
  induction n generalizing out frontier with
  | zero => omega
  | succ n ih =>
    cases frontier with
    | nil => exact ⟨[], h, .inl rfl⟩
    | cons node frontier =>
      rw [descend]
      by_cases hcap : cap ≤ out.length
      · rw [if_pos hcap]
        exact ⟨node :: frontier, h, .inr hcap⟩
      · rw [if_neg hcap]
        refine ih (h.step hchildren) ?_
        simp only [List.length_append, List.length_reverse, List.length_cons] at hfuel ⊢
        omega

omit [DecidableEq α] in
theorem searched_root : Searched next root [] [root] where
  nodup := List.nodup_nil
  above := by
    intro c hc
    cases hc
  notRoot := List.not_mem_nil
  pending := fun c hc => hc
  closed := fun a ha => .inl ha

theorem mem_descend (hchildren : ∀ a c, c ∈ children a ↔ next c = some a)
    (hcap : ∀ l : List α, l.Nodup → (∀ c ∈ l, c ≠ root ∧ Above next c root) → l.length ≤ cap)
    {c : α} : c ∈ descend children cap root (cap + 2) [] [root] ↔ c ≠ root ∧ Above next c root := by
  have hfuel : cap ≤ ([] : List α).length ∧ 1 ≤ cap + 2 ∨
      [root].length + (cap - ([] : List α).length) + 1 ≤ cap + 2 := by
    right
    simp only [List.length_cons, List.length_nil]
    omega
  obtain ⟨rest, hsearched, hend⟩ := descend_searched hchildren searched_root hfuel
  generalize descend children cap root (cap + 2) [] [root] = out at hsearched hend
  have hbelow : ∀ c ∈ out, c ≠ root ∧ Above next c root := by
    intro c hc
    refine ⟨?_, hsearched.above c hc⟩
    rintro rfl
    exact hsearched.notRoot hc
  refine ⟨hbelow c, fun ⟨hne, habove⟩ => ?_⟩
  rcases hend with rfl | hfull
  · -- everything found has its children found: climb down from the root
    have hclosed : ∀ a b, Above next a b → b ∈ root :: out → a ∈ root :: out := by
      intro a b hab hb
      induction hab with
      | single hstep =>
        rcases hsearched.closed _ hb with hfront | hclosed
        · cases hfront
        · exact hclosed _ hstep
      | tail _ hstep ih =>
        refine ih ?_
        rcases hsearched.closed _ hb with hfront | hclosed
        · cases hfront
        · exact hclosed _ hstep
    rcases List.mem_cons.mp (hclosed c root habove List.mem_cons_self) with rfl | hout
    · exact absurd rfl hne
    · exact hout
  · by_contra hout
    have hmore := hcap (c :: out) (List.nodup_cons.mpr ⟨hout, hsearched.nodup⟩) (by
      intro d hd
      rcases List.mem_cons.mp hd with rfl | hd
      · exact ⟨hne, habove⟩
      · exact hbelow d hd)
    rw [List.length_cons] at hmore
    omega

end

end Forest

end Relux
