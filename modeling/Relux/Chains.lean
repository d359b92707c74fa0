import Mathlib.Data.List.Perm.Subperm
import Mathlib.Logic.Relation

/-! Chains of edges: when a graph without cycles stays without one, and how long its chains
become, as edges come in; and a search that looks for the way back. -/

namespace Relux.Chains

variable {α : Type}

inductive Chain (E : α → α → Prop) : Nat → α → α → Prop
  | nil (a : α) : Chain E 0 a a
  | cons {n : Nat} {a b c : α} : E a b → Chain E n b c → Chain E (n + 1) a c

def Reaches (E : α → α → Prop) (a b : α) : Prop := ∃ n, Chain E n a b

def Acyclic (E : α → α → Prop) : Prop := ∀ n a, ¬Chain E (n + 1) a a

def Within (N : Nat) (E : α → α → Prop) : Prop := ∀ n a b, Chain E n a b → n ≤ N

def Plus (E : α → α → Prop) (u v a b : α) : Prop := E a b ∨ (a = u ∧ b = v)

variable {a b u v : α} {n : Nat}

section
variable {E F : α → α → Prop}

theorem Chain.mono (h : ∀ a b, E a b → F a b) (hc : Chain E n a b) : Chain F n a b := by
  induction hc with
  | nil a => exact .nil a
  | cons hab _ ih => exact .cons (h _ _ hab) ih

theorem Chain.trans {m : Nat} {c : α} (h : Chain E n a b) (h' : Chain E m b c) :
    Chain E (n + m) a c := by
  induction h with
  | nil a =>
    rw [Nat.zero_add]
    exact h'
  | cons hab _ ih =>
    rw [Nat.succ_add]
    exact .cons hab (ih h')

theorem Chain.eq_of_zero (h : Chain E 0 a b) : a = b := by
  cases h
  rfl

theorem Acyclic.mono (h : ∀ a b, E a b → F a b) (hF : Acyclic F) : Acyclic E := by
  intro n a hc
  exact hF n a (hc.mono h)

theorem Within.mono {N : Nat} (h : ∀ a b, E a b → F a b) (hF : Within N F) : Within N E := by
  intro n a b hc
  exact hF n a b (hc.mono h)

theorem chain_plus (hback : ¬Reaches E v u) (h : Chain (Plus E u v) n a b) : Chain E n a b ∨
      ∃ k m, Chain E k a u ∧ Chain E m v b ∧ n = k + 1 + m := by
  induction h with
  | nil a => exact .inl (.nil a)
  | @cons n a b c hab _ ih =>
    rcases hab with hab | ⟨rfl, rfl⟩
    · rcases ih with hchain | ⟨k, m, hk, hm, rfl⟩
      · exact .inl (.cons hab hchain)
      · exact .inr ⟨k + 1, m, .cons hab hk, hm, by omega⟩
    · rcases ih with hchain | ⟨k, m, hk, -, -⟩
      · exact .inr ⟨0, n, .nil a, hchain, by omega⟩
      · exact absurd ⟨k, hk⟩ hback

theorem acyclic_plus_iff (h : Acyclic E) : Acyclic (Plus E u v) ↔ ¬Reaches E v u := by
  constructor
  · rintro hplus ⟨n, hc⟩
    have hedge : Plus E u v u v := .inr ⟨rfl, rfl⟩
    exact hplus n u (.cons hedge (hc.mono (fun _ _ hab => .inl hab)))
  · intro hback n a hc
    rcases chain_plus hback hc with hold | ⟨k, m, hk, hm, -⟩
    · exact h n a hold
    · exact hback ⟨m + k, hm.trans hk⟩

theorem within_plus_iff {N : Nat} (h : Within N E) (hback : ¬Reaches E v u) :
    Within N (Plus E u v) ↔ ∀ k m a b, Chain E k a u → Chain E m v b → k + 1 + m ≤ N := by
  constructor
  · intro hplus k m a b hk hm
    have hedge : Plus E u v u v := .inr ⟨rfl, rfl⟩
    have hk' := hk.mono (F := Plus E u v) (fun _ _ hab => .inl hab)
    have hm' := hm.mono (F := Plus E u v) (fun _ _ hab => .inl hab)
    have hlong := hplus _ a b (hk'.trans (.cons hedge hm'))
    omega
  · intro hfits n a b hc
    rcases chain_plus hback hc with hold | ⟨k, m, hk, hm, rfl⟩
    · exact h n a b hold
    · exact hfits k m a b hk hm

theorem plus_self (h : E u v) (a b : α) : Plus E u v a b ↔ E a b := by
  constructor
  · rintro (hab | ⟨rfl, rfl⟩)
    · exact hab
    · exact h
  · exact .inl

variable {t : α}

/-- On the way to `t` the edges that leave `t` are of no use. -/
theorem reaches_congr (h : ∀ a b, a ≠ t → E a b → F a b) (hr : Reaches E a t) :
    Reaches F a t := by
  obtain ⟨n, hc⟩ := hr
  have hkey : ∀ {n : Nat} {a b : α}, Chain E n a b → b = t → Reaches F a t := by
    intro n a b hc
    induction hc with
    | nil a =>
      rintro rfl
      exact ⟨0, .nil a⟩
    | @cons n a b c hab _ ih =>
      intro hct
      by_cases hat : a = t
      · rw [hat]
        exact ⟨0, .nil t⟩
      · obtain ⟨m, hm⟩ := ih hct
        exact ⟨m + 1, .cons (h a b hat hab) hm⟩
  exact hkey hc rfl

def Fan (E : α → α → Prop) (t : α) (want : List α) (a b : α) : Prop := E a b ∨ (a = t ∧ b ∈ want)

theorem Reaches.trans {c : α} (h : Reaches E a b) (h' : Reaches E b c) : Reaches E a c := by
  obtain ⟨n, hn⟩ := h
  obtain ⟨m, hm⟩ := h'
  exact ⟨n + m, hn.trans hm⟩

variable {want : List α}

theorem chain_fan (h : Chain (Fan E t want) n a b) :
    Chain E n a b ∨ ∃ w ∈ want, Reaches (Fan E t want) a t ∧ Reaches (Fan E t want) w b := by
  induction h with
  | nil a => exact .inl (.nil a)
  | @cons n a b c hab hbc ih =>
    rcases hab with hab | ⟨rfl, hb⟩
    · rcases ih with hold | ⟨w, hw, hbt, hwc⟩
      · exact .inl (.cons hab hold)
      · refine .inr ⟨w, hw, ?_, hwc⟩
        obtain ⟨m, hm⟩ := hbt
        exact ⟨m + 1, .cons (.inl hab) hm⟩
    · exact .inr ⟨b, hb, ⟨0, .nil a⟩, ⟨n, hbc⟩⟩

theorem acyclic_fan_iff (h : Acyclic E) :
    Acyclic (Fan E t want) ↔ ∀ w ∈ want, ¬Reaches E w t := by
  constructor
  · rintro hfan w hw ⟨n, hc⟩
    have hedge : Fan E t want t w := .inr ⟨rfl, hw⟩
    exact hfan n t (.cons hedge (hc.mono (fun _ _ hab => .inl hab)))
  · intro hback n a hc
    rcases chain_fan hc with hold | ⟨w, hw, hat, hwa⟩
    · exact h n a hold
    · have hold : ∀ a b, a ≠ t → Fan E t want a b → E a b := by
        rintro a b hne (hab | ⟨hat, -⟩)
        · exact hab
        · exact absurd hat hne
      exact hback w hw (reaches_congr hold (hwa.trans hat))

end

def Single (E : α → α → Prop) : Prop := ∀ a b c, E a b → E a c → b = c

def Solitary (E : α → α → Prop) (marked : α → Prop) : Prop :=
  ∀ root n m x y, marked x → marked y → Chain E (n + 1) root x → Chain E (m + 1) root y → x = y

section
variable {E : α → α → Prop}

theorem Chain.last (h : Chain E (n + 1) a b) : ∃ c, Chain E n a c ∧ E c b := by
  induction n generalizing a with
  | zero =>
    cases h with
    | cons hab hnil =>
      cases hnil
      exact ⟨a, .nil a, hab⟩
  | succ n ih =>
    cases h with
    | cons hab hrest =>
      obtain ⟨c, hc, hcb⟩ := ih hrest
      exact ⟨c, .cons hab hc, hcb⟩

theorem Single.total (h : Single E) {m : Nat} {root x y : α} (hx : Chain E n root x)
    (hy : Chain E m root y) : Reaches E x y ∨ Reaches E y x := by
  induction hx generalizing m with
  | nil root => exact .inl ⟨m, hy⟩
  | @cons n root b x hedge hx ih =>
    cases hy with
    | nil => exact .inr ⟨n + 1, .cons hedge hx⟩
    | cons hedge' hy =>
      rw [← h root b _ hedge hedge'] at hy
      exact ih hy

theorem reaches_leaf (hleaf : ∀ b, ¬E u b) (h : Reaches E u v) : u = v := by
  obtain ⟨n, hc⟩ := h
  cases hc with
  | nil => rfl
  | cons hedge _ => exact absurd hedge (hleaf _)

theorem Solitary.plus {marked marked' : α → Prop} (h : Solitary E marked) (hsingle : Single E)
    (hend : ∀ b, ¬E u b) (hroot : ∀ a, ¬E a v) (hleaf : ∀ b, ¬E v b) (hne : v ≠ u)
    (hmarked : ∀ x, marked' x → x ≠ v → marked x)
    (hline : marked' v → ∀ x, marked x → ¬Reaches E x u) : Solitary (Plus E u v) marked' := by
  have hback : ¬Reaches E v u := fun hreach => hne (reaches_leaf hleaf hreach)
  have hcases : ∀ {n : Nat} {root x : α}, marked' x → Chain (Plus E u v) (n + 1) root x →
      (marked x ∧ Chain E (n + 1) root x) ∨ (x = v ∧ ∃ k, Chain E k root u) := by
    intro n root x hx hc
    rcases chain_plus hback hc with hold | ⟨k, m, hk, hm, -⟩
    · obtain ⟨c, -, hcx⟩ := hold.last
      refine .inl ⟨hmarked x hx ?_, hold⟩
      rintro rfl
      exact hroot c hcx
    · exact .inr ⟨(reaches_leaf hleaf ⟨m, hm⟩).symm, k, hk⟩
  have hcross : ∀ {n k : Nat} {root x : α}, marked x → Chain E (n + 1) root x →
      Chain E k root u → marked' v → False := by
    intro n k root x hx hc hk hv
    rcases hsingle.total hc hk with hreach | hreach
    · exact hline hv x hx hreach
    · obtain rfl := reaches_leaf hend hreach
      exact hline hv u hx ⟨0, .nil u⟩
  intro root n m x y hx hy hcx hcy
  rcases hcases hx hcx with ⟨hx', hcx'⟩ | ⟨rfl, k, hk⟩
  · rcases hcases hy hcy with ⟨hy', hcy'⟩ | ⟨rfl, k, hk⟩
    · exact h root n m x y hx' hy' hcx' hcy'
    · exact (hcross hx' hcx' hk hy).elim
  · rcases hcases hy hcy with ⟨hy', hcy'⟩ | ⟨rfl, -⟩
    · exact (hcross hy' hcy' hk hx).elim
    · rfl

theorem Solitary.length_le_one {marked : α → Prop} (h : Solitary E marked) {root : α}
    {l : List α} (hl : l.Nodup)
    (hmem : ∀ x ∈ l, marked x ∧ ∃ n, Chain E (n + 1) root x) : l.length ≤ 1 := by
  rcases l with _ | ⟨x, _ | ⟨y, l⟩⟩
  · exact Nat.zero_le 1
  · exact Nat.le_refl 1
  · obtain ⟨hx, n, hcx⟩ := hmem x List.mem_cons_self
    obtain ⟨hy, m, hcy⟩ := hmem y (List.mem_cons_of_mem x List.mem_cons_self)
    have heq : x = y := h root n m x y hx hy hcx hcy
    exact absurd (heq ▸ List.mem_cons_self) (List.nodup_cons.mp hl).1

end

section
variable [DecidableEq α]

theorem lex_of_le {a a' b b' : Nat} (ha : a' ≤ a) (hb : b' < b) :
    Prod.Lex (· < ·) (· < ·) (a', b') (a, b) := by
  rcases Nat.lt_or_eq_of_le ha with hlt | rfl
  · exact Prod.Lex.left _ _ hlt
  · exact Prod.Lex.right _ hb

def search (succ : α → List α) (target : α) (maxNodes : Nat) : List α → List α → Bool
  | _, [] => false
  | seen, node :: stack =>
    if node = target then true
    else if node ∈ seen then search succ target maxNodes seen stack
    else if maxNodes < seen.length + 1 then search succ target maxNodes (node :: seen) stack
    else search succ target maxNodes (node :: seen) ((succ node).reverse ++ stack)
termination_by seen stack => (maxNodes - seen.length, stack.length)
decreasing_by
  · exact Prod.Lex.right _ (Nat.lt_succ_self _)
  · exact lex_of_le (by simp only [List.length_cons]; omega) (Nat.lt_succ_self _)
  · exact Prod.Lex.left _ _ (by simp only [List.length_cons]; omega)

variable {succ succ' : α → List α} {target : α} {maxNodes : Nat}

theorem search_target (seen stack : List α) :
    search succ target maxNodes seen (target :: stack) = true := by
  rw [search, if_pos rfl]

theorem search_congr (h : ∀ a, a ≠ target → succ a = succ' a) (seen stack : List α) :
    search succ target maxNodes seen stack = search succ' target maxNodes seen stack := by
  induction seen, stack using search.induct succ target maxNodes with
  | case1 seen => rw [search, search]
  | case2 seen stack => rw [search_target, search_target]
  | case3 seen node stack hne hseen ih =>
    rw [search, if_neg hne, if_pos hseen, search, if_neg hne, if_pos hseen]
    exact ih
  | case4 seen node stack hne hseen hfull ih =>
    rw [search, if_neg hne, if_neg hseen, if_pos hfull]
    rw [search, if_neg hne, if_neg hseen, if_pos hfull]
    exact ih
  | case5 seen node stack hne hseen hfull ih =>
    rw [search, if_neg hne, if_neg hseen, if_neg hfull]
    rw [search, if_neg hne, if_neg hseen, if_neg hfull, ← h node hne]
    exact ih

variable {all : List α}

theorem search_closed (hall : ∀ a ∈ all, ∀ b ∈ succ a, b ∈ all)
    (hroom : all.length ≤ maxNodes) (seen stack : List α) :
    seen.Nodup → (∀ a ∈ seen, a ∈ all) → (∀ a ∈ stack, a ∈ all) →
      (∀ a ∈ seen, a ≠ target ∧ ∀ b ∈ succ a, b ∈ seen ∨ b ∈ stack) →
      search succ target maxNodes seen stack = false →
      ∃ closed : List α, (∀ a ∈ seen, a ∈ closed) ∧ (∀ a ∈ stack, a ∈ closed) ∧
        ∀ a ∈ closed, a ≠ target ∧ ∀ b ∈ succ a, b ∈ closed := by
  induction seen, stack using search.induct succ target maxNodes with
  | case1 seen =>
    intro _ _ _ hclosed _
    refine ⟨seen, fun a ha => ha, fun a ha => (by cases ha), fun a ha => ?_⟩
    obtain ⟨hne, hsucc⟩ := hclosed a ha
    refine ⟨hne, fun b hb => ?_⟩
    rcases hsucc b hb with hb' | hb'
    · exact hb'
    · cases hb'
  | case2 seen stack =>
    intro _ _ _ _ h
    rw [search_target] at h
    cases h
  | case3 seen node stack hne hseen ih =>
    intro hnodup hin hstack hclosed h
    rw [search, if_neg hne, if_pos hseen] at h
    have hclosed' : ∀ a ∈ seen, a ≠ target ∧ ∀ b ∈ succ a, b ∈ seen ∨ b ∈ stack := by
      intro a ha
      refine ⟨(hclosed a ha).1, fun b hb => ?_⟩
      rcases (hclosed a ha).2 b hb with hb' | hb'
      · exact .inl hb'
      · rcases List.mem_cons.mp hb' with rfl | hb''
        · exact .inl hseen
        · exact .inr hb''
    obtain ⟨closed, hcs, hck, hc⟩ :=
      ih hnodup hin (fun a ha => hstack a (List.mem_cons_of_mem _ ha)) hclosed' h
    refine ⟨closed, hcs, fun a ha => ?_, hc⟩
    rcases List.mem_cons.mp ha with rfl | ha'
    · exact hcs _ hseen
    · exact hck a ha'
  | case4 seen node stack hne hseen hfull ih =>
    intro hnodup hin hstack _ _
    have hnodup' : (node :: seen).Nodup := List.nodup_cons.mpr ⟨hseen, hnodup⟩
    have hsub : node :: seen ⊆ all := by
      intro a ha
      rcases List.mem_cons.mp ha with rfl | ha'
      · exact hstack _ List.mem_cons_self
      · exact hin a ha'
    have hle := (hnodup'.subperm hsub).length_le
    simp only [List.length_cons] at hle
    omega
  | case5 seen node stack hne hseen hfull ih =>
    intro hnodup hin hstack hclosed h
    rw [search, if_neg hne, if_neg hseen, if_neg hfull] at h
    have hnode : node ∈ all := hstack node List.mem_cons_self
    have hnodup' : (node :: seen).Nodup := List.nodup_cons.mpr ⟨hseen, hnodup⟩
    have hin' : ∀ a ∈ node :: seen, a ∈ all := by
      intro a ha
      rcases List.mem_cons.mp ha with rfl | ha'
      · exact hnode
      · exact hin a ha'
    have hstack' : ∀ a ∈ (succ node).reverse ++ stack, a ∈ all := by
      intro a ha
      rcases List.mem_append.mp ha with ha' | ha'
      · exact hall node hnode a (List.mem_reverse.mp ha')
      · exact hstack a (List.mem_cons_of_mem _ ha')
    have hclosed' : ∀ a ∈ node :: seen, a ≠ target ∧
        ∀ b ∈ succ a, b ∈ node :: seen ∨ b ∈ (succ node).reverse ++ stack := by
      intro a ha
      rcases List.mem_cons.mp ha with rfl | ha'
      · refine ⟨hne, fun b hb => .inr ?_⟩
        exact List.mem_append_left _ (List.mem_reverse.mpr hb)
      · refine ⟨(hclosed a ha').1, fun b hb => ?_⟩
        rcases (hclosed a ha').2 b hb with hb' | hb'
        · exact .inl (List.mem_cons_of_mem _ hb')
        · rcases List.mem_cons.mp hb' with rfl | hb''
          · exact .inl List.mem_cons_self
          · exact .inr (List.mem_append_right _ hb'')
    obtain ⟨closed, hcs, hck, hc⟩ := ih hnodup' hin' hstack' hclosed' h
    refine ⟨closed, fun a ha => hcs a (List.mem_cons_of_mem _ ha), fun a ha => ?_, hc⟩
    rcases List.mem_cons.mp ha with rfl | ha'
    · exact hcs _ List.mem_cons_self
    · exact hck a (List.mem_append_right _ ha')

theorem search_complete {E : α → α → Prop} (hsucc : ∀ a b, b ∈ succ a ↔ E a b)
    (hall : ∀ b, Reaches E a b → b ∈ all) (hroom : all.length ≤ maxNodes)
    (h : search succ target maxNodes [] [a] = false) : ¬Reaches E a target := by
  classical
  have hstep : ∀ b c, Reaches E a b → E b c → Reaches E a c := by
    rintro b c ⟨n, hb⟩ hbc
    exact ⟨n + 1, hb.trans (.cons hbc (.nil c))⟩
  have hmem : ∀ b, b ∈ all.filter (fun b => decide (Reaches E a b)) ↔ Reaches E a b := by
    intro b
    rw [List.mem_filter, decide_eq_true_iff]
    exact ⟨fun hb => hb.2, fun hb => ⟨hall b hb, hb⟩⟩
  have hself : Reaches E a a := ⟨0, .nil a⟩
  have hclosed : ∀ b ∈ all.filter (fun b => decide (Reaches E a b)), ∀ c ∈ succ b,
      c ∈ all.filter (fun b => decide (Reaches E a b)) := by
    intro b hb c hc
    rw [hmem] at hb ⊢
    exact hstep b c hb ((hsucc b c).mp hc)
  have hlength : (all.filter (fun b => decide (Reaches E a b))).length ≤ maxNodes :=
    Nat.le_trans (List.length_filter_le _ _) hroom
  obtain ⟨closed, -, hstack, hc⟩ := search_closed hclosed hlength [] [a] List.nodup_nil
    (fun b hb => by cases hb)
    (fun b hb => by rw [List.mem_singleton.mp hb, hmem]; exact hself)
    (fun b hb => by cases hb) h
  have hreach : ∀ {n : Nat} {b c : α}, Chain E n b c → b ∈ closed → c ∈ closed := by
    intro n b c hchain
    induction hchain with
    | nil b => exact fun hb => hb
    | cons hbc _ ih => exact fun hb => ih ((hc _ hb).2 _ ((hsucc _ _).mpr hbc))
  rintro ⟨n, hchain⟩
  exact (hc target (hreach hchain (hstack a List.mem_cons_self))).1 rfl

end

end Relux.Chains
