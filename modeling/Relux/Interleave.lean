import Mathlib.Data.List.Basic
import Mathlib.Logic.Relation

/-! Tasks that share a state, as machines with a program counter of their own: which one
steps next is open. An invariant is one of the shared state, one of each task against it and
one of each pair of tasks. -/

namespace Relux

/-- What tasks do: `exec` is one step of a task, with the task it starts, if any; `env` is a
step of the outside; `spawn` is the start of a task. -/
structure Tasking (σ T : Type) where
  exec : σ → T → σ → T → Option T → Prop
  env : σ → σ → Prop
  spawn : σ → T → σ → Prop

structure Crowd (σ T : Type) where
  shared : σ
  tasks : List T

namespace Crowd

variable {σ T : Type}

inductive Label (T : Type)
  | env
  | spawn (t : T)
  | run (i : Nat)

inductive Step (sys : Tasking σ T) : Crowd σ T → Label T → Crowd σ T → Prop
  | env {s s' ts} : sys.env s s' → Step sys ⟨s, ts⟩ .env ⟨s', ts⟩
  | spawn {s s' ts t} : sys.spawn s t s' → Step sys ⟨s, ts⟩ (.spawn t) ⟨s', ts ++ [t]⟩
  | run {s s' ts i t t' fork} : ts[i]? = some t → sys.exec s t s' t' fork →
      Step sys ⟨s, ts⟩ (.run i) ⟨s', ts.set i t' ++ fork.toList⟩

/-- The runs all of whose steps are taken where `ok` holds. -/
abbrev Runs (sys : Tasking σ T) (ok : Crowd σ T → Label T → Prop) :
    Crowd σ T → Crowd σ T → Prop :=
  Relation.ReflTransGen (fun c c' => ∃ l, ok c l ∧ Step sys c l c')

/-- `I` of the shared state, `A` of every task, `C` of every two tasks. -/
structure Meets (I : σ → Prop) (A : σ → T → Prop) (C : T → T → Prop) (c : Crowd σ T) :
    Prop where
  shared : I c.shared
  task : ∀ (i : Nat) (t : T), c.tasks[i]? = some t → A c.shared t
  pair : ∀ (i j : Nat) (t u : T), i ≠ j → c.tasks[i]? = some t → c.tasks[j]? = some u → C t u

theorem meets_nil {I : σ → Prop} {A : σ → T → Prop} {C : T → T → Prop} {s : σ} (h : I s) :
    Meets I A C ⟨s, []⟩ where
  shared := h
  task := by
    intro i t hi
    cases hi
  pair := by
    intro i j t u _ hi _
    cases hi

variable {ts : List T}

theorem getElem?_after {i j : Nat} {t t' u : T} {fork : Option T} (hi : ts[i]? = some t)
    (hj : (ts.set i t' ++ fork.toList)[j]? = some u) :
    (j = i ∧ u = t') ∨ (j ≠ i ∧ ts[j]? = some u) ∨ (j = ts.length ∧ fork = some u) := by
  have hlt := (List.getElem?_eq_some_iff.mp hi).1
  by_cases hjl : j < ts.length
  · have hjl' : j < (ts.set i t').length := by
      rw [List.length_set]
      exact hjl
    rw [List.getElem?_append_left hjl'] at hj
    by_cases hji : j = i
    · subst hji
      rw [List.getElem?_set_self hlt] at hj
      exact .inl ⟨rfl, (Option.some.inj hj).symm⟩
    · rw [List.getElem?_set_ne (Ne.symm hji)] at hj
      exact .inr (.inl ⟨hji, hj⟩)
  · have hge : (ts.set i t').length ≤ j := by
      rw [List.length_set]
      omega
    rw [List.getElem?_append_right hge, List.length_set] at hj
    cases fork with
    | none => cases hj
    | some f =>
      have hbound := (List.getElem?_eq_some_iff.mp hj).1
      simp only [Option.toList_some, List.length_cons, List.length_nil] at hbound
      have hzero : j - ts.length = 0 := by omega
      rw [hzero] at hj
      exact .inr (.inr ⟨by omega, congrArg some (Option.some.inj hj)⟩)

theorem getElem?_spawned {j : Nat} {t u : T} (hj : (ts ++ [t])[j]? = some u) :
    ts[j]? = some u ∨ (j = ts.length ∧ u = t) := by
  by_cases hjl : j < ts.length
  · rw [List.getElem?_append_left hjl] at hj
    exact .inl hj
  · have hbound := (List.getElem?_eq_some_iff.mp hj).1
    simp only [List.length_append, List.length_cons, List.length_nil] at hbound
    have heq : j = ts.length := by omega
    rw [heq, List.getElem?_append_right (Nat.le_refl _), Nat.sub_self] at hj
    exact .inr ⟨heq, (Option.some.inj hj).symm⟩

theorem countP_after (p : T → Bool) {i : Nat} {t : T} (hi : ts[i]? = some t) (t' : T)
    (fork : Option T) :
    (ts.set i t' ++ fork.toList).countP p + [t].countP p =
      ts.countP p + ([t'] ++ fork.toList).countP p := by
  obtain ⟨hlt, hget⟩ := List.getElem?_eq_some_iff.mp hi
  have hset : (ts.set i t').countP p + [t].countP p = ts.countP p + [t'].countP p := by
    have hpos : p t = true → 0 < ts.countP p := by
      intro ht
      exact List.countP_pos_iff.mpr ⟨t, List.mem_of_getElem? hi, ht⟩
    rw [List.countP_set hlt, hget, List.countP_singleton, List.countP_singleton]
    by_cases ht : p t = true
    · have hle := hpos ht
      rw [if_pos ht]
      omega
    · rw [if_neg ht]
      omega
  rw [List.countP_append, List.countP_append]
  omega

section
variable {sys : Tasking σ T} {ok : Crowd σ T → Label T → Prop} {I : σ → Prop}
  {A : σ → T → Prop} {C : T → T → Prop} {c c' : Crowd σ T}

theorem Step.meets (hsymm : ∀ t u, C t u → C u t)
    (henv : ∀ s s', I s → sys.env s s' → I s' ∧ ∀ u, A s u → A s' u)
    (hspawn : ∀ c t s', ok c (.spawn t) → Meets I A C c → sys.spawn c.shared t s' →
      I s' ∧ A s' t ∧ ∀ (j : Nat) (u : T), c.tasks[j]? = some u → A s' u ∧ C t u)
    (hrun : ∀ c i t s' t' fork, ok c (.run i) → Meets I A C c → c.tasks[i]? = some t →
      sys.exec c.shared t s' t' fork → I s' ∧ A s' t' ∧ (∀ f, fork = some f → A s' f ∧ C t' f) ∧
        ∀ (j : Nat) (u : T), j ≠ i → c.tasks[j]? = some u →
          A s' u ∧ C t' u ∧ ∀ f, fork = some f → C f u)
    (l : Label T) (hok : ok c l) (h : Step sys c l c') (hc : Meets I A C c) : Meets I A C c' := by
  cases h with
  | env h =>
    obtain ⟨hI, hA⟩ := henv _ _ hc.shared h
    exact ⟨hI, fun i t hi => hA t (hc.task i t hi), hc.pair⟩
  | @spawn s s' ts t h =>
    obtain ⟨hI, ht, hrest⟩ := hspawn ⟨s, ts⟩ t s' hok hc h
    refine ⟨hI, ?_, ?_⟩
    · intro i u hi
      rcases getElem?_spawned hi with hold | ⟨-, rfl⟩
      · exact (hrest i u hold).1
      · exact ht
    · intro i j u v hij hi hj
      rcases getElem?_spawned hi with hu | ⟨rfl, rfl⟩
      · rcases getElem?_spawned hj with hv | ⟨rfl, rfl⟩
        · exact hc.pair i j u v hij hu hv
        · exact hsymm _ _ (hrest i u hu).2
      · rcases getElem?_spawned hj with hv | ⟨rfl, rfl⟩
        · exact (hrest j v hv).2
        · exact absurd rfl hij
  | @run s s' ts i t t' fork hi h =>
    obtain ⟨hI, ht', hfork, hrest⟩ := hrun ⟨s, ts⟩ i t s' t' fork hok hc hi h
    refine ⟨hI, ?_, ?_⟩
    · intro j u hj
      rcases getElem?_after hi hj with ⟨-, rfl⟩ | ⟨hne, hu⟩ | ⟨-, hf⟩
      · exact ht'
      · exact (hrest j u hne hu).1
      · exact (hfork u hf).1
    · intro j k u v hjk hj hk
      rcases getElem?_after hi hj with ⟨rfl, rfl⟩ | ⟨hjne, hu⟩ | ⟨rfl, hf⟩
      · rcases getElem?_after hi hk with ⟨rfl, rfl⟩ | ⟨hkne, hv⟩ | ⟨rfl, hg⟩
        · exact absurd rfl hjk
        · exact (hrest k v hkne hv).2.1
        · exact (hfork v hg).2
      · rcases getElem?_after hi hk with ⟨rfl, rfl⟩ | ⟨hkne, hv⟩ | ⟨rfl, hg⟩
        · exact hsymm _ _ (hrest j u hjne hu).2.1
        · exact hc.pair j k u v hjk hu hv
        · exact hsymm _ _ ((hrest j u hjne hu).2.2 v hg)
      · rcases getElem?_after hi hk with ⟨rfl, rfl⟩ | ⟨hkne, hv⟩ | ⟨rfl, hg⟩
        · exact hsymm _ _ (hfork u hf).2
        · exact (hrest k v hkne hv).2.2 u hf
        · exact absurd rfl hjk

theorem Step.task {Q : T → Prop} (hQ : ∀ s t s' t' fork, sys.exec s t s' t' fork → Q t → Q t')
    {l : Label T} (h : Step sys c l c') {j : Nat} {u : T} (hj : c.tasks[j]? = some u) (hu : Q u) :
    ∃ u', c'.tasks[j]? = some u' ∧ Q u' := by
  cases h with
  | env h => exact ⟨u, hj, hu⟩
  | spawn h =>
    have hlt := (List.getElem?_eq_some_iff.mp hj).1
    exact ⟨u, (List.getElem?_append_left hlt).trans hj, hu⟩
  | @run s s' ts i t t' fork hi h =>
    have hlt : j < ts.length := (List.getElem?_eq_some_iff.mp hj).1
    have hlt' : j < (ts.set i t').length := by
      rw [List.length_set]
      exact hlt
    by_cases hji : i = j
    · subst hji
      have heq : u = t := Option.some.inj (hj.symm.trans hi)
      refine ⟨t', ?_, hQ s t s' t' fork h (heq ▸ hu)⟩
      rw [List.getElem?_append_left hlt', List.getElem?_set_self hlt]
    · refine ⟨u, ?_, hu⟩
      rw [List.getElem?_append_left hlt', List.getElem?_set_ne hji]
      exact hj

theorem Runs.keeps {P : Crowd σ T → Prop}
    (hstep : ∀ c l c', ok c l → Step sys c l c' → P c → P c') (h : Runs sys ok c c')
    (hc : P c) : P c' := by
  induction h with
  | refl => exact hc
  | tail _ hlast ih =>
    obtain ⟨l, hok, hstep'⟩ := hlast
    exact hstep _ l _ hok hstep' ih

theorem Runs.mono {ok' : Crowd σ T → Label T → Prop} (hok : ∀ c l, ok c l → ok' c l)
    (h : Runs sys ok c c') : Runs sys ok' c c' := by
  induction h with
  | refl => exact .refl
  | tail _ hlast ih =>
    obtain ⟨l, hl, hstep⟩ := hlast
    exact ih.tail ⟨l, hok _ l hl, hstep⟩

end

/-- What a run can be given to do: a step of the outside, a task to start, or a task to step
with what it does not choose itself. -/
inductive Play (T X E : Type)
  | env (e : E)
  | spawn (t : T)
  | run (i : Nat) (x : X)

section
variable {X E : Type}

structure Player (σ T X E : Type) where
  outside : σ → E → σ
  starts : T → Bool
  exec : σ → X → T → Option (σ × T × Option T)
  allows : Crowd σ T → Label T → Bool

def Player.play (p : Player σ T X E) (c : Crowd σ T) : Play T X E → Option (Crowd σ T)
  | .env e =>
    if p.allows c .env then some ⟨p.outside c.shared e, c.tasks⟩ else none
  | .spawn t =>
    if p.starts t && p.allows c (.spawn t) then some ⟨c.shared, c.tasks ++ [t]⟩ else none
  | .run i x =>
    if p.allows c (.run i) then
      (c.tasks[i]?).bind (fun t => (p.exec c.shared x t).map (fun r =>
        ⟨r.1, c.tasks.set i r.2.1 ++ r.2.2.toList⟩))
    else none

structure Player.Plays (p : Player σ T X E) (sys : Tasking σ T)
    (ok : Crowd σ T → Label T → Prop) : Prop where
  env : ∀ s e, sys.env s (p.outside s e)
  spawn : ∀ s t, p.starts t = true → sys.spawn s t s
  exec : ∀ s x t s' t' fork, p.exec s x t = some (s', t', fork) → sys.exec s t s' t' fork
  allows : ∀ c l, p.allows c l = true → ok c l

variable {sys : Tasking σ T} {ok : Crowd σ T → Label T → Prop} {p : Player σ T X E}
  {c c' : Crowd σ T}

theorem Player.Plays.step (hp : p.Plays sys ok) {m : Play T X E} (h : p.play c m = some c') :
    ∃ l, ok c l ∧ Step sys c l c' := by
  obtain ⟨s, ts⟩ := c
  cases m with
  | env e =>
    simp only [Player.play] at h
    split at h
    next hallows =>
      cases h
      exact ⟨.env, hp.allows _ _ hallows, .env (hp.env s e)⟩
    · cases h
  | spawn t =>
    simp only [Player.play] at h
    split at h
    next hboth =>
      cases h
      obtain ⟨hstarts, hallows⟩ := Bool.and_eq_true_iff.mp hboth
      exact ⟨.spawn t, hp.allows _ _ hallows, .spawn (hp.spawn s t hstarts)⟩
    · cases h
  | run i x =>
    simp only [Player.play] at h
    split at h
    next hallows =>
      obtain ⟨t, hi, hstep⟩ := Option.bind_eq_some_iff.mp h
      obtain ⟨⟨s', t', fork⟩, hexec, rfl⟩ := Option.map_eq_some_iff.mp hstep
      exact ⟨.run i, hp.allows _ _ hallows, .run hi (hp.exec s x t s' t' fork hexec)⟩
    · cases h

theorem runs_of_plays {M : Type} {move : Crowd σ T → M → Option (Crowd σ T)} {moves : List M}
    (hmove : ∀ c m c', move c m = some c' → ∃ l, ok c l ∧ Step sys c l c')
    (h : moves.foldlM move c = some c') : Runs sys ok c c' := by
  induction moves generalizing c with
  | nil =>
    cases h
    exact .refl
  | cons m moves ih =>
    rw [List.foldlM_cons] at h
    obtain ⟨mid, hmid, hrest⟩ := Option.bind_eq_some_iff.mp h
    exact .head (hmove c m mid hmid) (ih hrest)

variable {moves : List (Play T X E)}

theorem Player.Plays.runs (hp : p.Plays sys ok)
    (h : moves.foldlM p.play c = some c') : Runs sys ok c c' :=
  runs_of_plays (fun _ _ _ => hp.step) h

theorem Player.Plays.reaches (hp : p.Plays sys ok)
    {test : Crowd σ T → Bool} (h : (moves.foldlM p.play c).any test = true) :
    ∃ c', Runs sys ok c c' ∧ test c' = true := by
  obtain ⟨c', hc', htest⟩ := (Option.any_eq_true _ _).mp h
  exact ⟨c', hp.runs hc', htest⟩

end

end Crowd

end Relux
