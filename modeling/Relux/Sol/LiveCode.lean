import Relux.Sol.Nesting

/-! Which addresses of the code control can come to. Code that always returns is not left at its
end. -/

namespace Relux

namespace Sol

/-- Where control may go from an instruction, other than into a function or back from one. -/
def successors (a : Nat) : Inst → List Nat
  | .jump target => [target]
  | .jumpFalse target => [a + 1, target]
  | .tryEnter catchPc => [a + 1, catchPc]
  | .ret | .retVal | .rethrow => []
  | _ => [a + 1]

/-- Control that starts at the first of these instructions stays at live addresses or goes to one
outside; `ends` tells whether it may come to the end. -/
structure Live (out : Nat → Prop) (pc : Nat) (code : List Inst) (ends : Bool)
    (live : Nat → Prop) : Prop where
  start : live pc
  inside : ∀ a, live a → pc ≤ a ∧ a ≤ pc + code.length
  stop : live (pc + code.length) → ends = true
  closed : ∀ i inst, code[i]? = some inst → live (pc + i) →
    ∀ t ∈ successors (pc + i) inst, live t ∨ out t

def KnownCalls (functions : HashMap String Nat) (code : List Inst) : Prop :=
  ∀ target count, .call target count ∈ code → target = 0 ∨ ∃ name, functions.get? name = some target

structure FlowTo (functions : HashMap String Nat) (out : Nat → Prop) (pc : Nat) (code : List Inst)
    (ends : Bool) : Prop where
  calls : KnownCalls functions code
  live : ∃ live, Live out pc code ends live

def Nowhere : Nat → Prop := fun _ => False

variable {functions : HashMap String Nat} {out out' : Nat → Prop} {pc : Nat} {code' : List Inst}

theorem KnownCalls.append {code : List Inst} (h : KnownCalls functions code)
    (h' : KnownCalls functions code') : KnownCalls functions (code ++ code') := by
  intro target count hmem
  rcases List.mem_append.mp hmem with hmem | hmem
  · exact h target count hmem
  · exact h' target count hmem

theorem FlowTo.nil : FlowTo functions out pc [] true := by
  refine ⟨fun _ _ hmem => absurd hmem List.not_mem_nil, (· = pc), rfl, ?_, fun _ => rfl, ?_⟩
  · rintro a rfl
    exact ⟨Nat.le_refl _, Nat.le_add_right _ _⟩
  · intro i inst hinst
    cases hinst

theorem FlowTo.single {inst : Inst} {ends : Bool}
    (hcall : ∀ target count, inst ≠ .call target count)
    (h : ∀ t ∈ successors pc inst, (t = pc + 1 ∧ ends = true) ∨ out t) :
    FlowTo functions out pc [inst] ends := by
  refine ⟨fun target count hmem => ?_, fun a => a = pc ∨ (a = pc + 1 ∧ ends = true), Or.inl rfl,
    ?_, ?_, ?_⟩
  · exact absurd (List.mem_singleton.mp hmem).symm (hcall target count)
  · rintro a (rfl | ⟨rfl, -⟩) <;> simp
  · rintro (hend | ⟨-, hends⟩)
    · simp at hend
    · exact hends
  · intro i inst' hinst _ t ht
    cases i with
    | succ i => cases hinst
    | zero =>
      cases hinst
      rcases h t ht with hnext | hout
      · exact Or.inl (Or.inr hnext)
      · exact Or.inr hout

variable {code : List Inst} {live : Nat → Prop}

theorem Live.append_dead (h : Live out pc code false live) (code' : List Inst) (ends : Bool) :
    Live out pc (code ++ code') ends live := by
  have hnot : ¬ live (pc + code.length) := by
    intro hend
    cases h.stop hend
  refine ⟨h.start, ?_, ?_, ?_⟩
  · intro a ha
    have := h.inside a ha
    rw [List.length_append]
    omega
  · intro hend
    have hle := (h.inside _ hend).2
    rw [List.length_append] at hle hend
    have hnil : code'.length = 0 := by omega
    rw [hnil, Nat.add_zero] at hend
    exact absurd hend hnot
  · intro i inst hinst ha t ht
    by_cases hi : i < code.length
    · rw [List.getElem?_append_left hi] at hinst
      exact h.closed i inst hinst ha t ht
    · have hle := (h.inside _ ha).2
      have hi' : i = code.length := by omega
      rw [hi'] at ha
      exact absurd ha hnot

theorem FlowTo.append_dead (h : FlowTo functions out pc code false)
    (hcalls : KnownCalls functions code') (ends : Bool) :
    FlowTo functions out pc (code ++ code') ends := by
  obtain ⟨live, hlive⟩ := h.live
  exact ⟨h.calls.append hcalls, live, hlive.append_dead code' ends⟩

theorem Live.append {code : List Inst} {ends ends' : Bool} {live live' : Nat → Prop}
    (h : Live out pc code ends live) (h' : Live out (pc + code.length) code' ends' live') :
    Live out pc (code ++ code') ends' (fun a => live a ∨ live' a) := by
  refine ⟨Or.inl h.start, ?_, ?_, ?_⟩
  · rintro a (ha | ha)
    · have := h.inside a ha
      rw [List.length_append]
      omega
    · have := h'.inside a ha
      rw [List.length_append]
      omega
  · rw [List.length_append, ← Nat.add_assoc]
    rintro (hend | hend)
    · have hle := (h.inside _ hend).2
      have hnil : code'.length = 0 := by omega
      have hstop := h'.stop
      rw [hnil, Nat.add_zero] at hstop
      exact hstop h'.start
    · exact h'.stop hend
  · intro i inst hinst ha t ht
    by_cases hi : i < code.length
    · have hold : live (pc + i) := by
        rcases ha with ha | ha
        · exact ha
        · have := (h'.inside _ ha).1
          omega
      rw [List.getElem?_append_left hi] at hinst
      rcases h.closed i inst hinst hold t ht with hnext | hout
      · exact Or.inl (Or.inl hnext)
      · exact Or.inr hout
    · obtain ⟨j, rfl⟩ : ∃ j, i = code.length + j := ⟨i - code.length, by omega⟩
      have hnew : live' (pc + code.length + j) := by
        rcases ha with ha | ha
        · have := (h.inside _ ha).2
          have hj : j = 0 := by omega
          rw [hj]
          exact h'.start
        · rwa [Nat.add_assoc]
      rw [List.getElem?_append_right (by omega), Nat.add_sub_cancel_left] at hinst
      rw [← Nat.add_assoc] at ht
      rcases h'.closed j inst hinst hnew t ht with hnext | hout
      · exact Or.inl (Or.inr hnext)
      · exact Or.inr hout

theorem FlowTo.append {code : List Inst} {ends ends' : Bool} (h : FlowTo functions out pc code ends)
    (h' : FlowTo functions out (pc + code.length) code' ends') :
    FlowTo functions out pc (code ++ code') (ends && ends') := by
  cases ends with
  | false => exact h.append_dead h'.calls _
  | true =>
    obtain ⟨hcalls, live, hlive⟩ := h
    obtain ⟨hcalls', live', hlive'⟩ := h'
    exact ⟨hcalls.append hcalls', _, hlive.append hlive'⟩

variable {ends ends' : Bool}

theorem FlowTo.before {pc' : Nat} (h : FlowTo functions out pc code ends)
    (hpc : pc' = pc + code.length) (h' : FlowTo functions out pc' code' ends') :
    FlowTo functions out pc (code ++ code') (ends && ends') := h.append (hpc ▸ h')

theorem FlowTo.mono (h : FlowTo functions out pc code ends) (hout : ∀ t, out t → t = pc ∨ out' t) :
    FlowTo functions out' pc code ends := by
  obtain ⟨hcalls, live, hlive⟩ := h
  refine ⟨hcalls, live, hlive.start, hlive.inside, hlive.stop, ?_⟩
  intro i inst hinst ha t ht
  rcases hlive.closed i inst hinst ha t ht with hnext | hexit
  · exact Or.inl hnext
  · rcases hout t hexit with rfl | hexit'
    · exact Or.inl hlive.start
    · exact Or.inr hexit'

theorem FlowTo.land (h : FlowTo functions out pc code ends)
    (hout : ∀ t, out t → t = pc + code.length ∨ out' t) : FlowTo functions out' pc code true := by
  obtain ⟨hcalls, live, hlive⟩ := h
  refine ⟨hcalls, fun a => live a ∨ a = pc + code.length, Or.inl hlive.start, ?_, fun _ => rfl, ?_⟩
  · rintro a (ha | rfl)
    · exact hlive.inside a ha
    · omega
  · intro i inst hinst ha t ht
    have hi : i < code.length := (List.getElem?_eq_some_iff.mp hinst).1
    have hold : live (pc + i) := by
      rcases ha with ha | ha
      · exact ha
      · omega
    rcases hlive.closed i inst hinst hold t ht with hnext | hexit
    · exact Or.inl (Or.inl hnext)
    · rcases hout t hexit with hend | hexit'
      · exact Or.inl (Or.inr hend)
      · exact Or.inr hexit'

theorem FlowTo.weaken (h : FlowTo functions out pc code ends) :
    FlowTo functions out pc code true := by
  obtain ⟨hcalls, live, hlive⟩ := h
  exact ⟨hcalls, live, hlive.start, hlive.inside, fun _ => rfl, hlive.closed⟩

theorem FlowTo.anywhere (h : FlowTo functions Nowhere pc code ends) :
    FlowTo functions out pc code ends :=
  h.mono (fun _ hnowhere => hnowhere.elim)

variable {inst : Inst}

theorem successors_straight (h : inst.isStraight = true) (a : Nat) :
    ∀ t ∈ successors a inst, t = a + 1 := by
  intro t ht
  cases inst with
  | jump target => cases h
  | jumpFalse target => cases h
  | tryEnter catchPc => cases h
  | ret => cases ht
  | retVal => cases ht
  | rethrow => cases ht
  | _ => exact List.mem_singleton.mp ht

theorem FlowTo.straight (h : ∀ inst ∈ code, inst.isStraight = true) :
    FlowTo functions out pc code true := by
  induction code generalizing pc with
  | nil => exact .nil
  | cons inst code ih =>
    rw [List.forall_mem_cons] at h
    have hone : FlowTo functions out pc [inst] true := by
      refine .single ?_ (fun t ht => Or.inl ⟨successors_straight h.1 pc t ht, rfl⟩)
      rintro target count rfl
      cases h.1
    exact hone.append (ih h.2)

theorem FlowTo.call {target argCount : Nat}
    (h : target = 0 ∨ ∃ name, functions.get? name = some target) :
    FlowTo functions out pc [.call target argCount] true := by
  refine ⟨?_, fun a => pc ≤ a ∧ a ≤ pc + 1, by simp, fun a ha => ha, fun _ => rfl, ?_⟩
  · intro target' count' hmem
    cases List.mem_singleton.mp hmem
    exact h
  · intro i inst hinst _ t ht
    cases i with
    | succ i => cases hinst
    | zero =>
      cases hinst
      have hnext : t = pc + 0 + 1 := List.mem_singleton.mp ht
      left
      omega

theorem flow_jump (target : Nat) : FlowTo functions (· = target) pc [.jump target] false := by
  refine .single (by rintro _ _ ⟨⟩) (fun t ht => Or.inr ?_)
  exact List.mem_singleton.mp ht

theorem flow_branch {target : Nat} (h : inst = .jumpFalse target ∨ inst = .tryEnter target) :
    FlowTo functions (· = target) pc [inst] true := by
  have hpair : ∀ {t}, t ∈ [pc + 1, target] → (t = pc + 1 ∧ true = true) ∨ t = target := by simp
  rcases h with rfl | rfl
  · exact .single (by rintro _ _ ⟨⟩) (fun t ht => hpair ht)
  · exact .single (by rintro _ _ ⟨⟩) (fun t ht => hpair ht)

theorem flow_stop (h : inst = .ret ∨ inst = .retVal ∨ inst = .rethrow) :
    FlowTo functions out pc [inst] false := by
  rcases h with rfl | rfl | rfl <;>
    exact .single (by rintro _ _ ⟨⟩) (fun t ht => absurd ht List.not_mem_nil)

variable {b : List Inst}

theorem FlowTo.ifThen {c : List Inst} (hc : FlowTo functions Nowhere pc c true)
    (hb : FlowTo functions Nowhere (pc + c.length + 1) b ends) :
    FlowTo functions Nowhere pc (c ++ .jumpFalse (pc + c.length + 1 + b.length) :: b) true := by
  have htest : FlowTo functions (· = pc + c.length + 1 + b.length) pc
      (c ++ [Inst.jumpFalse (pc + c.length + 1 + b.length)]) true :=
    hc.anywhere.append (flow_branch (Or.inl rfl))
  rw [List.append_cons]
  refine (htest.before (by simp [Nat.add_assoc]) hb.anywhere).land (fun t ht => Or.inl ?_)
  simp only [ht, List.length_append, List.length_singleton]
  omega

theorem FlowTo.ifElse {c a : List Inst} (hc : FlowTo functions Nowhere pc c true)
    (hb : FlowTo functions Nowhere (pc + c.length + 1) b ends)
    (ha : FlowTo functions Nowhere (pc + c.length + 1 + b.length + 1) a ends') :
    FlowTo functions Nowhere pc (c ++ .jumpFalse (pc + c.length + 1 + b.length + 1) :: b ++
      .jump (pc + c.length + 1 + b.length + 1 + a.length) :: a) (ends || ends') := by
  generalize helse : pc + c.length + 1 + b.length + 1 = elseStart at ha
  generalize hend : elseStart + a.length = endPc
  have hbody : FlowTo functions (· = elseStart) pc (c ++ [Inst.jumpFalse elseStart] ++ b) ends :=
    (hc.anywhere.append (flow_branch (Or.inl rfl))).before (by simp [Nat.add_assoc]) hb.anywhere
  have hlen : elseStart =
      pc + (c ++ [Inst.jumpFalse elseStart] ++ b ++ [Inst.jump endPc]).length := by
    simp only [List.length_append, List.length_singleton]
    omega
  have hend' : endPc =
      pc + (c ++ [Inst.jumpFalse elseStart] ++ b ++ [Inst.jump endPc] ++ a).length := by
    rw [List.length_append]
    omega
  have hshape : c ++ .jumpFalse elseStart :: b ++ .jump endPc :: a =
      c ++ [Inst.jumpFalse elseStart] ++ b ++ [Inst.jump endPc] ++ a := by simp
  rw [hshape]
  cases ends with
  | false =>
    -- the body does not come to the jump behind it
    have hcalls : KnownCalls functions [.jump endPc] := by simp [KnownCalls]
    have hthen := hbody.append_dead hcalls false
    have hland : FlowTo functions Nowhere pc
        (c ++ [Inst.jumpFalse elseStart] ++ b ++ [Inst.jump endPc]) true :=
      hthen.land (fun t ht => Or.inl (ht.trans hlen))
    exact hland.before hlen ha
  | true =>
    have hthen : FlowTo functions (fun t => t = elseStart ∨ t = endPc) pc
        (c ++ [Inst.jumpFalse elseStart] ++ b ++ [Inst.jump endPc]) false :=
      (hbody.mono (fun t ht => Or.inr (Or.inl ht))).append
        ((flow_jump endPc).mono (fun t ht => Or.inr (Or.inr ht)))
    have hland : FlowTo functions (· = endPc) pc
        (c ++ [Inst.jumpFalse elseStart] ++ b ++ [Inst.jump endPc]) true :=
      hthen.land (fun t ht => ht.imp_left (fun ht => ht.trans hlen))
    exact (hland.before hlen ha.anywhere).land (fun t ht => Or.inl (ht.trans hend'))

theorem FlowTo.loop {t : List Inst} (ht : FlowTo functions Nowhere pc t true)
    (hb : FlowTo functions Nowhere (pc + t.length + 1) b ends) :
    FlowTo functions Nowhere pc
      (t ++ .jumpFalse (pc + t.length + 1 + b.length + 1) :: b ++ [Inst.jump pc]) true := by
  generalize hend : pc + t.length + 1 + b.length + 1 = endPc
  have hbody : FlowTo functions (· = endPc) pc (t ++ [Inst.jumpFalse endPc] ++ b) ends :=
    (ht.anywhere.append (flow_branch (Or.inl rfl))).before (by simp [Nat.add_assoc]) hb.anywhere
  have hback : FlowTo functions (fun a => a = endPc ∨ a = pc) pc
      (t ++ [Inst.jumpFalse endPc] ++ b ++ [Inst.jump pc]) (ends && false) :=
    (hbody.mono (fun a ha => Or.inr (Or.inl ha))).append
      ((flow_jump pc).mono (fun a ha => Or.inr (Or.inr ha)))
  have hround : FlowTo functions (· = endPc) pc
      (t ++ [Inst.jumpFalse endPc] ++ b ++ [Inst.jump pc]) (ends && false) :=
    hback.mono (fun a ha => ha.symm)
  have hshape : t ++ Inst.jumpFalse endPc :: b ++ [Inst.jump pc] =
      t ++ [Inst.jumpFalse endPc] ++ b ++ [Inst.jump pc] := by simp
  rw [hshape]
  refine hround.land (fun a ha => Or.inl ?_)
  simp only [ha, List.length_append, List.length_singleton]
  omega

theorem FlowTo.clause {kind : String} {endPc : Nat} {b : List Inst} {ends : Bool}
    (hb : FlowTo functions Nowhere (Codegen.clauseStart kind pc) b ends) :
    FlowTo functions (fun t => t = endPc ∧ ends = true) pc
      (Codegen.clause kind pc b ++ [Inst.jump endPc]) true := by
  have hjump : ∀ {pc' : Nat} {code : List Inst} {out : Nat → Prop},
      FlowTo functions out pc' code ends →
      FlowTo functions (fun t => out t ∨ t = endPc ∧ ends = true) pc' (code ++ [Inst.jump endPc])
        false := by
    intro pc' code out hcode
    cases ends with
    | false =>
      exact (hcode.append_dead (by simp [KnownCalls]) false).mono (fun t ht => by simp [ht])
    | true =>
      exact (hcode.mono (fun t ht => by simp [ht])).append
        ((flow_jump endPc).mono (fun t ht => by simp [ht]))
  unfold Codegen.clauseStart at hb
  unfold Codegen.clause
  by_cases hany : kind = "any"
  · rw [if_pos hany] at hb ⊢
    refine (hjump hb).weaken.mono (fun t ht => Or.inr ?_)
    exact ht.resolve_left (fun h => h)
  · rw [if_neg hany] at hb ⊢
    have hnext : ∀ next, FlowTo functions (· = next) pc
        ([Inst.pushConst (.string kind), .loadErrorKind, .eqStr] ++ [Inst.jumpFalse next] ++ b)
        ends := by
      intro next
      have htest : FlowTo functions (· = next) pc
          ([Inst.pushConst (.string kind), .loadErrorKind, .eqStr] ++ [Inst.jumpFalse next]) true :=
        (FlowTo.straight (List.all_eq_true.mp rfl)).append (flow_branch (Or.inl rfl))
      exact htest.before (by simp) hb.anywhere
    refine (hjump (hnext (pc + 4 + b.length + 1))).land (fun t ht => ht.imp_left ?_)
    rintro rfl
    simp only [List.length_append, List.length_cons, List.length_nil]
    omega

theorem FlowTo.try {clauses : List (List Inst)} {endPc : Nat}
    (hend : endPc = pc + 1 + b.length + 2 + (Codegen.clausesCode clauses endPc).length + 1)
    (hb : FlowTo functions Nowhere (pc + 1) b ends)
    (hclauses : FlowTo functions (fun t => t = endPc ∧ ends' = true) (pc + 1 + b.length + 2)
      (Codegen.clausesCode clauses endPc) true) :
    FlowTo functions Nowhere pc (.tryEnter (pc + 1 + b.length + 2) :: b ++ .tryExit ::
      .jump endPc :: Codegen.clausesCode clauses endPc ++ [Inst.rethrow]) (ends || ends') := by
  generalize hdispatch : pc + 1 + b.length + 2 = dispatchPc at hend hclauses
  have hbody : FlowTo functions (· = dispatchPc) pc ([Inst.tryEnter dispatchPc] ++ b) ends :=
    (flow_branch (Or.inr rfl)).before (by simp) hb.anywhere
  have hlen : dispatchPc =
      pc + ([Inst.tryEnter dispatchPc] ++ b ++ [Inst.tryExit, Inst.jump endPc]).length := by
    simp only [List.length_append, List.length_cons, List.length_nil]
    omega
  have hbefore : FlowTo functions (fun t => t = endPc ∧ ends = true) pc
      ([Inst.tryEnter dispatchPc] ++ b ++ [Inst.tryExit, .jump endPc]) true := by
    cases ends with
    | false =>
      have hcalls : KnownCalls functions [.tryExit, .jump endPc] := by simp [KnownCalls]
      have hdead := hbody.append_dead hcalls false
      exact hdead.land (fun t ht => Or.inl (ht.trans hlen))
    | true =>
      have hone : FlowTo functions (· = endPc) (pc + ([Inst.tryEnter dispatchPc] ++ b).length)
          [Inst.tryExit] true :=
        .single (by rintro _ _ ⟨⟩) (fun t ht => Or.inl ⟨List.mem_singleton.mp ht, rfl⟩)
      have hexit := hone.append (flow_jump endPc)
      have hboth : FlowTo functions (fun t => t = dispatchPc ∨ t = endPc) pc
          ([Inst.tryEnter dispatchPc] ++ b ++ [Inst.tryExit, .jump endPc]) false :=
        (hbody.mono (fun t ht => Or.inr (Or.inl ht))).append
          (hexit.mono (fun t ht => Or.inr (Or.inr ht)))
      exact hboth.land (fun t ht => ht.imp (fun ht => ht.trans hlen) (fun ht => ⟨ht, rfl⟩))
  have hrest : FlowTo functions (fun t => t = endPc ∧ ends' = true) dispatchPc
      (Codegen.clausesCode clauses endPc ++ [Inst.rethrow]) false :=
    hclauses.append (flow_stop (Or.inr (Or.inr rfl)))
  have hall : FlowTo functions (fun t => t = endPc ∧ (ends || ends') = true) pc
      ([Inst.tryEnter dispatchPc] ++ b ++ [Inst.tryExit, .jump endPc] ++
        (Codegen.clausesCode clauses endPc ++ [Inst.rethrow])) false :=
    (hbefore.mono (fun t ht => Or.inr ⟨ht.1, by simp [ht.2]⟩)).before hlen
      (hrest.mono (fun t ht => Or.inr ⟨ht.1, by simp [ht.2]⟩))
  have hshape : Inst.tryEnter dispatchPc :: b ++ .tryExit :: .jump endPc ::
      Codegen.clausesCode clauses endPc ++ [Inst.rethrow] =
      [Inst.tryEnter dispatchPc] ++ b ++ [Inst.tryExit, .jump endPc] ++
        (Codegen.clausesCode clauses endPc ++ [Inst.rethrow]) := by simp
  rw [hshape]
  cases hends : ends || ends' with
  | false =>
    rw [hends] at hall
    exact hall.mono (fun t ht => by cases ht.2)
  | true =>
    refine hall.land (fun t ht => Or.inl ?_)
    simp only [List.length_append, List.length_cons, List.length_nil]
    omega

namespace Codegen

theorem flow_compiles :
    Compiles (FlowTo · Nowhere) (fun functions endPc pc code ends =>
      FlowTo functions (fun t => t = endPc ∧ ends = true) pc code true) where
  append := .append
  straight := .straight
  call := .call
  stop := flow_stop
  ifThen := .ifThen
  ifElse := .ifElse
  loop := .loop
  noClause := .nil
  clause := .clause
  clauses h h' := FlowTo.append (h.mono fun t ht => Or.inr ⟨ht.1, by simp [ht.2]⟩)
    (h'.mono fun t ht => Or.inr ⟨ht.1, by simp [ht.2]⟩)
  tryCatch := .try

variable {body : List Stmt} {condition : Expr}

variable {catches : List (String × List Stmt)}

structure Placed (known : Nat → Prop) (pc : Nat) (code : List Inst) (live : Nat → Prop) :
    Prop where
  flow : Live Nowhere pc code true live
  calls : ∀ target count, .call target count ∈ code → target = 0 ∨ known target ∨ live target

def Knows (functions : HashMap String Nat) (known : Nat → Prop) : Prop :=
  ∀ name target, functions.get? name = some target → known target

variable {known : Nat → Prop}

theorem Placed.append {known' : Nat → Prop} {code code' : List Inst} {live live' : Nat → Prop}
    (h : Placed known pc code live) (h' : Placed known' (pc + code.length) code' live')
    (hknown : ∀ a, known' a → known a ∨ live a) :
    Placed known pc (code ++ code') (fun a => live a ∨ live' a) := by
  refine ⟨h.flow.append h'.flow, fun target count hmem => ?_⟩
  rcases List.mem_append.mp hmem with hmem | hmem
  · exact (h.calls target count hmem).imp_right (Or.imp_right Or.inl)
  · rcases h'.calls target count hmem with hzero | hold | hnew
    · exact Or.inl hzero
    · exact Or.inr ((hknown target hold).imp_right Or.inl)
    · exact Or.inr (Or.inr (Or.inr hnew))

theorem placed_of_flowTo (h : FlowTo functions Nowhere pc code ends)
    (hknown : Knows functions known) : ∃ live, Placed known pc code live := by
  obtain ⟨hcalls, live, hlive⟩ := h.weaken
  refine ⟨live, hlive, fun target count hmem => ?_⟩
  rcases hcalls target count hmem with hzero | ⟨name, hname⟩
  · exact Or.inl hzero
  · exact Or.inr (Or.inl (hknown name target hname))

theorem placed_func (h : FlowTo functions Nowhere (pc + 1) b ends)
    (hknown : Knows functions (fun a => known a ∨ a = pc + 1)) :
    ∃ live, Placed known pc (.jump (pc + 1 + b.length + 1) :: b ++ [Inst.ret]) live ∧
      live (pc + 1) ∧
      (live (pc + 1 + b.length) → ends = true) := by
  obtain ⟨hcalls, live, hlive⟩ := h
  have hlength : pc + (Inst.jump (pc + 1 + b.length + 1) :: b ++ [Inst.ret]).length =
      pc + 1 + b.length + 1 := by
    simp only [List.length_append, List.length_cons, List.length_nil]
    omega
  refine ⟨fun a => (a = pc ∨ a = pc + 1 + b.length + 1) ∨ live a, ⟨⟨Or.inl (Or.inl rfl), ?_,
    fun _ => rfl, ?_⟩, ?_⟩, Or.inr hlive.start, ?_⟩
  · rw [hlength]
    rintro a ((rfl | rfl) | ha)
    · omega
    · omega
    · have := hlive.inside a ha
      omega
  · intro i inst hinst ha t ht
    left
    cases i with
    | zero =>
      cases hinst
      exact Or.inl (Or.inr (List.mem_singleton.mp ht))
    | succ i =>
      rw [List.cons_append, List.getElem?_cons_succ] at hinst
      by_cases hi : i < b.length
      · rw [List.getElem?_append_left hi] at hinst
        rw [show pc + (i + 1) = pc + 1 + i from by omega] at ha ht
        have hinner : live (pc + 1 + i) := by
          rcases ha with ha | ha
          · omega
          · exact ha
        rcases hlive.closed i inst hinst hinner t ht with hnext | hnowhere
        · exact Or.inr hnext
        · exact hnowhere.elim
      · rw [List.getElem?_append_right (by omega)] at hinst
        have hret : inst = .ret := by simpa using List.mem_of_getElem? hinst
        rw [hret] at ht
        cases ht
  · intro target count hmem
    have hcall : .call target count ∈ b := by simpa using hmem
    rcases hcalls target count hcall with hzero | ⟨name, hname⟩
    · exact Or.inl hzero
    · rcases hknown name target hname with hold | rfl
      · exact Or.inr (Or.inl hold)
      · exact Or.inr (Or.inr (Or.inr hlive.start))
  · rintro (hend | hend)
    · omega
    · exact hlive.stop hend

variable {cg' cg : Codegen}

theorem compileDecl_placed {d : Decl} (h : compileDecl d cg pc = some (code, cg'))
    (hknown : Knows cg.functions known) :
    ∃ live, Placed known pc code live ∧ Knows cg'.functions (fun a => known a ∨ live a) ∧
      ∀ name params ret body, d = .func name params ret body → Analyzer.alwaysReturns body = true →
        1 < code.length ∧ code.getLast? = some .ret ∧ ¬ live (pc + code.length - 1) := by
  cases d with
  | func name params ret body =>
    simp only [compileDecl, Option.bind_eq_bind, Option.bind_eq_some_iff] at h
    obtain ⟨⟨b, cg₂⟩, hb, h⟩ := h
    cases h
    obtain ⟨hfunctions, hflow⟩ := yields_stmt flow_compiles body _ _ _ _ hb
    rw [enterParams_functions] at hflow hfunctions
    have hinside : Knows (cg.functions.insert name (pc + 1)) (fun a => known a ∨ a = pc + 1) := by
      intro name' target hget
      rcases HashMap.insert_some hget with ⟨-, rfl⟩ | ⟨-, hold⟩
      · exact Or.inr rfl
      · exact Or.inl (hknown name' target hold)
    obtain ⟨live, hplaced, hentry, hstop⟩ := placed_func hflow hinside
    refine ⟨live, hplaced, ?_, ?_⟩
    · rw [hfunctions]
      intro name' target hget
      rcases hinside name' target hget with hold | rfl
      · exact Or.inl hold
      · exact Or.inr hentry
    · intro _ _ _ _ hfunc hreturns
      cases hfunc
      rw [hreturns] at hstop
      refine ⟨by simp, List.getLast?_concat, fun hlive => ?_⟩
      have hlast : pc + (Inst.jump (pc + 1 + b.length + 1) :: b ++ [Inst.ret]).length - 1 =
          pc + 1 + b.length := by
        simp only [List.length_append, List.length_cons, List.length_nil]
        omega
      rw [hlast] at hlive
      cases hstop hlive
  | _ =>
    obtain ⟨hfunctions, hflow⟩ := yields_decl flow_compiles (by rintro _ _ _ _ ⟨⟩) cg pc code cg' h
    obtain ⟨live, hplaced⟩ := placed_of_flowTo hflow hknown
    refine ⟨live, hplaced, ?_, by rintro _ _ _ _ ⟨⟩⟩
    rw [hfunctions]
    exact fun name target hget => Or.inl (hknown name target hget)

theorem compileDecls_placed {program : Program} (h : compileDecls program cg pc = some (code, cg'))
    (hknown : Knows cg.functions known) :
    ∃ live, Placed known pc code live ∧ Knows cg'.functions (fun a => known a ∨ live a) := by
  induction program generalizing cg pc code known with
  | nil =>
    cases h
    obtain ⟨live, hplaced⟩ := placed_of_flowTo (@FlowTo.nil _ Nowhere _) hknown
    exact ⟨live, hplaced, fun name target hget => Or.inl (hknown name target hget)⟩
  | cons d program ih =>
    obtain ⟨code₁, cg₁, code₂, hfirst, hrest, rfl⟩ := andThen_eq_some h
    obtain ⟨live, hplaced, hknown₁, -⟩ := compileDecl_placed hfirst hknown
    obtain ⟨live', hplaced', hknown₂⟩ := ih hrest hknown₁
    refine ⟨_, hplaced.append hplaced' (fun a ha => ha), fun name target hget => ?_⟩
    exact or_assoc.mp (hknown₂ name target hget)

theorem andThen_assoc (a b c : Emit) : andThen (andThen a b) c = andThen a (andThen b c) := by
  funext cg pc
  simp only [andThen]
  cases a cg pc with
  | none => rfl
  | some first =>
    cases hsecond : b first.2 (pc + first.1.length) with
    | none => simp only [hsecond]
    | some second =>
      simp only [hsecond, List.length_append, Nat.add_assoc]
      cases c second.2 (pc + (first.1.length + second.1.length)) with
      | none => rfl
      | some third => simp only [List.append_assoc]

theorem emit_nil_andThen (a : Emit) : andThen (emit []) a = a := by
  funext cg pc
  simp only [andThen, emit, List.length_nil, Nat.add_zero]
  cases a cg pc <;> rfl

theorem compileDecls_append (before after : Program) :
    compileDecls (before ++ after) = andThen (compileDecls before) (compileDecls after) := by
  induction before with
  | nil => exact (emit_nil_andThen _).symm
  | cons d before ih => rw [List.cons_append, compileDecls, compileDecls, ih, andThen_assoc]

def lastAddress (tables : List TypeTable) (program before : Program) (d : Decl) : Option Nat :=
  (compileDecls (before ++ [d]) (enterLayouts (ofTables tables) program) 0).map
    (fun r => r.1.length - 1)

theorem resolve_getElem? {i : Nat} (h : code[i]? = some inst)
    (hinst : ∀ target count, inst ≠ .call target count) (pending : Nat × String) :
    (resolve functions code pending)[i]? = some inst := by
  unfold resolve
  split
  · next addr target count hname hcall =>
    by_cases hi : pending.1 = i
    · rw [hi, h] at hcall
      cases hcall
      exact absurd rfl (hinst target count)
    · rw [List.getElem?_set_ne hi, h]
  · exact h

theorem resolve_placed (h : Placed known pc code live)
    (hknown : Knows functions (fun a => known a ∨ live a)) (pending : Nat × String) :
    Placed known pc (resolve functions code pending) live := by
  unfold resolve
  split
  · next addr target count hname hcall =>
    refine ⟨⟨h.flow.start, ?_, fun _ => rfl, ?_⟩, ?_⟩
    · rw [List.length_set]
      exact h.flow.inside
    · intro i inst hinst ha t ht
      by_cases hi : pending.1 = i
      · subst hi
        rw [List.getElem?_set_self (List.getElem?_eq_some_iff.mp hcall).1] at hinst
        cases hinst
        exact h.flow.closed pending.1 _ hcall ha t ht
      · rw [List.getElem?_set_ne hi] at hinst
        exact h.flow.closed i inst hinst ha t ht
    · intro target' count' hmem
      rcases List.mem_or_eq_of_mem_set hmem with hmem | heq
      · exact h.calls target' count' hmem
      · cases heq
        exact Or.inr (hknown pending.2 addr hname)
  · exact h

theorem link_placed (hknown : Knows functions (fun a => known a ∨ live a))
    (pendings : List (Nat × String)) (h : Placed known pc code live) :
    Placed known pc (pendings.foldl (resolve functions) code) live ∧
      ∀ (i : Nat) (inst : Inst), code[i]? = some inst →
        (∀ target count, inst ≠ .call target count) →
        (pendings.foldl (resolve functions) code)[i]? = some inst := by
  induction pendings generalizing code with
  | nil => exact ⟨h, fun i inst hi _ => hi⟩
  | cons pending pendings ih =>
    obtain ⟨hplaced, hkept⟩ := ih (resolve_placed h hknown pending)
    exact ⟨hplaced, fun i inst hi hinst => hkept i inst (resolve_getElem? hi hinst pending) hinst⟩

theorem compileDecls_around {before after : Program} {name : String} {params : List (String × Ty)}
    {ret : Ty} {body : Stmt}
    (h : compileDecls (before ++ .func name params ret body :: after) cg 0 = some (code, cg'))
    (hknown : Knows cg.functions known) (hreturns : Analyzer.alwaysReturns body = true) :
    ∃ live code₁ cg₁, Placed known 0 code live ∧
      Knows cg'.functions (fun a => known a ∨ live a) ∧
      compileDecls (before ++ [Decl.func name params ret body]) cg 0 = some (code₁, cg₁) ∧
      code[code₁.length - 1]? = some .ret ∧ ¬ live (code₁.length - 1) := by
  rw [compileDecls_append] at h
  obtain ⟨c₀, cg₀, rest, hbefore, hrest, rfl⟩ := andThen_eq_some h
  obtain ⟨c₁, cg₁, c₂, hfunc, hafter, rfl⟩ := andThen_eq_some hrest
  obtain ⟨live₀, hplaced₀, hknown₀⟩ := compileDecls_placed hbefore hknown
  obtain ⟨live₁, hplaced₁, hknown₁, hlast⟩ := compileDecl_placed hfunc hknown₀
  obtain ⟨live₂, hplaced₂, hknown₂⟩ := compileDecls_placed hafter hknown₁
  obtain ⟨hlength, hret, hdead⟩ := hlast name params ret body rfl hreturns
  have hcode : compileDecls (before ++ [Decl.func name params ret body]) cg 0 =
      some (c₀ ++ c₁, cg₁) := by
    rw [Nat.zero_add] at hfunc
    simp [compileDecls_append, compileDecls, andThen, hbefore, hfunc, emit]
  have hboth := hplaced₀.append hplaced₁ (fun a ha => ha)
  have hall := hboth.append (by rwa [List.length_append, ← Nat.add_assoc])
    (fun a ha => or_assoc.mp ha)
  rw [List.append_assoc] at hall
  refine ⟨_, _, _, hall, ?_, hcode, ?_, ?_⟩
  · intro name' target hget
    have hlive := hknown₂ name' target hget
    tauto
  · rw [← List.append_assoc, List.getElem?_append_left (by rw [List.length_append]; omega),
      ← List.getLast?_eq_getElem?, List.getLast?_append_of_ne_nil]
    · exact hret
    · rintro rfl
      cases hret
  · rw [List.length_append]
    rintro ((hlive | hlive) | hlive)
    · have := (hplaced₀.flow.inside _ hlive).2
      omega
    · refine hdead ?_
      rw [Nat.zero_add]
      exact hlive
    · have := (hplaced₂.flow.inside _ hlive).1
      omega

end Codegen

open Codegen in
theorem compiled_live {before after : Program} {name : String} {params : List (String × Ty)}
    {ret : Ty} {body : Stmt} {insts : List Inst}
    (h : compileProgram (before ++ .func name params ret body :: after) = some insts)
    (hreturns : Analyzer.alwaysReturns body = true) :
    ∃ analyzer addr live,
      Analyzer.run (before ++ .func name params ret body :: after) = some analyzer ∧
      lastAddress analyzer.ttArena (before ++ .func name params ret body :: after) before
        (.func name params ret body) = some addr ∧
      insts[addr]? = some .ret ∧ Placed Nowhere 0 insts live ∧ ¬ live addr := by
  obtain ⟨analyzer, hrun, h⟩ := Option.bind_eq_some_iff.mp h
  simp only [genBcode, Option.bind_eq_bind, Option.bind_eq_some_iff] at h
  obtain ⟨⟨code, cg⟩, hcode, h⟩ := h
  have hstart : Knows (enterLayouts (ofTables analyzer.ttArena)
      (before ++ .func name params ret body :: after)).functions Nowhere := by
    rw [enterLayouts_functions]
    rintro name target ⟨⟩
  obtain ⟨live, code₁, cg₁, hplaced, hknown, hbefore, hret, hdead⟩ :=
    compileDecls_around hcode hstart hreturns
  obtain ⟨hlinked, hkept⟩ := link_placed hknown cg.pendingCalls hplaced
  have hret' := hkept _ _ hret (by rintro _ _ ⟨⟩)
  have haddr : lastAddress analyzer.ttArena (before ++ .func name params ret body :: after) before
      (.func name params ret body) = some (code₁.length - 1) := by
    rw [lastAddress, hbefore]
    rfl
  cases hmain : cg.functions.get? "start" with
  | none =>
    simp only [hmain] at h
    cases h
    exact ⟨analyzer, _, live, hrun, haddr, hret', hlinked, hdead⟩
  | some startAddr =>
    simp only [hmain] at h
    cases h
    have hlt := (List.getElem?_eq_some_iff.mp hret').1
    obtain ⟨live', hlast⟩ := placed_of_flowTo
      (@FlowTo.call _ Nowhere _ startAddr 0 (Or.inr ⟨"start", hmain⟩)) hknown
    refine ⟨analyzer, _, _, hrun, haddr, ?_, hlinked.append hlast (fun a ha => ha), ?_⟩
    · rw [List.getElem?_append_left hlt, hret']
    · rintro (hlive | hlive)
      · exact hdead hlive
      · have := (hlast.flow.inside _ hlive).1
        omega

end Sol

end Relux
