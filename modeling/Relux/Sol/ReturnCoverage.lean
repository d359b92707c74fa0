import Mathlib.Data.Set.Basic
import Relux.Sol.Heap
import Relux.Sol.LiveCode

/-! A function that returns a value is not left at the end of its body: not by the statements of
the body, and not by the code that is emitted for them. -/

namespace Relux

namespace Sol

inductive Outcome where
  | normal
  | returned (ty : Ty)
  | failed

inductive Rounds (body : Set Outcome) : Outcome → Prop
  | over : Rounds body .normal
  | failed : Rounds body .failed
  | leaves {o : Outcome} (h : o ∈ body) (ho : o ≠ .normal) : Rounds body o
  | again {o : Outcome} (h : .normal ∈ body) (hrest : Rounds body o) : Rounds body o

theorem Rounds.returned {body : Set Outcome} {ty : Ty} (h : Rounds body (.returned ty)) :
    .returned ty ∈ body := by
  generalize ho : Outcome.returned ty = o at h
  induction h with
  | «over» => cases ho
  | failed => cases ho
  | leaves h _ => exact ho ▸ h
  | again _ _ ih => exact ih ho

namespace Analyzer

def forScope (a : Analyzer) (elemName : String) (array : Expr) : Option Analyzer :=
  match check a array with
  | some (.array _ inner) => a.addEntry elemName (.variable inner)
  | some .list => a.addEntry elemName (.variable .string)
  | _ => none

mutual

/-- How a statement may end in its scope: a condition comes out either way, and whatever is
evaluated may fail. -/
def outcomes (a : Analyzer) : Stmt → Set Outcome
  | .expr _ | .declVar _ _ _ => {.normal, .failed}
  | .block stmts => stmtsOutcomes a.newTable stmts
  | .importAs _ => {.normal}
  | .ifThen _ body => {.normal, .failed} ∪ stmtsOutcomes a.newTable body
  | .ifElse _ body alt =>
    {.failed} ∪ stmtsOutcomes a.newTable body ∪
      {o | ∃ a', checkBlock a body = some a' ∧ o ∈ outcomes a' alt}
  | .while _ body => {o | Rounds (stmtsOutcomes a.newTable body) o}
  | .for elemName array body =>
    {.failed} ∪
      {o | ∃ a', forScope a elemName array = some a' ∧ Rounds (stmtsOutcomes a'.newTable body) o}
  -- a failure that no clause takes goes on
  | .try body catches =>
    stmtsOutcomes a.newTable body ∪
      {o | .failed ∈ stmtsOutcomes a.newTable body ∧
        ∃ a', checkBlock a body = some a' ∧ o ∈ catchOutcomes a' catches}
  | .rethrow => {.failed}
  | .return none => {.returned .void}
  | .return (some e) => {.failed} ∪ {o | ∃ ty, check a e = some ty ∧ o = .returned ty}

def stmtsOutcomes (a : Analyzer) : List Stmt → Set Outcome
  | [] => {.normal}
  | s :: stmts =>
    {o | o ∈ outcomes a s ∧ o ≠ .normal} ∪
      {o | .normal ∈ outcomes a s ∧ ∃ a', checkStmt a s = some a' ∧ o ∈ stmtsOutcomes a' stmts}

def catchOutcomes (a : Analyzer) : List (String × List Stmt) → Set Outcome
  | [] => ∅
  | (_, body) :: catches =>
    stmtsOutcomes a.newTable body ∪
      {o | ∃ a', checkBlock a body = some a' ∧ o ∈ catchOutcomes a' catches}

end

theorem alwaysReturns_covers :
    (∀ s a, alwaysReturns s = true → .normal ∉ outcomes a s) ∧
      ∀ stmts a, anyReturns stmts = true → .normal ∉ stmtsOutcomes a stmts := by
  refine @Stmt.induction (fun s => ∀ a, alwaysReturns s = true → .normal ∉ outcomes a s)
    (fun stmts => ∀ a, anyReturns stmts = true → .normal ∉ stmtsOutcomes a stmts)
    (fun catches => ∀ a, allReturn catches = true → .normal ∉ catchOutcomes a catches)
    ?_ ?_ ?_ ?_ ?_ ?_ ?_ ?_ ?_ ?_ ?_ ?_ ?_ ?_ ?_
  · rintro e a ⟨⟩
  · rintro name kind value a ⟨⟩
  · intro stmts ih a h
    exact ih a.newTable h
  · rintro name a ⟨⟩
  · rintro condition body _ a ⟨⟩
  · intro condition body alt ihbody ihalt a h
    obtain ⟨hbody, halt⟩ := Bool.and_eq_true_iff.mp h
    rintro ((hnormal | hnormal) | ⟨a', -, hnormal⟩)
    · cases hnormal
    · exact ihbody _ hbody hnormal
    · exact ihalt a' halt hnormal
  · rintro condition body _ a ⟨⟩
  · rintro elemName array body _ a ⟨⟩
  · intro body catches ihbody ihcatches a h
    obtain ⟨hbody, hcatches⟩ := Bool.and_eq_true_iff.mp h
    rintro (hnormal | ⟨-, a', -, hnormal⟩)
    · exact ihbody _ hbody hnormal
    · exact ihcatches a' hcatches hnormal
  · rintro a - ⟨⟩
  · intro val a _ hnormal
    cases val with
    | none => cases hnormal
    | some e =>
      rcases hnormal with hnormal | ⟨ty, -, hnormal⟩ <;> cases hnormal
  · rintro a ⟨⟩
  · intro s stmts ihs ihstmts a h
    rw [anyReturns, Bool.or_eq_true] at h
    rintro (⟨-, hne⟩ | ⟨hfirst, a', -, hnormal⟩)
    · exact hne rfl
    · rcases h with hs | hstmts
      · exact ihs a hs hfirst
      · exact ihstmts a' hstmts hnormal
  · rintro a - ⟨⟩
  · intro kind body catches ihbody ihcatches a h
    obtain ⟨hbody, hcatches⟩ := Bool.and_eq_true_iff.mp h
    rintro (hnormal | ⟨a', -, hnormal⟩)
    · exact ihbody _ hbody hnormal
    · exact ihcatches a' hcatches hnormal

structure Agrees (ret : Ty) (a' : Analyzer) (ends : Set Outcome) : Prop where
  kept : a'.returnType = some ret
  types : ∀ ty, .returned ty ∈ ends → typeEq ty ret = true

theorem checkBlock_eq (a : Analyzer) (stmts : List Stmt) :
    stmts = [] ∨ checkBlock a stmts = (checkStmts a.newTable stmts).map popTable := by
  cases stmts with
  | nil => exact Or.inl rfl
  | cons s stmts =>
    right
    rw [checkBlock, checkStmts, Option.map_bind]
    rfl

theorem checkStmt_for (a : Analyzer) (elemName : String) (array : Expr) (body : List Stmt) :
    checkStmt a (.for elemName array body) =
      (forScope a elemName array).bind (fun a => checkBlock a body) := by
  rw [checkStmt, forScope]
  cases check a array with
  | none => rfl
  | some ty => cases ty <;> rfl

variable {name : String}

theorem addEntry_returnType {a a' : Analyzer} {symbol : Symbol}
    (h : a.addEntry name symbol = some a') : a'.returnType = a.returnType := by
  unfold addEntry at h
  split at h
  · cases h
  · split at h
    · cases h
    · split at h
      · cases h
      · cases h
        rfl

variable {elemName : String} {array : Expr}

theorem forScope_returnType {a a' : Analyzer}
    (h : forScope a elemName array = some a') : a'.returnType = a.returnType := by
  unfold forScope at h
  split at h
  · exact addEntry_returnType h
  · exact addEntry_returnType h
  · cases h

variable {ret : Ty}

def Typed (ret : Ty) (checked : Analyzer → Option Analyzer) (ends : Analyzer → Set Outcome) :
    Prop :=
  ∀ a a', checked a = some a' → a.returnType = some ret → Agrees ret a' (ends a)

theorem typed_block {stmts : List Stmt}
    (h : Typed ret (checkStmts · stmts) (stmtsOutcomes · stmts)) :
    Typed ret (checkBlock · stmts) (fun a => stmtsOutcomes a.newTable stmts) := by
  intro a a' hcheck hret
  rcases checkBlock_eq a stmts with rfl | hblock
  · cases hcheck
    exact ⟨hret, fun ty hty => by cases hty⟩
  · simp only [hblock] at hcheck
    obtain ⟨inner, hinner, rfl⟩ := Option.map_eq_some_iff.mp hcheck
    exact ⟨(h a.newTable inner hinner hret).kept, (h a.newTable inner hinner hret).types⟩

theorem Typed.andThen {checked checked' : Analyzer → Option Analyzer}
    {ends ends' both : Analyzer → Set Outcome} (h : Typed ret checked ends)
    (h' : Typed ret checked' ends')
    (hboth : ∀ a ty, .returned ty ∈ both a →
      .returned ty ∈ ends a ∨ ∃ a', checked a = some a' ∧ .returned ty ∈ ends' a') :
    Typed ret (fun a => (checked a).bind checked') both := by
  intro a a' hcheck hret
  obtain ⟨a₁, hfirst, hsecond⟩ := Option.bind_eq_some_iff.mp hcheck
  have hagrees := h a a₁ hfirst hret
  have hagrees' := h' a₁ a' hsecond hagrees.kept
  refine ⟨hagrees'.kept, fun ty hty => ?_⟩
  rcases hboth a ty hty with hty | ⟨a₂, hscope, hty⟩
  · exact hagrees.types ty hty
  · rw [hfirst] at hscope
    cases hscope
    exact hagrees'.types ty hty

theorem typed_guarded {condition : Expr} {s : Stmt} {checked : Analyzer → Option Analyzer}
    {ends : Analyzer → Set Outcome} (h : Typed ret checked ends)
    (hcheck : ∀ a, checkStmt a s = if checkCondition a condition then checked a else none)
    (hends : ∀ a ty, .returned ty ∈ outcomes a s → .returned ty ∈ ends a) :
    Typed ret (checkStmt · s) (outcomes · s) := by
  intro a a' hchecked hret
  simp only [hcheck] at hchecked
  split at hchecked
  · have hagrees := h a a' hchecked hret
    exact ⟨hagrees.kept, fun ty hty => hagrees.types ty (hends a ty hty)⟩
  · cases hchecked

theorem typed_for {body : List Stmt}
    (hbody : Typed ret (checkBlock · body) (fun a => stmtsOutcomes a.newTable body)) :
    Typed ret (checkStmt · (.for elemName array body))
      (outcomes · (.for elemName array body)) := by
  intro a a' hcheck hret
  simp only [checkStmt_for] at hcheck
  obtain ⟨inner, hscope, hblock⟩ := Option.bind_eq_some_iff.mp hcheck
  have hagrees := hbody inner a' hblock ((forScope_returnType hscope).trans hret)
  refine ⟨hagrees.kept, ?_⟩
  rintro ty (hty | ⟨inner', hscope', hty⟩)
  · cases hty
  · rw [hscope] at hscope'
    cases hscope'
    exact hagrees.types ty hty.returned

theorem typed_return (val : Option Expr) :
    Typed ret (checkStmt · (.return val)) (outcomes · (.return val)) := by
  intro a a' hcheck hret
  simp only [checkStmt, hret] at hcheck
  split at hcheck
  · cases hcheck
  · cases val with
    | none =>
      simp only at hcheck
      split at hcheck
      · cases hcheck
        refine ⟨hret, fun ty hty => ?_⟩
        cases hty
        assumption
      · cases hcheck
    | some e =>
      cases hty : check a e with
      | none =>
        simp only [hty] at hcheck
        cases hcheck
      | some actual =>
        simp only [hty] at hcheck
        split at hcheck
        · cases hcheck
          refine ⟨hret, ?_⟩
          rintro ty (hfailed | ⟨ty', hty', heq⟩)
          · cases hfailed
          · cases heq
            rw [hty] at hty'
            cases hty'
            assumption
        · cases hcheck

theorem typed_stmt (s : Stmt) : Typed ret (checkStmt · s) (outcomes · s) := by
  refine (@Stmt.induction (fun s => Typed ret (checkStmt · s) (outcomes · s))
    (fun stmts => Typed ret (checkStmts · stmts) (stmtsOutcomes · stmts))
    (fun catches => Typed ret (checkCatches · catches) (catchOutcomes · catches))
    ?_ ?_ (fun _ h => typed_block h) ?_ ?_ ?_ ?_ (fun _ _ _ h => typed_for (typed_block h)) ?_ ?_
    typed_return ?_ ?_ ?_ ?_).1 s
  · intro e a a' h hret
    obtain ⟨ty, -, rfl⟩ := Option.map_eq_some_iff.mp h
    refine ⟨hret, ?_⟩
    rintro ty (hty | hty) <;> cases hty
  · intro name kind value a a' h hret
    refine ⟨(addEntry_returnType h).trans hret, ?_⟩
    rintro ty (hty | hty) <;> cases hty
  · intro name a a' h hret
    refine ⟨?_, by rintro ty ⟨⟩⟩
    cases name with
    | none =>
      cases h
      exact hret
    | some name => exact (addEntry_returnType h).trans hret
  · intro condition body h
    refine typed_guarded (typed_block h) (fun a => rfl) (fun a ty hty => ?_)
    rcases hty with (hty | hty) | hty
    · cases hty
    · cases hty
    · exact hty
  · intro condition body alt h h'
    have hboth : Typed ret (fun a => (checkBlock a body).bind (checkStmt · alt))
        (fun a => {o | o ∈ stmtsOutcomes a.newTable body ∨
          ∃ a', checkBlock a body = some a' ∧ o ∈ outcomes a' alt}) :=
      (typed_block h).andThen h' (fun a ty hty => hty)
    refine typed_guarded hboth (fun a => rfl) ?_
    rintro a ty ((hty | hty) | hty)
    · cases hty
    · exact Or.inl hty
    · exact Or.inr hty
  · intro condition body h
    exact typed_guarded (typed_block h) (fun a => rfl) (fun a ty hty => Rounds.returned hty)
  · intro body catches h h'
    exact (typed_block h).andThen h' (fun a ty hty => hty.imp_right And.right)
  · intro a a' h hret
    cases h
    exact ⟨hret, by rintro ty ⟨⟩⟩
  · intro a a' h hret
    cases h
    exact ⟨hret, by rintro ty ⟨⟩⟩
  · intro s stmts h h'
    exact h.andThen h' (fun a ty hty => hty.imp And.left And.right)
  · intro a a' h hret
    cases h
    exact ⟨hret, by rintro ty ⟨⟩⟩
  · intro kind body catches h h'
    exact (typed_block h).andThen h' (fun a ty hty => hty)

def bodyScope (program before : Program) (params : List (String × Ty)) (ret : Ty) :
    Option Analyzer := do
  let a ← program.foldlM (fun a decl => match decl with
    | .func name params ret _ =>
      addEntry a name (.variable (.function (params.map Prod.snd) ret))
    | _ => some a) new.newTable
  let a ← before.foldlM checkDecl a
  let inner ← addParams a.newTable params
  some { inner with canReturn := true, returnType := some ret }

theorem checked_body {before after : Program} {params : List (String × Ty)}
    {body : Stmt} {analyzer : Analyzer}
    (h : run (before ++ .func name params ret body :: after) = some analyzer) :
    ∃ scope checked, bodyScope (before ++ .func name params ret body :: after) before params ret =
        some scope ∧ scope.returnType = some ret ∧ checkStmt scope body = some checked ∧
      (ret.isVoid = false → alwaysReturns body = true) := by
  obtain ⟨a, hfunctions, h⟩ := Option.bind_eq_some_iff.mp h
  rw [List.foldlM_append] at h
  obtain ⟨a₁, hbefore, h⟩ := Option.bind_eq_some_iff.mp h
  obtain ⟨a₂, hfunc, -⟩ := Option.bind_eq_some_iff.mp h
  obtain ⟨inner, hparams, hfunc⟩ := Option.bind_eq_some_iff.mp hfunc
  obtain ⟨checked, hbody, hfunc⟩ := Option.bind_eq_some_iff.mp hfunc
  refine ⟨_, checked, ?_, rfl, hbody, fun hret => ?_⟩
  · exact Option.bind_eq_some_iff.mpr ⟨a, hfunctions, Option.bind_eq_some_iff.mpr ⟨a₁, hbefore,
      Option.bind_eq_some_iff.mpr ⟨inner, hparams, rfl⟩⟩⟩
  · by_contra hreturns
    rw [if_pos ⟨by simp [hret], hreturns⟩] at hfunc
    cases hfunc

end Analyzer

theorem next_mem_successors {inst : Inst} (h : inst.isPlain = true ∨ inst.isRemote = true)
    (a : Nat) : a + 1 ∈ successors a inst := by
  cases inst with
  | jump target | ret | retVal | rethrow => rcases h with h | h <;> cases h
  | _ => simp [successors]

namespace VM

variable {host : Host} {vm vm' : VM} {inst : Inst} {live : Nat → Prop} {program : List Inst}

def StaysLive (live : Nat → Prop) (c : Control) : Prop :=
  c.done = true ∨ live c.instPtr ∧ (∀ frame ∈ c.callStack, live frame.returnPtr) ∧
    ∀ handler ∈ c.tryHandlers, live handler.catchPc

theorem StaysLive.settle (h : StaysLive live vm.control) : StaysLive live vm.settle.2.control := by
  unfold VM.settle
  cases vm.fault with
  | none => exact h
  | some cause => exact Or.inl rfl

theorem Effect.staysLive {flow : Flow} (h : Effect host vm.tick inst flow)
    (hreturns : ∀ frame ∈ vm.callStack, live frame.returnPtr)
    (hcatches : ∀ handler ∈ vm.tryHandlers, live handler.catchPc)
    (hnext : ∀ t ∈ successors vm.instPtr inst, live t)
    (hcall : ∀ target count, inst = .call target count → live target) :
    StaysLive live flow.settle.2.control := by
  cases h with
  | plain hinst hattempt hc =>
    refine StaysLive.settle ?_
    rw [hc]
    exact Or.inr ⟨hnext _ (next_mem_successors (Or.inl hinst) _), hreturns, hcatches⟩
  | answered hinst hattempt hc =>
    refine StaysLive.settle ?_
    rw [hc]
    exact Or.inr ⟨hnext _ (next_mem_successors (Or.inr hinst) _), hreturns, hcatches⟩
  | jumped target hinst hc =>
    refine StaysLive.settle ?_
    rw [hc]
    have htarget : target ∈ successors vm.instPtr inst := by
      rcases hinst with rfl | rfl <;> simp [successors]
    exact Or.inr ⟨hnext target htarget, hreturns, hcatches⟩
  | called target argCount hcount hc =>
    refine StaysLive.settle ?_
    rw [hc]
    refine Or.inr ⟨hcall target argCount rfl, ?_, hcatches⟩
    intro frame hframe
    rcases List.mem_cons.mp hframe with rfl | hframe
    · exact hnext _ (by simp [successors, tick])
    · exact hreturns frame hframe
  | returned frame frames hinst hframes hc =>
    refine StaysLive.settle ?_
    rw [hc]
    have hframes' : vm.callStack = frame :: frames := hframes
    rw [hframes'] at hreturns
    exact Or.inr ⟨hreturns frame List.mem_cons_self,
      fun f hf => hreturns f (List.mem_cons_of_mem _ hf), hcatches⟩
  | caught err handler handlers hraises hflow hhandlers hstack hfault hc =>
    rename_i vm₁
    have hhandlers' : vm.tryHandlers = handler :: handlers := hhandlers
    rw [hhandlers'] at hcatches
    have hcaught : StaysLive live vm₁.control := by
      rw [hc]
      exact Or.inr ⟨hcatches handler List.mem_cons_self, hreturns,
        fun h hh => hcatches h (List.mem_cons_of_mem _ hh)⟩
    rcases hflow with rfl | rfl
    · exact hcaught.settle
    · exact hcaught
  | entered catchPc hc =>
    refine StaysLive.settle ?_
    rw [hc]
    refine Or.inr ⟨hnext _ (by simp [successors, control, tick]), hreturns, ?_⟩
    intro handler hhandler
    rcases List.mem_cons.mp hhandler with rfl | hhandler
    · exact hnext _ (by simp [successors])
    · exact hcatches handler hhandler
  | exited hc =>
    refine StaysLive.settle ?_
    rw [hc]
    exact Or.inr ⟨hnext _ (by simp [successors, control, tick]), hreturns,
      fun h hh => hcatches h (List.mem_of_mem_tail hh)⟩
  | finished value hinst hframes hvalue hfault hc | malformed err hinst hframes hfault hc
  | refused err hinst hattempt hc | uncaught err hraises hhandlers hc =>
    exact Or.inl (congrArg Control.done hc)

theorem StaysLive.step {r : Option Word} (hplaced : Codegen.Placed Nowhere 0 vm.program live)
    (h : StaysLive live vm.control) (hstep : vm.step host = .ok (r, vm')) :
    StaysLive live vm'.control := by
  cases hdone : vm.done with
  | true =>
    rw [VM.step, hdone, if_pos rfl] at hstep
    cases hstep
    exact h
  | false =>
    obtain ⟨hlive, hreturns, hcatches⟩ := h.resolve_left (by
      show ¬ vm.done = true
      simp [hdone])
    cases step_taken hdone hstep with
    | ended hprogram => exact Or.inl rfl
    | exhausted inst hprogram hfuel => exact Or.inl rfl
    | executed inst flow hprogram hfuel hexec =>
      refine (exec_effect hexec).staysLive hreturns hcatches (fun t ht => ?_) ?_
      · have hat : live (0 + vm.instPtr) := by rwa [Nat.zero_add]
        rcases hplaced.flow.closed vm.instPtr inst hprogram hat t (by rwa [Nat.zero_add]) with
          hnext | hnowhere
        · exact hnext
        · exact hnowhere.elim
      · rintro target count rfl
        have hmem := List.mem_of_getElem? hprogram
        rcases hplaced.calls target count hmem with rfl | hnowhere | htarget
        · exact hplaced.flow.start
        · exact hnowhere.elim
        · exact htarget

theorem Steps.staysLive (hplaced : Codegen.Placed Nowhere 0 vm.program live)
    (h : StaysLive live vm.control) (hsteps : Steps host vm vm') : StaysLive live vm'.control := by
  induction hsteps with
  | refl => exact h
  | tail hsteps hstep ih =>
    obtain ⟨r, hstep⟩ := hstep
    refine ih.step ?_ hstep
    rwa [Steps.program hsteps]

/-- The body of an accepted function that returns a value fails, or returns one by an expression
of the declared type; and the `Ret` behind its code is never executed. -/
theorem returns_covered (host : Host) {before after : Program} {name : String}
    {params : List (String × Ty)} {ret : Ty} {body : Stmt} {insts : List Inst} (fuel : Nat)
    (flowName : Option String)
    (h : compileProgram (before ++ .func name params ret body :: after) = some insts)
    (hret : ret.isVoid = false) :
    let program := before ++ .func name params ret body :: after
    let start := { (ofProgram insts).withFuel fuel with flowName := flowName }
    ∃ analyzer scope addr, Analyzer.run program = some analyzer ∧
      Analyzer.bodyScope program before params ret = some scope ∧
      (∀ o ∈ Analyzer.outcomes scope body,
        o = .failed ∨ ∃ ty, o = .returned ty ∧ typeEq ty ret = true) ∧
      Codegen.lastAddress analyzer.ttArena program before (.func name params ret body) = some addr ∧
      insts[addr]? = some .ret ∧
      ∀ vm, Steps host start vm → vm.done = false → vm.instPtr ≠ addr := by
  intro program start
  obtain ⟨analyzer, hrun, -⟩ := Option.bind_eq_some_iff.mp h
  obtain ⟨scope, checked, hscope, hreturnType, hbody, hcovered⟩ := Analyzer.checked_body hrun
  have hreturns := hcovered hret
  obtain ⟨analyzer', addr, live, hrun', haddr, hinst, hplaced, hdead⟩ := compiled_live h hreturns
  rw [hrun] at hrun'
  cases hrun'
  refine ⟨analyzer, scope, addr, hrun, hscope, ?_, haddr, hinst, ?_⟩
  · have htyped := Analyzer.typed_stmt body scope checked hbody hreturnType
    intro o ho
    cases o with
    | normal => exact absurd ho (Analyzer.alwaysReturns_covers.1 body scope hreturns)
    | returned ty => exact Or.inr ⟨ty, rfl, htyped.types ty ho⟩
    | failed => exact Or.inl rfl
  · intro vm hsteps hdone haddr'
    have hstart : StaysLive live start.control :=
      Or.inr ⟨hplaced.flow.start, by rintro frame ⟨⟩, by rintro handler ⟨⟩⟩
    rcases Steps.staysLive hplaced hstart hsteps with hend | ⟨hlive, -⟩
    · have : vm.done = true := hend
      rw [hdone] at this
      cases this
    · have hat : live vm.instPtr := hlive
      rw [haddr'] at hat
      exact hdead hat

/-- `function start() -> str { try { return "from-body"; } catch any { return "from-catch"; } }` -/
def tryReturns : Stmt :=
  .block [.try [.return (some (.string "from-body"))]
    [("any", [.return (some (.string "from-catch"))])]]

def tryReturnsCode : List Inst :=
  [.jump 13, .tryEnter 7, .pushConst (.string "from-body"), .retVal, .pop, .tryExit, .jump 12,
    .pushConst (.string "from-catch"), .retVal, .pop, .jump 12, .rethrow, .ret, .call 1 0]

/-- `function start() -> str { return list_get([5], 0); }` -/
def itemReturned : Program :=
  [.func "start" [] .string
    (.block [.return (some (.call "list_get" [.list [.integer 5], .integer 0]))])]

def itemReturnedCode : List Inst :=
  [.jump 8, .pushConst (.integer 5), .pushList 1, .pushConst (.integer 0), .listGet, .retVal, .pop,
    .ret, .call 1 0]

theorem returns_compiled :
    compileProgram [.func "start" [] .string tryReturns] = some tryReturnsCode ∧
      compileProgram itemReturned = some itemReturnedCode := by
  decide +kernel

theorem returns_covered_try :
    let program : Program := [.func "start" [] .string tryReturns]
    let start := { (ofProgram tryReturnsCode).withFuel 100 with flowName := none }
    compileProgram program = some tryReturnsCode ∧
      ∃ analyzer scope addr, Analyzer.run program = some analyzer ∧
        Analyzer.bodyScope program [] [] .string = some scope ∧
        (∀ o ∈ Analyzer.outcomes scope tryReturns,
          o = .failed ∨ ∃ ty, o = .returned ty ∧ typeEq ty .string = true) ∧
        Codegen.lastAddress analyzer.ttArena program [] (.func "start" [] .string tryReturns) =
          some addr ∧
        tryReturnsCode[addr]? = some .ret ∧
        ∀ vm, Steps quietHost start vm → vm.done = false → vm.instPtr ≠ addr := by
  have hcode :
      compileProgram ([] ++ [Decl.func "start" [] .string tryReturns]) = some tryReturnsCode :=
    returns_compiled.1
  exact ⟨hcode, returns_covered quietHost 100 none hcode rfl⟩

/-- The items of a list have no type that is checked: this is no string. -/
theorem item_of_other_type :
    compileProgram itemReturned = some itemReturnedCode ∧
      ∃ vm, ((ofProgram itemReturnedCode).withFuel 100).run quietHost = .result 5 vm ∧
        vm.text? 5 = none :=
  ⟨returns_compiled.2, _, rfl, rfl⟩

end VM

end Sol

end Relux
