import Relux.Sflow.Executor

/-! What is in scope only for a while: the variable and the number of a loop, and the error that a
catch clause handles. -/

namespace Relux

namespace Sflow

def isCaught (ev : Event) : Bool := ev.kind == "sol.error_caught"

/-- What `error.kind` and `error.message` are once the entries have been written: as before where
no error was caught, and else gone. -/
def Aftermath (before after : HashMap String String) (entries : List Event) : Prop :=
  (entries.any isCaught = false ∧ after = before) ∨
    (entries.any isCaught = true ∧ after.get? "error.kind" = none ∧
      after.get? "error.message" = none)

def Leaves (e e' : Exec) : Prop :=
  ∃ entries, e'.chronicle = e.chronicle ++ entries ∧ Aftermath e.internal e'.internal entries

variable {e e' : Exec}

theorem Leaves.of_same (hchronicle : e'.chronicle = e.chronicle)
    (hinternal : e'.internal = e.internal) : Leaves e e' :=
  ⟨[], by simp [hchronicle], .inl ⟨rfl, hinternal⟩⟩

theorem Leaves.refl (e : Exec) : Leaves e e := .of_same rfl rfl

theorem Leaves.trans {e₁ e₂ e₃ : Exec} (h : Leaves e₁ e₂) (h' : Leaves e₂ e₃) : Leaves e₁ e₃ := by
  obtain ⟨entries, hchronicle, hafter⟩ := h
  obtain ⟨entries', hchronicle', hafter'⟩ := h'
  refine ⟨entries ++ entries', by rw [hchronicle', hchronicle, List.append_assoc], ?_⟩
  unfold Aftermath
  rw [List.any_append]
  rcases hafter' with ⟨hquiet', hsame'⟩ | ⟨hcaught', hgone'⟩
  · rw [hquiet', Bool.or_false, hsame']
    exact hafter
  · rw [hcaught', Bool.or_true]
    exact .inr ⟨rfl, hgone'⟩

theorem leaves_write (e : Exec) {kind : String} (hkind : kind ≠ "sol.error_caught")
    (payload : String) : Leaves e (e.write kind payload) := by
  refine ⟨[⟨kind, payload⟩], rfl, .inl ⟨?_, rfl⟩⟩
  simp [isCaught, hkind]

theorem leaves_record (e : Exec) (name : Option String) (r : StepRecord) :
    Leaves e (e.record name r) := .of_same rfl rfl

theorem leaves_restore (e : Exec) (name : String) (prior : Option SflowValue) :
    Leaves e (e.restore name prior) := by
  cases prior <;> exact .of_same rfl rfl

def Tame (r : Run) : Prop := ∀ e, Leaves e (r e).1

theorem tame_tryRun {α : Type} (x : Except RuntimeError α) {next : α → Run}
    (h : ∀ a, x = .ok a → Leaves e (next a e).1) : Leaves e (tryRun x next e).1 := by
  cases x with
  | error err => exact .refl e
  | ok a => exact h a rfl

variable {line : Nat}

theorem setVar_internal {st st' : ExecState} {name : String} {value : SflowValue}
    (h : st.setVar name value line = .ok st') : st'.internal = st.internal := by
  unfold ExecState.setVar at h
  split at h
  · cases h
  · cases h
    rfl

variable {err : RuntimeError}

section
variable (host : Host)

theorem execStep_tame (name : Option String) (peer wireMethod : String) (arg : Expr) (line : Nat) :
    Tame (execStep host name peer wireMethod arg line) := by
  intro e
  refine tame_tryRun _ (fun interpolated _ => ?_)
  have hstart : ∀ payload, Leaves e (e.write "sol.step_start" payload) := leaves_write e (by decide)
  simp only []
  split
  · exact (hstart _).trans ((leaves_record _ name _).trans (leaves_write _ (by decide) _))
  · exact (hstart _).trans ((leaves_record _ name _).trans (leaves_write _ (by decide) _))

theorem execBranches_tame (line : Nat) {elseBody : Option Run} (helse : ∀ r ∈ elseBody, Tame r)
    {branches : List (Condition × Run)} (hbranches : ∀ b ∈ branches, Tame b.2) (index : Nat) :
    Tame (execBranches host line elseBody index branches) := by
  induction branches generalizing index with
  | nil =>
    intro e
    cases elseBody with
    | none => exact leaves_write e (by decide) _
    | some body => exact (leaves_write e (by decide) _).trans (helse body rfl _)
  | cons branch branches ih =>
    rw [List.forall_mem_cons] at hbranches
    intro e
    refine tame_tryRun _ (fun truth _ => ?_)
    split
    · exact (leaves_write e (by decide) _).trans (hbranches.1 _)
    · exact ih hbranches.2 (index + 1) e

variable {body : Run}

theorem turn_tame (kind : String) (line iter : Nat) (h : Tame body) :
    Tame (turn kind line iter body) := by
  intro e
  have hstart : Leaves e ({ e with loopIter := some iter }.write "sol.loop_iter"
      s!"iter={iter} kind={kind} line={line}") := by
    have hiter : Leaves e { e with loopIter := some iter } := .of_same rfl rfl
    exact hiter.trans (leaves_write _ (by decide) _)
  exact (hstart.trans (h _)).trans (.of_same rfl rfl)

theorem leaves_afterTurn {res : Exec × Except RuntimeError BlockFlow} {next : Run}
    (hres : Leaves e res.1) (hnext : Tame next) : Leaves e (afterTurn res next).1 := by
  unfold afterTurn
  split
  next heq =>
    cases heq
    exact hres.trans (hnext _)
  · exact hres

theorem execLoopTimes_tame (count : Nat) (h : Tame body) (line : Nat) :
    Tame (execLoopTimes host count body line) := by
  have hloop : ∀ left iter, Tame (timesLoop line body left iter) := by
    intro left
    induction left with
    | zero =>
      intro iter e
      exact .refl e
    | succ left ih =>
      intro iter e
      exact leaves_afterTurn (turn_tame "times" line iter h e) (ih (iter + 1))
  intro e
  unfold execLoopTimes
  simp only []
  split
  · exact (leaves_write e (by decide) _).trans (hloop _ _ _)
  · exact hloop _ _ e

theorem execWhile_tame (cond : Condition) (h : Tame body) (line : Nat) (invert : Bool) :
    Tame (execWhile host cond body line invert) := by
  have hloop : ∀ kind left iter, Tame (whileLoop host cond kind invert line body left iter) := by
    intro kind left
    induction left with
    | zero =>
      intro iter e
      exact leaves_write e (by decide) _
    | succ left ih =>
      intro iter e
      refine tame_tryRun _ (fun truth _ => ?_)
      split
      · exact leaves_afterTurn (turn_tame kind line iter h e) (ih (iter + 1))
      · exact .refl e
  exact hloop _ _ _

theorem leaves_bindItem {varName : String} {idx : Nat} {elem : SflowValue} {bound : Exec}
    (h : bindItem varName line idx elem e = .ok bound) : Leaves e bound := by
  unfold bindItem at h
  cases hset : { e with loopIter := some idx }.setVar varName elem line with
  | error err =>
    rw [hset] at h
    cases h
  | ok st =>
    rw [hset] at h
    cases h
    have hinternal := setVar_internal hset
    have hbound : Leaves e { e with toExecState := st } := .of_same rfl hinternal
    exact hbound.trans (leaves_write _ (by decide) _)

theorem forLoop_tame (varName : String) (prior : Option SflowValue) (line : Nat) (h : Tame body)
    (items : List SflowValue) (idx : Nat) : Tame (forLoop varName prior line body idx items) := by
  induction items generalizing idx with
  | nil =>
    intro e
    exact leaves_restore e varName prior
  | cons elem items ih =>
    intro e
    unfold forLoop
    simp only []
    split
    · exact .of_same rfl rfl
    next bound hbound =>
      have hturn : Leaves e { (body bound).1 with loopIter := e.loopIter } :=
        ((leaves_bindItem hbound).trans (h bound)).trans (.of_same rfl rfl)
      split
      · exact hturn
      · exact hturn.trans (leaves_restore _ varName prior)
      · exact hturn.trans (ih (idx + 1) _)

theorem execFor_tame (varName : String) (iter : Expr) (h : Tame body) (line : Nat) :
    Tame (execFor host varName iter body line) := by
  intro e
  refine tame_tryRun _ (fun value _ => ?_)
  have hstart : Leaves e (forStart host varName line (listItemsFrom value) e) := by
    unfold forStart
    simp only []
    split
    · exact (leaves_write e (by decide) _).trans (.of_same rfl rfl)
    · exact .of_same rfl rfl
  exact hstart.trans (forLoop_tame varName _ line h _ 0 _)

theorem handle_leaves (err : RuntimeError) (h : Tame body) (e : Exec) (payload : String) :
    ∃ entries, (handle err body (e.write "sol.error_caught" payload)).1.chronicle =
        e.chronicle ++ entries ∧ entries.any isCaught = true ∧
      (handle err body (e.write "sol.error_caught" payload)).1.internal.get? "error.kind" = none ∧
      (handle err body (e.write "sol.error_caught" payload)).1.internal.get? "error.message" =
        none := by
  let st : ExecState := { e.toExecState with
    currentError := some err
    internal := (e.internal.insert "error.kind" err.kind.asStr).insert "error.message" err.message }
  obtain ⟨entries, hchronicle, -⟩ := h { e.write "sol.error_caught" payload with toExecState := st }
  refine ⟨⟨"sol.error_caught", payload⟩ :: entries, ?_, rfl, ?_, ?_⟩
  · exact hchronicle.trans (List.append_assoc _ _ _)
  · simp [handle, ExecState.clearInternal]
  · simp [handle, ExecState.clearInternal]

theorem mem_of_pickCatch {α : Type} {catches : List (CatchKind × α)} {kind : CatchKind}
    {c : CatchKind × α} (h : pickCatch catches kind = some c) : c ∈ catches := by
  rcases Option.or_eq_some_iff.mp h with hkind | ⟨-, hany⟩
  · exact List.mem_of_find?_eq_some hkind
  · exact List.mem_of_find?_eq_some hany

variable {catches : List (CatchKind × Run)}

theorem execTry_tame (h : Tame body)
    (hcatches : ∀ c ∈ catches, Tame c.2) (line : Nat) : Tame (execTry body catches line) := by
  intro e
  have hbody := h e
  unfold execTry
  split
  next e' flow heq =>
    rw [heq] at hbody
    exact hbody
  next e' err heq =>
    rw [heq] at hbody
    cases hpick : pickCatch catches err.kind with
    | none => exact hbody
    | some c =>
      obtain ⟨entries, hchronicle, hcaught, hgone⟩ := handle_leaves err
        (hcatches c (mem_of_pickCatch hpick)) e'
        s!"kind={err.kind.asStr} catch={c.1.asStr} line={line} cause={err.message}"
      exact hbody.trans ⟨entries, hchronicle, .inr ⟨hcaught, hgone⟩⟩

theorem execReturn_tame (value : Option Expr) (line : Nat) : Tame (execReturn value line) := by
  intro e
  cases value with
  | some v => exact tame_tryRun _ (fun text _ => .of_same rfl rfl)
  | none =>
    unfold execReturn
    simp only []
    split
    · exact .of_same rfl rfl
    · exact .refl e

mutual

theorem execStmt_tame : ∀ stmt : Stmt, Tame (execStmt host stmt)
  | .step name peer wireMethod arg line => execStep_tame host name peer wireMethod arg line
  | .set name value line => fun e => by
    refine tame_tryRun _ (fun st hst => .of_same rfl ?_)
    cases hvalue : e.resolveValue line value with
    | error err =>
      rw [hvalue] at hst
      cases hst
    | ok resolved =>
      rw [hvalue] at hst
      exact setVar_internal hst
  | .if branches elseBody line =>
    execBranches_tame host line (elseRun_tame elseBody) (branchRuns_tame branches) 0
  | .loopTimes count body line => execLoopTimes_tame host count (execBlock_tame body) line
  | .while cond body line => execWhile_tame host cond (execBlock_tame body) line false
  | .until cond body line => execWhile_tame host cond (execBlock_tame body) line true
  | .for varName iter body line => execFor_tame host varName iter (execBlock_tame body) line
  | .try body catches line => execTry_tame (execBlock_tame body) (catchRuns_tame catches) line
  | .rethrow _ => fun e => .refl e
  | .return value line => execReturn_tame value line
  | .solLog message line => fun e => tame_tryRun _ (fun m _ => leaves_write e (by decide) m)
  | .solSleep _ => fun e => .refl e
  | .solAssert cond line => fun e => by
    refine tame_tryRun _ (fun truth _ => ?_)
    split <;> exact .refl e
  | .solSetResult value line => fun e => tame_tryRun _ (fun v _ => .of_same rfl rfl)

theorem execBlock_tame : ∀ stmts : List Stmt, Tame (execBlock host stmts)
  | [] => fun e => .refl e
  | stmt :: stmts => fun e => by
    have hfirst := execStmt_tame stmt e
    unfold execBlock
    split
    next e' heq =>
      rw [heq] at hfirst
      exact hfirst.trans (execBlock_tame stmts e')
    · exact hfirst

theorem branchRuns_tame : ∀ branches : List (Condition × List Stmt),
    ∀ b ∈ branchRuns host branches, Tame b.2
  | [] => by simp [branchRuns]
  | (_, body) :: branches =>
    List.forall_mem_cons.mpr ⟨execBlock_tame body, branchRuns_tame branches⟩

theorem elseRun_tame : ∀ elseBody : Option (List Stmt), ∀ r ∈ elseRun host elseBody, Tame r
  | none => by simp [elseRun]
  | some body => fun r hr => by
    cases hr
    exact execBlock_tame body

theorem catchRuns_tame : ∀ catches : List (CatchKind × List Stmt),
    ∀ c ∈ catchRuns host catches, Tame c.2
  | [] => by simp [catchRuns]
  | (_, body) :: catches =>
    List.forall_mem_cons.mpr ⟨execBlock_tame body, catchRuns_tame catches⟩

end

/-- `error.kind` and `error.message` describe the error. -/
def Exec.Describes (e : Exec) (err : RuntimeError) : Prop :=
  e.lookupPlaceholder "error.kind" = err.kind.asStr ∧
    e.lookupPlaceholder "error.message" = err.message

theorem lookup_error (st : ExecState) :
    st.lookupPlaceholder "error.kind" = (st.internal.get? "error.kind").getD "" ∧
      st.lookupPlaceholder "error.message" = (st.internal.get? "error.message").getD "" :=
  ⟨rfl, rfl⟩

def CatchesNothing (r : Run) (e : Exec) : Prop :=
  ∀ entries, (r e).1.chronicle = e.chronicle ++ entries → entries.any isCaught = false

def EndsUncaught {α : Type} (r : Run) (catches : List (CatchKind × α)) (e : Exec) : Prop :=
  ∀ err, (r e).2 = .error err → pickCatch catches err.kind = none

theorem describes_of_leaves (h : e.Describes err) {entries : List Event}
    (hafter : Aftermath e.internal e'.internal entries) :
    e'.Describes err ↔ entries.any isCaught = false := by
  unfold Exec.Describes at *
  rw [(lookup_error _).1, (lookup_error _).2] at *
  rcases hafter with ⟨hquiet, hsame⟩ | ⟨hcaught, hkind, -⟩
  · rw [hsame]
    exact iff_of_true h hquiet
  · rw [hkind, hcaught]
    refine iff_of_false (fun hdescribes => ?_) (by simp)
    have hempty : err.kind.asStr = "" := hdescribes.1.symm
    cases hk : err.kind <;> rw [hk] at hempty <;> exact absurd hempty (by decide)

/-- After a nested `try` the error that is handled is still in scope, exactly when neither the
`try` nor anything in its body caught an error. -/
theorem execTry_describes_iff (h : Tame body) (line : Nat)
    (hcatches : ∀ c ∈ catches, Tame c.2) (he : e.Describes err) :
    (execTry body catches line e).1.Describes err ↔
      CatchesNothing body e ∧ EndsUncaught body catches e := by
  obtain ⟨entries, hchronicle, hafter⟩ := h e
  have hquiet : CatchesNothing body e ↔ entries.any isCaught = false := by
    constructor
    · intro hnothing
      exact hnothing entries hchronicle
    · intro hentries entries' hchronicle'
      rw [hchronicle] at hchronicle'
      rw [← List.append_cancel_left hchronicle']
      exact hentries
  rw [hquiet]
  unfold execTry EndsUncaught
  cases hrun : body e with
  | mk e' res =>
    rw [hrun] at hchronicle hafter
    cases res with
    | ok flow =>
      simp only [reduceCtorEq, false_implies, implies_true, and_true]
      exact describes_of_leaves he hafter
    | error err₁ =>
      simp only [Except.error.injEq, forall_eq']
      cases hpick : pickCatch catches err₁.kind with
      | none =>
        rw [describes_of_leaves he hafter]
        simp
      | some c =>
        obtain ⟨entries', -, hcaught, hgone⟩ := handle_leaves err₁
          (hcatches c (mem_of_pickCatch hpick)) e'
          s!"kind={err₁.kind.asStr} catch={c.1.asStr} line={line} cause={err₁.message}"
        have hlost := describes_of_leaves he (.inr ⟨hcaught, hgone⟩)
        refine iff_of_false (fun hdescribes => ?_) (by simp)
        rw [hcaught] at hlost
        exact absurd (hlost.mp hdescribes) (by decide)

end

/-- The loop comes to an item as its `idx`-th: all the turns before it ended normally. -/
inductive ComesTo (varName : String) (line : Nat) (body : Run) :
    Nat → List SflowValue → Exec → Nat → SflowValue → Exec → Prop
  | here (idx : Nat) (elem : SflowValue) (items : List SflowValue) (e : Exec) :
    ComesTo varName line body idx (elem :: items) e idx elem e
  | later {idx idx' : Nat} {elem elem' : SflowValue} {items : List SflowValue}
      {e bound e' e'' : Exec} (hbind : bindItem varName line idx elem e = .ok bound)
      (hbody : body bound = (e', .ok .continue))
      (hrest : ComesTo varName line body (idx + 1) items { e' with loopIter := e.loopIter } idx'
        elem' e'') :
    ComesTo varName line body idx (elem :: items) e idx' elem' e''

/-- A turn leaves the scope right even if it fails: if the variable cannot be bound, it was unbound
before the loop, and `loop.iter` was the turn's number; if the body ends in an error, the variable
is bound as it was before the loop. -/
structure TurnFits (varName : String) (prior : Option SflowValue) (line : Nat) (body : Run)
    (idx : Nat) (elem : SflowValue) (e : Exec) : Prop where
  bind : ∀ err, bindItem varName line idx elem e = .error err → prior = none ∧ e.loopIter = some idx
  body : ∀ bound e' err, bindItem varName line idx elem e = .ok bound →
    body bound = (e', .error err) → e'.vars.get? varName = prior

theorem restore_get? (e : Exec) (name : String) (prior : Option SflowValue) :
    (e.restore name prior).vars.get? name = prior := by
  cases prior <;> simp [Exec.restore]

theorem restore_loopIter (e : Exec) (name : String) (prior : Option SflowValue) :
    (e.restore name prior).loopIter = e.loopIter := by
  cases prior <;> rfl

theorem unbound_of_bindItem {varName : String} {idx : Nat} {elem : SflowValue}
    (h : bindItem varName line idx elem e = .error err) : e.vars.get? varName = none := by
  unfold bindItem ExecState.setVar at h
  split at h
  next hfull => exact Option.isNone_iff_eq_none.mp hfull.1
  · cases h

theorem forLoop_restores_iff (varName : String) (prior : Option SflowValue) (line : Nat)
    (body : Run) (items : List SflowValue) (idx : Nat) (e : Exec) :
    ((forLoop varName prior line body idx items e).1.vars.get? varName = prior ∧
        (forLoop varName prior line body idx items e).1.loopIter = e.loopIter) ↔
      ∀ idx' elem e', ComesTo varName line body idx items e idx' elem e' →
        TurnFits varName prior line body idx' elem e' := by
  induction items generalizing idx e with
  | nil =>
    refine iff_of_true ⟨restore_get? e varName prior, restore_loopIter e varName prior⟩ ?_
    intro idx' elem e' hcomes
    cases hcomes
  | cons elem items ih =>
    unfold forLoop
    cases hbind : bindItem varName line idx elem e with
    | error err =>
      have hunbound := unbound_of_bindItem hbind
      constructor
      · rintro ⟨hvar, hiter⟩ idx' elem' e' hcomes
        cases hcomes with
        | here =>
          refine ⟨fun _ _ => ⟨hvar.symm.trans hunbound, hiter.symm⟩, fun bound e' err' hok => ?_⟩
          rw [hbind] at hok
          cases hok
        | later hok =>
          rw [hbind] at hok
          cases hok
      · intro hfits
        obtain ⟨hprior, hiter⟩ := (hfits idx elem e (.here idx elem items e)).bind err hbind
        exact ⟨hunbound.trans hprior.symm, hiter.symm⟩
    | ok bound =>
      have hhere : TurnFits varName prior line body idx elem e ↔
          ∀ e' err, body bound = (e', .error err) → e'.vars.get? varName = prior := by
        constructor
        · intro hfits e' err
          exact hfits.body bound e' err hbind
        · intro hbody
          refine ⟨fun err herr => ?_, fun bound' e' err hok => ?_⟩
          · rw [hbind] at herr
            cases herr
          · rw [hbind] at hok
            cases hok
            exact hbody e' err
      cases hrun : body bound with
      | mk e' res =>
        cases res with
        | error err =>
          simp only [hrun, and_true]
          constructor
          · intro hvar idx' elem' e'' hcomes
            cases hcomes with
            | here =>
              rw [hhere, hrun]
              intro e₂ err₂ heq
              cases heq
              exact hvar
            | later hok hbody =>
              rw [hbind] at hok
              cases hok
              rw [hrun] at hbody
              cases hbody
          · intro hfits
            exact hhere.mp (hfits idx elem e (.here idx elem items e)) e' err hrun
        | ok flow =>
          have hfirst : TurnFits varName prior line body idx elem e := by
            rw [hhere, hrun]
            intro e₂ err₂ heq
            cases heq
          cases flow with
          | «return» =>
            simp only [hrun]
            refine iff_of_true ⟨restore_get? _ varName prior, restore_loopIter _ varName prior⟩ ?_
            intro idx' elem' e'' hcomes
            cases hcomes with
            | here => exact hfirst
            | later hok hbody =>
              rw [hbind] at hok
              cases hok
              rw [hrun] at hbody
              cases hbody
          | «continue» =>
            simp only [hrun]
            have hrest := ih (idx + 1) { e' with loopIter := e.loopIter }
            rw [hrest]
            constructor
            · intro hfits idx' elem' e'' hcomes
              cases hcomes with
              | here => exact hfirst
              | later hok hbody hlater =>
                rw [hbind] at hok
                cases hok
                rw [hrun] at hbody
                cases hbody
                exact hfits _ _ _ hlater
            · intro hfits idx' elem' e'' hcomes
              exact hfits _ _ _ (.later hbind hrun hcomes)

/-- The variable of the loop and `loop.iter` are after the statement what they were before it. -/
def Restored (varName : String) (e e' : Exec) : Prop :=
  e'.vars.get? varName = e.vars.get? varName ∧ e'.loopIter = e.loopIter

theorem execFor_restores_iff (host : Host) (varName : String) (iter : Expr) (body : Run)
    (line : Nat) (e : Exec) : Restored varName e (execFor host varName iter body line e).1 ↔
      ∀ value, e.resolveValue line iter = .ok value → ∀ idx elem e',
        ComesTo varName line body 0 ((listItemsFrom value).take host.maxLoopIters)
          (forStart host varName line (listItemsFrom value) e) idx elem e' →
        TurnFits varName (e.vars.get? varName) line body idx elem e' := by
  unfold execFor tryRun Restored
  cases hvalue : e.resolveValue line iter with
  | error err =>
    refine iff_of_true ⟨rfl, rfl⟩ ?_
    intro value hok
    cases hok
  | ok value =>
    have hiter : (forStart host varName line (listItemsFrom value) e).loopIter = e.loopIter := by
      unfold forStart
      simp only []
      split <;> rfl
    have hloop := forLoop_restores_iff varName (e.vars.get? varName) line body
      ((listItemsFrom value).take host.maxLoopIters) 0
      (forStart host varName line (listItemsFrom value) e)
    rw [hiter] at hloop
    simp only [hloop, Except.ok.injEq, forall_eq']

/-- What is in scope for a while is put back: by a loop exactly when every turn that it comes to
leaves the scope right even if it fails, and by a `try` inside of a clause exactly when neither it
nor anything in its body catches an error. -/
theorem scopes_restored_iff (host : Host) (e : Exec) :
    (∀ (varName : String) (iter : Expr) (body : List Stmt) (line : Nat),
      Restored varName e (execStmt host (.for varName iter body line) e).1 ↔
        ∀ value, e.resolveValue line iter = .ok value → ∀ idx elem e',
          ComesTo varName line (execBlock host body) 0
            ((listItemsFrom value).take host.maxLoopIters)
            (forStart host varName line (listItemsFrom value) e) idx elem e' →
          TurnFits varName (e.vars.get? varName) line (execBlock host body) idx elem e') ∧
      ∀ (err : RuntimeError) (body : List Stmt) (catches : List (CatchKind × List Stmt))
        (line : Nat), e.Describes err →
        ((execStmt host (.try body catches line) e).1.Describes err ↔
          CatchesNothing (execBlock host body) e ∧
            EndsUncaught (execBlock host body) (catchRuns host catches) e) :=
  ⟨fun varName iter _ line => execFor_restores_iff host varName iter _ line e,
    fun _ body catches line he => execTry_describes_iff (execBlock_tame host body) line
      (catchRuns_tame host catches) he⟩

def lonelyHost : Host where
  remoteCall := fun _ peer method _ =>
    .error ⟨Sol.error_kinds.PEER_UNREACHABLE, peer, method, "no peer"⟩
  utf8Error := fun _ => "invalid utf-8"
  regex := fun _ => .error "no engine"
  maxLoopIters := 1000

def handling (err : RuntimeError) : Exec :=
  { Exec.new with
    currentError := some err
    internal :=
      (HashMap.empty.insert "error.kind" err.kind.asStr).insert "error.message" err.message }

theorem handling_describes (err : RuntimeError) : (handling err).Describes err := by
  unfold Exec.Describes
  rw [(lookup_error _).1, (lookup_error _).2]
  simp [handling]

def failedAssert : RuntimeError := .ofLocal 1 "sol.assert: condition was false"

theorem scopes_restored_iff_quiet :
    (execStmt lonelyHost (.try [.solSetResult (.literal "a") 2] [(.any, [])] 2)
      (handling failedAssert)).1.Describes failedAssert := by
  refine ((scopes_restored_iff lonelyHost (handling failedAssert)).2 failedAssert _ _ 2
    (handling_describes failedAssert)).mpr ⟨?_, ?_⟩
  · intro entries hchronicle
    have hnone : entries = [] := by
      simpa [execBlock, execStmt, tryRun, handling, Exec.new, ExecState.resolve,
        ExecState.resolveValue, Except.map] using hchronicle
    rw [hnone]
    rfl
  · intro err herr
    simp [execBlock, execStmt, tryRun, handling, Exec.new, ExecState.resolve,
      ExecState.resolveValue, Except.map] at herr

/-- A turn that fails leaves its item bound, and an error caught inside of a clause takes the
description of the error that the clause handles with it. -/
theorem failure_leaks :
    ¬ Restored "x" Exec.new
        (execStmt lonelyHost (.for "x" (.literal "a") [.solAssert .false 2] 1) Exec.new).1 ∧
      ¬ (execStmt lonelyHost (.try [.solAssert .false 2] [(.any, [])] 2)
        (handling failedAssert)).1.Describes failedAssert := by
  constructor
  · rintro ⟨hvar, -⟩
    have hbound : ((execStmt lonelyHost (.for "x" (.literal "a") [.solAssert .false 2] 1)
        Exec.new).1.vars.get? "x").isSome = true := by decide
    rw [hvar] at hbound
    cases hbound
  · rintro ⟨hkind, -⟩
    exact absurd hkind (by decide)

end Sflow

end Relux
