import Relux.Sol.Codegen
import Relux.Sol.Effect

/-! What the host reads after a run: the result, and the error that is recorded. -/

namespace Relux

namespace Sol

namespace VM

variable {host : Host} {vm : VM} {inst : Inst}

def attempt (host : Host) (vm : VM) : Option Attempt :=
  (vm.program[vm.instPtr]?).bind (vm.tick.attemptAt host)

inductive Trace (host : Host) (start : VM) : List Attempt → VM → Prop
  | start : Trace host start [] start
  | step {attempts : List Attempt} {vm vm' : VM} (h : Trace host start attempts vm)
      (hstep : vm.step host = .ok (none, vm')) :
      Trace host start (attempts ++ (vm.attempt host).toList) vm'

def Recorded (vm vm' : VM) : Option Attempt → Prop
  | none => vm'.lastError = vm.lastError
  | some .answered => vm'.lastError = none
  | some .failed => vm'.lastError ≠ none

theorem eq_of_isReturn (h : inst.isReturn = true) : inst = .ret ∨ inst = .retVal := by
  cases inst with
  | ret => exact Or.inl rfl
  | retVal => exact Or.inr rfl
  | _ => cases h

theorem Effect.recorded {flow : Flow} (h : Effect host vm inst flow)
    (hnone : flow.settle.1 = none) : Recorded vm flow.settle.2 (vm.attemptAt host inst) := by
  have hnext : ∀ {r : Option Attempt} {vm' : VM}, vm.attemptAt host inst = r →
      Recorded vm vm' r → vm'.settle.1 = none →
      Recorded vm vm'.settle.2 (vm.attemptAt host inst) := by
    intro r vm' hattempt hrecorded hnone
    rw [(settle_of_none hnone).2, hattempt]
    exact hrecorded
  cases h with
  | plain hinst hattempt hc => exact hnext hattempt (congrArg Control.lastError hc) hnone
  | jumped target hinst hc =>
    have hattempt : vm.attemptAt host inst = none := by
      rcases hinst with rfl | rfl <;> rfl
    exact hnext hattempt (congrArg Control.lastError hc) hnone
  | called target argCount hcount hc => exact hnext rfl (congrArg Control.lastError hc) hnone
  | returned frame frames hinst hframes hc =>
    have hattempt : vm.attemptAt host inst = none := by
      rcases eq_of_isReturn hinst with rfl | rfl <;> rfl
    exact hnext hattempt (congrArg Control.lastError hc) hnone
  | answered hinst hattempt hc => exact hnext hattempt (congrArg Control.lastError hc) hnone
  | entered catchPc hc | exited hc => exact hnext rfl (congrArg Control.lastError hc) hnone
  | @caught _ _ vm' err handler handlers hraises hflow hhandlers hstack hfault hc =>
    have herror : vm'.lastError = err := congrArg Control.lastError hc
    have hrecorded : Recorded vm vm' (vm.attemptAt host inst) := by
      cases hraises with
      | failed err hinst hattempt =>
        rw [hattempt]
        exact herror.trans_ne (Option.some_ne_none err)
      | again => exact herror
    rcases hflow with hflow | hflow
    · rw [hflow] at hnone ⊢
      exact hnext rfl hrecorded hnone
    · rw [hflow]
      exact hrecorded
  | finished value hinst hframes hvalue hfault hc | malformed err hinst hframes hfault hc
  | refused err hinst hattempt hc | uncaught err hraises hhandlers hc =>
    cases hnone

variable {attempts : List Attempt}

theorem Trace.lastError {start : VM} (hdone : start.done = false) (herror : start.lastError = none)
    (h : Trace host start attempts vm) :
    vm.done = false ∧ (vm.lastError ≠ none ↔ attempts.getLast? = some .failed) := by
  induction h with
  | start => simp [hdone, herror]
  | @step attempts vm vm' h hstep ih =>
    obtain ⟨hdone, hlast⟩ := ih
    have htaken := step_taken hdone hstep
    refine ⟨(htaken.clock.2 rfl).2.2.trans hdone, ?_⟩
    have hrecorded : Recorded vm vm' (vm.attempt host) := by
      generalize hr : (none : Option Word) = r at htaken
      cases htaken with
      | ended hprogram => cases hr
      | exhausted inst hprogram hfuel => cases hr
      | executed inst flow hprogram hfuel hexec =>
        have hattempt := (exec_effect hexec).recorded hr.symm
        rw [attempt, hprogram]
        exact hattempt
    cases hattempt : vm.attempt host with
    | none =>
      rw [hattempt] at hrecorded
      rw [show vm'.lastError = vm.lastError from hrecorded, hlast]
      simp
    | some outcome =>
      rw [hattempt] at hrecorded
      cases outcome with
      | answered => simpa using show vm'.lastError = none from hrecorded
      | failed => simpa using show vm'.lastError ≠ none from hrecorded

def Returns (vm : VM) : Prop :=
  vm.program[vm.instPtr]? = none ∨
    vm.fuel ≠ 0 ∧ vm.callStack = [] ∧ vm.stack ≠ [] ∧ vm.fault = none ∧
      ∃ inst, vm.program[vm.instPtr]? = some inst ∧ inst.isReturn = true

/-- The next step is a `rethrow` that no handler takes. -/
def Rethrows (vm : VM) : Prop :=
  vm.fuel ≠ 0 ∧ vm.tryHandlers = [] ∧ vm.program[vm.instPtr]? = some .rethrow

def top (vm : VM) : Word := vm.stack.getLast?.getD 0

theorem Returns.not_rethrows (h : vm.Returns) : ¬ vm.Rethrows := by
  rintro ⟨_, _, hprogram⟩
  rcases h with h | ⟨_, _, _, _, inst, hinst, hreturn⟩
  · rw [hprogram] at h
    cases h
  · rw [hprogram] at hinst
    cases hinst
    cases hreturn

/-- The last step returns the top of the stack, or it fails, and then it records an error
unless it is a `rethrow`. -/
inductive Ending (vm : VM) : Word → VM → Prop
  | returned {vm' : VM} (h : vm.Returns) (hsame : vm'.lastError = vm.lastError) :
      Ending vm vm.top vm'
  | failed {vm' : VM} (h : ¬ vm.Returns) (hrethrows : ¬ vm.Rethrows)
      (herror : vm'.lastError ≠ none) : Ending vm VM_ERROR_SENTINEL vm'
  | rethrown {vm' : VM} (h : vm.Rethrows) (hsame : vm'.lastError = vm.lastError) :
      Ending vm VM_ERROR_SENTINEL vm'

variable {value : Word}

theorem settle_some {vm : VM} (h : vm.settle.1 = some value) :
    value = VM_ERROR_SENTINEL ∧ vm.fault ≠ none ∧ vm.settle.2.lastError ≠ none := by
  unfold settle at h ⊢
  cases hfault : vm.fault with
  | none => simp [hfault] at h
  | some cause =>
    simp only [hfault, Option.some.injEq] at h
    simp [h, raiseMalformed]

theorem Raises.not_isReturn {err : Option RemoteCallError} (h : Raises host vm inst err) :
    ¬ inst.isReturn = true := by
  intro hreturn
  cases h with
  | failed err hinst hattempt =>
    rcases eq_of_isReturn hreturn with rfl | rfl <;> rcases hinst with hinst | hinst <;> cases hinst
  | again => cases hreturn

theorem Effect.ending {flow : Flow} (hprogram : vm.program[vm.instPtr]? = some inst)
    (hfuel : vm.fuel ≠ 0) (h : Effect host vm.tick inst flow)
    (hvalue : flow.settle.1 = some value) : Ending vm value flow.settle.2 := by
  have hreturns : vm.Returns → inst.isReturn = true ∧ vm.callStack = [] ∧ vm.stack ≠ [] ∧
      vm.fault = none := by
    rintro (h | ⟨_, hframes, hstack, hfault, inst', hinst, hreturn⟩)
    · rw [hprogram] at h
      cases h
    · rw [hprogram] at hinst
      cases hinst
      exact ⟨hreturn, hframes, hstack, hfault⟩
  have hrethrows : vm.Rethrows → inst = .rethrow ∧ vm.tryHandlers = [] := by
    rintro ⟨_, hhandlers, hinst⟩
    rw [hprogram] at hinst
    exact ⟨Option.some.inj hinst, hhandlers⟩
  have hfaulted : ∀ vm' : VM, ¬ vm.Returns → ¬ vm.Rethrows → vm'.settle.1 = some value →
      Ending vm value vm'.settle.2 := by
    intro vm' hnot hnot' hsome
    obtain ⟨rfl, _, herror⟩ := settle_some hsome
    exact .failed hnot hnot' herror
  cases h with
  | plain hinst hattempt hc =>
    refine hfaulted _ (fun h => ?_) (fun h => ?_) hvalue
    · rcases eq_of_isReturn (hreturns h).1 with rfl | rfl <;> cases hinst
    · rw [(hrethrows h).1] at hinst
      cases hinst
  | jumped target hinst hc =>
    refine hfaulted _ (fun h => ?_) (fun h => ?_) hvalue
    · have hreturn := (hreturns h).1
      rcases hinst with hinst | hinst <;> simp [hinst, Inst.isReturn] at hreturn
    · have hrethrow := (hrethrows h).1
      rcases hinst with hinst | hinst <;> simp [hinst] at hrethrow
  | called target argCount hcount hc =>
    refine hfaulted _ (fun h => ?_) (fun h => ?_) hvalue
    · cases (hreturns h).1
    · cases (hrethrows h).1
  | returned frame frames hinst hframes hc =>
    have hframes' : vm.callStack = frame :: frames := hframes
    refine hfaulted _ (fun h => ?_) (fun h => ?_) hvalue
    · simp [(hreturns h).2.1] at hframes'
    · rw [(hrethrows h).1] at hinst
      cases hinst
  | answered hinst hattempt hc =>
    refine hfaulted _ (fun h => ?_) (fun h => ?_) hvalue
    · rcases eq_of_isReturn (hreturns h).1 with rfl | rfl <;> cases hinst
    · rw [(hrethrows h).1] at hinst
      cases hinst
  | entered catchPc hc =>
    refine hfaulted _ (fun h => ?_) (fun h => ?_) hvalue
    · cases (hreturns h).1
    · cases (hrethrows h).1
  | exited hc =>
    refine hfaulted _ (fun h => ?_) (fun h => ?_) hvalue
    · cases (hreturns h).1
    · cases (hrethrows h).1
  | finished v hinst hframes hv hfault hc =>
    have hsame : v = value := Option.some.inj hvalue
    subst hsame
    have hstack : vm.stack ≠ [] := by
      intro hnil
      simp [tick, hnil] at hv
    have htop : vm.top = v := by
      rw [top, show vm.stack.getLast? = some v from hv, Option.getD_some]
    rw [← htop]
    exact .returned (Or.inr ⟨hfuel, hframes, hstack, hfault, inst, hprogram, hinst⟩)
      (congrArg Control.lastError hc)
  | malformed err hinst hframes hfault hc =>
    cases hvalue
    refine .failed (fun h => ?_) (fun h => ?_) ?_
    · obtain ⟨_, _, hstack, hnone⟩ := hreturns h
      rcases hfault with hfault | hfault
      · exact hstack hfault
      · exact hfault hnone
    · rw [(hrethrows h).1] at hinst
      cases hinst
    · exact (congrArg Control.lastError hc).trans_ne (Option.some_ne_none err)
  | refused err hinst hattempt hc =>
    cases hvalue
    refine .failed (fun h => ?_) (fun h => ?_) ?_
    · rcases eq_of_isReturn (hreturns h).1 with rfl | rfl <;> cases hinst
    · rw [(hrethrows h).1] at hinst
      cases hinst
    · exact (congrArg Control.lastError hc).trans_ne (Option.some_ne_none err)
  | uncaught err hraises hhandlers hc =>
    cases hvalue
    cases hraises with
    | failed err hinst hattempt =>
      refine .failed (fun h => ?_) (fun h => ?_) ?_
      · exact (Raises.failed err hinst hattempt).not_isReturn (hreturns h).1
      · rw [(hrethrows h).1] at hinst
        rcases hinst with hinst | hinst <;> cases hinst
      · exact (congrArg Control.lastError hc).trans_ne (Option.some_ne_none err)
    | again => exact .rethrown ⟨hfuel, hhandlers, hprogram⟩ (congrArg Control.lastError hc)
  | caught err handler handlers hraises hflow hhandlers hstack hfault hc =>
    have hhandlers' : vm.tryHandlers = handler :: handlers := hhandlers
    rcases hflow with hflow | hflow
    · rw [hflow] at hvalue ⊢
      refine hfaulted _ (fun h => ?_) (fun h => ?_) hvalue
      · exact hraises.not_isReturn (hreturns h).1
      · simp [(hrethrows h).2] at hhandlers'
    · rw [hflow] at hvalue
      cases hvalue

theorem StepTaken.ending {vm' : VM} (h : StepTaken host vm (some value) vm') :
    Ending vm value vm' := by
  generalize hr : some value = r at h
  cases h with
  | ended hprogram =>
    cases hr
    exact .returned (Or.inl hprogram) rfl
  | exhausted inst hprogram hfuel =>
    cases hr
    refine .failed ?_ (fun h => h.1 hfuel) (Option.some_ne_none _)
    rintro (h | ⟨hnot, _⟩)
    · rw [hprogram] at h
      cases h
    · exact hnot hfuel
  | executed inst flow hprogram hfuel hexec =>
    exact (exec_effect hexec).ending hprogram hfuel hr.symm

theorem runFor_trace {start : VM} {n : Nat} {vm' : VM}
    (htrace : Trace host start attempts vm) (h : vm.runFor host n = .result value vm') :
    ∃ attempts last, Trace host start attempts last ∧ last.step host = .ok (some value, vm') := by
  induction n generalizing vm attempts with
  | zero => cases h
  | succ n ih =>
    rw [runFor] at h
    cases hstep : vm.step host with
    | error panic =>
      rw [hstep] at h
      cases h
    | ok taken =>
      obtain ⟨r, vm₁⟩ := taken
      rw [hstep] at h
      cases r with
      | none => exact ih (htrace.step hstep) h
      | some v =>
        cases h
        exact ⟨attempts, vm, htrace, hstep⟩

/-- The sentinel and a recorded error tell a run that failed from one that returned exactly
when the value returned is another, no error was left behind by an attempt that failed and was
caught, and a `rethrow` that ends the run follows such an attempt. -/
theorem sentinel_iff (host : Host) (program : List Inst) (fuel : Nat) (flowName : Option String)
    (value : Word) (vm' : VM) :
    let start := { (ofProgram program).withFuel fuel with flowName := flowName }
    start.run host = .result value vm' →
      ∃ attempts last, Trace host start attempts last ∧ last.step host = .ok (some value, vm') ∧
        ((value = VM_ERROR_SENTINEL ↔ ¬ last.Returns) ∧
            (vm'.lastError.isSome = true ↔ ¬ last.Returns) ↔
          (last.Returns → last.top ≠ VM_ERROR_SENTINEL ∧ attempts.getLast? ≠ some .failed) ∧
            (last.Rethrows → attempts.getLast? = some .failed)) := by
  intro start hrun
  obtain ⟨attempts, last, htrace, hstep⟩ := runFor_trace Trace.start hrun
  obtain ⟨hdone, hlast⟩ := htrace.lastError rfl rfl
  refine ⟨attempts, last, htrace, hstep, ?_⟩
  cases (step_taken hdone hstep).ending with
  | returned hreturns hsame =>
    have hsome : vm'.lastError.isSome = true ↔ attempts.getLast? = some .failed := by
      rw [hsame, Option.isSome_iff_ne_none, hlast]
    have hnot := hreturns.not_rethrows
    simp [hreturns, hnot, hsome]
  | failed hreturns hrethrows herror =>
    have hsome : vm'.lastError.isSome = true := Option.isSome_iff_ne_none.mpr herror
    simp [hreturns, hrethrows, hsome]
  | rethrown hrethrows hsame =>
    have hsome : vm'.lastError.isSome = true ↔ attempts.getLast? = some .failed := by
      rw [hsame, Option.isSome_iff_ne_none, hlast]
    have hnot : ¬ last.Returns := fun h => h.not_rethrows hrethrows
    simp [hrethrows, hnot, hsome]

theorem seven_told_apart :
    let start := (ofProgram [.pushConst (.integer 7)]).withFuel 10
    ∃ vm', start.run quietHost = .result 7 vm' ∧
      ∃ attempts last, Trace quietHost start attempts last ∧
        last.step quietHost = .ok (some 7, vm') ∧
        ((7 = VM_ERROR_SENTINEL ↔ ¬ last.Returns) ∧
            (vm'.lastError.isSome = true ↔ ¬ last.Returns) ↔
          (last.Returns → last.top ≠ VM_ERROR_SENTINEL ∧ attempts.getLast? ≠ some .failed) ∧
            (last.Rethrows → attempts.getLast? = some .failed)) :=
  ⟨_, rfl, sentinel_iff quietHost [.pushConst (.integer 7)] 10 none 7 _ rfl⟩

/-- `function start() -> int { return -1; }` -/
def returnMinusOne : Program :=
  [.func "start" [] .integer (.block [.return (some (.unary .dash (.integer 1)))])]

theorem minus_one_is_sentinel :
    ∃ program vm', compileProgram returnMinusOne = some program ∧
      ((ofProgram program).withFuel 100).run quietHost = .result VM_ERROR_SENTINEL vm' ∧
      vm'.lastError = none :=
  ⟨_, _, rfl, rfl, rfl⟩

end VM

end Sol

end Relux
