import Relux.Sol.Control

/-! What an instruction can do: the cases that every invariant of a run goes through. -/

namespace Relux

namespace Sol

def Inst.isReturn : Inst → Bool
  | .ret | .retVal => true
  | _ => false

def Inst.isRemote : Inst → Bool
  | .remoteCall | .remoteCallStream => true
  | _ => false

def Inst.isAccess : Inst → Bool
  | .listGetList | .mapGetMap => true
  | _ => false

def Inst.operandCount : Inst → Nat
  | .remoteCall | .remoteCallStream => 3
  | .listGetList | .mapGetMap => 2
  | _ => 0

def Inst.isPlain : Inst → Bool
  | .jump _ | .ret | .retVal | .remoteCall | .remoteCallStream | .tryEnter _ | .tryExit
  | .rethrow => false
  | _ => true

inductive Attempt where
  | answered
  | failed
  deriving DecidableEq

namespace VM

def remoteAttempt (host : Host) (vm : VM)
    (dispatch : Dispatcher → String → String → String → Except RemoteCallError ByteArray) :
    Option Attempt :=
  let popped := vm.pop.2.pop.2.pop.2
  match host.dispatcher, popped.text? vm.pop.2.pop.2.pop.1, popped.text? vm.pop.2.pop.1,
    popped.text? vm.pop.1 with
  | some dispatcher, some peer, some method, some arg =>
    match dispatch dispatcher peer method arg with
    | .ok _ => some .answered
    | .error _ => some .failed
  | _, _, _, _ => none

def attemptAt (host : Host) (vm : VM) : Inst → Option Attempt
  | .remoteCall => vm.remoteAttempt host (fun d => d.remoteCall vm.stepsTaken)
  | .remoteCallStream => vm.remoteAttempt host (fun d => d.remoteCallStream vm.stepsTaken)
  | .listGetList =>
    let vm' := vm.pop.2.pop.2
    match ((vm'.listItems? vm.pop.2.pop.1).bind (itemAt · vm.pop.1)).bind vm'.listItems? with
    | some _ => none
    | none => some .failed
  | .mapGetMap =>
    let vm' := vm.pop.2.pop.2
    match ((vm'.pairs? vm.pop.2.pop.1).bind (valueOf · (vm'.textOrEmpty vm.pop.1))).bind
      vm'.pairs? with
    | some _ => none
    | none => some .failed
  | _ => none

/-- The error an instruction raises: a new one, or for `rethrow` the one that is recorded. -/
inductive Raises (host : Host) (vm : VM) : Inst → Option RemoteCallError → Prop
  | failed {inst : Inst} (err : RemoteCallError) (hinst : inst.isRemote ∨ inst.isAccess)
      (hattempt : vm.attemptAt host inst = some .failed) : Raises host vm inst (some err)
  | again : Raises host vm .rethrow vm.lastError

inductive Effect (host : Host) (vm : VM) : Inst → Flow → Prop
  | plain {inst : Inst} {vm' : VM} (hinst : inst.isPlain = true)
      (hattempt : vm.attemptAt host inst = none)
      (hcontrol : vm'.control = vm.control) : Effect host vm inst (.next vm')
  | jumped {inst : Inst} {vm' : VM} (target : Nat)
      (hinst : inst = .jump target ∨ inst = .jumpFalse target)
      (hcontrol : vm'.control = { vm.control with instPtr := target }) :
      Effect host vm inst (.next vm')
  | called {vm' : VM} (target argCount : Nat) (hcount : argCount ≤ vm.stack.length)
      (hcontrol : vm'.control = { vm.control with
        callStack := ⟨vm.instPtr, vm.fp⟩ :: vm.callStack
        fp := vm.stack.length - argCount
        instPtr := target }) :
      Effect host vm (.call target argCount) (.next vm')
  | returned {inst : Inst} {vm' : VM} (frame : Frame) (frames : List Frame)
      (hinst : inst.isReturn) (hframes : vm.callStack = frame :: frames)
      (hcontrol : vm'.control = { vm.control with
        callStack := frames
        fp := frame.oldFp
        instPtr := frame.returnPtr }) :
      Effect host vm inst (.next vm')
  | finished {inst : Inst} {vm' : VM} (value : Word) (hinst : inst.isReturn)
      (hframes : vm.callStack = []) (hvalue : vm.stack.getLast? = some value)
      (hfault : vm.fault = none) (hcontrol : vm'.control = { vm.control with done := true }) :
      Effect host vm inst (.leave (some value) vm')
  | malformed {inst : Inst} {vm' : VM} (err : RemoteCallError) (hinst : inst.isReturn)
      (hframes : vm.callStack = []) (hfault : vm.stack = [] ∨ vm.fault ≠ none)
      (hcontrol : vm'.control = { vm.control with done := true, lastError := some err }) :
      Effect host vm inst (.leave (some VM_ERROR_SENTINEL) vm')
  | answered {inst : Inst} {vm' : VM} (hinst : inst.isRemote)
      (hattempt : vm.attemptAt host inst = some .answered)
      (hcontrol : vm'.control = { vm.control with lastError := none }) :
      Effect host vm inst (.next vm')
  | refused {inst : Inst} {vm' : VM} (err : RemoteCallError) (hinst : inst.isRemote)
      (hattempt : vm.attemptAt host inst = none)
      (hcontrol : vm'.control = { vm.control with done := true, lastError := some err }) :
      Effect host vm inst (.leave (some VM_ERROR_SENTINEL) vm')
  | uncaught {inst : Inst} {vm' : VM} (err : Option RemoteCallError) (hraises : Raises host vm inst err)
      (hhandlers : vm.tryHandlers = [])
      (hcontrol : vm'.control = { vm.control with done := true, lastError := err }) :
      Effect host vm inst (.leave (some VM_ERROR_SENTINEL) vm')
  | caught {inst : Inst} {flow : Flow} {vm' : VM} (err : Option RemoteCallError)
      (handler : TryHandler) (handlers : List TryHandler) (hraises : Raises host vm inst err)
      (hflow : flow = .next vm' ∨ flow = .leave none vm')
      (hhandlers : vm.tryHandlers = handler :: handlers)
      (hstack : vm'.stack = (vm.popMany inst.operandCount).2.stack.take handler.stackLenAtEnter)
      (hfault : vm'.fault = (vm.popMany inst.operandCount).2.fault)
      (hcontrol : vm'.control = { vm.control with
        tryHandlers := handlers
        fp := handler.fpAtEnter
        instPtr := handler.catchPc
        lastError := err }) :
      Effect host vm inst flow
  | entered {vm' : VM} (catchPc : Nat)
      (hcontrol : vm'.control = { vm.control with
        tryHandlers := ⟨catchPc, vm.fp, vm.stack.length⟩ :: vm.tryHandlers }) :
      Effect host vm (.tryEnter catchPc) (.next vm')
  | exited {vm' : VM} (hcontrol : vm'.control = { vm.control with
        tryHandlers := vm.tryHandlers.tail }) :
      Effect host vm .tryExit (.next vm')

variable {host : Host} {vm : VM} {inst : Inst}

theorem pop_of_getLast? {v : Word} (h : vm.stack.getLast? = some v) :
    vm.pop = (v, { vm with stack := vm.stack.dropLast }) := by
  simp [pop, h]

theorem pop_of_nil (h : vm.stack = []) : vm.pop = (0, vm.recordFault "stack underflow") := by
  simp [pop, h]

variable {flow : Flow}

theorem arith_effect {overflow : Word → Word → Bool} {f : Word → Word → Word}
    (hinst : inst.isPlain = true) (hattempt : vm.attemptAt host inst = none)
    (h : vm.arith host overflow f = .ok flow) : Effect host vm inst flow := by
  unfold arith at h
  by_cases hover : (host.overflowChecks && overflow vm.operands.1 vm.operands.2) = true
  · rw [if_pos hover] at h
    cases h
  · rw [if_neg hover] at h
    cases h
    exact .plain hinst hattempt (by simp)

theorem call_effect (target argCount : Nat) :
    Effect host vm (.call target argCount) (.next (vm.call target argCount)) := by
  unfold call
  by_cases hcount : argCount ≤ vm.stack.length
  · rw [if_pos hcount]
    exact .called target argCount hcount rfl
  · rw [if_neg hcount]
    exact .plain rfl rfl (by simp)

theorem jumpFalse_effect (target : Nat) :
    Effect host vm (.jumpFalse target) (.next (vm.jumpFalse target)) := by
  have hpop : vm.pop.2.control = vm.control := vm.pop_control
  unfold jumpFalse
  by_cases hcond : vm.pop.1 = 0
  · rw [if_pos hcond]
    refine .jumped target (Or.inr rfl) ?_
    rw [← hpop]
    rfl
  · rw [if_neg hcond]
    exact .plain rfl rfl hpop

theorem finish_effect (hinst : inst.isReturn) (hframes : vm.callStack = []) :
    Effect host vm inst (vm.pop.2.finish vm.pop.1) := by
  cases hlast : vm.stack.getLast? with
  | none =>
    have hnil : vm.stack = [] := List.getLast?_eq_none_iff.mp hlast
    rw [pop_of_nil hnil]
    exact .malformed _ hinst hframes (Or.inl hnil) rfl
  | some v =>
    rw [pop_of_getLast? hlast]
    cases hfault : vm.fault with
    | none => exact .finished v hinst hframes hlast hfault rfl
    | some cause => exact .malformed _ hinst hframes (Or.inr (by simp [hfault])) rfl

theorem ret_effect : Effect host vm .ret vm.ret := by
  unfold ret
  cases hframes : vm.callStack with
  | nil => exact finish_effect rfl hframes
  | cons frame frames => exact .returned frame frames rfl hframes rfl

theorem retVal_effect : Effect host vm .retVal vm.retVal := by
  have hpop : vm.pop.2.control = vm.control := vm.pop_control
  have hstack : vm.pop.2.callStack = vm.callStack := congrArg Control.callStack hpop
  unfold retVal
  dsimp only
  rw [hstack]
  cases hframes : vm.callStack with
  | nil => exact finish_effect rfl hframes
  | cons frame frames =>
    refine .returned frame frames rfl hframes ?_
    rw [← hpop]
    rfl

theorem tryDispatchError_nil (h : vm.tryHandlers = []) :
    vm.tryDispatchError = (some VM_ERROR_SENTINEL, { vm with done := true }) := by
  simp [tryDispatchError, h]

theorem tryDispatchError_cons {handler : TryHandler} {handlers : List TryHandler}
    (h : vm.tryHandlers = handler :: handlers) :
    vm.tryDispatchError = (none, { vm with
      tryHandlers := handlers
      fp := handler.fpAtEnter
      stack := vm.stack.take handler.stackLenAtEnter
      instPtr := handler.catchPc }) := by
  simp [tryDispatchError, h]

theorem dispatchError_effect {raised : VM} {err : Option RemoteCallError}
    (hraises : Raises host vm inst err)
    (hstack : raised.stack = (vm.popMany inst.operandCount).2.stack)
    (hfault : raised.fault = (vm.popMany inst.operandCount).2.fault)
    (hcontrol : raised.control = { vm.control with lastError := err }) :
    Effect host vm inst raised.dispatchError := by
  have hhandlers : raised.tryHandlers = vm.tryHandlers := congrArg Control.tryHandlers hcontrol
  unfold dispatchError
  cases hvm : vm.tryHandlers with
  | nil =>
    rw [tryDispatchError_nil (hhandlers.trans hvm)]
    refine .uncaught err hraises hvm ?_
    exact congrArg (fun c : Control => { c with done := true }) hcontrol
  | cons handler handlers =>
    rw [tryDispatchError_cons (hhandlers.trans hvm)]
    refine .caught err handler handlers hraises (Or.inl rfl) hvm
      (congrArg (List.take handler.stackLenAtEnter) hstack) hfault ?_
    exact congrArg (fun c : Control => { c with
      tryHandlers := handlers
      fp := handler.fpAtEnter
      instPtr := handler.catchPc }) hcontrol

theorem accessError_effect {accessed : VM} (hinst : inst.isAccess)
    (hattempt : vm.attemptAt host inst = some .failed)
    (hstack : accessed.stack = (vm.popMany inst.operandCount).2.stack)
    (hfault : accessed.fault = (vm.popMany inst.operandCount).2.fault)
    (hcontrol : accessed.control = vm.control) (err : RemoteCallError) :
    Effect host vm inst (accessed.accessError err) := by
  have hraises : Raises host vm inst (some err) := .failed err (Or.inr hinst) hattempt
  have hraised : { accessed with lastError := some err }.control =
      { vm.control with lastError := some err } :=
    congrArg (fun c : Control => { c with lastError := some err }) hcontrol
  have hstack' : { accessed with lastError := some err }.stack =
      (vm.popMany inst.operandCount).2.stack := hstack
  have hfault' : { accessed with lastError := some err }.fault =
      (vm.popMany inst.operandCount).2.fault := hfault
  unfold accessError
  generalize { accessed with lastError := some err } = raised at hraised hstack' hfault'
  have hhandlers : raised.tryHandlers = vm.tryHandlers := congrArg Control.tryHandlers hraised
  cases hvm : vm.tryHandlers with
  | nil =>
    rw [tryDispatchError_nil (hhandlers.trans hvm)]
    refine .uncaught _ hraises hvm ?_
    exact congrArg (fun c : Control => { c with done := true }) hraised
  | cons handler handlers =>
    rw [tryDispatchError_cons (hhandlers.trans hvm)]
    refine .caught _ handler handlers hraises (Or.inr rfl) hvm
      (congrArg (List.take handler.stackLenAtEnter) hstack') hfault' ?_
    exact congrArg (fun c : Control => { c with
      tryHandlers := handlers
      fp := handler.fpAtEnter
      instPtr := handler.catchPc }) hraised

theorem haltWith_effect {popped : VM} (hinst : inst.isRemote)
    (hattempt : vm.attemptAt host inst = none)
    (hcontrol : popped.control = vm.control) (err : RemoteCallError) :
    Effect host vm inst (popped.haltWith err) := by
  refine .refused err hinst hattempt ?_
  exact congrArg (fun c : Control => { c with done := true, lastError := some err }) hcontrol

theorem remoteCall_effect (hinst : inst.isRemote) (hcount : inst.operandCount = 3)
    (what : String)
    (dispatch : Dispatcher → String → String → String → Except RemoteCallError ByteArray)
    (hattempt : vm.attemptAt host inst = vm.remoteAttempt host dispatch) :
    Effect host vm inst (vm.remoteCall host what dispatch) := by
  have hpop : vm.pop.2.pop.2.pop.2.control = vm.control := by simp
  have hstack : vm.pop.2.pop.2.pop.2.stack = (vm.popMany inst.operandCount).2.stack := by
    rw [hcount]
    rfl
  have hfault : vm.pop.2.pop.2.pop.2.fault = (vm.popMany inst.operandCount).2.fault := by
    rw [hcount]
    rfl
  unfold remoteCall
  unfold remoteAttempt at hattempt
  dsimp only at hattempt ⊢
  generalize vm.pop.2.pop.2.pop.2 = popped at hpop hstack hfault hattempt
  cases harg : popped.text? vm.pop.1 with
  | none => exact haltWith_effect hinst (by simp [hattempt, harg]) hpop _
  | some arg =>
    cases hmethod : popped.text? vm.pop.2.pop.1 with
    | none => exact haltWith_effect hinst (by simp [hattempt, hmethod]) hpop _
    | some method =>
      cases hpeer : popped.text? vm.pop.2.pop.2.pop.1 with
      | none => exact haltWith_effect hinst (by simp [hattempt, hpeer]) hpop _
      | some peer =>
        cases hhost : host.dispatcher with
        | none => exact haltWith_effect hinst (by simp [hattempt, hhost]) hpop _
        | some dispatcher =>
          simp only [harg, hmethod, hpeer, hhost] at hattempt
          dsimp only
          cases hanswer : dispatch dispatcher peer method arg with
          | ok body =>
            rw [hanswer] at hattempt
            refine .answered hinst hattempt ?_
            exact congrArg (fun c : Control => { c with lastError := none }) hpop
          | error e =>
            rw [hanswer] at hattempt
            refine dispatchError_effect (.failed e (Or.inl hinst) hattempt) hstack hfault ?_
            exact congrArg (fun c : Control => { c with lastError := some e }) hpop

theorem access_effect (hinst : inst.isAccess) (hplain : inst.isPlain = true)
    (hcount : inst.operandCount = 2)
    (h : (∃ err, vm.attemptAt host inst = some .failed ∧
          flow = vm.pop.2.pop.2.accessError err) ∨
        ∃ ref, vm.attemptAt host inst = none ∧ flow = .next (vm.pop.2.pop.2.push ref)) :
    Effect host vm inst flow := by
  have hpop : vm.pop.2.pop.2.control = vm.control := by simp
  rcases h with ⟨err, hattempt, rfl⟩ | ⟨ref, hattempt, rfl⟩
  · exact accessError_effect hinst hattempt (by rw [hcount]; rfl) (by rw [hcount]; rfl) hpop err
  · exact .plain hplain hattempt (by simp)

theorem listGetList_effect : Effect host vm .listGetList vm.listGetList := by
  refine access_effect rfl rfl rfl ?_
  unfold listGetList attemptAt
  dsimp only
  cases (vm.pop.2.pop.2.listItems? vm.pop.2.pop.1).bind (itemAt · vm.pop.1) with
  | none => exact .inl ⟨_, rfl, rfl⟩
  | some elem =>
    rw [Option.bind_some]
    dsimp only
    cases vm.pop.2.pop.2.listItems? elem with
    | none => exact .inl ⟨_, rfl, rfl⟩
    | some items => exact .inr ⟨elem, rfl, rfl⟩

theorem mapGetMap_effect : Effect host vm .mapGetMap vm.mapGetMap := by
  refine access_effect rfl rfl rfl ?_
  unfold mapGetMap attemptAt
  dsimp only
  cases (vm.pop.2.pop.2.pairs? vm.pop.2.pop.1).bind
      (valueOf · (vm.pop.2.pop.2.textOrEmpty vm.pop.1)) with
  | none => exact .inl ⟨_, rfl, rfl⟩
  | some val =>
    rw [Option.bind_some]
    dsimp only
    cases vm.pop.2.pop.2.pairs? val with
    | none => exact .inl ⟨_, rfl, rfl⟩
    | some pairs => exact .inr ⟨val, rfl, rfl⟩

theorem listContains_effect (h : vm.listContains = .ok flow) :
    Effect host vm .listContains flow := by
  have hpop : vm.pop.2.pop.2.control = vm.control := by simp
  unfold listContains at h
  dsimp only at h
  generalize vm.pop.2.pop.2 = popped at hpop h
  cases hneedle : popped.display vm.pop.1 with
  | none => simp [hneedle] at h
  | some needle =>
    simp only [hneedle] at h
    cases hfound : popped.displaysTo needle ((popped.items? vm.pop.2.pop.1).getD []) with
    | none => simp [hfound] at h
    | some found =>
      simp only [hfound] at h
      cases h
      exact .plain rfl rfl (by simp [hpop])

theorem listJoin_effect (h : vm.listJoin = .ok flow) : Effect host vm .listJoin flow := by
  have hpop : vm.pop.2.pop.2.control = vm.control := by simp
  unfold listJoin at h
  dsimp only at h
  generalize vm.pop.2.pop.2 = popped at hpop h
  cases hparts : ((popped.items? vm.pop.2.pop.1).getD []).mapM popped.display with
  | none => simp [hparts] at h
  | some parts =>
    simp only [hparts] at h
    cases h
    exact .plain rfl rfl (by simp [hpop])

theorem exec_effect (h : vm.exec host inst = .ok flow) : Effect host vm inst flow := by
  cases inst with
  | loadLocal offset =>
    simp only [exec] at h
    split at h
    · cases h
    · cases h
      exact .plain rfl rfl (by simp)
  | storeLocal offset =>
    simp only [exec] at h
    split at h
    · cases h
    · cases h
      exact .plain rfl rfl (by simp)
  | intAdd | intSub | intMul => exact arith_effect rfl rfl h
  | bitLShift =>
    simp only [exec] at h
    exact arith_effect rfl rfl h
  | bitRShift =>
    simp only [exec] at h
    exact arith_effect rfl rfl h
  | jump target => cases h; exact .jumped target (Or.inl rfl) rfl
  | jumpFalse target => cases h; exact jumpFalse_effect target
  | call target argCount => cases h; exact call_effect target argCount
  | ret => cases h; exact ret_effect
  | retVal => cases h; exact retVal_effect
  | remoteCall | remoteCallStream => cases h; exact remoteCall_effect rfl rfl _ _ rfl
  | tryEnter catchPc => cases h; exact .entered catchPc rfl
  | tryExit => cases h; exact .exited rfl
  | rethrow => cases h; exact dispatchError_effect .again rfl rfl rfl
  | listContains => exact listContains_effect h
  | listJoin => exact listJoin_effect h
  | listGetList => cases h; exact listGetList_effect
  | mapGetMap => cases h; exact mapGetMap_effect
  | _ => cases h; exact .plain rfl rfl (by simp)

@[simp] theorem settle_fuel (vm : VM) : vm.settle.2.fuel = vm.fuel := by
  unfold settle
  cases vm.fault <;> rfl

@[simp] theorem settle_stepsTaken (vm : VM) : vm.settle.2.stepsTaken = vm.stepsTaken := by
  unfold settle
  cases vm.fault <;> rfl

theorem settle_of_none {vm : VM} (h : vm.settle.1 = none) :
    vm.fault = none ∧ vm.settle.2 = vm := by
  unfold settle at h ⊢
  cases hfault : vm.fault with
  | none => simp
  | some cause => simp [hfault] at h

theorem Effect.clock (h : Effect host vm inst flow) :
    flow.settle.2.fuel = vm.fuel ∧ flow.settle.2.stepsTaken = vm.stepsTaken ∧
      (flow.settle.1 = none → flow.settle.2.done = vm.done) := by
  have hnext : ∀ {vm' : VM} {c : Control}, vm'.control = c → c.fuel = vm.fuel →
      c.stepsTaken = vm.stepsTaken → c.done = vm.done →
      vm'.settle.2.fuel = vm.fuel ∧ vm'.settle.2.stepsTaken = vm.stepsTaken ∧
        (vm'.settle.1 = none → vm'.settle.2.done = vm.done) := by
    rintro vm' c rfl hfuel hsteps hdone
    refine ⟨(settle_fuel vm').trans hfuel, (settle_stepsTaken vm').trans hsteps, ?_⟩
    intro hnone
    rw [(settle_of_none hnone).2]
    exact hdone
  have hleave : ∀ {value : Word} {vm' : VM} {c : Control}, vm'.control = c → c.fuel = vm.fuel →
      c.stepsTaken = vm.stepsTaken →
      vm'.fuel = vm.fuel ∧ vm'.stepsTaken = vm.stepsTaken ∧
        (some value = none → vm'.done = vm.done) := by
    rintro value vm' c rfl hfuel hsteps
    refine ⟨hfuel, hsteps, ?_⟩
    intro hnone
    cases hnone
  cases h with
  | plain hinst hattempt hc | jumped target hinst hc | called target argCount hcount hc
  | returned frame frames hinst hframes hc =>
    exact hnext hc rfl rfl rfl
  | finished value hinst hframes hvalue hfault hc => exact hleave hc rfl rfl
  | malformed err hinst hframes hfault hc => exact hleave hc rfl rfl
  | answered hinst hattempt hc => exact hnext hc rfl rfl rfl
  | refused err hinst hattempt hc => exact hleave hc rfl rfl
  | uncaught err hraises hhandlers hc => exact hleave hc rfl rfl
  | @caught _ _ vm' err handler handlers hraises hflow hhandlers hstack hfault hc =>
    rcases hflow with hflow | hflow
    · rw [hflow]
      exact hnext hc rfl rfl rfl
    · rw [hflow]
      exact ⟨congrArg Control.fuel hc, congrArg Control.stepsTaken hc,
        fun _ => congrArg Control.done hc⟩
  | entered catchPc hc => exact hnext hc rfl rfl rfl
  | exited hc => exact hnext hc rfl rfl rfl

/-- What a step of a machine that is not done is: the end of the program, the end of the fuel,
or an instruction. -/
inductive StepTaken (host : Host) (vm : VM) : Option Word → VM → Prop
  | ended (hprogram : vm.program[vm.instPtr]? = none) :
      StepTaken host vm (some (vm.stack.getLast?.getD 0))
        { vm with done := true, stack := vm.stack.dropLast }
  | exhausted (inst : Inst) (hprogram : vm.program[vm.instPtr]? = some inst)
      (hfuel : vm.fuel = 0) : StepTaken host vm (some VM_ERROR_SENTINEL) vm.exhaust
  | executed (inst : Inst) (flow : Flow) (hprogram : vm.program[vm.instPtr]? = some inst)
      (hfuel : vm.fuel ≠ 0) (hexec : vm.tick.exec host inst = .ok flow) :
      StepTaken host vm flow.settle.1 flow.settle.2

variable {vm' : VM} {r : Option Word}

theorem step_taken {host : Host} (hdone : vm.done = false)
    (h : vm.step host = .ok (r, vm')) : StepTaken host vm r vm' := by
  rw [step, hdone, if_neg (by simp)] at h
  cases hprogram : vm.program[vm.instPtr]? with
  | none =>
    simp only [hprogram] at h
    cases h
    exact .ended hprogram
  | some inst =>
    simp only [hprogram] at h
    by_cases hfuel : vm.fuel = 0
    · rw [if_pos hfuel] at h
      cases h
      exact .exhausted inst hprogram hfuel
    · rw [if_neg hfuel] at h
      cases hexec : vm.tick.exec host inst with
      | error panic =>
        rw [hexec] at h
        cases h
      | ok flow =>
        rw [hexec] at h
        have hsettle : flow.settle = (r, vm') := Except.ok.inj h
        have htaken := StepTaken.executed inst flow hprogram hfuel hexec
        rwa [hsettle] at htaken

theorem StepTaken.clock {host : Host} (h : StepTaken host vm r vm') :
    vm'.stepsTaken ≤ vm.stepsTaken + vm.fuel ∧
      (r = none → vm'.fuel + 1 = vm.fuel ∧ vm'.stepsTaken = vm.stepsTaken + 1 ∧
        vm'.done = vm.done) := by
  cases h with
  | ended hprogram | exhausted inst hprogram hfuel =>
    exact ⟨Nat.le_add_right _ _, fun hr => by cases hr⟩
  | executed inst flow hprogram hfuel hexec =>
    obtain ⟨hclock, hsteps, hdone⟩ := (exec_effect hexec).clock
    simp only [tick] at hclock hsteps hdone
    rw [hclock, hsteps]
    refine ⟨by omega, ?_⟩
    intro hr
    exact ⟨by omega, rfl, hdone hr⟩

abbrev Reaches (host : Host) : VM → VM → Prop :=
  Relation.ReflTransGen (fun vm vm' => vm.step host = .ok (none, vm'))

theorem step_effect (hdone : vm.done = false) (h : vm.step host = .ok (none, vm')) :
    ∃ inst flow, vm.program[vm.instPtr]? = some inst ∧ Effect host vm.tick inst flow ∧
      flow.settle = (none, vm') := by
  have htaken := step_taken hdone h
  generalize hr : (none : Option Word) = r at htaken
  cases htaken with
  | ended hprogram => cases hr
  | exhausted inst hprogram hfuel => cases hr
  | executed inst flow hprogram hfuel hexec =>
    exact ⟨inst, flow, hprogram, exec_effect hexec, rfl⟩

end VM

end Sol

end Relux
