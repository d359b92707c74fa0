import Relux.Sol.Nesting
import Relux.Sol.Sentinel

/-! The handlers of a run are those of the `try` bodies it is in, as long as no body is left by
a return and no failure is handled by a function that called the failing one. -/

namespace Relux

namespace Sol

namespace VM

variable {host : Host} {program : List Inst} {start vm vm' : VM} {inst : Inst}

/-- The `try` statements whose bodies are being executed, innermost first, each by the address
of its clauses: those of the current frame, then those of its callers. -/
def executing (vm : VM) : List Nat :=
  bodiesAt vm.program vm.instPtr ++
    vm.callStack.flatMap (fun frame => bodiesAt vm.program frame.returnPtr)

def Fails (host : Host) (vm : VM) : Prop :=
  vm.attempt host = some .failed ∨ vm.program[vm.instPtr]? = some .rethrow

/-- The next step does not return out of a body; and if it fails, then in the frame of the
innermost body, with nothing taken from below where that began. -/
structure Disciplined (host : Host) (vm : VM) : Prop where
  returns : ∀ inst, vm.program[vm.instPtr]? = some inst → inst.isReturn = true →
    bodiesAt vm.program vm.instPtr = []
  frame : vm.Fails host → bodiesAt vm.program vm.instPtr = [] → vm.executing = []
  operands : vm.Fails host → ∀ inst, vm.program[vm.instPtr]? = some inst →
    ∀ handler ∈ vm.tryHandlers.head?, handler.stackLenAtEnter + inst.operandCount ≤ vm.stack.length

abbrev DisciplinedRun (host : Host) : VM → VM → Prop :=
  Relation.ReflTransGen (fun vm vm' => vm.Disciplined host ∧ vm.step host = .ok (none, vm'))

abbrev Inside (host : Host) (handlers : List TryHandler) : VM → VM → Prop :=
  Relation.ReflTransGen (fun vm vm' => vm.step host = .ok (none, vm') ∧
    handlers <:+ vm'.tryHandlers)

/-- Where a `TryEnter` was executed, with the body it began not left since. -/
def EnteredFrom (host : Host) (start vm : VM) (entered : VM) (handlers : List TryHandler) : Prop :=
  Reaches host start entered ∧ Inside host handlers entered vm

/-- The step goes to the clauses of the innermost body, and restores what its `TryEnter`
found. -/
def Unwinds (host : Host) (start vm vm' : VM) : Prop :=
  ∃ catchPc rest entered handler,
    bodiesAt vm.program vm.instPtr = catchPc :: rest ∧
    vm.tryHandlers = handler :: entered.tryHandlers ∧
    EnteredFrom host start vm entered vm.tryHandlers ∧
    entered.program[entered.instPtr]? = some (.tryEnter catchPc) ∧
    vm'.instPtr = catchPc ∧ vm'.fp = entered.fp ∧ vm'.callStack = entered.callStack ∧
    vm'.tryHandlers = entered.tryHandlers ∧
    vm'.stack = vm.stack.take entered.stack.length ∧ vm'.stack.length = entered.stack.length

/-- The handlers and what they are the handlers of: frame by frame, the bodies that are open
in it, each with the state `entered` in which its `TryEnter` was executed. -/
inductive Open (bodies : Nat → List Nat) (reached : VM → List TryHandler → Prop) :
    List Frame → List Nat → Nat → List TryHandler → Prop
  | bottom (fp : Nat) : Open bodies reached [] [] fp []
  | frame {frame : Frame} {frames : List Frame} {handlers : List TryHandler} (fp : Nat)
      (h : Open bodies reached frames (bodies frame.returnPtr) frame.oldFp handlers) :
      Open bodies reached (frame :: frames) [] fp handlers
  | body {catchPcs : List Nat} (catchPc : Nat) (entered : VM)
      (h : Open bodies reached entered.callStack catchPcs entered.fp entered.tryHandlers)
      (hreached : reached entered
        (⟨catchPc, entered.fp, entered.stack.length⟩ :: entered.tryHandlers))
      (hprogram : entered.program[entered.instPtr]? = some (.tryEnter catchPc)) :
      Open bodies reached entered.callStack (catchPc :: catchPcs) entered.fp
        (⟨catchPc, entered.fp, entered.stack.length⟩ :: entered.tryHandlers)

section Open

variable {bodies : Nat → List Nat} {reached reached' : VM → List TryHandler → Prop}
  {frames : List Frame} {catchPcs : List Nat} {fp : Nat} {handlers : List TryHandler}

theorem Open.mono (h : Open bodies reached frames catchPcs fp handlers)
    (himp : ∀ entered hs, hs <:+ handlers → reached entered hs → reached' entered hs) :
    Open bodies reached' frames catchPcs fp handlers := by
  induction h with
  | bottom fp => exact .bottom fp
  | frame fp h ih => exact .frame fp (ih himp)
  | body catchPc entered h hreached hprogram ih =>
    have hbelow := ih (fun e hs hsuffix => himp e hs (hsuffix.trans (List.suffix_cons _ _)))
    exact .body catchPc entered hbelow (himp entered _ List.suffix_rfl hreached) hprogram

theorem Open.map_catchPc (h : Open bodies reached frames catchPcs fp handlers) :
    handlers.map TryHandler.catchPc =
      catchPcs ++ frames.flatMap (fun frame => bodies frame.returnPtr) := by
  induction h with
  | bottom fp => rfl
  | frame fp h ih => simpa using ih
  | body catchPc entered h hreached hprogram ih => simp [ih]

theorem Open.caller {frame : Frame} (h : Open bodies reached (frame :: frames) [] fp handlers) :
    Open bodies reached frames (bodies frame.returnPtr) frame.oldFp handlers := by
  generalize hframes : frame :: frames = stack at h
  generalize hlist : ([] : List Nat) = list at h
  cases h with
  | bottom fp => cases hframes
  | frame fp h =>
    cases hframes
    exact h
  | body catchPc entered h hreached hprogram => cases hlist

theorem Open.innermost {catchPc : Nat}
    (h : Open bodies reached frames (catchPc :: catchPcs) fp handlers) :
    ∃ entered, frames = entered.callStack ∧ fp = entered.fp ∧
      handlers = ⟨catchPc, entered.fp, entered.stack.length⟩ :: entered.tryHandlers ∧
      Open bodies reached entered.callStack catchPcs entered.fp entered.tryHandlers ∧
      reached entered handlers ∧ entered.program[entered.instPtr]? = some (.tryEnter catchPc) := by
  generalize hlist : catchPc :: catchPcs = list at h
  cases h with
  | bottom fp => cases hlist
  | frame fp h => cases hlist
  | body catchPc entered h hreached hprogram =>
    cases hlist
    exact ⟨entered, rfl, rfl, rfl, h, hreached, hprogram⟩

end Open

theorem exec_of_fails (hfails : vm.attemptAt host inst = some .failed ∨ inst = .rethrow) :
    ∃ flow, vm.exec host inst = .ok flow := by
  rcases hfails with h | rfl
  · cases inst with
    | remoteCall | remoteCallStream | listGetList | mapGetMap => exact ⟨_, rfl⟩
    | _ => cases h
  · exact ⟨_, rfl⟩

theorem popMany_of_le {n : Nat} (h : n ≤ vm.stack.length) :
    (vm.popMany n).2.stack = vm.stack.take (vm.stack.length - n) ∧
      (vm.popMany n).2.fault = vm.fault := by
  induction n generalizing vm with
  | zero => simp [popMany]
  | succ n ih =>
    cases hlast : vm.stack.getLast? with
    | none =>
      have hnil : vm.stack = [] := List.getLast?_eq_none_iff.mp hlast
      simp [hnil] at h
    | some v =>
      have hlen : vm.stack.dropLast.length = vm.stack.length - 1 := List.length_dropLast
      have hpop : vm.pop.2 = { vm with stack := vm.stack.dropLast } := by
        rw [pop_of_getLast? hlast]
      obtain ⟨hstack, hfault⟩ := @ih { vm with stack := vm.stack.dropLast } (by
        show n ≤ vm.stack.dropLast.length
        omega)
      have hunfold : (vm.popMany (n + 1)).2 = (vm.pop.2.popMany n).2 := rfl
      rw [hunfold, hpop]
      refine ⟨hstack.trans ?_, hfault⟩
      show vm.stack.dropLast.take (vm.stack.dropLast.length - n) = _
      rw [List.dropLast_eq_take, List.take_take, List.length_take]
      congr 1
      omega

theorem step_of_fails (hdone : vm.done = false) (hfuel : vm.fuel ≠ 0) (hfault : vm.fault = none)
    (hfails : vm.Fails host)
    (hoperands : ∀ inst, vm.program[vm.instPtr]? = some inst → ∀ handler ∈ vm.tryHandlers.head?,
      handler.stackLenAtEnter + inst.operandCount ≤ vm.stack.length) :
    (vm.tryHandlers = [] ∧ ∃ vm', vm.step host = .ok (some VM_ERROR_SENTINEL, vm')) ∨
      ∃ handler handlers vm', vm.tryHandlers = handler :: handlers ∧
        vm.step host = .ok (none, vm') ∧ vm'.program = vm.program ∧ vm'.done = false ∧
        vm'.fault = none ∧ vm'.instPtr = handler.catchPc ∧ vm'.fp = handler.fpAtEnter ∧
        vm'.callStack = vm.callStack ∧ vm'.tryHandlers = handlers ∧
        vm'.stack = vm.stack.take handler.stackLenAtEnter ∧
        vm'.stack.length = handler.stackLenAtEnter := by
  obtain ⟨inst, hprogram, hfailing⟩ : ∃ inst, vm.program[vm.instPtr]? = some inst ∧
      (vm.tick.attemptAt host inst = some .failed ∨ inst = .rethrow) := by
    rcases hfails with h | h
    · obtain ⟨inst, hprogram, hattempt⟩ := Option.bind_eq_some_iff.mp h
      exact ⟨inst, hprogram, Or.inl hattempt⟩
    · exact ⟨_, h, Or.inr rfl⟩
  obtain ⟨flow, hexec⟩ := exec_of_fails hfailing
  have hstep : vm.step host = .ok flow.settle := by
    rw [step, hdone, if_neg (by simp)]
    simp only [hprogram, if_neg hfuel, hexec]
    rfl
  have hnot : inst.isPlain = true → vm.tick.attemptAt host inst = none → False := by
    intro hplain hnone
    rcases hfailing with h | rfl
    · rw [hnone] at h
      cases h
    · cases hplain
  cases exec_effect hexec with
  | plain hinst hattempt hc => exact absurd hattempt (hnot hinst)
  | jumped target hinst hc =>
    exfalso
    rcases hinst with rfl | rfl <;> rcases hfailing with h | h <;> cases h
  | called target argCount hcount hc =>
    exfalso
    rcases hfailing with h | h <;> cases h
  | returned frame frames hinst hframes hc =>
    exfalso
    rcases eq_of_isReturn hinst with rfl | rfl <;> rcases hfailing with h | h <;> cases h
  | finished value hinst hframes hvalue hnone hc =>
    exfalso
    rcases eq_of_isReturn hinst with rfl | rfl <;> rcases hfailing with h | h <;> cases h
  | malformed err hinst hframes hsome hc =>
    exfalso
    rcases eq_of_isReturn hinst with rfl | rfl <;> rcases hfailing with h | h <;> cases h
  | answered hinst hattempt hc =>
    exfalso
    rcases hfailing with h | rfl
    · rw [hattempt] at h
      cases h
    · cases hinst
  | refused err hinst hattempt hc =>
    exfalso
    rcases hfailing with h | rfl
    · rw [hattempt] at h
      cases h
    · cases hinst
  | entered catchPc hc =>
    exfalso
    rcases hfailing with h | h <;> cases h
  | exited hc =>
    exfalso
    rcases hfailing with h | h <;> cases h
  | uncaught err hraises hhandlers hc => exact Or.inl ⟨hhandlers, _, hstep⟩
  | @caught _ _ vm' err handler handlers hraises hflow hhandlers hstack hkept hc =>
    have hhandlers' : vm.tryHandlers = handler :: handlers := hhandlers
    have hcount : handler.stackLenAtEnter + inst.operandCount ≤ vm.stack.length :=
      hoperands inst hprogram handler (by simp [hhandlers'])
    obtain ⟨hrest, hsame⟩ := @popMany_of_le vm.tick inst.operandCount
      (show inst.operandCount ≤ vm.stack.length from by omega)
    have hnone : vm'.fault = none := hkept.trans (hsame.trans hfault)
    have htake : vm'.stack = vm.stack.take handler.stackLenAtEnter := by
      rw [hstack, hrest, List.take_take]
      congr 1
      show min _ (vm.stack.length - _) = _
      omega
    have hsettle : flow.settle = (none, vm') := by
      rcases hflow with rfl | rfl
      · show vm'.settle = (none, vm')
        rw [settle, hnone]
      · rfl
    rw [hsettle] at hstep
    refine Or.inr ⟨handler, handlers, vm', hhandlers', hstep, congrArg Control.program hc,
      (congrArg Control.done hc).trans hdone, hnone, congrArg Control.instPtr hc,
      congrArg Control.fp hc, congrArg Control.callStack hc, congrArg Control.tryHandlers hc,
      htake, ?_⟩
    rw [htake, List.length_take]
    omega

structure Nests (host : Host) (program : List Inst) (start vm : VM) : Prop where
  program_eq : vm.program = program
  done_eq : vm.done = false
  fault_eq : vm.fault = none
  reaches : Reaches host start vm
  isOpen : Open (bodiesAt program) (EnteredFrom host start vm) vm.callStack
    (bodiesAt program vm.instPtr) vm.fp vm.tryHandlers

theorem Nests.executing (h : Nests host program start vm) :
    vm.tryHandlers.map TryHandler.catchPc = vm.executing := by
  rw [h.isOpen.map_catchPc, VM.executing, h.program_eq]

theorem EnteredFrom.later {entered : VM} {handlers : List TryHandler}
    (hstep : vm.step host = .ok (none, vm'))
    (hentered : EnteredFrom host start vm entered handlers)
    (hkept : handlers <:+ vm'.tryHandlers) :
    EnteredFrom host start vm' entered handlers :=
  ⟨hentered.1, hentered.2.tail ⟨hstep, hkept⟩⟩

theorem Nests.fails (htargets : Targets (bodiesAt program) 0 program)
    (h : Nests host program start vm) (hdisciplined : vm.Disciplined host) (hfuel : vm.fuel ≠ 0)
    (hfails : vm.Fails host) :
    (vm.executing = [] ∧ ∃ vm', vm.step host = .ok (some VM_ERROR_SENTINEL, vm')) ∨
      ∃ vm', vm.step host = .ok (none, vm') ∧ Unwinds host start vm vm' ∧
        Nests host program start vm' := by
  have hexecuting := h.executing
  rcases step_of_fails h.done_eq hfuel h.fault_eq hfails (hdisciplined.operands hfails) with
    ⟨hnil, hstep⟩ | ⟨handler, handlers, vm', hhandlers, hstep, hprogram, hdone, hfault, hpc, hfp,
      hframes, hrest, hstack, hlen⟩
  · rw [hnil] at hexecuting
    exact Or.inl ⟨hexecuting.symm, hstep⟩
  · refine Or.inr ⟨vm', hstep, ?_⟩
    cases hbodies : bodiesAt program vm.instPtr with
    | nil =>
      have hnone := hdisciplined.frame hfails (by rw [h.program_eq, hbodies])
      rw [hnone, hhandlers] at hexecuting
      cases hexecuting
    | cons catchPc rest =>
      have hopen := h.isOpen
      rw [hbodies] at hopen
      obtain ⟨entered, hcallStack, hframe, hhandler, hbelow, hentered, henter⟩ := hopen.innermost
      rw [hhandlers, List.cons.injEq] at hhandler
      obtain ⟨rfl, rfl⟩ := hhandler
      have hinside : bodiesAt program vm.instPtr = [] ++ catchPc :: rest := hbodies
      have hclauses : bodiesAt program catchPc = rest := bodiesAt_clauses htargets hinside
      have hbodies' : bodiesAt vm.program vm.instPtr = catchPc :: rest := by
        rw [h.program_eq, hbodies]
      have hcallStack' : vm'.callStack = entered.callStack := hframes.trans hcallStack
      refine ⟨⟨catchPc, rest, entered, _, hbodies', hhandlers, hentered, henter, hpc, hfp,
        hcallStack', hrest, hstack, hlen⟩, hprogram.trans h.program_eq, hdone, hfault,
        h.reaches.tail hstep, ?_⟩
      rw [hcallStack', hpc, hfp, hrest]
      show Open _ _ _ (bodiesAt program catchPc) _ _
      rw [hclauses]
      refine hbelow.mono (fun e hs hsuffix hreached => ?_)
      exact hreached.later hstep (hrest ▸ hsuffix)

theorem scan_of_isPlain (h : inst.isPlain = true) (bodies : List Nat) : scan bodies inst = bodies := by
  cases inst with
  | tryEnter catchPc => cases h
  | tryExit => cases h
  | _ => rfl

theorem scan_of_isRemote (h : inst.isRemote = true) (bodies : List Nat) :
    scan bodies inst = bodies := by
  cases inst with
  | remoteCall => rfl
  | remoteCallStream => rfl
  | _ => cases h

theorem Open.later {frames : List Frame} {catchPcs : List Nat} {fp : Nat}
    {handlers : List TryHandler}
    (h : Open (bodiesAt program) (EnteredFrom host start vm) frames catchPcs fp handlers)
    (hstep : vm.step host = .ok (none, vm')) (hkept : handlers <:+ vm'.tryHandlers) :
    Open (bodiesAt program) (EnteredFrom host start vm') frames catchPcs fp handlers :=
  h.mono fun _ _ hsuffix hreached => hreached.later hstep (hsuffix.trans hkept)

theorem Open.kept {frames : List Frame} {catchPcs : List Nat} {fp : Nat}
    {handlers : List TryHandler}
    (h : Open (bodiesAt program) (EnteredFrom host start vm) frames catchPcs fp handlers)
    (hstep : vm.step host = .ok (none, vm')) (hkept : vm'.tryHandlers = handlers) :
    Open (bodiesAt program) (EnteredFrom host start vm') frames catchPcs fp handlers :=
  h.later hstep (hkept ▸ List.suffix_rfl)

theorem Nests.next {control : Control} (h : Nests host program start vm)
    (hstep : vm.step host = .ok (none, vm')) (hfault : vm'.fault = none)
    (hcontrol : vm'.control = control) (hprogram : control.program = vm.program)
    (hdone : control.done = vm.done)
    (hopen : Open (bodiesAt program) (EnteredFrom host start vm') control.callStack
      (bodiesAt program control.instPtr) control.fp control.tryHandlers) :
    Nests host program start vm' := by
  subst hcontrol
  exact ⟨hprogram.trans h.program_eq, hdone.trans h.done_eq, hfault, h.reaches.tail hstep, hopen⟩

theorem Nests.step (htargets : Targets (bodiesAt program) 0 program)
    (h : Nests host program start vm) (hdisciplined : vm.Disciplined host)
    (hstep : vm.step host = .ok (none, vm')) : Nests host program start vm' := by
  obtain ⟨inst, flow, hprogram, heffect, hsettle⟩ := step_effect h.done_eq hstep
  have hnext : ∀ vm₁ : VM, (Flow.next vm₁).settle = (none, vm') → vm₁ = vm' ∧ vm'.fault = none := by
    intro vm₁ hvm₁
    obtain ⟨hnone, hsame⟩ := settle_of_none (congrArg Prod.fst hvm₁)
    have hvm' : vm₁ = vm' := hsame.symm.trans (congrArg Prod.snd hvm₁)
    exact ⟨hvm', hvm' ▸ hnone⟩
  have hat : program[vm.instPtr]? = some inst := h.program_eq ▸ hprogram
  have hsucc : bodiesAt program (vm.instPtr + 1) = scan (bodiesAt program vm.instPtr) inst :=
    bodiesAt_succ hat
  have htarget : TargetAt (bodiesAt program) vm.instPtr inst := by
    have htarget := targets_iff.mp htargets vm.instPtr inst hat
    rwa [Nat.zero_add] at htarget
  have hfailed : vm.Fails host → Nests host program start vm' := by
    intro hfails
    have hfuel : vm.fuel ≠ 0 := by
      have hclock := ((step_taken h.done_eq hstep).clock.2 rfl).1
      omega
    rcases h.fails htargets hdisciplined hfuel hfails with ⟨_, vm₁, hend⟩ | ⟨vm₁, hcont, _, hnests⟩
    · rw [hstep] at hend
      cases hend
    · rw [hstep] at hcont
      cases hcont
      exact hnests
  have hopen := h.isOpen
  cases heffect with
  | @plain _ vm₁ hinst hattempt hc =>
    obtain ⟨rfl, hfault⟩ := hnext _ hsettle
    rw [← scan_of_isPlain hinst (bodiesAt program vm.instPtr), ← hsucc] at hopen
    exact h.next hstep hfault hc rfl rfl (hopen.kept hstep (congrArg Control.tryHandlers hc))
  | @jumped _ vm₁ target hinst hc =>
    obtain ⟨rfl, hfault⟩ := hnext _ hsettle
    have hbodies : bodiesAt program target = bodiesAt program vm.instPtr := by
      rcases hinst with rfl | rfl <;> exact htarget
    rw [← hbodies] at hopen
    exact h.next hstep hfault hc rfl rfl (hopen.kept hstep (congrArg Control.tryHandlers hc))
  | @answered _ vm₁ hinst hattempt hc =>
    obtain ⟨rfl, hfault⟩ := hnext _ hsettle
    rw [← scan_of_isRemote hinst (bodiesAt program vm.instPtr), ← hsucc] at hopen
    exact h.next hstep hfault hc rfl rfl (hopen.kept hstep (congrArg Control.tryHandlers hc))
  | @called vm₁ target argCount hcount hc =>
    obtain ⟨rfl, hfault⟩ := hnext _ hsettle
    have hnil : bodiesAt program target = [] := htarget
    have hsame : bodiesAt program (vm.instPtr + 1) = bodiesAt program vm.instPtr := hsucc
    rw [← hsame] at hopen
    refine h.next hstep hfault hc rfl rfl ?_
    show Open _ _ _ (bodiesAt program target) _ _
    rw [hnil]
    exact .frame _ (hopen.kept hstep (congrArg Control.tryHandlers hc))
  | @returned _ vm₁ frame frames hinst hframes hc =>
    obtain ⟨rfl, hfault⟩ := hnext _ hsettle
    have hframes' : vm.callStack = frame :: frames := hframes
    have hnil : bodiesAt program vm.instPtr = [] := by
      rw [← h.program_eq]
      exact hdisciplined.returns inst hprogram hinst
    rw [hnil, hframes'] at hopen
    exact h.next hstep hfault hc rfl rfl
      (hopen.caller.kept hstep (congrArg Control.tryHandlers hc))
  | @entered vm₁ catchPc hc =>
    obtain ⟨rfl, hfault⟩ := hnext _ hsettle
    have hhandlers : vm₁.tryHandlers = ⟨catchPc, vm.fp, vm.stack.length⟩ :: vm.tryHandlers :=
      congrArg Control.tryHandlers hc
    have hbelow := hopen.later hstep (hhandlers ▸ List.suffix_cons _ _)
    refine h.next hstep hfault hc rfl rfl ?_
    show Open _ _ vm.callStack (bodiesAt program (vm.instPtr + 1)) vm.fp _
    rw [hsucc]
    refine .body catchPc vm hbelow ⟨h.reaches, .single ⟨hstep, ?_⟩⟩ hprogram
    exact hhandlers ▸ List.suffix_rfl
  | @exited vm₁ hc =>
    obtain ⟨rfl, hfault⟩ := hnext _ hsettle
    cases hbodies : bodiesAt program vm.instPtr with
    | nil => exact absurd hbodies htarget
    | cons catchPc rest =>
      rw [hbodies] at hopen
      obtain ⟨entered, hframes, hfp, hhandler, hbelow, _, _⟩ := hopen.innermost
      have htail : vm.tryHandlers.tail = entered.tryHandlers := congrArg List.tail hhandler
      have hlater := hbelow.kept hstep ((congrArg Control.tryHandlers hc).trans htail)
      refine h.next hstep hfault hc rfl rfl ?_
      show Open _ _ vm.callStack (bodiesAt program (vm.instPtr + 1)) vm.fp vm.tryHandlers.tail
      rw [hsucc, hbodies, hframes, hfp, htail]
      exact hlater
  | caught err handler handlers hraises hflow hhandlers hstack hkept hc =>
    refine hfailed ?_
    cases hraises with
    | failed err hinst hattempt =>
      refine Or.inl ?_
      rw [attempt, hprogram]
      exact hattempt
    | again => exact Or.inr hprogram
  | finished value hinst hframes hvalue hfault hc | malformed err hinst hframes hfault hc
  | refused err hinst hattempt hc | uncaught err hraises hhandlers hc =>
    cases hsettle

theorem DisciplinedRun.nests (htargets : Targets (bodiesAt program) 0 program)
    (h : Nests host program start start) (hrun : DisciplinedRun host start vm) :
    Nests host program start vm := by
  induction hrun with
  | refl => exact h
  | tail hrun hlast ih => exact ih.step htargets hlast.1 hlast.2

theorem nests_start (program : List Inst) (fuel : Nat) (flowName : Option String) :
    let start := { (ofProgram program).withFuel fuel with flowName := flowName }
    Nests host program start start :=
  ⟨rfl, rfl, rfl, .refl, .bottom 0⟩

/-- In a run of an accepted program through disciplined states, the handlers are those of the bodies
being executed, and a failure goes to the innermost of these, with everything as its `TryEnter`
found it, or ends the run when there is none. -/
theorem handlers_discipline (host : Host) {program : Program} {insts : List Inst} (fuel : Nat)
    (flowName : Option String) (h : compileProgram program = some insts) :
    let start := { (ofProgram insts).withFuel fuel with flowName := flowName }
    ∀ vm, DisciplinedRun host start vm →
      vm.tryHandlers.map TryHandler.catchPc = vm.executing ∧
      (vm.Disciplined host → vm.Fails host → vm.fuel ≠ 0 →
        (vm.executing = [] ∧ ∃ vm', vm.step host = .ok (some VM_ERROR_SENTINEL, vm')) ∨
          ∃ vm', vm.step host = .ok (none, vm') ∧ Unwinds host start vm vm') := by
  intro start vm hrun
  have htargets := compiled_targets h
  have hnests := hrun.nests htargets (nests_start insts fuel flowName)
  refine ⟨hnests.executing, fun hdisciplined hfails hfuel => ?_⟩
  rcases hnests.fails htargets hdisciplined hfuel hfails with hend | ⟨vm', hstep, hunwinds, _⟩
  · exact Or.inl hend
  · exact Or.inr ⟨vm', hstep, hunwinds⟩

/-- `function start() -> int { try { rethrow; } catch any { return 7; } return 1; }` -/
def rethrowInTry : Program :=
  [.func "start" [] .integer (.block [
    .try [.rethrow] [("any", [.return (some (.integer 7))])],
    .return (some (.integer 1))])]

def rethrowInTryCode : List Inst :=
  [.jump 14, .tryEnter 5, .rethrow, .tryExit, .jump 10, .pushConst (.integer 7), .retVal, .pop,
    .jump 10, .rethrow, .pushConst (.integer 1), .retVal, .pop, .ret, .call 1 0]

def atRethrow : VM :=
  { (ofProgram rethrowInTryCode).withFuel 97 with
    instPtr := 2, stepsTaken := 3, callStack := [⟨15, 0⟩], tryHandlers := [⟨5, 0, 0⟩] }

/-- `function f() -> int { try { return 1; } catch any { return 2; } return 3; }` and
`function start() -> int { let x: int = f(); rethrow; }` -/
def returnInTry : Program :=
  [.func "f" [] .integer (.block [
    .try [.return (some (.integer 1))] [("any", [.return (some (.integer 2))])],
    .return (some (.integer 3))]),
   .func "start" [] .integer (.block [
    .declVar "x" .integer (some (.call "f" [])),
    .rethrow])]

def returnInTryCode : List Inst :=
  [.jump 16, .tryEnter 7, .pushConst (.integer 1), .retVal, .pop, .tryExit, .jump 12,
    .pushConst (.integer 2), .retVal, .pop, .jump 12, .rethrow, .pushConst (.integer 3), .retVal,
    .pop, .ret, .jump 21, .call 1 0, .storeLocal 0, .rethrow, .ret, .call 17 0]

theorem rethrows_compiled : compileProgram rethrowInTry = some rethrowInTryCode ∧
    compileProgram returnInTry = some returnInTryCode := by
  decide +kernel

theorem rethrow_unwinds :
    let start := { (ofProgram rethrowInTryCode).withFuel 100 with flowName := none }
    compileProgram rethrowInTry = some rethrowInTryCode ∧
      ∃ vm, DisciplinedRun quietHost start vm ∧ vm.Disciplined quietHost ∧ vm.Fails quietHost ∧
        vm.tryHandlers.map TryHandler.catchPc = vm.executing ∧
        ((vm.executing = [] ∧ ∃ vm', vm.step quietHost = .ok (some VM_ERROR_SENTINEL, vm')) ∨
          ∃ vm', vm.step quietHost = .ok (none, vm') ∧ Unwinds quietHost start vm vm') := by
  intro start
  have hcode := rethrows_compiled.1
  have hquiet : ∀ {vm : VM} {inst : Inst}, vm.program[vm.instPtr]? = some inst →
      inst.isReturn = false → ¬ vm.Fails quietHost → vm.Disciplined quietHost := by
    intro vm inst hprogram hreturn hfails
    refine ⟨fun inst' hinst hret => ?_, fun h => absurd h hfails, fun h => absurd h hfails⟩
    rw [hprogram] at hinst
    cases hinst
    rw [hreturn] at hret
    cases hret
  have hrun : DisciplinedRun quietHost start atRethrow :=
    .head ⟨@hquiet _ (.jump 14) rfl rfl (by rintro (h | h) <;> cases h), rfl⟩
      (.head ⟨@hquiet _ (.call 1 0) rfl rfl (by rintro (h | h) <;> cases h), rfl⟩
        (.head ⟨@hquiet _ (.tryEnter 5) rfl rfl (by rintro (h | h) <;> cases h), rfl⟩ .refl))
  have hdisciplined : atRethrow.Disciplined quietHost := by
    refine ⟨fun inst hinst hreturn => ?_, fun _ hnil => ?_, fun _ inst hinst handler hhandler => ?_⟩
    · cases hinst
      cases hreturn
    · cases hnil
    · cases hinst
      cases hhandler
      exact Nat.le_refl 0
  have hdiscipline := handlers_discipline quietHost 100 none hcode atRethrow hrun
  have hfails : atRethrow.Fails quietHost := Or.inr rfl
  have hfuel : atRethrow.fuel ≠ 0 := by decide
  exact ⟨hcode, atRethrow, hrun, hdisciplined, hfails, hdiscipline.1,
    hdiscipline.2 hdisciplined hfails hfuel⟩

/-- The `try` of `f` catches what `start` raises after the call. -/
theorem left_try_catches :
    compileProgram returnInTry = some returnInTryCode ∧
      ∃ vm vm', Reaches quietHost ((ofProgram returnInTryCode).withFuel 100) vm ∧
        vm.executing = [] ∧ vm.tryHandlers.map TryHandler.catchPc = [7] ∧
        vm.step quietHost = .ok (none, vm') ∧ vm'.instPtr = 7 := by
  refine ⟨rethrows_compiled.2, _, _, .head rfl (.head rfl (.head rfl (.head rfl (.head rfl (.head rfl
    (.head rfl (.head rfl .refl))))))), rfl, rfl, rfl, rfl⟩

end VM

end Sol

end Relux
