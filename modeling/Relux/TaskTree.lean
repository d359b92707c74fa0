import Relux.Lineage

/-! The tree of tasks. Every operation but a creation and a move leaves each task where it
stands; a creation puts a new task under one that exists, a move puts a task under another
of its namespace that the walk upwards does not lead back from. -/

namespace Relux

open Forest (upN Acyclic)

namespace KernelState

def place (s : KernelState) (t : TaskId) : Option (NamespaceId × Option TaskId) :=
  (s.tasks.get? t).map (fun task => (task.namespaceId, task.parentTask))

def parentOf (s : KernelState) (t : TaskId) : Option TaskId := (s.tasks.get? t).bind (·.parentTask)

end KernelState

theorem parentOf_eq (s : KernelState) (t : TaskId) :
    s.parentOf t = (s.place t).bind Prod.snd := by
  simp only [KernelState.parentOf, KernelState.place]
  cases s.tasks.get? t <;> rfl

theorem get?_taskParentMap (s : KernelState) : (taskParentMap s).get? = s.parentOf := by
  have hmem : ∀ t p, (t, p) ∈ s.tasks.entries.filterMap
      (fun e => e.2.parentTask.map (fun p => (e.1, p))) ↔ s.parentOf t = some p := by
    intro t p
    simp only [List.mem_filterMap, Option.map_eq_some_iff, Prod.mk.injEq, KernelState.parentOf,
      Option.bind_eq_some_iff]
    constructor
    · rintro ⟨⟨t', task⟩, he, p', hp, rfl, rfl⟩
      exact ⟨task, HashMap.mem_entries.mp he, hp⟩
    · rintro ⟨task, ht, hp⟩
      exact ⟨(t, task), HashMap.mem_entries.mpr ht, p, hp, rfl, rfl⟩
  funext t
  exact HashMap.get?_collect (fun e he => (hmem e.1 e.2).mp he)
    (fun k v hk => (hmem k v).mpr hk) t

variable {s : KernelState}

theorem wouldCreateTaskCycle_eq_false (h : Acyclic s.parentOf) {child parent : TaskId} :
    wouldCreateTaskCycle child parent (taskParentMap s) = false ↔
      ∀ n ≤ maxTaskDepth, upN s.parentOf n parent ≠ some child := by
  simp only [wouldCreateTaskCycle, isInTaskSubtree, taskAncestors, get?_taskParentMap]
  constructor
  · intro hfalse n hn hup
    cases n with
    | zero =>
      cases hup
      simp at hfalse
    | succ n =>
      have hmem := h.mem_climb_iff.mpr ⟨n, hn, hup⟩
      by_cases he : child = parent
      · simp [he] at hfalse
      · simp only [he, beq_eq_false_iff_ne, ne_eq, not_false_eq_true, beq_iff_eq, if_false,
          Bool.or_eq_false_iff, true_and, List.any_eq_false] at hfalse
        exact hfalse child hmem rfl
  · intro hnone
    have hne : child ≠ parent := by
      rintro rfl
      exact hnone 0 (Nat.zero_le _) rfl
    simp only [hne, beq_eq_false_iff_ne, ne_eq, not_false_eq_true, if_false,
      Bool.or_eq_false_iff, true_and, List.any_eq_false, beq_iff_eq]
    rintro a ha rfl
    obtain ⟨k, hk, hup⟩ := Forest.mem_climb ha
    exact hnone (k + 1) hk hup

variable {ns : NamespaceId}

theorem checkTaskParent_ok {child parent : TaskId} :
    checkTaskParent s child ns parent = .ok () ↔ (∃ q, s.place parent = some (ns, q)) ∧
      wouldCreateTaskCycle child parent (taskParentMap s) = false := by
  unfold checkTaskParent
  simp only [KernelState.place]
  cases s.tasks.get? parent with
  | none => simp
  | some task =>
    by_cases hns : task.namespaceId = ns
    · cases hcycle : wouldCreateTaskCycle child parent (taskParentMap s) <;> simp [hns]
    · simp [hns]

def KernelOp.treeMove : KernelOp → Option (TaskId × Option TaskId)
  | .run (.reparentTask t parent) => some (t, parent)
  | _ => none

inductive TreeStep (move : Option (TaskId × Option TaskId)) (s s' : KernelState) : Prop
  | kept (h : s'.place = s.place)
  | created (ns : NamespaceId) (parent : Option TaskId)
      (hcheck : ∀ p, parent = some p → checkTaskParent s (taskIdOf (s.nextTask + 1)) ns p = .ok ())
      (h : s'.place = Function.update s.place (taskIdOf (s.nextTask + 1)) (some (ns, parent)))
  | moved (t : TaskId) (ns : NamespaceId) (old parent : Option TaskId)
      (hmove : move = some (t, parent)) (ht : s.place t = some (ns, old))
      (hcheck : ∀ p, parent = some p → checkTaskParent s t ns p = .ok ())
      (h : s'.place = Function.update s.place t (some (ns, parent)))

theorem place_of_brief {s' : KernelState} (h : s'.brief = s.brief) : s'.place = s.place := by
  have hplace : ∀ (s : KernelState) t,
      s.place t = (s.brief t).map (fun b => (b.namespaceId, b.parentTask)) := by
    intro s t
    simp only [KernelState.place, KernelState.brief, Option.map_map]
    rfl
  funext t
  rw [hplace, hplace, h]

theorem place_setTask (s : KernelState) (taskId : TaskId) (f : Task → Task)
    (hf : ∀ t, (f t).namespaceId = t.namespaceId ∧ (f t).parentTask = t.parentTask) :
    (s.setTask taskId f).place = s.place := by
  funext t
  refine HashMap.map_get?_modify (fun task => ?_) s.tasks taskId t
  rw [(hf task).1, (hf task).2]

theorem assignTask_place (s : KernelState) (taskId : TaskId) (agentId : AgentId) :
    (assignTask s taskId agentId).2.place = s.place := by
  have hset := place_setTask s.tick taskId
    (fun t => { t with assignedAgent := some agentId, status := .queued, updatedAt := s.stamp })
    (by exact fun _ => ⟨rfl, rfl⟩)
  unfold assignTask
  split
  · rfl
  · split
    · rfl
    · exact hset

theorem autoAssign_place (s : KernelState) (limit : Nat) (prime : AgentId) (r : TickResult)
    (candidates tasks : List TaskId) :
    (autoAssign limit prime s r candidates tasks).1.place = s.place := by
  induction tasks generalizing s r candidates with
  | nil => rfl
  | cons taskId rest ih =>
    have hassign := assignTask_place s taskId prime
    simp only [autoAssign]
    split
    · rfl
    · split
      next h =>
        rw [h] at hassign
        exact (ih _ _ _).trans hassign
      next h =>
        rw [h] at hassign
        exact (ih _ _ _).trans hassign

theorem afterRetry_place (w : World) (s : KernelState) (runId : RunId) :
    (afterRetry w s runId).place = s.place := by
  have hretry := place_of_brief (retryRun_brief w s runId)
  unfold afterRetry
  split
  next h =>
    rw [h] at hretry
    exact hretry
  next h =>
    rw [h] at hretry
    exact hretry

theorem oneAutonomyTick_place (w : World) (s : KernelState) :
    (oneAutonomyTick w s).place = s.place := by
  have hretries : ∀ (runIds : List RunId) (s : KernelState),
      (runIds.foldl (afterRetry w) s).place = s.place := by
    intro runIds
    induction runIds with
    | nil => exact fun _ => rfl
    | cons runId rest ih => exact fun s => (ih _).trans (afterRetry_place w s runId)
  have hwork : ∀ s : KernelState, (workTick w s).1.place = s.place := by
    intro s
    have hretried : (retryTransient w s ⟨0, 0, 0, 0, []⟩ (tickRetries w s)).1.place = s.place := by
      rw [retryTransient_fst]
      exact hretries _ s
    unfold workTick
    rw [place_of_brief (tickTasks_works w _ _ _).brief]
    split
    · exact (autoAssign_place _ _ _ _ _ _).trans hretried
    · exact hretried
  unfold oneAutonomyTick
  dsimp only
  split
  · rfl
  · split
    · rfl
    · exact hwork s.tick

theorem insertTask_place (s : KernelState) (title : String) (input : Json)
    (createdBy : String) (ns : NamespaceId) (permissions : List Permission)
    (parent : Option TaskId) :
    (insertTask s title input createdBy ns permissions parent).2.place =
      Function.update s.place (taskIdOf (s.nextTask + 1)) (some (ns, parent)) := by
  funext t
  change ((s.tasks.insert (taskIdOf (s.nextTask + 1)) _).get? t).map _ = _
  rw [HashMap.get?_insert, Function.update_apply]
  split <;> rfl

theorem createTaskWithParent_tree (s : KernelState) (title : String) (input : Json)
    (createdBy : String) (ns : NamespaceId) (permissions : List Permission)
    (parent : Option TaskId) :
    TreeStep none s (createTaskWithParent s title input createdBy ns permissions parent).2 := by
  have hinsert := insertTask_place s title input createdBy ns permissions parent
  unfold createTaskWithParent
  cases parent with
  | none => exact .created ns none (fun p hp => by cases hp) hinsert
  | some p =>
    dsimp only
    cases hcheck : checkTaskParent s (taskIdOf (s.nextTask + 1)) ns p with
    | error e => exact .kept rfl
    | ok u =>
      refine .created ns (some p) (fun p' hp' => ?_) hinsert
      cases hp'
      exact hcheck

variable {t : TaskId}

theorem reparent_place {task : Task} (ht : s.tasks.get? t = some task) (parent : Option TaskId) :
    (taskAudit (s.tick.setTask t (fun t =>
      { t with parentTask := parent, updatedAt := s.stamp })) "task:update" t .success).place =
      Function.update s.place t (some (task.namespaceId, parent)) := by
  funext t'
  change ((s.tasks.modify t _).get? t').map _ = _
  rw [HashMap.get?_modify, Function.update_apply]
  split
  · rw [ht, Option.map_some, Option.map_some]
  · rfl

theorem reparentTask_tree (s : KernelState) (t : TaskId) (parent : Option TaskId) :
    TreeStep (some (t, parent)) s (reparentTask s t parent).2 := by
  unfold reparentTask
  cases ht : s.tasks.get? t with
  | none => exact .kept rfl
  | some task =>
    have hplace : s.place t = some (task.namespaceId, task.parentTask) := by
      simp only [KernelState.place, ht, Option.map_some]
    have hmove := reparent_place ht parent
    cases parent with
    | none => exact .moved t _ _ none rfl hplace (fun p hp => by cases hp) hmove
    | some p =>
      dsimp only
      cases hcheck : checkTaskParent s t task.namespaceId p with
      | error e => exact .kept rfl
      | ok u =>
        refine .moved t _ _ (some p) rfl hplace (fun p' hp' => ?_) hmove
        cases hp'
        exact hcheck

def RunOp.isTreeOp : RunOp → Bool
  | .createTask .. => true
  | .createTaskWithParent .. => true
  | .reparentTask .. => true
  | _ => false

theorem RunOp.exec_place (w : World) (p : ControlPlane) (op : RunOp)
    (h : op.isTreeOp = false) : (op.exec w p).kernel.place = p.kernel.place := by
  cases op with
  | createTask title input createdBy permissions => cases h
  | createTaskWithParent title input createdBy ns permissions parent => cases h
  | reparentTask taskId newParent => cases h
  | assignTask taskId agentId => exact assignTask_place p.kernel taskId agentId
  | startRun taskId => exact place_of_brief (startRun_works w p.kernel taskId).brief
  | executeAssignedRun taskId =>
    exact place_of_brief (executeAssignedRun_works w p.kernel taskId).brief
  | prepareCliRun taskId adapter =>
    have hplace := place_of_brief (prepareCliRun_works w p.kernel taskId adapter).brief
    simp only [RunOp.exec]
    cases hprep : Relux.prepareCliRun w p.kernel taskId adapter with
    | mk result s =>
      rw [hprep] at hplace
      cases result <;> exact hplace
  | finalizeCliRun i outcome =>
    simp only [RunOp.exec, ControlPlane.finalized]
    split
    · rfl
    · exact place_of_brief (finalizeCliRun_works w p.kernel _ outcome).brief
  | setTaskStatus taskId target =>
    simp only [RunOp.exec, ControlPlane.withKernel, Relux.setTaskStatus]
    split
    · rfl
    · split
      · rfl
      · split
        · rfl
        · exact place_setTask _ taskId _ (by exact fun _ => ⟨rfl, rfl⟩)
  | reopenTask taskId =>
    simp only [RunOp.exec, ControlPlane.withKernel, Relux.reopenTask]
    split
    · rfl
    · split
      · rfl
      · split
        · rfl
        · exact place_setTask _ taskId _ (by exact fun _ => ⟨rfl, rfl⟩)
  | retryRun runId => exact place_of_brief (retryRun_brief w p.kernel runId)
  | resumeRun runId => exact place_of_brief (resumeRun_brief w p.kernel runId)
  | completeRun runId summary =>
    exact place_of_brief (completeRun_works w p.kernel runId summary).brief
  | failRun runId error => exact place_of_brief (failRun_works w p.kernel runId error).brief
  | completeTask taskId => exact place_of_brief (completeTask_works p.kernel taskId).brief
  | failTask taskId => exact place_of_brief (failTask_works p.kernel taskId).brief

theorem RunOp.exec_tree (w : World) (p : ControlPlane) (op : RunOp) :
    TreeStep (KernelOp.run op).treeMove p.kernel (op.exec w p).kernel := by
  cases h : op.isTreeOp with
  | false => exact .kept (op.exec_place w p h)
  | true =>
    cases op with
    | createTask title input createdBy permissions =>
      exact .created workspaceNs none (fun p hp => by cases hp)
        (insertTask_place p.kernel title input createdBy workspaceNs permissions none)
    | createTaskWithParent title input createdBy ns permissions parent =>
      exact createTaskWithParent_tree p.kernel title input createdBy ns permissions parent
    | reparentTask taskId newParent => exact reparentTask_tree p.kernel taskId newParent
    | _ => cases h

theorem CrewWrite.place {s s' : KernelState} (h : CrewWrite s s') : s'.place = s.place := by
  induction h with
  | none => rfl
  | setAgent agentId f _ => rfl
  | assign taskId target _ _ => exact assignTask_place s taskId target
  | audit _ _ _ _ _ _ _ ih => exact ih

theorem KernelOp.exec_tree (w : World) (p : ControlPlane) (op : KernelOp) :
    TreeStep op.treeMove p.kernel (op.exec w p).kernel := by
  cases op with
  | run op => exact op.exec_tree w p
  | background op =>
    cases op with
    | recoverStaleRuns nowSecs ids =>
      exact .kept (place_of_brief (recoverStaleRuns_works w p.kernel nowSecs ids).brief)
    | oneAutonomyTick => exact .kept (oneAutonomyTick_place w p.kernel)
    | configureAutonomy config => exact .kept rfl
    | setRunWatchdogConfig config => exact .kept rfl
  | config op => exact .kept (place_of_brief (op.exec_works w p.kernel).brief)
  | approval op => exact .kept (place_of_brief (op.exec_rules w p.kernel).works.brief)
  | manager call => exact .kept (call.exec_writes p.kernel).place
  | rehash runs tasks grants =>
    refine .kept (funext fun t => ?_)
    change ((p.kernel.tasks.reorder tasks).get? t).map _ = _
    rw [HashMap.get?_reorder]
    rfl

/-- No task has an id that was not minted, and a parent exists in its child's namespace. -/
structure KernelState.Filed (s : KernelState) : Prop where
  fresh : ∀ n, s.nextTask < n → s.place (taskIdOf n) = none
  parent : ∀ t ns p, s.place t = some (ns, some p) → ∃ q, s.place p = some (ns, q)

namespace KernelState.Filed

variable {s : KernelState} {q : Option TaskId}

theorem upN_place (h : s.Filed) {n : Nat} {t' : TaskId}
    (ht : s.place t = some (ns, q)) (hup : upN s.parentOf n t = some t') :
    ∃ q', s.place t' = some (ns, q') := by
  induction n generalizing t q with
  | zero =>
    cases hup
    exact ⟨q, ht⟩
  | succ n ih =>
    have hparent : s.parentOf t = q := by rw [parentOf_eq, ht, Option.bind_some]
    cases q with
    | none => simp [Forest.upN, hparent] at hup
    | some p =>
      obtain ⟨q, hp⟩ := h.parent t ns p ht
      exact ih hp ((Forest.upN_succ hparent).symm.trans hup)

theorem upN_ne_fresh (h : s.Filed) (ht : s.place t = some (ns, q)) (n : Nat) :
    upN s.parentOf n t ≠ some (taskIdOf (s.nextTask + 1)) := by
  intro hup
  obtain ⟨q', hq⟩ := h.upN_place ht hup
  rw [h.fresh _ (Nat.lt_succ_self _)] at hq
  cases hq

end KernelState.Filed

def Board.TasksMinted (b : Board) : Prop := ∀ n, b.nextTask < n → b.task (taskIdOf n) = none

theorem Board.TasksMinted.move {b : Board} (h : b.TasksMinted) (m : BoardMove) :
    (b.move m).TasksMinted := by
  intro n hn
  have hset : ∀ t status, (b.setTask t status).task (taskIdOf n) = none ↔
      b.task (taskIdOf n) = none := by
    intro t status
    rw [Board.setTask_task]
    split
    next he => rw [he, Option.map_eq_none_iff]
    · rfl
  cases m with
  | create =>
    change b.nextTask + 1 < n at hn
    have hne : taskIdOf n ≠ b.freshTask := by
      intro he
      have heq : n = b.nextTask + 1 := mintedId_inj he
      omega
    rw [Board.create_task, if_neg hne]
    exact h n (by omega)
  | task t status => exact (hset t status).mpr (h n hn)
  | start t => exact (hset t .running).mpr (h n hn)
  | run r status => exact h n hn

theorem Board.TasksMinted.play {b : Board} (h : b.TasksMinted) (moves : List BoardMove) :
    (b.play moves).TasksMinted := by
  induction moves generalizing b with
  | nil => exact h
  | cons m moves ih => exact ih (h.move m)

theorem tasksMinted_iff (s : KernelState) :
    s.board.TasksMinted ↔ ∀ n, s.nextTask < n → s.place (taskIdOf n) = none := by
  simp only [Board.TasksMinted, KernelState.board, KernelState.place, Option.map_eq_none_iff]

namespace KernelState.Filed

variable {s s' : KernelState} {move : Option (TaskId × Option TaskId)}

theorem step (h : s.Filed) (hstep : TreeStep move s s') (hminted : s'.board.TasksMinted) :
    s'.Filed := by
  refine ⟨(tasksMinted_iff s').mp hminted, ?_⟩
  cases hstep with
  | kept hplace =>
    rw [hplace]
    exact h.parent
  | created ns parent hcheck hplace =>
    have hold : ∀ {p : TaskId} {ns : NamespaceId} {q : Option TaskId},
        s.place p = some (ns, q) → s'.place p = some (ns, q) := by
      intro p ns q hp
      have hne : p ≠ taskIdOf (s.nextTask + 1) := by
        rintro rfl
        rw [h.fresh _ (Nat.lt_succ_self _)] at hp
        cases hp
      rw [hplace, Function.update_of_ne hne, hp]
    intro t ns' p ht
    rw [hplace, Function.update_apply] at ht
    split at ht
    · cases ht
      obtain ⟨⟨q, hp⟩, -⟩ := checkTaskParent_ok.mp (hcheck p rfl)
      exact ⟨q, hold hp⟩
    · obtain ⟨q, hp⟩ := h.parent t ns' p ht
      exact ⟨q, hold hp⟩
  | moved t ns old parent hmove ht hcheck hplace =>
    -- The moved task keeps its namespace, so it may go on being a parent.
    have hold : ∀ {p : TaskId} {ns' : NamespaceId} {q : Option TaskId},
        s.place p = some (ns', q) → ∃ q', s'.place p = some (ns', q') := by
      intro p ns' q hp
      rw [hplace, Function.update_apply]
      split
      next he =>
        subst he
        rw [ht] at hp
        cases hp
        exact ⟨parent, rfl⟩
      · exact ⟨q, hp⟩
    intro t' ns' p ht'
    rw [hplace, Function.update_apply] at ht'
    split at ht'
    · cases ht'
      obtain ⟨⟨q, hp⟩, -⟩ := checkTaskParent_ok.mp (hcheck p rfl)
      exact hold hp
    · obtain ⟨q, hp⟩ := h.parent t' ns' p ht'
      exact hold hp

theorem parentOf_update {parent : Option TaskId}
    (h : s'.place = Function.update s.place t (some (ns, parent))) :
    s'.parentOf = Function.update s.parentOf t parent := by
  funext t'
  rw [parentOf_eq, h, Function.update_apply, Function.update_apply]
  split
  · rfl
  · rw [parentOf_eq]

theorem acyclic_step (h : s.Filed) (ha : Acyclic s.parentOf) (hstep : TreeStep move s s')
    (hcap : ∀ t p, move = some (t, some p) →
      ∀ n, maxTaskDepth < n → upN s.parentOf n p ≠ some t) : Acyclic s'.parentOf := by
  cases hstep with
  | kept hplace =>
    have hsame : s'.parentOf = s.parentOf := by
      funext t
      rw [parentOf_eq, parentOf_eq, hplace]
    rw [hsame]
    exact ha
  | created ns parent hcheck hplace =>
    rw [parentOf_update hplace]
    cases parent with
    | none => exact ha.clear _
    | some p =>
      obtain ⟨⟨q, hp⟩, -⟩ := checkTaskParent_ok.mp (hcheck p rfl)
      exact ha.update (h.upN_ne_fresh hp)
  | moved t ns old parent hmove ht hcheck hplace =>
    rw [parentOf_update hplace]
    cases parent with
    | none => exact ha.clear t
    | some p =>
      obtain ⟨-, hfalse⟩ := checkTaskParent_ok.mp (hcheck p rfl)
      refine ha.update (fun n => ?_)
      by_cases hn : n ≤ maxTaskDepth
      · exact (wouldCreateTaskCycle_eq_false ha).mp hfalse n hn
      · exact hcap t p hmove n (by omega)

theorem cyclic_reparent (h : s.Filed) (ha : Acyclic s.parentOf) {p : TaskId} {n : Nat}
    (hn : maxTaskDepth < n) (hup : upN s.parentOf n p = some t) :
    ¬ Acyclic (reparentTask s t (some p)).2.parentOf := by
  -- The parent has a parent, so it exists, and what stands above it is in its namespace.
  obtain ⟨ns, q, hp⟩ : ∃ ns q, s.place p = some (ns, q) := by
    cases hp : s.place p with
    | none =>
      have hnone : upN s.parentOf 1 p = none := by
        rw [Forest.upN, parentOf_eq, hp]
        rfl
      rw [Forest.upN_none_mono (by omega) hnone] at hup
      cases hup
    | some e => exact ⟨e.1, e.2, rfl⟩
  obtain ⟨old, ht⟩ := h.upN_place hp hup
  have hfalse : wouldCreateTaskCycle t p (taskParentMap s) = false := by
    refine (wouldCreateTaskCycle_eq_false ha).mpr (fun m hm hup' => ?_)
    have := ha.height_unique hup hup'
    omega
  have hcheck : checkTaskParent s t ns p = .ok () := checkTaskParent_ok.mpr ⟨⟨q, hp⟩, hfalse⟩
  have hplace : (reparentTask s t (some p)).2.place =
      Function.update s.place t (some (ns, some p)) := by
    cases htask : s.tasks.get? t with
    | none => simp [KernelState.place, htask] at ht
    | some task =>
      have hns : task.namespaceId = ns := by
        simp only [KernelState.place, htask, Option.map_some, Option.some.injEq,
          Prod.mk.injEq] at ht
        exact ht.1
      have hmove := reparent_place htask (some p)
      rw [hns] at hmove
      simp only [reparentTask, htask, hns, hcheck]
      exact hmove
  rw [parentOf_update hplace]
  exact ha.loop hup

end KernelState.Filed

end Relux
