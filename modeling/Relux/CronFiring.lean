import Relux.CronDiscipline

/-! What holds of every disciplined run of the cron service, and runs without discipline that
break it. -/

namespace Relux.Cron

section
variable {cal : Calendar} {cfg : CronSchedulerConfig} {s s' : Shared} {t t' u : Task}
  {fork : Option Task} {c c' : Crowd Shared Task}

theorem Task.Sound.congr (h : t.Sound cal s) (hjobs : s'.jobs = s.jobs)
    (hfires : s'.fires = s.fires) : t.Sound cal s' := by
  have hcount : ∀ id n, Cron.oneShotFires s' id n = Cron.oneShotFires s id n := by
    intro id n
    unfold Cron.oneShotFires
    rw [hfires]
  refine ⟨?_, ?_, ?_, h.distinct⟩
  · rw [hjobs]
    exact h.reads
  · intro job hjob
    rw [hcount]
    exact h.unfired job hjob
  · rw [hjobs]
    exact h.dispatch

theorem env_frame (h : (service cal cfg).env s s') :
    s'.jobs = s.jobs ∧ s'.fires = s.fires ∧ s'.numbers = s.numbers := by
  rcases h with ⟨now, rfl⟩ | ⟨taskId, status, rfl⟩ <;> exact ⟨rfl, rfl, rfl⟩

theorem Shared.Sound.congr (h : s.Sound) (hjobs : s'.jobs = s.jobs)
    (hfires : s'.fires = s.fires) (hnumbers : s'.numbers = s.numbers) : s'.Sound := by
  refine ⟨?_, ?_, ?_, ?_⟩
  · rw [hjobs]
    exact h.keyed
  · rw [hjobs, hnumbers]
    exact h.rows
  · rw [hfires, hnumbers]
    exact h.fires
  · intro id n
    have hcount : Cron.oneShotFires s' id n = Cron.oneShotFires s id n := by
      unfold Cron.oneShotFires
      rw [hfires]
    rw [hcount]
    exact h.once id n

theorem Stepped.apart (h : Stepped cal cfg s t s' t' fork) (hapart : t.Apart u)
    (hdue : t = .scheduler → ∀ job ∈ s.dueJobs, job.jobId ∉ u.busy)
    (htrigger : ∀ jobId job, t = .triggering jobId → s.jobs.get? jobId = some job →
      job.jobId ∉ u.busy) : t'.Apart u ∧ ∀ f, fork = some f → f.Apart u := by
  obtain ⟨hbusy, hfork⟩ := h.busy
  refine ⟨?_, fun f hf id hid => hapart id (hfork f hf id hid)⟩
  intro id hid
  rcases hbusy id hid with hold | ⟨ht, hmem⟩ | ⟨jobId, job, ht, hjob, rfl⟩
  · exact hapart id hold
  · obtain ⟨job, hjob, rfl⟩ := List.mem_map.mp hmem
    exact hdue ht job hjob
  · exact htrigger jobId job ht hjob

theorem Stepped.forkApart (h : Stepped cal cfg s t s' t' fork) (ht : t.Sound cal s) :
    ∀ f, fork = some f → t'.Apart f := by
  intro f hf
  cases h with
  | @start job due =>
    cases hf
    intro id hid hfork
    have hdue : id ∈ due.map (·.jobId) := by
      have happend : id ∈ due.map (·.jobId) ++ [] := hid
      rwa [List.append_nil] at happend
    rw [List.mem_singleton.mp hfork] at hdue
    exact (List.nodup_cons.mp ht.distinct).1 hdue
  | dispatch =>
    intro id hid
    cases hid
  | _ => cases hf

def Ruled (cal : Calendar) (cfg : CronSchedulerConfig) (c : Crowd Shared Task)
    (l : Crowd.Label Task) : Prop := Disciplined cfg c l ∧ Unrecorded cal c

variable {l : Crowd.Label Task}

theorem Kept.meets (hok : Disciplined cfg c l) (h : Crowd.Step (service cal cfg) c l c')
    (hc : Kept cal cfg c) : Crowd.Meets Shared.Sound (Task.Sound cal) Task.Apart c' := by
  have hboth : Ruled cal cfg c l := ⟨hok, hc.unrecorded⟩
  refine h.meets ?_ ?_ ?_ ?_ l hboth hc.sound
  · exact fun t u h => h.symm
  · intro s s' hs henv
    obtain ⟨hjobs, hfires, hnumbers⟩ := env_frame henv
    exact ⟨hs.congr hjobs hfires hnumbers, fun u hu => hu.congr hjobs hfires⟩
  · rintro c t s' - hc ⟨rfl, ht⟩
    refine ⟨hc.shared, ?_, fun j u hj => ⟨hc.task j u hj, ?_⟩⟩
    · rcases ht with ⟨jobId, rfl⟩ | ⟨op, rfl⟩ <;> exact .idle rfl rfl (fun _ _ heq => by cases heq)
    · rcases ht with ⟨jobId, rfl⟩ | ⟨op, rfl⟩ <;> exact fun id hid => by cases hid
  · rintro c i t s' t' fork ⟨⟨hdue, -, htrigger, hedit⟩, hunrecorded⟩ hc hi hexec
    have hstep := service_exec hexec
    have ht := hc.task i t hi
    have hread : t = .scheduler → ∀ job ∈ c.shared.dueJobs,
        Cron.oneShotFires c.shared job.jobId job.enabling = 0 := by
      intro heq job hjob
      obtain ⟨hrow, henabled⟩ := mem_dueJobs hc.shared.keyed hjob
      exact hunrecorded.unfired hrow henabled (hdue (heq ▸ hi) job hjob)
    have htriggered : ∀ jobId job, t = .triggering jobId →
        c.shared.jobs.get? jobId = some job →
        job.enabled = true ∧ Cron.oneShotFires c.shared job.jobId job.enabling = 0 := by
      intro jobId job heq hrow
      obtain ⟨henabled, hfree⟩ := htrigger jobId job (heq ▸ hi) hrow
      have hid : job.jobId = jobId := hc.shared.keyed jobId job hrow
      rw [hid]
      exact ⟨henabled, hunrecorded.unfired hrow henabled hfree⟩
    obtain ⟨hown, hfork⟩ := ht.own hc.shared hstep hread htriggered
    refine ⟨hc.shared.step ht hstep, hown, fun f hf => ⟨hfork f hf, hstep.forkApart ht f hf⟩, ?_⟩
    intro j u hji hj
    have hapart := hc.pair i j t u (Ne.symm hji) hi hj
    obtain ⟨hafter, hforked⟩ := hstep.apart hapart
      (fun heq job hjob => hdue (heq ▸ hi) job hjob j u hj)
      (fun jobId job heq hrow => by
        have hid : job.jobId = jobId := hc.shared.keyed jobId job hrow
        rw [hid]
        exact (htrigger jobId job (heq ▸ hi) hrow).2 j u hj)
    refine ⟨(hc.task j u hj).other hstep hapart ?_, hafter, hforked⟩
    exact fun op id heq hchanges => hedit op id (heq ▸ hi) hchanges j u hj

theorem Kept.step (hok : Disciplined cfg c l) (h : Crowd.Step (service cal cfg) c l c')
    (hc : Kept cal cfg c) : Kept cal cfg c' := by
  refine ⟨hc.meets hok h, ?_, ?_⟩
  · cases h with
    | env henv =>
      obtain ⟨hjobs, hfires, -⟩ := env_frame henv
      intro id row hrow henabled hcount
      simp only [hjobs] at hrow
      refine hc.unrecorded id row hrow henabled ?_
      unfold oneShotFires at hcount ⊢
      rwa [hfires] at hcount
    | spawn hspawn =>
      obtain ⟨rfl, -⟩ := hspawn
      intro id row hrow henabled hcount
      obtain ⟨j, u, fire, hj, hu⟩ := hc.unrecorded id row hrow henabled hcount
      refine ⟨j, u, fire, ?_, hu⟩
      rw [List.getElem?_append_left (List.getElem?_eq_some_iff.mp hj).1]
      exact hj
    | run hi hexec => exact Unrecorded.run hc hi (service_exec hexec)
  · cases h with
    | env henv => exact hc.fires
    | spawn hspawn =>
      have hnew : ∀ t, ((∃ jobId, t = .triggering jobId) ∨ ∃ op, t = Task.asked op) →
          [t].countP Task.isFire = 0 := by
        rintro t (⟨jobId, rfl⟩ | ⟨op, rfl⟩) <;> rfl
      rw [List.countP_append, hnew _ hspawn.2]
      exact hc.fires
    | @run s s' ts i t t' fork hi hexec =>
      have hcount := Crowd.countP_after Task.isFire hi t' fork
      have hfires : ts.countP Task.isFire ≤ cfg.maxConcurrent := hc.fires
      show (ts.set i t' ++ fork.toList).countP Task.isFire ≤ cfg.maxConcurrent
      rcases (service_exec hexec).isFire with hle | ⟨job, due, rfl, hpermits, hone⟩
      · omega
      · have hroom : ts.countP Task.isFire < cfg.maxConcurrent := hok.2.1 job due hi hpermits
        omega

/-- The service comes up with the rows of earlier: its loop is alone, and no permit is out. -/
structure Started (cfg : CronSchedulerConfig) (c : Crowd Shared Task) : Prop where
  tasks : c.tasks = [.scheduler]
  permits : c.shared.permits = max cfg.maxConcurrent 1
  keyed : c.shared.jobs.KeyedBy (·.jobId)
  rows : ∀ id row, c.shared.jobs.get? id = some row → row.enabling < c.shared.numbers
  fires : c.shared.fires = []

theorem Started.oneShotFires (h : Started cfg c) (id : String) (n : Nat) :
    Cron.oneShotFires c.shared id n = 0 := by
  unfold Cron.oneShotFires
  rw [h.fires, List.countP_nil]

theorem Started.kept (cal : Calendar) (h : Started cfg c) : Kept cal cfg c := by
  have hget : ∀ {i : Nat} {t : Task}, c.tasks[i]? = some t → i = 0 ∧ t = .scheduler := by
    intro i t hi
    rw [h.tasks] at hi
    cases i with
    | zero => exact ⟨rfl, (Option.some.inj hi).symm⟩
    | succ i => cases hi
  refine ⟨⟨⟨h.keyed, h.rows, ?_, ?_⟩, ?_, ?_⟩, ?_, ?_⟩
  · rw [h.fires]
    intro f hf
    cases hf
  · intro id n
    rw [h.oneShotFires]
    exact Nat.zero_le 1
  · intro i t hi
    rw [(hget hi).2]
    exact .idle rfl rfl (fun _ _ heq => by cases heq)
  · intro i j t u hij hi hj
    exact absurd ((hget hi).1.trans (hget hj).1.symm) hij
  · intro id row _ _ hfires
    exact absurd (h.oneShotFires id _) hfires
  · rw [h.tasks]
    exact Nat.zero_le _

end

inductive Move
  | clock (now : Int)
  | trigger (jobId : String)
  | ask (op : Operation)
  | run (i : Nat) (choice : Choice)

section
variable (cal : Calendar) (cfg : CronSchedulerConfig)

def move (c : Crowd Shared Task) : Move → Option (Crowd Shared Task)
  | .clock now => some ⟨{ c.shared with now := now }, c.tasks⟩
  | .trigger jobId => some ⟨c.shared, c.tasks ++ [.triggering jobId]⟩
  | .ask op => some ⟨c.shared, c.tasks ++ [.asked op]⟩
  | .run i choice => (c.tasks[i]?).bind (fun t => (step cal cfg c.shared choice t).map (fun r =>
      ⟨r.1, c.tasks.set i r.2.1 ++ r.2.2.toList⟩))

def play (c : Crowd Shared Task) (moves : List Move) : Option (Crowd Shared Task) :=
  moves.foldlM (move cal cfg) c

end

theorem play_runs {cal : Calendar} {cfg : CronSchedulerConfig} {moves : List Move}
    {c c' : Crowd Shared Task} (h : play cal cfg c moves = some c') :
    Crowd.Runs (service cal cfg) (fun _ _ => True) c c' := by
  refine Crowd.runs_of_plays (fun c m c' hmid => ?_) h
  cases m with
  | clock now =>
    cases hmid
    exact ⟨_, trivial, .env (.inl ⟨now, rfl⟩)⟩
  | trigger jobId =>
    cases hmid
    exact ⟨_, trivial, .spawn ⟨rfl, .inl ⟨jobId, rfl⟩⟩⟩
  | ask op =>
    cases hmid
    exact ⟨_, trivial, .spawn ⟨rfl, .inr ⟨op, rfl⟩⟩⟩
  | run i choice =>
    obtain ⟨t, hi, hstep⟩ := Option.bind_eq_some_iff.mp hmid
    obtain ⟨⟨s', t', fork⟩, hexec, rfl⟩ := Option.map_eq_some_iff.mp hstep
    exact ⟨_, trivial, .run hi ⟨choice, hexec⟩⟩

def instants : Calendar where
  rfc3339 := fun s => if s = "2020-01-01T00:00:00Z" then some 1577836800 else none
  civil := fun _ => none

def start (cfg : CronSchedulerConfig) : Crowd Shared Task where
  shared := ⟨1700000000, max cfg.maxConcurrent 1, .empty, .empty, 0, []⟩
  tasks := [.scheduler]

theorem start_started (cfg : CronSchedulerConfig) : Started cfg (start cfg) where
  tasks := rfl
  permits := rfl
  keyed := HashMap.KeyedBy.empty _
  rows := by
    intro id row hrow
    cases hrow
  fires := rfl

def createJob (schedule : String) : List Move :=
  [.ask (.create "a" schedule "f.sol" "p" "subject" "default"), .run 1 (.draws "job-a")]

def tick : List Move := [.run 0 .go, .run 0 .go, .run 0 .go]

def Task.permit : Task → Bool
  | .checking fire | .creating fire | .appending fire _ | .recording fire _ | .dispatching fire _
  | .returning fire _ => fire.scheduled
  | _ => false

theorem step_permits {cal : Calendar} {cfg : CronSchedulerConfig} {s s' : Shared} {choice : Choice}
    {t t' : Task} {fork : Option Task} (h : step cal cfg s choice t = some (s', t', fork)) :
    s'.permits + ([t'] ++ fork.toList).countP Task.permit =
      s.permits + [t].countP Task.permit := by
  have hstepped := step_cases h
  cases hstepped with
  | @start job due hpermits =>
    have hheld : [Task.ticking due, .checking ⟨job, true⟩].countP Task.permit = 1 := rfl
    have hnone : [Task.ticking (job :: due)].countP Task.permit = 0 := rfl
    simp only [Option.toList_some, List.singleton_append, hheld, hnone]
    omega
  | @«return» fire outcome permits =>
    cases h
    cases hscheduled : fire.scheduled <;> simp [Task.permit, hscheduled]
  | perform hperform => simp [Task.permit, (perform_frame hperform).2.2]
  | _ => rfl

/-- In every run, disciplined or not, the free permits and the fires of the scheduler that hold
one add up to the permits there are: none is lost and none given twice. -/
theorem permits_conserved (cal : Calendar) (cfg : CronSchedulerConfig) {c₀ c : Crowd Shared Task}
    (h₀ : Started cfg c₀) (h : Crowd.Runs (service cal cfg) (fun _ _ => True) c₀ c) :
    c.shared.permits + c.tasks.countP Task.permit = max cfg.maxConcurrent 1 := by
  have hkeeps : ∀ (c : Crowd Shared Task) l c', True → Crowd.Step (service cal cfg) c l c' →
      c.shared.permits + c.tasks.countP Task.permit = max cfg.maxConcurrent 1 →
      c'.shared.permits + c'.tasks.countP Task.permit = max cfg.maxConcurrent 1 := by
    intro c l c' _ hstep hc
    cases hstep with
    | env henv =>
      obtain ⟨now, rfl⟩ | ⟨taskId, status, rfl⟩ := henv
      · exact hc
      · exact hc
    | spawn hspawn =>
      obtain ⟨rfl, ⟨jobId, rfl⟩ | ⟨op, rfl⟩⟩ := hspawn
      · simpa [Task.permit] using hc
      · simpa [Task.permit] using hc
    | @run s s' ts i t t' fork hi hexec =>
      obtain ⟨choice, hstep⟩ := hexec
      have hcount := Crowd.countP_after Task.permit hi t' fork
      have hpermits := step_permits hstep
      dsimp only at hc ⊢
      omega
  refine h.keeps hkeeps ?_
  rw [h₀.tasks, h₀.permits]
  rfl

theorem permits_conserved_held : ∃ c, Crowd.Runs (service instants ⟨1, 300⟩) (fun _ _ => True)
    (start ⟨1, 300⟩) c ∧ c.shared.permits = 0 ∧ c.tasks.countP Task.permit = 1 := by
  have hplay : (play instants ⟨1, 300⟩ (start ⟨1, 300⟩) (createJob "1s" ++
      [Move.clock 1700000010] ++ tick)).any (·.shared.permits == 0) = true := by decide +kernel
  obtain ⟨c, hc, htest⟩ := (Option.any_eq_true _ _).mp hplay
  have hnone := eq_of_beq htest
  have hall := permits_conserved instants ⟨1, 300⟩ (start_started _) (play_runs hc)
  rw [hnone, Nat.zero_add] at hall
  exact ⟨c, play_runs hc, hnone, hall⟩

end Relux.Cron
