import Relux.RetryBudget
import Relux.BriefRounds

/-! The newest run. Wherever it is looked for, texts are compared: the ids of the runs, or
the clock texts they started at. Ids are in the order of their counters while these have four
digits; clock texts start over every day. -/

namespace Relux

/-- The text of a number below a hundred, `{:02}`. -/
def pad2 (n : Nat) : List Char := [Nat.digitChar (n / 10), Nat.digitChar (n % 10)]

def renderClock (secs : Nat) : String :=
  let s := secs % 60
  let mins := (secs / 60) % 60
  let hours := (secs / 3600) % 24
  String.ofList ("2026-06-08T".toList ++ (pad2 hours ++ ':' :: (pad2 mins ++
    ':' :: (pad2 s ++ ['Z']))))

variable {n : Nat}

theorem pad2_decimal (h : n < 100) : Decimal (pad2 n) := by
  intro c hc
  simp only [pad2, List.mem_cons, List.not_mem_nil, or_false] at hc
  rcases hc with rfl | rfl
  · exact ⟨n / 10, by omega, rfl⟩
  · exact ⟨n % 10, by omega, rfl⟩

theorem decimalValue_pad2 (h : n < 100) : decimalValue (pad2 n) = n := by
  simp only [pad2, decimalValue, List.reverse_cons, List.reverse_nil, List.nil_append,
    List.cons_append, List.map_cons, List.map_nil, charDigit_digitChar (Nat.mod_lt n (by omega)),
    charDigit_digitChar (d := n / 10) (by omega), Nat.ofDigits_cons, Nat.ofDigits_nil]
  omega

theorem pad2_append_lt_iff {m : Nat} {u v : List Char} (hm : m < 100) (hn : n < 100) :
    pad2 m ++ u < pad2 n ++ v ↔ m < n ∨ m = n ∧ u < v := by
  have heq : pad2 m = pad2 n ↔ m = n := by
    refine ⟨fun h => ?_, fun h => by rw [h]⟩
    rw [← decimalValue_pad2 hm, h, decimalValue_pad2 hn]
  rw [append_lt_append_iff (s := pad2 m) (t := pad2 n) rfl,
    (pad2_decimal hm).lt_iff (pad2_decimal hn) rfl, decimalValue_pad2 hm, decimalValue_pad2 hn, heq]

theorem renderClock_lt_iff (a b : Nat) :
    renderClock a < renderClock b ↔ a % 86400 < b % 86400 := by
  have hcons : ∀ u v : List Char, ':' :: u < ':' :: v ↔ u < v := by
    intro u v
    rw [List.cons_lt_cons_iff, or_iff_right (Char.lt_irrefl ':'), and_iff_right rfl]
  have hend : ¬ ['Z'] < ['Z'] := List.lt_irrefl ['Z']
  have hhour : ∀ n, n % 24 < 100 := fun n => by omega
  have hsixty : ∀ n, n % 60 < 100 := fun n => by omega
  rw [String.lt_iff]
  unfold renderClock
  simp only [String.toList_ofList]
  rw [append_lt_append_left_iff, pad2_append_lt_iff (hhour _) (hhour _), hcons,
    pad2_append_lt_iff (hsixty _) (hsixty _), hcons, pad2_append_lt_iff (hsixty _) (hsixty _)]
  simp only [hend, and_false, or_false]
  omega

namespace KernelState

def RunNumber (s : KernelState) (p : Run → Prop) (n : Nat) : Prop :=
  ∃ run, s.runs.get? (runIdOf n) = some run ∧ p run

def MostRecent (s : KernelState) (p : Run → Prop) (r : RunId) : Prop :=
  ∃ n, r = runIdOf n ∧ s.RunNumber p n ∧ ∀ m, s.RunNumber p m → m ≤ n

def Greatest (s : KernelState) (p : Run → Prop) (r : RunId) : Prop :=
  ∃ n, r = runIdOf n ∧ s.RunNumber p n ∧ ∀ m, s.RunNumber p m → runIdOf m ≤ runIdOf n

def Leads (s : KernelState) (wanted candidate : Run → Prop) : Prop :=
  ∀ n, s.MostRecent wanted (runIdOf n) → ∀ m, s.RunNumber candidate m → m ≠ n → IdBefore m n

end KernelState

open KernelState (RunNumber MostRecent Greatest Leads)

theorem runIdOf_inj {m : Nat} (h : runIdOf m = runIdOf n) : m = n := mintedId_inj h

variable {s : KernelState} {t : TaskId} {p : Run → Prop}

theorem KernelState.Timed.runNumber_le (h : s.Timed) (hn : s.RunNumber p n) :
    0 < n ∧ n ≤ s.nextRun := by
  obtain ⟨start, -, -, hstamp⟩ := h
  obtain ⟨run, hget, -⟩ := hn
  obtain ⟨-, k, hk, h0, hle, -⟩ := hstamp _ run hget
  obtain rfl := runIdOf_inj hk
  exact ⟨h0, hle⟩

theorem KernelState.Timed.exists_mostRecent (h : s.Timed) (hn : s.RunNumber p n) :
    ∃ N, s.MostRecent p (runIdOf N) := by
  classical
  have hle : ∀ m, s.RunNumber p m → m ≤ s.nextRun := fun m hm => (h.runNumber_le hm).2
  refine ⟨Nat.findGreatest (s.RunNumber p) s.nextRun, _, rfl,
    Nat.findGreatest_spec (hle n hn) hn, fun m hm => Nat.le_findGreatest (hle m hm) hm⟩

theorem mostRecent_iff : s.MostRecent p (runIdOf n) ↔
    s.RunNumber p n ∧ ∀ m, s.RunNumber p m → m ≤ n := by
  constructor
  · rintro ⟨k, hk, h⟩
    obtain rfl := runIdOf_inj hk
    exact h
  · exact fun h => ⟨n, rfl, h⟩

theorem greatest_iff_leads (h : s.Timed) {wanted candidate : Run → Prop}
    (hsub : ∀ run, wanted run → candidate run)
    (hsome : ∀ n, s.RunNumber candidate n → ∃ m, s.RunNumber wanted m) :
    (∀ r, s.Greatest candidate r ↔ s.MostRecent wanted r) ↔ s.Leads wanted candidate := by
  have hcandidate : ∀ n, s.RunNumber wanted n → s.RunNumber candidate n :=
    fun n ⟨run, hget, hp⟩ => ⟨run, hget, hsub run hp⟩
  constructor
  · intro hiff n hn m hm hne
    obtain ⟨k, hk, -, hmax⟩ := (hiff _).mpr hn
    obtain rfl := runIdOf_inj hk
    have hlt : runIdOf m < runIdOf n := lt_of_le_of_ne (hmax m hm) fun he => hne (runIdOf_inj he)
    exact ((mintedId_lt_iff "run_" m n).mp hlt).2
  · intro hlead r
    have hgreatest : ∀ n, s.MostRecent wanted (runIdOf n) → s.Greatest candidate (runIdOf n) := by
      intro n hn
      refine ⟨n, rfl, hcandidate n (mostRecent_iff.mp hn).1, fun m hm => ?_⟩
      by_cases hne : m = n
      · rw [hne]
      · exact ((mintedId_lt_iff "run_" m n).mpr ⟨hne, hlead n hn m hm hne⟩).le
    constructor
    · rintro ⟨n, rfl, hn, hmax⟩
      obtain ⟨m, hm⟩ := hsome n hn
      obtain ⟨N, hN⟩ := h.exists_mostRecent hm
      obtain ⟨k, hk, hNc, hmaxN⟩ := hgreatest N hN
      obtain rfl := runIdOf_inj hk
      rw [le_antisymm (hmaxN n hn) (hmax N hNc)]
      exact hN
    · rintro ⟨n, rfl, hn⟩
      exact hgreatest n (mostRecent_iff.mpr hn)

theorem mem_ids_iff (h : s.Timed) {f : Run → Bool} (hf : ∀ run, f run = true ↔ p run) {id : RunId} :
    id ∈ (s.runs.values.filter f).map (·.id) ↔ ∃ n, id = runIdOf n ∧ s.RunNumber p n := by
  obtain ⟨start, -, -, hstamp⟩ := h
  simp only [List.mem_map, List.mem_filter, HashMap.mem_values]
  constructor
  · rintro ⟨run, ⟨⟨key, hget⟩, hrun⟩, rfl⟩
    obtain ⟨hid, n, rfl, -⟩ := hstamp key run hget
    exact ⟨n, hid, run, hget, (hf run).mp hrun⟩
  · rintro ⟨n, rfl, run, hget, hp⟩
    exact ⟨run, ⟨⟨_, hget⟩, (hf run).mpr hp⟩, (hstamp _ run hget).1⟩

theorem greatest_ids_iff (h : s.Timed) {f : Run → Bool} (hf : ∀ run, f run = true ↔ p run)
    (r : RunId) :
    (r ∈ (s.runs.values.filter f).map (·.id) ∧
        ∀ id ∈ (s.runs.values.filter f).map (·.id), id ≤ r) ↔ s.Greatest p r := by
  rw [mem_ids_iff h hf]
  constructor
  · rintro ⟨⟨n, rfl, hn⟩, hmax⟩
    exact ⟨n, rfl, hn, fun m hm => hmax _ ((mem_ids_iff h hf).mpr ⟨m, rfl, hm⟩)⟩
  · rintro ⟨n, rfl, hn, hmax⟩
    refine ⟨⟨n, rfl, hn⟩, fun id hid => ?_⟩
    obtain ⟨m, rfl, hm⟩ := (mem_ids_iff h hf).mp hid
    exact hmax m hm

theorem latestRunOf_iff (h : s.Timed) (r : RunId) :
    latestRunOf s t = some r ↔ s.Greatest (·.taskId = t) r :=
  (foldl_newest_iff _ r).trans (greatest_ids_iff h (fun _ => beq_iff_eq) r)

theorem newestRunId_iff (h : s.Timed) (r : RunId) :
    newestRunId s = some r ↔ s.Greatest (fun _ => True) r := by
  have hall := greatest_ids_iff h (f := fun _ => true) (p := fun _ => True)
    (fun _ => ⟨fun _ => trivial, fun _ => rfl⟩) r
  rw [List.filter_true] at hall
  exact (foldl_newest_iff _ r).trans hall

theorem newestRunOf_iff (h : s.Timed) {run : Run} (hrun : run ∈ s.runs.values) :
    newestRunOf s run = true ↔ s.Greatest (·.taskId = run.taskId) run.id := by
  have hself : run ∈ s.runs.values.filter (fun r => r.taskId == run.taskId) :=
    List.mem_filter.mpr ⟨hrun, beq_self_eq_true run.taskId⟩
  rw [← greatest_ids_iff h (f := fun r => r.taskId == run.taskId) (fun _ => beq_iff_eq),
    and_iff_right (List.mem_map_of_mem hself)]
  simp only [newestRunOf, List.all_eq_true, Bool.or_eq_true, bne_iff_ne, decide_eq_true_eq,
    List.forall_mem_map, List.mem_filter, beq_iff_eq, ne_eq, and_imp]
  exact forall₂_congr fun r _ => Decidable.imp_iff_not_or.symm

def RunsOf (t : TaskId) (run : Run) : Prop := run.taskId = t ∧ run.status = .running

def KernelState.ClocksLead (s : KernelState) (start : Nat → Nat) (t : TaskId) : Prop :=
  ∀ n, s.MostRecent (RunsOf t) (runIdOf n) → ∀ m, s.RunNumber (RunsOf t) m → m ≠ n →
    start m % 86400 < start n % 86400

variable {start : Nat → Nat}

theorem KernelState.Starts.startKey (h : s.Starts start) {run : Run}
    (hget : s.runs.get? (runIdOf n) = some run) : startKey run = start n % 86400 + 1 := by
  obtain ⟨-, k, hk, -, -, hs⟩ := h.2.2 _ run hget
  obtain rfl := runIdOf_inj hk
  rw [Relux.startKey, hs]

theorem latestStarted_max {runs : List Run} {r : Run} (h : latestStarted runs = some r) :
    ∀ r' ∈ runs, startKey r' ≤ startKey r := by
  induction runs generalizing r with
  | nil => cases h
  | cons x rest ih =>
    simp only [latestStarted] at h
    intro r' hr'
    rw [List.mem_cons] at hr'
    cases hrest : latestStarted rest with
    | none =>
      rw [hrest] at h
      cases h
      rcases hr' with rfl | hr'
      · exact le_refl _
      · cases rest with
        | nil => cases hr'
        | cons y rest =>
          simp only [latestStarted] at hrest
          repeat' split at hrest
          all_goals cases hrest
    | some best =>
      rw [hrest] at h
      have hmax := ih hrest
      dsimp only at h
      split at h
      next hlt =>
        cases h
        rcases hr' with rfl | hr'
        · exact le_refl _
        · exact (hmax r' hr').trans hlt.le
      next hge =>
        cases h
        rcases hr' with rfl | hr'
        · exact not_lt.mp hge
        · exact hmax r' hr'

theorem latestStarted_some {runs : List Run} {r : Run} (h : r ∈ runs) :
    ∃ best, latestStarted runs = some best := by
  cases runs with
  | nil => cases h
  | cons x rest =>
    simp only [latestStarted]
    repeat' split
    all_goals exact ⟨_, rfl⟩

theorem KernelState.MostRecent.unique {r r' : RunId} (h : s.MostRecent p r)
    (h' : s.MostRecent p r') : r = r' := by
  obtain ⟨n, rfl, hn, hmax⟩ := h
  obtain ⟨n', rfl, hn', hmax'⟩ := h'
  rw [le_antisymm (hmax' n hn) (hmax n' hn')]

theorem activeRun_iff (h : s.Starts start) :
    (∀ runs : HashMap RunId Run, (∀ r, runs.get? r = s.runs.get? r) → ∀ r,
      activeRun { s with runs := runs } t = some r ↔ s.MostRecent (RunsOf t) r) ↔
      s.ClocksLead start t := by
  have hstamp := h.2.2
  have hmem : ∀ {runs : HashMap RunId Run} {run}, (∀ r, runs.get? r = s.runs.get? r) →
      (run ∈ runs.values.filter (fun r => r.taskId == t && r.status == .running) ↔
        (∃ k, s.runs.get? k = some run) ∧ RunsOf t run) := by
    intro runs run hsame
    simp only [List.mem_filter, HashMap.mem_values, hsame, RunsOf, Bool.and_eq_true, beq_iff_eq]
  constructor
  · rintro hiff n hn m ⟨run', hget', hp⟩ hne
    by_contra hnot
    obtain ⟨run, hget, hp₀⟩ := (mostRecent_iff.mp hn).1
    -- Walked first, the run started last gives way to one with an equal or later text.
    have hsame : ∀ r, (s.runs.insert (runIdOf n) run).get? r = s.runs.get? r := by
      intro r
      rw [HashMap.get?_insert]
      split
      next he => rw [he, hget]
      · rfl
    have hrest : run' ∈ (s.runs.remove (runIdOf n)).values.filter
        (fun r => r.taskId == t && r.status == .running) := by
      have hkept : (s.runs.remove (runIdOf n)).get? (runIdOf m) = some run' := by
        rw [HashMap.get?_remove, if_neg (fun he => hne (runIdOf_inj he)), hget']
      rw [List.mem_filter, HashMap.mem_values, Bool.and_eq_true, beq_iff_eq, beq_iff_eq]
      exact ⟨⟨_, hkept⟩, hp⟩
    obtain ⟨best, hbest⟩ := latestStarted_some hrest
    have hactive : activeRun { s with runs := s.runs.insert (runIdOf n) run } t =
        some best.id := by
      have hlate : ¬ startKey best < startKey run := by
        have hmax := latestStarted_max hbest run' hrest
        rw [h.startKey hget'] at hmax
        rw [h.startKey hget]
        omega
      have hpass : (run.taskId == t && run.status == .running) = true := by
        rw [Bool.and_eq_true, beq_iff_eq, beq_iff_eq]
        exact hp₀
      simp only [activeRun, HashMap.values_insert, List.filter_cons, hpass, if_true,
        latestStarted, hbest, if_neg hlate, Option.map_some]
    have hwrong := ((hiff _ hsame _).mp hactive).unique hn
    have hstored := (List.mem_filter.mp (latestStarted_mem hbest)).1
    obtain ⟨k, hk⟩ := HashMap.mem_values.mp hstored
    rw [HashMap.get?_remove] at hk
    split at hk
    · cases hk
    next hkn => exact hkn ((hstamp k best hk).1.symm.trans hwrong)
  · intro hlead runs hsame r
    have hchosen : ∀ best, latestStarted (runs.values.filter
        (fun r => r.taskId == t && r.status == .running)) = some best →
        s.MostRecent (RunsOf t) best.id := by
      intro best hbest
      obtain ⟨⟨k, hk⟩, hp⟩ := (hmem hsame).mp (latestStarted_mem hbest)
      obtain ⟨hid, n, rfl, -⟩ := hstamp k best hk
      obtain ⟨N, hN⟩ := KernelState.Timed.exists_mostRecent ⟨start, h⟩ ⟨best, hk, hp⟩
      obtain ⟨run, hget, hpN⟩ := (mostRecent_iff.mp hN).1
      by_cases hne : n = N
      · rw [hid, hne]
        exact hN
      · have hlt := hlead N hN n ⟨best, hk, hp⟩ hne
        have hle := latestStarted_max hbest run ((hmem hsame).mpr ⟨⟨_, hget⟩, hpN⟩)
        rw [h.startKey hget, h.startKey hk] at hle
        omega
    unfold activeRun
    constructor
    · intro hr
      obtain ⟨best, hbest, rfl⟩ := Option.map_eq_some_iff.mp hr
      exact hchosen best hbest
    · intro hr
      obtain ⟨n, rfl, ⟨run, hget, hp⟩, -⟩ := id hr
      obtain ⟨best, hbest⟩ := latestStarted_some ((hmem hsame).mpr ⟨⟨_, hget⟩, hp⟩)
      rw [hbest, Option.map_some, (hchosen best hbest).unique hr]

/-- Every selection of a newest run for the task finds the run started last: a brief's step and the
task's recovery by id, an execution among the running runs in any order, and a retry by id over all
runs once its attempt is over. -/
structure SelectsNewest (w : World) (s : KernelState) (t : TaskId) : Prop where
  brief : ∀ r, latestRunOf s t = some r ↔ s.MostRecent (·.taskId = t) r
  newest : ∀ run ∈ s.runs.values, run.taskId = t →
    (newestRunOf s run = true ↔ s.MostRecent (·.taskId = t) run.id)
  active : ∀ runs : HashMap RunId Run, (∀ r, runs.get? r = s.runs.get? r) → ∀ r,
    activeRun { s with runs := runs } t = some r ↔ s.MostRecent (RunsOf t) r
  retry : ∀ failed, retryTarget s failed = some t → ∀ r,
    newestRunId (executeAssignedRun w (requeue s t) t).2 = some r ↔
      (executeAssignedRun w (requeue s t) t).2.MostRecent (·.taskId = t) r

/-- The texts are in the order of the starts: the ids of the task's runs, the clock texts of its
running runs, and, where a retry is accepted, the ids of all runs against the one it starts, or
against the task's last where it starts none. -/
structure NewestOrdered (s : KernelState) (start : Nat → Nat) (t : TaskId) : Prop where
  ids : s.Leads (·.taskId = t) (·.taskId = t)
  clocks : s.ClocksLead start t
  retry : ∀ failed, retryTarget s failed = some t →
    if startable s t then ∀ m, s.RunNumber (fun _ => True) m → IdBefore m (s.nextRun + 1)
    else s.Leads (·.taskId = t) (fun _ => True)

theorem runNumber_task (s : KernelState) (t : TaskId) (n : Nat) :
    s.RunNumber (·.taskId = t) n ↔ s.taskOf (runIdOf n) = some t := by
  simp only [KernelState.RunNumber, KernelState.taskOf, Option.map_eq_some_iff]

theorem runNumber_any (s : KernelState) (n : Nat) :
    s.RunNumber (fun _ => True) n ↔ (s.taskOf (runIdOf n)).isSome = true := by
  simp only [KernelState.RunNumber, KernelState.taskOf, Option.isSome_map, and_true,
    Option.isSome_iff_exists]

variable (w : World)

theorem requeued_leads (hk : s.Keyed) (h : s.Timed) {failed : RunId}
    (htarget : retryTarget s failed = some t) :
    (executeAssignedRun w (requeue s t) t).2.Leads (·.taskId = t) (fun _ => True) ↔
      if startable s t then ∀ m, s.RunNumber (fun _ => True) m → IdBefore m (s.nextRun + 1)
      else s.Leads (·.taskId = t) (fun _ => True) := by
  obtain ⟨htaskOf, hnext⟩ := requeued_taskOf w hk htarget
  generalize (executeAssignedRun w (requeue s t) t).2 = after at htaskOf hnext ⊢
  cases hstart : startable s t with
  | false =>
    simp only [hstart, Bool.false_eq_true, if_false] at htaskOf ⊢
    simp only [KernelState.Leads, mostRecent_iff, runNumber_task, runNumber_any, htaskOf]
  | true =>
    simp only [hstart, if_true] at htaskOf ⊢
    have hfresh : ∀ n, s.RunNumber (fun _ => True) n → runIdOf n ≠ s.board.freshRun := by
      intro n hn he
      have hle := (h.runNumber_le hn).2
      have hnum : n = s.nextRun + 1 := runIdOf_inj he
      omega
    have hany : ∀ n, after.RunNumber (fun _ => True) n ↔
        n = s.nextRun + 1 ∨ s.RunNumber (fun _ => True) n := by
      intro n
      rw [runNumber_any, runNumber_any, htaskOf, Function.update_apply]
      split
      next he => exact iff_of_true rfl (.inl (runIdOf_inj he))
      next hne => exact (or_iff_right (fun he : n = s.nextRun + 1 => hne (he ▸ rfl))).symm
    have hlast : after.MostRecent (·.taskId = t) (runIdOf (s.nextRun + 1)) := by
      refine mostRecent_iff.mpr ⟨?_, fun m hm => ?_⟩
      · rw [runNumber_task, htaskOf]
        exact Function.update_self _ _ _
      · have hm' : after.RunNumber (fun _ => True) m :=
          (runNumber_any after m).mpr ((runNumber_task after t m).mp hm ▸ rfl)
        rcases (hany m).mp hm' with rfl | hold
        · exact le_refl _
        · exact Nat.le_succ_of_le (h.runNumber_le hold).2
    constructor
    · intro hlead m hm
      exact hlead _ hlast m ((hany m).mpr (.inr hm)) fun he => hfresh m hm (he ▸ rfl)
    · intro hbefore n hn m hm hne
      obtain rfl := runIdOf_inj (hn.unique hlast)
      exact hbefore m (((hany m).mp hm).resolve_left hne)

theorem selectsNewest_iff (hk : s.Keyed) (hstarts : s.Starts start) :
    SelectsNewest w s t ↔ NewestOrdered s start t := by
  have h : s.Timed := ⟨start, hstarts⟩
  have hids := @greatest_iff_leads s h (·.taskId = t) (·.taskId = t) (fun _ hp => hp)
    (fun n hn => ⟨n, hn⟩)
  have hafter : (executeAssignedRun w (requeue s t) t).2.Timed :=
    ((requeue_works s t).trans (executeAssignedRun_works w _ t)).timed h
  have hretry : ∀ failed, retryTarget s failed = some t →
      ((∀ r, newestRunId (executeAssignedRun w (requeue s t) t).2 = some r ↔
        (executeAssignedRun w (requeue s t) t).2.MostRecent (·.taskId = t) r) ↔
      if startable s t then ∀ m, s.RunNumber (fun _ => True) m → IdBefore m (s.nextRun + 1)
      else s.Leads (·.taskId = t) (fun _ => True)) := by
    intro failed htarget
    have hof : s.taskOf failed = some t := by
      rw [KernelState.taskOf_board, (retryTarget_iff.mp htarget).1, Option.map_some]
    obtain ⟨run, hget, htask⟩ := Option.map_eq_some_iff.mp hof
    obtain ⟨-, n, rfl, -⟩ := hstarts.2.2 failed run hget
    -- The failed run is of the task, so the task has a last run.
    have hsome : (executeAssignedRun w (requeue s t) t).2.RunNumber (·.taskId = t) n := by
      rw [runNumber_task, (requeued_taskOf w hk htarget).1]
      split
      · rw [Function.update_apply]
        split
        · rfl
        · exact hof
      · exact hof
    have hiff := @greatest_iff_leads _ hafter (·.taskId = t) (fun _ => True)
      (fun _ _ => trivial) (fun _ _ => ⟨n, hsome⟩)
    simp only [newestRunId_iff hafter]
    exact hiff.trans (requeued_leads w hk h htarget)
  constructor
  · intro hsel
    refine ⟨hids.mp fun r => ?_, (activeRun_iff hstarts).mp hsel.active,
      fun failed htarget => (hretry failed htarget).mp (hsel.retry failed htarget)⟩
    rw [← latestRunOf_iff h]
    exact hsel.brief r
  · intro hord
    have hgreatest := hids.mpr hord.ids
    refine ⟨fun r => ?_, fun run hrun htask => ?_, (activeRun_iff hstarts).mpr hord.clocks,
      fun failed htarget => (hretry failed htarget).mpr (hord.retry failed htarget)⟩
    · rw [latestRunOf_iff h]
      exact hgreatest r
    · rw [newestRunOf_iff h hrun, htask]
      exact hgreatest run.id

theorem newestOrdered_early (h : s.Starts start) (hnext : s.nextRun < 9999)
    (hclock : s.clock ≤ 86400)
    (hstart : ∀ failed, retryTarget s failed = some t → startable s t = true) :
    NewestOrdered s start t := by
  have hnumber : ∀ {p n}, s.RunNumber p n → 0 < n ∧ n ≤ s.nextRun :=
    fun hn => KernelState.Timed.runNumber_le ⟨start, h⟩ hn
  have hlead : ∀ p, s.Leads p p := by
    intro p n hn m hm hne
    have hle := (mostRecent_iff.mp hn).2 m hm
    have hn9 := (hnumber (mostRecent_iff.mp hn).1).2
    exact idBefore_of_lt (lt_of_le_of_ne hle hne) (by omega)
  refine ⟨hlead _, fun n hn m hm hne => ?_, fun failed htarget => ?_⟩
  · have hlt : m < n := lt_of_le_of_ne ((mostRecent_iff.mp hn).2 m hm) hne
    have hnle := hnumber (mostRecent_iff.mp hn).1
    have hticks := h.1 m n (hnumber hm).1 hlt hnle.2
    have hday := h.2.1 n hnle.1 hnle.2
    omega
  · rw [if_pos (hstart failed htarget)]
    intro m hm
    exact idBefore_of_lt (Nat.lt_succ_of_le (hnumber hm).2) (by omega)

structure KernelState.Chronicled (s : KernelState) : Prop where
  keyed : s.Keyed
  timed : s.Timed

theorem linkRetry_timed (h : s.Timed) (new r : RunId) (ok : Bool) :
    (linkRetry w s new r ok).Timed := by
  have hlinked := h.setRun new (fun e => { e with retriedFrom := some r }) (fun _ => rfl)
  have hreplan : ∀ {s : KernelState}, s.Timed → (replanRetry w s new).Timed := by
    intro s h
    unfold replanRetry
    split
    · exact h
    · split
      · exact h
      · split
        · exact h.setRun new _ (fun _ => rfl)
        · exact h
  exact ((pushRunEvent_works w _ _ _ _ _).trans
    (recordAudit_works _ _ _ _ _ _ _)).timed (hreplan hlinked)

theorem retryRun_timed (h : s.Timed) (r : RunId) : (retryRun w s r).2.Timed := by
  cases htarget : retryTarget s r with
  | none =>
    obtain ⟨e, he⟩ := retryRun_refused htarget
    rw [he]
    exact h
  | some t =>
    have hafter := ((requeue_works s t).trans (executeAssignedRun_works w _ t)).timed h
    rw [retryRun_accepted w htarget, linkNewest]
    split
    · exact hafter
    · exact linkRetry_timed w hafter _ _ _

theorem retries_chronicled (h : s.Chronicled) (runIds : List RunId) :
    (runIds.foldl (afterRetry w) s).Chronicled := by
  induction runIds generalizing s with
  | nil => exact h
  | cons r rest ih =>
    obtain ⟨action, target, id, result, hafter⟩ := DuringRetries.afterRetry_audit w s r
    obtain ⟨moves, htrace, -⟩ := retryRun_trace w s h.keyed r
    have hkeyed := ((htrace.andThen (tickAudit_trace _ action target id result)).keyed h.keyed)
    have htimed : (tickAudit (retryRun w s r).2 action target id result).Timed :=
      (recordAudit_works _ _ _ _ _ _ _).timed (retryRun_timed w h.timed r)
    rw [List.foldl_cons, hafter]
    exact ih ⟨hkeyed, htimed⟩

theorem oneAutonomyTick_timed (h : s.Chronicled) :
    (oneAutonomyTick w s).Timed := by
  unfold oneAutonomyTick
  dsimp only
  split
  · exact h.timed.of_get? (fun _ => rfl) rfl (Nat.le_add_right s.clock 2)
  · split
    · exact h.timed.of_get? (fun _ => rfl) rfl (Nat.le_add_right s.clock 2)
    · have htick : s.tick.Chronicled :=
        ⟨⟨h.keyed.task, h.keyed.run⟩, (tick_works s).timed h.timed⟩
      have hretried := retries_chronicled w htick (tickRetries w s.tick)
      have hdone := (secondPass_upholds w s.tick hretried.keyed).2.timed hretried.timed
      exact hdone.of_get? (fun _ => rfl) rfl (Nat.le_refl _)

theorem KernelOp.exec_chronicled (p : ControlPlane) (op : KernelOp)
    (h : p.kernel.Chronicled) : (op.exec w p).kernel.Chronicled := by
  refine ⟨(op.exec_orchestrations w p h.keyed).1, ?_⟩
  cases hretries : op.retries with
  | false => exact (op.exec_upholds w p h.timed.minted hretries).timed h.timed
  | true =>
    cases op with
    | run op =>
      cases op with
      | retryRun r => exact retryRun_timed w h.timed r
      | _ => cases hretries
    | background op =>
      cases op with
      | oneAutonomyTick => exact oneAutonomyTick_timed w h
      | _ => cases hretries
    | _ => cases hretries

/-- What the kernel does: an operation, or a step of an orchestration, which takes a brief or
settles one whose process is done. -/
inductive Activity where
  | operation (op : KernelOp)
  | prepare (id : OrchestrationId) (roundNo : Nat) (brief : Nat × TaskId × AgentId)
      (prep : RoundPrep) (result : OrchestrationBatchResult)
  | finalize (id : OrchestrationId) (brief : PreparedBrief)
      (outcome : Except String AdapterRunOutcome) (result : OrchestrationBatchResult)

def Activity.exec (w : World) (p : ControlPlane) : Activity → ControlPlane
  | .operation op => op.exec w p
  | .prepare id roundNo brief prep result =>
    p.withKernel (prepareBrief w p.kernel id roundNo brief prep result).1
  | .finalize id brief outcome result =>
    p.withKernel (finalizePreparedBrief w p.kernel id brief outcome result).1

def afterActivities (activities : List (World × Activity)) : KernelState :=
  (Transition.run (fun p e => e.2.exec e.1 p) (ControlPlane.of KernelState.new) activities).kernel

structure Continues (s s' : KernelState) : Prop extends Upholds s s' where
  keyed : s.Keyed → s'.Keyed

theorem Continues.trans {s s' s'' : KernelState} (h : Continues s s') (h' : Continues s' s'') :
    Continues s s'' := ⟨h.toUpholds.trans h'.toUpholds, h'.keyed ∘ h.keyed⟩

theorem KernelState.Chronicled.continue {s s' : KernelState} (h : s.Chronicled)
    (hc : Continues s s') : s'.Chronicled := ⟨hc.keyed h.keyed, hc.timed h.timed⟩

theorem tick_continues (s : KernelState) : Continues s s.tick :=
  ⟨(tick_works s).toUpholds, fun hk => ⟨hk.task, hk.run⟩⟩

theorem startRun_continues (s : KernelState) (t : TaskId) :
    Continues s (startRun w s t).2 := by
  refine ⟨(startRun_works w s t).toUpholds, fun hk => ?_⟩
  rcases startRun_trace w s t rfl with ⟨-, htrace⟩ | ⟨-, htrace⟩
  · exact htrace.keyed hk
  · exact htrace.keyed hk

theorem recordBriefOutcome_continues (s : KernelState) (id : OrchestrationId) (a : Attempt)
    (exec : Except KernelError RunId) (finishedAt : Stamp) (r : OrchestrationBatchResult) :
    Continues s (recordBriefOutcome s.tick id a exec finishedAt r).1 :=
  ⟨.aside rfl rfl (Nat.le_succ s.clock), fun hk => ⟨hk.task, hk.run⟩⟩

theorem attemptBrief_continues (s : KernelState) (id : OrchestrationId)
    (a : Attempt) (adapter : Option PluginId) (prep : RoundPrep) (r : OrchestrationBatchResult) :
    Continues s (attemptBrief w s id a adapter prep r).1 := by
  cases adapter with
  | none =>
    have hdone : Continues s (executeAssignedRun w s a.taskId).2 := by
      refine ⟨(executeAssignedRun_works w s a.taskId).toUpholds, fun hk => ?_⟩
      obtain ⟨_, htrace, -⟩ := executeAssignedRun_trace w s hk a.taskId
      exact htrace.keyed hk
    exact hdone.trans (recordBriefOutcome_continues _ id a _ _ r)
  | some adapterId =>
    simp only [attemptBrief]
    split
    · have hdone : Continues s (executeLocalRun w s a.taskId).2 := by
        refine ⟨(executeLocalRun_works w s a.taskId).toUpholds, fun hk => ?_⟩
        obtain ⟨_, htrace, -⟩ := executeLocalRun_trace w s hk a.taskId
        exact htrace.keyed hk
      exact hdone.trans (recordBriefOutcome_continues _ id a _ _ r)
    · have hdone : Continues s (prepareCliRun w s a.taskId adapterId).2 := by
        refine ⟨(prepareCliRun_works w s a.taskId adapterId).toUpholds, fun hk => ?_⟩
        rcases @prepareCliRun_trace w s a.taskId adapterId _ hk _ rfl with
          ⟨htrace, -⟩ | ⟨-, -, _, -, htrace⟩
        · exact htrace.keyed hk
        · exact htrace.keyed hk
      split
      next s₁ hprepare =>
        rw [hprepare] at hdone
        exact hdone.trans (recordBriefOutcome_continues s₁ id a _ _ r)
      next plan s₁ hprepare =>
        rw [hprepare] at hdone
        exact hdone.trans ⟨.aside rfl rfl (Nat.le_refl _), fun hk => ⟨hk.task, hk.run⟩⟩

theorem prepareBrief_continues (s : KernelState) (id : OrchestrationId)
    (roundNo : Nat) (brief : Nat × TaskId × AgentId) (prep : RoundPrep)
    (r : OrchestrationBatchResult) :
    Continues s (prepareBrief w s id roundNo brief prep r).1 := by
  have hstart := (tick_continues s).trans (startRun_continues w s.tick brief.2.1)
  unfold prepareBrief
  dsimp only
  split
  · split
    · split
      next s₁ hs =>
        rw [hs] at hstart
        exact hstart.trans (recordBriefOutcome_continues s₁ id _ _ _ r)
      next s₁ hs =>
        rw [hs] at hstart
        exact hstart.trans (attemptBrief_continues w s₁ id _ _ prep _)
    · exact (tick_continues s).trans (attemptBrief_continues w s.tick id _ _ prep _)
  · exact (tick_continues s).trans (attemptBrief_continues w s.tick id _ _ prep _)

theorem finalizePreparedBrief_continues (s : KernelState) (id : OrchestrationId)
    (brief : PreparedBrief) (outcome : Except String AdapterRunOutcome)
    (r : OrchestrationBatchResult) :
    Continues s (finalizePreparedBrief w s id brief outcome r).1 := by
  have hdone : Continues s (finalizeCliRun w s brief.plan outcome).2 := by
    refine ⟨(finalizeCliRun_works w s brief.plan outcome).toUpholds, fun hk => ?_⟩
    obtain ⟨_, htrace, -⟩ := finalizeCliRun_trace w s brief.plan outcome
    exact htrace.keyed hk
  exact hdone.trans (recordBriefOutcome_continues _ id brief.attempt _ _ r)

theorem Activity.exec_chronicled (p : ControlPlane) (activity : Activity)
    (h : p.kernel.Chronicled) : (activity.exec w p).kernel.Chronicled := by
  cases activity with
  | operation op => exact op.exec_chronicled w p h
  | prepare id roundNo brief prep result =>
    exact h.continue (prepareBrief_continues w p.kernel id roundNo brief prep result)
  | finalize id brief outcome result =>
    exact h.continue (finalizePreparedBrief_continues w p.kernel id brief outcome result)

theorem afterActivities_chronicled (activities : List (World × Activity)) :
    (afterActivities activities).Chronicled := by
  have hstep : ∀ (p : ControlPlane) (e : World × Activity), p.kernel.Chronicled → True →
      (e.2.exec e.1 p).kernel.Chronicled := fun p e hp _ => e.2.exec_chronicled e.1 p hp
  have hnew : (ControlPlane.of KernelState.new).kernel.Chronicled := by
    refine ⟨KernelState.new_keyed, fun _ => 0, fun m n _ hmn hn => ?_, fun n h0 hn => ?_,
      fun r run hr => ?_⟩
    · exact absurd hn (by simp only [ControlPlane.of, KernelState.new]; omega)
    · exact absurd hn (by simp only [ControlPlane.of, KernelState.new]; omega)
    · simp [ControlPlane.of, KernelState.new] at hr
  exact Transition.invariant_run hstep hnew (Transition.guarded_true _ _ _)

/-- In every state the kernel reaches, clock texts are in the order of the second of the day, and
each selection finds the run started last exactly where the ids and these seconds are in the order
of the starts, as on the first day, with fewer than 9999 runs. -/
theorem newest_selection_iff (w : World) (activities : List (World × Activity)) :
    let s := afterActivities activities
    (∀ a b, renderClock a < renderClock b ↔ a % 86400 < b % 86400) ∧
    ∃ start, s.Starts start ∧ ∀ t, (SelectsNewest w s t ↔ NewestOrdered s start t) ∧
      (s.nextRun < 9999 → s.clock ≤ 86400 →
        (∀ failed, retryTarget s failed = some t → startable s t = true) →
          SelectsNewest w s t) := by
  intro s
  obtain ⟨hkeyed, start, hstarts⟩ := afterActivities_chronicled activities
  refine ⟨renderClock_lt_iff, start, hstarts, fun t => ?_⟩
  have hiff : SelectsNewest w s t ↔ NewestOrdered s start t := selectsNewest_iff w hkeyed hstarts
  exact ⟨hiff, fun hnext hclock hstart =>
    hiff.mpr (newestOrdered_early hstarts hnext hclock hstart)⟩

def startedOften (k : Nat) : List (World × Activity) :=
  openingOps.map (fun e => (e.1, .operation e.2)) ++
    List.replicate k (.silent, .operation (.run (.startRun "task_0001")))

theorem newest_selection_sample :
    SelectsNewest .silent (afterActivities (startedOften 2)) "task_0001" := by
  obtain ⟨-, start, -, hall⟩ := newest_selection_iff .silent (startedOften 2)
  exact (hall "task_0001").2 (by decide +kernel) (by decide +kernel)
    (fun _ _ => by decide +kernel)

theorem startedOften_runs (k : Nat) :
    startable (afterActivities (startedOften k)) "task_0001" = true ∧
      (afterActivities (startedOften k)).nextRun = k ∧
      ∀ n, 0 < n → n ≤ k →
        (afterActivities (startedOften k)).taskOf (runIdOf n) = some "task_0001" := by
  induction k with
  | zero => exact ⟨by decide +kernel, by decide +kernel, fun n h0 hn => by omega⟩
  | succ k ih =>
    obtain ⟨hstart, hnext, hruns⟩ := ih
    have hstep : afterActivities (startedOften (k + 1)) =
        (startRun .silent (afterActivities (startedOften k)) "task_0001").2 := by
      unfold afterActivities startedOften
      rw [List.replicate_succ', ← List.append_assoc, Transition.run_append]
      rfl
    obtain ⟨s', hs', htrace, hworks⟩ := startRun_of_startable .silent hstart
    rw [hstep, hs']
    refine ⟨?_, ?_, fun n h0 hn => ?_⟩
    · rw [startable_congr (congrArg Catalog.agents htrace.catalog)
        (congrFun hworks.works.brief "task_0001")]
      exact hstart
    · have hcount := congrArg Board.nextRun htrace.board
      exact hcount.trans (congrArg (· + 1) hnext)
    · have hrun : (Board.play (afterActivities (startedOften k)).board
          [.start "task_0001"]).run (runIdOf n) = _ :=
        Board.start_run (afterActivities (startedOften k)).board "task_0001" (runIdOf n)
      rw [KernelState.taskOf_board, htrace.board, hrun]
      split
      · rfl
      next hne =>
        rw [← KernelState.taskOf_board]
        refine hruns n h0 (Nat.lt_succ_iff.mp (lt_of_le_of_ne hn fun he => hne ?_))
        rw [he, Board.freshRun]
        exact congrArg (fun c => runIdOf (c + 1)) hnext.symm

/-- After ten thousand starts the last run is not the one with the greatest id. -/
theorem newest_selection_overflows :
    ¬ SelectsNewest .silent (afterActivities (startedOften 10000)) "task_0001" := by
  intro hsel
  obtain ⟨-, hnext, hruns⟩ := startedOften_runs 10000
  obtain ⟨hkeyed, start, hstarts⟩ := afterActivities_chronicled (startedOften 10000)
  generalize afterActivities (startedOften 10000) = s at *
  have hlead := ((selectsNewest_iff .silent hkeyed hstarts).mp hsel).ids
  have hlast : s.MostRecent (·.taskId = "task_0001") (runIdOf 10000) := by
    refine mostRecent_iff.mpr ⟨?_, fun m hm => ?_⟩
    · exact (runNumber_task s _ _).mpr (hruns 10000 (by omega) (le_refl _))
    · rw [← hnext]
      exact (KernelState.Timed.runNumber_le ⟨start, hstarts⟩ hm).2
  have hbefore := hlead 10000 hlast 9999
    ((runNumber_task s _ _).mpr (hruns 9999 (by omega) (by omega))) (by omega)
  simp [IdBefore, idWidth] at hbefore

end Relux
