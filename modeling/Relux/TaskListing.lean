import Mathlib.Data.String.Basic
import Mathlib.Data.Prod.Lex
import Relux.HashMap
import Relux.Keyset
import Relux.Numbers
import Relux.Text

/-! The listing of the tasks by pages, each from the cursor that came with the page before it. -/

namespace Relux.TaskListing

structure TaskSummary where
  taskId : String
  title : String
  status : String
  updatedAt : Int64
  investigationMarkedAt : Option Int64
  deriving DecidableEq

structure TaskCursor where
  updatedAt : Int64
  taskId : String
  deriving DecidableEq

structure TaskPage where
  items : List TaskSummary
  nextCursor : Option TaskCursor
  deriving DecidableEq

structure TaskTable where
  rows : HashMap String TaskSummary
  keyed : rows.KeyedBy (·.taskId)

structure TaskStore where
  tasks : TaskTable
  maxList : Nat

def TaskCursor.encode (c : TaskCursor) : String := toString c.updatedAt.toInt ++ ":" ++ c.taskId

def TaskCursor.parse (s : String) : Option TaskCursor :=
  match splitOnce ':' s.toList with
  | none => none
  | some (ts, tid) =>
    match parseI64 ts with
    | none => none
    | some updatedAt =>
      if tid.isEmpty then none else some ⟨Int64.ofInt updatedAt, String.ofList tid⟩

def after (cursor : Option TaskCursor) (t : TaskSummary) : Bool :=
  cursor.all (fun c => decide (t.updatedAt < c.updatedAt) ||
    (t.updatedAt == c.updatedAt && decide (t.taskId < c.taskId)))

def matchesFilter (statusFilter : Option String) (t : TaskSummary) : Bool :=
  statusFilter.all (fun status => t.status == status)

/-- `ORDER BY updated_at DESC, task_id DESC`. -/
def newestFirst (t u : TaskSummary) : Prop :=
  u.updatedAt < t.updatedAt ∨ (u.updatedAt = t.updatedAt ∧ u.taskId ≤ t.taskId)

instance (t u : TaskSummary) : Decidable (newestFirst t u) := inferInstanceAs (Decidable (_ ∨ _))

def TaskStore.listCursor (s : TaskStore) (cursor : Option TaskCursor) (limit : Nat)
    (statusFilter : Option String) : TaskPage :=
  let cap := max 1 (min limit s.maxList)
  let rows := s.tasks.rows.values.filter (fun t => matchesFilter statusFilter t && after cursor t)
  let items := (rows.insertionSort newestFirst).take cap
  ⟨items, items.getLast?.map (fun r => ⟨r.updatedAt, r.taskId⟩)⟩

structure Query where
  maxList : Nat
  limit : Nat
  statusFilter : Option String

def Query.page (q : Query) (cursor : Option TaskCursor) (tasks : TaskTable) : TaskPage :=
  TaskStore.listCursor ⟨tasks, q.maxList⟩ cursor q.limit q.statusFilter

/-- The pages of a listing, the table being at each request what the changes made of it: each
request has the cursor of the page before, and an empty page is the last. -/
def Query.pages (q : Query) : Option TaskCursor → List TaskTable → List TaskPage
  | _, [] => []
  | cursor, tasks :: tables =>
    let page := q.page cursor tasks
    page :: if page.items.isEmpty then [] else q.pages page.nextCursor tables

def returned (taskId : String) (pages : List TaskPage) : Nat :=
  ((pages.map (·.items)).flatten.map (·.taskId)).count taskId

def Query.Lasts (q : Query) (taskId : String) (tables : List TaskTable) : Prop :=
  ∀ tasks ∈ tables, ∃ row, tasks.rows.get? taskId = some row ∧
    matchesFilter q.statusFilter row = true

/-- No change between two requests takes the task across the cursor: from the rows that are still
to come to those that the listing is past, or back. -/
def Query.Undisturbed (q : Query) (taskId : String) : Option TaskCursor → List TaskTable → Prop
  | _, [] => True
  | cursor, tasks :: tables =>
    (q.page cursor tasks).items ≠ [] →
      (∀ tasks' ∈ tables.head?, ∀ row row', tasks.rows.get? taskId = some row →
        tasks'.rows.get? taskId = some row' →
        after (q.page cursor tasks).nextCursor row = after (q.page cursor tasks).nextCursor row') ∧
      q.Undisturbed taskId (q.page cursor tasks).nextCursor tables

def TaskSummary.key (t : TaskSummary) : Int ×ₗ String := toLex (t.updatedAt.toInt, t.taskId)

def TaskCursor.key (c : TaskCursor) : Int ×ₗ String := toLex (c.updatedAt.toInt, c.taskId)

theorem after_eq (cursor : Option TaskCursor) (t : TaskSummary) :
    after cursor t = decide (Keyset.Ahead (cursor.map TaskCursor.key) t.key) := by
  cases cursor with
  | none => exact (decide_eq_true (Keyset.ahead_none _)).symm
  | some c =>
    have hiff : Keyset.Ahead ((some c).map TaskCursor.key) t.key ↔ t.updatedAt < c.updatedAt ∨
        (t.updatedAt = c.updatedAt ∧ t.taskId < c.taskId) := by
      rw [Option.map_some, Keyset.ahead_some]
      unfold TaskSummary.key TaskCursor.key
      rw [Prod.Lex.toLex_lt_toLex, Int64.lt_iff_toInt_lt, ← Int64.toInt_inj]
    rw [Bool.eq_iff_iff, decide_eq_true_iff, hiff]
    unfold after
    rw [Option.all_some, Bool.or_eq_true, Bool.and_eq_true, decide_eq_true_iff,
      decide_eq_true_iff, beq_iff_eq]

theorem newestFirst_iff (t u : TaskSummary) : newestFirst t u ↔ u.key ≤ t.key := by
  unfold newestFirst TaskSummary.key
  rw [Prod.Lex.toLex_le_toLex, Int64.lt_iff_toInt_lt, ← Int64.toInt_inj]

def Query.rows (q : Query) (tasks : TaskTable) : List TaskSummary :=
  tasks.rows.values.filter (matchesFilter q.statusFilter)

def Query.size (q : Query) : Nat := max 1 (min q.limit q.maxList)

theorem page_items (q : Query) (cursor : Option TaskCursor) (tasks : TaskTable) :
    (q.page cursor tasks).items = Keyset.page TaskSummary.key (cursor.map TaskCursor.key) q.size
      (q.rows tasks) := by
  have hfilter : tasks.rows.values.filter
      (fun t => matchesFilter q.statusFilter t && after cursor t) =
      (q.rows tasks).filter (fun t =>
        decide (Keyset.Ahead (cursor.map TaskCursor.key) t.key)) := by
    unfold Query.rows
    rw [List.filter_filter]
    refine List.filter_congr (fun t _ => ?_)
    rw [after_eq, Bool.and_comm]
  have hsort : ∀ l : List TaskSummary, l.insertionSort newestFirst =
      l.insertionSort (fun t u => u.key ≤ t.key) := by
    intro l
    have h := List.map_insertionSort newestFirst (fun t u => u.key ≤ t.key) id l
      (fun t _ u _ => newestFirst_iff t u)
    simpa using h
  change ((tasks.rows.values.filter _).insertionSort newestFirst).take q.size = _
  rw [hfilter, hsort]
  rfl

theorem page_cursor (q : Query) (cursor : Option TaskCursor) (tasks : TaskTable) :
    (q.page cursor tasks).nextCursor.map TaskCursor.key =
      Keyset.reached TaskSummary.key (q.page cursor tasks).items := by
  change ((q.page cursor tasks).items.getLast?.map _).map TaskCursor.key = _
  rw [Option.map_map]
  rfl

theorem pages_items (q : Query) (tables : List TaskTable) : ∀ cursor : Option TaskCursor,
    (q.pages cursor tables).map (·.items) = Keyset.listing TaskSummary.key q.size
      (cursor.map TaskCursor.key) (tables.map q.rows) := by
  induction tables with
  | nil =>
    intro cursor
    rfl
  | cons tasks tables ih =>
    intro cursor
    have hrest := ih (q.page cursor tasks).nextCursor
    rw [page_cursor] at hrest
    simp only [Query.pages, List.map_cons, Keyset.listing, page_items] at hrest ⊢
    refine congrArg _ ?_
    split
    · rfl
    · exact hrest

theorem key_injective {t u : TaskSummary} (h : t.key = u.key) : t.taskId = u.taskId :=
  (Prod.mk.inj (toLex_inj.mp h)).2

variable {taskId : String} {q : Query} {tasks : TaskTable}

theorem rows_shows {row : TaskSummary}
    (hrow : tasks.rows.get? taskId = some row) (hmatch : matchesFilter q.statusFilter row = true) :
    Keyset.Shows TaskSummary.key (·.taskId) taskId (q.rows tasks) := by
  have hidents : ((q.rows tasks).map (·.taskId)).Nodup :=
    tasks.keyed.values_nodup.sublist (List.filter_sublist.map _)
  refine ⟨hidents, ?_, row, ?_, tasks.keyed taskId row hrow⟩
  · have hids := List.pairwise_map.mp hidents
    refine List.pairwise_map.mpr (hids.imp ?_)
    intro t u hne heq
    exact hne (key_injective heq)
  · exact List.mem_filter.mpr ⟨HashMap.mem_values.mpr ⟨taskId, hrow⟩, hmatch⟩

theorem get?_of_mem_rows {t : TaskSummary} (h : t ∈ q.rows tasks) :
    tasks.rows.get? t.taskId = some t := by
  obtain ⟨id, hid⟩ := HashMap.mem_values.mp (List.mem_filter.mp h).1
  have heq : t.taskId = id := tasks.keyed id t hid
  rw [heq]
  exact hid

variable {tables : List TaskTable}

theorem undisturbed_steady :
    ∀ {cursor : Option TaskCursor}, q.Undisturbed taskId cursor tables →
      Keyset.Steady TaskSummary.key (·.taskId) q.size taskId (cursor.map TaskCursor.key)
        (tables.map q.rows) := by
  induction tables with
  | nil =>
    intro cursor _
    trivial
  | cons tasks tables ih =>
    intro cursor h
    have hcursor := page_cursor q cursor tasks
    rw [page_items] at hcursor
    intro hne
    rw [← page_items] at hne
    obtain ⟨hsame, hrest⟩ := h hne
    rw [← hcursor]
    refine ⟨?_, ih hrest⟩
    intro rows hrows x hx y hy hidx hidy
    rw [List.head?_map] at hrows
    obtain ⟨tasks', htasks', rfl⟩ := Option.map_eq_some_iff.mp hrows
    change x.taskId = taskId at hidx
    change y.taskId = taskId at hidy
    have hrow := get?_of_mem_rows hx
    have hrow' := get?_of_mem_rows hy
    rw [hidx] at hrow
    rw [hidy] at hrow'
    have hafter := hsame tasks' htasks' x y hrow hrow'
    rw [after_eq, after_eq] at hafter
    exact decide_eq_decide.mp hafter

theorem colon_not_mem_toString (n : Int) : ':' ∉ (toString n).toList := by
  have hplain : ∀ m : Nat, ':' ∉ Nat.toDigits 10 m := by
    intro m hmem
    have hdigit := Nat.isDigit_of_mem_toDigits (by decide) (by decide) hmem
    exact absurd hdigit (by decide)
  rw [Int.toString_eq_repr, Int.repr_eq_if]
  split
  · rw [Nat.toList_repr]
    exact hplain _
  · rw [String.toList_append, Nat.toList_repr]
    intro hmem
    rcases List.mem_append.mp hmem with hsign | hdigits
    · exact absurd hsign (by decide)
    · exact hplain _ hdigits

theorem parse_encode_iff (c : TaskCursor) : TaskCursor.parse c.encode = some c ↔ c.taskId ≠ "" := by
  have htext : c.encode.toList = (toString c.updatedAt.toInt).toList ++ ':' :: c.taskId.toList := by
    unfold TaskCursor.encode
    rw [String.toList_append, String.toList_append, List.append_assoc]
    rfl
  have hmin := c.updatedAt.le_toInt
  have hmax := c.updatedAt.toInt_lt
  have hnumber : parseI64 (toString c.updatedAt.toInt).toList = some c.updatedAt.toInt :=
    parseI64_toString (by omega) (by omega)
  unfold TaskCursor.parse
  rw [htext, splitOnce_append (colon_not_mem_toString _)]
  simp only [hnumber, Int64.ofInt_toInt, String.ofList_toList]
  by_cases hid : c.taskId = ""
  · simp [hid]
  · have hne : ¬c.taskId.toList.isEmpty = true := by
      simpa using hid
    rw [if_neg hne]
    exact iff_of_true rfl hid

/-- In every listing that comes to an empty page, whatever changes the table between its requests, a
task that is there and matches the filter at every request, and that no change takes across the
cursor, is on exactly one page; and every cursor with a task id comes back from its text. -/
theorem listing_complete (q : Query) (taskId : String) (tables : List TaskTable)
    (hlasts : q.Lasts taskId tables) (hsteady : q.Undisturbed taskId none tables)
    (hdone : (q.pages none tables).getLast?.map (·.items) = some []) :
    returned taskId (q.pages none tables) = 1 ∧
      ∀ c : TaskCursor, TaskCursor.parse c.encode = some c ↔ c.taskId ≠ "" := by
  constructor
  · have hlast : (Keyset.listing TaskSummary.key q.size none (tables.map q.rows)).getLast? =
        some [] := by
      rw [← Option.map_none TaskCursor.key, ← pages_items, List.getLast?_map]
      exact hdone
    have hshows : ∀ rows ∈ tables.map q.rows,
        Keyset.Shows TaskSummary.key (·.taskId) taskId rows := by
      intro rows hrows
      obtain ⟨tasks, htasks, rfl⟩ := List.mem_map.mp hrows
      obtain ⟨row, hrow, hmatch⟩ := hlasts tasks htasks
      exact rows_shows hrow hmatch
    unfold returned
    rw [pages_items]
    cases tables with
    | nil => cases hdone
    | cons tasks tables =>
      obtain ⟨row, hrow, hmatch⟩ := hlasts tasks List.mem_cons_self
      have hmem : row ∈ q.rows tasks :=
        List.mem_filter.mpr ⟨HashMap.mem_values.mpr ⟨taskId, hrow⟩, hmatch⟩
      have hcount := Keyset.listing_count (by unfold Query.size; omega) hshows
        (undisturbed_steady hsteady) hlast (q.rows tasks) rfl row hmem (tasks.keyed taskId row hrow)
      exact hcount
  · exact parse_encode_iff

theorem undisturbed_of_untouched {updatedAt : Int64} : ∀ {cursor : Option TaskCursor},
    (∀ tasks ∈ tables, ∀ row, tasks.rows.get? taskId = some row → row.updatedAt = updatedAt) →
      q.Undisturbed taskId cursor tables := by
  induction tables with
  | nil =>
    intro cursor _
    trivial
  | cons tasks tables ih =>
    intro cursor h hne
    refine ⟨?_, ih (fun t ht => h t (List.mem_cons_of_mem _ ht))⟩
    intro tasks' htasks' row row' hrow hrow'
    have hsame : row.updatedAt = row'.updatedAt := (h tasks List.mem_cons_self row hrow).trans
      (h tasks' (List.mem_cons_of_mem _ (List.mem_of_mem_head? htasks')) row' hrow').symm
    have hid : row.taskId = row'.taskId :=
      (tasks.keyed taskId row hrow).trans (tasks'.keyed taskId row' hrow').symm
    unfold after
    rw [hsame, hid]

theorem no_rows_keyed : (HashMap.empty : HashMap String TaskSummary).KeyedBy (·.taskId) :=
  HashMap.KeyedBy.empty _

theorem write_keyed (tasks : TaskTable) (row : TaskSummary) :
    (tasks.rows.insert row.taskId row).KeyedBy (·.taskId) :=
  tasks.keyed.insert rfl

def noTasks : TaskTable := ⟨.empty, no_rows_keyed⟩

def TaskTable.write (tasks : TaskTable) (row : TaskSummary) : TaskTable :=
  ⟨tasks.rows.insert row.taskId row, write_keyed tasks row⟩

def summary (taskId : String) (updatedAt : Int64) : TaskSummary :=
  ⟨taskId, "title", "running", updatedAt, none⟩

def threeTasks : TaskTable :=
  ((noTasks.write (summary "t1" 10)).write (summary "t2" 20)).write (summary "t3" 30)

def oneByOne : Query := ⟨200, 1, some "running"⟩

def changing : List TaskTable :=
  [threeTasks, threeTasks.write (summary "t4" 40), threeTasks.write (summary "t2" 50), threeTasks]

def bumped : List TaskTable :=
  [threeTasks, threeTasks.write (summary "t1" 40), threeTasks.write (summary "t1" 40)]

theorem lasts_of_all (h : tables.all (fun tasks => (tasks.rows.get? taskId).any
      (matchesFilter q.statusFilter)) = true) : q.Lasts taskId tables := by
  intro tasks htasks
  exact (Option.any_eq_true _ _).mp (List.all_eq_true.mp h tasks htasks)

theorem listing_complete_sample : returned "t1" (oneByOne.pages none changing) = 1 ∧
    ∀ c : TaskCursor, TaskCursor.parse c.encode = some c ↔ c.taskId ≠ "" := by
  have hlasts : oneByOne.Lasts "t1" changing := lasts_of_all (by decide +kernel)
  have hstill : ∀ tasks ∈ changing, ∀ row, tasks.rows.get? "t1" = some row →
      row.updatedAt = 10 := by
    have hall : changing.all (fun tasks => (tasks.rows.get? "t1").all (fun row =>
        decide (row.updatedAt = 10))) = true := by decide +kernel
    intro tasks htasks row hrow
    have hrow' := List.all_eq_true.mp hall tasks htasks
    rw [hrow, Option.all_some] at hrow'
    exact of_decide_eq_true hrow'
  exact listing_complete oneByOne "t1" changing hlasts (undisturbed_of_untouched hstill)
    (by decide +kernel)

/-- A task that is there and matches all along is on no page of a listing that comes to its end,
for a change took it to the front after the first page; and a cursor without a task id does not
come back from its text. -/
theorem bumped_task_skipped : oneByOne.Lasts "t1" bumped ∧
    (oneByOne.pages none bumped).getLast?.map (·.items) = some [] ∧
    returned "t1" (oneByOne.pages none bumped) = 0 ∧
    TaskCursor.parse (TaskCursor.encode ⟨20, ""⟩) = none := by
  refine ⟨lasts_of_all ?_, ?_, ?_, ?_⟩
  all_goals decide +kernel

end Relux.TaskListing
