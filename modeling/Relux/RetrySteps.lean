import Relux.Chains
import Relux.RetryRows

/-! When the lane is in measure, what a retry knows from one step to the next, and what each of
its steps does to the lineages of retries. -/

namespace Relux.BriefRuns

open Chains (Chain Reaches Single Solitary Plus)
open Crowd (Runs Step Label Meets)

namespace RetryDesk

/-- The lane opened the run in the lineage of `root`. -/
def OpenedBelow (s : RetryDesk) (root x : String) : Prop :=
  x ∈ s.opened ∧ ∃ n, Chain s.Retried (n + 1) root x

def Gone (s : RetryDesk) (runId : String) : Prop :=
  (∀ row, s.runs.get? runId = some row → row.status ≠ "running") ∧
    ∀ id b, s.briefs.get? id = some b → b.names runId = false

/-- The lane stays within the budget of every run, no run is retried twice, and a retry that
gave up left no running run and no claim. -/
structure Bounded (s : RetryDesk) : Prop where
  budget : ∀ root row, s.runs.get? root = some row → ∀ l : List String, l.Nodup →
    (∀ x ∈ l, s.OpenedBelow root x) → (l.length : Int) ≤ max 0 row.budget
  once : ∀ source a b, s.Retried source a → s.Retried source b → a = b
  losers : ∀ runId ∈ s.lost, s.Gone runId

end RetryDesk

/-- The step is about the run `mine`: every other row is there as it was linked, no claim comes
to name a run of a retry, and no budget is lost. -/
structure RetryDesk.Passes (s s' : RetryDesk) (mine : Option String) : Prop where
  back : ∀ id row', s'.runs.get? id = some row' → mine ≠ some id →
    ∃ row, s.runs.get? id = some row ∧ row'.retriedFromRunId = row.retriedFromRunId
  kept : ∀ id row, s.runs.get? id = some row →
    ∃ row', s'.runs.get? id = some row' ∧ (1 ≤ row.budget → 1 ≤ row'.budget)
  named : ∀ id b' runId, s'.briefs.get? id = some b' → b'.names runId = true →
    runId ∈ s.retries → ∃ b, s.briefs.get? id = some b ∧ b.names runId = true ∧
      b'.claimAgentId = b.claimAgentId
  drawn : ∀ id ∈ s.drawn, id ∈ s'.drawn
  retries : ∀ id ∈ s.retries, id ∈ s'.retries
  lost : ∀ id ∈ s'.lost, id ∈ s.lost ∨ mine = some id

namespace RetryDesk

section
variable (s : RetryDesk)

def Worth (runId : String) : Prop := ∃ row, s.runs.get? runId = some row ∧ 1 ≤ row.budget

structure Unborn (runId : String) : Prop where
  drawn : runId ∈ s.retries
  kept : runId ∉ s.lost
  absent : s.runs.get? runId = none

def ClaimedBy (st : Start) (runId : String) : Prop :=
  ∀ id b, s.briefs.get? id = some b → b.names runId = true →
    id = st.briefId ∧ b.claimAgentId = some (trim st.assignee)

structure Unlinked (st : Start) (runId : String) : Prop where
  drawn : runId ∈ s.retries
  kept : runId ∉ s.lost
  row : ∃ row, s.runs.get? runId = some row ∧ row.retriedFromRunId = none
  apart : runId ≠ st.runId

structure Cleared (runId : String) : Prop where
  drawn : runId ∈ s.retries
  absent : s.runs.get? runId = none
  unnamed : ∀ id b, s.briefs.get? id = some b → b.names runId = false

structure Sound : Prop where
  keyed : s.runs.KeyedBy (·.runId)
  retries : ∀ id ∈ s.retries, id ∈ s.drawn
  worth : ∀ a b, s.Retried a b → s.Worth a
  single : Single s.Retried
  linked : ∀ x ∈ s.opened, ∃ a, s.Retried a x
  solitary : Solitary s.Retried (fun x => x ∈ s.opened)
  lost : ∀ id ∈ s.lost, s.Cleared id

end

end RetryDesk

def Lane.held : Lane → Option String
  | .preparing _ runId => some runId
  | .abandoning _ runId _ _ => some runId
  | .recording _ run => some run.runId
  | .leaving _ run => some run.runId
  | .linking _ run => some run.runId
  | _ => none

def Lane.Holds (s : RetryDesk) : Lane → Prop
  | .desk t => t.links = false ∧
    ∀ run, t = .opening run → run.runId ∈ s.drawn ∧ run.runId ∉ s.retries
  | .searching r source => ∃ row, s.runs.get? r.runId = some row ∧
    (1 ≤ source.budget → 1 ≤ row.budget)
  | .placing r _ _ => s.Worth r.runId
  | .preflighting a => s.Worth a.runId
  | .entering st => s.Worth st.runId
  | .guarding st => s.Worth st.runId
  | .reclaiming st => s.Worth st.runId
  | .claiming st => s.Worth st.runId
  | .preparing st runId => s.Worth st.runId ∧ s.Unborn runId ∧ s.ClaimedBy st runId
  | .abandoning st runId _ _ => s.Worth st.runId ∧ s.Unborn runId ∧ s.ClaimedBy st runId
  | .recording st run => s.Worth st.runId ∧ s.Unborn run.runId
  | .leaving st run => s.Worth st.runId ∧ s.Unlinked st run.runId
  | .linking st run => s.Worth st.runId ∧ s.Unlinked st run.runId
  | .running _ _ _ _ _ t => t.isCall = false
  | _ => True

def Lane.Apart (t u : Lane) : Prop := ∀ id, t.held = some id → u.held ≠ some id

variable {id : String} {t : Lane}

section
variable {s s' : RetryDesk} {mine : Option String}

theorem RetryDesk.Passes.worth (h : s.Passes s' mine) (hid : s.Worth id) : s'.Worth id := by
  obtain ⟨row, hrow, hbudget⟩ := hid
  obtain ⟨row', hrow', hkept⟩ := h.kept id row hrow
  exact ⟨row', hrow', hkept hbudget⟩

theorem RetryDesk.Passes.absent (h : s.Passes s' mine) (hmine : mine ≠ some id)
    (hid : s.runs.get? id = none) : s'.runs.get? id = none := by
  cases hrow : s'.runs.get? id with
  | none => rfl
  | some row' =>
    obtain ⟨row, hold, -⟩ := h.back id row' hrow hmine
    rw [hid] at hold
    cases hold

theorem RetryDesk.Passes.not_lost (h : s.Passes s' mine) (hmine : mine ≠ some id)
    (hid : id ∉ s.lost) : id ∉ s'.lost := by
  intro hmem
  rcases h.lost id hmem with hold | hgone
  · exact hid hold
  · exact hmine hgone

theorem RetryDesk.Passes.unborn (h : s.Passes s' mine) (hmine : mine ≠ some id)
    (hid : s.Unborn id) : s'.Unborn id :=
  ⟨h.retries id hid.drawn, h.not_lost hmine hid.kept, h.absent hmine hid.absent⟩

variable {st : Start} {runId : String}

theorem RetryDesk.Passes.claimedBy (h : s.Passes s' mine) (hdrawn : runId ∈ s.retries)
    (hclaim : s.ClaimedBy st runId) : s'.ClaimedBy st runId := by
  intro id b' hb' hnames
  obtain ⟨b, hb, hnames', hagent⟩ := h.named id b' runId hb' hnames hdrawn
  obtain ⟨hid, hholder⟩ := hclaim id b hb hnames'
  exact ⟨hid, hagent.trans hholder⟩

theorem RetryDesk.Passes.unlinked (h : s.Passes s' mine) (hmine : mine ≠ some id)
    (hid : s.Unlinked st id) : s'.Unlinked st id := by
  obtain ⟨row, hrow, hparent⟩ := hid.row
  obtain ⟨row', hrow', -⟩ := h.kept id row hrow
  obtain ⟨row₀, hold, hsame⟩ := h.back id row' hrow' hmine
  have heq : row₀ = row := Option.some.inj (hold.symm.trans hrow)
  refine ⟨h.retries id hid.drawn, h.not_lost hmine hid.kept, ⟨row', hrow', ?_⟩, hid.apart⟩
  rw [hsame, heq]
  exact hparent

theorem RetryDesk.Passes.holds (h : s.Passes s' mine)
    (hnew : ∀ id ∈ s'.retries, id ∈ s.retries ∨ id ∉ s.drawn) (ht : t.Holds s)
    (hmine : ∀ id, t.held = some id → mine ≠ some id) : t.Holds s' := by
  cases t with
  | desk t =>
    refine ⟨ht.1, fun run hrun => ?_⟩
    obtain ⟨hdrawn, hnot⟩ := ht.2 run hrun
    refine ⟨h.drawn _ hdrawn, fun hmem => ?_⟩
    rcases hnew _ hmem with hold | hfresh
    · exact hnot hold
    · exact hfresh hdrawn
  | searching r source =>
    obtain ⟨row, hrow, hbudget⟩ := ht
    obtain ⟨row', hrow', hkept⟩ := h.kept _ row hrow
    exact ⟨row', hrow', fun hb => hkept (hbudget hb)⟩
  | placing r source briefId | preflighting a | entering st | guarding st | reclaiming st
  | claiming st =>
    exact h.worth ht
  | preparing st runId =>
    obtain ⟨hworth, hunborn, hclaim⟩ := ht
    exact ⟨h.worth hworth, h.unborn (hmine _ rfl) hunborn, h.claimedBy hunborn.drawn hclaim⟩
  | abandoning st runId status summary =>
    obtain ⟨hworth, hunborn, hclaim⟩ := ht
    exact ⟨h.worth hworth, h.unborn (hmine _ rfl) hunborn, h.claimedBy hunborn.drawn hclaim⟩
  | recording st run => exact ⟨h.worth ht.1, h.unborn (hmine _ rfl) ht.2⟩
  | leaving st run | linking st run => exact ⟨h.worth ht.1, h.unlinked (hmine _ rfl) ht.2⟩
  | running cand rest records child attempt t => exact ht
  | _ => trivial

theorem RetryDesk.Passes.sound (h : s.Passes s' mine) (hs : s.Sound)
    (hkeyed : s'.runs.KeyedBy (·.runId)) (hretries : ∀ id ∈ s'.retries, id ∈ s'.drawn)
    (hopened : s'.opened = s.opened)
    (hlinks : ∀ id row', mine = some id → s'.runs.get? id = some row' →
      (s.runs.get? id = none ∧ row'.retriedFromRunId = none) ∨
        ∃ row, s.runs.get? id = some row ∧ row'.retriedFromRunId = row.retriedFromRunId)
    (hlost : ∀ id ∈ s'.lost, mine = some id → s'.Cleared id) : s'.Sound := by
  have hback : ∀ id row', s'.runs.get? id = some row' →
      (s.runs.get? id = none ∧ row'.retriedFromRunId = none) ∨
        ∃ row, s.runs.get? id = some row ∧ row'.retriedFromRunId = row.retriedFromRunId := by
    intro id row' hrow
    by_cases hid : mine = some id
    · exact hlinks id row' hid hrow
    · exact .inr (h.back id row' hrow hid)
  have hretried : s'.Retried = s.Retried := by
    funext a b
    apply propext
    constructor
    · rintro ⟨row', hrow, hparent⟩
      rcases hback b row' hrow with ⟨-, hnone⟩ | ⟨row, hold, hsame⟩
      · rw [hnone] at hparent
        cases hparent
      · exact ⟨row, hold, hsame ▸ hparent⟩
    · rintro ⟨row, hrow, hparent⟩
      obtain ⟨row', hrow', -⟩ := h.kept b row hrow
      rcases hback b row' hrow' with ⟨hnone, -⟩ | ⟨row₀, hold, hsame⟩
      · rw [hnone] at hrow
        cases hrow
      · have heq : row₀ = row := Option.some.inj (hold.symm.trans hrow)
        exact ⟨row', hrow', by rw [hsame, heq]; exact hparent⟩
  refine ⟨hkeyed, hretries, ?_, ?_, ?_, ?_, ?_⟩
  · intro a b hab
    rw [hretried] at hab
    exact h.worth (hs.worth a b hab)
  · rw [hretried]
    exact hs.single
  · rw [hretried, hopened]
    exact hs.linked
  · rw [hretried, hopened]
    exact hs.solitary
  · intro id hid
    by_cases heq : mine = some id
    · exact hlost id hid heq
    · rcases h.lost id hid with hold | hgone
      · obtain ⟨hdrawn, habsent, hunnamed⟩ := hs.lost id hold
        refine ⟨h.retries id hdrawn, h.absent heq habsent, fun briefId b' hb' => ?_⟩
        cases hnames : b'.names id with
        | false => rfl
        | true =>
          obtain ⟨b, hb, hnames', -⟩ := h.named briefId b' id hb' hnames hdrawn
          rw [hunnamed briefId b hb] at hnames'
          cases hnames'
      · exact absurd hgone heq

variable {born : Option String}

theorem RunStore.Tame.passes
    (h : s.toRunStore.Tame s'.toRunStore born) (hdrawn : s'.drawn = s.drawn)
    (hretries : s'.retries = s.retries)
    (hlost : ∀ id ∈ s'.lost, id ∈ s.lost ∨ born = some id) : s.Passes s' born where
  back := by
    intro id row' hrow hborn
    rcases h.back id row' hrow with hold | ⟨heq, -⟩
    · exact hold
    · exact absurd heq hborn
  kept := h.kept
  named := fun id b' runId hb' hnames _ => h.named id b' runId hb' hnames
  drawn := by
    rw [hdrawn]
    exact fun _ hid => hid
  retries := by
    rw [hretries]
    exact fun _ hid => hid
  lost := hlost

theorem RunStore.Tame.sound (h : s.toRunStore.Tame s'.toRunStore born)
    (hs : s.Sound) (hdrawn : s'.drawn = s.drawn) (hretries : s'.retries = s.retries)
    (hopened : s'.opened = s.opened)
    (hlost : ∀ id ∈ s'.lost, id ∈ s.lost ∨ (born = some id ∧ s'.Cleared id))
    (hborn : ∀ id, born = some id → id ∉ s.lost) : s'.Sound := by
  refine (h.passes hdrawn hretries ?_).sound hs (h.keyed hs.keyed) ?_ hopened ?_ ?_
  · intro id hid
    rcases hlost id hid with hold | ⟨hgone, -⟩
    · exact .inl hold
    · exact .inr hgone
  · rw [hdrawn, hretries]
    exact hs.retries
  · intro id row' _ hrow
    rcases h.back id row' hrow with hold | ⟨-, hnew⟩
    · exact .inr hold
    · exact .inl hnew
  · intro id hid hmine
    rcases hlost id hid with hold | ⟨-, hcleared⟩
    · exact absurd hold (hborn id hmine)
    · exact hcleared

/-- The task went on about the run `mine`: its own, or one that was drawn for no retry. -/
structure Advances (s : RetryDesk) (t : Lane) (s' : RetryDesk) (t' : Lane)
    (mine : Option String) : Prop where
  passes : s.Passes s' mine
  sound : s'.Sound
  holds : t'.Holds s'
  new : ∀ id ∈ s'.retries, id ∈ s.retries ∨ id ∉ s.drawn
  mine : mine = t.held ∨ ∀ id, mine = some id → id ∉ s.retries
  held : ∀ id, t'.held = some id → t.held = some id ∨ id ∉ s.retries

section
variable {t t' : Lane}

variable {pick : Pick}

variable {leaseSecs : Int}

structure RetryDesk.Fresh (s : RetryDesk) (id : String) : Prop where
  drawn : id ∉ s.drawn
  absent : s.runs.get? id = none
  unnamed : ∀ briefId b, s.briefs.get? briefId = some b → b.names id = false
  trimmed : trim id = id

section
variable {st : Start} {child : String} {opened : List String}

end

end

end

end Relux.BriefRuns
