import Relux.HireGreenlight

/-! What holds of every run of the hire flow that keeps to the gate, and runs that do not. -/

namespace Relux.Roster

open Admission (InvocationCtx TokenHost OPERATOR_ROLES)
open Probation (Ledger)
open Crowd (Runs Step Meets Label)

variable {hireId : String}

section
variable {parseJson : String → Except String (List String)} {host : TokenHost}
  {s s' : Shared} {t t' u : Task} {c c' : Crowd Shared Task}

theorem Apart.symm (h : Apart t u) : Apart u t := by
  intro hireId hu ht
  exact h hireId ht hu

theorem Shared.Sound.due (h : s.Sound t) (ht : t.settling = some hireId) : hireId ∈ s.due := by
  cases t with
  | settingPending ctx input gate id =>
    cases ht
    exact h
  | _ => cases ht

variable {m : Probation.Move String Activator}

theorem Made.counts (h : Made s t s' t' m)
    (hkept : s.ledger.Kept s.Counts) (hgate : s.Gated t) : s'.ledger.Kept s'.Counts := by
  have hmoved : s'.ledger.Kept s.Counts := by
    rw [h.ledger]
    exact hkept.move h.enabled (h.governed hgate)
  exact hmoved.mono h.approvals.counts

theorem Made.due (h : Made s t s' t' m)
    (hne : t.settling ≠ some hireId) (hdue : hireId ∈ s.due) : hireId ∈ s'.due := by
  have heq : s'.due = (s.ledger.move m).due := congrArg Ledger.due h.ledger
  rw [heq]
  cases m with
  | mint id => exact List.mem_cons_of_mem id hdue
  | settle id =>
    have hid : hireId ≠ id := by
      rintro rfl
      exact hne (h.settled hireId rfl)
    exact List.mem_filter.mpr ⟨hdue, by simpa using hid⟩
  | _ => exact hdue

def KeepsGate (c : Crowd Shared Task) (l : Label Task) : Prop :=
  ∀ i t, l = .run i → c.tasks[i]? = some t → c.shared.Gated t

def InOrder (c : Crowd Shared Task) : Prop :=
  Meets (fun s => s.ledger.Kept s.Counts) Shared.Sound Apart c

theorem apart_of_plain (h : t.settling = none) : Apart t u := by
  intro hireId ht
  rw [h] at ht
  cases ht

theorem env_kept (h : (service parseJson host).env s s') :
    s'.ledger = s.ledger ∧ s.ApprovalsKept s' := by
  rcases h with ⟨now, rfl⟩ | ⟨id, input, desk, hcreate, rfl⟩ | ⟨id, desk, hexpired, rfl⟩
  · exact ⟨rfl, approvalsKept_of_eq rfl⟩
  · exact ⟨rfl, createApproval_kept hcreate⟩
  · exact ⟨rfl, markExpired_kept hexpired⟩

theorem InOrder.step {l : Label Task} (hok : KeepsGate c l)
    (h : Step (service parseJson host) c l c') (hc : InOrder c) : InOrder c' := by
  refine h.meets ?_ ?_ ?_ ?_ l hok hc
  · intro t u h
    exact h.symm
  · intro s s' hkept henv
    obtain ⟨hledger, happrovals⟩ := env_kept henv
    refine ⟨?_, fun u hu => hu.kept happrovals (fun hireId _ hdue => ?_)⟩
    · rw [hledger]
      exact hkept.mono happrovals.counts
    · have heq : s'.due = s.due := congrArg Ledger.due hledger
      rw [heq]
      exact hdue
  · rintro c t s' - hc ⟨rfl, ht⟩
    have hplain : t.Plain := by
      rcases ht with ⟨method, ctx, rfl⟩ | ⟨tenant, approvalId, rig, rfl⟩ <;> trivial
    obtain ⟨hsound, hset⟩ := hplain.sound (s := c.shared)
    exact ⟨hc.shared, hsound, fun j u hj => ⟨hc.task j u hj, apart_of_plain hset⟩⟩
  · rintro c i t s' t' fork hok hc hi ⟨rfl, draw, hstep⟩
    have hsound := hc.task i t hi
    obtain ⟨m, hmade⟩ := step_made hc.shared hsound hstep
    refine ⟨hmade.counts hc.shared (hok i t rfl hi), hmade.sound, ?_, ?_⟩
    · intro f hf
      cases hf
    · intro j u hji hj
      have hapart := hc.pair i j t u (Ne.symm hji) hi hj
      refine ⟨(hc.task j u hj).kept hmade.approvals ?_, ?_, ?_⟩
      · intro hireId hu hdue
        exact hmade.due (fun ht => hapart hireId ht hu) hdue
      · intro hireId ht' hu
        -- The hire is a new one, and the other's is on the roster already.
        have hmint := hmade.settling hireId ht'
        have hnew := hmade.enabled
        rw [hmint] at hnew
        have hdue := (hc.task j u hj).due hu
        exact hc.shared.minted hireId (hc.shared.due hireId hdue).1 hnew
      · intro f hf
        cases hf

structure Shared.Unhired (s : Shared) : Prop where
  minted : s.minted = []
  due : s.due = []
  rejections : s.rejections = []

theorem Shared.Unhired.kept (h : s.Unhired) : s.ledger.Kept s.Counts where
  minted := by
    intro id hid
    have hmem : id ∈ s.minted := hid
    rw [h.minted] at hmem
    cases hmem
  named := by
    intro id hid
    have hmem : id ∈ s.rejections := hid
    rw [h.rejections] at hmem
    cases hmem
  due := by
    intro id hid
    have hmem : id ∈ s.due := hid
    rw [h.due] at hmem
    cases hmem
  active := by
    intro id hid
    have hmem : id ∈ s.minted := hid
    rw [h.minted] at hmem
    cases hmem
  rejected := by
    intro id hid
    have hmem : id ∈ s.minted := hid
    rw [h.minted] at hmem
    cases hmem

theorem gated_run_inOrder {start : Shared} (hstart : start.Unhired)
    (h : Runs (service parseJson host) KeepsGate ⟨start, []⟩ c) : InOrder c := by
  refine h.keeps (fun c l c' hok hstep hc => hc.step hok hstep) ?_
  exact Crowd.meets_nil hstart.kept

end

/-- In every run of the calls whose steps keep to the gate, a hire whose request is through is
active only after its greenlight; and a rejected one is not active. -/
theorem hire_inert_until_greenlit (parseJson : String → Except String (List String))
    (host : TokenHost) {start : Shared} (hstart : start.Unhired) {c : Crowd Shared Task}
    (h : Runs (service parseJson host) KeepsGate ⟨start, []⟩ c) {hireId : String}
    (hminted : hireId ∈ c.shared.minted) :
    (hireId ∉ c.shared.due → c.shared.Inert hireId) ∧
      (hireId ∈ c.shared.due → hireId ∉ c.shared.rejections) := by
  have hkept := (gated_run_inOrder hstart h).shared
  refine ⟨fun hdue => ⟨hkept.active hireId hminted hdue, ?_⟩, fun hdue => ?_⟩
  · intro hrejected hactive
    have hidle : c.shared.standing hireId = some .idle := hkept.rejected hireId hminted hrejected
    rw [hactive] at hidle
    cases hidle
  · exact (hkept.due hireId hdue).2.2

def Task.free : Task → Bool
  | .writing _ _ => false
  | .approving _ _ _ => false
  | _ => true

def noHost : TokenHost where
  encode64 := fun _ => ""
  decode64 := fun _ => .error ""
  toJson := fun _ => []
  ofJson := fun _ => .error ""
  verifyingKey := id
  sign := fun _ _ => []
  verifyStrict := fun _ _ _ => false
  blake3 := id

def noJson : String → Except String (List String) := fun _ => .error ""

def player (allows : Crowd Shared Task → Label Task → Bool) :
    Crowd.Player Shared Task Draw Unit where
  outside := fun s _ => s
  starts := fun t => match t with
    | .asked _ _ => true
    | _ => false
  exec := fun s draw t => (step noJson noHost s draw t).map (fun r => (r.1, r.2, none))
  allows := allows

theorem player_plays {allows : Crowd Shared Task → Label Task → Bool}
    {ok : Crowd Shared Task → Label Task → Prop} (hok : ∀ c l, allows c l = true → ok c l) :
    (player allows).Plays (service noJson noHost) ok where
  env := by
    intro s _
    exact .inl ⟨s.now, rfl⟩
  spawn := by
    intro s t ht
    cases t with
    | asked method ctx => exact ⟨rfl, .inl ⟨method, ctx, rfl⟩⟩
    | _ => cases ht
  exec := by
    intro s draw t s' t' fork h
    obtain ⟨⟨s₁, t₁⟩, hstep, heq⟩ := Option.map_eq_some_iff.mp h
    cases heq
    exact ⟨rfl, draw, hstep⟩
  allows := hok

def anyRun : Crowd.Player Shared Task Draw Unit := player (fun _ _ => true)

def freeRun : Crowd.Player Shared Task Draw Unit := player (fun c l => match l with
  | .run i => (c.tasks[i]?).all Task.free
  | _ => true)

theorem anyRun_plays : anyRun.Plays (service noJson noHost) (fun _ _ => True) :=
  player_plays (fun _ _ _ => trivial)

theorem freeRun_plays : freeRun.Plays (service noJson noHost) KeepsGate := by
  refine player_plays (fun c l hallows i t hl ht => ?_)
  subst hl
  simp only [ht, Option.all_some] at hallows
  cases t with
  | writing ctx edit => cases hallows
  | approving ctx agentId rig => cases hallows
  | _ => trivial

def drawn (id : String) : Draw := ⟨id, ⟨none, 0, [], 0⟩⟩

def callOf (subject role args : String) : InvocationCtx :=
  ⟨⟨subject, subject, ["chat-users"], role⟩, none, .ok args⟩

def leadRow : AgentProfile :=
  { NewAgent.row ⟨"Lead", "lead", "lead", "eng", "core", "founder", "subject-lead", "low",
      "default"⟩ 0 "00000001" with canConfigureAgents := true, configureScope := "any" }

def hireStart : Shared where
  now := 1700000000
  profiles := HashMap.insert HashMap.empty leadRow.agentId leadRow
  approvals := .empty
  minted := []
  due := []
  activations := []
  rejections := []

def adaId : String := "agt_engineer_0badf00d"

def askAda : List (Crowd.Play Task Draw Unit) :=
  [.spawn (.asked .requestHire (callOf "subject-op" "operator"
    "Ada|engineer|engineer|eng|core|founder|subject-ada|low")), .run 0 (drawn ""),
    .run 0 (drawn "0badf00d")]

def hireAda : List (Crowd.Play Task Draw Unit) := askAda ++ [.run 0 (drawn "")]

def setActive (i : Nat) (subject role : String) (accesses : Nat) : List (Crowd.Play Task Draw Unit) :=
  .spawn (.asked .update (callOf subject role (adaId ++ "|status|active"))) ::
    List.replicate accesses (.run i (drawn ""))

def settleAda (method : Method) (i : Nat) (subject role : String) : List (Crowd.Play Task Draw Unit) :=
  [.spawn (.asked method (callOf subject role adaId)), .run i (drawn ""), .run i (drawn "")]

def Shared.ungreenlit (s : Shared) (hireId : String) : Bool :=
  s.activations.all (fun a => a.1 != hireId || match a.2 with
    | .caller who => !OPERATOR_ROLES.contains who.role
    | .clearance _ => false)

theorem not_greenlit {s : Shared} (h : s.ungreenlit hireId = true) : ¬s.Greenlit hireId := by
  rintro ⟨by', hmem, hcounts⟩
  have hentry := List.all_eq_true.mp h _ hmem
  cases by' with
  | caller who =>
    have hrole : OPERATOR_ROLES.contains who.role = true := hcounts
    have hnot : ¬who.role ∈ OPERATOR_ROLES := by simpa using hentry
    exact hnot (List.contains_iff_mem.mp hrole)
  | clearance approvalId => simp at hentry

theorem unhired_start : hireStart.Unhired := ⟨rfl, rfl, rfl⟩

theorem hire_inert_sample : ∃ c, Runs (service noJson noHost) KeepsGate ⟨hireStart, []⟩ c ∧
    adaId ∈ c.shared.minted ∧ adaId ∈ c.shared.rejections ∧ c.shared.Inert adaId := by
  have hplay : ((hireAda ++ settleAda .rejectHire 1 "subject-op" "operator").foldlM
      freeRun.play ⟨hireStart, []⟩).any (fun c => decide (adaId ∈ c.shared.minted ∧
        adaId ∉ c.shared.due ∧ adaId ∈ c.shared.rejections)) = true := by decide +kernel
  obtain ⟨c, hc, htest⟩ := (Option.any_eq_true _ _).mp hplay
  obtain ⟨hminted, hdue, hrejected⟩ := of_decide_eq_true htest
  have hrun : Runs (service noJson noHost) KeepsGate ⟨hireStart, []⟩ c := freeRun_plays.runs hc
  exact ⟨c, hrun, hminted, hrejected,
    (hire_inert_until_greenlit noJson noHost unhired_start hrun hminted).1 hdue⟩

/-- A hire is active between the two accesses of its request; an Operative with the configure
key makes a pending hire active; one without any key approves a hire; and a rejected hire is
made active. -/
theorem hire_acts_without_greenlight :
    (∃ c, Runs (service noJson noHost) (fun _ _ => True) ⟨hireStart, []⟩ c ∧
      adaId ∈ c.shared.minted ∧ c.shared.standing adaId = some .active ∧
      ¬c.shared.Greenlit adaId) ∧
    (∃ c, Runs (service noJson noHost) (fun _ _ => True) ⟨hireStart, []⟩ c ∧
      adaId ∈ c.shared.minted ∧ adaId ∉ c.shared.due ∧
      c.shared.standing adaId = some .active ∧ ¬c.shared.Greenlit adaId) ∧
    (∃ c, Runs (service noJson noHost) (fun _ _ => True) ⟨hireStart, []⟩ c ∧
      adaId ∈ c.shared.minted ∧ adaId ∉ c.shared.due ∧
      c.shared.standing adaId = some .active ∧ ¬c.shared.Greenlit adaId ∧
      c.shared.activations.map (·.1) = [adaId]) ∧
    (∃ c, Runs (service noJson noHost) (fun _ _ => True) ⟨hireStart, []⟩ c ∧
      adaId ∈ c.shared.minted ∧ adaId ∈ c.shared.rejections ∧
      c.shared.standing adaId = some .active) := by
  refine ⟨?_, ?_, ?_, ?_⟩
  · have hplay : (askAda.foldlM anyRun.play ⟨hireStart, []⟩).any (fun c =>
        decide (adaId ∈ c.shared.minted ∧ c.shared.standing adaId = some .active) &&
          c.shared.ungreenlit adaId) = true := by decide +kernel
    obtain ⟨c, hc, htest⟩ := anyRun_plays.reaches hplay
    obtain ⟨hfacts, hnone⟩ := Bool.and_eq_true_iff.mp htest
    obtain ⟨hminted, hactive⟩ := of_decide_eq_true hfacts
    exact ⟨c, hc, hminted, hactive, not_greenlit hnone⟩
  · have hplay : ((hireAda ++ setActive 1 "subject-lead" "agent" 6).foldlM anyRun.play
        ⟨hireStart, []⟩).any (fun c => decide (adaId ∈ c.shared.minted ∧
          adaId ∉ c.shared.due ∧ c.shared.standing adaId = some .active) &&
          c.shared.ungreenlit adaId) = true := by decide +kernel
    obtain ⟨c, hc, htest⟩ := anyRun_plays.reaches hplay
    obtain ⟨hfacts, hnone⟩ := Bool.and_eq_true_iff.mp htest
    obtain ⟨hminted, hdue, hactive⟩ := of_decide_eq_true hfacts
    exact ⟨c, hc, hminted, hdue, hactive, not_greenlit hnone⟩
  · have hplay : ((hireAda ++ settleAda .approveHire 1 "subject-bob" "agent").foldlM
        anyRun.play ⟨hireStart, []⟩).any (fun c => decide (adaId ∈ c.shared.minted ∧
          adaId ∉ c.shared.due ∧ c.shared.standing adaId = some .active ∧
          c.shared.activations.map (·.1) = [adaId]) &&
          c.shared.ungreenlit adaId) = true := by decide +kernel
    obtain ⟨c, hc, htest⟩ := anyRun_plays.reaches hplay
    obtain ⟨hfacts, hnone⟩ := Bool.and_eq_true_iff.mp htest
    obtain ⟨hminted, hdue, hactive, hby⟩ := of_decide_eq_true hfacts
    exact ⟨c, hc, hminted, hdue, hactive, not_greenlit hnone, hby⟩
  · have hplay : ((hireAda ++ settleAda .rejectHire 1 "subject-op" "operator" ++
        setActive 2 "subject-op" "operator" 3).foldlM anyRun.play ⟨hireStart, []⟩).any
        (fun c => decide (adaId ∈ c.shared.minted ∧ adaId ∈ c.shared.rejections ∧
          c.shared.standing adaId = some .active)) = true := by decide +kernel
    obtain ⟨c, hc, htest⟩ := anyRun_plays.reaches hplay
    exact ⟨c, hc, of_decide_eq_true htest⟩

end Relux.Roster
