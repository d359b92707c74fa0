import Relux.BriefGraph

/-! When the graphs of the Briefs stay without cycles and the chains of Sub-briefs within the
bound, all along a run. -/

namespace Relux.BriefGraph

open Admission (normTenant)
open Chains (search Chain Reaches Acyclic Within Plus Fan)

theorem normTenant_default : normTenant "default" = "default" := by decide +kernel

namespace TaskStore

variable {s : TaskStore}

def edge (s : TaskStore) (edgeType : EdgeType) (a b : String) : Prop := ⟨a, edgeType, b⟩ ∈ s.edges

def guildEdge (s : TaskStore) (a b : String) : Prop :=
  s.edge .spawned a b ∧ s.taskTenant a = s.taskTenant b

structure Sound (s : TaskStore) : Prop where
  spawned : Acyclic (s.edge .spawned)
  blockedOn : Acyclic (s.edge .blockedOn)
  depth : Within MAX_SUBBRIEF_DELEGATION_DEPTH s.guildEdge

/-- The chains of one Guild that end in `p` and those that begin in `c` fit on each other. -/
def Fits (s : TaskStore) (p c : String) : Prop :=
  s.taskTenant p = s.taskTenant c →
    ∀ k m a b, Chain s.guildEdge k a p → Chain s.guildEdge m c b →
      k + 1 + m ≤ MAX_SUBBRIEF_DELEGATION_DEPTH

theorem sound_nil (tenants : HashMap String (Option Guild)) : Sound ⟨tenants, []⟩ := by
  have hnone : ∀ edgeType n a b, Chain (edge ⟨tenants, []⟩ edgeType) n a b → n = 0 := by
    intro edgeType n a b hc
    cases hc with
    | nil => rfl
    | cons hab _ => cases hab
  refine ⟨fun n a hc => ?_, fun n a hc => ?_, fun n a b hc => ?_⟩
  · exact absurd (hnone _ _ _ _ hc) (Nat.succ_ne_zero n)
  · exact absurd (hnone _ _ _ _ hc) (Nat.succ_ne_zero n)
  · have hn := hnone _ _ _ _ (hc.mono (fun _ _ hab => hab.1))
    rw [hn]
    exact Nat.zero_le _

variable {edgeType : EdgeType} {a b : String}

theorem mem_related : b ∈ s.related edgeType a ↔ s.edge edgeType a b := by
  simp only [related, edge, List.mem_map, List.mem_filter, decide_eq_true_eq]
  constructor
  · rintro ⟨e, ⟨he, rfl, rfl⟩, rfl⟩
    exact he
  · intro h
    exact ⟨_, ⟨h, rfl, rfl⟩, rfl⟩

theorem hasEdge_iff : s.hasEdge a edgeType b = true ↔ s.edge edgeType a b := by
  simp only [hasEdge, edge, List.contains_iff_mem]

theorem edge_insert_self (t r : String) (edgeType : EdgeType) :
    (s.insertEdge t edgeType r).edge edgeType = Plus (s.edge edgeType) t r := by
  funext a b
  apply propext
  simp [edge, insertEdge, Plus]

theorem edge_insert_other {other : EdgeType} (h : other ≠ edgeType) (t r : String) :
    (s.insertEdge t edgeType r).edge other = s.edge other := by
  funext a b
  apply propext
  simp [edge, insertEdge, h]

theorem guildEdge_insert_other (h : .spawned ≠ edgeType) (t r : String) :
    (s.insertEdge t edgeType r).guildEdge = s.guildEdge := by
  funext a b
  simp only [guildEdge, edge_insert_other h]
  rfl

variable {p : String} {c : String}

theorem guildEdge_insert (h : s.taskTenant p = s.taskTenant c) :
    (s.insertEdge p .spawned c).guildEdge = Plus s.guildEdge p c := by
  funext a b
  apply propext
  simp only [guildEdge, edge_insert_self, Plus]
  constructor
  · rintro ⟨hab | ⟨rfl, rfl⟩, htenant⟩
    · exact .inl ⟨hab, htenant⟩
    · exact .inr ⟨rfl, rfl⟩
  · rintro (⟨hab, htenant⟩ | ⟨rfl, rfl⟩)
    · exact ⟨.inl hab, htenant⟩
    · exact ⟨.inr ⟨rfl, rfl⟩, h⟩

theorem guildEdge_insert_foreign (h : s.taskTenant p ≠ s.taskTenant c) :
    (s.insertEdge p .spawned c).guildEdge = s.guildEdge := by
  funext a b
  apply propext
  simp only [guildEdge, edge_insert_self, Plus]
  constructor
  · rintro ⟨hab | ⟨rfl, rfl⟩, htenant⟩
    · exact ⟨hab, htenant⟩
    · exact absurd htenant h
  · rintro ⟨hab, htenant⟩
    exact ⟨.inl hab, htenant⟩

theorem guildEdge_reaches (h : Reaches s.guildEdge a b) : Reaches (s.edge .spawned) a b := by
  obtain ⟨n, hc⟩ := h
  exact ⟨n, hc.mono (fun _ _ hab => hab.1)⟩

theorem Sound.insert_spawned_iff (h : s.Sound) (p c : String) :
    (s.insertEdge p .spawned c).Sound ↔ ¬Reaches (s.edge .spawned) c p ∧ s.Fits p c := by
  constructor
  · intro hsound
    have hback : ¬Reaches (s.edge .spawned) c p := by
      have hacyclic := hsound.spawned
      rw [edge_insert_self] at hacyclic
      exact (Chains.acyclic_plus_iff h.spawned).mp hacyclic
    refine ⟨hback, fun htenant => ?_⟩
    have hdepth := hsound.depth
    rw [guildEdge_insert htenant] at hdepth
    exact (Chains.within_plus_iff h.depth (fun hr => hback (guildEdge_reaches hr))).mp hdepth
  · rintro ⟨hback, hfits⟩
    have hspawned := (Chains.acyclic_plus_iff h.spawned).mpr hback
    refine ⟨?_, ?_, ?_⟩
    · rw [edge_insert_self]
      exact hspawned
    · rw [edge_insert_other (by decide)]
      exact h.blockedOn
    · by_cases htenant : s.taskTenant p = s.taskTenant c
      · rw [guildEdge_insert htenant]
        exact (Chains.within_plus_iff h.depth (fun hr => hback (guildEdge_reaches hr))).mpr
          (hfits htenant)
      · rw [guildEdge_insert_foreign htenant]
        exact h.depth

theorem Sound.insert_blockedOn_iff (h : s.Sound) (t b : String) :
    (s.insertEdge t .blockedOn b).Sound ↔ ¬Reaches (s.edge .blockedOn) b t := by
  constructor
  · intro hsound
    have hacyclic := hsound.blockedOn
    rw [edge_insert_self] at hacyclic
    exact (Chains.acyclic_plus_iff h.blockedOn).mp hacyclic
  · intro hback
    have hacyclic := (Chains.acyclic_plus_iff h.blockedOn).mpr hback
    refine ⟨?_, ?_, ?_⟩
    · rw [edge_insert_other (by decide)]
      exact h.spawned
    · rw [edge_insert_self]
      exact hacyclic
    · rw [guildEdge_insert_other (by decide)]
      exact h.depth

theorem Sound.insert_other (h : s.Sound) (hspawned : .spawned ≠ edgeType)
    (hblockedOn : .blockedOn ≠ edgeType) (t r : String) : (s.insertEdge t edgeType r).Sound := by
  refine ⟨?_, ?_, ?_⟩
  · rw [edge_insert_other hspawned]
    exact h.spawned
  · rw [edge_insert_other hblockedOn]
    exact h.blockedOn
  · rw [guildEdge_insert_other hspawned]
    exact h.depth

variable {t : String}

theorem findsCycle_congr {s' : TaskStore}
    (h : ∀ a, a ≠ t → s.related edgeType a = s'.related edgeType a) (r : String) :
    s.findsCycle t edgeType r = s'.findsCycle t edgeType r :=
  Chains.search_congr h [] [r]

theorem findsCycle_complete {r : String} {all : List String}
    (hall : ∀ b, Reaches (s.edge edgeType) r b → b ∈ all) (hroom : all.length ≤ MAX_NODES)
    (h : s.findsCycle t edgeType r = false) : ¬Reaches (s.edge edgeType) r t :=
  Chains.search_complete (fun _ _ => mem_related) hall hroom h

theorem related_insert (b : String) (h : a ≠ t) :
    (s.insertEdge t .blockedOn b).related .blockedOn a = s.related .blockedOn a := by
  have hne : ¬(t = a) := fun hta => h hta.symm
  simp [related, insertEdge, List.filter_append, hne]

theorem related_withoutSnags (h : a ≠ t) :
    (s.withoutSnags t).related .blockedOn a = s.related .blockedOn a := by
  simp only [related, withoutSnags, List.filter_filter]
  congr 1
  apply List.filter_congr
  intro e _
  by_cases ha : e.taskId = a
  · simp [ha, h]
  · simp [ha]

theorem insertBlockers_eq (t : String) (want : List String) (s : TaskStore) :
    insertBlockers t s want =
      if want.all (fun b => !s.findsCycle t .blockedOn b) then
        .ok { s with edges := s.edges ++ want.map (fun b => ⟨t, .blockedOn, b⟩) }
      else .error (.invalid "Snag would create a cycle") := by
  induction want generalizing s with
  | nil => simp [insertBlockers]
  | cons b want ih =>
    have hsame : ∀ b', (s.insertEdge t .blockedOn b).findsCycle t .blockedOn b' =
        s.findsCycle t .blockedOn b' :=
      fun b' => findsCycle_congr (fun a ha => related_insert b ha) b'
    rw [insertBlockers]
    by_cases hb : s.findsCycle t .blockedOn b = true
    · simp [hb]
    · simp only [Bool.not_eq_true] at hb
      simp only [ih, hsame, hb, List.all_cons, Bool.not_false, Bool.true_and, Bool.false_eq_true,
        if_false]
      simp only [insertEdge, List.append_assoc, List.map_cons, List.singleton_append]

theorem edge_blockers (t : String) (want : List String) :
    edge { s.withoutSnags t with
      edges := (s.withoutSnags t).edges ++ want.map (fun b => ⟨t, .blockedOn, b⟩) } .blockedOn =
      Fan ((s.withoutSnags t).edge .blockedOn) t want := by
  funext a b
  apply propext
  simp only [edge, Fan, List.mem_append, List.mem_map, Edge.mk.injEq, true_and]
  constructor
  · rintro (h | ⟨b', hb', rfl, rfl⟩)
    · exact .inl h
    · exact .inr ⟨rfl, hb'⟩
  · rintro (h | ⟨rfl, hb⟩)
    · exact .inl h
    · exact .inr ⟨b, hb, rfl, rfl⟩

theorem edge_withoutSnags :
    (s.withoutSnags t).edge edgeType a b ↔
      s.edge edgeType a b ∧ ¬(a = t ∧ edgeType = .blockedOn) := by
  simp only [edge, withoutSnags, List.mem_filter, decide_eq_true_eq]

theorem reaches_withoutSnags :
    Reaches ((s.withoutSnags t).edge .blockedOn) b t ↔ Reaches (s.edge .blockedOn) b t := by
  constructor
  · exact Chains.reaches_congr (fun a b _ hab => (edge_withoutSnags.mp hab).1)
  · exact Chains.reaches_congr
      (fun a b ha hab => edge_withoutSnags.mpr ⟨hab, fun hboth => ha hboth.1⟩)

theorem Sound.blockers_iff (h : s.Sound) (t : String) (want : List String) :
    Sound { s.withoutSnags t with
      edges := (s.withoutSnags t).edges ++ want.map (fun b => ⟨t, .blockedOn, b⟩) } ↔
      ∀ b ∈ want, ¬Reaches (s.edge .blockedOn) b t := by
  have hold : Acyclic ((s.withoutSnags t).edge .blockedOn) :=
    h.blockedOn.mono (fun a b hab => (edge_withoutSnags.mp hab).1)
  have hspawned : edge { s.withoutSnags t with
      edges := (s.withoutSnags t).edges ++ want.map (fun b => ⟨t, .blockedOn, b⟩) } .spawned =
      s.edge .spawned := by
    funext a b
    apply propext
    simp [edge, withoutSnags]
  have hfan : Acyclic (Fan ((s.withoutSnags t).edge .blockedOn) t want) ↔
      ∀ b ∈ want, ¬Reaches ((s.withoutSnags t).edge .blockedOn) b t :=
    Chains.acyclic_fan_iff hold
  simp only [reaches_withoutSnags] at hfan
  constructor
  · intro hsound
    have hacyclic := hsound.blockedOn
    rw [edge_blockers] at hacyclic
    exact hfan.mp hacyclic
  · intro hback
    refine ⟨?_, ?_, ?_⟩
    · rw [hspawned]
      exact h.spawned
    · rw [edge_blockers]
      exact hfan.mpr hback
    · apply h.depth.mono
      rintro a b ⟨hab, htenant⟩
      rw [hspawned] at hab
      exact ⟨hab, htenant⟩

theorem depthLoop_le {parents : String → List String} {N : Nat} {P : String → Nat → Prop}
    (hstep : ∀ node d, P node d → ∀ p ∈ parents node, P p (d + 1))
    (hbound : ∀ node d, P node d → d ≤ N) (n : Nat) (best : HashMap String Nat)
    (stack : List (String × Nat)) (maxDepth : Nat) (hstack : ∀ e ∈ stack, P e.1 e.2)
    (hmax : maxDepth ≤ N) : depthLoop parents n best stack maxDepth ≤ N := by
  induction n generalizing best stack maxDepth with
  | zero => exact hmax
  | succ n ih =>
    cases stack with
    | nil => exact hmax
    | cons e stack =>
      have hhead : P e.1 e.2 := hstack e List.mem_cons_self
      have htail : ∀ e ∈ stack, P e.1 e.2 := fun e he => hstack e (List.mem_cons_of_mem _ he)
      simp only [depthLoop]
      split
      · exact ih _ _ _ htail hmax
      · apply ih
        · intro e' he'
          rcases List.mem_append.mp he' with hnew | hold
          · obtain ⟨p, hp, rfl⟩ := List.mem_map.mp (List.mem_reverse.mp hnew)
            exact hstep _ _ hhead p hp
          · exact htail e' hold
        · exact Nat.max_le.mpr ⟨hmax, hbound _ _ hhead⟩

theorem mem_parentsIn {tenant node : String} :
    p ∈ s.parentsIn tenant node ↔ s.edge .spawned p node ∧ s.taskTenant p = some tenant := by
  simp only [parentsIn, edge, List.mem_filter, List.mem_map, decide_eq_true_eq]
  constructor
  · rintro ⟨⟨e, ⟨he, rfl, htype⟩, rfl⟩, htenant⟩
    rw [← htype]
    exact ⟨he, htenant⟩
  · rintro ⟨he, htenant⟩
    exact ⟨⟨_, ⟨he, rfl, rfl⟩, rfl⟩, htenant⟩

theorem taskTenant_normal {brief tenant : String} (h : s.taskTenant brief = some tenant) :
    normTenant tenant = tenant := by
  obtain ⟨g, -, rfl⟩ := Option.map_eq_some_iff.mp h
  cases g with
  | none => exact normTenant_default
  | some g => exact g.normal

theorem Sound.depth_le (h : s.Sound) {brief : String} {depth : Nat}
    (hdepth : s.briefDelegationDepth brief = some depth) :
    depth ≤ MAX_SUBBRIEF_DELEGATION_DEPTH := by
  obtain ⟨tenant, htenant, rfl⟩ := Option.map_eq_some_iff.mp hdepth
  rw [delegationDepthInTenant, taskTenant_normal htenant]
  apply depthLoop_le (P := fun node d => s.taskTenant node = some tenant ∧ Chain s.guildEdge d node brief)
  · rintro node d ⟨hnode, hc⟩ p hp
    obtain ⟨hedge, hp⟩ := mem_parentsIn.mp hp
    exact ⟨hp, .cons ⟨hedge, hp.trans hnode.symm⟩ hc⟩
  · rintro node d ⟨-, hc⟩
    exact h.depth d node brief hc
  · intro e he
    rw [List.mem_singleton.mp he]
    exact ⟨htenant, .nil brief⟩
  · exact Nat.zero_le _

/-- The guard of `add_brief_edge` lets the edge through. -/
def Lets (s : TaskStore) (t : String) (edgeType : EdgeType) (r : String) : Prop :=
  t ≠ r ∧ s.taskRowExists t = true ∧ s.taskRowExists r = true ∧ s.findsCycle t edgeType r = false

theorem addBriefEdge_cases (t r : String) (edgeType : EdgeType) (label : String) :
    ((∃ e, s.addBriefEdge t r edgeType label = (.error e, s)) ∧ ¬s.Lets t edgeType r) ∨
      (s.Lets t edgeType r ∧ s.addBriefEdge t r edgeType label = (.ok (),
        if s.hasEdge t edgeType r then s else s.insertEdge t edgeType r)) := by
  rw [addBriefEdge]
  by_cases hself : t = r
  · rw [if_pos hself]
    exact .inl ⟨⟨_, rfl⟩, fun h => h.1 hself⟩
  rw [if_neg hself]
  by_cases ht : s.taskRowExists t = true
  case neg =>
    rw [if_pos (by simp [ht])]
    exact .inl ⟨⟨_, rfl⟩, fun h => ht h.2.1⟩
  rw [if_neg (by simp [ht])]
  by_cases hr : s.taskRowExists r = true
  case neg =>
    rw [if_pos (by simp [hr])]
    exact .inl ⟨⟨_, rfl⟩, fun h => hr h.2.2.1⟩
  rw [if_neg (by simp [hr])]
  by_cases hcycle : s.findsCycle t edgeType r = true
  case pos =>
    rw [if_pos hcycle]
    exact .inl ⟨⟨_, rfl⟩, fun h => by rw [h.2.2.2] at hcycle; cases hcycle⟩
  rw [if_neg hcycle]
  refine .inr ⟨⟨hself, ht, hr, Bool.not_eq_true _ ▸ hcycle⟩, ?_⟩
  split
  · rfl
  · rfl

theorem linkSubbrief_cases (p c : String) :
    ((∃ e, s.linkSubbrief p c = (.error e, s)) ∧
        ¬(s.Lets p .spawned c ∧ (s.hasEdge p .spawned c = false → s.tooDeep p = false))) ∨
      (s.Lets p .spawned c ∧ (s.hasEdge p .spawned c = false → s.tooDeep p = false) ∧
        s.linkSubbrief p c = (.ok (),
          if s.hasEdge p .spawned c then s else s.insertEdge p .spawned c)) := by
  rw [linkSubbrief]
  by_cases hdeep : (!s.hasEdge p .spawned c && s.tooDeep p) = true
  · rw [if_pos hdeep]
    refine .inl ⟨⟨_, rfl⟩, fun h => ?_⟩
    rw [Bool.and_eq_true, Bool.not_eq_true'] at hdeep
    have hshallow := h.2 hdeep.1
    rw [hdeep.2] at hshallow
    cases hshallow
  · rw [if_neg hdeep]
    have hshallow : s.hasEdge p .spawned c = false → s.tooDeep p = false := by
      intro hnew
      rw [hnew] at hdeep
      simpa using hdeep
    rcases addBriefEdge_cases p c .spawned "Sub-brief" with ⟨herror, hnot⟩ | ⟨hlets, heq⟩
    · exact .inl ⟨herror, fun h => hnot h.1⟩
    · exact .inr ⟨hlets, hshallow, heq⟩

def LetsBlockers (s : TaskStore) (t : String) (blockers want : List String) : Prop :=
  s.taskRowExists t = true ∧ s.wantedBlockers t [] blockers = .ok want ∧
    ∀ b ∈ want, s.findsCycle t .blockedOn b = false

theorem findsCycle_withoutSnags (t b : String) :
    (s.withoutSnags t).findsCycle t .blockedOn b = s.findsCycle t .blockedOn b :=
  findsCycle_congr (fun _ ha => related_withoutSnags ha) b

theorem setBriefBlockers_cases (t : String) (blockers : List String) :
    ((∃ e, s.setBriefBlockers t blockers = (.error e, s)) ∧
        ∀ want, ¬s.LetsBlockers t blockers want) ∨
      ∃ want, s.LetsBlockers t blockers want ∧ s.setBriefBlockers t blockers = (.ok (),
        { s.withoutSnags t with
          edges := (s.withoutSnags t).edges ++ want.map (fun b => ⟨t, .blockedOn, b⟩) }) := by
  rw [setBriefBlockers]
  by_cases ht : s.taskRowExists t = true
  case neg =>
    rw [if_pos (by simp [ht])]
    exact .inl ⟨⟨_, rfl⟩, fun want h => ht h.1⟩
  rw [if_neg (by simp [ht])]
  cases hwant : s.wantedBlockers t [] blockers with
  | error e =>
    refine .inl ⟨⟨e, rfl⟩, fun want h => ?_⟩
    have hok := h.2.1
    rw [hwant] at hok
    cases hok
  | ok want =>
    have heq := insertBlockers_eq t want (s.withoutSnags t)
    simp only [findsCycle_withoutSnags] at heq
    by_cases hall : want.all (fun b => !s.findsCycle t .blockedOn b) = true
    · rw [if_pos hall] at heq
      rw [List.all_eq_true] at hall
      refine .inr ⟨want, ⟨ht, hwant, fun b hb => ?_⟩, ?_⟩
      · simpa using hall b hb
      · simp only [heq]
    · rw [if_neg hall] at heq
      refine .inl ⟨⟨.invalid "Snag would create a cycle", ?_⟩, fun want' h => ?_⟩
      · simp only [heq]
      · have hsame := h.2.1
        rw [hwant] at hsame
        cases hsame
        apply hall
        rw [List.all_eq_true]
        intro b hb
        rw [h.2.2 b hb]
        rfl

def Both (s : TaskStore) (p c : String) : Prop :=
  p ≠ c ∧ s.taskRowExists p = true ∧ s.taskRowExists c = true

theorem recordCrossTaskEdge_cases (p r : String) (edgeType : EdgeType) (reason : Option String) :
    (∃ e, s.recordCrossTaskEdge p r edgeType reason = (.error e, s)) ∨
      s.recordCrossTaskEdge p r edgeType reason = (.ok (), s.insertEdge p edgeType r) := by
  rw [recordCrossTaskEdge]
  split
  · exact .inl ⟨_, rfl⟩
  split
  · exact .inl ⟨_, rfl⟩
  split
  · exact .inl ⟨_, rfl⟩
  split
  · exact .inl ⟨_, rfl⟩
  · exact .inr rfl

theorem recordSpawned_cases (p c : String) :
    ((∃ e, s.recordCrossTaskEdge p c .spawned none = (.error e, s)) ∧ ¬s.Both p c) ∨
      (s.Both p c ∧
        s.recordCrossTaskEdge p c .spawned none = (.ok (), s.insertEdge p .spawned c)) := by
  rw [recordCrossTaskEdge]
  by_cases hself : p = c
  · rw [if_pos hself]
    exact .inl ⟨⟨_, rfl⟩, fun h => h.1 hself⟩
  rw [if_neg hself, if_neg (by simp)]
  by_cases hp : s.taskRowExists p = true
  case neg =>
    rw [if_pos (by simp [hp])]
    exact .inl ⟨⟨_, rfl⟩, fun h => hp h.2.1⟩
  rw [if_neg (by simp [hp])]
  by_cases hc : s.taskRowExists c = true
  case neg =>
    rw [if_pos (by simp [hc])]
    exact .inl ⟨⟨_, rfl⟩, fun h => hc h.2.2⟩
  rw [if_neg (by simp [hc])]
  exact .inr ⟨⟨hself, hp, hc⟩, rfl⟩

end TaskStore

namespace GraphOp

open TaskStore

variable {s : TaskStore}

def KeepsGraph (s : TaskStore) : GraphOp → Prop
  | linkSubbrief p c =>
    s.Lets p .spawned c → s.hasEdge p .spawned c = false → s.tooDeep p = false →
      ¬Reaches (s.edge .spawned) c p ∧ s.Fits p c
  | addSnag t b => s.Lets t .blockedOn b → ¬Reaches (s.edge .blockedOn) b t
  | setBriefBlockers t blockers =>
    ∀ want, s.LetsBlockers t blockers want → ∀ b ∈ want, ¬Reaches (s.edge .blockedOn) b t
  | recordSpawned p c => s.Both p c → ¬Reaches (s.edge .spawned) c p ∧ s.Fits p c
  | recordDelegated _ _ _ => True
  | recordAwaited _ _ _ => True

theorem refused {e : CoordinatorError} {op : GraphOp} (h : (op.exec s).1 = .error e) :
    op.step s = s := by
  have hkey : ∀ {answer : Answer}, answer.1 = .error e →
      (∃ e, answer = (.error e, s)) ∨ (∃ s', answer = (.ok (), s')) → answer.2 = s := by
    rintro answer herror (⟨e', rfl⟩ | ⟨s', rfl⟩)
    · rfl
    · cases herror
  apply hkey h
  cases op with
  | linkSubbrief p c =>
    rcases linkSubbrief_cases (s := s) p c with ⟨herror, -⟩ | ⟨-, -, heq⟩
    · exact .inl herror
    · exact .inr ⟨_, heq⟩
  | addSnag t b =>
    rcases addBriefEdge_cases (s := s) t b .blockedOn "Snag" with ⟨herror, -⟩ | ⟨-, heq⟩
    · exact .inl herror
    · exact .inr ⟨_, heq⟩
  | setBriefBlockers t blockers =>
    rcases setBriefBlockers_cases (s := s) t blockers with ⟨herror, -⟩ | ⟨want, -, heq⟩
    · exact .inl herror
    · exact .inr ⟨_, heq⟩
  | recordSpawned p c =>
    rcases recordCrossTaskEdge_cases (s := s) p c .spawned none with herror | heq
    · exact .inl herror
    · exact .inr ⟨_, heq⟩
  | recordDelegated p c reason =>
    rcases recordCrossTaskEdge_cases (s := s) p c .delegatedTo reason with herror | heq
    · exact .inl herror
    · exact .inr ⟨_, heq⟩
  | recordAwaited p c reason =>
    rcases recordCrossTaskEdge_cases (s := s) p c .awaited reason with herror | heq
    · exact .inl herror
    · exact .inr ⟨_, heq⟩

theorem keepsGraph_iff (h : s.Sound) (op : GraphOp) : (op.step s).Sound ↔ op.KeepsGraph s := by
  cases op with
  | linkSubbrief p c =>
    simp only [step, exec, KeepsGraph]
    rcases linkSubbrief_cases (s := s) p c with ⟨⟨e, heq⟩, hnot⟩ | ⟨hlets, hshallow, heq⟩
    · rw [heq]
      refine iff_of_true h (fun hlets hnew hshallow => ?_)
      exact absurd ⟨hlets, fun _ => hshallow⟩ hnot
    · rw [heq]
      by_cases hnew : s.hasEdge p .spawned c = true
      · rw [if_pos hnew]
        refine iff_of_true h (fun _ hnot _ => ?_)
        rw [hnew] at hnot
        cases hnot
      · rw [if_neg hnew, h.insert_spawned_iff]
        rw [Bool.not_eq_true] at hnew
        exact ⟨fun hfits _ _ _ => hfits, fun hkeeps => hkeeps hlets hnew (hshallow hnew)⟩
  | addSnag t b =>
    simp only [step, exec, KeepsGraph, TaskStore.addSnag]
    rcases addBriefEdge_cases (s := s) t b .blockedOn "Snag" with ⟨⟨e, heq⟩, hnot⟩ | ⟨hlets, heq⟩
    · rw [heq]
      exact iff_of_true h (fun hlets => absurd hlets hnot)
    · rw [heq]
      by_cases hold : s.hasEdge t .blockedOn b = true
      · rw [if_pos hold]
        refine iff_of_true h (fun _ => ?_)
        have hedge := hasEdge_iff.mp hold
        exact (Chains.acyclic_plus_iff h.blockedOn).mp
          (h.blockedOn.mono (fun a b' hab => (Chains.plus_self hedge a b').mp hab))
      · rw [if_neg hold, h.insert_blockedOn_iff]
        exact ⟨fun hback _ => hback, fun hkeeps => hkeeps hlets⟩
  | setBriefBlockers t blockers =>
    simp only [step, exec, KeepsGraph]
    rcases setBriefBlockers_cases (s := s) t blockers with ⟨⟨e, heq⟩, hnot⟩ | ⟨want, hlets, heq⟩
    · rw [heq]
      exact iff_of_true h (fun want hlets => absurd hlets (hnot want))
    · rw [heq, h.blockers_iff]
      constructor
      · intro hback want' hlets'
        have hsame := hlets'.2.1
        rw [hlets.2.1] at hsame
        cases hsame
        exact hback
      · intro hkeeps
        exact hkeeps want hlets
  | recordSpawned p c =>
    simp only [step, exec, KeepsGraph]
    rcases recordSpawned_cases (s := s) p c with ⟨⟨e, heq⟩, hnot⟩ | ⟨hboth, heq⟩
    · rw [heq]
      exact iff_of_true h (fun hboth => absurd hboth hnot)
    · rw [heq, h.insert_spawned_iff]
      exact ⟨fun hfits _ => hfits, fun hkeeps => hkeeps hboth⟩
  | recordDelegated p c reason =>
    simp only [step, exec, KeepsGraph, iff_true]
    rcases recordCrossTaskEdge_cases (s := s) p c .delegatedTo reason with ⟨e, heq⟩ | heq
    · rw [heq]
      exact h
    · rw [heq]
      exact h.insert_other (by decide) (by decide) p c
  | recordAwaited p c reason =>
    simp only [step, exec, KeepsGraph, iff_true]
    rcases recordCrossTaskEdge_cases (s := s) p c .awaited reason with ⟨e, heq⟩ | heq
    · rw [heq]
      exact h
    · rw [heq]
      exact h.insert_other (by decide) (by decide) p c

def run (tenants : HashMap String (Option Guild)) (ops : List GraphOp) : TaskStore :=
  Transition.run step ⟨tenants, []⟩ ops

end GraphOp

open TaskStore GraphOp Transition

/-- All along a run the graphs have no cycle and no chain of Sub-briefs in one Guild is too long
exactly if every call that puts an edge puts one with no way back and between chains that fit; the
guards' search sees every way back among so many Briefs, and a refused call leaves the store. -/
theorem brief_graph_sound_iff (tenants : HashMap String (Option Guild)) (ops : List GraphOp) :
    ((∀ pre, pre <+: ops → (GraphOp.run tenants pre).Sound) ↔
      Guarded GraphOp.step GraphOp.KeepsGraph ⟨tenants, []⟩ ops) ∧
    (Guarded GraphOp.step GraphOp.KeepsGraph ⟨tenants, []⟩ ops →
      ∀ pre, pre <+: ops → ∀ brief depth,
        (GraphOp.run tenants pre).briefDelegationDepth brief = some depth →
          depth ≤ MAX_SUBBRIEF_DELEGATION_DEPTH) ∧
    (∀ pre, pre <+: ops → ∀ t edgeType r, ∀ all : List String, all.length ≤ MAX_NODES →
      (∀ b, Reaches ((GraphOp.run tenants pre).edge edgeType) r b → b ∈ all) →
        (GraphOp.run tenants pre).findsCycle t edgeType r = false →
          ¬Reaches ((GraphOp.run tenants pre).edge edgeType) r t) ∧
    ∀ pre, pre <+: ops → ∀ op e, (GraphOp.exec (GraphOp.run tenants pre) op).1 = .error e →
      GraphOp.step (GraphOp.run tenants pre) op = GraphOp.run tenants pre := by
  have hgood : ∀ (s : TaskStore) (op : GraphOp), True → s.Sound →
      ((op.step s).Sound ↔ op.KeepsGraph s) := fun _ op _ h => op.keepsGraph_iff h
  have hiff : (∀ pre, pre <+: ops → (GraphOp.run tenants pre).Sound) ↔
      Guarded GraphOp.step GraphOp.KeepsGraph ⟨tenants, []⟩ ops :=
    prefixes_iff_guarded (fun _ _ _ => trivial) hgood trivial (sound_nil tenants) ops
  refine ⟨hiff, ?_, ?_, ?_⟩
  · intro hguarded pre hpre brief depth hdepth
    exact (hiff.mpr hguarded pre hpre).depth_le hdepth
  · intro pre _ t edgeType r all hroom hall hsearch
    exact findsCycle_complete hall hroom hsearch
  · intro pre _ op e herror
    exact GraphOp.refused herror

/-- `record_spawned` in both directions. -/
theorem spawned_both_ways :
    ¬(GraphOp.run ((HashMap.empty.insert "brief-a" none).insert "brief-b" none)
      [.recordSpawned "brief-a" "brief-b", .recordSpawned "brief-b" "brief-a"]).Sound := by
  intro h
  have hab : edge (GraphOp.run ((HashMap.empty.insert "brief-a" none).insert "brief-b" none)
      [.recordSpawned "brief-a" "brief-b", .recordSpawned "brief-b" "brief-a"])
      .spawned "brief-a" "brief-b" := by
    apply hasEdge_iff.mp
    decide +kernel
  have hba : edge (GraphOp.run ((HashMap.empty.insert "brief-a" none).insert "brief-b" none)
      [.recordSpawned "brief-a" "brief-b", .recordSpawned "brief-b" "brief-a"])
      .spawned "brief-b" "brief-a" := by
    apply hasEdge_iff.mp
    decide +kernel
  exact h.spawned 1 "brief-a" (.cons hab (.cons hba (.nil _)))

end Relux.BriefGraph
