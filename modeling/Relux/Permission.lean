import Mathlib.Data.List.Basic
import Relux.Text
import Relux.TextParts

/-! Capability strings: the grammar they follow, when a held one covers a required one,
and what a tool declares about its risk and its approval. -/

namespace Relux

def validPrefixes : List String :=
  ["tool:", "adapter:", "provider:", "exec:", "plugin:", "agent:", "task:", "approval:", "audit:"]

inductive PermissionError where
  | empty
  | invalidPrefix (s : String)
  | malformedScope (s : String)
  deriving DecidableEq

def PermissionError.text : PermissionError → String
  | .empty => "permission string is empty"
  | .invalidPrefix s => "permission '" ++ s ++ "' does not start with a canonical prefix " ++
      "(tool:, adapter:, provider:, exec:, plugin:, agent:, task:, approval:, audit:)"
  | .malformedScope s => "permission '" ++ s ++ "' is a malformed or over-broad scope (only " ++
      "`tool:<plugin-id>:*` is allowed; no global/partial wildcards or path-like characters)"

def hasInjectionChars (s : List Char) : Bool :=
  containsChars ['.', '.'] s ||
    s.any (fun c => isWhitespace c || isControl c || c == '/' || c == '\\')

def isValidSegment (seg : List Char) : Bool :=
  (match seg with
    | [] => false
    | c :: _ => c.isAlphanum) &&
    seg.all (fun c => c.isAlphanum || c == '_' || c == '-')

/-- The plugin of a scoped wildcard, `tool:<plugin>:*`. -/
def parseToolWildcard (s : List Char) : Option (List Char) := do
  let rest ← "tool:".toList.isPrefixOf? s
  let plugin ← ":*".toList.isSuffixOf? rest
  if isValidSegment plugin then some plugin else none

def parseAgentSubtree (s : List Char) : Option (List Char × List Char) :=
  match splitFields (· == ':') s with
  | [kind, manager, keyword, action] =>
    if kind = "agent".toList ∧ keyword = "subtree".toList ∧ isValidSegment manager ∧
        isValidSegment action then some (manager, action) else none
  | _ => none

theorem parseAgentSubtree_eq {s manager action : List Char}
    (h : parseAgentSubtree s = some (manager, action)) :
    s = "agent:".toList ++ manager ++ ":subtree:".toList ++ action := by
  have hjoin := joinFields_splitFields ':' s
  simp only [parseAgentSubtree] at h
  split at h
  next kind m keyword a hfields =>
    rw [hfields] at hjoin
    split at h
    next hparts =>
      obtain ⟨hkind, hkeyword, -, -⟩ := hparts
      cases h
      rw [← hjoin, hkind, hkeyword]
      simp [joinFields]
    · cases h
  · cases h

def looksLikeAgentSubtree (s : List Char) : Bool :=
  "agent:".toList.isPrefixOf s && ((splitFields (· == ':') s).drop 1).any (· == "subtree".toList)

/-- A permission is stored as its text. A manifest that was read back may carry one that
`Permission.new` would refuse. -/
structure Permission where
  asStr : String
  deriving DecidableEq

def Permission.new (s : String) : Except PermissionError Permission :=
  let chars := s.toList
  if chars.isEmpty then .error .empty
  else if hasInjectionChars chars then .error (.malformedScope s)
  else if ¬ validPrefixes.any (fun p => p.toList.isPrefixOf chars) then
    .error (.invalidPrefix s)
  else if chars.contains '*' ∧ (parseToolWildcard chars).isNone then
    .error (.malformedScope s)
  else if looksLikeAgentSubtree chars ∧ (parseAgentSubtree chars).isNone then
    .error (.malformedScope s)
  else .ok ⟨s⟩

def Permission.authorizes (p required : Permission) : Bool :=
  if p.asStr = required.asStr then true
  else match parseToolWildcard p.asStr.toList with
    | none => false
    | some plugin =>
      match "tool:".toList.isPrefixOf? required.asStr.toList with
      | none => false
      | some rest =>
        match splitOnce ':' rest with
        | none => false
        | some (reqPlugin, reqTool) =>
          reqPlugin == plugin && !reqTool.isEmpty && !reqTool.contains '*'

inductive RiskLevel where
  | low
  | medium
  | high
  | critical
  deriving DecidableEq

def RiskLevel.debug : RiskLevel → String
  | .low => "Low"
  | .medium => "Medium"
  | .high => "High"
  | .critical => "Critical"

inductive ApprovalRequirement where
  | never
  | required
  | requiredWhenRisk (threshold : RiskLevel)
  deriving DecidableEq

structure ToolDefinition where
  name : String
  description : String
  risk : RiskLevel
  permission : Permission
  approval : ApprovalRequirement
  timeoutSecs : Option Nat
  deriving DecidableEq

def riskRank : RiskLevel → Nat
  | .low => 0
  | .medium => 1
  | .high => 2
  | .critical => 3

def approvalBlocksDirectInvocation (approval : ApprovalRequirement) (risk : RiskLevel) : Bool :=
  match approval with
  | .never => false
  | .required => true
  | .requiredWhenRisk threshold => riskRank threshold ≤ riskRank risk

theorem authorizes_self (p : Permission) : p.authorizes p = true := by
  simp [Permission.authorizes]

variable {s : String} {p : Permission}

theorem Permission.new_asStr (h : Permission.new s = .ok p) : p.asStr = s := by
  simp only [Permission.new] at h
  split at h
  · cases h
  · split at h
    · cases h
    · split at h
      · cases h
      · split at h
        · cases h
        · split at h
          · cases h
          · cases h
            rfl

/-! The capability strings that are accepted, and the order in which they cover each other. -/

variable {seg : List Char}

theorem isValidSegment_chars (h : isValidSegment seg = true) :
    ∀ c ∈ seg, c.isAlphanum = true ∨ c = '_' ∨ c = '-' := by
  unfold isValidSegment at h
  rw [Bool.and_eq_true, List.all_eq_true] at h
  intro c hc
  have hchar := h.2 c hc
  simp only [Bool.or_eq_true, beq_iff_eq, or_assoc] at hchar
  exact hchar

theorem isValidSegment_ne_nil (h : isValidSegment seg = true) : seg ≠ [] := by
  rintro rfl
  cases h

theorem isValidSegment_free (h : isValidSegment seg = true) {c : Char} (hc : c = ':' ∨ c = '*') :
    c ∉ seg := by
  intro hmem
  rcases isValidSegment_chars h c hmem with halnum | hother
  · rcases hc with rfl | rfl <;> cases halnum
  · rcases hc with rfl | rfl <;> rcases hother with h | h <;> cases h

/-- The text of a tool capability, `tool:<plugin>:<rest>`. -/
def toolText (plugin rest : List Char) : List Char := "tool:".toList ++ (plugin ++ ':' :: rest)

variable {plugin rest : List Char}

theorem toolText_inj {plugin' rest' : List Char} (hp : ':' ∉ plugin) (hp' : ':' ∉ plugin')
    (h : toolText plugin rest = toolText plugin' rest') : plugin = plugin' ∧ rest = rest' := by
  have hsplit := splitOnce_append hp rest
  rw [List.append_cancel_left h, splitOnce_append hp' rest'] at hsplit
  obtain ⟨hplugin, hrest⟩ := Prod.mk.inj (Option.some.inj hsplit)
  exact ⟨hplugin.symm, hrest.symm⟩

theorem parseToolWildcard_eq_some {s : List Char} :
    parseToolWildcard s = some plugin ↔
      isValidSegment plugin = true ∧ s = toolText plugin ['*'] := by
  unfold parseToolWildcard
  constructor
  · intro h
    simp only [Option.bind_eq_bind, Option.bind_eq_some_iff] at h
    obtain ⟨rest, hrest, plugin', hplugin, hsome⟩ := h
    split at hsome
    next hvalid =>
      cases hsome
      rw [List.isPrefixOf?_eq_some_iff_append_eq] at hrest
      rw [List.isSuffixOf?_eq_some_iff_append_eq] at hplugin
      refine ⟨hvalid, ?_⟩
      rw [← hrest, ← hplugin]
      rfl
    · cases hsome
  · rintro ⟨hvalid, rfl⟩
    have hrest : "tool:".toList.isPrefixOf? (toolText plugin ['*']) = some (plugin ++ [':', '*']) :=
      List.isPrefixOf?_eq_some_iff_append_eq.mpr rfl
    have hplugin : ":*".toList.isSuffixOf? (plugin ++ [':', '*']) = some plugin :=
      List.isSuffixOf?_eq_some_iff_append_eq.mpr rfl
    simp only [hrest, hplugin, hvalid, Option.bind_eq_bind, Option.bind_some, if_true]

namespace Permission

/-- The permission is the wildcard `tool:<plugin>:*`. -/
def IsWildcardOf (plugin : List Char) (p : Permission) : Prop :=
  isValidSegment plugin = true ∧ p.asStr.toList = toolText plugin ['*']

theorem wildcard_of_star (h : Permission.new s = .ok p) (hstar : '*' ∈ p.asStr.toList) :
    ∃ plugin, p.IsWildcardOf plugin := by
  rw [new_asStr h] at hstar
  simp only [Permission.new] at h
  split at h
  · cases h
  · split at h
    · cases h
    · split at h
      · cases h
      · split at h
        · cases h
        next hwild =>
          cases hparse : parseToolWildcard s.toList with
          | none => exact absurd ⟨List.contains_iff_mem.mpr hstar, by rw [hparse]; rfl⟩ hwild
          | some plugin =>
            refine ⟨plugin, ?_⟩
            split at h
            · cases h
            · cases h
              exact parseToolWildcard_eq_some.mp hparse

variable {r g : Permission}

/-- What a wildcard covers besides itself: whatever follows its plugin, as long as it is not
empty and holds no `*`. -/
theorem authorizes_iff :
    g.authorizes r = true ↔ g = r ∨ ∃ plugin rest, g.IsWildcardOf plugin ∧
      r.asStr.toList = toolText plugin rest ∧ rest ≠ [] ∧ '*' ∉ rest := by
  have heq : g.asStr = r.asStr ↔ g = r := by
    cases g
    cases r
    simp
  unfold authorizes
  rw [← heq]
  by_cases hsame : g.asStr = r.asStr
  · simp [hsame]
  rw [if_neg hsame]
  simp only [hsame, false_or]
  constructor
  · intro h
    split at h
    · cases h
    next plugin hparse =>
      split at h
      · cases h
      next rest hrest =>
        split at h
        · cases h
        next reqPlugin reqTool hsplit =>
          obtain ⟨rfl, -⟩ := splitOnce_eq_some.mp hsplit
          rw [List.isPrefixOf?_eq_some_iff_append_eq] at hrest
          simp only [Bool.and_eq_true, beq_iff_eq, Bool.not_eq_true', List.isEmpty_eq_false_iff,
            List.contains_eq_mem, decide_eq_false_iff_not] at h
          obtain ⟨⟨rfl, hne⟩, hstar⟩ := h
          exact ⟨reqPlugin, reqTool, parseToolWildcard_eq_some.mp hparse, hrest.symm, hne, hstar⟩
  · rintro ⟨plugin, rest, hwild, hr, hne, hstar⟩
    have hsplit := splitOnce_append (isValidSegment_free hwild.1 (.inl rfl)) rest
    have hprefix : "tool:".toList.isPrefixOf? r.asStr.toList = some (plugin ++ ':' :: rest) :=
      List.isPrefixOf?_eq_some_iff_append_eq.mpr hr.symm
    simp only [parseToolWildcard_eq_some.mpr hwild, hprefix, hsplit]
    simp [hne, hstar]

theorem wildcard_unique {plugin' : List Char} (h : p.IsWildcardOf plugin) (hfree : ':' ∉ plugin')
    (hp : p.asStr.toList = toolText plugin' rest) : plugin = plugin' ∧ rest = ['*'] := by
  rw [h.2] at hp
  obtain ⟨hplugin, hrest⟩ := toolText_inj (isValidSegment_free h.1 (.inl rfl)) hfree hp
  exact ⟨hplugin, hrest.symm⟩

theorem authorizes_trans {s : Permission} (hgr : g.authorizes r = true)
    (hrs : r.authorizes s = true) : g.authorizes s = true := by
  rcases authorizes_iff.mp hgr with rfl | ⟨plugin, rest, hg, hr, -, hstar⟩
  · exact hrs
  rcases authorizes_iff.mp hrs with rfl | ⟨plugin', rest', hwild, -⟩
  · exact hgr
  -- What a wildcard covers is no wildcard itself.
  have hrest := (wildcard_unique hwild (isValidSegment_free hg.1 (.inl rfl)) hr).2
  rw [hrest] at hstar
  exact absurd List.mem_cons_self hstar

def IsToolOf (plugin : List Char) (p : Permission) : Prop :=
  ∃ tool, isValidSegment tool = true ∧ p.asStr.toList = toolText plugin tool

/-- The order that the permissions are to be in, as far as `g` and `r` are concerned. -/
structure Ordered (g r : Permission) : Prop where
  refl : g.authorizes g = true
  trans : ∀ s : Permission, g.authorizes r = true → r.authorizes s = true → g.authorizes s = true
  covers : g.authorizes r = true ↔ g = r ∨ ∃ plugin, g.IsWildcardOf plugin ∧ r.IsToolOf plugin
  inside : ∀ plugin, g.IsWildcardOf plugin → g.authorizes r = true →
    ∃ rest, r.asStr.toList = toolText plugin rest
  star : '*' ∈ g.asStr.toList → ∃ plugin, g.IsWildcardOf plugin

/-- A wildcard and a permission of its plugin whose part after the plugin is more than the name of
one tool. -/
def OverReaches (g r : Permission) : Prop :=
  ∃ plugin rest, g.IsWildcardOf plugin ∧ r.asStr.toList = toolText plugin rest ∧ rest ≠ [] ∧
    rest ≠ ['*'] ∧ isValidSegment rest = false

theorem star_notMem_rest (hr : Permission.new s = .ok r) (hfree : ':' ∉ plugin)
    (htext : r.asStr.toList = toolText plugin rest) (hne : rest ≠ ['*']) : '*' ∉ rest := by
  intro hmem
  have hstar : '*' ∈ r.asStr.toList := by
    rw [htext]
    unfold toolText
    simp [hmem]
  obtain ⟨plugin', hwild⟩ := wildcard_of_star hr hstar
  exact hne (wildcard_unique hwild hfree htext).2

theorem covers_iff (hr : Permission.new s = .ok r) :
    (g.authorizes r = true ↔ g = r ∨ ∃ plugin, g.IsWildcardOf plugin ∧ r.IsToolOf plugin) ↔
      ¬g.OverReaches r := by
  constructor
  · rintro hcovers ⟨plugin, rest, hg, htext, hnil, hwild, hsegment⟩
    have hfree := isValidSegment_free hg.1 (.inl rfl : ':' = ':' ∨ ':' = '*')
    have hauth : g.authorizes r = true :=
      authorizes_iff.mpr
        (.inr ⟨plugin, rest, hg, htext, hnil, star_notMem_rest hr hfree htext hwild⟩)
    rcases hcovers.mp hauth with rfl | ⟨plugin', hg', tool, htool, htext'⟩
    · exact hwild (wildcard_unique hg hfree htext).2
    · have hfree' := isValidSegment_free hg'.1 (.inl rfl : ':' = ':' ∨ ':' = '*')
      rw [htext] at htext'
      rw [← (toolText_inj hfree hfree' htext').2, hsegment] at htool
      cases htool
  · intro hnot
    constructor
    · intro hauth
      rcases authorizes_iff.mp hauth with heq | ⟨plugin, rest, hg, htext, hnil, hstar⟩
      · exact .inl heq
      · refine .inr ⟨plugin, hg, rest, ?_, htext⟩
        by_contra hsegment
        rw [Bool.not_eq_true] at hsegment
        refine hnot ⟨plugin, rest, hg, htext, hnil, ?_, hsegment⟩
        rintro rfl
        exact hstar List.mem_cons_self
    · rintro (rfl | ⟨plugin, hg, tool, htool, htext⟩)
      · exact authorizes_self g
      · exact authorizes_iff.mpr (.inr ⟨plugin, tool, hg, htext, isValidSegment_ne_nil htool,
          isValidSegment_free htool (.inr rfl)⟩)

/-- The accepted permissions are ordered as they are to be, except where a wildcard covers a
permission of its plugin that names more than one tool. -/
theorem ordered_iff {gs rs : String} {g r : Permission} (hg : Permission.new gs = .ok g)
    (hr : Permission.new rs = .ok r) : g.Ordered r ↔ ¬g.OverReaches r := by
  constructor
  · intro h
    exact (covers_iff hr).mp h.covers
  · intro hnot
    refine ⟨authorizes_self g, fun s => authorizes_trans, (covers_iff hr).mpr hnot, ?_,
      wildcard_of_star hg⟩
    intro plugin hwild hauth
    rcases authorizes_iff.mp hauth with rfl | ⟨plugin', rest, hg', htext, -⟩
    · exact ⟨['*'], hwild.2⟩
    · have hfree := isValidSegment_free hwild.1 (.inl rfl : ':' = ':' ∨ ':' = '*')
      rw [← (wildcard_unique hg' hfree hwild.2).1]
      exact ⟨rest, htext⟩

theorem ordered_iff_github : (Permission.mk "tool:github:*").Ordered ⟨"tool:github:create_pr"⟩ ↔
    ¬(Permission.mk "tool:github:*").OverReaches ⟨"tool:github:create_pr"⟩ :=
  ordered_iff (by decide : Permission.new "tool:github:*" = .ok ⟨"tool:github:*"⟩)
    (by decide : Permission.new "tool:github:create_pr" = .ok ⟨"tool:github:create_pr"⟩)

/-- `tool:github:*` covers `tool:github:repo:delete`, which is no tool of the plugin. -/
theorem wildcard_over_reaches : ¬∀ (gs rs : String) (g r : Permission),
    Permission.new gs = .ok g → Permission.new rs = .ok r → g.Ordered r := by
  intro h
  have hordered := h "tool:github:*" "tool:github:repo:delete" ⟨"tool:github:*"⟩
    ⟨"tool:github:repo:delete"⟩ (by decide) (by decide)
  have hauth : (Permission.mk "tool:github:*").authorizes ⟨"tool:github:repo:delete"⟩ = true := by
    decide
  rcases hordered.covers.mp hauth with heq | ⟨plugin, hg, tool, htool, htext⟩
  · exact absurd heq (by decide)
  · have hfree := isValidSegment_free hg.1 (.inl rfl : ':' = ':' ∨ ':' = '*')
    have hrest := (toolText_inj hfree (by decide : ':' ∉ "github".toList)
      (htext.symm.trans (by decide :
        "tool:github:repo:delete".toList = toolText "github".toList "repo:delete".toList))).2
    rw [hrest] at htool
    revert htool
    decide

end Permission

end Relux
