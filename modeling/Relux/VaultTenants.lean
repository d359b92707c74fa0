import Mathlib.Data.List.Nodup
import Mathlib.Data.List.Sort
import Mathlib.Data.Prod.Lex
import Mathlib.Data.String.Basic
import Relux.Vault

/-! The requests to the store of credentials and their answers, and how far a tenant sees and
changes nothing but its own credentials. -/

namespace Relux.Vault

/-- What `credentials.list` returns of a row. -/
structure CredentialSummary where
  name : String
  kind : String
  ownerAgent : Option String
  createdAtMs : Int
  expiresAtMs : Option Int
  lastRotatedAtMs : Option Int
  nextRotationAtMs : Option Int
  revoked : Bool
  version : Nat
  keyVersion : Option String
  deriving DecidableEq, Repr

def Credential.summary {Blob : Type} (c : Credential Blob) : CredentialSummary :=
  ⟨c.name, c.kind, c.ownerAgent, c.createdAtMs, c.expiresAtMs, c.lastRotatedAtMs,
    c.nextRotationAtMs, c.revoked, c.version, c.keyVersion⟩

def CredentialError.body : CredentialError → String
  | .sqlite m => "sqlite: " ++ m
  | .serialization m => "serialization: " ++ m
  | .encryption m => "encryption: " ++ m
  | .notFound name => "credential \x60" ++ name ++ "\x60 not found"
  | .revoked name => "credential \x60" ++ name ++ "\x60 is revoked"
  | .missingTenant => "tenant_id required in multi-tenant mode"
  | .unknownKeyVersion v => "row references unknown key_version \x60" ++ v ++ "\x60"
  | .migrationVerifyFailed m => m

def CredentialError.text (e : CredentialError) : String := "credentials: " ++ e.body

inductive ErrorKind where
  | invalidArgs
  | securityDenied
  | responderInternal
  deriving DecidableEq, Repr

/-- A `HandlerOutcome`, its JSON as the value it stands for. -/
inductive Response where
  | summary (c : CredentialSummary)
  | plain (c : DecryptedCredential)
  | summaries (rows : List CredentialSummary)
  | auditRows (rows : List AuditRow)
  | refused (kind : ErrorKind) (cause : String)
  deriving DecidableEq, Repr

structure Caller where
  name : String
  tenantId : Option String

inductive Request where
  | store (name value : String) (kind ownerAgent : Option String) (expiresAtMs : Option Int)
      (rotationIntervalSecs : Option Nat)
  | get (name : String)
  | rotate (name newValue : String)
  | revoke (name : String) (reason : Option String)
  | list (ownerAgent : Option String)
  | audit (name : String) (limit : Option Nat)

structure Draw where
  id : String
  nonce : Nat

def Draw.rowId (draw : Draw) : String := "cred_" ++ draw.id

def parseKind : Option String → String
  | none => "api_key"
  | some kind =>
    let named := (trim kind).map Char.toLower
    if named ∈ ["api_key", "token", "secret", "oauth_refresh"] then named else "other"

section
variable {Key Blob : Type} (store : CredentialStore Key Blob)

def invalid (cause : String) : Response := .refused .invalidArgs cause

def internal (e : CredentialError) : Response := .refused .responderInternal e.text

def Listed (a b : Credential Blob) : Prop :=
  b.createdAtMs < a.createdAtMs ∨ (a.createdAtMs = b.createdAtMs ∧ a.name ≤ b.name)

instance (a b : Credential Blob) : Decidable (Listed a b) := inferInstanceAs (Decidable (_ ∨ _))

def Shared.listRows (s : Shared Blob) (keep : Credential Blob → Bool) :
    List CredentialSummary :=
  ((s.rows.values.filter keep).insertionSort Listed).map (·.summary)

def listForTenant (s : Shared Blob) (owner tenant : Option String) :
    Except CredentialError (List CredentialSummary) :=
  let owned (row : Credential Blob) : Bool := owner.all (fun o => row.ownerAgent == some o)
  if store.tenantIsolation then
    if blankTenant tenant then .error .missingTenant
    else .ok (s.listRows (fun row => row.tenantId == tenant && owned row))
  else .ok (s.listRows owned)

/-- The end of a call that wrote a row: the row is read back, and the event is written down. -/
def readBack (s : Shared Blob) (id name : String) (event : AuditEvent)
    (actor details : Option String) : Shared Blob × Response :=
  match s.rows.get? id with
  | none => (s, internal (.notFound name))
  | some row => (s.audit id event actor details, .summary row.summary)

def handleStore (s : Shared Blob) (caller : Caller) (draw : Draw) (name value : String)
    (kind ownerAgent : Option String) (expiresAtMs : Option Int)
    (rotationIntervalSecs : Option Nat) : Shared Blob × Response :=
  if (trim name).isEmpty || value.isEmpty then (s, invalid "name and value are required")
  else
    let new : NewCredential := ⟨name, value, parseKind kind, ownerAgent, expiresAtMs,
      rotationIntervalSecs, some caller.name,
      if store.tenantIsolation then caller.tenantId else none⟩
    match insertNew store s store.tenantIsolation new draw.rowId draw.nonce with
    | .error e => (s, internal e)
    | .ok s' => readBack s' draw.rowId name .stored (some caller.name) none

def handleGet (s : Shared Blob) (caller : Caller) (gate : Caller → String → Option Response)
    (name : String) : Shared Blob × Response :=
  if (trim name).isEmpty then (s, invalid "name is required")
  else match gate caller name with
    | some refusal => (s, refusal)
    | none =>
      match listForTenant store s none caller.tenantId with
      | .error e => (s, internal e)
      | .ok rows =>
        match rows.find? (fun r => r.name == name) with
        | none => (s, invalid ("credentials: unknown name \x60" ++ name ++ "\x60"))
        | some summary =>
          if summary.ownerAgent ≠ some caller.name then
            (s, .refused .securityDenied ("credentials: caller \x60" ++ caller.name ++
              "\x60 is not the owner of \x60" ++ name ++ "\x60 (" ++
              (match summary.ownerAgent with
                | some o => "owned by \x60" ++ o ++ "\x60"
                | none => "unscoped (no owner)") ++ "); access denied"))
          else match rowToGet store s name (some caller.tenantId) with
            | .error e => (s, internal e)
            | .ok none =>
              (s, invalid ("credentials: \x60" ++ name ++ "\x60 is revoked or expired"))
            | .ok (some row) =>
              match decryptRow store s row with
              | .error e => (s, internal e)
              | .ok credential =>
                (s.audit row.id .accessed (some caller.name) none, .plain credential)

def handleRotate (s : Shared Blob) (caller : Caller) (draw : Draw) (name newValue : String) :
    Shared Blob × Response :=
  if (trim name).isEmpty || newValue.isEmpty then
    (s, invalid "name and new_value are required")
  else match s.getRowByName name with
    | none => (s, internal (.notFound name))
    | some row =>
      if row.revoked then (s, internal (.revoked name))
      else match store.sealActive draw.nonce newValue with
        | .error e => (s, internal e)
        | .ok blob =>
          readBack (writeRotation store s row newValue blob) row.id name .rotated
            (some caller.name) none

def handleRevoke (s : Shared Blob) (caller : Caller) (name : String) (reason : Option String) :
    Shared Blob × Response :=
  if (trim name).isEmpty then (s, invalid "name is required")
  else match s.getRowByName name with
    | none => (s, internal (.notFound name))
    | some row =>
      if row.revoked then (s, .summary row.summary)
      else readBack (writeRevocation s row reason) row.id name .revoked (some caller.name) reason

def handleList (s : Shared Blob) (caller : Caller) (owner : Option String) :
    Shared Blob × Response :=
  match listForTenant store s owner caller.tenantId with
  | .error e => (s, internal e)
  | .ok rows => (s, .summaries rows)

def auditLimit (limit : Nat) : Nat := if limit = 0 then 100 else min (max limit 1) 5000

def Shared.auditRows (s : Shared Blob) (id : String) (limit : Nat) : List AuditRow :=
  ((s.audits.reverse.filter (fun a => a.credentialId == id)).insertionSort
    (fun a b => a.timestampMs ≤ b.timestampMs)).take (auditLimit limit)

def handleAudit (s : Shared Blob) (name : String) (limit : Option Nat) :
    Shared Blob × Response :=
  if (trim name).isEmpty then (s, invalid "name is required")
  else match s.getRowByName name with
    | none => (s, internal (.notFound name))
    | some row => (s, .auditRows (s.auditRows row.id (limit.getD 0)))

def handle (caller : Caller) (gate : Caller → String → Option Response) (draw : Draw)
    (s : Shared Blob) : Request → Shared Blob × Response
  | .store name value kind ownerAgent expiresAtMs rotationIntervalSecs =>
    handleStore store s caller draw name value kind ownerAgent expiresAtMs rotationIntervalSecs
  | .get name => handleGet store s caller gate name
  | .rotate name newValue => handleRotate store s caller draw name newValue
  | .revoke name reason => handleRevoke s caller name reason
  | .list owner => handleList store s caller owner
  | .audit name limit => handleAudit s name limit

end

section
variable {Key Blob : Type}

/-- What the keys of the tables keep: ids and names are unique, and the audit is of rows. -/
structure Shared.WellFormed (s : Shared Blob) : Prop where
  keyed : s.rows.KeyedBy (·.id)
  names : ∀ id id' row row', s.rows.get? id = some row → s.rows.get? id' = some row' →
    row.name = row'.name → id = id'
  audited : ∀ a ∈ s.audits, (s.rows.get? a.credentialId).isSome = true

def Shared.owns (s : Shared Blob) (tenant id : String) : Bool :=
  (s.rows.get? id).any (fun row => row.tenantId == some tenant)

/-- The two vaults have the same rows and the same audit of the tenant, at the same time. -/
structure Shared.Agree (tenant : String) (s₁ s₂ : Shared Blob) : Prop where
  now : s₁.nowMs = s₂.nowMs
  rows : ∀ id row, row.tenantId = some tenant →
    (s₁.rows.get? id = some row ↔ s₂.rows.get? id = some row)
  audits : s₁.audits.filter (fun a => s₁.owns tenant a.credentialId) =
    s₂.audits.filter (fun a => s₂.owns tenant a.credentialId)

structure Shared.Untouched (tenant : String) (s s' : Shared Blob) : Prop where
  rows : ∀ id row, row.tenantId ≠ some tenant →
    (s.rows.get? id = some row ↔ s'.rows.get? id = some row)
  audits : s.audits.filter (fun a => !s.owns tenant a.credentialId) =
    s'.audits.filter (fun a => !s'.owns tenant a.credentialId)

def Shared.NameFree (s : Shared Blob) (tenant name : String) : Prop :=
  ∀ id row, s.rows.get? id = some row → row.name = name → row.tenantId = some tenant

variable {name id : String} {row : Credential Blob}

section
variable {tenant : String} {s s' s₁ s₂ : Shared Blob}

theorem find_iff (h : s.WellFormed) {p : Credential Blob → Bool}
    (hp : ∀ r, p r = true → r.name = name) :
    s.rows.values.find? p = some row ↔ s.rows.get? row.id = some row ∧ p row = true := by
  have hvalue : ∀ {r : Credential Blob}, r ∈ s.rows.values → s.rows.get? r.id = some r := by
    intro r hr
    obtain ⟨key, hget⟩ := HashMap.mem_values.mp hr
    have hid : r.id = key := h.keyed key r hget
    rw [hid]
    exact hget
  constructor
  · intro hfind
    exact ⟨hvalue (List.mem_of_find?_eq_some hfind), List.find?_some hfind⟩
  · rintro ⟨hget, hrow⟩
    cases hfind : s.rows.values.find? p with
    | none =>
      exact absurd hrow (List.find?_eq_none.mp hfind row (HashMap.mem_values.mpr ⟨row.id, hget⟩))
    | some other =>
      have hname := (hp other (List.find?_some hfind)).trans (hp row hrow).symm
      have hget' := hvalue (List.mem_of_find?_eq_some hfind)
      have hid := h.names _ _ other row hget' hget hname
      rw [hid, hget] at hget'
      rw [← Option.some.inj hget']

theorem rowByName_iff (h : s.WellFormed) :
    s.getRowByName name = some row ↔ s.rows.get? row.id = some row ∧ row.name = name := by
  rw [Shared.getRowByName, find_iff h fun r => eq_of_beq, beq_iff_eq]

theorem rowByNameForTenant_iff (h : s.WellFormed) :
    s.getRowByNameForTenant name tenant = some row ↔
      s.rows.get? row.id = some row ∧ row.name = name ∧ row.tenantId = some tenant := by
  rw [Shared.getRowByNameForTenant, find_iff h fun r hr => eq_of_beq (Bool.and_eq_true_iff.mp hr).1]
  simp only [Bool.and_eq_true, beq_iff_eq]

theorem rowByName_agree (h₁ : s₁.WellFormed) (h₂ : s₂.WellFormed) (h : s₁.Agree tenant s₂)
    (hfree₁ : s₁.NameFree tenant name) (hfree₂ : s₂.NameFree tenant name) :
    s₁.getRowByName name = s₂.getRowByName name := by
  apply Option.ext
  intro row
  rw [rowByName_iff h₁, rowByName_iff h₂]
  constructor
  · rintro ⟨hget, hname⟩
    exact ⟨(h.rows row.id row (hfree₁ _ row hget hname)).mp hget, hname⟩
  · rintro ⟨hget, hname⟩
    exact ⟨(h.rows row.id row (hfree₂ _ row hget hname)).mpr hget, hname⟩

theorem rowByNameForTenant_agree (h₁ : s₁.WellFormed) (h₂ : s₂.WellFormed)
    (h : s₁.Agree tenant s₂) (name : String) :
    s₁.getRowByNameForTenant name tenant = s₂.getRowByNameForTenant name tenant := by
  apply Option.ext
  intro row
  rw [rowByNameForTenant_iff h₁, rowByNameForTenant_iff h₂]
  constructor
  · rintro ⟨hget, hname, htenant⟩
    exact ⟨(h.rows row.id row htenant).mp hget, hname, htenant⟩
  · rintro ⟨hget, hname, htenant⟩
    exact ⟨(h.rows row.id row htenant).mpr hget, hname, htenant⟩

theorem owns_of_get (h : s.rows.get? id = some row) (htenant : row.tenantId = some tenant) :
    s.owns tenant id = true := by
  rw [Shared.owns, h, Option.any_some, htenant]
  exact beq_self_eq_true _

theorem get_of_owns (h : s.owns tenant id = true) :
    ∃ row, s.rows.get? id = some row ∧ row.tenantId = some tenant := by
  cases hget : s.rows.get? id with
  | none =>
    rw [Shared.owns, hget] at h
    cases h
  | some row =>
    rw [Shared.owns, hget, Option.any_some] at h
    exact ⟨row, rfl, eq_of_beq h⟩

theorem listed_iff (a b : Credential Blob) : Listed a b ↔
    toLex (OrderDual.toDual a.createdAtMs, a.name) ≤ toLex (OrderDual.toDual b.createdAtMs, b.name) := by
  rw [Prod.Lex.toLex_le_toLex]
  rfl

instance : Std.Total (@Listed Blob) :=
  ⟨fun a b => by simpa only [listed_iff] using le_total _ _⟩

instance : IsTrans (Credential Blob) Listed :=
  ⟨fun a b c => by simpa only [listed_iff] using le_trans⟩

theorem listed_name {a b : Credential Blob} (hab : Listed a b) (hba : Listed b a) :
    a.name = b.name := by
  rw [listed_iff] at hab hba
  exact (Prod.mk.inj (toLex_inj.mp (le_antisymm hab hba))).2

theorem listRows_agree (h₁ : s₁.WellFormed) (h₂ : s₂.WellFormed) (h : s₁.Agree tenant s₂)
    {keep : Credential Blob → Bool} (hkeep : ∀ row, keep row = true → row.tenantId = some tenant) :
    s₁.listRows keep = s₂.listRows keep := by
  have hnodup : ∀ {s : Shared Blob}, s.WellFormed → (s.rows.values.filter keep).Nodup := by
    intro s hs
    exact (hs.keyed.values_nodup.of_map _).filter _
  have hmem : ∀ row, row ∈ s₁.rows.values.filter keep ↔ row ∈ s₂.rows.values.filter keep := by
    intro row
    rw [List.mem_filter, List.mem_filter, HashMap.mem_values, HashMap.mem_values]
    constructor
    · rintro ⟨⟨id, hget⟩, hk⟩
      exact ⟨⟨id, (h.rows id row (hkeep row hk)).mp hget⟩, hk⟩
    · rintro ⟨⟨id, hget⟩, hk⟩
      exact ⟨⟨id, (h.rows id row (hkeep row hk)).mpr hget⟩, hk⟩
  have hperm : (s₁.rows.values.filter keep).Perm (s₂.rows.values.filter keep) :=
    (List.perm_ext_iff_of_nodup (hnodup h₁) (hnodup h₂)).mpr hmem
  have hsame : (s₁.rows.values.filter keep).insertionSort Listed =
      (s₂.rows.values.filter keep).insertionSort Listed := by
    have hsorted := ((List.perm_insertionSort Listed _).trans hperm).trans
      (List.perm_insertionSort Listed (s₂.rows.values.filter keep)).symm
    refine List.Perm.eq_of_pairwise ?_ (List.pairwise_insertionSort Listed _)
      (List.pairwise_insertionSort Listed _) hsorted
    intro a b ha hb hab hba
    rw [List.mem_insertionSort] at ha hb
    obtain ⟨id, hget⟩ := HashMap.mem_values.mp (List.mem_filter.mp ((hmem a).mp ha)).1
    obtain ⟨id', hget'⟩ := HashMap.mem_values.mp (List.mem_filter.mp hb).1
    have hid := h₂.names id id' a b hget hget' (listed_name hab hba)
    rw [hid, hget'] at hget
    exact (Option.some.inj hget).symm
  rw [Shared.listRows, Shared.listRows, hsame]

structure Shared.Puts (s s' : Shared Blob) (id : String) (row : Credential Blob)
    (event : AuditEvent) (actor details : Option String) : Prop where
  now : s'.nowMs = s.nowMs
  rows : ∀ id', s'.rows.get? id' = if id' = id then some row else s.rows.get? id'
  audits : s'.audits = ⟨id, event, actor, s.nowMs, details⟩ :: s.audits

structure Shared.PutsOwn (tenant : String) (s s' : Shared Blob) (id : String)
    (row : Credential Blob) (event : AuditEvent) (actor details : Option String) : Prop extends
    s.Puts s' id row event actor details where
  mine : row.tenantId = some tenant
  before : ∀ old, s.rows.get? id = some old → old.tenantId = some tenant

variable {id : String} {row : Credential Blob} {event : AuditEvent} {actor details : Option String}

theorem Shared.PutsOwn.owns (h : s.PutsOwn tenant s' id row event actor details)
    {id' : String} (hid : (s.rows.get? id').isSome = true) :
    s'.owns tenant id' = s.owns tenant id' := by
  by_cases heq : id' = id
  · obtain ⟨old, hold⟩ := Option.isSome_iff_exists.mp hid
    have hafter : s'.rows.get? id' = some row := by
      rw [h.rows, if_pos heq]
    rw [owns_of_get hafter h.mine, owns_of_get hold (h.before old (heq ▸ hold))]
  · rw [Shared.owns, Shared.owns, h.rows, if_neg heq]

theorem Shared.PutsOwn.owns_self (h : s.PutsOwn tenant s' id row event actor details) :
    s'.owns tenant id = true := by
  have hafter : s'.rows.get? id = some row := by
    rw [h.rows, if_pos rfl]
  exact owns_of_get hafter h.mine

theorem Shared.PutsOwn.untouched (hs : s.WellFormed)
    (h : s.PutsOwn tenant s' id row event actor details) : s.Untouched tenant s' where
  rows := by
    intro id' row' hother
    rw [h.rows]
    by_cases heq : id' = id
    · rw [if_pos heq, heq]
      constructor
      · intro hget
        exact absurd (h.before row' hget) hother
      · intro hget
        rw [← Option.some.inj hget] at hother
        exact absurd h.mine hother
    · rw [if_neg heq]
  audits := by
    rw [h.audits, List.filter_cons_of_neg (by rw [h.owns_self]; decide)]
    apply List.filter_congr
    intro a ha
    rw [h.owns (hs.audited a ha)]

theorem Shared.PutsOwn.agree {s₁' s₂' : Shared Blob} (hs₁ : s₁.WellFormed) (hs₂ : s₂.WellFormed)
    (h : s₁.Agree tenant s₂) (h₁ : s₁.PutsOwn tenant s₁' id row event actor details)
    (h₂ : s₂.PutsOwn tenant s₂' id row event actor details) : s₁'.Agree tenant s₂' where
  now := by rw [h₁.now, h₂.now, h.now]
  rows := by
    intro id' row' hmine
    rw [h₁.rows, h₂.rows]
    by_cases heq : id' = id
    · rw [if_pos heq, if_pos heq]
    · rw [if_neg heq, if_neg heq]
      exact h.rows id' row' hmine
  audits := by
    have hfilter : ∀ {s s' : Shared Blob}, s.WellFormed →
        s.PutsOwn tenant s' id row event actor details →
        s'.audits.filter (fun a => s'.owns tenant a.credentialId) =
          ⟨id, event, actor, s.nowMs, details⟩ ::
            s.audits.filter (fun a => s.owns tenant a.credentialId) := by
      intro s s' hs hputs
      rw [hputs.audits, List.filter_cons, if_pos hputs.owns_self]
      congr 1
      apply List.filter_congr
      intro a ha
      rw [hputs.owns (hs.audited a ha)]
    rw [hfilter hs₁ h₁, hfilter hs₂ h₂, h.audits, h.now]

theorem untouched_refl (s : Shared Blob) : s.Untouched tenant s where
  rows := fun _ _ _ => Iff.rfl
  audits := rfl

theorem readBack_changed (s' : Shared Blob) (hget : s.rows.get? row.id = some row)
    (hmine : row.tenantId = some tenant) {f : Credential Blob → Credential Blob}
    (hf : (f row).tenantId = row.tenantId) (hnow : s'.nowMs = s.nowMs)
    (hrows : s'.rows = s.rows.modify row.id f) (haudits : s'.audits = s.audits) (name : String) :
    (readBack s' row.id name event actor details).2 = .summary (f row).summary ∧
      s.PutsOwn tenant (readBack s' row.id name event actor details).1 row.id (f row) event actor
        details := by
  have hafter : ∀ id', s'.rows.get? id' = if id' = row.id then some (f row)
      else s.rows.get? id' := by
    intro id'
    rw [hrows, HashMap.get?_modify]
    by_cases heq : id' = row.id
    · rw [if_pos heq, if_pos heq, hget]
      rfl
    · rw [if_neg heq, if_neg heq]
  have hback : s'.rows.get? row.id = some (f row) := by
    rw [hafter, if_pos rfl]
  rw [readBack, hback]
  refine ⟨rfl, ⟨⟨hnow, hafter, ?_⟩, hf.trans hmine, ?_⟩⟩
  · show _ :: s'.audits = _
    rw [haudits, hnow]
  · intro old hold
    rw [hget] at hold
    rw [← Option.some.inj hold]
    exact hmine

theorem readBack_inserted (s' : Shared Blob) (hnone : s.rows.get? id = none) (hmine : row.tenantId = some tenant)
    (hnow : s'.nowMs = s.nowMs) (hrows : s'.rows = s.rows.insert id row)
    (haudits : s'.audits = s.audits) (name : String) :
    (readBack s' id name event actor details).2 = .summary row.summary ∧
      s.PutsOwn tenant (readBack s' id name event actor details).1 id row event actor details := by
  have hafter : ∀ id', s'.rows.get? id' = if id' = id then some row else s.rows.get? id' := by
    intro id'
    rw [hrows, HashMap.get?_insert]
  have hback : s'.rows.get? id = some row := by
    rw [hafter, if_pos rfl]
  rw [readBack, hback]
  refine ⟨rfl, ⟨⟨hnow, hafter, ?_⟩, hmine, ?_⟩⟩
  · show _ :: s'.audits = _
    rw [haudits, hnow]
  · intro old hold
    rw [hnone] at hold
    cases hold

def Twin (tenant : String) (s₁ s₂ : Shared Blob) (o₁ o₂ : Shared Blob × Response) : Prop :=
  o₁.2 = o₂.2 ∧ ((o₁.1 = s₁ ∧ o₂.1 = s₂) ∨ ∃ id row event actor details,
    s₁.PutsOwn tenant o₁.1 id row event actor details ∧
    s₂.PutsOwn tenant o₂.1 id row event actor details)

theorem Twin.same (r : Response) : Twin tenant s₁ s₂ (s₁, r) (s₂, r) := ⟨rfl, .inl ⟨rfl, rfl⟩⟩

theorem Twin.guard {c : Prop} [Decidable c] {r : Response} {o₁ o₂ : Shared Blob × Response}
    (h : ¬c → Twin tenant s₁ s₂ o₁ o₂) :
    Twin tenant s₁ s₂ (if c then (s₁, r) else o₁) (if c then (s₂, r) else o₂) := by
  by_cases hc : c
  · rw [if_pos hc, if_pos hc]
    exact .same r
  · rw [if_neg hc, if_neg hc]
    exact h hc

section
variable (h₁ : s₁.WellFormed) (h₂ : s₂.WellFormed) (h : s₁.Agree tenant s₂)
include h₁ h₂ h

variable {store : CredentialStore Key Blob}

theorem listForTenant_agree (hiso : store.tenantIsolation = true) (owner : Option String) :
    listForTenant store s₁ owner (some tenant) = listForTenant store s₂ owner (some tenant) := by
  rw [listForTenant, listForTenant, if_pos hiso, if_pos hiso]
  by_cases hblank : blankTenant (some tenant) = true
  · rw [if_pos hblank, if_pos hblank]
  · rw [if_neg hblank, if_neg hblank, listRows_agree h₁ h₂ h (fun row hkeep => ?_)]
    have hboth := (Bool.and_eq_true_iff.mp hkeep).1
    exact eq_of_beq hboth

theorem rowToGet_agree (hiso : store.tenantIsolation = true) (name : String) :
    rowToGet store s₁ name (some (some tenant)) = rowToGet store s₂ name (some (some tenant)) := by
  simp only [rowToGet, hiso, Bool.not_true, Bool.false_eq_true, if_false, Option.getD_some,
    rowByNameForTenant_agree h₁ h₂ h name, h.now]

omit h₂ h in
theorem rowToGet_mine (hiso : store.tenantIsolation = true)
    (hrow : rowToGet store s₁ name (some (some tenant)) = .ok (some row)) :
    s₁.rows.get? row.id = some row ∧ row.tenantId = some tenant := by
  simp only [rowToGet, hiso, Bool.not_true, Bool.false_eq_true, if_false, Option.getD_some] at hrow
  split at hrow
  · cases hrow
  · have hfilter := Option.filter_eq_some_iff.mp (Except.ok.inj hrow)
    obtain ⟨hget, -, hmine⟩ := (rowByNameForTenant_iff h₁).mp hfilter.1
    exact ⟨hget, hmine⟩

variable {caller : Caller}

theorem handleGet_twin (hiso : store.tenantIsolation = true)
    (hcaller : caller.tenantId = some tenant) (gate : Caller → String → Option Response)
    (name : String) :
    Twin tenant s₁ s₂ (handleGet store s₁ caller gate name)
      (handleGet store s₂ caller gate name) := by
  unfold handleGet
  rw [hcaller, listForTenant_agree h₁ h₂ h hiso, rowToGet_agree h₁ h₂ h hiso]
  refine .guard fun _ => ?_
  cases gate caller name with
  | some refusal => exact .same _
  | none =>
    cases listForTenant store s₂ none (some tenant) with
    | error e => exact .same _
    | ok rows =>
      simp only
      cases rows.find? (fun r => r.name == name) with
      | none => exact .same _
      | some summary =>
        simp only
        refine .guard fun _ => ?_
        cases hrow : rowToGet store s₂ name (some (some tenant)) with
        | error e => exact .same _
        | ok found =>
          cases found with
          | none => exact .same _
          | some row =>
            simp only
            obtain ⟨hget₂, hmine⟩ := rowToGet_mine h₂ hiso hrow
            have hget₁ := (h.rows row.id row hmine).mpr hget₂
            have hsame : decryptRow store s₁ row = decryptRow store s₂ row := by
              simp only [decryptRow, hget₁, hget₂]
            rw [hsame]
            cases decryptRow store s₂ row with
            | error e => exact .same _
            | ok credential =>
              -- The row stays what it is, and the access is written down.
              have hputs : ∀ {s : Shared Blob}, s.rows.get? row.id = some row →
                  s.PutsOwn tenant (s.audit row.id .accessed (some caller.name) none) row.id
                    row .accessed (some caller.name) none := by
                intro s hget
                refine ⟨⟨rfl, fun id' => ?_, rfl⟩, hmine, fun old hold => ?_⟩
                · by_cases heq : id' = row.id
                  · rw [if_pos heq, heq]
                    exact hget
                  · rw [if_neg heq]
                    rfl
                · rw [hget] at hold
                  rw [← Option.some.inj hold]
                  exact hmine
              exact ⟨rfl, .inr ⟨_, _, _, _, _, hputs hget₁, hputs hget₂⟩⟩

theorem named_row (hfree : s₁.NameFree tenant name ∧ s₂.NameFree tenant name) :
    s₁.getRowByName name = s₂.getRowByName name ∧ ∀ row, s₂.getRowByName name = some row →
      s₁.rows.get? row.id = some row ∧ s₂.rows.get? row.id = some row ∧
        row.tenantId = some tenant := by
  refine ⟨rowByName_agree h₁ h₂ h hfree.1 hfree.2, fun row hrow => ?_⟩
  obtain ⟨hget, hname⟩ := (rowByName_iff h₂).mp hrow
  have hmine := hfree.2 row.id row hget hname
  exact ⟨(h.rows row.id row hmine).mpr hget, hget, hmine⟩

theorem handleRotate_twin {draw : Draw} {newValue : String}
    (hfree : (trim name).isEmpty = false → newValue.isEmpty = false →
      s₁.NameFree tenant name ∧ s₂.NameFree tenant name) :
    Twin tenant s₁ s₂ (handleRotate store s₁ caller draw name newValue)
      (handleRotate store s₂ caller draw name newValue) := by
  unfold handleRotate
  refine .guard fun hblank => ?_
  have hboth : (trim name).isEmpty = false ∧ newValue.isEmpty = false := by simpa using hblank
  obtain ⟨hsame, hrow⟩ := named_row h₁ h₂ h (hfree hboth.1 hboth.2)
  rw [hsame]
  cases hfound : s₂.getRowByName name with
  | none => exact .same _
  | some row =>
    obtain ⟨hget₁, hget₂, hmine⟩ := hrow row hfound
    simp only
    refine .guard fun _ => ?_
    cases store.sealActive draw.nonce newValue with
    | error e => exact .same _
    | ok blob =>
      simp only
      obtain ⟨hr₁, hp₁⟩ := readBack_changed (writeRotation store s₁ row newValue blob) hget₁ hmine
        rfl rfl rfl rfl name
      obtain ⟨hr₂, hp₂⟩ := readBack_changed (writeRotation store s₂ row newValue blob) hget₂ hmine
        rfl rfl rfl rfl name
      rw [h.now] at hr₁ hp₁
      exact ⟨hr₁.trans hr₂.symm, .inr ⟨_, _, _, _, _, hp₁, hp₂⟩⟩

theorem handleRevoke_twin {reason : Option String}
    (hfree : (trim name).isEmpty = false → s₁.NameFree tenant name ∧ s₂.NameFree tenant name) :
    Twin tenant s₁ s₂ (handleRevoke s₁ caller name reason)
      (handleRevoke s₂ caller name reason) := by
  unfold handleRevoke
  refine .guard fun hblank => ?_
  obtain ⟨hsame, hrow⟩ := named_row h₁ h₂ h (hfree (by simpa using hblank))
  rw [hsame]
  cases hfound : s₂.getRowByName name with
  | none => exact .same _
  | some row =>
    obtain ⟨hget₁, hget₂, hmine⟩ := hrow row hfound
    simp only
    refine .guard fun _ => ?_
    obtain ⟨hr₁, hp₁⟩ := readBack_changed (writeRevocation s₁ row reason) hget₁ hmine
      rfl rfl rfl rfl name
    obtain ⟨hr₂, hp₂⟩ := readBack_changed (writeRevocation s₂ row reason) hget₂ hmine
      rfl rfl rfl rfl name
    rw [h.now] at hr₁ hp₁
    exact ⟨hr₁.trans hr₂.symm, .inr ⟨_, _, _, _, _, hp₁, hp₂⟩⟩

theorem handleList_twin (hiso : store.tenantIsolation = true)
    (hcaller : caller.tenantId = some tenant) (owner : Option String) :
    Twin tenant s₁ s₂ (handleList store s₁ caller owner) (handleList store s₂ caller owner) := by
  unfold handleList
  rw [hcaller, listForTenant_agree h₁ h₂ h hiso]
  cases listForTenant store s₂ owner (some tenant) with
  | error e => exact .same _
  | ok rows => exact .same _

omit h₁ h₂ in
theorem auditRows_agree (hid₁ : s₁.owns tenant id = true) (hid₂ : s₂.owns tenant id = true)
    (limit : Nat) : s₁.auditRows id limit = s₂.auditRows id limit := by
  have hown : ∀ {s : Shared Blob}, s.owns tenant id = true →
      s.audits.filter (fun a => a.credentialId == id) =
        (s.audits.filter (fun a => s.owns tenant a.credentialId)).filter
          (fun a => a.credentialId == id) := by
    intro s hs
    rw [List.filter_filter]
    apply List.filter_congr
    intro a _
    by_cases ha : a.credentialId = id
    · rw [ha, hs, Bool.and_true]
    · have hne : (a.credentialId == id) = false := by simpa using ha
      rw [hne, Bool.false_and]
  rw [Shared.auditRows, Shared.auditRows, List.filter_reverse, List.filter_reverse, hown hid₁,
    hown hid₂, h.audits]

theorem handleAudit_twin {limit : Option Nat}
    (hfree : (trim name).isEmpty = false → s₁.NameFree tenant name ∧ s₂.NameFree tenant name) :
    Twin tenant s₁ s₂ (handleAudit s₁ name limit) (handleAudit s₂ name limit) := by
  unfold handleAudit
  refine .guard fun hblank => ?_
  obtain ⟨hsame, hrow⟩ := named_row h₁ h₂ h (hfree (by simpa using hblank))
  rw [hsame]
  cases hfound : s₂.getRowByName name with
  | none => exact .same _
  | some row =>
    obtain ⟨hget₁, hget₂, hmine⟩ := hrow row hfound
    simp only
    rw [auditRows_agree h (owns_of_get hget₁ hmine) (owns_of_get hget₂ hmine)]
    exact .same _

end

section
variable {store : CredentialStore Key Blob} {caller : Caller} {draw : Draw} {name value : String}
  {kind ownerAgent : Option String} {expiresAtMs : Option Int} {rotationIntervalSecs : Option Nat}

def storedRow (store : CredentialStore Key Blob) (caller : Caller) (draw : Draw)
    (name value : String) (kind ownerAgent : Option String) (expiresAtMs : Option Int)
    (rotationIntervalSecs : Option Nat) (nowMs : Int) (blob : Blob) : Credential Blob :=
  NewCredential.row ⟨name, value, parseKind kind, ownerAgent, expiresAtMs, rotationIntervalSecs,
    some caller.name, caller.tenantId⟩ draw.rowId store.activeVersion nowMs blob

theorem handleStore_inserts (hiso : store.tenantIsolation = true)
    (hcaller : caller.tenantId = some tenant) (hargs : ((trim name).isEmpty || value.isEmpty) = false)
    (htenant : blankTenant caller.tenantId = false) {blob : Blob}
    (hseal : store.sealActive draw.nonce value = .ok blob)
    (hnone : s.getRowByName name = none) (hfresh : s.rows.get? draw.rowId = none) :
    (handleStore store s caller draw name value kind ownerAgent expiresAtMs
      rotationIntervalSecs).2 = .summary (storedRow store caller draw name value kind ownerAgent
        expiresAtMs rotationIntervalSecs s.nowMs blob).summary ∧
    s.PutsOwn tenant (handleStore store s caller draw name value kind ownerAgent expiresAtMs
      rotationIntervalSecs).1 draw.rowId (storedRow store caller draw name value kind ownerAgent
        expiresAtMs rotationIntervalSecs s.nowMs blob) .stored (some caller.name) none := by
  have hname := (Bool.or_eq_false_iff.mp hargs).1
  have hstep : handleStore store s caller draw name value kind ownerAgent expiresAtMs
      rotationIntervalSecs = readBack { s with
        rows := s.rows.insert draw.rowId (storedRow store caller draw name value kind ownerAgent
          expiresAtMs rotationIntervalSecs s.nowMs blob)
        written := s.written ++ [(name, value)] } draw.rowId name .stored (some caller.name)
        none := by
    unfold handleStore
    rw [hargs]
    simp only [hname, Bool.false_eq_true, if_false, insertNew, hiso, Bool.true_and, if_true,
      htenant, hseal, hnone, hfresh, Option.isSome_none]
    rfl
  rw [hstep]
  refine readBack_inserted _ hfresh hcaller ?_ ?_ ?_ name
  · rfl
  · rfl
  · rfl

theorem handleStore_taken (hiso : store.tenantIsolation = true)
    (hargs : ((trim name).isEmpty || value.isEmpty) = false)
    (htenant : blankTenant caller.tenantId = false) {blob : Blob}
    (hseal : store.sealActive draw.nonce value = .ok blob)
    (htaken : (s.getRowByName name).isSome = true) :
    handleStore store s caller draw name value kind ownerAgent expiresAtMs
      rotationIntervalSecs = (s, internal (.sqlite "UNIQUE constraint failed: credentials.name")) := by
  have hname := (Bool.or_eq_false_iff.mp hargs).1
  unfold handleStore
  rw [hargs]
  simp only [hname, Bool.false_eq_true, if_false, insertNew, hiso, Bool.true_and, if_true,
    htenant, hseal, htaken]

theorem handleStore_refused (hiso : store.tenantIsolation = true)
    (h : ¬(((trim name).isEmpty || value.isEmpty) = false ∧ blankTenant caller.tenantId = false ∧
      (store.sealActive draw.nonce value).toBool = true)) :
    ∃ r, ∀ s : Shared Blob, handleStore store s caller draw name value kind ownerAgent expiresAtMs
      rotationIntervalSecs = (s, r) := by
  unfold handleStore
  by_cases hargs : ((trim name).isEmpty || value.isEmpty) = true
  · refine ⟨invalid "name and value are required", fun s => ?_⟩
    rw [if_pos hargs]
  · have hargs' : ((trim name).isEmpty || value.isEmpty) = false := by simpa using hargs
    have hname := (Bool.or_eq_false_iff.mp hargs').1
    by_cases htenant : blankTenant caller.tenantId = true
    · refine ⟨internal .missingTenant, fun s => ?_⟩
      rw [hargs']
      simp only [hname, Bool.false_eq_true, if_false, insertNew, hiso, Bool.true_and, if_true,
        htenant]
    · have htenant' : blankTenant caller.tenantId = false := by simpa using htenant
      cases hseal : store.sealActive draw.nonce value with
      | ok blob => exact absurd ⟨hargs', htenant', by rw [hseal]; rfl⟩ h
      | error e =>
        refine ⟨internal e, fun s => ?_⟩
        rw [hargs']
        simp only [hname, Bool.false_eq_true, if_false, insertNew, hiso, Bool.true_and, if_true,
          htenant', hseal]

theorem sealed_of_toBool (h : (store.sealActive draw.nonce value).toBool = true) :
    ∃ blob, store.sealActive draw.nonce value = .ok blob := by
  cases hseal : store.sealActive draw.nonce value with
  | ok blob => exact ⟨blob, rfl⟩
  | error e =>
    rw [hseal] at h
    cases h

theorem handleStore_twin (h₁ : s₁.WellFormed) (h₂ : s₂.WellFormed) (h : s₁.Agree tenant s₂)
    (hiso : store.tenantIsolation = true) (hcaller : caller.tenantId = some tenant)
    (hfresh₁ : s₁.rows.get? draw.rowId = none) (hfresh₂ : s₂.rows.get? draw.rowId = none)
    (hfree : ((trim name).isEmpty || value.isEmpty) = false ∧
      blankTenant caller.tenantId = false ∧ (store.sealActive draw.nonce value).toBool = true →
      s₁.NameFree tenant name ∧ s₂.NameFree tenant name) :
    Twin tenant s₁ s₂
      (handleStore store s₁ caller draw name value kind ownerAgent expiresAtMs
        rotationIntervalSecs)
      (handleStore store s₂ caller draw name value kind ownerAgent expiresAtMs
        rotationIntervalSecs) := by
  by_cases hreach : ((trim name).isEmpty || value.isEmpty) = false ∧
      blankTenant caller.tenantId = false ∧ (store.sealActive draw.nonce value).toBool = true
  · obtain ⟨hfree₁, hfree₂⟩ := hfree hreach
    obtain ⟨hargs, htenant, hsealed⟩ := hreach
    obtain ⟨blob, hseal⟩ := sealed_of_toBool hsealed
    have hsame := rowByName_agree h₁ h₂ h hfree₁ hfree₂
    cases hrow : s₂.getRowByName name with
    | some row =>
      rw [hrow] at hsame
      rw [handleStore_taken hiso hargs htenant hseal (by rw [hsame]; rfl),
        handleStore_taken hiso hargs htenant hseal (by rw [hrow]; rfl)]
      exact .same _
    | none =>
      rw [hrow] at hsame
      obtain ⟨hr₁, hp₁⟩ := @handleStore_inserts _ _ _ _ store caller draw name value kind ownerAgent
        expiresAtMs rotationIntervalSecs hiso hcaller hargs htenant blob hseal hsame hfresh₁
      obtain ⟨hr₂, hp₂⟩ := @handleStore_inserts _ _ _ _ store caller draw name value kind ownerAgent
        expiresAtMs rotationIntervalSecs hiso hcaller hargs htenant blob hseal hrow hfresh₂
      rw [h.now] at hr₁ hp₁
      exact ⟨hr₁.trans hr₂.symm, .inr ⟨_, _, _, _, _, hp₁, hp₂⟩⟩
  · obtain ⟨r, hr⟩ := handleStore_refused hiso hreach
    rw [hr, hr]
    exact .same r

end

end

/-- The name of the request is used by no one else, where the request comes to look at it. -/
def Request.Clear (store : CredentialStore Key Blob) (caller : Caller) (draw : Draw)
    (tenant : String) (s : Shared Blob) : Request → Prop
  | .store name value _ _ _ _ =>
    ((trim name).isEmpty || value.isEmpty) = false ∧ blankTenant caller.tenantId = false ∧
      (store.sealActive draw.nonce value).toBool = true → s.NameFree tenant name
  | .rotate name newValue => (trim name).isEmpty = false → newValue.isEmpty = false →
      s.NameFree tenant name
  | .revoke name _ => (trim name).isEmpty = false → s.NameFree tenant name
  | .audit name _ => (trim name).isEmpty = false → s.NameFree tenant name
  | _ => True

/-- A request of a tenant answers the same in two vaults, does the same to what the tenant has of
them, and leaves what others have of either. -/
structure Isolated (store : CredentialStore Key Blob) (caller : Caller)
    (gate : Caller → String → Option Response) (draw : Draw) (req : Request) (tenant : String)
    (s₁ s₂ : Shared Blob) : Prop where
  response : (handle store caller gate draw s₁ req).2 = (handle store caller gate draw s₂ req).2
  agree : (handle store caller gate draw s₁ req).1.Agree tenant
    (handle store caller gate draw s₂ req).1
  first : s₁.Untouched tenant (handle store caller gate draw s₁ req).1
  second : s₂.Untouched tenant (handle store caller gate draw s₂ req).1

def Shared.only (s : Shared Blob) (tenant : String) : Shared Blob :=
  { s with
    rows := s.rows.retain (fun _ row => row.tenantId == some tenant)
    audits := s.audits.filter (fun a => s.owns tenant a.credentialId) }

section
variable {store : CredentialStore Key Blob} {caller : Caller} {tenant : String} {draw : Draw}
  {s s₁ s₂ : Shared Blob} {req : Request}

theorem handle_twin (hiso : store.tenantIsolation = true) (hcaller : caller.tenantId = some tenant)
    (gate : Caller → String → Option Response) (h₁ : s₁.WellFormed) (h₂ : s₂.WellFormed)
    (h : s₁.Agree tenant s₂) (hfresh₁ : s₁.rows.get? draw.rowId = none)
    (hfresh₂ : s₂.rows.get? draw.rowId = none) (hclear₁ : req.Clear store caller draw tenant s₁)
    (hclear₂ : req.Clear store caller draw tenant s₂) :
    Twin tenant s₁ s₂ (handle store caller gate draw s₁ req)
      (handle store caller gate draw s₂ req) := by
  cases req with
  | store name value kind ownerAgent expiresAtMs rotationIntervalSecs =>
    exact handleStore_twin h₁ h₂ h hiso hcaller hfresh₁ hfresh₂
      (fun hreach => ⟨hclear₁ hreach, hclear₂ hreach⟩)
  | get name => exact handleGet_twin h₁ h₂ h hiso hcaller gate name
  | rotate name newValue =>
    exact handleRotate_twin h₁ h₂ h (fun hname hvalue => ⟨hclear₁ hname hvalue,
      hclear₂ hname hvalue⟩)
  | revoke name reason =>
    exact handleRevoke_twin h₁ h₂ h (fun hname => ⟨hclear₁ hname, hclear₂ hname⟩)
  | list owner => exact handleList_twin h₁ h₂ h hiso hcaller owner
  | audit name limit =>
    exact handleAudit_twin h₁ h₂ h (fun hname => ⟨hclear₁ hname, hclear₂ hname⟩)

theorem Twin.isolated {gate : Caller → String → Option Response} (h₁ : s₁.WellFormed)
    (h₂ : s₂.WellFormed) (h : s₁.Agree tenant s₂)
    (htwin : Twin tenant s₁ s₂ (handle store caller gate draw s₁ req)
      (handle store caller gate draw s₂ req)) :
    Isolated store caller gate draw req tenant s₁ s₂ := by
  obtain ⟨hresponse, ⟨hsame₁, hsame₂⟩ | ⟨id, row, event, actor, details, hputs₁, hputs₂⟩⟩ := htwin
  · refine ⟨hresponse, ?_, ?_, ?_⟩
    · rw [hsame₁, hsame₂]
      exact h
    · rw [hsame₁]
      exact untouched_refl s₁
    · rw [hsame₂]
      exact untouched_refl s₂
  · exact ⟨hresponse, hputs₁.agree h₁ h₂ h hputs₂, hputs₁.untouched h₁, hputs₂.untouched h₂⟩

theorem get_only :
    (s.only tenant).rows.get? id = some row ↔
      s.rows.get? id = some row ∧ row.tenantId = some tenant := by
  show (s.rows.retain _).get? id = some row ↔ _
  rw [HashMap.get?_retain, Option.filter_eq_some_iff, beq_iff_eq]

theorem owns_only (id : String) : (s.only tenant).owns tenant id = s.owns tenant id := by
  cases hown : s.owns tenant id with
  | true =>
    obtain ⟨row, hget, hmine⟩ := get_of_owns hown
    exact owns_of_get (get_only.mpr ⟨hget, hmine⟩) hmine
  | false =>
    cases hother : (s.only tenant).owns tenant id with
    | false => rfl
    | true =>
      obtain ⟨row, hget, hmine⟩ := get_of_owns hother
      rw [owns_of_get (get_only.mp hget).1 hmine] at hown
      cases hown

theorem only_wellFormed (h : s.WellFormed) : (s.only tenant).WellFormed where
  keyed := fun id row hget => h.keyed id row (get_only.mp hget).1
  names := by
    intro id id' row row' hget hget' hname
    exact h.names id id' row row' (get_only.mp hget).1 (get_only.mp hget').1 hname
  audited := by
    intro a ha
    obtain ⟨row, hget, hmine⟩ := get_of_owns (List.mem_filter.mp ha).2
    rw [get_only.mpr ⟨hget, hmine⟩]
    rfl

theorem agree_only (s : Shared Blob) : s.Agree tenant (s.only tenant) where
  now := rfl
  rows := by
    intro id row hmine
    rw [get_only]
    exact ⟨fun hget => ⟨hget, hmine⟩, fun hget => hget.1⟩
  audits := by
    have hsame : (fun a : AuditRow => (s.only tenant).owns tenant a.credentialId) =
        fun a => s.owns tenant a.credentialId := by
      funext a
      rw [owns_only]
    rw [hsame]
    show _ = (s.audits.filter _).filter _
    rw [List.filter_filter]
    apply List.filter_congr
    intro a _
    rw [Bool.and_self]

theorem only_nameFree (s : Shared Blob) (name : String) : (s.only tenant).NameFree tenant name :=
  fun _ _ hget _ => (get_only.mp hget).2

theorem only_clear (s : Shared Blob) : req.Clear store caller draw tenant (s.only tenant) := by
  cases req with
  | store name value kind ownerAgent expiresAtMs rotationIntervalSecs =>
    exact fun _ => only_nameFree s name
  | rotate name newValue => exact fun _ _ => only_nameFree s name
  | revoke name reason => exact fun _ => only_nameFree s name
  | audit name limit => exact fun _ => only_nameFree s name
  | _ => trivial

theorem taken_row (hs : s.WellFormed) (htaken : ¬s.NameFree tenant name) :
    (∃ row, s.getRowByName name = some row) ∧ (s.only tenant).getRowByName name = none := by
  simp only [Shared.NameFree, not_forall] at htaken
  obtain ⟨id, row, hget, hname, hother⟩ := htaken
  have hid : row.id = id := hs.keyed id row hget
  have hfound : s.getRowByName name = some row :=
    (rowByName_iff hs).mpr ⟨by rw [hid]; exact hget, hname⟩
  refine ⟨⟨row, hfound⟩, ?_⟩
  cases honly : (s.only tenant).getRowByName name with
  | none => rfl
  | some other =>
    obtain ⟨hget', hname'⟩ := (rowByName_iff (only_wellFormed hs)).mp honly
    obtain ⟨hgets, hmine⟩ := get_only.mp hget'
    have hfound' : s.getRowByName name = some other := (rowByName_iff hs).mpr ⟨hgets, hname'⟩
    rw [hfound] at hfound'
    rw [Option.some.inj hfound'] at hother
    exact absurd hmine hother

variable {e : CredentialError}

theorem text_inj {e' : CredentialError} (h : e.text = e'.text) :
    e.body.toList = e'.body.toList := by
  have hlist := congrArg String.toList h
  rw [CredentialError.text, CredentialError.text, String.toList_append, String.toList_append] at hlist
  exact List.append_cancel_left hlist

theorem notFound_ne (name : String)
    (he : e = .revoked name ∨ (∃ m, e = .encryption m) ∨ ∃ v, e = .unknownKeyVersion v) :
    internal e ≠ internal (.notFound name) := by
  intro heq
  have htext : e.text = (CredentialError.notFound name).text := by
    simp only [internal, Response.refused.injEq] at heq
    exact heq.2
  have hbody := text_inj htext
  rcases he with rfl | ⟨m, rfl⟩ | ⟨v, rfl⟩
  · have hlist : ("credential \x60" ++ name ++ "\x60 is revoked").toList =
        ("credential \x60" ++ name ++ "\x60 not found").toList := hbody
    simp only [String.toList_append] at hlist
    have hends := List.append_cancel_left hlist
    simp at hends
  · have hlist : ("encryption: " ++ m).toList =
        ("credential \x60" ++ name ++ "\x60 not found").toList := hbody
    have hhead := congrArg List.head? hlist
    simp [String.toList_append] at hhead
  · have hlist : ("row references unknown key_version \x60" ++ v ++ "\x60").toList =
        ("credential \x60" ++ name ++ "\x60 not found").toList := hbody
    have hhead := congrArg List.head? hlist
    simp [String.toList_append] at hhead

theorem encrypt_error {key : Key} {value : String} {nonce : Nat}
    (h : store.encrypt key nonce value = .error e) : e = .encryption "encrypt" := by
  unfold CredentialStore.encrypt at h
  split at h
  · cases h
  · cases h
    rfl

theorem seal_error {value : String} {nonce : Nat} (h : store.sealActive nonce value = .error e) :
    (∃ m, e = .encryption m) ∨ ∃ v, e = .unknownKeyVersion v := by
  unfold CredentialStore.sealActive CredentialStore.activeKeyBytes at h
  cases hkey : store.keys.get? store.activeVersion with
  | none =>
    rw [hkey] at h
    cases h
    exact .inr ⟨_, rfl⟩
  | some key =>
    rw [hkey] at h
    have hencrypt : store.encrypt key nonce value = .error e := h
    exact .inl ⟨_, encrypt_error hencrypt⟩

theorem readBack_found {event : AuditEvent} {actor details : Option String} {s' : Shared Blob}
    {f : Credential Blob → Credential Blob} (h : s.rows.get? id = some row)
    (hrows : s'.rows = s.rows.modify id f) :
    (readBack s' id name event actor details).2 = .summary (f row).summary := by
  have hback : s'.rows.get? id = some (f row) := by
    rw [hrows, HashMap.get?_modify, if_pos rfl, h]
    rfl
  rw [readBack, hback]

theorem only_fresh (h : s.rows.get? id = none) : (s.only tenant).rows.get? id = none := by
  cases hget : (s.only tenant).rows.get? id with
  | none => rfl
  | some row =>
    rw [(get_only.mp hget).1] at h
    cases h

theorem answer_differs (hiso : store.tenantIsolation = true)
    (hcaller : caller.tenantId = some tenant) (gate : Caller → String → Option Response)
    (hs : s.WellFormed) (hfresh : s.rows.get? draw.rowId = none)
    (htaken : ¬req.Clear store caller draw tenant s) :
    (handle store caller gate draw s req).2 ≠
      (handle store caller gate draw (s.only tenant) req).2 := by
  cases req with
  | get name => exact absurd trivial htaken
  | list owner => exact absurd trivial htaken
  | store name value kind ownerAgent expiresAtMs rotationIntervalSecs =>
    obtain ⟨⟨hargs, htenant, hsealed⟩, hname⟩ := Classical.not_imp.mp htaken
    obtain ⟨blob, hseal⟩ := sealed_of_toBool hsealed
    obtain ⟨⟨row, hfound⟩, hnone⟩ := taken_row hs hname
    have hinserts := (@handleStore_inserts _ _ _ _ store caller draw name value kind ownerAgent
      expiresAtMs rotationIntervalSecs hiso hcaller hargs htenant blob hseal hnone (only_fresh hfresh)).1
    simp only [handle]
    rw [hinserts, handleStore_taken hiso hargs htenant hseal (by rw [hfound]; rfl)]
    intro heq
    cases heq
  | rotate name newValue =>
    simp only [Request.Clear, Classical.not_imp] at htaken
    obtain ⟨hname, hvalue, htaken⟩ := htaken
    obtain ⟨⟨row, hfound⟩, hnone⟩ := taken_row hs htaken
    have hget := ((rowByName_iff hs).mp hfound).1
    simp only [handle, handleRotate, hname, hvalue, Bool.or_self, Bool.false_eq_true, if_false,
      hfound, hnone]
    by_cases hrevoked : row.revoked = true
    · rw [if_pos hrevoked]
      exact notFound_ne name (.inl rfl)
    · rw [if_neg hrevoked]
      cases hseal : store.sealActive draw.nonce newValue with
      | error e => exact notFound_ne name (.inr (seal_error hseal))
      | ok blob =>
        rw [readBack_found hget rfl]
        intro heq
        cases heq
  | revoke name reason =>
    obtain ⟨hname, htaken⟩ := Classical.not_imp.mp htaken
    obtain ⟨⟨row, hfound⟩, hnone⟩ := taken_row hs htaken
    have hget := ((rowByName_iff hs).mp hfound).1
    simp only [handle, handleRevoke, hname, Bool.false_eq_true, if_false, hfound, hnone]
    by_cases hrevoked : row.revoked = true
    · rw [if_pos hrevoked]
      intro heq
      cases heq
    · rw [if_neg hrevoked]
      rw [readBack_found hget rfl]
      intro heq
      cases heq
  | audit name limit =>
    obtain ⟨hname, htaken⟩ := Classical.not_imp.mp htaken
    obtain ⟨⟨row, hfound⟩, hnone⟩ := taken_row hs htaken
    simp only [handle, handleAudit, hname, Bool.false_eq_true, if_false, hfound, hnone]
    intro heq
    cases heq

end

/-- A request of a tenant is isolated from what others have of the vault exactly where its name is
used by none of them. -/
theorem vault_isolated (store : CredentialStore Key Blob) (hiso : store.tenantIsolation = true)
    (tenant : String) (caller : Caller) (hcaller : caller.tenantId = some tenant)
    (gate : Caller → String → Option Response) (draw : Draw) (req : Request) (s : Shared Blob)
    (hs : s.WellFormed) (hfresh : s.rows.get? draw.rowId = none) :
    (∀ s', s'.WellFormed → s'.rows.get? draw.rowId = none → s.Agree tenant s' →
      req.Clear store caller draw tenant s' →
      Isolated store caller gate draw req tenant s s') ↔
    req.Clear store caller draw tenant s := by
  constructor
  · intro hall
    by_contra htaken
    have hisolated := hall (s.only tenant) (only_wellFormed hs) (only_fresh hfresh)
      (agree_only s) (only_clear s)
    exact answer_differs hiso hcaller gate hs hfresh htaken hisolated.response
  · intro hclear s' hs' hfresh' hagree hclear'
    exact (handle_twin hiso hcaller gate hs hs' hagree hfresh hfresh' hclear hclear').isolated
      hs hs' hagree

end

def openStore : CredentialStore Nat String where
  cipher := ⟨fun _ _ v => some v, fun _ b => some b⟩
  keys := HashMap.empty.insert "v1" 1
  activeVersion := "v1"
  tenantIsolation := true

def credentialOf (tenant : String) : Credential String :=
  ⟨"cred_1", "db-pass", "s3cret", "secret", some "agt_1", 10, 10, none, none, none, none, false,
    none, none, 1, some tenant, some "v1"⟩

def vaultOf (tenant : String) : Shared String :=
  ⟨20, HashMap.empty.insert "cred_1" (credentialOf tenant),
    [⟨"cred_1", .stored, some "agt_1", 10, none⟩], []⟩

def emptyVault : Shared String := ⟨20, .empty, [], []⟩

theorem vaultOf_wellFormed (tenant : String) : (vaultOf tenant).WellFormed := by
  have hone : ∀ id row, (vaultOf tenant).rows.get? id = some row →
      id = "cred_1" ∧ row = credentialOf tenant := by
    intro id row hget
    rcases HashMap.insert_some hget with ⟨hid, hrow⟩ | ⟨-, hold⟩
    · exact ⟨hid, hrow.symm⟩
    · cases hold
  refine ⟨fun id row hget => ?_, fun id id' row row' hget hget' _ => ?_, fun a ha => ?_⟩
  · obtain ⟨rfl, rfl⟩ := hone id row hget
    rfl
  · rw [(hone id row hget).1, (hone id' row' hget').1]
  · rw [List.mem_singleton.mp ha]
    rfl

theorem emptyVault_wellFormed : emptyVault.WellFormed :=
  ⟨fun id row hget => (by cases hget), fun id id' row row' hget => (by cases hget),
    fun a ha => (by cases ha)⟩

theorem agree_empty : (vaultOf "beta").Agree "acme" emptyVault where
  now := rfl
  rows := by
    intro id row hmine
    constructor
    · intro hget
      rcases HashMap.insert_some hget with ⟨-, rfl⟩ | ⟨-, hold⟩
      · exact absurd hmine (by decide)
      · cases hold
    · intro hget
      cases hget
  audits := rfl

def acmeAgent : Caller := ⟨"agt_1", some "acme"⟩

def noGate : Caller → String → Option Response := fun _ _ => none

/-- A `get` of the tenant's own credential, and of one that another has. -/
theorem vault_isolated_get :
    Isolated openStore acmeAgent noGate ⟨"2", 0⟩ (.get "db-pass") "acme" (vaultOf "beta")
      emptyVault ∧
    (handle openStore acmeAgent noGate ⟨"2", 0⟩ (vaultOf "acme") (.get "db-pass")).2 =
      .plain ⟨"db-pass", "secret", some "agt_1", "s3cret", 1, some "v1"⟩ :=
  ⟨(vault_isolated openStore rfl "acme" acmeAgent rfl noGate ⟨"2", 0⟩ (.get "db-pass")
    (vaultOf "beta") (vaultOf_wellFormed "beta") (by decide +kernel)).mpr trivial emptyVault
      emptyVault_wellFormed rfl agree_empty trivial, by decide +kernel⟩

/-- A tenant rotates, revokes and audits a credential of another, and is kept from its name. -/
theorem other_tenant_rotated :
    ((handle openStore acmeAgent noGate ⟨"2", 0⟩ (vaultOf "beta")
      (.rotate "db-pass" "mine")).1.rows.get? "cred_1").map
        (fun row => (row.tenantId, row.valueEncrypted, row.version)) =
          some (some "beta", "mine", 2) ∧
    ¬Isolated openStore acmeAgent noGate ⟨"2", 0⟩ (.rotate "db-pass" "mine") "acme"
      (vaultOf "beta") emptyVault ∧
    ¬Isolated openStore acmeAgent noGate ⟨"2", 0⟩ (.revoke "db-pass" none) "acme"
      (vaultOf "beta") emptyVault ∧
    ¬Isolated openStore acmeAgent noGate ⟨"2", 0⟩ (.audit "db-pass" none) "acme"
      (vaultOf "beta") emptyVault ∧
    ¬Isolated openStore acmeAgent noGate ⟨"2", 0⟩ (.store "db-pass" "mine" none none none none)
      "acme" (vaultOf "beta") emptyVault := by
  refine ⟨by decide +kernel, ?_, ?_, ?_, ?_⟩
  · exact fun h => absurd h.response (by decide +kernel)
  · exact fun h => absurd h.response (by decide +kernel)
  · exact fun h => absurd h.response (by decide +kernel)
  · exact fun h => absurd h.response (by decide +kernel)

end Relux.Vault
