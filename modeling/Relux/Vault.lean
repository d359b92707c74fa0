import Relux.HashMap
import Relux.Interleave
import Relux.Text

/-! The store of encrypted credentials: each call takes the lock of the store several times, and
what it does between two of them others may undo. -/

namespace Relux.Vault

/-- The cipher of the column `value_encrypted`, the nonce drawn; its texts are the column's. -/
structure Cipher (Key Blob : Type) where
  encrypt : Key → Nat → String → Option Blob
  decrypt : Key → Blob → Option String

structure Cipher.Lawful {Key Blob : Type} (c : Cipher Key Blob) : Prop where
  decrypt_encrypt : ∀ k n v b, c.encrypt k n v = some b → c.decrypt k b = some v
  decrypt_other : ∀ k k' n v b, c.encrypt k n v = some b → k' ≠ k → c.decrypt k' b = none

inductive CredentialError
  | sqlite (message : String)
  | serialization (message : String)
  | encryption (message : String)
  | notFound (name : String)
  | revoked (name : String)
  | missingTenant
  | unknownKeyVersion (version : String)
  | migrationVerifyFailed (message : String)
  deriving DecidableEq, Repr

inductive AuditEvent
  | stored
  | accessed
  | rotated
  | revoked
  deriving DecidableEq, Repr

structure AuditRow where
  credentialId : String
  event : AuditEvent
  actor : Option String
  timestampMs : Int
  details : Option String
  deriving DecidableEq, Repr

structure Credential (Blob : Type) where
  id : String
  name : String
  valueEncrypted : Blob
  kind : String
  ownerAgent : Option String
  createdAtMs : Int
  updatedAtMs : Int
  expiresAtMs : Option Int
  lastRotatedAtMs : Option Int
  rotationIntervalSecs : Option Nat
  nextRotationAtMs : Option Int
  revoked : Bool
  revokedAtMs : Option Int
  revokeReason : Option String
  version : Nat
  tenantId : Option String
  keyVersion : Option String

structure DecryptedCredential where
  name : String
  kind : String
  ownerAgent : Option String
  value : String
  version : Nat
  keyVersion : Option String
  deriving DecidableEq, Repr

structure CredentialStore (Key Blob : Type) where
  cipher : Cipher Key Blob
  keys : HashMap String Key
  activeVersion : String
  tenantIsolation : Bool

structure Shared (Blob : Type) where
  nowMs : Int
  rows : HashMap String (Credential Blob)
  audits : List AuditRow
  /-- No part of the store: the values that were written, each under its name, oldest first. -/
  written : List (String × String)

structure NewCredential where
  name : String
  value : String
  kind : String
  ownerAgent : Option String
  expiresAtMs : Option Int
  rotationIntervalSecs : Option Nat
  actor : Option String
  tenantId : Option String

/-- What stood of a name when a `get` of it started: how many values were written, and whether it
was revoked. -/
structure Start where
  name : String
  written : Nat
  revoked : Bool
  deriving DecidableEq, Repr

/-- A row of the snapshot of `rotate_vault_key`, decrypted. -/
structure Decrypted where
  id : String
  plain : String
  version : Nat
  deriving DecidableEq, Repr

inductive Task (Blob : Type)
  /-- `store` and `store_for_tenant`. -/
  | storing (forTenant : Bool) (new : NewCredential)
  | rotating (name newValue : String) (actor : Option String)
  | writingRotation (row : Credential Blob) (newValue : String) (blob : Blob)
      (actor : Option String)
  | revoking (name : String) (reason actor : Option String)
  | writingRevocation (row : Credential Blob) (reason actor : Option String)
  | readingBack (id name : String) (event : AuditEvent) (actor details : Option String)
  | auditing (id : String) (event : AuditEvent) (actor details : Option String)
  /-- `get`, and `get_for_tenant` with its tenant: it notes what stands of the name. -/
  | asking (name : String) (actor : Option String) (tenant : Option (Option String))
  | getting (start : Start) (actor : Option String) (tenant : Option (Option String))
  | unsealing (start : Start) (row : Credential Blob) (actor : Option String)
  | auditingAccess (start : Start) (id : String) (actor : Option String)
      (credential : DecryptedCredential)
  | gave (start : Start) (result : Except CredentialError (Option DecryptedCredential))
  | rekeying (actor : Option String)
  | rewriting (rows : List Decrypted) (actor : Option String)
  | auditingRekey (ids : List String) (actor : Option String)
  | returned (result : Except CredentialError Unit)

inductive Choice
  | go
  | draws (id : String) (nonces : List Nat)

namespace CredentialStore

variable {Key Blob : Type} (store : CredentialStore Key Blob)

def activeKeyBytes : Except CredentialError Key :=
  match store.keys.get? store.activeVersion with
  | some key => .ok key
  | none => .error (.unknownKeyVersion store.activeVersion)

def versionOf (row : Credential Blob) : String := row.keyVersion.getD store.activeVersion

def keyForRow (row : Credential Blob) : Except CredentialError Key :=
  match store.keys.get? (store.versionOf row) with
  | some key => .ok key
  | none => .error (.unknownKeyVersion (store.versionOf row))

def encrypt (key : Key) (nonce : Nat) (plaintext : String) : Except CredentialError Blob :=
  match store.cipher.encrypt key nonce plaintext with
  | some blob => .ok blob
  | none => .error (.encryption "encrypt")

def decrypt (key : Key) (blob : Blob) : Except CredentialError String :=
  match store.cipher.decrypt key blob with
  | some plaintext => .ok plaintext
  | none => .error (.encryption "decrypt")

def sealActive (nonce : Nat) (plaintext : String) : Except CredentialError Blob := do
  let key ← store.activeKeyBytes
  store.encrypt key nonce plaintext

def unsealRow (row : Credential Blob) (blob : Blob) : Except CredentialError String := do
  let key ← store.keyForRow row
  store.decrypt key blob

end CredentialStore

section
variable {Blob : Type} (s : Shared Blob)

def Shared.getRowByName (name : String) : Option (Credential Blob) :=
  s.rows.values.find? (fun row => row.name == name)

def Shared.getRowByNameForTenant (name tenant : String) : Option (Credential Blob) :=
  s.rows.values.find? (fun row => row.name == name && row.tenantId == some tenant)

def Shared.valuesOf (name : String) : List String :=
  (s.written.filter (fun w => w.1 = name)).map (·.2)

def Shared.start (name : String) : Start :=
  ⟨name, (s.valuesOf name).length, (s.getRowByName name).any (·.revoked)⟩

def Shared.audit (id : String) (event : AuditEvent) (actor details : Option String) :
    Shared Blob :=
  { s with audits := ⟨id, event, actor, s.nowMs, details⟩ :: s.audits }

end

section
variable {Key Blob : Type} (store : CredentialStore Key Blob) (s : Shared Blob)

def nextRotation (nowMs : Int) (interval : Option Nat) : Option Int :=
  interval.map (fun secs => nowMs + secs * 1000)

def NewCredential.row (new : NewCredential) (id activeVersion : String) (nowMs : Int)
    (blob : Blob) : Credential Blob where
  id := id
  name := new.name
  valueEncrypted := blob
  kind := new.kind
  ownerAgent := new.ownerAgent
  createdAtMs := nowMs
  updatedAtMs := nowMs
  expiresAtMs := new.expiresAtMs
  lastRotatedAtMs := none
  rotationIntervalSecs := new.rotationIntervalSecs
  nextRotationAtMs := nextRotation nowMs new.rotationIntervalSecs
  revoked := false
  revokedAtMs := none
  revokeReason := none
  version := 1
  tenantId := new.tenantId
  keyVersion := some activeVersion

def blankTenant (tenant : Option String) : Bool := tenant.all (fun t => (trim t).isEmpty)

/-- The insert of `store_inner`. -/
def insertNew (forTenant : Bool) (new : NewCredential) (id : String) (nonce : Nat) :
    Except CredentialError (Shared Blob) :=
  if forTenant && store.tenantIsolation && blankTenant new.tenantId then .error .missingTenant
  else if (trim new.name).isEmpty then .error (.serialization "credential name is required")
  else
    match store.sealActive nonce new.value with
    | .error e => .error e
    | .ok blob =>
      if (s.getRowByName new.name).isSome then
        .error (.sqlite "UNIQUE constraint failed: credentials.name")
      else if (s.rows.get? id).isSome then
        .error (.sqlite "UNIQUE constraint failed: credentials.id")
      else .ok { s with
        rows := s.rows.insert id (new.row id store.activeVersion s.nowMs blob)
        written := s.written ++ [(new.name, new.value)] }

/-- The update of `rotate`. -/
def writeRotation (row : Credential Blob) (newValue : String) (blob : Blob) : Shared Blob :=
  { s with
    rows := s.rows.modify row.id (fun r => { r with
      valueEncrypted := blob
      updatedAtMs := s.nowMs
      lastRotatedAtMs := some s.nowMs
      nextRotationAtMs := nextRotation s.nowMs row.rotationIntervalSecs
      version := r.version + 1
      keyVersion := some store.activeVersion })
    written := s.written ++ [(row.name, newValue)] }

def writeRevocation (row : Credential Blob) (reason : Option String) : Shared Blob :=
  { s with rows := s.rows.modify row.id (fun r => { r with
      revoked := true
      revokedAtMs := some s.nowMs
      revokeReason := reason
      updatedAtMs := s.nowMs }) }

def expired (nowMs : Int) (row : Credential Blob) : Bool :=
  row.expiresAtMs.any (fun at' => decide (at' ≤ nowMs))

/-- The first access of `get` and `get_for_tenant`: the row, unless there is none to give. -/
def rowToGet (name : String) (tenant : Option (Option String)) :
    Except CredentialError (Option (Credential Blob)) :=
  let live (found : Option (Credential Blob)) : Option (Credential Blob) :=
    found.filter (fun row => !row.revoked && !expired s.nowMs row)
  match tenant with
  | none => .ok (live (s.getRowByName name))
  | some t =>
    if !store.tenantIsolation then .ok (live (s.getRowByName name))
    else if blankTenant t then .error .missingTenant
    else .ok (live (s.getRowByNameForTenant name (t.getD "")))

def decryptRow (row : Credential Blob) : Except CredentialError DecryptedCredential := do
  let blob ← match s.rows.get? row.id with
    | some cur => .ok cur.valueEncrypted
    | none => .error (.sqlite "Query returned no rows")
  let value ← store.unsealRow row blob
  return ⟨row.name, row.kind, row.ownerAgent, value, row.version, row.keyVersion⟩

/-- The snapshot of `rotate_vault_key`, every row decrypted. -/
def snapshot : List (Credential Blob) → Except CredentialError (List Decrypted)
  | [] => .ok []
  | row :: rows => do
    let plain ← store.unsealRow row row.valueEncrypted
    let rest ← snapshot rows
    return ⟨row.id, plain, row.version⟩ :: rest

/-- The transaction of `rotate_vault_key`, a nonce for each row. -/
def rewriteAll (activeKey : Key) : List Decrypted → List Nat → HashMap String (Credential Blob) →
    Except CredentialError (HashMap String (Credential Blob))
  | [], _, rows => .ok rows
  | d :: ds, nonces, rows => do
    let blob ← store.encrypt activeKey (nonces.headD 0) d.plain
    let verified ← store.decrypt activeKey blob
    if verified ≠ d.plain then
      .error (.migrationVerifyFailed s!"row {d.id}: encrypt/decrypt round-trip mismatch")
    else rewriteAll activeKey ds nonces.tail (rows.modify d.id (fun r => { r with
      valueEncrypted := blob
      keyVersion := some store.activeVersion }))

def ended (r : Except CredentialError Unit) : Shared Blob × Task Blob := (s, .returned r)

def stepStore (choice : Choice) : Task Blob → Option (Shared Blob × Task Blob)
  | .storing forTenant new =>
    match choice with
    | .draws id nonces =>
      match insertNew store s forTenant new ("cred_" ++ id) (nonces.headD 0) with
      | .error e => some (ended s (.error e))
      | .ok s' => some (s', .readingBack ("cred_" ++ id) new.name .stored new.actor none)
    | .go => none
  | .readingBack id name event actor details =>
    if (s.rows.get? id).isSome then some (s, .auditing id event actor details)
    else some (ended s (.error (.notFound name)))
  | .auditing id event actor details =>
    some (ended (s.audit id event actor details) (.ok ()))
  | _ => none

def stepRotate (choice : Choice) : Task Blob → Option (Shared Blob × Task Blob)
  | .rotating name newValue actor =>
    match choice with
    | .draws _ nonces =>
      match s.getRowByName name with
      | none => some (ended s (.error (.notFound name)))
      | some row =>
        if row.revoked then some (ended s (.error (.revoked name)))
        else match store.sealActive (nonces.headD 0) newValue with
          | .error e => some (ended s (.error e))
          | .ok blob => some (s, .writingRotation row newValue blob actor)
    | .go => none
  | .writingRotation row newValue blob actor =>
    some (writeRotation store s row newValue blob, .readingBack row.id row.name .rotated actor none)
  | .revoking name reason actor =>
    match s.getRowByName name with
    | none => some (ended s (.error (.notFound name)))
    | some row =>
      if row.revoked then some (ended s (.ok ()))
      else some (s, .writingRevocation row reason actor)
  | .writingRevocation row reason actor =>
    some (writeRevocation s row reason, .readingBack row.id row.name .revoked actor reason)
  | _ => none

def stepGet : Task Blob → Option (Shared Blob × Task Blob)
  | .asking name actor tenant => some (s, .getting (s.start name) actor tenant)
  | .getting start actor tenant =>
    match rowToGet store s start.name tenant with
    | .error e => some (s, .gave start (.error e))
    | .ok none => some (s, .gave start (.ok none))
    | .ok (some row) => some (s, .unsealing start row actor)
  | .unsealing start row actor =>
    match decryptRow store s row with
    | .error e => some (s, .gave start (.error e))
    | .ok credential => some (s, .auditingAccess start row.id actor credential)
  | .auditingAccess start id actor credential =>
    some (s.audit id .accessed actor none, .gave start (.ok (some credential)))
  | _ => none

def stepRekey (choice : Choice) : Task Blob → Option (Shared Blob × Task Blob)
  | .rekeying actor =>
    match store.activeKeyBytes, snapshot store s.rows.values with
    | .error e, _ => some (ended s (.error e))
    | _, .error e => some (ended s (.error e))
    | .ok _, .ok rows => some (s, .rewriting rows actor)
  | .rewriting rows actor =>
    match choice with
    | .draws _ nonces =>
      match store.activeKeyBytes with
      | .error e => some (ended s (.error e))
      | .ok key =>
        match rewriteAll store key rows nonces s.rows with
        | .error e => some (ended s (.error e))
        | .ok rows' => some ({ s with rows := rows' }, .auditingRekey (rows.map (·.id)) actor)
    | .go => none
  | .auditingRekey [] _ => some (ended s (.ok ()))
  | .auditingRekey (id :: ids) actor =>
    some (s.audit id .rotated actor
      (some s!"vault-key rotated to {store.activeVersion}"), .auditingRekey ids actor)
  | _ => none

def step (choice : Choice) (t : Task Blob) : Option (Shared Blob × Task Blob) :=
  ((stepStore store s choice t).or (stepRotate store s choice t)).or
    ((stepGet store s t).or (stepRekey store s choice t))

end

def Task.isCall {Blob : Type} : Task Blob → Bool
  | .storing _ _ => true
  | .rotating _ _ _ => true
  | .revoking _ _ _ => true
  | .asking _ _ _ => true
  | .rekeying _ => true
  | _ => false

def service {Key Blob : Type} (store : CredentialStore Key Blob) :
    Tasking (Shared Blob) (Task Blob) where
  exec := fun s t s' t' fork => fork = none ∧ ∃ choice, step store s choice t = some (s', t')
  env := fun s s' => ∃ nowMs, s' = { s with nowMs := nowMs }
  spawn := fun s t s' => s' = s ∧ t.isCall = true

end Relux.Vault
