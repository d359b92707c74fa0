import Relux.Vault

/-! What every call finds of the vault as long as `rotate_vault_key` does not write over a value
that was rotated since its snapshot, and no row changes its key between the two reads of a
`get`. -/

namespace Relux.Vault

open Crowd (Runs Step Label Meets)

variable {Key Blob : Type} (store : CredentialStore Key Blob)

def CredentialStore.plainOf (row : Credential Blob) : Option String :=
  (store.keys.get? (store.versionOf row)).bind (fun key =>
    store.cipher.decrypt key row.valueEncrypted)

structure Sound (s : Shared Blob) : Prop where
  keyed : s.rows.KeyedBy (·.id)
  names : ∀ id id' row row', s.rows.get? id = some row → s.rows.get? id' = some row' →
    row.name = row'.name → id = id'
  named : ∀ name, s.valuesOf name ≠ [] → ∃ id row, s.rows.get? id = some row ∧ row.name = name
  current : ∀ id row, s.rows.get? id = some row →
    ∃ value, store.plainOf row = some value ∧ (s.valuesOf row.name).getLast? = some value

/-- What a `get` gives: no value of a name that was revoked when it started, and none older than the
last written by then. It fails for want of a tenant only, and comes back empty only if nothing was
written, the tenant may be another, or the row is revoked or has a time to expire. -/
def Given (s : Shared Blob) (start : Start) :
    Except CredentialError (Option DecryptedCredential) → Prop
  | .error e => e = .missingTenant
  | .ok none => start.written = 0 ∨ store.tenantIsolation = true ∨
      ∃ id row, s.rows.get? id = some row ∧ row.name = start.name ∧
        (row.revoked = true ∨ row.expiresAtMs.isSome = true)
  | .ok (some credential) => start.revoked = false ∧
      credential.value ∈ (s.valuesOf start.name).drop (start.written - 1)

/-- The step finds what its call left: the rows of the snapshot have not been rotated since, the
row of the `get` is still under the key version that was read. -/
def Task.Undisturbed (s : Shared Blob) : Task Blob → Prop
  | .rewriting rows _ => ∀ d ∈ rows, ∀ row, s.rows.get? d.id = some row → row.version = d.version
  | .unsealing _ row _ => ∀ cur, s.rows.get? row.id = some cur →
      store.versionOf cur = store.versionOf row
  | _ => True

def Undisturbed (c : Crowd (Shared Blob) (Task Blob)) (l : Label (Task Blob)) : Prop :=
  ∀ i t, l = .run i → c.tasks[i]? = some t → t.Undisturbed store c.shared

/-- No row is lost or brought back to life, and the value of a row changes with its version
only. -/
structure Extends (s s' : Shared Blob) : Prop where
  rows : ∀ id row, s.rows.get? id = some row → ∃ row', s'.rows.get? id = some row' ∧
    row'.name = row.name ∧ row'.expiresAtMs = row.expiresAtMs ∧
    (row.revoked = true → row'.revoked = true) ∧ row.version ≤ row'.version ∧
    (row'.version = row.version → store.plainOf row' = store.plainOf row)
  written : ∃ more, s'.written = s.written ++ more

def Start.Past (s : Shared Blob) (start : Start) : Prop :=
  start.written ≤ (s.valuesOf start.name).length ∧
    (start.revoked = true →
      ∃ id row, s.rows.get? id = some row ∧ row.name = start.name ∧ row.revoked = true)

def Holds (s : Shared Blob) : Task Blob → Prop
  | .writingRotation row newValue blob _ =>
    (∃ cur, s.rows.get? row.id = some cur ∧ cur.name = row.name) ∧
      ∃ key, store.keys.get? store.activeVersion = some key ∧
        store.cipher.decrypt key blob = some newValue
  | .getting start _ _ => start.Past s
  | .unsealing start row _ => start.Past s ∧ start.revoked = false ∧ row.name = start.name ∧
      ∃ cur, s.rows.get? row.id = some cur ∧ cur.name = row.name
  | .auditingAccess start _ _ credential => Given store s start (.ok (some credential))
  | .gave start result => Given store s start result
  | .rewriting rows _ => ∀ d ∈ rows, ∃ row, s.rows.get? d.id = some row ∧
      d.version ≤ row.version ∧ (row.version = d.version → store.plainOf row = some d.plain)
  | _ => True

variable {value : String}

section
variable {store} {s s' : Shared Blob}

theorem valuesOf_append {more : List (String × String)} (h : s'.written = s.written ++ more)
    (name : String) : ∃ values, s'.valuesOf name = s.valuesOf name ++ values := by
  unfold Shared.valuesOf
  rw [h, List.filter_append, List.map_append]
  exact ⟨_, rfl⟩

theorem extends_same (hrows : s'.rows = s.rows) (hwritten : s'.written = s.written) :
    Extends store s s' where
  rows := fun _ row hrow => ⟨row, hrows ▸ hrow, rfl, rfl, fun h => h, Nat.le_refl _, fun _ => rfl⟩
  written := ⟨[], by rw [hwritten, List.append_nil]⟩

variable {start : Start}

theorem past_mono (h : Extends store s s') (hp : start.Past s) : start.Past s' := by
  obtain ⟨hle, hrevoked⟩ := hp
  obtain ⟨more, hmore⟩ := h.written
  obtain ⟨values, hvalues⟩ := valuesOf_append hmore start.name
  refine ⟨?_, fun hr => ?_⟩
  · rw [hvalues, List.length_append]
    omega
  · obtain ⟨id, row, hrow, hname, hrow'⟩ := hrevoked hr
    obtain ⟨row', hget, hname', -, hkeep, -, -⟩ := h.rows id row hrow
    exact ⟨id, row', hget, hname'.trans hname, hkeep hrow'⟩

theorem given_mono (h : Extends store s s')
    {result : Except CredentialError (Option DecryptedCredential)}
    (hg : Given store s start result) : Given store s' start result := by
  obtain ⟨more, hmore⟩ := h.written
  obtain ⟨values, hvalues⟩ := valuesOf_append hmore start.name
  cases result with
  | error e => exact hg
  | ok found =>
    cases found with
    | none =>
      rcases hg with hzero | hisolated | ⟨id, row, hrow, hname, hgone⟩
      · exact .inl hzero
      · exact .inr (.inl hisolated)
      · obtain ⟨row', hget, hname', hexpires, hkeep, -, -⟩ := h.rows id row hrow
        refine .inr (.inr ⟨id, row', hget, hname'.trans hname, ?_⟩)
        rw [hexpires]
        exact hgone.imp_left hkeep
    | some credential =>
      refine ⟨hg.1, ?_⟩
      rw [hvalues]
      have hmem := hg.2
      rw [List.drop_append]
      exact List.mem_append_left _ hmem

variable {name id : String}

theorem there_mono (h : Extends store s s')
    (hrow : ∃ row, s.rows.get? id = some row ∧ row.name = name) :
    ∃ row, s'.rows.get? id = some row ∧ row.name = name := by
  obtain ⟨row, hget, hname⟩ := hrow
  obtain ⟨row', hget', hname', -⟩ := h.rows id row hget
  exact ⟨row', hget', hname'.trans hname⟩

theorem holds_mono (h : Extends store s s') {t : Task Blob} (ht : Holds store s t) :
    Holds store s' t := by
  cases t with
  | writingRotation row newValue blob actor => exact ⟨there_mono h ht.1, ht.2⟩
  | getting start actor tenant => exact past_mono h ht
  | unsealing start row actor =>
    obtain ⟨hpast, hrevoked, hname, hthere⟩ := ht
    exact ⟨past_mono h hpast, hrevoked, hname, there_mono h hthere⟩
  | auditingAccess start id actor credential =>
    change Given store s start (.ok (some credential)) at ht
    exact given_mono h ht
  | gave start result => exact given_mono h ht
  | rewriting rows actor =>
    intro d hd
    obtain ⟨row, hrow, hle, hplain⟩ := ht d hd
    obtain ⟨row', hget, -, -, -, hle', hsame⟩ := h.rows d.id row hrow
    refine ⟨row', hget, Nat.le_trans hle hle', fun heq => ?_⟩
    have hrow' : row.version = d.version := by omega
    rw [hsame (by omega)]
    exact hplain hrow'
  | _ => trivial

variable {row : Credential Blob} {blob : Blob}

theorem unsealRow_eq_ok :
    store.unsealRow row blob = .ok value ↔
      (store.keys.get? (store.versionOf row)).bind (fun key => store.cipher.decrypt key blob) =
        some value := by
  unfold CredentialStore.unsealRow CredentialStore.keyForRow CredentialStore.decrypt
  cases hkey : store.keys.get? (store.versionOf row) with
  | none => simp [bind, Except.bind]
  | some key =>
    cases hdecrypt : store.cipher.decrypt key blob with
    | none => simp [bind, Except.bind, hdecrypt]
    | some plaintext => simp [bind, Except.bind, hdecrypt]

variable {key : Key}

theorem activeKeyBytes_ok (h : store.activeKeyBytes = .ok key) :
    store.keys.get? store.activeVersion = some key := by
  unfold CredentialStore.activeKeyBytes at h
  split at h
  next k hk =>
    rw [hk, Except.ok.inj h]
  · cases h

theorem sealActive_ok {nonce : Nat} {plaintext : String}
    (h : store.sealActive nonce plaintext = .ok blob) :
    ∃ key, store.keys.get? store.activeVersion = some key ∧
      store.cipher.encrypt key nonce plaintext = some blob := by
  unfold CredentialStore.sealActive CredentialStore.activeKeyBytes CredentialStore.encrypt at h
  cases hkey : store.keys.get? store.activeVersion with
  | none => simp [hkey, bind, Except.bind] at h
  | some key =>
    cases hencrypt : store.cipher.encrypt key nonce plaintext with
    | none => simp [hkey, hencrypt, bind, Except.bind] at h
    | some sealed =>
      simp only [hkey, hencrypt, bind, Except.bind, Except.ok.injEq] at h
      exact ⟨key, rfl, h ▸ hencrypt⟩

theorem plainOf_active (hkey : store.keys.get? store.activeVersion = some key)
    (hversion : row.keyVersion = some store.activeVersion)
    (hdecrypt : store.cipher.decrypt key row.valueEncrypted = some value) :
    store.plainOf row = some value := by
  unfold CredentialStore.plainOf CredentialStore.versionOf
  rw [hversion, Option.getD_some, hkey, Option.bind_some]
  exact hdecrypt

theorem getRowByName_some (hs : Sound store s) (h : s.getRowByName name = some row) :
    s.rows.get? row.id = some row ∧ row.name = name := by
  obtain ⟨id, hid⟩ := HashMap.mem_values.mp (List.mem_of_find?_eq_some h)
  have hname := List.find?_some h
  have heq : row.id = id := hs.keyed id row hid
  exact ⟨heq ▸ hid, beq_iff_eq.mp hname⟩

theorem getRowByName_none (h : s.getRowByName name = none) (hrow : s.rows.get? id = some row) :
    row.name ≠ name := by
  have hnot := List.find?_eq_none.mp h row (HashMap.mem_values.mpr ⟨id, hrow⟩)
  exact fun heq => hnot (beq_iff_eq.mpr heq)

theorem getRowByNameForTenant_some {tenant : String} (hs : Sound store s)
    (h : s.getRowByNameForTenant name tenant = some row) :
    s.rows.get? row.id = some row ∧ row.name = name := by
  obtain ⟨id, hid⟩ := HashMap.mem_values.mp (List.mem_of_find?_eq_some h)
  have hfound := List.find?_some h
  simp only [Bool.and_eq_true, beq_iff_eq] at hfound
  have heq : row.id = id := hs.keyed id row hid
  exact ⟨heq ▸ hid, hfound.1⟩

theorem sound_same (hs : Sound store s) (hrows : s'.rows = s.rows)
    (hwritten : s'.written = s.written) : Sound store s' := by
  have hvalues : ∀ name, s'.valuesOf name = s.valuesOf name := by
    intro name
    unfold Shared.valuesOf
    rw [hwritten]
  constructor
  · rw [hrows]
    exact hs.keyed
  · rw [hrows]
    exact hs.names
  · intro name hname
    rw [hvalues] at hname
    rw [hrows]
    exact hs.named name hname
  · intro id row hrow
    rw [hrows] at hrow
    rw [hvalues]
    exact hs.current id row hrow

theorem valuesOf_concat {name' : String} (hwritten : s'.written = s.written ++ [(name', value)])
    (name : String) :
    s'.valuesOf name = s.valuesOf name ++ if name' = name then [value] else [] := by
  unfold Shared.valuesOf
  rw [hwritten, List.filter_append, List.map_append]
  by_cases hname : name' = name
  · simp [hname]
  · simp [hname]

theorem insert_kept (hs : Sound store s) (hnew : s.rows.get? row.id = none)
    (hfree : ∀ id r, s.rows.get? id = some r → r.name ≠ row.name)
    (hplain : store.plainOf row = some value) (hrows : s'.rows = s.rows.insert row.id row)
    (hwritten : s'.written = s.written ++ [(row.name, value)]) :
    Sound store s' ∧ Extends store s s' := by
  have hget : ∀ id r, s'.rows.get? id = some r →
      (id = row.id ∧ r = row) ∨ (id ≠ row.id ∧ s.rows.get? id = some r) := by
    intro id r h
    rw [hrows] at h
    exact (HashMap.insert_some h).imp_left (fun hself => ⟨hself.1, hself.2.symm⟩)
  have hold : ∀ id r, s.rows.get? id = some r → s'.rows.get? id = some r := by
    intro id r h
    rw [hrows]
    exact HashMap.insert_of_some h hnew row
  have hself : s'.rows.get? row.id = some row := by
    rw [hrows, HashMap.get?_insert, if_pos rfl]
  refine ⟨⟨?_, ?_, ?_, ?_⟩, ⟨?_, _, hwritten⟩⟩
  · rw [hrows]
    exact hs.keyed.insert rfl
  · intro id id' r r' hr hr' hname
    rcases hget id r hr with ⟨rfl, rfl⟩ | ⟨-, hrow⟩
    · rcases hget id' r' hr' with ⟨rfl, rfl⟩ | ⟨-, hrow'⟩
      · rfl
      · exact absurd hname.symm (hfree id' r' hrow')
    · rcases hget id' r' hr' with ⟨rfl, rfl⟩ | ⟨-, hrow'⟩
      · exact absurd hname (hfree id r hrow)
      · exact hs.names id id' r r' hrow hrow' hname
  · intro name hname
    rw [valuesOf_concat hwritten] at hname
    by_cases heq : row.name = name
    · exact ⟨row.id, row, hself, heq⟩
    · rw [if_neg heq, List.append_nil] at hname
      obtain ⟨id, r, hr, hrname⟩ := hs.named name hname
      exact ⟨id, r, hold id r hr, hrname⟩
  · intro id r hr
    rcases hget id r hr with ⟨rfl, rfl⟩ | ⟨-, hrow⟩
    · refine ⟨value, hplain, ?_⟩
      rw [valuesOf_concat hwritten, if_pos rfl, List.getLast?_concat]
    · obtain ⟨v, hv, hlast⟩ := hs.current id r hrow
      refine ⟨v, hv, ?_⟩
      rw [valuesOf_concat hwritten, if_neg (hfree id r hrow).symm, List.append_nil]
      exact hlast
  · intro id r hr
    exact ⟨r, hold id r hr, rfl, rfl, fun h => h, Nat.le_refl _, fun _ => rfl⟩

theorem revised_sound (hs : Sound store s) (hext : Extends store s s')
    (hback : ∀ id row', s'.rows.get? id = some row' →
      ∃ row, s.rows.get? id = some row ∧ row'.id = row.id ∧ row'.name = row.name)
    (hnamed : ∀ name, s'.valuesOf name ≠ [] → s.valuesOf name ≠ [] ∨
      ∃ id row, s.rows.get? id = some row ∧ row.name = name)
    (hcurrent : ∀ id row', s'.rows.get? id = some row' →
      ∃ value, store.plainOf row' = some value ∧ (s'.valuesOf row'.name).getLast? = some value) :
    Sound store s' := by
  refine ⟨?_, ?_, ?_, hcurrent⟩
  · intro id row' hrow'
    obtain ⟨row, hrow, hid, -⟩ := hback id row' hrow'
    exact hid.trans (hs.keyed id row hrow)
  · intro id id' r r' hr hr' hname
    obtain ⟨row, hrow, -, heq⟩ := hback id r hr
    obtain ⟨row', hrow', -, heq'⟩ := hback id' r' hr'
    exact hs.names id id' row row' hrow hrow' (heq.symm.trans (hname.trans heq'))
  · intro name hname
    have hthere : ∃ id row, s.rows.get? id = some row ∧ row.name = name := by
      rcases hnamed name hname with hold | hnew
      · exact hs.named name hold
      · exact hnew
    obtain ⟨id, row, hrow, hrname⟩ := hthere
    obtain ⟨row', hget, hname', -⟩ := hext.rows id row hrow
    exact ⟨id, row', hget, hname'.trans hrname⟩

theorem insertNew_kept (hcipher : store.cipher.Lawful) (hs : Sound store s) {forTenant : Bool}
    {new : NewCredential} {nonce : Nat} (h : insertNew store s forTenant new id nonce = .ok s') :
    Sound store s' ∧ Extends store s s' := by
  unfold insertNew at h
  split at h
  · cases h
  · split at h
    · cases h
    · split at h
      · cases h
      next blob hseal =>
        split at h
        · cases h
        next hname =>
          split at h
          · cases h
          next hid =>
            obtain rfl := Except.ok.inj h
            obtain ⟨key, hkey, hencrypt⟩ := sealActive_ok hseal
            have hnone := Option.not_isSome_iff_eq_none.mp hname
            have hplain : store.plainOf (new.row id store.activeVersion s.nowMs blob) =
                some new.value :=
              plainOf_active hkey rfl (hcipher.decrypt_encrypt key nonce new.value blob hencrypt)
            exact insert_kept hs (Option.not_isSome_iff_eq_none.mp hid)
              (fun _ _ hr => getRowByName_none hnone hr) hplain rfl rfl

theorem writeRotation_kept (hs : Sound store s) {newValue : String}
    (hkey : store.keys.get? store.activeVersion = some key)
    (hdecrypt : store.cipher.decrypt key blob = some newValue)
    (hthere : ∃ cur, s.rows.get? row.id = some cur ∧ cur.name = row.name) :
    Sound store (writeRotation store s row newValue blob) ∧
      Extends store s (writeRotation store s row newValue blob) := by
  obtain ⟨cur, hcur, hcurname⟩ := hthere
  have hwritten : (writeRotation store s row newValue blob).written =
      s.written ++ [(row.name, newValue)] := rfl
  have hext : Extends store s (writeRotation store s row newValue blob) := by
    refine ⟨fun id r hr => ⟨_, HashMap.modify_of_some hr row.id _, ?_⟩, _, hwritten⟩
    split
    · exact ⟨rfl, rfl, fun h => h, Nat.le_succ _, fun h => absurd h (Nat.succ_ne_self _)⟩
    · exact ⟨rfl, rfl, fun h => h, Nat.le_refl _, fun _ => rfl⟩
  refine ⟨revised_sound hs hext ?_ ?_ ?_, hext⟩
  · intro id row' hrow'
    rcases HashMap.modify_some hrow' with ⟨-, r, hr, rfl⟩ | ⟨-, hr⟩
    · exact ⟨r, hr, rfl, rfl⟩
    · exact ⟨row', hr, rfl, rfl⟩
  · intro name hname
    by_cases heq : row.name = name
    · exact .inr ⟨row.id, cur, hcur, hcurname.trans heq⟩
    · rw [valuesOf_concat hwritten, if_neg heq, List.append_nil] at hname
      exact .inl hname
  · intro id row' hrow'
    rcases HashMap.modify_some hrow' with ⟨rfl, r, hr, rfl⟩ | ⟨hid, hr⟩
    · obtain rfl := Option.some.inj (hcur.symm.trans hr)
      refine ⟨newValue, plainOf_active hkey rfl hdecrypt, ?_⟩
      rw [valuesOf_concat hwritten, if_pos hcurname.symm, List.getLast?_concat]
    · obtain ⟨v, hv, hlast⟩ := hs.current id row' hr
      have hne : row.name ≠ row'.name := by
        intro heq
        exact hid (hs.names id row.id row' cur hr hcur (heq.symm.trans hcurname.symm))
      refine ⟨v, hv, ?_⟩
      rw [valuesOf_concat hwritten, if_neg hne, List.append_nil]
      exact hlast

theorem writeRevocation_kept (hs : Sound store s) (row : Credential Blob)
    (reason : Option String) : Sound store (writeRevocation s row reason) ∧
      Extends store s (writeRevocation s row reason) := by
  have hext : Extends store s (writeRevocation s row reason) := by
    refine ⟨fun id r hr => ⟨_, HashMap.modify_of_some hr row.id _, ?_⟩, [],
      (List.append_nil _).symm⟩
    split
    · exact ⟨rfl, rfl, fun _ => rfl, Nat.le_refl _, fun _ => rfl⟩
    · exact ⟨rfl, rfl, fun h => h, Nat.le_refl _, fun _ => rfl⟩
  refine ⟨revised_sound hs hext ?_ (fun name hname => .inl hname) ?_, hext⟩
  · intro id row' hrow'
    rcases HashMap.modify_some hrow' with ⟨-, r, hr, rfl⟩ | ⟨-, hr⟩
    · exact ⟨r, hr, rfl, rfl⟩
    · exact ⟨row', hr, rfl, rfl⟩
  · intro id row' hrow'
    rcases HashMap.modify_some hrow' with ⟨-, r, hr, rfl⟩ | ⟨-, hr⟩
    · exact hs.current id r hr
    · exact hs.current id row' hr

def Rekeyed (store : CredentialStore Key Blob) (r r' : Credential Blob) : Prop :=
  r'.id = r.id ∧ r'.name = r.name ∧ r'.expiresAtMs = r.expiresAtMs ∧ r'.revoked = r.revoked ∧
    r'.version = r.version ∧ store.plainOf r' = store.plainOf r

theorem Rekeyed.refl (r : Credential Blob) : Rekeyed store r r := ⟨rfl, rfl, rfl, rfl, rfl, rfl⟩

theorem Rekeyed.trans {r r' r'' : Credential Blob} (h : Rekeyed store r r')
    (h' : Rekeyed store r' r'') : Rekeyed store r r'' := by
  obtain ⟨hid, hname, hexpires, hrevoked, hversion, hplain⟩ := h
  obtain ⟨hid', hname', hexpires', hrevoked', hversion', hplain'⟩ := h'
  exact ⟨hid'.trans hid, hname'.trans hname, hexpires'.trans hexpires, hrevoked'.trans hrevoked,
    hversion'.trans hversion, hplain'.trans hplain⟩

theorem decrypt_eq_ok :
    store.decrypt key blob = .ok value ↔ store.cipher.decrypt key blob = some value := by
  unfold CredentialStore.decrypt
  cases store.cipher.decrypt key blob with
  | none => simp
  | some plaintext => simp

theorem rewriteAll_rekeys (hkey : store.keys.get? store.activeVersion = some key) :
    ∀ {ds : List Decrypted} {nonces : List Nat} {rows rows' : HashMap String (Credential Blob)},
      rewriteAll store key ds nonces rows = .ok rows' →
      (∀ d ∈ ds, ∀ r, rows.get? d.id = some r → store.plainOf r = some d.plain) →
      ∀ id, ((rows.get? id) = none → rows'.get? id = none) ∧
        ∀ r, rows.get? id = some r → ∃ r', rows'.get? id = some r' ∧ Rekeyed store r r' := by
  intro ds
  induction ds with
  | nil =>
    intro nonces rows rows' h _ id
    obtain rfl := Except.ok.inj h
    exact ⟨fun h => h, fun r hr => ⟨r, hr, .refl r⟩⟩
  | cons d ds ih =>
    intro nonces rows rows' h hplain id
    unfold rewriteAll at h
    cases hencrypt : store.encrypt key (nonces.headD 0) d.plain with
    | error e =>
      rw [hencrypt] at h
      cases h
    | ok blob =>
      cases hdecrypt : store.decrypt key blob with
      | error e =>
        simp only [hencrypt, hdecrypt, bind, Except.bind] at h
        cases h
      | ok verified =>
        simp only [hencrypt, hdecrypt, bind, Except.bind] at h
        split at h
        · cases h
        next hsame =>
          have hvalue : store.cipher.decrypt key blob = some d.plain := by
            rw [← not_not.mp hsame]
            exact decrypt_eq_ok.mp hdecrypt
          have hd : ∀ r, rows.get? d.id = some r → Rekeyed store r { r with
              valueEncrypted := blob, keyVersion := some store.activeVersion } := by
            intro r hr
            refine ⟨rfl, rfl, rfl, rfl, rfl, ?_⟩
            rw [hplain d List.mem_cons_self r hr]
            exact plainOf_active hkey rfl hvalue
          have hplain' : ∀ e ∈ ds, ∀ r, (rows.modify d.id (fun r => { r with
              valueEncrypted := blob, keyVersion := some store.activeVersion })).get? e.id =
                some r → store.plainOf r = some e.plain := by
            intro e he r hr
            rcases HashMap.modify_some hr with ⟨hid, r₀, hr₀, rfl⟩ | ⟨-, hr₀⟩
            · rw [(hd r₀ (hid ▸ hr₀)).2.2.2.2.2]
              exact hplain e (List.mem_cons_of_mem _ he) r₀ hr₀
            · exact hplain e (List.mem_cons_of_mem _ he) r hr₀
          obtain ⟨hnone, hsome⟩ := ih h hplain' id
          refine ⟨fun hr => hnone ?_, fun r hr => ?_⟩
          · rw [HashMap.get?_modify]
            split
            next hid => rw [← hid, hr, Option.map_none]
            · exact hr
          · obtain ⟨r', hr', hrekeyed⟩ := hsome _ (HashMap.modify_of_some hr d.id _)
            by_cases hid : id = d.id
            · rw [if_pos hid] at hrekeyed
              exact ⟨r', hr', (hd r (hid ▸ hr)).trans hrekeyed⟩
            · rw [if_neg hid] at hrekeyed
              exact ⟨r', hr', hrekeyed⟩

theorem rewriteAll_kept (hs : Sound store s) {ds : List Decrypted} {nonces : List Nat}
    {rows' : HashMap String (Credential Blob)}
    (hkey : store.keys.get? store.activeVersion = some key)
    (hplain : ∀ d ∈ ds, ∀ r, s.rows.get? d.id = some r → store.plainOf r = some d.plain)
    (h : rewriteAll store key ds nonces s.rows = .ok rows') :
    Sound store { s with rows := rows' } ∧ Extends store s { s with rows := rows' } := by
  have hrows := rewriteAll_rekeys hkey h hplain
  have hext : Extends store s { s with rows := rows' } := by
    refine ⟨?_, [], (List.append_nil _).symm⟩
    intro id r hr
    obtain ⟨r', hr', -, hname, hexpires, hrevoked, hversion, hsame⟩ := (hrows id).2 r hr
    exact ⟨r', hr', hname, hexpires, fun h => hrevoked.trans h, Nat.le_of_eq hversion.symm, fun _ => hsame⟩
  have hback : ∀ id row', rows'.get? id = some row' →
      ∃ row, s.rows.get? id = some row ∧ Rekeyed store row row' := by
    intro id row' hrow'
    cases hr : s.rows.get? id with
    | none =>
      rw [(hrows id).1 hr] at hrow'
      cases hrow'
    | some r =>
      obtain ⟨r', hr', hrekeyed⟩ := (hrows id).2 r hr
      rw [hrow'] at hr'
      exact ⟨r, rfl, Option.some.inj hr' ▸ hrekeyed⟩
  refine ⟨revised_sound hs hext ?_ (fun name hname => .inl hname) ?_, hext⟩
  · intro id row' hrow'
    obtain ⟨row, hrow, hid, hname, -⟩ := hback id row' hrow'
    exact ⟨row, hrow, hid, hname⟩
  · intro id row' hrow'
    obtain ⟨row, hrow, -, hname, -, -, -, hsame⟩ := hback id row' hrow'
    rw [hsame, hname]
    exact hs.current id row hrow

theorem snapshot_ok {rows : List (Credential Blob)} : ∀ {ds : List Decrypted},
    snapshot store rows = .ok ds → ∀ d ∈ ds, ∃ row ∈ rows, row.id = d.id ∧
      row.version = d.version ∧ store.plainOf row = some d.plain := by
  induction rows with
  | nil =>
    intro ds h d hd
    obtain rfl := Except.ok.inj h
    cases hd
  | cons row rows ih =>
    intro ds h d hd
    unfold snapshot at h
    cases hplain : store.unsealRow row row.valueEncrypted with
    | error e =>
      rw [hplain] at h
      cases h
    | ok plain =>
      cases hrest : snapshot store rows with
      | error e =>
        rw [hplain, hrest] at h
        cases h
      | ok rest =>
        rw [hplain, hrest] at h
        obtain rfl := Except.ok.inj h
        rcases List.mem_cons.mp hd with rfl | hmem
        · exact ⟨row, List.mem_cons_self, rfl, rfl, unsealRow_eq_ok.mp hplain⟩
        · obtain ⟨r, hr, hrest'⟩ := ih hrest d hmem
          exact ⟨r, List.mem_cons_of_mem _ hr, hrest'⟩

theorem decryptRow_ok (hs : Sound store s) {cur : Credential Blob}
    (hcur : s.rows.get? row.id = some cur) (hname : cur.name = row.name)
    (hversion : store.versionOf cur = store.versionOf row) :
    ∃ credential, decryptRow store s row = .ok credential ∧
      (s.valuesOf row.name).getLast? = some credential.value := by
  obtain ⟨value, hplain, hlast⟩ := hs.current row.id cur hcur
  have hunseal : store.unsealRow row cur.valueEncrypted = .ok value := by
    rw [unsealRow_eq_ok, ← hversion]
    exact hplain
  rw [hname] at hlast
  refine ⟨⟨row.name, row.kind, row.ownerAgent, value, row.version, row.keyVersion⟩, ?_, hlast⟩
  unfold decryptRow
  rw [hcur]
  simp only [bind, Except.bind, hunseal]
  rfl

theorem mem_drop_of_getLast? {l : List String} {v : String} {n : Nat}
    (h : l.getLast? = some v) (hn : n ≤ l.length) : v ∈ l.drop (n - 1) := by
  obtain ⟨front, rfl⟩ := List.getLast?_eq_some_iff.mp h
  rw [List.length_append, List.length_singleton] at hn
  rw [List.drop_append_of_le_length (by omega)]
  exact List.mem_append_right _ List.mem_cons_self

structure Kept (store : CredentialStore Key Blob) (s s' : Shared Blob) (t' : Task Blob) :
    Prop where
  sound : Sound store s'
  grows : Extends store s s'
  task : Holds store s' t'

variable {t t' : Task Blob} {choice : Choice}

theorem kept_same (hs : Sound store s) (hrows : s'.rows = s.rows)
    (hwritten : s'.written = s.written) (ht : Holds store s' t') : Kept store s s' t' :=
  ⟨sound_same hs hrows hwritten, extends_same hrows hwritten, ht⟩

theorem stepStore_kept (hcipher : store.cipher.Lawful) (hs : Sound store s)
    (h : stepStore store s choice t = some (s', t')) : Kept store s s' t' := by
  cases t with
  | storing forTenant new =>
    simp only [stepStore] at h
    split at h
    · split at h
      · cases h
        exact kept_same hs rfl rfl trivial
      next s₁ hinsert =>
        cases h
        obtain ⟨hsound, hgrows⟩ := insertNew_kept hcipher hs hinsert
        exact ⟨hsound, hgrows, trivial⟩
    · cases h
  | readingBack id name event actor details =>
    simp only [stepStore] at h
    split at h
    · cases h
      exact kept_same hs rfl rfl trivial
    · cases h
      exact kept_same hs rfl rfl trivial
  | auditing id event actor details =>
    cases h
    exact kept_same hs rfl rfl trivial
  | _ => cases h

theorem stepRotate_kept (hcipher : store.cipher.Lawful) (hs : Sound store s)
    (ht : Holds store s t) (h : stepRotate store s choice t = some (s', t')) :
    Kept store s s' t' := by
  cases t with
  | rotating name newValue actor =>
    simp only [stepRotate] at h
    split at h
    · split at h
      · cases h
        exact kept_same hs rfl rfl trivial
      next row hrow =>
        split at h
        · cases h
          exact kept_same hs rfl rfl trivial
        · split at h
          · cases h
            exact kept_same hs rfl rfl trivial
          next blob hseal =>
            cases h
            obtain ⟨key, hkey, hencrypt⟩ := sealActive_ok hseal
            have hget := (getRowByName_some hs hrow).1
            exact kept_same hs rfl rfl ⟨⟨row, hget, rfl⟩, key, hkey,
              hcipher.decrypt_encrypt key _ newValue blob hencrypt⟩
    · cases h
  | writingRotation row newValue blob actor =>
    cases h
    obtain ⟨hthere, key, hkey, hdecrypt⟩ := ht
    obtain ⟨hsound, hgrows⟩ := writeRotation_kept hs hkey hdecrypt hthere
    exact ⟨hsound, hgrows, trivial⟩
  | revoking name reason actor =>
    simp only [stepRotate] at h
    split at h
    · cases h
      exact kept_same hs rfl rfl trivial
    · split at h
      · cases h
        exact kept_same hs rfl rfl trivial
      · cases h
        exact kept_same hs rfl rfl trivial
  | writingRevocation row reason actor =>
    cases h
    obtain ⟨hsound, hgrows⟩ := writeRevocation_kept hs row reason
    exact ⟨hsound, hgrows, trivial⟩
  | _ => cases h

theorem start_past (hs : Sound store s) (name : String) : (s.start name).Past s := by
  refine ⟨Nat.le_refl _, fun hrevoked => ?_⟩
  obtain ⟨row, hrow, hgone⟩ := (Option.any_eq_true _ _).mp hrevoked
  obtain ⟨hget, hname⟩ := getRowByName_some hs hrow
  exact ⟨row.id, row, hget, hname, hgone⟩

theorem live_some {nowMs : Int} {found : Option (Credential Blob)}
    (h : found.filter (fun row => !row.revoked && !expired nowMs row) = some row) :
    found = some row ∧ row.revoked = false := by
  obtain ⟨hfound, hlive⟩ := Option.filter_eq_some_iff.mp h
  have hboth := Bool.and_eq_true_iff.mp hlive
  exact ⟨hfound, Bool.not_eq_true' _ |>.mp hboth.1⟩

theorem live_none {nowMs : Int}
    (h : (some row).filter (fun row => !row.revoked && !expired nowMs row) = none) :
    row.revoked = true ∨ row.expiresAtMs.isSome = true := by
  have hnot := Option.filter_eq_none_iff.mp h row rfl
  by_cases hrevoked : row.revoked = true
  · exact .inl hrevoked
  · right
    have hexpired : expired nowMs row = true := by
      simpa [hrevoked] using hnot
    obtain ⟨time, htime, -⟩ := (Option.any_eq_true _ _).mp hexpired
    rw [htime]
    rfl

theorem holds_live (hs : Sound store s) (actor : Option String) (hpast : start.Past s)
    (hget : s.rows.get? row.id = some row) (hname : row.name = start.name)
    (hlive : row.revoked = false) : Holds store s (.unsealing start row actor) := by
  refine ⟨hpast, ?_, hname, row, hget, rfl⟩
  cases hrevoked : start.revoked with
  | false => rfl
  | true =>
    obtain ⟨id, row', hget', hname', hgone⟩ := hpast.2 hrevoked
    have hid := hs.names _ _ row row' hget hget' (hname.trans hname'.symm)
    rw [← hid, hget] at hget'
    rw [← Option.some.inj hget', hlive] at hgone
    cases hgone

theorem given_none (hs : Sound store s) (hpast : start.Past s)
    (h : (s.getRowByName start.name).filter (fun row => !row.revoked && !expired s.nowMs row) =
      none) : Given store s start (.ok none) := by
  cases hfound : s.getRowByName start.name with
  | none =>
    left
    have hnil : s.valuesOf start.name = [] := by
      by_contra hne
      obtain ⟨id, row, hrow, hname⟩ := hs.named start.name hne
      exact getRowByName_none hfound hrow hname
    have hle := hpast.1
    rw [hnil] at hle
    exact Nat.le_zero.mp hle
  | some row =>
    rw [hfound] at h
    obtain ⟨hget, hname⟩ := getRowByName_some hs hfound
    exact .inr (.inr ⟨row.id, row, hget, hname, live_none h⟩)

structure Reads (store : CredentialStore Key Blob) (s : Shared Blob) (start : Start)
    (r : Except CredentialError (Option (Credential Blob))) : Prop where
  error : ∀ e, r = .error e → Given store s start (.error e)
  none : r = .ok none → Given store s start (.ok none)
  some : ∀ row, r = .ok (some row) → s.rows.get? row.id = some row ∧ row.name = start.name ∧
    row.revoked = false

theorem reads_byName (hs : Sound store s) (hpast : start.Past s) :
    Reads store s start (.ok ((s.getRowByName start.name).filter
      (fun row => !row.revoked && !expired s.nowMs row))) where
  error := by
    intro e h
    cases h
  none := by
    intro h
    exact given_none hs hpast (Except.ok.inj h)
  some := by
    intro row h
    obtain ⟨hfound, hrevoked⟩ := live_some (Except.ok.inj h)
    obtain ⟨hget, hname⟩ := getRowByName_some hs hfound
    exact ⟨hget, hname, hrevoked⟩

theorem rowToGet_reads (hs : Sound store s) (hpast : start.Past s)
    (tenant : Option (Option String)) :
    Reads store s start (rowToGet store s start.name tenant) := by
  unfold rowToGet
  cases tenant with
  | none => exact reads_byName hs hpast
  | some t =>
    dsimp only
    split
    · exact reads_byName hs hpast
    next hisolated =>
      split
      · refine ⟨?_, ?_, ?_⟩
        · intro e h
          cases h
          rfl
        · intro h
          cases h
        · intro row h
          cases h
      · refine ⟨?_, ?_, ?_⟩
        · intro e h
          cases h
        · intro _
          exact .inr (.inl (by simpa using hisolated))
        · intro row h
          obtain ⟨hfound, hrevoked⟩ := live_some (Except.ok.inj h)
          obtain ⟨hget, hname⟩ := getRowByNameForTenant_some hs hfound
          exact ⟨hget, hname, hrevoked⟩

theorem stepGet_kept (hs : Sound store s) (ht : Holds store s t) (hok : t.Undisturbed store s)
    (h : stepGet store s t = some (s', t')) : Kept store s s' t' := by
  cases t with
  | asking name actor tenant =>
    cases h
    exact kept_same hs rfl rfl (start_past hs name)
  | getting start actor tenant =>
    have hreads := rowToGet_reads hs ht tenant
    simp only [stepGet] at h
    split at h
    next e he =>
      cases h
      exact kept_same hs rfl rfl (hreads.error e he)
    next hnone =>
      cases h
      exact kept_same hs rfl rfl (hreads.none hnone)
    next row hrow =>
      cases h
      obtain ⟨hget, hname, hlive⟩ := hreads.some row hrow
      exact kept_same hs rfl rfl (holds_live hs actor ht hget hname hlive)
  | unsealing start row actor =>
    obtain ⟨hpast, hrevoked, hname, cur, hcur, hcurname⟩ := ht
    obtain ⟨credential, hdecrypt, hlast⟩ := decryptRow_ok hs hcur hcurname (hok cur hcur)
    simp only [stepGet, hdecrypt] at h
    cases h
    rw [hname] at hlast
    exact kept_same hs rfl rfl ⟨hrevoked, mem_drop_of_getLast? hlast hpast.1⟩
  | auditingAccess start id actor credential =>
    cases h
    have hgiven : Given store s start (.ok (some credential)) := ht
    have hsame : Extends store s (s.audit id .accessed actor none) := extends_same rfl rfl
    exact kept_same hs rfl rfl (given_mono hsame hgiven)
  | _ => cases h

theorem stepRekey_kept (hs : Sound store s) (ht : Holds store s t)
    (hok : t.Undisturbed store s) (h : stepRekey store s choice t = some (s', t')) :
    Kept store s s' t' := by
  cases t with
  | rekeying actor =>
    simp only [stepRekey] at h
    split at h
    · cases h
      exact kept_same hs rfl rfl trivial
    · cases h
      exact kept_same hs rfl rfl trivial
    next ds hkey hsnapshot =>
      cases h
      refine kept_same hs rfl rfl ?_
      intro d hd
      obtain ⟨row, hrow, hid, hversion, hplain⟩ := snapshot_ok hsnapshot d hd
      obtain ⟨id, hget⟩ := HashMap.mem_values.mp hrow
      have heq : row.id = id := hs.keyed id row hget
      rw [← heq, hid] at hget
      exact ⟨row, hget, Nat.le_of_eq hversion.symm, fun _ => hplain⟩
  | rewriting ds actor =>
    simp only [stepRekey] at h
    split at h
    · split at h
      · cases h
        exact kept_same hs rfl rfl trivial
      next key hkey =>
        split at h
        · cases h
          exact kept_same hs rfl rfl trivial
        next rows' hrewrite =>
          cases h
          have hactive : store.keys.get? store.activeVersion = some key := activeKeyBytes_ok hkey
          have hplain : ∀ d ∈ ds, ∀ r, s.rows.get? d.id = some r →
              store.plainOf r = some d.plain := by
            intro d hd r hr
            obtain ⟨row, hrow, -, hvalue⟩ := ht d hd
            have hsame : row = r := Option.some.inj (hrow.symm.trans hr)
            rw [← hsame]
            exact hvalue (hsame ▸ hok d hd r hr)
          obtain ⟨hsound, hgrows⟩ := rewriteAll_kept hs hactive hplain hrewrite
          exact ⟨hsound, hgrows, trivial⟩
    · cases h
  | auditingRekey ids actor =>
    cases ids with
    | nil =>
      cases h
      exact kept_same hs rfl rfl trivial
    | cons id ids =>
      cases h
      exact kept_same hs rfl rfl trivial
  | _ => cases h

theorem step_kept (hcipher : store.cipher.Lawful) (hs : Sound store s) (ht : Holds store s t)
    (hok : t.Undisturbed store s) (h : step store s choice t = some (s', t')) :
    Kept store s s' t' := by
  rcases Option.or_eq_some_iff.mp h with hleft | ⟨-, hright⟩
  · rcases Option.or_eq_some_iff.mp hleft with hstore | ⟨-, hrotate⟩
    · exact stepStore_kept hcipher hs hstore
    · exact stepRotate_kept hcipher hs ht hrotate
  · rcases Option.or_eq_some_iff.mp hright with hget | ⟨-, hrekey⟩
    · exact stepGet_kept hs ht hok hget
    · exact stepRekey_kept hs ht hok hrekey

theorem holds_call (h : t.isCall = true) : Holds store s t := by
  cases t with
  | storing _ _ => trivial
  | rotating _ _ _ => trivial
  | revoking _ _ _ => trivial
  | asking _ _ _ => trivial
  | rekeying _ => trivial
  | _ => cases h

end

abbrev Consistent (c : Crowd (Shared Blob) (Task Blob)) : Prop :=
  Meets (Sound store) (Holds store) (fun _ _ => True) c

variable {store}

theorem step_consistent (hcipher : store.cipher.Lawful) {c c' : Crowd (Shared Blob) (Task Blob)}
    (l : Label (Task Blob)) (hok : Undisturbed store c l) (h : Step (service store) c l c')
    (hc : Consistent store c) : Consistent store c' := by
  refine Step.meets (fun _ _ _ => trivial) ?_ ?_ ?_ l hok h hc
  · rintro s s' hs ⟨nowMs, rfl⟩
    refine ⟨sound_same hs rfl rfl, fun u hu => ?_⟩
    exact holds_mono (extends_same rfl rfl) hu
  · rintro c t s' - hc ⟨rfl, hcall⟩
    exact ⟨hc.shared, holds_call hcall, fun j u hu => ⟨hc.task j u hu, trivial⟩⟩
  · rintro c i t s' t' fork hok hc ht ⟨rfl, choice, hstep⟩
    have hkept := step_kept hcipher hc.shared (hc.task i t ht) (hok i t rfl ht) hstep
    refine ⟨hkept.sound, hkept.task, ?_, ?_⟩
    · intro f hf
      cases hf
    · intro j u _ hu
      refine ⟨holds_mono hkept.grows (hc.task j u hu), trivial, ?_⟩
      intro f hf
      cases hf

/-- In every run from a sound vault in which no rotation comes between the snapshot and the writes
of `rotate_vault_key`, and no change of key between the two reads of a `get`, every row decrypts
under the version it names to the value last written, and every `get` gave what it may give. -/
theorem vault_linearizable (hcipher : store.cipher.Lawful) {s₀ : Shared Blob}
    (hsound : Sound store s₀) {c : Crowd (Shared Blob) (Task Blob)}
    (h : Runs (service store) (Undisturbed store) ⟨s₀, []⟩ c) :
    (∀ id row, c.shared.rows.get? id = some row →
      ∃ value, store.unsealRow row row.valueEncrypted = .ok value ∧
        (c.shared.valuesOf row.name).getLast? = some value) ∧
    ∀ (i : Nat) start result, c.tasks[i]? = some (.gave start result) →
      Given store c.shared start result := by
  have hc : Consistent store c :=
    h.keeps (fun _ l _ hok hstep => step_consistent hcipher l hok hstep)
      (Crowd.meets_nil hsound)
  refine ⟨fun id row hrow => ?_, fun i start result hi => hc.task i _ hi⟩
  obtain ⟨value, hplain, hlast⟩ := hc.shared.current id row hrow
  exact ⟨value, unsealRow_eq_ok.mpr hplain, hlast⟩

def playerOf (store : CredentialStore Key Blob)
    (allows : Crowd (Shared Blob) (Task Blob) → Label (Task Blob) → Bool) :
    Crowd.Player (Shared Blob) (Task Blob) Choice Int where
  outside := fun s nowMs => { s with nowMs := nowMs }
  starts := Task.isCall
  exec := fun s choice t => (step store s choice t).map (fun r => (r.1, r.2, none))
  allows := allows

theorem playerOf_plays (store : CredentialStore Key Blob)
    {allows : Crowd (Shared Blob) (Task Blob) → Label (Task Blob) → Bool}
    {ok : Crowd (Shared Blob) (Task Blob) → Label (Task Blob) → Prop}
    (hok : ∀ c l, allows c l = true → ok c l) :
    (playerOf store allows).Plays (service store) ok where
  env := fun s nowMs => ⟨nowMs, rfl⟩
  spawn := fun s t ht => ⟨rfl, ht⟩
  exec := by
    intro s choice t s' t' fork h
    obtain ⟨⟨s₁, t₁⟩, hstep, heq⟩ := Option.map_eq_some_iff.mp h
    cases heq
    exact ⟨rfl, choice, hstep⟩
  allows := hok

def plainCipher : Cipher Nat (Nat × String) where
  encrypt := fun key _ value => some (key, value)
  decrypt := fun key blob => if key = blob.1 then some blob.2 else none

theorem plainCipher_lawful : plainCipher.Lawful where
  decrypt_encrypt := by
    intro k n v b h
    obtain rfl := Option.some.inj h
    exact if_pos rfl
  decrypt_other := by
    intro k k' n v b h hne
    obtain rfl := Option.some.inj h
    exact if_neg hne

def twoKeys : CredentialStore Nat (Nat × String) :=
  ⟨plainCipher, (HashMap.empty.insert "v1" 1).insert "v2" 2, "v2", false⟩

def oldRow : Credential (Nat × String) :=
  ⟨"cred_a", "stripe", (1, "first"), "api_key", none, 0, 0, none, none, none, none, false, none,
    none, 1, none, some "v1"⟩

def oldVault : Shared (Nat × String) :=
  ⟨0, HashMap.empty.insert "cred_a" oldRow, [], [("stripe", "first")]⟩

theorem oldVault_sound : Sound twoKeys oldVault := by
  have hget : ∀ id row, oldVault.rows.get? id = some row → id = "cred_a" ∧ row = oldRow := by
    intro id row h
    rcases HashMap.insert_some h with ⟨hid, hrow⟩ | ⟨-, hold⟩
    · exact ⟨hid, hrow.symm⟩
    · cases hold
  refine ⟨?_, ?_, ?_, ?_⟩
  · intro id row h
    obtain ⟨rfl, rfl⟩ := hget id row h
    rfl
  · intro id id' row row' h h' _
    exact (hget id row h).1.trans (hget id' row' h').1.symm
  · intro name hname
    refine ⟨"cred_a", oldRow, rfl, ?_⟩
    by_contra hne
    have hne' : ¬"stripe" = name := hne
    exact hname (by simp [Shared.valuesOf, oldVault, hne'])
  · intro id row h
    obtain ⟨rfl, rfl⟩ := hget id row h
    exact ⟨"first", by decide, by decide⟩

def openVault : Crowd (Shared (Nat × String)) (Task (Nat × String)) := ⟨oldVault, []⟩

def cautious : Crowd.Player (Shared (Nat × String)) (Task (Nat × String)) Choice Int :=
  playerOf twoKeys (fun c l => match l with
    | .run i => (c.tasks[i]?).all (fun t => match t with
      | .rewriting rows _ => rows.all (fun d =>
        (c.shared.rows.get? d.id).all (fun row => row.version == d.version))
      | .unsealing _ row _ => (c.shared.rows.get? row.id).all (fun cur =>
        twoKeys.versionOf cur == twoKeys.versionOf row)
      | _ => true)
    | _ => true)

theorem cautious_plays : cautious.Plays (service twoKeys) (Undisturbed twoKeys) := by
  refine playerOf_plays twoKeys (fun c l hallows i t hl ht => ?_)
  subst hl
  simp only [ht, Option.all_some] at hallows
  cases t with
  | rewriting rows actor =>
    intro d hd row hrow
    have hrow' := List.all_eq_true.mp hallows d hd
    rw [hrow, Option.all_some] at hrow'
    exact beq_iff_eq.mp hrow'
  | unsealing start row actor =>
    intro cur hcur
    simp only [hcur, Option.all_some] at hallows
    exact beq_iff_eq.mp hallows
  | _ => trivial

def loose : Crowd.Player (Shared (Nat × String)) (Task (Nat × String)) Choice Int :=
  playerOf twoKeys (fun _ _ => true)

theorem loose_plays : loose.Plays (service twoKeys) (fun _ _ => True) :=
  playerOf_plays twoKeys (fun _ _ _ => trivial)

def goes (i n : Nat) : List (Crowd.Play (Task (Nat × String)) Choice Int) :=
  List.replicate n (.run i (.draws "b" []))

def rekeyed : List (Crowd.Play (Task (Nat × String)) Choice Int) :=
  .spawn (.rekeying none) :: goes 0 4

def rotatedAndRead : List (Crowd.Play (Task (Nat × String)) Choice Int) :=
  .spawn (.rotating "stripe" "second" none) :: goes 1 4 ++
    .spawn (.asking "stripe" none none) :: goes 2 4

def rotatedMeanwhile : List (Crowd.Play (Task (Nat × String)) Choice Int) :=
  .spawn (.rekeying none) :: goes 0 1 ++ .spawn (.rotating "stripe" "second" none) :: goes 1 4 ++
    goes 0 3 ++ .spawn (.asking "stripe" none none) :: goes 2 4

def rekeyedMeanwhile : List (Crowd.Play (Task (Nat × String)) Choice Int) :=
  .spawn (.asking "stripe" none none) :: goes 0 2 ++ .spawn (.rekeying none) :: goes 1 4 ++ goes 0 1

def gives (written : Nat) (value : String) (t : Task (Nat × String)) : Bool :=
  match t with
  | .gave start (.ok (some credential)) =>
    decide (start.written = written) && decide (credential.value = value)
  | _ => false

theorem gives_eq {written : Nat} {t : Task (Nat × String)} (h : gives written value t = true) :
    ∃ start credential,
      t = .gave start (.ok (some credential)) ∧ start.written = written ∧
        credential.value = value := by
  unfold gives at h
  split at h
  next start credential =>
    obtain ⟨hwritten, hvalue⟩ := Bool.and_eq_true_iff.mp h
    exact ⟨start, credential, rfl, of_decide_eq_true hwritten, of_decide_eq_true hvalue⟩
  · cases h

def failsToDecrypt (t : Task (Nat × String)) : Bool :=
  match t with
  | .gave _ (.error (.encryption _)) => true
  | _ => false

theorem failsToDecrypt_eq {t : Task (Nat × String)} (h : failsToDecrypt t = true) :
    ∃ start message, t = .gave start (.error (.encryption message)) := by
  unfold failsToDecrypt at h
  split at h
  next start message => exact ⟨start, message, rfl⟩
  · cases h

theorem vault_linearizable_sample : ∃ c : Crowd (Shared (Nat × String)) (Task (Nat × String)),
    (∃ start credential, c.tasks[2]? = some (.gave start (.ok (some credential))) ∧
      start.written = 2 ∧ credential.value = "second") ∧
    ∀ id row, c.shared.rows.get? id = some row → ∃ value,
      twoKeys.unsealRow row row.valueEncrypted = .ok value ∧
        (c.shared.valuesOf row.name).getLast? = some value := by
  have hplay : ((rekeyed ++ rotatedAndRead).foldlM cautious.play openVault).any (fun c =>
      (c.tasks[2]?).any (gives 2 "second")) = true := by decide +kernel
  obtain ⟨c, hc, htest⟩ := cautious_plays.reaches hplay
  obtain ⟨t, ht, hgives⟩ := (Option.any_eq_true _ _).mp htest
  obtain ⟨start, credential, rfl, hwritten, hvalue⟩ := gives_eq hgives
  exact ⟨c, ⟨start, credential, ht, hwritten, hvalue⟩,
    (vault_linearizable plainCipher_lawful oldVault_sound hc).1⟩

/-- A value that was rotated comes back with `rotate_vault_key`, which had read it before: a `get`
that starts when the rotation is complete gives the older value. And a `get` whose row changes its
key between its two reads fails to decrypt. -/
theorem older_value_returns :
    (∃ c : Crowd (Shared (Nat × String)) (Task (Nat × String)),
      Runs (service twoKeys) (fun _ _ => True) openVault c ∧
      c.shared.valuesOf "stripe" = ["first", "second"] ∧
      ∃ start credential, c.tasks[2]? = some (.gave start (.ok (some credential))) ∧
        start.written = 2 ∧ credential.value = "first") ∧
    ∃ c : Crowd (Shared (Nat × String)) (Task (Nat × String)),
      Runs (service twoKeys) (fun _ _ => True) openVault c ∧
      ∃ start message, c.tasks[0]? = some (.gave start (.error (.encryption message))) := by
  have hstale : (rotatedMeanwhile.foldlM loose.play openVault).any (fun c =>
      decide (c.shared.valuesOf "stripe" = ["first", "second"]) &&
        (c.tasks[2]?).any (gives 2 "first")) = true := by decide +kernel
  have hfails : (rekeyedMeanwhile.foldlM loose.play openVault).any (fun c =>
      (c.tasks[0]?).any failsToDecrypt) = true := by decide +kernel
  constructor
  · obtain ⟨c, hc, htest⟩ := loose_plays.reaches hstale
    obtain ⟨hvalues, hgave⟩ := Bool.and_eq_true_iff.mp htest
    obtain ⟨t, ht, hgives⟩ := (Option.any_eq_true _ _).mp hgave
    obtain ⟨start, credential, rfl, hwritten, hvalue⟩ := gives_eq hgives
    exact ⟨c, hc, of_decide_eq_true hvalues, start, credential, ht, hwritten, hvalue⟩
  · obtain ⟨c, hc, htest⟩ := loose_plays.reaches hfails
    obtain ⟨t, ht, hfailed⟩ := (Option.any_eq_true _ _).mp htest
    obtain ⟨start, message, rfl⟩ := failsToDecrypt_eq hfailed
    exact ⟨c, hc, start, message, ht⟩

end Relux.Vault
