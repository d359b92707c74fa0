import Relux.Admission.Replay
import Relux.Text

/-! Signed approval tokens: what is signed, what is sent, and the checks of a verifier. -/

namespace Relux

namespace Admission

def TOKEN_VERSION : UInt8 := 0x02

def FINGERPRINT_HEX_LEN : Nat := 32

def utf8 (s : String) : List UInt8 := s.toUTF8.data.toList

inductive TokenError where
  | malformedEncoding (e : String)
  | malformedPayload (e : String)
  | badSignature
  | expired (nowMs expiresAtMs : Int)
  | methodMismatch (tokenMethod requestMethod : String)
  | subjectMismatch
  | alreadyConsumed
  | missingSigningKey
  | unknownSigningKey (fingerprint : String)
  | forbiddenDelimiter (field : String)
  | store (e : String)
  | tokenFormatDeprecated (got expected : UInt8)
  deriving DecidableEq

namespace TokenError

def matchedRule : TokenError → String
  | malformedEncoding _ => "approval_token_malformed"
  | malformedPayload _ => "approval_token_malformed"
  | badSignature => "approval_token_bad_signature"
  | expired _ _ => "approval_token_expired"
  | methodMismatch _ _ => "approval_token_scope_mismatch"
  | subjectMismatch => "approval_token_subject_mismatch"
  | alreadyConsumed => "approval_token_consumed"
  | missingSigningKey => "approval_token_missing_key"
  | unknownSigningKey _ => "approval_token_unknown_signer"
  | forbiddenDelimiter _ => "approval_token_malformed"
  | store _ => "approval_token_store_error"
  | tokenFormatDeprecated _ _ => "approval_token_format_deprecated"

def text : TokenError → String
  | malformedEncoding e => s!"approval_token: malformed encoding ({e})"
  | malformedPayload e => s!"approval_token: malformed payload ({e})"
  | badSignature => "approval_token: signature verification failed"
  | expired nowMs expiresAtMs => s!"approval_token: expired at {expiresAtMs} (now={nowMs})"
  | methodMismatch tokenMethod requestMethod =>
    s!"approval_token: method scope mismatch (token={tokenMethod}, request={requestMethod})"
  | subjectMismatch => "approval_token: subject scope mismatch"
  | alreadyConsumed => "approval_token: token already consumed"
  | missingSigningKey => "approval_token: signing key missing or malformed " ++
    "(set RELIX_APPROVAL_SIGNING_KEY to a 64-hex-char Ed25519 seed)"
  | unknownSigningKey fingerprint => "approval_token: unknown signing key fingerprint " ++
    String.ofList ['\x60'] ++ fingerprint ++ String.ofList ['\x60']
  | forbiddenDelimiter field => "approval_token: payload field " ++ String.ofList ['\x60'] ++ field ++
    String.ofList ['\x60'] ++ " contains forbidden delimiter"
  | store e => s!"approval_token: store error ({e})"
  | tokenFormatDeprecated got expected =>
    "approval_token: deprecated HMAC token format (version=0x" ++ hexEncode [got] ++
      "); restart any agents holding old tokens — only Ed25519 (version=0x" ++ hexEncode [expected] ++
      ") accepted"

end TokenError

structure ApprovalToken where
  version : UInt8
  approvalId : String
  method : String
  subjectId : String
  sessionId : String
  issuedAtMs : Int
  expiresAtMs : Int
  nonce : String
  signingKeyFingerprint : String
  signature : String
  deriving DecidableEq

structure TokenHost where
  encode64 : List UInt8 → String
  decode64 : String → Except String (List UInt8)
  toJson : ApprovalToken → List UInt8
  ofJson : List UInt8 → Except String ApprovalToken
  verifyingKey : List UInt8 → List UInt8
  sign : List UInt8 → List UInt8 → List UInt8
  verifyStrict : List UInt8 → List UInt8 → List UInt8 → Bool
  blake3 : List UInt8 → List UInt8

def computeFingerprint (host : TokenHost) (key : List UInt8) : String :=
  String.ofList ((hexEncode (host.blake3 key)).toList.take FINGERPRINT_HEX_LEN)

structure ApprovalSigner where
  signing : List UInt8

def ApprovalSigner.fingerprint (host : TokenHost) (signer : ApprovalSigner) : String :=
  computeFingerprint host (host.verifyingKey signer.signing)

structure ApprovalKeySet where
  keys : HashMap String (List UInt8)

def ApprovalKeySet.fromSigner (host : TokenHost) (signer : ApprovalSigner) : ApprovalKeySet :=
  ⟨HashMap.empty.insert (signer.fingerprint host) (host.verifyingKey signer.signing)⟩

def signedFields (version : UInt8) (approvalId method subjectId sessionId : String)
    (issuedAtMs expiresAtMs : Int) (nonce fingerprint : String) : List String :=
  [hexEncode [version], approvalId, method, subjectId, sessionId, toString issuedAtMs,
    toString expiresAtMs, nonce, fingerprint]

def canonicalSigningBytes (version : UInt8) (approvalId method subjectId sessionId : String)
    (issuedAtMs expiresAtMs : Int) (nonce fingerprint : String) : String :=
  String.intercalate "|" (signedFields version approvalId method subjectId sessionId issuedAtMs
    expiresAtMs nonce fingerprint)

namespace ApprovalToken

def canonical (tok : ApprovalToken) : String :=
  canonicalSigningBytes tok.version tok.approvalId tok.method tok.subjectId tok.sessionId
    tok.issuedAtMs tok.expiresAtMs tok.nonce tok.signingKeyFingerprint

def toWire (host : TokenHost) (tok : ApprovalToken) : String := host.encode64 (host.toJson tok)

/-- The token `issue` sends, with the 32 random bytes of its nonce. -/
def minted (host : TokenHost) (signer : ApprovalSigner) (nonce : List UInt8)
    (approvalId method subjectId sessionId : String) (issuedAtMs ttlMs : Int) : ApprovalToken :=
  let expiresAtMs := saturatingAdd issuedAtMs ttlMs
  let fingerprint := signer.fingerprint host
  let canonical := canonicalSigningBytes TOKEN_VERSION approvalId method subjectId sessionId
    issuedAtMs expiresAtMs (hexEncode nonce) fingerprint
  { version := TOKEN_VERSION, approvalId, method, subjectId, sessionId, issuedAtMs, expiresAtMs
    nonce := hexEncode nonce
    signingKeyFingerprint := fingerprint
    signature := host.encode64 (host.sign signer.signing (utf8 canonical)) }

def delimited (approvalId method subjectId sessionId : String) : Option String :=
  (([("approval_id", approvalId), ("method", method), ("subject_id", subjectId),
    ("session_id", sessionId)].find? (fun f => f.2.toList.contains '|')).map Prod.fst)

def issue (host : TokenHost) (signer : ApprovalSigner) (nonce : List UInt8)
    (approvalId method subjectId sessionId : String) (issuedAtMs ttlMs : Int) :
    Except TokenError String :=
  if ttlMs ≤ 0 then .error (.expired issuedAtMs issuedAtMs)
  else
    match delimited approvalId method subjectId sessionId with
    | some field => .error (.forbiddenDelimiter field)
    | none => .ok ((minted host signer nonce approvalId method subjectId sessionId issuedAtMs
        ttlMs).toWire host)

def parse (host : TokenHost) (wire : String) : Except TokenError ApprovalToken :=
  match host.decode64 wire with
  | .error e => .error (.malformedEncoding e)
  | .ok raw =>
    match host.ofJson raw with
    | .error e => .error (.malformedPayload e)
    | .ok tok =>
      if tok.version = TOKEN_VERSION then .ok tok
      else .error (.tokenFormatDeprecated tok.version TOKEN_VERSION)

def verifySignature (host : TokenHost) (keyset : ApprovalKeySet) (tok : ApprovalToken) :
    Except TokenError Unit :=
  if keyset.keys.entries.isEmpty then .error .missingSigningKey
  else
    match keyset.keys.get? tok.signingKeyFingerprint with
    | none => .error (.unknownSigningKey tok.signingKeyFingerprint)
    | some verifying =>
      match host.decode64 tok.signature with
      | .error _ => .error .badSignature
      | .ok sigBytes =>
        if sigBytes.length = 64 ∧ host.verifyStrict verifying (utf8 tok.canonical) sigBytes then .ok ()
        else .error .badSignature

def checkMethod (tok : ApprovalToken) (requested : String) : Except TokenError Unit :=
  if tok.method = requested then .ok () else .error (.methodMismatch tok.method requested)

def checkSubject (tok : ApprovalToken) (callerSubject : String) : Except TokenError Unit :=
  if tok.subjectId = callerSubject then .ok () else .error .subjectMismatch

def checkNotExpired (tok : ApprovalToken) (nowMs : Int) : Except TokenError Unit :=
  if nowMs < tok.expiresAtMs then .ok () else .error (.expired nowMs tok.expiresAtMs)

def blocklistKey (host : TokenHost) (tok : ApprovalToken) : String :=
  hexEncode (host.blake3 (utf8 (tok.nonce ++ "|" ++ tok.approvalId)))

end ApprovalToken

theorem hexDigit_ne_bar (n : Nat) : hexDigit n ≠ '|' := by
  have hall : ∀ m < 16, Nat.digitChar m ≠ '|' := by decide
  exact hall (n % 16) (Nat.mod_lt _ (by decide))

theorem hexEncode_plain (bytes : List UInt8) : '|' ∉ (hexEncode bytes).toList := by
  unfold hexEncode
  rw [String.toList_ofList, List.mem_flatMap]
  rintro ⟨b, -, hb⟩
  rw [List.mem_cons, List.mem_singleton] at hb
  rcases hb with hb | hb
  · exact hexDigit_ne_bar _ hb.symm
  · exact hexDigit_ne_bar _ hb.symm

theorem natRepr_plain (n : Nat) : '|' ∉ (Nat.repr n).toList := by
  intro h
  have hdigit : ('|' : Char).isDigit = true := by
    apply Nat.isDigit_of_mem_toDigits (b := 10) (n := n) (by decide) (by decide)
    simpa [Nat.repr] using h
  cases hdigit

theorem intToString_plain (n : Int) : '|' ∉ (toString n).toList := by
  cases n with
  | ofNat n => exact natRepr_plain n
  | negSucc n =>
    intro h
    have h' : '|' ∈ ("-" ++ Nat.repr (n + 1)).toList := h
    rw [String.toList_append, List.mem_append] at h'
    rcases h' with h' | h'
    · exact absurd h' (by decide)
    · exact natRepr_plain _ h'

theorem natRepr_injective {m n : Nat} (h : Nat.repr m = Nat.repr n) : m = n := by
  have hlist : Nat.toDigits 10 m = Nat.toDigits 10 n := by
    have htext := congrArg String.toList h
    rwa [Nat.toList_repr, Nat.toList_repr] at htext
  rw [← @Nat.ofDigitChars_ten_toDigits m, ← @Nat.ofDigitChars_ten_toDigits n, hlist]

theorem natRepr_ne_minus (n m : Nat) : Nat.repr n ≠ "-" ++ Nat.repr m := by
  intro h
  have hmem : '-' ∈ (Nat.repr n).toList := by
    rw [h, String.toList_append]
    exact List.mem_append_left _ (by decide)
  rw [Nat.toList_repr] at hmem
  have hdigit := Nat.isDigit_of_mem_toDigits (b := 10) (by decide) (by decide) hmem
  cases hdigit

theorem intToString_inj {m n : Int} (h : toString m = toString n) : m = n := by
  cases m with
  | ofNat m =>
    cases n with
    | ofNat n => exact congrArg Int.ofNat (natRepr_injective h)
    | negSucc n => exact absurd h (natRepr_ne_minus m (n + 1))
  | negSucc m =>
    cases n with
    | ofNat n => exact absurd h.symm (natRepr_ne_minus n (m + 1))
    | negSucc n =>
      have htext : "-" ++ Nat.repr (m + 1) = "-" ++ Nat.repr (n + 1) := h
      have hrepr : Nat.repr (m + 1) = Nat.repr (n + 1) := by
        have hlist := congrArg String.toList htext
        rw [String.toList_append, String.toList_append] at hlist
        exact String.toList_inj.mp (List.append_cancel_left hlist)
      have hsucc := natRepr_injective hrepr
      exact congrArg Int.negSucc (by omega)
def ApprovalToken.fields (tok : ApprovalToken) : List String :=
  signedFields tok.version tok.approvalId tok.method tok.subjectId tok.sessionId tok.issuedAtMs
    tok.expiresAtMs tok.nonce tok.signingKeyFingerprint

def ApprovalToken.Plain (tok : ApprovalToken) : Prop := ∀ f ∈ tok.fields, '|' ∉ f.toList

theorem ApprovalToken.parse_ok {host : TokenHost} {wire : String} {raw : List UInt8}
    {tok : ApprovalToken} (h1 : host.decode64 wire = .ok raw) (h2 : host.ofJson raw = .ok tok)
    (h3 : tok.version = TOKEN_VERSION) : ApprovalToken.parse host wire = .ok tok := by
  simp only [ApprovalToken.parse, h1, h2, if_pos h3]

theorem ApprovalToken.fields_of_canonical {tok tok' : ApprovalToken} (hplain : tok.Plain)
    (h : tok.canonical = tok'.canonical) : tok.fields = tok'.fields := by
  have hjoin : joinFields ['|'] (tok.fields.map String.toList) =
      joinFields ['|'] (tok'.fields.map String.toList) := by
    have htext := congrArg String.toList h
    unfold ApprovalToken.canonical canonicalSigningBytes at htext
    rw [toList_intercalate_joinFields, toList_intercalate_joinFields] at htext
    exact htext
  have hfree : ∀ w ∈ tok.fields.map String.toList, '|' ∉ w := by
    intro w hw
    obtain ⟨f, hf, rfl⟩ := List.mem_map.mp hw
    exact hplain f hf
  exact List.map_injective_iff.mpr (fun _ _ => String.toList_inj.mp) (joinFields_inj rfl hfree hjoin)

structure ApprovalToken.Same (tok tok' : ApprovalToken) : Prop where
  approvalId : tok.approvalId = tok'.approvalId
  method : tok.method = tok'.method
  subjectId : tok.subjectId = tok'.subjectId
  expiresAtMs : tok.expiresAtMs = tok'.expiresAtMs
  nonce : tok.nonce = tok'.nonce

theorem ApprovalToken.same_of_canonical {tok tok' : ApprovalToken} (hplain : tok.Plain)
    (h : tok.canonical = tok'.canonical) : tok.Same tok' := by
  have hfields := ApprovalToken.fields_of_canonical hplain h
  unfold ApprovalToken.fields signedFields at hfields
  simp only [List.cons.injEq, and_true] at hfields
  obtain ⟨-, hid, hmethod, hsubject, -, -, hexpires, hnonce, -⟩ := hfields
  exact ⟨hid, hmethod, hsubject, intToString_inj hexpires, hnonce⟩

theorem ApprovalToken.issue_plain {host : TokenHost} {signer : ApprovalSigner} {nonce : List UInt8}
    {approvalId method subjectId sessionId wire : String} {issuedAtMs ttlMs : Int}
    (h : ApprovalToken.issue host signer nonce approvalId method subjectId sessionId issuedAtMs ttlMs =
      .ok wire) :
    (ApprovalToken.minted host signer nonce approvalId method subjectId sessionId issuedAtMs
      ttlMs).Plain := by
  unfold ApprovalToken.issue at h
  split at h
  · cases h
  cases hd : ApprovalToken.delimited approvalId method subjectId sessionId with
  | some field =>
    rw [hd] at h
    cases h
  | none =>
    unfold ApprovalToken.delimited at hd
    rw [Option.map_eq_none_iff, List.find?_eq_none] at hd
    have hfree : ∀ p ∈ [("approval_id", approvalId), ("method", method), ("subject_id", subjectId),
        ("session_id", sessionId)], '|' ∉ p.2.toList := by
      intro p hp hbar
      exact hd p hp (List.contains_iff_mem.mpr hbar)
    have hfingerprint : '|' ∉ (signer.fingerprint host).toList := by
      unfold ApprovalSigner.fingerprint computeFingerprint
      rw [String.toList_ofList]
      exact fun hbar => hexEncode_plain _ (List.mem_of_mem_take hbar)
    intro f hf
    unfold ApprovalToken.fields ApprovalToken.minted signedFields at hf
    simp only [List.mem_cons, List.not_mem_nil, or_false] at hf
    rcases hf with rfl | rfl | rfl | rfl | rfl | rfl | rfl | rfl | rfl
    · exact hexEncode_plain _
    · exact hfree ("approval_id", _) (by simp)
    · exact hfree ("method", _) (by simp)
    · exact hfree ("subject_id", _) (by simp)
    · exact hfree ("session_id", _) (by simp)
    · exact intToString_plain _
    · exact intToString_plain _
    · exact hexEncode_plain _
    · exact hfingerprint

end Admission

end Relux
