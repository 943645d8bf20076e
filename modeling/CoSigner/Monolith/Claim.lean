import CoSigner.Lib.Json.Exact
import CoSigner.Monolith.Types

/-! Claims (`monolith/claim.go`): the response to one claim attempt, the checks of its
envelope and the intent it stands for; and the items of a listing. -/
namespace CoSigner.Monolith
open Json Contract SigningPolicy
variable (L : Libraries)

def IntentPayload.fields : List (Json.Field IntentPayload) := [
  field "type" (·.type) (fun s x => { s with type := x }) string,
  field "orgId" (·.orgID) (fun s x => { s with orgID := x }) string,
  field "walletId" (·.walletID) (fun s x => { s with walletID := x }) string,
  field "keyId" (·.keyID) (fun s x => { s with keyID := x }) string,
  field "profileId" (·.profileID) (fun s x => { s with profileID := x }) string,
  field "profileVersion" (·.profileVersion) (fun s x => { s with profileVersion := x }) (uint 32),
  field "profileTemplateId" (·.profileTemplateID) (fun s x => { s with profileTemplateID := x })
    string,
  field "parties" (·.parties) (fun s x => { s with parties := x }) (slice [] string),
  field "threshold" (·.threshold) (fun s x => { s with threshold := x }) (uint 32),
  field "algorithm" (·.algorithm) (fun s x => { s with algorithm := x }) string,
  field "curve" (·.curve) (fun s x => { s with curve := x }) string,
  field "chain" (·.chain) (fun s x => { s with chain := x }) string,
  field "digest" (·.digest) (fun s x => { s with digest := x }) bytes,
  field "digestType" (·.digestType) (fun s x => { s with digestType := x }) string,
  field "hashAlgorithm" (·.hashAlgorithm) (fun s x => { s with hashAlgorithm := x }) string,
  field "signingPayloadType" (·.signingPayloadType) (fun s x => { s with signingPayloadType := x })
    string,
  field "chainCode" (·.chainCode) (fun s x => { s with chainCode := x }) string,
  field "chainCodeHash" (·.chainCodeHash) (fun s x => { s with chainCodeHash := x }) string,
  field "derivationScheme" (·.derivationScheme) (fun s x => { s with derivationScheme := x })
    string,
  field "descriptorBytesBase64" (·.descriptorBytes) (fun s x => { s with descriptorBytes := x })
    bytes,
  field "descriptorFingerprint" (·.descriptorFingerprint)
    (fun s x => { s with descriptorFingerprint := x }) string,
  field "derivationContextHash" (·.derivationContextHash)
    (fun s x => { s with derivationContextHash := x }) string,
  field "partyId" (·.partyID) (fun s x => { s with partyID := x }) string,
  field "derivationContext" (·.derivationContext) (fun s x => { s with derivationContext := x })
    (pointer {} DerivationContext.decoder),
  field "policyContext" (·.policyContext) (fun s x => { s with policyContext := x })
    (pointer {} Context.decoder)]

def IntentPayload.decoder : Decoder IntentPayload := struct fields

structure ClaimResult where
  version : Int := 0
  approval : Option ApprovedExecution := none
  prepared : Option PreparedTransfer := none
  session : SessionLifecycle := {}
  httpStatus : Int := 0
  intentID : Bytes := []
  sessionID : Bytes := []
  type : Bytes := []
  payload : IntentPayload := {}
  status : Bytes := []
  deadline : Time := 0
  deadlineRaw : Bytes := []
  orgID : Bytes := []
  keyID : Bytes := []
  descriptorBytes : Bytes := []
  descriptorFingerprint : Bytes := []
  chainCode : Bytes := []
  deriving DecidableEq, Repr

def ClaimResult.fields : List (Json.Field ClaimResult) := [
  field "version" (·.version) (fun s x => { s with version := x }) (int 64),
  field "approval" (·.approval) (fun s x => { s with approval := x })
    (pointer {} ApprovedExecution.decoder),
  field "prepared" (·.prepared) (fun s x => { s with prepared := x })
    (pointer {} PreparedTransfer.decoder),
  field "session" (·.session) (fun s x => { s with session := x }) SessionLifecycle.decoder,
  field "httpStatus" (·.httpStatus) (fun s x => { s with httpStatus := x }) (int 64),
  field "intentId" (·.intentID) (fun s x => { s with intentID := x }) string,
  field "sessionId" (·.sessionID) (fun s x => { s with sessionID := x }) string,
  field "type" (·.type) (fun s x => { s with type := x }) string,
  field "payload" (·.payload) (fun s x => { s with payload := x }) IntentPayload.decoder,
  field "status" (·.status) (fun s x => { s with status := x }) string,
  field "deadline" (·.deadline) (fun s x => { s with deadline := x }) Time.decoder,
  field "orgId" (·.orgID) (fun s x => { s with orgID := x }) string,
  field "keyId" (·.keyID) (fun s x => { s with keyID := x }) string,
  field "descriptorBytesBase64" (·.descriptorBytes) (fun s x => { s with descriptorBytes := x })
    bytes,
  field "descriptorFingerprint" (·.descriptorFingerprint)
    (fun s x => { s with descriptorFingerprint := x }) string,
  field "chainCodeBase64" (·.chainCode) (fun s x => { s with chainCode := x }) bytes]

def ClaimResult.decoder : Decoder ClaimResult := struct fields

def signClaimFields : List String :=
  ["version", "approval", "prepared", "httpStatus", "intentId", "sessionId", "type", "payload",
    "status", "deadline", "session"]

/-- The checks that `retainExactResponseFields` makes of a claim of type SIGN. -/
def ClaimResult.signFieldsExact (r : ClaimResult) (fields : Object) : Bool :=
  closed fields signClaimFields && r.version == 2 && r.approval.isSome && r.prepared.isSome &&
    (do
      let payload ← unmarshal rawObject none ((fields.get (ascii "payload")).getD [])
      let digest ← (payload.getD []).get (ascii "digest")
      let encoded ← unmarshal string [] digest
      some (validExecutionDigest encoded)).getD false

/-- The claim with the deadline as it was written; `none` is an invalid envelope. -/
def ClaimResult.retainExactResponseFields (r : ClaimResult) (raw : Bytes) : Option ClaimResult := do
  let exact ← unmarshal (struct [field "deadline" id (fun _ x => x) string]) [] raw
  let allFields ← unmarshal rawObject none raw
  let allFields := allFields.getD []
  if r.type != ascii "SIGN" && ["version", "approval", "prepared"].any
      (fun name => allFields.has (ascii name)) then none
  if r.type == ascii "SIGN" && !r.signFieldsExact allFields then none
  some { r with deadlineRaw := exact }

/-- `ClaimResult.Intent`. -/
def ClaimResult.intent (r : ClaimResult) : Intent :=
  let intentType := if r.descriptorBytes.isEmpty || !r.type.isEmpty then r.type else ascii "DKG"
  let payload : IntentPayload :=
    if r.descriptorBytes.isEmpty then r.payload
    else
      let payload : IntentPayload :=
        { r.payload with
          type := intentType
          orgID := r.orgID
          keyID := r.keyID
          descriptorBytes := r.descriptorBytes
          descriptorFingerprint := r.descriptorFingerprint
          chainCode := hexEncode r.chainCode }
      match parseCanonicalDescriptor L r.descriptorBytes with
      | none => payload
      | some (descriptor,_) =>
        { payload with
          threshold := descriptor.threshold.toNat
          algorithm := descriptor.algorithm
          curve := descriptor.curve
          chainCodeHash := descriptor.chainCodeHash
          derivationScheme := descriptor.derivationScheme
          parties := descriptor.parties.map fun p => p.partyID }
  { version := r.version
    approval := r.approval
    prepared := r.prepared
    session := r.session
    intentID := r.intentID
    sessionID := r.sessionID
    type := intentType
    expiresAt := r.deadline
    payload := payload }

/-- `validateClaimEnvelope`. -/
def ClaimResult.validEnvelope (claim : ClaimResult) (expectedType : Bytes) : Bool :=
  let actualType := (claim.intent L).type
  !(expectedType == ascii "SIGN" && (claim.type != ascii "SIGN" || claim.version != 2)) &&
    !claim.sessionID.isEmpty && !(isZeroTime claim.deadline || claim.deadlineRaw.isEmpty) &&
    claim.session.validate expectedType claim.sessionID claim.deadline &&
    claim.status == ascii "CLAIMED" &&
    Strings.equalFold actualType expectedType &&
    (actualType == ascii "SIGN" ||
      (if actualType == ascii "DKG" then
        claim.payload.type == [] || claim.payload.type == ascii "DKG"
      else !claim.descriptorBytes.isEmpty))

def ClaimResult.validSignPayload (claim : ClaimResult) : Bool :=
  let payload := claim.payload
  !(claim.intentID == [] || claim.sessionID == [] || isZeroTime claim.deadline ||
    claim.deadlineRaw == [] || claim.orgID != [] || claim.keyID != [] ||
    claim.descriptorBytes != [] || claim.descriptorFingerprint != [] || claim.chainCode != [] ||
    payload.type != ascii "SIGN" || payload.orgID == [] || payload.keyID == [] ||
    payload.walletID == [] || payload.profileID == [] || payload.profileTemplateID == [] ||
    payload.profileVersion == 0 || payload.parties.length < 2 || payload.threshold < 2 ||
    payload.algorithm == [] || payload.curve == [] || payload.chain == [] ||
    payload.digest == [] || payload.digestType == [] || payload.hashAlgorithm == [] ||
    payload.signingPayloadType == [] || payload.derivationContextHash == [] ||
    payload.partyID == [] || payload.derivationContext.isNone || payload.chainCode != [] ||
    payload.chainCodeHash != [] || payload.derivationScheme != [] ||
    payload.descriptorBytes != [] || payload.descriptorFingerprint != [])

/-- `validateSignDerivationContext`. -/
def IntentPayload.validDerivation (payload : IntentPayload) (d : DerivationContext) : Bool :=
  !(d.profileID == [] || d.profileTemplateID == [] || d.chain == [] || d.algorithm == [] ||
    d.curve == [] || d.scheme == [] || d.accountPath == [] || d.childPath == [] ||
    d.fullPath == [] || d.publicKeyFormat == [] || d.descriptorVersion == 0 ||
    d.profileVersion == 0 || d.keyVersion == 0) &&
  !(payload.profileID != d.profileID || payload.profileTemplateID != d.profileTemplateID ||
    payload.profileVersion != d.profileVersion || payload.chain != d.chain ||
    !Strings.equalFold payload.algorithm d.algorithm || !Strings.equalFold payload.curve d.curve)

/-- `validateSignClaimResult`. -/
def ClaimResult.validSignClaim (claim : ClaimResult) : Bool :=
  claim.validSignPayload &&
    match claim.payload.derivationContext with
    | none => false
    | some d => claim.payload.validDerivation d &&
        (validateContext claim.payload.policyContext claim.payload.chain
          claim.payload.signingPayloadType d.expectedAddress).isOk

/-- The errors of a claim that its callers tell apart. -/
inductive ClaimSentinel where
  | alreadyClaimed | notFound | outcomeUnknown | envelopeInvalid | signRejected | canceled
  | deadlineExceeded | cleanup
  deriving DecidableEq, Repr

structure ClaimError where
  is : List ClaimSentinel := []
  text : Bytes := []
  deriving DecidableEq, Repr

def ClaimError.isA (e : ClaimError) (s : ClaimSentinel) : Bool := e.is.contains s

/-- The outcome of the one HTTP attempt. -/
inductive HttpReply where
  | failed (e : ClaimError)
  | unread (e : ClaimError)
  | replied (status : Nat) (body : Bytes)
  deriving DecidableEq, Repr

def claimMaxBytes : Nat := 128 * 1024

/-- What `doJSONAttempts` makes of the attempt: the decoded claim, or an error with the
HTTP status if that was the reason. -/
def decodeClaim (sign : Bool) (reply : HttpReply) : Except (Option Nat × ClaimError) ClaimResult :=
  let invalid : ClaimError :=
    if sign then { is := [.outcomeUnknown,.envelopeInvalid] } else {}
  match reply with
  | .failed e => .error (none,e)
  | .unread e => .error (none,if sign then { e with is := invalid.is ++ e.is } else e)
  | .replied status body =>
    if sign && (claimMaxBytes < body.length || !Utf8.valid body) then .error (none,invalid)
    else if status != 200 then .error (some status,{})
    else if body.isEmpty then .ok {}
    else
      match decodeClosed ClaimResult.decoder {} body with
      | none => .error (none,invalid)
      | some r =>
        match r.retainExactResponseFields body with
        | none => .error (none,if sign then invalid else { is := [.envelopeInvalid] })
        | some r => .ok r

/-- `intentTypePath`: whether the path is that of a SIGN intent. -/
def intentTypePath (intentType : Bytes) : Option Bool :=
  let kind := Strings.toUpper (Strings.trimSpace intentType)
  if kind == ascii "DKG" then some false
  else if kind == ascii "SIGN" then some true
  else none

/-- `Client.ClaimIntent` on the outcome of its attempt; a rejected SIGN claim comes with its
error. -/
def claimIntent (intentType intentID : Bytes) (reply : HttpReply) : ClaimResult × Option ClaimError :=
  match intentTypePath intentType with
  | none => ({},some {})
  | some sign =>
    match decodeClaim sign reply with
    | .error (status,e) =>
      match status with
      | some 409 => ({},some { is := [.alreadyClaimed] })
      | some 404 => ({},some { is := [.notFound] })
      | some status => ({},some (if 500 ≤ status then { e with is := .outcomeUnknown :: e.is } else e))
      | none => ({},some { e with is := .outcomeUnknown :: e.is })
    | .ok out =>
      if out.httpStatus != 200 ||
          Strings.equalFold intentType (ascii "SIGN") && out.intentID != intentID ||
          !out.validEnvelope L intentType then
        ({},some { is := [.outcomeUnknown,.envelopeInvalid] })
      else if (out.intent L).type == ascii "SIGN" && !out.validSignClaim then
        (out,some { is := [.signRejected] })
      else (out,none)

/-- A response by which the server declines: redirections and client errors. -/
def HttpReply.declines : HttpReply → Bool
  | .replied status _ => 300 ≤ status && status < 500
  | _ => false

/-- The caller of `ClaimIntent` still takes the intent for one it may own. -/
def ownershipKept (result : ClaimResult × Option ClaimError) : Bool :=
  match result.2 with
  | none => true
  | some e => e.isA .signRejected || e.isA .outcomeUnknown

/-- The response is read as a claim or as a failure of the server: a status 200, or at
least 300, or a SIGN body that is refused before the status is looked at. -/
def HttpReply.settles (sign : Bool) : HttpReply → Bool
  | .replied status body => status == 200 || 300 ≤ status ||
      sign && (claimMaxBytes < body.length || !Utf8.valid body)
  | _ => true

theorem ownershipKept_unknown (r : ClaimResult) (e : ClaimError) :
    ownershipKept (r,some { e with is := .outcomeUnknown :: e.is }) = true := by
  simp [ownershipKept, ClaimError.isA]

theorem ownershipKept_status (r : ClaimResult) : ownershipKept (r,some {}) = false := rfl

theorem intentTypePath_kind (sign : Bool) :
    intentTypePath (if sign then ascii "SIGN" else ascii "DKG") = some sign := by
  cases sign <;> decide

/-- The attempt is not answered by an error that carries a status. -/
def Unstatused (sign : Bool) (reply : HttpReply) : Prop :=
  ∀ status e, decodeClaim sign reply ≠ .error (some status,e)

/-- An error without a status, and a decoded claim whatever it says, leave the ownership open. -/
theorem claimIntent_kept {intentType : Bytes} {sign : Bool} {reply : HttpReply}
    (intentID : Bytes) (hkind : intentTypePath intentType = some sign)
    (h : Unstatused sign reply) :
    ownershipKept (claimIntent L intentType intentID reply) = true := by
  cases hdecode : decodeClaim sign reply with
  | error failure =>
    obtain ⟨status,e⟩ := failure
    cases status with
    | none =>
      simp only [claimIntent, hkind, hdecode]
      exact ownershipKept_unknown {} e
    | some status => exact absurd hdecode (h status e)
  | ok out =>
    simp only [claimIntent, hkind, hdecode]
    by_cases henvelope : (out.httpStatus != 200 ||
        Strings.equalFold intentType (ascii "SIGN") && out.intentID != intentID ||
        !out.validEnvelope L intentType) = true
    · rw [if_pos henvelope]
      rfl
    · rw [if_neg henvelope]
      by_cases hsign : ((out.intent L).type == ascii "SIGN" && !out.validSignClaim) = true
      · rw [if_pos hsign]
        rfl
      · rw [if_neg hsign]
        rfl

/-- What a status other than 200 gives: the ownership stays open only from 500 on. -/
theorem claimIntent_status {intentType : Bytes} {sign : Bool} {reply : HttpReply} {status : Nat}
    (intentID : Bytes) (hkind : intentTypePath intentType = some sign)
    (hdecode : decodeClaim sign reply = .error (some status,{})) :
    ownershipKept (claimIntent L intentType intentID reply) = decide (500 ≤ status) := by
  simp only [claimIntent, hkind, hdecode]
  split
  · simp_all [ownershipKept, ClaimError.isA]
  · simp_all [ownershipKept, ClaimError.isA]
  · rename_i status' _ _ heq
    obtain rfl : status = status' := by simpa using heq
    by_cases h : 500 ≤ status
    · simp [h, ownershipKept, ClaimError.isA]
    · simp [h, ownershipKept_status]
  · simp_all

theorem unstatused_body {sign : Bool} {status : Nat} {body : Bytes}
    (h : (sign && (claimMaxBytes < body.length || !Utf8.valid body)) = true) :
    Unstatused sign (.replied status body) := by
  intro status' e
  simp [decodeClaim, h]

theorem unstatused_ok (sign : Bool) (body : Bytes) : Unstatused sign (.replied 200 body) := by
  intro status e
  simp only [decodeClaim]
  split
  · simp
  · simp only [bne_self_eq_false, Bool.false_eq_true, if_false]
    split
    · simp
    · split
      · simp
      · split
        · simp
        · simp

/-- Whatever the attempt gave, the ownership stays open or the server has declined: exactly
when no status below 300 other than 200 is looked at. -/
theorem applied_claim_not_refused (sign : Bool) (intentID : Bytes) (reply : HttpReply) :
    (ownershipKept (claimIntent L (if sign then ascii "SIGN" else ascii "DKG") intentID reply) =
        true ∨ reply.declines = true) ↔ reply.settles sign = true := by
  have hkind := intentTypePath_kind sign
  cases reply with
  | failed e =>
    exact iff_of_true (.inl (claimIntent_kept L intentID hkind (by simp [Unstatused, decodeClaim])))
      rfl
  | unread e =>
    exact iff_of_true (.inl (claimIntent_kept L intentID hkind (by simp [Unstatused, decodeClaim])))
      rfl
  | replied status body =>
    by_cases hbody : (sign && (claimMaxBytes < body.length || !Utf8.valid body)) = true
    · exact iff_of_true (.inl (claimIntent_kept L intentID hkind (unstatused_body hbody)))
        (by simp [HttpReply.settles, hbody])
    · have hbody' := Bool.eq_false_iff.mpr hbody
      by_cases hstatus : status = 200
      · obtain rfl := hstatus
        exact iff_of_true (.inl (claimIntent_kept L intentID hkind (unstatused_ok sign body))) rfl
      · have hdecode : decodeClaim sign (.replied status body) = .error (some status,{}) := by
          simp [decodeClaim, hbody', hstatus]
        rw [claimIntent_status L intentID hkind hdecode]
        simp only [HttpReply.declines, HttpReply.settles, hbody', Bool.or_false,
          decide_eq_true_eq, Bool.and_eq_true, Bool.or_eq_true, beq_iff_eq]
        omega

/-- A response 201 with an empty body: the claim may have been made, and the error is neither
of the two. -/
theorem created_claim_refused :
    let reply : HttpReply := .replied 201 []
    reply.declines = false ∧
      ownershipKept (claimIntent Libraries.inert (ascii "DKG") (ascii "intent-1") reply) = false ∧
      ownershipKept (claimIntent Libraries.inert (ascii "SIGN") (ascii "intent-1") reply) =
        false := by
  decide +kernel

structure ActionableIntent where
  session : SessionLifecycle := {}
  createdAt : Time := 0
  deadline : Time := 0
  deadlineRaw : Bytes := []
  descriptorBytes : Bytes := []
  descriptorFingerprint : Bytes := []
  intentID : Bytes := []
  keyID : Bytes := []
  orgID : Bytes := []
  sessionID : Bytes := []
  status : Bytes := []
  type : Bytes := []
  deriving DecidableEq, Repr

structure ActionableListing where
  httpStatus : Int := 200
  ownClaimedDKG : List ActionableIntent := []
  ownClaimedSign : List ActionableIntent := []
  pending : List ActionableIntent := []
  deriving DecidableEq, Repr

/-- The intent that `GetPendingIntents` makes of an item. -/
def ActionableIntent.intent (item : ActionableIntent) : Intent where
  session := item.session
  createdAt := item.createdAt
  deadlineRaw := item.deadlineRaw
  discoveryStatus := item.status
  intentID := item.intentID
  sessionID := item.sessionID
  type := item.type
  expiresAt := item.deadline
  payload := {
    type := item.type
    orgID := item.orgID
    keyID := item.keyID
    descriptorBytes := item.descriptorBytes
    descriptorFingerprint := item.descriptorFingerprint }

end CoSigner.Monolith
