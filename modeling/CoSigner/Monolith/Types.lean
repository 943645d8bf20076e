import CoSigner.SigningPolicy.Prepared

/-! The backend's wire types: session lifecycles, intents, claims and listings. -/
namespace CoSigner.Monolith
open Json Contract SigningPolicy
variable (L : Libraries)

/-- `SessionLifecycle`. -/
structure SessionLifecycle where
  sessionID : Bytes := []
  status : Bytes := []
  startedAt : Option Time := none
  deadline : Time := 0
  executionExpiresAt : Option Time := none
  deriving DecidableEq, Repr

/-- `time.Time.IsZero`. -/
def isZeroTime (t : Time) : Bool := t == 0

def sessionStatuses : List String := ["PENDING", "RUNNING", "COMPLETED", "FAILED", "TIMED_OUT"]

/-- The only execution end a session may carry: 300 seconds after its start, or its deadline. -/
def executionEnd (startedAt deadline : Time) : Time :=
  let want := startedAt + 300 * Time.second
  if deadline < want then deadline else want

/-- `SessionLifecycle.Validate`; empty arguments are not compared. -/
def SessionLifecycle.validate (s : SessionLifecycle) (kind sessionID : Bytes) (deadline : Time) :
    Bool :=
  !(s.sessionID == [] || sessionID != [] && s.sessionID != sessionID ||
    s.deadline ≤ Time.unixEpoch || !isZeroTime deadline && s.deadline != deadline) &&
  sessionStatuses.any (fun status => s.status == ascii status) &&
  !(s.status == ascii "PENDING" && s.startedAt.isSome ||
    s.status == ascii "RUNNING" && s.startedAt.isNone) &&
  !(s.startedAt.any fun t => t ≤ Time.unixEpoch || s.deadline ≤ t) &&
  !(s.startedAt.isNone && s.executionExpiresAt.isSome ||
    kind == ascii "DKG" && s.executionExpiresAt.isSome) &&
  !(kind == ascii "SIGN" && s.startedAt.isSome && s.executionExpiresAt.isNone) &&
  !(s.executionExpiresAt.any fun expires =>
    match s.startedAt with
    | none => true
    | some started => expires != executionEnd started s.deadline)

def sessionFields : List (Json.Field SessionLifecycle) :=
  [field "sessionId" (·.sessionID) (fun s x => { s with sessionID := x }) string,
    field "status" (·.status) (fun s x => { s with status := x }) string,
    field "startedAt" (·.startedAt) (fun s x => { s with startedAt := x }) (pointer 0 Time.decoder),
    field "deadline" (·.deadline) (fun s x => { s with deadline := x }) Time.decoder,
    field "executionExpiresAt" (·.executionExpiresAt)
      (fun s x => { s with executionExpiresAt := x }) (pointer 0 Time.decoder)]

/-- `SessionLifecycle.UnmarshalJSON`. -/
def SessionLifecycle.decoder : Decoder SessionLifecycle := fun _ v _ => do
  let fields ← unmarshal rawObject none v.raw
  let fields := fields.getD []
  if !closed fields ["sessionId", "status", "startedAt", "deadline", "executionExpiresAt"] ||
      isNull fields "sessionId" || isNull fields "status" || isNull fields "deadline" then none
  let s ← unmarshal (struct sessionFields) {} v.raw
  if s.validate [] [] 0 then some s else none

/-- `DerivationContext`. -/
structure DerivationContext where
  profileID : Bytes := []
  profileTemplateID : Bytes := []
  chain : Bytes := []
  algorithm : Bytes := []
  curve : Bytes := []
  scheme : Bytes := []
  accountPath : Bytes := []
  childPath : Bytes := []
  fullPath : Bytes := []
  addressEncoding : Bytes := []
  expectedAddress : Bytes := []
  expectedPublicKey : Bytes := []
  publicKeyFormat : Bytes := []
  descriptorVersion : Nat := 0
  profileVersion : Nat := 0
  keyVersion : Nat := 0
  deriving DecidableEq, Repr

def DerivationContext.decoder : Decoder DerivationContext := struct [
  field "profileId" (·.profileID) (fun s x => { s with profileID := x }) string,
  field "profileTemplateId" (·.profileTemplateID) (fun s x => { s with profileTemplateID := x })
    string,
  field "chain" (·.chain) (fun s x => { s with chain := x }) string,
  field "algorithm" (·.algorithm) (fun s x => { s with algorithm := x }) string,
  field "curve" (·.curve) (fun s x => { s with curve := x }) string,
  field "scheme" (·.scheme) (fun s x => { s with scheme := x }) string,
  field "accountPath" (·.accountPath) (fun s x => { s with accountPath := x }) string,
  field "childPath" (·.childPath) (fun s x => { s with childPath := x }) string,
  field "fullPath" (·.fullPath) (fun s x => { s with fullPath := x }) string,
  field "addressEncoding" (·.addressEncoding) (fun s x => { s with addressEncoding := x }) string,
  field "expectedAddress" (·.expectedAddress) (fun s x => { s with expectedAddress := x }) string,
  field "expectedPublicKey" (·.expectedPublicKey) (fun s x => { s with expectedPublicKey := x })
    string,
  field "publicKeyFormat" (·.publicKeyFormat) (fun s x => { s with publicKeyFormat := x }) string,
  field "descriptorVersion" (·.descriptorVersion) (fun s x => { s with descriptorVersion := x })
    (uint 32),
  field "profileVersion" (·.profileVersion) (fun s x => { s with profileVersion := x }) (uint 32),
  field "keyVersion" (·.keyVersion) (fun s x => { s with keyVersion := x }) (uint 32)]

/-- A member with `omitempty`. -/
def optionalMember (name : String) (x : Bytes) : List (Bytes × Bytes) :=
  if x.isEmpty then [] else [(ascii name,quote x)]

def optionalNumber (name : String) (n : Nat) : List (Bytes × Bytes) :=
  if n = 0 then [] else [(ascii name,intLiteral n)]

/-- `json.Marshal` of a `*DerivationContext`. -/
def DerivationContext.marshal : Option DerivationContext → Bytes
  | none => ascii "null"
  | some d => object ([(ascii "profileId",quote d.profileID)] ++
      optionalMember "profileTemplateId" d.profileTemplateID ++
      [(ascii "chain",quote d.chain),(ascii "algorithm",quote d.algorithm),
        (ascii "curve",quote d.curve),(ascii "scheme",quote d.scheme),
        (ascii "accountPath",quote d.accountPath),(ascii "childPath",quote d.childPath),
        (ascii "fullPath",quote d.fullPath)] ++
      optionalMember "addressEncoding" d.addressEncoding ++
      optionalMember "expectedAddress" d.expectedAddress ++
      optionalMember "expectedPublicKey" d.expectedPublicKey ++
      optionalMember "publicKeyFormat" d.publicKeyFormat ++
      optionalNumber "descriptorVersion" d.descriptorVersion ++
      optionalNumber "profileVersion" d.profileVersion ++
      optionalNumber "keyVersion" d.keyVersion)

/-- `IntentPayload`. -/
structure IntentPayload where
  type : Bytes := []
  orgID : Bytes := []
  walletID : Bytes := []
  keyID : Bytes := []
  profileID : Bytes := []
  profileVersion : Nat := 0
  profileTemplateID : Bytes := []
  parties : List Bytes := []
  threshold : Nat := 0
  algorithm : Bytes := []
  curve : Bytes := []
  chain : Bytes := []
  digest : Bytes := []
  digestType : Bytes := []
  hashAlgorithm : Bytes := []
  signingPayloadType : Bytes := []
  chainCode : Bytes := []
  chainCodeHash : Bytes := []
  derivationScheme : Bytes := []
  descriptorBytes : Bytes := []
  descriptorFingerprint : Bytes := []
  derivationContextHash : Bytes := []
  partyID : Bytes := []
  derivationContext : Option DerivationContext := none
  policyContext : Option Context := none
  deriving DecidableEq, Repr

/-- `Intent`. -/
structure Intent where
  version : Int := 0
  approval : Option ApprovedExecution := none
  prepared : Option PreparedTransfer := none
  session : SessionLifecycle := {}
  createdAt : Time := 0
  deadlineRaw : Bytes := []
  discoveryStatus : Bytes := []
  intentID : Bytes := []
  sessionID : Bytes := []
  type : Bytes := []
  expiresAt : Time := 0
  payload : IntentPayload := {}
  deriving DecidableEq, Repr

end CoSigner.Monolith
