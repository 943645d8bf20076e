import CoSigner.Lib.Trace
import CoSigner.Monolith.Claim
import CoSigner.Sharestore.Reader
import CoSigner.Terminal.Job

/-! Startup reconciliation (`reconcile/reconciler.go`): the actionable listing, the existence
of artifacts under the keys it names, and the terminal job that follows from them. -/
namespace CoSigner.Reconcile
open Contract Monolith Sharestore Terminal
variable (L : Libraries)

inductive Disposition where
  | eligible | terminalPublicationRequired | capabilityDeferred | freshPollRequired
  | protocolIntegrity
  deriving DecidableEq, Repr

/-- `Result.Cause`. -/
inductive Cause where
  | protocolIntegrity (reason : String)
  | capabilityDeferred (cause : Err)
  | claim (e : ClaimError)
  deriving DecidableEq, Repr

structure Result where
  disposition : Disposition
  job : Option Job := none
  deadlineRaw : Bytes := []
  cause : Option Cause := none
  deriving DecidableEq, Repr

/-- The errors `Reconcile` returns. -/
inductive ReconcileError where
  | listing (e : Err)
  | context (e : Err)
  | claim (e : ClaimError)
  | job
  deriving DecidableEq, Repr

/-- What the reconciler asks of its clock, its context, the backend, the preflight and the two
stores. -/
inductive ReconcileOp where
  | listActionableIntents
  | now
  | ctxErr
  | preflight
  | exists_ (store : StorePurpose) (keyID : Bytes)
  | inspectExisting (store : StorePurpose) (expected : ExpectedArtifactContext)
  | claimIntent (intentType intentID : Bytes)
  deriving DecidableEq

abbrev ReconcileOp.Answer : ReconcileOp → Type
  | .listActionableIntents => Except Err ActionableListing
  | .now => Time
  | .ctxErr | .preflight => Option Err
  | .exists_ _ _ => Except Err Bool
  | .inspectExisting _ _ => Except InspectError ArtifactEvidence
  | .claimIntent _ _ => ClaimResult × Option ClaimError

abbrev Reconciling (α : Type) := Prog ReconcileOp ReconcileOp.Answer α

abbrev consult (o : ReconcileOp) : Reconciling o.Answer := Prog.perform o

def protocolIntegrity (reason : String) : Result where
  disposition := .protocolIntegrity
  cause := some (.protocolIntegrity reason)

def capabilityDeferred (cause : Err) (deadlineRaw : Bytes) : Result where
  disposition := .capabilityDeferred
  deadlineRaw := deadlineRaw
  cause := some (.capabilityDeferred cause)

/-- `validateDKGIntent`; `none` for the empty reason. -/
def validateDKGIntent (intent : ActionableIntent) : Option String :=
  if intent.intentID.isEmpty || intent.sessionID.isEmpty || intent.keyID.isEmpty ||
      intent.orgID.isEmpty || isZeroTime intent.deadline || intent.deadlineRaw.isEmpty then
    some "DKG listing identity is incomplete"
  else if (newFailedJob L intent.intentID intent.sessionID intent.keyID).isNone then
    some "DKG listing identity cannot produce a canonical terminal result"
  else if Time.parseRFC3339 false intent.deadlineRaw != some intent.deadline then
    some "DKG listing deadline bytes do not match the parsed deadline"
  else
    match parseCanonicalDescriptor L intent.descriptorBytes with
    | none => some "DKG listing descriptor is invalid"
    | some (descriptor,fingerprint) =>
      if parseSHA256Digest intent.descriptorFingerprint != some fingerprint then
        some "DKG listing descriptor fingerprint mismatch"
      else if descriptor.keyID != intent.keyID then
        some "DKG listing key does not match descriptor"
      else none

/-- The loop over the own claimed intents: the reason of the first fault, or the intent IDs
seen. -/
def validateOwnClaimed : List Bytes → List ActionableIntent → Except String (List Bytes)
  | seen, [] => .ok seen
  | seen, intent :: rest =>
    if intent.type != ascii "DKG" || intent.status != ascii "CLAIMED" then
      .error "own claimed listing contains a non-CLAIMED DKG intent"
    else
      match validateDKGIntent L intent with
      | some reason => .error reason
      | none =>
        if seen.contains intent.intentID then .error "listing contains duplicate intent IDs"
        else validateOwnClaimed (intent.intentID :: seen) rest

/-- The checks of one pending intent before its ID is looked up. -/
def validatePendingIntent (now : Time) (intent : ActionableIntent) : Option String :=
  if intent.status != ascii "PENDING" then some "pending listing contains a non-PENDING intent"
  else if intent.type == ascii "SIGN" then none
  else if intent.type == ascii "DKG" then
    match validateDKGIntent L intent with
    | some reason => some reason
    | none => if intent.deadline ≤ now then some "pending DKG is expired" else none
  else some "pending listing contains an unsupported intent type"

def validatePending (now : Time) : List Bytes → List ActionableIntent → Option String
  | _, [] => none
  | seen, intent :: rest =>
    match validatePendingIntent L now intent with
    | some reason => some reason
    | none =>
      if seen.contains intent.intentID then some "listing contains duplicate intent IDs"
      else validatePending now (intent.intentID :: seen) rest

/-- No pending intent comes before an earlier one. -/
def ordered : List ActionableIntent → Bool
  | first :: second :: rest =>
    (first.createdAt < second.createdAt ||
      first.createdAt == second.createdAt && first.intentID ≤ second.intentID) &&
      ordered (second :: rest)
  | _ => true

/-- The part of `validateListing` that follows the clock sample. -/
def listingFault (now : Time) (listing : ActionableListing) : Option String :=
  match validateOwnClaimed L [] listing.ownClaimedDKG with
  | .error reason => some reason
  | .ok seen =>
    match validatePending L now seen listing.pending with
    | some reason => some reason
    | none =>
      if ordered listing.pending then none else some "pending listing order is not deterministic"

def validateListing (listing : ActionableListing) : Reconciling (Option Result) := do
  if listing.httpStatus != 200 then
    pure (some (protocolIntegrity "listing HTTP status contract mismatch"))
  else if 1 < listing.ownClaimedDKG.length then
    pure (some (protocolIntegrity "multiple organization-scoped CLAIMED DKG intents"))
  else
    let now : Time ← consult .now
    pure ((listingFault L now listing).map protocolIntegrity)

def validateClaim (listed : ActionableIntent) (claim : ClaimResult) : Option String :=
  if claim.httpStatus != 200 || claim.status != ascii "CLAIMED" || claim.type != ascii "DKG" then
    some "claim response is not a typed CLAIMED DKG"
  else if claim.intentID != listed.intentID || claim.sessionID != listed.sessionID ||
      claim.keyID != listed.keyID || claim.orgID != listed.orgID then
    some "claim response identity mismatch"
  else if claim.deadlineRaw != listed.deadlineRaw || claim.deadline != listed.deadline then
    some "claim response changed the absolute deadline"
  else if claim.descriptorFingerprint != listed.descriptorFingerprint ||
      claim.descriptorBytes != listed.descriptorBytes then
    some "claim response changed the canonical descriptor"
  else none

def evidenceMatches (intent : ActionableIntent) (primary recovery : ArtifactEvidence) : Bool :=
  match parseSHA256Digest intent.descriptorFingerprint with
  | none => false
  | some expectedFingerprint =>
    !(primary.sessionID != intent.sessionID || recovery.sessionID != intent.sessionID ||
      primary.keyID != intent.keyID || recovery.keyID != intent.keyID ||
      primary.partyID != ascii "co-signer-primary" ||
      recovery.partyID != ascii "co-signer-recovery" ||
      primary.purpose != .primary || recovery.purpose != .recovery ||
      primary.descriptorFingerprint != expectedFingerprint ||
      recovery.descriptorFingerprint != expectedFingerprint ||
      primary.chainCodeHash != recovery.chainCodeHash ||
      primary.codecVersion != recovery.codecVersion ||
      primary.accountPublicKey != recovery.accountPublicKey)

/-- The artifact of a completed job. -/
def artifactInput (evidence : ArtifactEvidence) : ArtifactInput where
  partyID := evidence.partyID
  purpose := evidence.purpose.text
  fingerprint := evidence.artifactFingerprint

/-- The input of the completed job of two matching evidences. -/
def completedInput (intent : ActionableIntent) (primary recovery : ArtifactEvidence) :
    CompletedInput where
  intentID := intent.intentID
  sessionID := intent.sessionID
  keyID := intent.keyID
  descriptorFingerprint := primary.descriptorFingerprint
  accountPublicKey := primary.accountPublicKey
  chainCodeHash := primary.chainCodeHash
  primary := artifactInput primary
  recovery := artifactInput recovery

/-- The `failed` closure, which drops the error of `NewFailedJob`. -/
def failedJob (intent : ActionableIntent) : Job :=
  (newFailedJob L intent.intentID intent.sessionID intent.keyID).getD {}

def expectedContext (intent : ActionableIntent) : ExpectedArtifactContext where
  sessionID := intent.sessionID
  keyID := intent.keyID
  descriptorBytes := intent.descriptorBytes

def reconstructClaimed (intent : ActionableIntent) (primaryExists recoveryExists : Bool) :
    Reconciling Job := do
  if !primaryExists || !recoveryExists then pure (failedJob L intent)
  else
    let primary : Except InspectError ArtifactEvidence ←
      consult (.inspectExisting .primary (expectedContext intent))
    match primary with
    | .error _ => pure (failedJob L intent)
    | .ok primary =>
      let recovery : Except InspectError ArtifactEvidence ←
        consult (.inspectExisting .recovery (expectedContext intent))
      match recovery with
      | .error _ => pure (failedJob L intent)
      | .ok recovery =>
        if evidenceMatches intent primary recovery then
          pure ((newCompletedJob L (completedInput intent primary recovery)).getD
            (failedJob L intent))
        else pure (failedJob L intent)

structure ClassifiedIntent where
  intent : ActionableIntent
  primaryExists : Bool
  recoveryExists : Bool
  claimed : Bool
  deriving DecidableEq, Repr

/-- The item counts towards `terminalCandidates`. -/
def ClassifiedIntent.candidate (item : ClassifiedIntent) : Bool :=
  item.claimed || item.primaryExists || item.recoveryExists

/-- The intents to classify, with the own claimed ones marked. -/
def actionable (listing : ActionableListing) : List (ActionableIntent × Bool) :=
  listing.ownClaimedDKG.map (·,true) ++
    (listing.pending.filter (·.type == ascii "DKG")).map (·,false)

/-- The loop of existence checks; an error is the result to return. -/
def survey : List (ActionableIntent × Bool) → Reconciling (Except Result (List ClassifiedIntent))
  | [] => pure (.ok [])
  | (intent,claimed) :: rest => do
    let primary : Except Err Bool ← consult (.exists_ .primary intent.keyID)
    match primary with
    | .error e => pure (.error (capabilityDeferred e intent.deadlineRaw))
    | .ok primaryExists =>
      let recovery : Except Err Bool ← consult (.exists_ .recovery intent.keyID)
      match recovery with
      | .error e => pure (.error (capabilityDeferred e intent.deadlineRaw))
      | .ok recoveryExists =>
        let items ← survey rest
        pure (items.map (⟨intent,primaryExists,recoveryExists,claimed⟩ :: ·))

/-- What follows an answer to the claim of a pending intent. -/
def resolveClaim (intent : ActionableIntent) (claim : ClaimResult) (err : Option ClaimError) :
    Except ReconcileError Result :=
  match err with
  | some e =>
    if e.isA .alreadyClaimed || e.isA .notFound || e.isA .outcomeUnknown then
      .ok
        { disposition := .freshPollRequired
          deadlineRaw := intent.deadlineRaw
          cause := some (.claim e) }
    else .error (.claim e)
  | none =>
    match validateClaim intent claim with
    | some reason => .ok { protocolIntegrity reason with deadlineRaw := intent.deadlineRaw }
    | none =>
      match newFailedJob L claim.intentID claim.sessionID claim.keyID with
      | none => .error .job
      | some job => .ok {
          disposition := .terminalPublicationRequired
          job := some job
          deadlineRaw := intent.deadlineRaw }

/-- The loop that looks for the one candidate. -/
def resolve : List ClassifiedIntent → Reconciling (Except ReconcileError Result)
  | [] => pure (.ok { disposition := .eligible })
  | item :: rest => do
    if item.claimed then
      let job ← reconstructClaimed L item.intent item.primaryExists item.recoveryExists
      pure (.ok {
        disposition := .terminalPublicationRequired
        job := some job
        deadlineRaw := item.intent.deadlineRaw })
    else if !item.primaryExists && !item.recoveryExists then resolve rest
    else
      let (claim,err) : ClaimResult × Option ClaimError ←
        consult (.claimIntent (ascii "DKG") item.intent.intentID)
      pure (resolveClaim L item.intent claim err)

/-- The deadline of the first pending DKG. -/
def pendingDeadline (items : List ClassifiedIntent) : Bytes :=
  ((items.find? fun item => !item.claimed).map (·.intent.deadlineRaw)).getD []

def dispose (items : List ClassifiedIntent) : Reconciling (Except ReconcileError Result) :=
  let terminalCandidates := items.countP ClassifiedIntent.candidate
  if 1 < terminalCandidates then
    pure (.ok (protocolIntegrity "listing requires more than one startup terminal publication"))
  else if terminalCandidates = 0 then
    pure (.ok { disposition := .eligible, deadlineRaw := pendingDeadline items })
  else resolve L items

/-- `Reconcile` once the listing has passed `validateListing`. -/
def reconcileListed (listing : ActionableListing) : Reconciling (Except ReconcileError Result) := do
  let failed : Option Err ← consult .preflight
  match failed with
  | some e =>
    let stopped : Option Err ← consult .ctxErr
    match stopped with
    | some ctxErr => pure (.error (.context ctxErr))
    | none => pure (.ok (capabilityDeferred e []))
  | none =>
    let surveyed ← survey (actionable listing)
    match surveyed with
    | .error result => pure (.ok result)
    | .ok items => dispose L items

/-- `Reconciler.Reconcile`. -/
def reconcile : Reconciling (Except ReconcileError Result) := do
  let listed : Except Err ActionableListing ← consult .listActionableIntents
  match listed with
  | .error e => pure (.error (.listing e))
  | .ok listing =>
    let refused ← validateListing L listing
    match refused with
    | some result => pure (.ok result)
    | none => reconcileListed L listing

end CoSigner.Reconcile
