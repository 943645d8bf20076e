import CoSigner.Transport.Poll
import CoSigner.Worker.ClaimRecovery
import CoSigner.Worker.DkgCoordinator
import CoSigner.Worker.SignSession

/-! One admitted intent from its claim to its terminal result (`worker/session_worker.go`,
`session_result.go`, `errors.go`), composed of the parts that the session waits for. -/
namespace CoSigner.Worker
open Monolith Transport

/-- What ended the `select` of `runSignProtocol`. -/
inductive Wake where
  | finished | transportDone | contextDone
  deriving DecidableEq, Repr

/-- The calls of a session: those of its parts, each under its context, and its own. -/
inductive WorkOp where
  | claim (o : ClaimOp)
  /-- The waits for the session and for its authorization. -/
  | wait (o : SessionOp)
  | deliver (o : SessionOp)
  | publish (o : Terminal.PublishOp)
  /-- The error and the end of the worker's own context. -/
  | ctxErr
  | ctxDone
  | now
  | notifyDispatch
  /-- `permits.Release`. -/
  | release
  /-- The transport starts, under a context that ends at the expiry if there is one. -/
  | start (ctx : FrameContext) (expiry : Option Time)
  | runnerErr
  /-- The locked region of `Dispatch`, and the error with which it refuses. -/
  | dispatch
  | runSignSession (request : SignSessionRequest)
  | select
  | runDKG (intent : Intent)
  | close
  | transportErr
  | panic

def WorkOp.Ans : WorkOp → Type
  | .claim o => o.Ans
  | .wait o | .deliver o => o.Ans
  | .publish o => o.Ans
  | .ctxErr | .runnerErr => Option ContextError
  | .now => Time
  | .dispatch | .runSignSession _ | .transportErr => Option Err
  | .select => Wake
  | .runDKG _ => Except Err DKGResult
  | .panic => Empty
  | .ctxDone | .notifyDispatch | .release | .start _ _ | .close => Unit

abbrev WorkProg := Prog WorkOp WorkOp.Ans

abbrev WorkEvent := Event WorkOp WorkOp.Ans

def work (o : WorkOp) : WorkProg o.Ans := .perform o

def crash {α : Type} : WorkProg α := .call .panic Empty.elim

def contextError : ContextError → Err
  | .canceled => ⟨[.canceled],ascii "context canceled"⟩
  | .deadlineExceeded => ⟨[.deadlineExceeded],ascii "context deadline exceeded"⟩

def ReadyError.err : ReadyError → Err
  | .context e => contextError e
  | .invalidLifecycle text => ⟨[],text⟩
  | .alreadyExpired => ⟨[.alreadyExpired],ascii "claimed intent already expired"⟩
  | .panics => {}

def AuthorizeError.err : AuthorizeError → Err
  | .gate e => e
  | .context e => contextError e

def failedResult (code : String) (text : Bytes) : IntentResult := ⟨ascii "FAILED",ascii code,text⟩

def isProtocolError (text : Bytes) : Bool :=
  ["duplicate frame","unknown party","frame payload too large","queue is full","protocol stalled",
    "mpc protocol","protocol error"].any fun phrase =>
      (Strings.toLower text).tails.any fun rest => (ascii phrase).isPrefixOf rest

/-- The cases of `BuildResult`, in their order. -/
def resultCodes : List (Sentinel × String) := [
  (.deadlineExceeded,"SESSION_TIMEOUT"),(.canceled,"WORKER_SHUTDOWN"),
  (.invalidIntent,"INVALID_INTENT"),(.prepared,"INVALID_INTENT"),
  (.alreadyExpired,"ALREADY_EXPIRED"),(.shareNotFound,"SHARE_NOT_FOUND"),
  (.invalidSharePayload,"INVALID_SHARE_PAYLOAD"),(.shareMetadata,"SHARE_METADATA_MISMATCH"),
  (.missingPublicKey,"DKG_MISSING_PUBLIC_KEY"),(.protocol,"MPC_PROTOCOL_ERROR")]

/-- `BuildResult`. -/
def buildResult : Option Err → WorkProg IntentResult
  | none => pure { status := ascii "COMPLETED" }
  | some e =>
    match resultCodes.find? fun code => e.isA code.1 with
    | some code => pure (failedResult code.2 e.text)
    | none =>
      if isProtocolError e.text then pure (failedResult "MPC_PROTOCOL_ERROR" e.text)
      else do
        let ended : Option ContextError ← work (.wait .ctxErr)
        if ended = some .deadlineExceeded then
          pure (failedResult "SESSION_TIMEOUT" (contextError .deadlineExceeded).text)
        else do
          let ended : Option ContextError ← work (.wait .ctxErr)
          if ended = some .canceled then
            pure (failedResult "WORKER_SHUTDOWN" (contextError .canceled).text)
          else pure (failedResult "INTERNAL_ERROR" e.text)

structure SessionWorker where
  libraries : Libraries
  texts : ErrorTexts
  localPartyID : Bytes
  framePollInterval : Duration
  /-- Whether these are there, and whether the publisher has all it depends on. -/
  gate : Bool
  dkgRunner : Bool
  publisher : Bool
  publisherReady : Bool
  /-- The turns after which each loop is cut off. -/
  turns : Nat

def frameContext (intent : Intent) : FrameContext where
  session := intent.session
  intentID := intent.intentID
  orgID := intent.payload.orgID
  sessionID := intent.sessionID
  stage := Strings.toLower intent.type
  protocol := intent.payload.algorithm

/-- Waits for the end of the worker's context unless that has ended. -/
def awaitEnd : WorkProg Unit := do
  let ended : Option ContextError ← work .ctxErr
  if ended.isSome then pure () else work .ctxDone

namespace SessionWorker
variable (W : SessionWorker)

def deliver (intent : Intent) (result : IntentResult) : WorkProg Unit :=
  (deliverSignResult intent result W.turns).relabel .deliver fun _ r => r

/-- What the two publications of a DKG have in common; `invalid` is for a job that could not be
built. -/
def publishJob (job : Option Terminal.Job) (invalid : WorkProg Unit) : WorkProg Unit :=
  if !W.publisher then work .ctxDone
  else match job with
    | none => invalid
    | some job => do
      let outcome ← (Terminal.publish W.publisherReady W.turns job).relabel .publish fun _ r => r
      match outcome with
      | .ok _ => pure ()
      | .error _ => awaitEnd

def publishClaimedDKGFailure (intent : Intent) : WorkProg Unit :=
  W.publishJob
    (Terminal.newFailedJob W.libraries intent.intentID intent.sessionID intent.payload.keyID)
    awaitEnd

def artifactInput (evidence : Sharestore.ArtifactEvidence) : Terminal.ArtifactInput :=
  ⟨evidence.partyID,evidence.purpose.text,evidence.artifactFingerprint⟩

/-- The arguments of `buildDKGTerminalJob`'s constructors. -/
def jobInput (intent : Intent) : Except Err DKGResult → Terminal.JobInput
  | .error _ => .failed intent.intentID intent.sessionID intent.payload.keyID
  | .ok output => .completed {
      intentID := intent.intentID
      sessionID := intent.sessionID
      keyID := intent.payload.keyID
      descriptorFingerprint := output.primary.descriptorFingerprint
      accountPublicKey := output.primary.accountPublicKey
      chainCodeHash := output.primary.chainCodeHash
      primary := artifactInput output.primary
      recovery := artifactInput output.recovery }

def publishDKGResult (intent : Intent) (output : Except Err DKGResult) : WorkProg Unit :=
  W.publishJob ((jobInput intent output).job W.libraries) (work .ctxDone)

/-- The goroutine of `runSignProtocol`. The request is made inside the dispatched function. -/
def dispatchSign (intent : Intent) : WorkProg (Option Err) := do
  let ended : Option ContextError ← work .runnerErr
  match ended with
  | some e => pure (some (contextError e))
  | none => do
    let refused : Option Err ← work .dispatch
    match refused with
    | some e => pure (some e)
    | none =>
      match buildSignRequest intent W.localPartyID with
      | none => crash
      | some request => work (.runSignSession request)

/-- `runSignProtocol`, which joins its goroutine whatever ends the `select`. -/
def runSignProtocol (intent : Intent) : WorkProg (Option Err) := do
  let ended : Option ContextError ← work (.wait .ctxErr)
  match ended with
  | some e => pure (some (contextError e))
  | none => do
    let finished ← W.dispatchSign intent
    let woken : Wake ← work .select
    match woken with
    | .finished => pure finished
    | .transportDone => do
      let err : Option Err ← work .transportErr
      pure (err.or finished)
    | .contextDone => do
      let ended : Option ContextError ← work (.wait .ctxErr)
      pure (finished.or (ended.map contextError))

/-- A SIGN from the start of its transport to its result. -/
def runSign (intent : Intent) (expiry : Option Time) : WorkProg Unit := do
  let _ : Unit ← work (.start (frameContext intent) expiry)
  let runErr ← W.runSignProtocol intent
  let _ : Unit ← work .close
  let err : Option Err ← work .transportErr
  let result ← buildResult (err.or runErr)
  W.deliver intent result

def runDKG (intent : Intent) (expiry : Option Time) : WorkProg Unit := do
  let _ : Unit ← work (.start (frameContext intent) expiry)
  let output : Except Err DKGResult ←
    if W.dkgRunner then work (.runDKG intent)
    else pure (.error ⟨[],ascii "dkg coordinator is required"⟩)
  let _ : Unit ← work .close
  W.publishDKGResult intent output

/-- An owned intent has failed: a DKG is published, the result of a SIGN delivered. -/
def fail (kind : IntentKind) (intent : Intent) (err : Err) : WorkProg Unit :=
  match kind with
  | .dkg => W.publishClaimedDKGFailure intent
  | .sign => do
    let result ← buildResult (some err)
    W.deliver intent result

/-- From the end of `waitForSessionReadiness` on. -/
def runReady (kind : IntentKind) (intent : Intent) : Except ReadyError Ready → WorkProg Unit
  | .error .panics => do
    let _ : Unit ← work .release
    crash
  | .error e => W.fail kind intent e.err
  | .ok ready =>
    let intent := { intent with session := ready.lifecycle }
    match kind with
    | .dkg => W.runDKG intent ready.expiry
    | .sign => do
      let err ← (authorizeSign W.gate intent W.turns).relabel .wait fun _ r => r
      match err with
      | some e => W.fail .sign intent e.err
      | none => W.runSign intent ready.expiry

/-- A claim that is not what was admitted, or not to be run. -/
def reject (kind : IntentKind) (claimed intent : Intent) (code : String) (text : Bytes) :
    WorkProg Unit :=
  match kind with
  | .dkg => W.publishClaimedDKGFailure claimed
  | .sign => W.deliver intent (failedResult code text)

/-- From an accepted claim on. -/
def runClaimed (intent : Intent) (kind : IntentKind) (claim : ClaimResult) : WorkProg Unit :=
  let claimed := claim.intent W.libraries
  if classifyIntentKind claimed.type ≠ some kind then
    match kind with
    | .dkg => W.publishClaimedDKGFailure claimed
    | .sign => awaitEnd
  else if !validateClaimIdentity intent claimed claim kind then
    W.reject kind claimed intent "INVALID_INTENT" (ascii "invalid session lifecycle")
  else match validateIntent W.libraries W.texts W.localPartyID claimed with
    | some text => W.reject kind claimed claimed "INVALID_INTENT" text
    | none => do
      let now : Time ← work .now
      if claim.deadline ≤ now then W.reject kind claimed claimed "ALREADY_EXPIRED" []
      else do
        let ready ← (waitForSessionReadiness claimed W.framePollInterval W.turns).relabel .wait
          fun _ r => r
        W.runReady kind claimed ready

/-- What an error of the claim leads to before the permits are given back. -/
def settleClaim (intent : Intent) (kind : IntentKind) (e : ClaimError) : WorkProg Unit :=
  if e.isA .deadlineExceeded || e.isA .cleanup then do
    let ended : Option ContextError ← work .ctxErr
    if ended.isSome then pure ()
    else
      let code := if e.isA .deadlineExceeded then "ALREADY_EXPIRED" else "INTERNAL_ERROR"
      W.reject kind intent intent code e.text
  else pure ()

def runAdmitted (intent : Intent) (kind : IntentKind) : WorkProg Unit := do
  let (claim,err) ← (claimWithRecovery W.libraries intent W.turns).relabel .claim fun _ r => r
  match err with
  | none => W.runClaimed intent kind claim
  | some e =>
    if e.isA .signRejected then
      W.deliver (claim.intent W.libraries) (failedResult "INVALID_INTENT" e.text)
    else do
      W.settleClaim intent kind e
      let _ : Unit ← work .release
      work .notifyDispatch

def runBody (intent : Intent) : WorkProg Unit :=
  match classifyIntentKind intent.type with
  | none => pure ()
  | some kind =>
    if kind = .sign ∧ intent.discoveryStatus = ascii "CLAIMED" then do
      let _ : Unit ← work .notifyDispatch
      W.deliver intent (failedResult "WORKER_SHUTDOWN" (ascii "orphaned SIGN claim"))
    else W.runAdmitted intent kind

/-- `runSessionWithClock` with its deferred calls. -/
def runSessionWithClock (intent : Intent) : WorkProg Unit := do
  W.runBody intent
  let _ : Unit ← work .notifyDispatch
  work .release

end SessionWorker
end CoSigner.Worker
