import CoSigner.Lib.Trace
import CoSigner.Terminal.Job
import CoSigner.Terminal.Retry

/-! The publication of terminal results (`terminal/publisher.go`): one body, posted until a
response is authoritative or the context ends. -/
namespace CoSigner

/-- The errors of a context that has ended. -/
inductive ContextError where
  | canceled | deadlineExceeded
  deriving DecidableEq, Repr

namespace Terminal
open Json Contract

inductive RetryKind where
  | transient | protocol
  deriving DecidableEq, Repr

inductive OutcomeKind where
  | accepted | exactReplay | terminalConflict
  deriving DecidableEq, Repr

def parseOutcomeKind (raw : Bytes) : Option OutcomeKind :=
  if raw = ascii "ACCEPTED" then some .accepted
  else if raw = ascii "EXACT_REPLAY" then some .exactReplay
  else if raw = ascii "TERMINAL_CONFLICT" then some .terminalConflict
  else none

structure Outcome where
  kind : OutcomeKind
  authoritativeStatus : Bytes
  authoritativeFingerprint : Bytes
  deriving DecidableEq, Repr

structure TerminalHTTPResponse where
  statusCode : Int
  body : Bytes := []
  protocolViolation : Bytes := []
  deriving DecidableEq, Repr

structure TerminalResponseV1 where
  authoritativeResultFingerprint : Bytes := []
  authoritativeStatus : Bytes := []
  httpStatus : Int := 0
  outcome : Bytes := []
  deriving DecidableEq, Repr

def TerminalResponseV1.decoder : Decoder TerminalResponseV1 := struct [
  field "authoritativeResultFingerprint" (·.authoritativeResultFingerprint)
    (fun s x => { s with authoritativeResultFingerprint := x }) string,
  field "authoritativeStatus" (·.authoritativeStatus)
    (fun s x => { s with authoritativeStatus := x }) string,
  field "httpStatus" (·.httpStatus) (fun s x => { s with httpStatus := x }) (int 64),
  field "outcome" (·.outcome) (fun s x => { s with outcome := x }) string]

def authoritativeStatuses : List Bytes :=
  [terminalStatusCompleted,terminalStatusFailed,terminalStatusTimedOut]

def validateResponse (response : TerminalHTTPResponse) (job : Job) : Option Outcome := do
  let wire ← decodeClosed TerminalResponseV1.decoder {} response.body
  if wire.httpStatus != response.statusCode then none
  if !authoritativeStatuses.contains wire.authoritativeStatus then none
  let fingerprint ← parseSHA256Digest wire.authoritativeResultFingerprint
  let kind ← parseOutcomeKind wire.outcome
  let outcome : Outcome := ⟨kind,wire.authoritativeStatus,fingerprint⟩
  if response.statusCode = 200 then
    if kind = .terminalConflict ||
        !(wire.authoritativeStatus == job.status && fingerprint == job.fingerprint) then none
    some outcome
  else if response.statusCode = 409 then
    if kind != .terminalConflict then none
    some outcome
  else none

def Job.valid (job : Job) : Bool := job.intentID != [] && !job.body.isEmpty

/-- What `Publish` makes of a response: the outcome, or another attempt after an alert if there
is one. -/
inductive Reading where
  | settled (outcome : Outcome)
  | again (kind : RetryKind) (alert : Option Bytes)
  deriving DecidableEq, Repr

def readResponse (job : Job) (response : TerminalHTTPResponse) : Reading :=
  if response.protocolViolation != [] then .again .protocol (some response.protocolViolation)
  else if 500 ≤ response.statusCode then .again .transient none
  else if response.statusCode = 200 ∨ response.statusCode = 409 then
    match validateResponse response job with
    | some outcome => .settled outcome
    | none => .again .protocol (some (ascii "malformed_authoritative_response"))
  else .again .protocol (some (ascii "unexpected_http_status"))

/-- The calls of `Publish`. A failed post has no response. -/
inductive PublishOp where
  | ctxErr
  | post (intentID body : Bytes)
  | sleep (attempt : UInt64) (kind : RetryKind)
  | alert (status : Int) (reason : Bytes)
  deriving DecidableEq

def PublishOp.Ans : PublishOp → Type
  | .ctxErr | .sleep _ _ => Option ContextError
  | .post _ _ => Option TerminalHTTPResponse
  | .alert _ _ => Unit

abbrev PublishProg := Prog PublishOp PublishOp.Ans

abbrev PublishEvent := Event PublishOp PublishOp.Ans

def publishing (o : PublishOp) : PublishProg o.Ans := .perform o

inductive PublishError where
  | dependencies | invalidJob
  | context (e : ContextError)
  deriving DecidableEq, Repr

/-- `sleepRetry`, and what follows it. -/
def sleepRetry (attempt : UInt64) (kind : RetryKind)
    (next : PublishProg (Except PublishError Outcome)) :
    PublishProg (Except PublishError Outcome) := do
  let slept : Option ContextError ← publishing (.sleep attempt kind)
  match slept with
  | some e => pure (.error (.context e))
  | none => next

/-- `Publish` on a response. -/
def handleResponse (job : Job) (attempt : UInt64)
    (next : PublishProg (Except PublishError Outcome)) (response : TerminalHTTPResponse) :
    PublishProg (Except PublishError Outcome) :=
  match readResponse job response with
  | .settled outcome => do
    if outcome.kind = .terminalConflict then
      let _ : Unit ← publishing (.alert response.statusCode (ascii "terminal_conflict"))
    pure (.ok outcome)
  | .again kind none => sleepRetry attempt kind next
  | .again kind (some reason) => do
    let _ : Unit ← publishing (.alert response.statusCode reason)
    sleepRetry attempt kind next

/-- The loop of `Publish`, cut off after some turns. -/
def publishFrom (job : Job) : Nat → UInt64 → PublishProg (Except PublishError Outcome)
  | 0, _ => .halt
  | turns + 1, attempt => do
    let next := publishFrom job turns (nextAttempt attempt)
    let ended : Option ContextError ← publishing .ctxErr
    match ended with
    | some e => pure (.error (.context e))
    | none => do
      let response : Option TerminalHTTPResponse ← publishing (.post job.intentID job.body)
      match response with
      | none => do
        let ended : Option ContextError ← publishing .ctxErr
        match ended with
        | some e => pure (.error (.context e))
        | none => sleepRetry attempt .transient next
      | some response => handleResponse job attempt next response

/-- `Publisher.Publish`; `ready` says whether the publisher has all its dependencies. -/
def publish (ready : Bool) (turns : Nat) (job : Job) : PublishProg (Except PublishError Outcome) :=
  if !ready then pure (.error .dependencies)
  else if !job.valid then pure (.error .invalidJob)
  else publishFrom job turns 1

/-- The result that an event sends. -/
def sentBy : PublishEvent → Option (Bytes × Bytes)
  | ⟨.post intentID body,_⟩ => some (intentID,body)
  | _ => none

/-- An event after which the publisher waits for its next attempt. -/
def pauses : PublishEvent → Option UInt64
  | ⟨.sleep attempt _,_⟩ => some attempt
  | _ => none

/-- The response settles the job. -/
def Settles (job : Job) (response : TerminalHTTPResponse) (outcome : Outcome) : Prop :=
  response.protocolViolation = [] ∧ validateResponse response job = some outcome

theorem Settles.authoritative {job : Job} {response : TerminalHTTPResponse} {outcome : Outcome}
    (h : Settles job response outcome) :
    outcome.authoritativeStatus ∈ authoritativeStatuses ∧
      (response.statusCode = 200 ∧ outcome.kind ≠ .terminalConflict ∧
          outcome.authoritativeStatus = job.status ∧
          outcome.authoritativeFingerprint = job.fingerprint ∨
        response.statusCode = 409 ∧ outcome.kind = .terminalConflict) := by
  have h := h.2
  simp only [validateResponse, Option.bind_eq_bind, Option.bind_eq_some_iff, Option.bind_none,
    Option.ite_none_left_eq_some] at h
  obtain ⟨wire,-,hstatus,hauthoritative,fingerprint,-,kind,-,h⟩ := h
  have hknown : wire.authoritativeStatus ∈ authoritativeStatuses := by simpa using hauthoritative
  split at h
  · rename_i hok
    simp at h
    obtain ⟨hkind,rfl⟩ := h
    exact ⟨hknown,.inl ⟨hok,hkind.1,hkind.2.1,hkind.2.2⟩⟩
  · split at h
    · rename_i hconflict
      simp at h
      obtain ⟨hkind,rfl⟩ := h
      exact ⟨hknown,.inr ⟨hconflict,hkind⟩⟩
    · cases h

theorem readResponse_settled {job : Job} {response : TerminalHTTPResponse} {outcome : Outcome} :
    readResponse job response = .settled outcome ↔ Settles job response outcome := by
  constructor
  · intro h
    unfold readResponse at h
    split at h
    · cases h
    · rename_i hviolation
      split at h
      · cases h
      · split at h
        · split at h
          · rename_i settled hsettled
            cases h
            exact ⟨by simpa using hviolation,hsettled⟩
          · cases h
        · cases h
  · intro h
    have hcode : response.statusCode = 200 ∨ response.statusCode = 409 := by
      obtain ⟨-,hok | hconflict⟩ := h.authoritative
      · exact .inl hok.1
      · exact .inr hconflict.1
    have hsmall : ¬500 ≤ response.statusCode := by omega
    simp [readResponse, h.1, h.2, hcode, hsmall]

/-- Every attempt sends the same, and the waits are numbered. -/
def publishPre (job : Job) : PublishOp → List PublishEvent → Prop
  | .post intentID body,h => (intentID,body) = (job.intentID,job.body) ∧
      ∀ sent ∈ h.filterMap sentBy, sent = (job.intentID,job.body)
  | .sleep attempt _,h => attempt = attempts (h.filterMap pauses).length
  | _,_ => True

/-- Before an attempt: the same was sent each time, and each earlier attempt was followed by a
wait. -/
structure Attempting (job : Job) (attempt : UInt64) (h : List PublishEvent) : Prop where
  same : ∀ sent ∈ h.filterMap sentBy, sent = (job.intentID,job.body)
  numbered : attempt = attempts (h.filterMap pauses).length

theorem Attempting.other {job : Job} {attempt : UInt64} {h : List PublishEvent}
    (ha : Attempting job attempt h) {e : PublishEvent} (hsent : sentBy e = none)
    (hpause : pauses e = none) : Attempting job attempt (h ++ [e]) := by
  constructor
  · simpa [hsent] using ha.same
  · simpa [hpause] using ha.numbered

theorem attempts_succ (k : Nat) : attempts (k + 1) = nextAttempt (attempts k) :=
  Function.iterate_succ_apply' nextAttempt k 1

theorem Attempting.waited {job : Job} {attempt : UInt64} {h : List PublishEvent}
    (ha : Attempting job attempt h) (kind : RetryKind) (slept : Option ContextError) :
    Attempting job (nextAttempt attempt) (h ++ [⟨.sleep attempt kind,slept⟩]) := by
  constructor
  · simpa [sentBy] using ha.same
  · have hlength : ((h ++ [(⟨.sleep attempt kind,slept⟩ : PublishEvent)]).filterMap pauses).length =
        (h.filterMap pauses).length + 1 := by simp [pauses]
    rw [hlength, attempts_succ, ← ha.numbered]

/-- A live context, and a sender that answers as given. -/
def answering : (o : PublishOp) → List (Option TerminalHTTPResponse) →
    Option (o.Ans × List (Option TerminalHTTPResponse))
  | .post _ _, response :: rest => some (response,rest)
  | .post _ _, [] => none
  | .ctxErr, rest => some (none,rest)
  | .sleep _ _, rest => some (none,rest)
  | .alert _ _, rest => some ((),rest)

/-- A post that failed, or whose response does not settle the job. -/
def Unsettled (job : Job) (response : Option TerminalHTTPResponse) : Prop :=
  ∀ reply outcome, response = some reply → ¬Settles job reply outcome

theorem publishFrom_reply (job : Job) (turns : Nat) (attempt : UInt64) (reply : TerminalHTTPResponse)
    (rest : List (Option TerminalHTTPResponse)) :
    (publishFrom job (turns + 1) attempt).exec answering (some reply :: rest) =
      (handleResponse job attempt (publishFrom job turns (nextAttempt attempt)) reply).exec
        answering rest := rfl

theorem publishFrom_unsettled {job : Job} {response : Option TerminalHTTPResponse}
    (hfails : Unsettled job response) (turns : Nat) (attempt : UInt64)
    (rest : List (Option TerminalHTTPResponse)) :
    (publishFrom job (turns + 1) attempt).exec answering (response :: rest) =
      (publishFrom job turns (nextAttempt attempt)).exec answering rest := by
  cases response with
  | none => rfl
  | some reply =>
    rw [publishFrom_reply, handleResponse]
    cases hread : readResponse job reply with
    | settled outcome => exact absurd (readResponse_settled.mp hread) (hfails reply outcome rfl)
    | again kind alert => cases alert <;> rfl

theorem publishFrom_settled {job : Job} {reply : TerminalHTTPResponse} {outcome : Outcome}
    (h : Settles job reply outcome) (turns : Nat) (attempt : UInt64)
    (rest : List (Option TerminalHTTPResponse)) :
    (publishFrom job (turns + 1) attempt).exec answering (some reply :: rest) =
      some (.ok outcome,rest) := by
  rw [publishFrom_reply, handleResponse, readResponse_settled.mpr h]
  dsimp only
  split <;> rfl

/-- While the context is live the publisher outlasts every failed post and every response that
settles nothing, and stops at the first one that settles the job. -/
theorem publication_outlasts_failures {job : Job} (hvalid : job.valid = true)
    {failing : List (Option TerminalHTTPResponse)} (hfails : ∀ r ∈ failing, Unsettled job r)
    {reply : TerminalHTTPResponse} {outcome : Outcome} (hsettles : Settles job reply outcome)
    (rest : List (Option TerminalHTTPResponse)) {turns : Nat} (hturns : failing.length < turns) :
    (publish true turns job).exec answering (failing ++ some reply :: rest) =
      some (.ok outcome,rest) := by
  simp only [publish, hvalid, Bool.not_true, Bool.false_eq_true, if_false]
  generalize (1 : UInt64) = attempt
  induction failing generalizing turns attempt with
  | nil =>
    obtain ⟨turns,rfl⟩ := Nat.exists_eq_succ_of_ne_zero (Nat.ne_of_gt hturns)
    exact publishFrom_settled hsettles turns attempt rest
  | cons response failing ih =>
    obtain ⟨turns,rfl⟩ := Nat.exists_eq_succ_of_ne_zero (Nat.ne_of_gt (Nat.zero_lt_of_lt hturns))
    rw [List.cons_append, publishFrom_unsettled (hfails response List.mem_cons_self)]
    apply ih (fun r hr => hfails r (List.mem_cons_of_mem _ hr))
    simpa using hturns

def settledJob : Job where
  intentID := ascii "intent-1"
  body := ascii "result"
  status := terminalStatusFailed
  fingerprint := List.replicate 32 0

def settlingReply : TerminalHTTPResponse where
  statusCode := 200
  body := object [(ascii "authoritativeResultFingerprint",quote (digestString (List.replicate 32 0))),
    (ascii "authoritativeStatus",quote terminalStatusFailed),(ascii "httpStatus",ascii "200"),
    (ascii "outcome",quote (ascii "ACCEPTED"))]

theorem settlingReply_settles : Settles settledJob settlingReply
    ⟨.accepted,terminalStatusFailed,List.replicate 32 0⟩ :=
  ⟨rfl,by decide +kernel⟩

theorem unsettled_failures : ∀ r ∈ [none,some { statusCode := 503 }], Unsettled settledJob r := by
  intro r hr reply outcome hreply hsettles
  simp only [List.mem_cons, List.not_mem_nil, or_false] at hr
  cases hr with
  | inl hnone => rw [hnone] at hreply; cases hreply
  | inr hsome =>
    rw [hsome] at hreply
    cases hreply
    obtain ⟨-,hok | hconflict⟩ := hsettles.authoritative
    · exact absurd hok.1 (by decide)
    · exact absurd hconflict.1 (by decide)

theorem publication_outlasts_failures_sample :
    (publish true 3 settledJob).exec answering [none,some { statusCode := 503 },some settlingReply] =
      some (.ok ⟨.accepted,terminalStatusFailed,List.replicate 32 0⟩,[]) :=
  publication_outlasts_failures (by decide) unsettled_failures settlingReply_settles [] (by decide)

end Terminal
end CoSigner
