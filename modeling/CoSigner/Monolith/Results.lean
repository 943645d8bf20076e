import CoSigner.Monolith.Types

/-! Results of SIGN intents (`monolith/results.go`): the body that is kept for all attempts to
deliver it, and what the backend's answer to one of them says. -/
namespace CoSigner.Monolith
open Json Contract

structure IntentResult where
  status : Bytes := []
  errorCode : Bytes := []
  errorMessage : Bytes := []
  deriving DecidableEq, Repr

structure SignResultRequest where
  body : Bytes
  status : Bytes
  deriving DecidableEq, Repr

/-- `json.Marshal` writes the members of a map by their names. -/
def marshalSignResult (result : IntentResult) : Option Bytes :=
  if result.status = ascii "COMPLETED" then
    if result.errorCode ≠ [] ∨ result.errorMessage ≠ [] then none
    else some (object [(ascii "status",quote result.status)])
  else if result.status = ascii "FAILED" then
    some (object (optionalMember "errorCode" result.errorCode ++
      optionalMember "errorMessage" result.errorMessage ++ [(ascii "status",quote result.status)]))
  else none

def newSignResultRequest (result : IntentResult) : Option SignResultRequest :=
  (marshalSignResult result).map fun body => ⟨body,result.status⟩

structure SignResultOutcomeWire where
  authoritativeStatus : Bytes := []
  httpStatus : Int := 0
  outcome : Bytes := []
  deriving DecidableEq, Repr

def SignResultOutcomeWire.decoder : Decoder SignResultOutcomeWire := struct [
  field "authoritativeStatus" (·.authoritativeStatus)
    (fun s x => { s with authoritativeStatus := x }) string,
  field "httpStatus" (·.httpStatus) (fun s x => { s with httpStatus := x }) (int 64),
  field "outcome" (·.outcome) (fun s x => { s with outcome := x }) string]

/-- The errors of `PostSignResult` that its caller tells apart. -/
inductive PostFailure where
  | conflict (authoritativeStatus : Bytes)
  | other
  deriving DecidableEq, Repr

def parseSignResultOutcome (statusCode : Int) (body submittedStatus : Bytes) : Option PostFailure :=
  match decodeClosed SignResultOutcomeWire.decoder {} body with
  | none => some .other
  | some wire =>
    if wire.httpStatus ≠ statusCode then some .other
    else if statusCode = 200 then
      if wire.outcome ≠ ascii "ACCEPTED" ∧ wire.outcome ≠ ascii "EXACT_REPLAY" then some .other
      else if wire.authoritativeStatus ≠ submittedStatus ∨
          wire.authoritativeStatus ≠ ascii "COMPLETED" ∧ wire.authoritativeStatus ≠ ascii "FAILED" then
        some .other
      else none
    else if statusCode = 409 then
      if wire.outcome ≠ ascii "TERMINAL_CONFLICT" ∨ wire.authoritativeStatus ≠ ascii "COMPLETED" ∧
          wire.authoritativeStatus ≠ ascii "FAILED" ∧
          wire.authoritativeStatus ≠ ascii "TIMED_OUT" then some .other
      else some (.conflict wire.authoritativeStatus)
    else some .other

/-- The outcome of the one HTTP attempt. -/
inductive SignReply where
  | failed
  | replied (statusCode : Int) (body : Bytes)
  deriving DecidableEq, Repr

def maxTerminalResponseBytes : Nat := 8 * 1024

/-- `Client.PostSignResult` on the outcome of its attempt. -/
def SignResultRequest.read (request : SignResultRequest) : SignReply → Option PostFailure
  | .failed => some .other
  | .replied statusCode body =>
    if maxTerminalResponseBytes < body.length then some .other
    else if 500 ≤ statusCode then some .other
    else parseSignResultOutcome statusCode body request.status

/-- The backend has the result as it was sent, or names another that stands. -/
def SignResultRequest.resolves (request : SignResultRequest) (reply : SignReply) : Bool :=
  match request.read reply with
  | none | some (.conflict _) => true
  | some .other => false

/-- An answer that confirms the status sent, or a conflict that names a terminal one. -/
def SignResultRequest.Confirmed (request : SignResultRequest) (reply : SignReply) : Prop :=
  ∃ statusCode body wire, reply = .replied statusCode body ∧
    decodeClosed SignResultOutcomeWire.decoder {} body = some wire ∧ wire.httpStatus = statusCode ∧
    (statusCode = 200 ∧ wire.authoritativeStatus = request.status ∧
        wire.authoritativeStatus ∈ [ascii "COMPLETED",ascii "FAILED"] ∨
      statusCode = 409 ∧ wire.outcome = ascii "TERMINAL_CONFLICT" ∧
        wire.authoritativeStatus ∈ [ascii "COMPLETED",ascii "FAILED",ascii "TIMED_OUT"])

theorem parseSignResultOutcome_resolves {statusCode : Int} {body submitted : Bytes}
    (h : parseSignResultOutcome statusCode body submitted ≠ some .other) :
    ∃ wire, decodeClosed SignResultOutcomeWire.decoder {} body = some wire ∧
      wire.httpStatus = statusCode ∧
      (statusCode = 200 ∧ wire.authoritativeStatus = submitted ∧
          wire.authoritativeStatus ∈ [ascii "COMPLETED",ascii "FAILED"] ∨
        statusCode = 409 ∧ wire.outcome = ascii "TERMINAL_CONFLICT" ∧
          wire.authoritativeStatus ∈ [ascii "COMPLETED",ascii "FAILED",ascii "TIMED_OUT"]) := by
  unfold parseSignResultOutcome at h
  cases hdecode : decodeClosed SignResultOutcomeWire.decoder {} body with
  | none => simp [hdecode] at h
  | some wire =>
    simp only [hdecode] at h
    by_cases hstatus : wire.httpStatus = statusCode
    · refine ⟨wire,rfl,hstatus,?_⟩
      rw [if_neg (not_not.mpr hstatus)] at h
      by_cases hok : statusCode = 200
      · rw [if_pos hok] at h
        split at h
        · exact absurd rfl h
        · split at h
          · exact absurd rfl h
          · rename_i hsame
            obtain ⟨hsubmitted,hterminal⟩ := not_or.mp hsame
            refine .inl ⟨hok,not_not.mp hsubmitted,?_⟩
            simpa [not_and_or, -not_and] using hterminal
      · rw [if_neg hok] at h
        by_cases hconflict : statusCode = 409
        · rw [if_pos hconflict] at h
          split at h
          · exact absurd rfl h
          · rename_i hnamed
            obtain ⟨houtcome,hterminal⟩ := not_or.mp hnamed
            refine .inr ⟨hconflict,not_not.mp houtcome,?_⟩
            simpa [not_and_or, -not_and] using hterminal
        · rw [if_neg hconflict] at h
          exact absurd rfl h
    · rw [if_pos hstatus] at h
      exact absurd rfl h

theorem SignResultRequest.resolves_confirmed {request : SignResultRequest} {reply : SignReply}
    (h : request.resolves reply = true) : request.Confirmed reply := by
  have hread : request.read reply ≠ some .other := by
    intro hother
    simp [SignResultRequest.resolves, hother] at h
  cases reply with
  | failed => exact absurd rfl hread
  | replied statusCode body =>
    by_cases hlarge : maxTerminalResponseBytes < body.length
    · exact absurd (if_pos hlarge) hread
    · by_cases hserver : 500 ≤ statusCode
      · exact absurd ((if_neg hlarge).trans (if_pos hserver)) hread
      · have hparse : request.read (.replied statusCode body) =
            parseSignResultOutcome statusCode body request.status :=
          (if_neg hlarge).trans (if_neg hserver)
        rw [hparse] at hread
        obtain ⟨wire,hwire⟩ := parseSignResultOutcome_resolves hread
        exact ⟨statusCode,body,wire,rfl,hwire⟩

end CoSigner.Monolith
