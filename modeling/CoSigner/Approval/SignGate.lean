import CoSigner.Approval.Journal
import CoSigner.Monolith.Types

/-! The gate in front of every signature: saved evidence, the prepared bytes, and then the
one execution that the evidence is bound to. -/
namespace CoSigner.Approval
open Json Contract SigningPolicy Monolith
variable (L : Libraries)

/-- What `Authorize` asks of the saved evidence. -/
def heldDecision (a : ApprovedExecution) (state : State) : Option Err :=
  match state.admission, state.receipt with
  | some admission, some saved =>
    if admission.authorizationHash != a.authorizationHash then some .integrity
    else if sameReceipt L saved.bytes a.decisionReceipt != some true then some .integrity
    else
      match parseReceipt L saved.bytes with
      | none => some .contract
      | some receipt =>
        if str receipt.envelope "decision" != ascii "APPROVED" then some .integrity
        else if state.application.isEmpty then some .applicationPending
        else
          match parseDecisionApplication L state.application with
          | none => some .contract
          | some application =>
            if str application "disposition" != ascii "APPLIED" then some .integrity else none
  | _, _ => some .integrity

/-- The members of an authorization that the payload repeats. -/
def payloadTerms (p : IntentPayload) : List (String × Bytes) :=
  [("orgId",p.orgID),("walletId",p.walletID),("keyId",p.keyID),
    ("derivationContextHash",p.derivationContextHash)]

/-- What `Authorize` asks of the payload beside the prepared bytes. -/
def authorizedPayload (p : IntentPayload) (auth : Object) : Bool :=
  (payloadTerms p).all (fun kw => str auth kw.1 == kw.2) &&
    match L.jcs (DerivationContext.marshal p.derivationContext) with
    | none => false
    | some context => context == (auth.get (ascii "derivationContext")).getD []

/-- The binding that `Authorize` asks for. -/
def executionBinding (i : Intent) (a : ApprovedExecution) : ExecutionBinding where
  version := 1
  orgID := i.payload.orgID
  requestID := a.requestID
  outgoingID := a.outgoingID
  authorizationHash := a.authorizationHash
  executionDigest := Base64.std.encode i.payload.digest
  payloadType := i.payload.signingPayloadType
  hashAlgorithm := i.payload.hashAlgorithm

/-- `VerifyPrepared` of an intent. -/
def verifyIntent (i : Intent) (a : ApprovedExecution) (p : PreparedTransfer) (now : Time) :
    Option Object :=
  verifyPrepared L a p i.payload.policyContext i.payload.digest i.payload.signingPayloadType
    i.payload.hashAlgorithm now

/-- `SignGate.Authorize`. -/
def authorize (i : Intent) : Action Unit := do
  Attempt.ensure (if i.version = 2 then none else some Err.prepared)
  match i.approval, i.prepared with
  | some a, some p =>
    Attempt.ensure (if a.outgoingID = i.intentID then none else some Err.prepared)
    let state ← load L i.payload.orgID a.requestID
    Attempt.ensure (heldDecision L a state)
    let now : Time ← Attempt.call Op.now
    match verifyIntent L i a p now with
    | none => throw .prepared
    | some auth =>
      Attempt.ensure (if authorizedPayload L i.payload auth then none else some Err.prepared)
      Attempt.ensure (if state.execution.any (· != executionBinding i a) then some Err.conflict
        else none)
      Attempt.ensure (← Attempt.call Op.contextErr)
      bindExecution L (executionBinding i a)
  | _, _ => throw .prepared

end CoSigner.Approval
