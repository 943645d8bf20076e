import CoSigner.Approval.Journal
import CoSigner.Lib.Strings

/-! The dispatcher (`approval/dispatcher.go`): it asks for decisions, signs and saves them,
and delivers what is saved. One step is one program; what the dispatcher remembers between
steps is passed along. -/
namespace CoSigner.Approval
open Json Contract
variable (L : Libraries)

/-- The part of `Config` that the dispatcher reads. -/
structure Config where
  mode : Bytes
  endpoint : Bytes
  bearerToken : Bytes
  minInterval : Duration
  maxInterval : Duration
  timeout : Duration
  /-- The ceiling of a delay after so many attempts, which is computed in floating point. -/
  ceiling : Nat → Duration

/-- `Config.Validate`, without the checks on the journal's path and the backoff factor. -/
def Config.validate (c : Config) : Bool :=
  (c.mode == externalMode || c.mode == autoApproveMode) &&
    0 < c.minInterval && c.minInterval ≤ c.maxInterval && 0 < c.timeout &&
    (c.mode != externalMode || validEndpoint c.endpoint &&
      Strings.trimSpace c.bearerToken != [] &&
      !c.bearerToken.any fun b => b == 0x0D || b == 0x0A)

structure SuppressionKey where
  orgID : Bytes
  requestID : Bytes
  savedReceipt : Bool
  deriving DecidableEq, Repr

/-- The zero value. -/
def noKey : SuppressionKey := ⟨[],[],false⟩

structure Suppression where
  attempts : Nat := 0
  until_ : Time := 0
  sequence : UInt64 := 0
  deriving DecidableEq, Repr

/-- An identified Ed25519 key, as `NewDispatcher` accepts it. -/
structure SigningKey where
  id : Bytes
  key : Bytes
  reference : validReference id = true
  size : key.length = 64

structure Dispatcher where
  cfg : Config
  valid : cfg.validate = true
  signing : SigningKey
  cursor : Bytes := []
  backoff : List (SuppressionKey × Suppression) := []
  sequence : UInt64 := 0
  recoveryTurn : Bool := false

/-- `NewDispatcher`. -/
def newDispatcher (c : Config) (keyID key : Bytes) : Option Dispatcher :=
  if hc : c.validate = true then
    if hid : validReference keyID = true then
      if hkey : key.length = 64 then some { cfg := c, valid := hc, signing := ⟨keyID,key,hid,hkey⟩ }
      else none
    else none
  else none

/-- `math.MaxUint64`. -/
def maxUint64 : UInt64 := 0xFFFFFFFFFFFFFFFF

/-- The number that the next entry has to be below in the loops over the table. -/
def order : Option (SuppressionKey × Suppression) → UInt64
  | none => maxUint64
  | some best => best.2.sequence

/-- One turn of these loops. -/
def earlier (best : Option (SuppressionKey × Suppression)) (e : SuppressionKey × Suppression) :
    Option (SuppressionKey × Suppression) :=
  if e.2.sequence < order best then some e else best

/-- Code of the dispatcher; errors are returned beside what it remembers. -/
abbrev DispatchProg := Prog Op Answer

namespace Dispatcher

def find (d : Dispatcher) (key : SuppressionKey) : Option Suppression :=
  (d.backoff.find? fun e => e.1 == key).map Prod.snd

def forget (d : Dispatcher) (key : SuppressionKey) : Dispatcher :=
  { d with backoff := d.backoff.filter fun e => e.1 != key }

def due (d : Dispatcher) (key : SuppressionKey) : DispatchProg Bool :=
  match d.find key with
  | none => pure true
  | some s => do
    let now : Time ← Prog.perform Op.now
    pure (decide (s.until_ ≤ now))

/-- The entry of a fresh evaluation with the smallest sequence number. -/
def oldestFresh (d : Dispatcher) : Option SuppressionKey :=
  ((d.backoff.filter fun e => !e.1.savedReceipt).foldl earlier none).map Prod.fst

def suppress (d : Dispatcher) (key : SuppressionKey) : DispatchProg Dispatcher := do
  let s := (d.find key).getD {}
  let attempts := if s.attempts < 1024 then s.attempts + 1 else s.attempts
  let now : Time ← Prog.perform Op.now
  let delay : Duration ← Prog.perform (Op.jitter (d.cfg.ceiling attempts))
  let s : Suppression := ⟨attempts,now + delay,d.sequence + 1⟩
  let d := { d with sequence := d.sequence + 1 }
  if (d.find key).isNone && 1000 ≤ d.backoff.length then
    let oldest := d.oldestFresh.getD noKey
    if oldest = noKey then pure d
    else
      let d := d.forget oldest
      pure { d with backoff := d.backoff ++ [(key,s)] }
  else pure { d with backoff := (d.backoff.filter fun e => e.1 != key) ++ [(key,s)] }

/-- `deliveryHints`. -/
def deliveryHints (d : Dispatcher) : Nat := (d.backoff.filter fun e => e.1.savedReceipt).length

/-- The envelope of a decision, as `json.Marshal` writes a map. -/
def envelope (d : Dispatcher) (a : Admission) (response : Object) (now : Time) : Option Bytes := do
  let reference ← compact ((response.get (ascii "decisionReference")).getD [])
  let reason ← compact ((response.get (ascii "reason")).getD [])
  some (object [(ascii "audience",quote (ascii "brosettlement-transfer-approval")),
    (ascii "authorizationHash",quote a.authorizationHash),
    (ascii "decidedAt",quote (Time.formatMillis now)),
    (ascii "decision",quote (str response "status")),
    (ascii "domain",quote (ascii "brosettlement.co-signer.approval-decision")),
    (ascii "externalDecisionReference",reference),
    (ascii "orgId",quote a.orgID),
    (ascii "reason",reason),
    (ascii "requestId",quote a.requestID),
    (ascii "signingKeyId",quote d.signing.id),
    (ascii "source",quote a.mode),
    (ascii "version",intLiteral 1)])

/-- `Dispatcher.receipt`. -/
def receipt (d : Dispatcher) (a : Admission) (response : Object) (now : Time) : Option Bytes := do
  let raw ← d.envelope a response now
  let raw ← L.jcs raw
  let _ ← parseDecisionEnvelope L raw
  let signature := L.ed25519Sign d.signing.key (decisionDomain ++ raw)
  some (object [(ascii "envelopeBase64",quote (Base64.std.encode raw)),
    (ascii "signatureBase64",quote (Base64.std.encode signature)),
    (ascii "version",intLiteral 1)])

/-- The receipt with what it was made for. -/
def saved (d : Dispatcher) (a : Admission) (raw : Bytes) : SavedReceipt where
  version := 1
  orgID := a.orgID
  requestID := a.requestID
  authorizationHash := a.authorizationHash
  signingKeyID := d.signing.id
  publicKey := L.ed25519Public d.signing.key
  bytes := raw

def terminalConflict : Err :=
  ⟨[],ascii "approval decision terminal conflict; reconcile saved evidence"⟩

def capacityExhausted : Err :=
  ⟨[],ascii "approval delivery retry capacity exhausted; new evaluations suspended"⟩

def deliver (d : Dispatcher) (r : SavedReceipt) : DispatchProg (Dispatcher × Option Err) := do
  let key : SuppressionKey := ⟨r.orgID,r.requestID,true⟩
  let answer : Except Err Bytes ← Prog.perform (Op.send r.orgID r.requestID r.bytes)
  match answer with
  | .error e =>
    let d ← d.suppress key
    pure (d,some e)
  | .ok application =>
    match ← (acknowledge L r.orgID r.requestID application).run with
    | .error e =>
      let d ← d.suppress key
      pure (d,some e)
    | .ok () =>
      let d := d.forget key
      match parseDecisionApplication L application with
      | none => pure (d,some .contract)
      | some parsed =>
        if str parsed "disposition" = ascii "TERMINAL_CONFLICT" then pure (d,some terminalConflict)
        else pure (d,none)

/-- What `process` answers without asking anyone. -/
def approved : Object :=
  [(ascii "status",ascii "\"APPROVED\""),(ascii "reason",ascii "null"),
    (ascii "decisionReference",ascii "null")]

/-- The end of `process`: a decision is signed, saved and delivered. -/
def conclude (d : Dispatcher) (a : Admission) (response : Object) :
    DispatchProg (Dispatcher × Option Err) := do
  let now : Time ← Prog.perform Op.now
  match d.receipt L a response now with
  | none => pure (d,some .contract)
  | some raw =>
    match ← (saveReceipt L (d.saved L a raw)).run with
    | .error e => pure (d,some e)
    | .ok () => deliver L (d.forget ⟨a.orgID,a.requestID,false⟩) (d.saved L a raw)

/-- The part of `process` after the request was found to be new and due. -/
def evaluate (d : Dispatcher) (orgID : Bytes) (item : PendingItem) :
    DispatchProg (Dispatcher × Option Err) := do
  let key : SuppressionKey := ⟨orgID,item.requestID,false⟩
  let endpoint := if d.cfg.mode = externalMode then some d.cfg.endpoint else none
  let now : Time ← Prog.perform Op.now
  let a : Admission := ⟨1,orgID,item.requestID,item.authorizationHash,d.cfg.mode,endpoint,
    Time.formatMillis now⟩
  match ← (journalAdmit L a).run with
  | .error e => pure (d,some e)
  | .ok () =>
    if a.mode = externalMode then do
      let answer : Except Err Object ← Prog.perform (Op.evaluate d.cfg.endpoint orgID item)
      match answer with
      | .error e =>
        let d ← d.suppress key
        pure (d,some e)
      | .ok response =>
        if str response "status" = ascii "PENDING" then do
          let d ← d.suppress key
          pure (d,none)
        else conclude L d a response
    else do
      let _ : Unit ← Prog.perform (Op.autoApprove orgID item.requestID)
      conclude L d a approved

def process (d : Dispatcher) (item : PendingItem) : DispatchProg (Dispatcher × Option Err) :=
  match item.organizationID L with
  | none => pure (d,some .contract)
  | some orgID => do
    match ← (load L orgID item.requestID).run with
    | .error e => pure (d,some e)
    | .ok state =>
      if state.admission.any fun a => a.authorizationHash != item.authorizationHash then
        pure (d,some .conflict)
      else
        match state.receipt with
        | some r =>
          if state.application.isEmpty then do
            if ← d.due ⟨orgID,item.requestID,true⟩ then deliver L d r else pure (d,none)
          else pure (d,none)
        | none =>
          if 1000 ≤ d.deliveryHints then pure (d,some capacityExhausted)
          else do
            if ← d.due ⟨orgID,item.requestID,false⟩ then evaluate L d orgID item else pure (d,none)

/-- The due entry of a saved receipt with the smallest sequence number. -/
def dueHint (d : Dispatcher) : List (SuppressionKey × Suppression) →
    Option (SuppressionKey × Suppression) → DispatchProg (Option (SuppressionKey × Suppression))
  | [], best => pure best
  | e :: es, best =>
    if e.1.savedReceipt then do
      if ← d.due e.1 then dueHint d es (earlier best e) else dueHint d es best
    else dueHint d es best

/-- `retrySavedHint`: whether a delivery was attempted, and its error. -/
def retrySavedHint (d : Dispatcher) : DispatchProg (Dispatcher × Bool × Option Err) := do
  match ← d.dueHint d.backoff none with
  | none => pure (d,false,none)
  | some (key,_) =>
    match ← (load L key.orgID key.requestID).run with
    | .error e =>
      let d ← d.suppress key
      pure (d,true,some e)
    | .ok state =>
      match state.receipt with
      | none =>
        let d ← d.suppress key
        pure (d,true,some .integrity)
      | some r =>
        if state.application.isEmpty then do
          let (d,e) ← deliver L d r
          pure (d,true,e)
        else pure (d.forget key,false,none)

def joinErrs (e f : Option Err) : Option Err :=
  match f with
  | none => e
  | some f => some (joinErr e f)

/-- The part of `recoverSaved` that goes through the journal. -/
def recoverScanned (d : Dispatcher) : DispatchProg (Dispatcher × Option Err) := do
  let found : Except Err (Option SavedReceipt × Option Err) ← (pendingReceipts L 50).run
  let (receipt,result) : Option SavedReceipt × Option Err :=
    match found with
    | .error e => (none,some e)
    | .ok r => r
  let attempt : Bool ←
    match receipt with
    | none => pure false
    | some r => d.due ⟨r.orgID,r.requestID,true⟩
  match receipt, attempt with
  | some r, true => do
    let (d,e) ← deliver L d r
    pure (d,joinErrs result e)
  | _, _ => do
    let (d,_,e) ← retrySavedHint L d
    pure (d,joinErrs result e)

def recoverSaved (d : Dispatcher) : DispatchProg (Dispatcher × Option Err) := do
  let d := { d with recoveryTurn := !d.recoveryTurn }
  if d.recoveryTurn then do
    let (d,attempted,e) ← retrySavedHint L d
    if attempted || e.isSome then pure (d,e) else recoverScanned L d
  else recoverScanned L d

/-- The items of a page one after the other. -/
def processItems (d : Dispatcher) (result : Option Err) : List PendingItem →
    DispatchProg (Dispatcher × Option Err × Bool)
  | [] => pure (d,result,true)
  | item :: items => do
    let ctx : Option Err ← Prog.perform Op.contextErr
    match ctx with
    | some e => pure (d,joinErrs result (some e),false)
    | none =>
      let (d,e) ← process L d item
      processItems d (joinErrs result e) items

/-- `Dispatcher.Step`. -/
def step (d : Dispatcher) : DispatchProg (Dispatcher × Option Err) := do
  let ctx : Option Err ← Prog.perform Op.contextErr
  match ctx with
  | some e => pure (d,some e)
  | none =>
    let (d,result) ← recoverSaved L d
    let answer : Except Err PendingPage ← Prog.perform (Op.pendingApprovals d.cursor)
    match answer with
    | .error e =>
      let d := if e.isA .invalidApprovalCursor then { d with cursor := [] } else d
      pure (d,joinErrs result (some e))
    | .ok page =>
      match page.marshal with
      | none => pure (d,joinErrs result (some .contract))
      | some raw =>
        match parsePendingPage L raw with
        | none => pure (d,joinErrs result (some .contract))
        | some () =>
          if 50 < (page.items.getD []).length then pure (d,joinErrs result (some .integrity))
          else do
            let (d,result,finished) ← processItems L d result (page.items.getD [])
            let d := if finished then { d with cursor := page.nextCursor.getD [] } else d
            pure (d,result)

end Dispatcher
end CoSigner.Approval
