import CoSigner.Approval.World

/-! The approval journal: reading, publishing and the calls that other parts make. -/
namespace CoSigner.Approval
open Json Contract SigningPolicy
variable (L : Libraries)

/-- Journal code: it calls its surroundings and may end in an error. -/
abbrev Action := Attempt Op Answer Err

inductive Kind where
  | admission | receipt | ack | execution | executionKnown
  deriving DecidableEq, Repr

def Kind.text : Kind → String
  | .admission => "admission"
  | .receipt => "receipt"
  | .ack => "ack"
  | .execution => "execution"
  | .executionKnown => "execution-known"

/-- `digest`. -/
def digest (raw : Bytes) : Bytes := hash L raw

def recordKey (org request : Bytes) : Bytes := digest L (org ++ 0 :: request)

/-- `Journal.path`, inside the journal's directory. -/
def path (org request : Bytes) (kind : Kind) : Bytes :=
  recordKey L org request ++ ascii ("." ++ kind.text ++ ".json")

def check : Action Unit := do Attempt.ensure (← Attempt.call Op.check)

def syncDirectory : Action Unit := do Attempt.ensure (← Attempt.call Op.syncDirectory)

/-- `readJournalFile`. -/
def readFile (name : Bytes) : Action Bytes := do
  let r : Except Err Bytes ← Attempt.call (Op.read name)
  match r with
  | .ok raw => pure raw
  | .error e => throw e

def publishJournalFile (name raw : Bytes) : Action Unit := do
  let temp : Except Err Draft ← Attempt.call Op.createTemp
  match temp with
  | .error e => throw e
  | .ok draft => do
    Attempt.ensure (← Attempt.call Op.chmod)
    let (draft,n,e) : Draft × Nat × Option Err ← Attempt.call (Op.write draft raw)
    Attempt.ensure e
    Attempt.ensure (if n = raw.length then none else some Err.shortWrite)
    let (draft,e) : Draft × Option Err ← Attempt.call (Op.syncFile draft)
    Attempt.ensure e
    Attempt.ensure (← Attempt.call Op.closeFile)
    Attempt.ensure (← Attempt.call (Op.publish draft name))
    syncDirectory

/-- `Journal.publish`. -/
def publish (name raw : Bytes) : Action Unit := do
  check
  publishJournalFile name raw

/-- What `put` does when the name is taken: the same bytes are made durable. -/
def confirm (name raw : Bytes) : Action Unit := do
  let old ← readFile name
  if old = raw then syncDirectory else throw .conflict

/-- `Journal.put` of a marshalled record. -/
def put (name raw : Bytes) : Action Unit :=
  if raw.isEmpty || 32768 < raw.length then throw .integrity
  else tryCatch (publish name raw) fun e => if e.isA .exist then confirm name raw else throw e

/-- `Journal.read`: nothing if there is no such file. -/
def readRecord {σ : Type} (decode : Bytes → Option σ) (name : Bytes) : Action (Option σ) := do
  let r : Except Err Bytes ← Attempt.call (Op.read name)
  match r with
  | .error e => if e.isA .notExist then pure none else throw e
  | .ok raw =>
    match decode raw with
    | some r => pure (some r)
    | none => throw .integrity

def loadAdmission (org request : Bytes) : Action (Option Admission) := do
  match ← readRecord decodeAdmission (path L org request .admission) with
  | none => pure none
  | some a =>
    if a.orgID = org ∧ a.requestID = request ∧ a.validate = true then pure (some a)
    else throw .integrity

def loadReceipt (org request : Bytes) (admission : Option Admission) :
    Action (Option SavedReceipt) := do
  match ← readRecord decodeReceipt (path L org request .receipt) with
  | none => pure none
  | some r =>
    match admission with
    | none => throw .integrity
    | some a =>
      match validateReceipt L a r with
      | .ok () => pure (some r)
      | .error _ => throw .integrity

/-- What `loadAcknowledgement` checks of a record. -/
def validAck (org request : Bytes) (receipt : SavedReceipt) (ack : DeliveryAck) : Bool :=
  ack.version == 1 && ack.orgID == org && ack.requestID == request &&
    ack.receiptHash == digest L receipt.bytes

def loadAcknowledgement (org request : Bytes) (receipt : Option SavedReceipt) : Action Bytes := do
  match ← readRecord decodeAcknowledgement (path L org request .ack) with
  | none => pure []
  | some ack =>
    match receipt with
    | none => throw .integrity
    | some r =>
      if validAck L org request r ack then
        match validateApplication L ack.application request with
        | .ok () => pure ack.application
        | .error e => throw e
      else throw .integrity

/-- What `loadExecution` checks of the guard record. -/
def validKnown (org request : Bytes) (state : State) (raw : Bytes) (known : ExecutionKnown) : Bool :=
  known.version == 1 && known.orgID == org && known.requestID == request &&
    state.admission.any (fun a => known.authorizationHash == a.authorizationHash) &&
    known.bindingHash == digest L raw

def loadExecution (org request : Bytes) (state : State) : Action (Option ExecutionBinding) := do
  let execution ← readRecord decodeExecution (path L org request .execution)
  let known ← readRecord decodeExecutionKnown (path L org request .executionKnown)
  match execution, known with
  | none, none => pure none
  | some execution, some known =>
    if validateExecution L state execution then do
      let raw ← readFile (path L org request .execution)
      if validKnown L org request state raw known then pure (some execution) else throw .integrity
    else throw .integrity
  | _, _ => throw .integrity

/-- `loadStateLocked`. -/
def loadState (org request : Bytes) : Action State := do
  Attempt.ensure (if validReference org && validReference request then none else some Err.integrity)
  check
  let admission ← loadAdmission L org request
  let receipt ← loadReceipt L org request admission
  let application ← loadAcknowledgement L org request receipt
  let execution ← loadExecution L org request ⟨admission,receipt,application,none⟩
  syncDirectory
  pure ⟨admission,receipt,application,execution⟩

/-- `j.mu.Lock()` with the deferred unlock. -/
def locked {α : Type} (p : Action α) : Action α := ExceptT.mk do
  Prog.perform Op.lock
  let r ← p.run
  Prog.perform Op.unlock
  pure r

/-- `Journal.Load`. -/
def load (org request : Bytes) : Action State := locked (loadState L org request)

/-- `Journal.Admit`. -/
def journalAdmit (admission : Admission) : Action Unit := locked do
  Attempt.ensure (if admission.validate then none else some Err.integrity)
  let state ← loadState L admission.orgID admission.requestID
  match state.admission with
  | some old =>
    if equalJSON old { admission with admittedAt := old.admittedAt } then pure ()
    else throw .conflict
  | none =>
    put (path L admission.orgID admission.requestID .admission) (admissionSchema.marshal admission)

/-- `Journal.SaveReceipt`. -/
def saveReceipt (receipt : SavedReceipt) : Action Unit := locked do
  let state ← loadState L receipt.orgID receipt.requestID
  match state.admission with
  | none => throw .integrity
  | some a =>
    match validateReceipt L a receipt with
    | .error e => throw e
    | .ok () =>
      put (path L receipt.orgID receipt.requestID .receipt) (receiptSchema.marshal receipt)

/-- `Journal.Acknowledge`. -/
def acknowledge (org request application : Bytes) : Action Unit := locked do
  let state ← loadState L org request
  match state.receipt with
  | none => throw .integrity
  | some r =>
    match validateApplication L application request with
    | .error e => throw e
    | .ok () =>
      put (path L org request .ack)
        (acknowledgementSchema.marshal ⟨1,org,request,digest L r.bytes,application⟩)

/-- `Journal.BindExecution`. -/
def bindExecution (execution : ExecutionBinding) : Action Unit := locked do
  let state ← loadState L execution.orgID execution.requestID
  if validateExecution L state execution then do
    let raw := executionSchema.marshal execution
    put (path L execution.orgID execution.requestID .executionKnown)
      (executionKnownSchema.marshal ⟨1,execution.orgID,execution.requestID,
        execution.authorizationHash,digest L raw⟩)
    put (path L execution.orgID execution.requestID .execution) raw
  else throw .integrity

/-- `Journal.probe`, the part of `OpenJournal` that touches the directory. -/
def probe : Action Unit := do
  Attempt.ensure (← Attempt.call Op.probe)
  syncDirectory

/-- What `PendingReceipts` does with one name: the receipt, if it still has to be delivered. -/
def pendingRecord (name : Bytes) : Action (Option SavedReceipt) := do
  let raw ← readFile name
  match decodeReceipt raw with
  | none => throw .integrity
  | some receipt =>
    if name = path L receipt.orgID receipt.requestID .receipt then do
      let state ← loadState L receipt.orgID receipt.requestID
      pure (if state.application.isEmpty then state.receipt else none)
    else throw .integrity

/-- `errors.Join` of what was joined before and one more error. -/
def joinErr (err : Option Err) (e : Err) : Err :=
  match err with
  | none => e
  | some f => f.join e

def isReceiptName (name : Bytes) : Bool := (ascii ".receipt.json").isSuffixOf name

/-- The loop of `PendingReceipts`: at most one receipt, and the errors of the others. -/
def scanReceipts : Nat → Option Err → Action (Option SavedReceipt × Option Err)
  | 0, err => pure (none,err)
  | n + 1, err => do
    let r : Except Err (Option Bytes) ← Attempt.call Op.readName
    match r with
    | .error e => throw e
    | .ok none => do
      let _ : Unit ← Attempt.call Op.closeScan
      pure (none,err)
    | .ok (some name) =>
      if isReceiptName name then do
        let found ← tryCatch (do pure (Except.ok (← pendingRecord L name)))
          fun e => pure (Except.error e)
        match found with
        | .ok (some receipt) => pure (some receipt,err)
        | .ok none => scanReceipts n err
        | .error e => scanReceipts n (some (joinErr err e))
      else scanReceipts n err

/-- `Journal.PendingReceipts`. -/
def pendingReceipts (limit : Int) : Action (Option SavedReceipt × Option Err) := locked do
  Attempt.ensure (if 1 ≤ limit ∧ limit ≤ 1000 then none else some Err.integrity)
  check
  Attempt.ensure (← Attempt.call Op.openScan)
  scanReceipts L limit.toNat none

end CoSigner.Approval
