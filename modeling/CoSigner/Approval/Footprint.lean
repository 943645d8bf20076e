import CoSigner.Approval.Dispatcher

/-! The calls that the journal's code makes: it stays within its directory, and publishes only
the file that a call is about. -/
namespace CoSigner.Approval
open Json Contract
variable {L : Libraries} {names : Bytes → Prop}

/-- Calls on the journal's directory that publish no file but those of `names`. -/
def FileCall (names : Bytes → Prop) : Op → Prop
  | .publish _ name => names name
  | .lock | .unlock | .check | .read _ | .createTemp | .chmod | .write _ _ | .syncFile _
  | .closeFile | .syncDirectory | .openScan | .readName | .closeScan => True
  | _ => False

theorem check_only : check.Only (FileCall names) :=
  Attempt.only_bind (Attempt.only_call trivial) Attempt.only_ensure

theorem syncDirectory_only : syncDirectory.Only (FileCall names) :=
  Attempt.only_bind (Attempt.only_call trivial) Attempt.only_ensure

theorem readFile_only (name : Bytes) : (readFile name).Only (FileCall names) := by
  refine Attempt.only_bind (Attempt.only_call trivial) ?_
  intro (r : Except Err Bytes)
  cases r with
  | ok raw => exact Attempt.only_pure raw
  | error e => exact Attempt.only_throw e

theorem publish_only {name : Bytes} (h : names name) (raw : Bytes) :
    (publish name raw).Only (FileCall names) := by
  refine Attempt.only_bind check_only fun _ => ?_
  refine Attempt.only_bind (Attempt.only_call trivial) ?_
  intro (temp : Except Err Draft)
  cases temp with
  | error e => exact Attempt.only_throw e
  | ok draft =>
    refine Attempt.only_bind (Attempt.only_call trivial) fun _ => ?_
    refine Attempt.only_bind (Attempt.only_ensure _) fun _ => ?_
    refine Attempt.only_bind (Attempt.only_call trivial) fun _ => ?_
    refine Attempt.only_bind (Attempt.only_ensure _) fun _ => ?_
    refine Attempt.only_bind (Attempt.only_ensure _) fun _ => ?_
    refine Attempt.only_bind (Attempt.only_call trivial) fun _ => ?_
    refine Attempt.only_bind (Attempt.only_ensure _) fun _ => ?_
    refine Attempt.only_bind (Attempt.only_call trivial) fun _ => ?_
    refine Attempt.only_bind (Attempt.only_ensure _) fun _ => ?_
    refine Attempt.only_bind (Attempt.only_call h) fun _ => ?_
    refine Attempt.only_bind (Attempt.only_ensure _) fun _ => ?_
    exact syncDirectory_only

theorem confirm_only (name raw : Bytes) : (confirm name raw).Only (FileCall names) := by
  refine Attempt.only_bind (readFile_only name) fun old => ?_
  show Attempt.Only _ (if old = raw then _ else _)
  split
  · exact syncDirectory_only
  · exact Attempt.only_throw _

theorem put_only (name raw : Bytes) (h : names name) :
    (put name raw).Only (FileCall names) := by
  unfold put
  split
  · exact Attempt.only_throw _
  · refine Attempt.only_tryCatch (publish_only h raw) fun e => ?_
    split
    · exact confirm_only name raw
    · exact Attempt.only_throw e

theorem readRecord_only {σ : Type} (decode : Bytes → Option σ) (name : Bytes) :
    (readRecord decode name).Only (FileCall names) := by
  refine Attempt.only_bind (Attempt.only_call trivial) ?_
  intro (r : Except Err Bytes)
  cases r with
  | error e =>
    show Attempt.Only _ (if e.isA .notExist = true then _ else _)
    split
    · exact Attempt.only_pure _
    · exact Attempt.only_throw e
  | ok raw =>
    dsimp only
    cases decode raw with
    | none => exact Attempt.only_throw _
    | some r => exact Attempt.only_pure _

theorem loadAdmission_only (org request : Bytes) :
    (loadAdmission L org request).Only (FileCall names) := by
  refine Attempt.only_bind (readRecord_only _ _) fun found => ?_
  cases found with
  | none => exact Attempt.only_pure _
  | some a =>
    show Attempt.Only _ (if _ then _ else _)
    split
    · exact Attempt.only_pure _
    · exact Attempt.only_throw _

theorem loadReceipt_only (org request : Bytes) (admission : Option Admission) :
    (loadReceipt L org request admission).Only (FileCall names) := by
  refine Attempt.only_bind (readRecord_only _ _) fun found => ?_
  cases found with
  | none => exact Attempt.only_pure _
  | some r =>
    cases admission with
    | none => exact Attempt.only_throw _
    | some a =>
      dsimp only
      cases validateReceipt L a r with
      | error e => exact Attempt.only_throw _
      | ok _ => exact Attempt.only_pure _

theorem loadAcknowledgement_only (org request : Bytes) (receipt : Option SavedReceipt) :
    (loadAcknowledgement L org request receipt).Only (FileCall names) := by
  refine Attempt.only_bind (readRecord_only _ _) fun found => ?_
  cases found with
  | none => exact Attempt.only_pure _
  | some ack =>
    cases receipt with
    | none => exact Attempt.only_throw _
    | some r =>
      show Attempt.Only _ (if validAck L org request r ack = true then _ else _)
      split
      · cases validateApplication L ack.application request with
        | error e => exact Attempt.only_throw _
        | ok _ => exact Attempt.only_pure _
      · exact Attempt.only_throw _

theorem loadExecution_only (org request : Bytes) (state : State) :
    (loadExecution L org request state).Only (FileCall names) := by
  refine Attempt.only_bind (readRecord_only _ _) fun execution => ?_
  refine Attempt.only_bind (readRecord_only _ _) fun known => ?_
  cases execution with
  | none =>
    cases known with
    | none => exact Attempt.only_pure _
    | some known => exact Attempt.only_throw _
  | some execution =>
    cases known with
    | none => exact Attempt.only_throw _
    | some known =>
      show Attempt.Only _ (if validateExecution L state execution = true then _ else _)
      split
      · refine Attempt.only_bind (readFile_only _) fun raw => ?_
        show Attempt.Only _ (if validKnown L org request state raw known = true then _ else _)
        split
        · exact Attempt.only_pure _
        · exact Attempt.only_throw _
      · exact Attempt.only_throw _

theorem loadState_only (org request : Bytes) : (loadState L org request).Only (FileCall names) := by
  refine Attempt.only_bind (Attempt.only_ensure _) fun _ => ?_
  refine Attempt.only_bind check_only fun _ => ?_
  refine Attempt.only_bind (loadAdmission_only org request) fun admission => ?_
  refine Attempt.only_bind (loadReceipt_only org request admission) fun receipt => ?_
  refine Attempt.only_bind (loadAcknowledgement_only org request receipt) fun application => ?_
  refine Attempt.only_bind (loadExecution_only org request _) fun execution => ?_
  refine Attempt.only_bind syncDirectory_only fun _ => ?_
  exact Attempt.only_pure _

theorem locked_only {α : Type} {p : Action α} (hp : p.Only (FileCall names)) :
    (locked p).Only (FileCall names) := by
  refine Prog.only_bind (Prog.only_perform trivial) fun _ => ?_
  refine Prog.only_bind hp fun r => ?_
  exact Prog.only_bind (Prog.only_perform trivial) fun _ => trivial

theorem load_only (org request : Bytes) : (load L org request).Only (FileCall names) :=
  locked_only (loadState_only org request)

theorem acknowledge_only (org request application : Bytes)
    (h : names (path L org request .ack)) :
    (acknowledge L org request application).Only (FileCall names) := by
  refine locked_only (Attempt.only_bind (loadState_only org request) fun state => ?_)
  split
  · exact Attempt.only_throw _
  · split
    · exact Attempt.only_throw _
    · generalize acknowledgementSchema.marshal _ = raw
      exact put_only _ _ h

theorem pendingRecord_only (name : Bytes) : (pendingRecord L name).Only (FileCall names) := by
  refine Attempt.only_bind (readFile_only name) fun raw => ?_
  cases decodeReceipt raw with
  | none => exact Attempt.only_throw _
  | some receipt =>
    show Attempt.Only _ (if name = path L receipt.orgID receipt.requestID .receipt then _ else _)
    split
    · exact Attempt.only_bind (loadState_only _ _) fun state => Attempt.only_pure _
    · exact Attempt.only_throw _

theorem scanReceipts_only (n : Nat) (err : Option Err) :
    (scanReceipts L n err).Only (FileCall names) := by
  induction n generalizing err with
  | zero => exact Attempt.only_pure _
  | succ n ih =>
    refine Attempt.only_bind (Attempt.only_call trivial) ?_
    intro (r : Except Err (Option Bytes))
    cases r with
    | error e => exact Attempt.only_throw e
    | ok name =>
      cases name with
      | none => exact Attempt.only_bind (Attempt.only_call trivial) fun _ => Attempt.only_pure _
      | some name =>
        show Attempt.Only _ (if isReceiptName name = true then _ else _)
        split
        · refine Attempt.only_bind (Attempt.only_tryCatch
            (Attempt.only_bind (pendingRecord_only name) fun _ => Attempt.only_pure _)
            fun _ => Attempt.only_pure _) ?_
          intro found
          cases found with
          | error e => exact ih _
          | ok receipt =>
            cases receipt with
            | none => exact ih _
            | some receipt => exact Attempt.only_pure _
        · exact ih err

theorem pendingReceipts_only (limit : Int) : (pendingReceipts L limit).Only (FileCall names) := by
  refine locked_only (Attempt.only_bind (Attempt.only_ensure _) fun _ => ?_)
  refine Attempt.only_bind check_only fun _ => ?_
  refine Attempt.only_bind (Attempt.only_call trivial) fun _ => ?_
  exact Attempt.only_bind (Attempt.only_ensure _) fun _ => scanReceipts_only _ _

end CoSigner.Approval
