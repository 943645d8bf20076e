import CoSigner.Approval.Records
import CoSigner.Lib.Attempt
import CoSigner.Lib.Store

/-! What the approval code asks of its surroundings: the journal directory, the journal's
mutex, the clock, the backend and the organization. Every call may fail in any way; what
is fixed is that files are only created, that a sync settles a file's content, and that a
directory sync makes files durable. -/
namespace CoSigner.Approval
open Contract

/-- The names that `CreateTemp` chooses for the pattern `.approval-tmp-*`. -/
def TempName (name : Bytes) : Prop :=
  ∃ digits : Bytes, name = ascii ".approval-tmp-" ++ digits ∧ digits.all Json.isDigit = true

abbrev TempFile := { name : Bytes // TempName name }

/-- A temporary file in the hands of the one call that writes it. -/
structure Draft where
  file : TempFile
  content : Bytes := []
  synced : Bool := false

inductive Op where
  /-- `Journal.mu`. -/
  | lock
  | unlock
  /-- `Journal.check`, which looks at the directory itself. -/
  | check
  /-- All that `probe` does to a file of its own before the last directory sync. -/
  | probe
  /-- `readJournalFile`. -/
  | read (name : Bytes)
  /-- `CreateTemp`, which chooses the name. -/
  | createTemp
  | chmod
  | write (draft : Draft) (raw : Bytes)
  | syncFile (draft : Draft)
  | closeFile
  | publish (draft : Draft) (name : Bytes)
  | syncDirectory
  | openScan
  | readName
  | closeScan
  | now
  | jitter (limit : Duration)
  | contextErr
  | pendingApprovals (cursor : Bytes)
  /-- `Organization.Evaluate` of a client for this endpoint. -/
  | evaluate (endpoint orgID : Bytes) (item : PendingItem)
  /-- The branch that approves without asking anyone. -/
  | autoApprove (orgID requestID : Bytes)
  /-- `SendApprovalDecision` of a receipt of this organization. -/
  | send (orgID requestID body : Bytes)

abbrev Answer : Op → Type
  | .lock => Unit
  | .unlock => Unit
  | .check => Option Err
  | .probe => Option Err
  | .read _ => Except Err Bytes
  | .createTemp => Except Err Draft
  | .chmod => Option Err
  | .write _ _ => Draft × Nat × Option Err
  | .syncFile _ => Draft × Option Err
  | .closeFile => Option Err
  | .publish _ _ => Option Err
  | .syncDirectory => Option Err
  | .openScan => Option Err
  | .readName => Except Err (Option Bytes)
  | .closeScan => Unit
  | .now => Time
  | .jitter _ => Duration
  | .contextErr => Option Err
  | .pendingApprovals _ => Except Err PendingPage
  | .evaluate _ _ _ => Except Err Json.Object
  | .autoApprove _ _ => Unit
  | .send _ _ _ => Except Err Bytes

/-- The calls that leave this process or decide without one. -/
inductive Event where
  | evaluated (endpoint orgID requestID authorizationHash : Bytes)
  | autoApproved (orgID requestID : Bytes)
  | sent (orgID requestID body : Bytes)
  deriving DecidableEq, Repr

/-- The records of the journal, the temporary files that were ever left beside them, and
what the process holds in memory. -/
structure World where
  directory : Directory
  temps : List TempFile := []
  locked : Bool := false
  /-- How many names the open directory scan has given. -/
  scanning : Option Nat := none
  events : List Event := []

namespace World

/-- What a call may answer and what it leaves behind. -/
def Performs : (o : Op) → World → Answer o → World → Prop
  | .lock, s, _, t => s.locked = false ∧ t = { s with locked := true }
  | .unlock, s, _, t => t = { s with locked := false }
  | .createTemp, s, .ok draft, t =>
    draft.content = [] ∧ t = { s with temps := draft.file :: s.temps }
  | .createTemp, s, .error _, t => t = s
  | .write draft raw, s, (draft',n,_), t =>
    draft' = { draft with content := draft.content ++ raw.take n, synced := false } ∧ t = s
  | .syncFile draft, s, (draft',e), t =>
    draft'.content = draft.content ∧ (e = none → draft'.synced = true) ∧ t = s
  | .read name, s, .ok raw, t =>
    (s.directory.Holds name raw ∨ ∃ temp ∈ s.temps, temp.val = name) ∧ t = s
  | .read name, s, .error e, t => (e.isA .notExist = true → s.directory name = none) ∧ t = s
  -- A file that was not synced may have any content once it is in place.
  | .publish draft name, s, r, t =>
    ∃ raw d, (draft.synced = true → raw = draft.content) ∧
      s.directory.Publishes name raw r.isNone d ∧ t = { s with directory := d }
  | .syncDirectory, s, r, t =>
    ∃ d, s.directory.Syncs r.isNone d ∧ t = { s with directory := d }
  | .probe, s, _, t => ∃ ok d, s.directory.Syncs ok d ∧ t = { s with directory := d }
  | .openScan, s, r, t => t = { s with
      scanning := s.scanning.or (if r.isNone then some 0 else none) }
  | .readName, s, _, t => t = { s with scanning := s.scanning.map (· + 1) }
  | .closeScan, s, _, t => t = { s with scanning := none }
  | .evaluate endpoint orgID item, s, _, t => t = { s with
      events := s.events ++ [.evaluated endpoint orgID item.requestID item.authorizationHash] }
  | .autoApprove orgID requestID, s, _, t =>
    t = { s with events := s.events ++ [.autoApproved orgID requestID] }
  | .send orgID requestID body, s, _, t =>
    t = { s with events := s.events ++ [.sent orgID requestID body] }
  | _, s, _, t => t = s

/-- The process is gone; the directory keeps what a crash keeps. -/
def Crash (s t : World) : Prop :=
  ∃ d, s.directory.Crash d ∧ t = { directory := d, temps := s.temps, events := s.events }

end World

/-- The calls that neither publish nor read a file nor leave the process. -/
def Op.quiet : Op → Bool
  | .read _ => false
  | .publish _ _ => false
  | .evaluate _ _ _ => false
  | .autoApprove _ _ => false
  | .send _ _ _ => false
  | _ => true

theorem World.Performs.quiet {o : Op} {s t : World} {r : Answer o} (h : World.Performs o s r t)
    (ho : o.quiet = true) :
    t.events = s.events ∧ ∃ ok, s.directory.Syncs ok t.directory := by
  cases o with
  | lock => exact ⟨by rw [h.2],false,by rw [h.2]; rfl⟩
  | createTemp =>
    cases r with
    | ok draft => exact ⟨by rw [h.2],false,by rw [h.2]; rfl⟩
    | error e => exact ⟨by rw [show t = _ from h],false,by rw [show t = _ from h]; rfl⟩
  | write draft raw => exact ⟨by rw [h.2],false,by rw [h.2]; rfl⟩
  | syncFile draft => exact ⟨by rw [h.2.2],false,by rw [h.2.2]; rfl⟩
  | syncDirectory =>
    obtain ⟨d,hd,rfl⟩ := h
    exact ⟨rfl,_,hd⟩
  | probe =>
    obtain ⟨ok,d,hd,rfl⟩ := h
    exact ⟨rfl,ok,hd⟩
  | read name => cases ho
  | publish draft name => cases ho
  | evaluate endpoint orgID item => cases ho
  | autoApprove orgID requestID => cases ho
  | send orgID requestID body => cases ho
  | _ => exact ⟨by rw [show t = _ from h],false,by rw [show t = _ from h]; rfl⟩

theorem World.Performs.grows {o : Op} {s t : World} {r : Answer o} (h : World.Performs o s r t) :
    s.directory.Grows t.directory := by
  by_cases ho : o.quiet = true
  · obtain ⟨-,ok,hsync⟩ := h.quiet ho
    exact hsync.grows
  · cases o with
    | read name => cases r <;> exact h.2 ▸ Directory.Grows.refl _
    | publish draft name =>
      obtain ⟨raw,d,-,hd,rfl⟩ := h
      exact hd.grows
    | evaluate endpoint orgID item => exact (show t = _ from h) ▸ Directory.Grows.refl _
    | autoApprove orgID requestID => exact (show t = _ from h) ▸ Directory.Grows.refl _
    | send orgID requestID body => exact (show t = _ from h) ▸ Directory.Grows.refl _
    | _ => exact absurd rfl ho

end CoSigner.Approval
