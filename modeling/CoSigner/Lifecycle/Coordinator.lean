import CoSigner.Lib.Interleaving

/-! The process lifecycle: `Coordinator.Start`, the `publicationDone` callback it
hands to the terminal publisher, `Shutdown` and the `abortStartup` run by a failing
`Start`. Acquiring and releasing the mutex, every dependency call and every access
to the readiness snapshot is one step. -/
namespace CoSigner.Lifecycle
open Interleaving

/-- `health.Reason`. -/
inductive Reason where
  | none | capabilityDeferred | dkgTerminalUnconfirmed | provisioningUnavailable
  deriving DecidableEq, Repr

/-- `health.Snapshot`; the default value is the zero snapshot. -/
structure Snapshot where
  processReady : Bool := false
  signingReady : Bool := false
  provisioningReady : Bool := false
  provisioningReason : Reason := .none
  deriving DecidableEq, Repr

/-- `reconcile.Disposition`; `terminalPublicationRequired` records whether the
result carries its immutable job. -/
inductive Disposition where
  | eligible
  | terminalPublicationRequired (job : Bool)
  | capabilityDeferred
  | freshPollRequired
  | protocolIntegrity
  | unsupported
  deriving DecidableEq, Repr

/-- Where an error returned by `Start` or `Shutdown` comes from. -/
inductive Failure where
  | alreadyStarted | acquireLock | openCapabilities | startPublisher | reconcile | context
  | missingJob | handoff | protocolIntegrity | unsupportedDisposition | startIntake
  | stopIntake | drain | closeCapabilities | closeLock
  deriving DecidableEq, Repr

/-- `Dependencies`: the flags, and the answers reconciliation (`none` for an error)
and each readiness probe may give. -/
structure Dependencies where
  signingDisabled : Bool
  hasSigningReady : Bool
  reconcile : Option Disposition → Prop
  signingReady : Bool → Prop
  provisioningReady : Bool → Prop
  hasReportDrainError : Bool

/-- `c.deps.SigningReady == nil || c.deps.SigningReady()`. -/
def Dependencies.SigningAnswer (deps : Dependencies) (ready : Bool) : Prop :=
  if deps.hasSigningReady then deps.signingReady ready else ready = true

/-- A call of a dependency, with what it was given or whether it succeeded. -/
inductive Event where
  | setAdmission (isOpen : Bool)
  | acquireLock (ok : Bool)
  | openCapabilities (ok : Bool)
  | startPublisher (ok : Bool)
  | reconcile (result : Option Disposition)
  | handoff
  | startScheduler
  | startIntake (ok : Bool)
  | wakeScheduler
  | stopIntake
  | cancel
  | drain
  | reportDrainError
  | waitPublisher
  | closeCapabilities
  | closeLock
  deriving DecidableEq, Repr

/-- Program points of `shutdown(ctx, stopIntake)`. -/
inductive DownPc where
  | setReadiness | stopIntake | cancel | drain | reportDrainError | waitPublisher
  | closeCapabilities | closeLock
  deriving DecidableEq, Repr

/-- Program points of `Start`, named after the action that comes next. -/
inductive StartPc where
  | lock | enter | refuse | proceed
  | acquireLock | openCapabilities | startPublisher | reconcile | pollAgain
  | latchLock | latch | latchUnlock
  | setAdmission (d : Disposition) (isOpen : Bool)
  | handoff | handedOff
  | startScheduler (d : Disposition)
  | startIntake (d : Disposition)
  | signingReady (d : Disposition)
  | provisioning (d : Disposition) (signing : Bool)
  | readLock (d : Disposition) (signing : Bool)
  | readConfirmed (d : Disposition) (signing : Bool)
  | readUnlock (d : Disposition) (signing confirmed : Bool)
  | setReadiness (d : Disposition) (snapshot : Snapshot)
  | finishLock | finish | finishUnlock
  | abortLock | abortStop | abortAdmission | abortUnlock
  | down (pc : DownPc)
  | returned | failed
  deriving DecidableEq, Repr

/-- Program points of `publicationDone` for a nil publication error. -/
inductive CallbackPc where
  | idle
  | lock | check | leave | confirmUnlock
  | setAdmission
  | lockAgain | checkAgain | leaveAgain
  | snapshot
  | provisioning (snapshot : Snapshot)
  | set (snapshot : Snapshot)
  | wake | unlock
  | returned
  deriving DecidableEq, Repr

/-- Program points of `Shutdown`. -/
inductive ShutdownPc where
  | idle
  | lock | check | leave | stop | setAdmission | unlock
  | down (pc : DownPc)
  | returned
  deriving DecidableEq, Repr

inductive Thread where
  | start | callback | shutdown
  deriving DecidableEq, Repr

/-- The coordinator's fields, the readiness value, the calls made so far and the
program point of each thread. -/
structure State where
  mu : Option Thread := none
  lock : Bool := false
  capabilities : Bool := false
  cancel : Bool := false
  cancelled : Bool := false
  started : Bool := false
  stopping : Bool := false
  latched : Bool := false
  confirmed : Bool := false
  readiness : Snapshot := {}
  calls : List Event := []
  startErr : List Failure := []
  shutdownErr : List Failure := []
  start : StartPc := .lock
  callback : CallbackPc := .idle
  shutdown : ShutdownPc := .idle
  deriving DecidableEq, Repr

def State.call (s : State) (e : Event) : State := { s with calls := s.calls ++ [e] }

/-- The values passed to `SetDKGAdmissionOpen`, in order. -/
def State.admissions (s : State) : List Bool :=
  s.calls.filterMap fun
    | .setAdmission isOpen => some isOpen
    | _ => none

/-- `Start` returns an error: the deferred function runs `abortStartup` first. -/
def State.fail (s : State) (f : Failure) : State :=
  { s with startErr := s.startErr ++ [f], start := .abortLock }

/-- The snapshot `Start` publishes once provisioning has been decided. -/
def provisioned (deps : Dependencies) (signing provisioning : Bool) : Snapshot where
  processReady := signing
  signingReady := signing && !deps.signingDisabled
  provisioningReady := signing && provisioning
  provisioningReason := if signing && provisioning then .none else .provisioningUnavailable

/-- The snapshot `Start` publishes with provisioning withheld for `reason`. -/
def withheld (deps : Dependencies) (signing : Bool) (reason : Reason) : Snapshot where
  processReady := signing
  signingReady := signing && !deps.signingDisabled
  provisioningReady := false
  provisioningReason := reason

/-- What `publicationDone` makes of the snapshot it has read. -/
def Snapshot.confirm (snapshot : Snapshot) (provisioning : Bool) : Snapshot :=
  { snapshot with
    provisioningReady := snapshot.processReady && provisioning
    provisioningReason :=
      if snapshot.processReady && provisioning then .none else .provisioningUnavailable }

/-- One action of `shutdown(ctx, stopIntake)`: the next program point (`none` when it
returns) and the errors it collects. -/
inductive DownStep (deps : Dependencies) (stopIntake : Bool) :
    DownPc → State → Option DownPc → List Failure → State → Prop
  | setReadiness (s : State) :
      DownStep deps stopIntake .setReadiness s
        (some (if stopIntake then .stopIntake else .cancel)) [] { s with readiness := {} }
  | stopIntake (s : State) (ok : Bool) :
      DownStep deps stopIntake .stopIntake s (some .cancel)
        (if ok then [] else [.stopIntake]) (s.call .stopIntake)
  | cancel (s : State) (h : s.cancel = true) :
      DownStep deps stopIntake .cancel s (some .drain) []
        { s.call .cancel with cancelled := true }
  | noCancel (s : State) (h : s.cancel = false) :
      DownStep deps stopIntake .cancel s (some .drain) [] s
  | drain (s : State) :
      DownStep deps stopIntake .drain s (some .waitPublisher) [] (s.call .drain)
  | drainFailed (s : State) :
      DownStep deps stopIntake .drain s
        (some (if deps.hasReportDrainError then .reportDrainError else .waitPublisher))
        [.drain] (s.call .drain)
  | reportDrainError (s : State) :
      DownStep deps stopIntake .reportDrainError s (some .waitPublisher) []
        (s.call .reportDrainError)
  | waitPublisher (s : State) :
      DownStep deps stopIntake .waitPublisher s (some .closeCapabilities) []
        (s.call .waitPublisher)
  | closeCapabilities (s : State) (h : s.capabilities = true) (ok : Bool) :
      DownStep deps stopIntake .closeCapabilities s (some .closeLock)
        (if ok then [] else [.closeCapabilities])
        { s.call .closeCapabilities with capabilities := false }
  | noCapabilities (s : State) (h : s.capabilities = false) :
      DownStep deps stopIntake .closeCapabilities s (some .closeLock) [] s
  | closeLock (s : State) (h : s.lock = true) (ok : Bool) :
      DownStep deps stopIntake .closeLock s none (if ok then [] else [.closeLock])
        { s.call .closeLock with lock := false }
  | noLock (s : State) (h : s.lock = false) :
      DownStep deps stopIntake .closeLock s none [] s

/-- Where `Start` goes once reconciliation has answered: the first `switch`. -/
def afterReconcile : Disposition → StartPc
  | .eligible => .setAdmission .eligible true
  | .capabilityDeferred => .latchLock
  | .terminalPublicationRequired true => .setAdmission (.terminalPublicationRequired true) false
  | .freshPollRequired => .pollAgain
  | _ => .abortLock

/-- The error of the dispositions `Start` refuses. -/
def dispositionFailure : Disposition → List Failure
  | .terminalPublicationRequired false => [.missingJob]
  | .protocolIntegrity => [.protocolIntegrity]
  | .unsupported => [.unsupportedDisposition]
  | _ => []

/-- Where `Start` goes after its own admission call. -/
def afterAdmission : Disposition → StartPc
  | .terminalPublicationRequired _ => .handoff
  | d => .startScheduler d

/-- Where `Start` goes once signing readiness is known: the second `switch`. -/
def afterSigning (deps : Dependencies) (d : Disposition) (signing : Bool) : StartPc :=
  match d with
  | .eligible =>
    if signing then .provisioning d signing else .setReadiness d (provisioned deps false false)
  | .capabilityDeferred => .setReadiness d (withheld deps signing .capabilityDeferred)
  | .terminalPublicationRequired _ => .readLock d signing
  | _ => .setReadiness d (withheld deps signing .none)

/-- Where `Start` goes once it has read `confirmed`: provisioning is only probed when
signing is ready, as `signingReady && c.deps.ProvisioningReady()` does. -/
def afterConfirmed (deps : Dependencies) (d : Disposition) (signing confirmed : Bool) : StartPc :=
  if confirmed then
    if signing then .provisioning d signing else .setReadiness d (provisioned deps false false)
  else .setReadiness d (withheld deps signing .dkgTerminalUnconfirmed)

/-- One action of `Start`. -/
inductive StartStep (deps : Dependencies) : State → State → Prop
  | lock (s : State) (h : s.start = .lock) (hm : s.mu = none) :
      StartStep deps s { s with mu := some .start, start := .enter }
  | refuse (s : State) (h : s.start = .enter) (hs : s.started = true ∨ s.cancel = true) :
      StartStep deps s { s with start := .refuse }
  | enter (s : State) (h : s.start = .enter) (hs : s.started = false) (hc : s.cancel = false) :
      StartStep deps s { s with cancel := true, start := .proceed }
  | refuseUnlock (s : State) (h : s.start = .refuse) :
      StartStep deps s
        { s with mu := none, startErr := s.startErr ++ [.alreadyStarted], start := .failed }
  | proceed (s : State) (h : s.start = .proceed) :
      StartStep deps s { s with mu := none, start := .acquireLock }
  | acquireLock (s : State) (h : s.start = .acquireLock) (closer : Bool) :
      StartStep deps s { s.call (.acquireLock true) with lock := closer, start := .openCapabilities }
  | acquireLockFailed (s : State) (h : s.start = .acquireLock) (closer : Bool) :
      StartStep deps s (({ s.call (.acquireLock false) with lock := closer }).fail .acquireLock)
  | openCapabilities (s : State) (h : s.start = .openCapabilities) (closer : Bool) :
      StartStep deps s
        { s.call (.openCapabilities true) with capabilities := closer, start := .startPublisher }
  | openCapabilitiesFailed (s : State) (h : s.start = .openCapabilities) (closer : Bool) :
      StartStep deps s
        (({ s.call (.openCapabilities false) with capabilities := closer }).fail .openCapabilities)
  | startPublisher (s : State) (h : s.start = .startPublisher) :
      StartStep deps s { s.call (.startPublisher true) with start := .reconcile }
  | startPublisherFailed (s : State) (h : s.start = .startPublisher) :
      StartStep deps s ((s.call (.startPublisher false)).fail .startPublisher)
  | reconcile (s : State) (h : s.start = .reconcile) (d : Disposition)
      (ha : deps.reconcile (some d)) :
      StartStep deps s
        { s.call (.reconcile (some d)) with
          startErr := s.startErr ++ dispositionFailure d, start := afterReconcile d }
  | reconcileFailed (s : State) (h : s.start = .reconcile) (ha : deps.reconcile none) :
      StartStep deps s ((s.call (.reconcile none)).fail .reconcile)
  | pollAgain (s : State) (h : s.start = .pollAgain) (hc : s.cancelled = false) :
      StartStep deps s { s with start := .reconcile }
  | pollCancelled (s : State) (h : s.start = .pollAgain) :
      StartStep deps s (s.fail .context)
  | latchLock (s : State) (h : s.start = .latchLock) (hm : s.mu = none) :
      StartStep deps s { s with mu := some .start, start := .latch }
  | latch (s : State) (h : s.start = .latch) :
      StartStep deps s { s with latched := true, start := .latchUnlock }
  | latchUnlock (s : State) (h : s.start = .latchUnlock) :
      StartStep deps s { s with mu := none, start := .setAdmission .capabilityDeferred false }
  | setAdmission (s : State) (d : Disposition) (isOpen : Bool) (h : s.start = .setAdmission d isOpen) :
      StartStep deps s { s.call (.setAdmission isOpen) with start := afterAdmission d }
  | handoff (s : State) (h : s.start = .handoff) (hc : s.callback = .idle) :
      StartStep deps s { s.call .handoff with callback := .lock, start := .handedOff }
  | handedOff (s : State) (h : s.start = .handedOff) :
      StartStep deps s { s with start := .startScheduler (.terminalPublicationRequired true) }
  | handoffFailed (s : State) (h : s.start = .handedOff) :
      StartStep deps s (s.fail .handoff)
  | startScheduler (s : State) (d : Disposition) (h : s.start = .startScheduler d) :
      StartStep deps s { s.call .startScheduler with start := .startIntake d }
  | startIntake (s : State) (d : Disposition) (h : s.start = .startIntake d) :
      StartStep deps s { s.call (.startIntake true) with start := .signingReady d }
  | startIntakeFailed (s : State) (d : Disposition) (h : s.start = .startIntake d) :
      StartStep deps s ((s.call (.startIntake false)).fail .startIntake)
  | signingReady (s : State) (d : Disposition) (signing : Bool) (h : s.start = .signingReady d)
      (ha : deps.SigningAnswer signing) :
      StartStep deps s { s with start := afterSigning deps d signing }
  | provisioning (s : State) (d : Disposition) (signing ready : Bool)
      (h : s.start = .provisioning d signing) (ha : deps.provisioningReady ready) :
      StartStep deps s { s with start := .setReadiness d (provisioned deps signing ready) }
  | readLock (s : State) (d : Disposition) (signing : Bool) (h : s.start = .readLock d signing)
      (hm : s.mu = none) :
      StartStep deps s { s with mu := some .start, start := .readConfirmed d signing }
  | readConfirmed (s : State) (d : Disposition) (signing : Bool)
      (h : s.start = .readConfirmed d signing) :
      StartStep deps s { s with start := .readUnlock d signing s.confirmed }
  | readUnlock (s : State) (d : Disposition) (signing confirmed : Bool)
      (h : s.start = .readUnlock d signing confirmed) :
      StartStep deps s { s with mu := none, start := afterConfirmed deps d signing confirmed }
  | setReadiness (s : State) (d : Disposition) (snapshot : Snapshot)
      (h : s.start = .setReadiness d snapshot) :
      StartStep deps s { s with readiness := snapshot, start := .finishLock }
  | finishLock (s : State) (h : s.start = .finishLock) (hm : s.mu = none) :
      StartStep deps s { s with mu := some .start, start := .finish }
  | finish (s : State) (h : s.start = .finish) :
      StartStep deps s { s with started := true, start := .finishUnlock }
  | finishUnlock (s : State) (h : s.start = .finishUnlock) :
      StartStep deps s { s with mu := none, start := .returned }
  | abortLock (s : State) (h : s.start = .abortLock) (hm : s.mu = none) :
      StartStep deps s { s with mu := some .start, start := .abortStop }
  | abortStop (s : State) (h : s.start = .abortStop) :
      StartStep deps s { s with stopping := true, start := .abortAdmission }
  | abortAdmission (s : State) (h : s.start = .abortAdmission) :
      StartStep deps s { s.call (.setAdmission false) with start := .abortUnlock }
  | abortUnlock (s : State) (h : s.start = .abortUnlock) :
      StartStep deps s { s with mu := none, start := .down .setReadiness }
  | down (s t : State) (pc pc' : DownPc) (errs : List Failure) (h : s.start = .down pc)
      (hd : DownStep deps false pc s (some pc') errs t) :
      StartStep deps s { t with startErr := t.startErr ++ errs, start := .down pc' }
  | downReturn (s t : State) (pc : DownPc) (errs : List Failure) (h : s.start = .down pc)
      (hd : DownStep deps false pc s none errs t) :
      StartStep deps s { t with startErr := t.startErr ++ errs, start := .failed }

/-- One action of `publicationDone`, which the publisher may call from inside
`Handoff` or at any later time. Its `ProcessReady && ProvisioningReady()` only
probes a ready process. -/
inductive CallbackStep (deps : Dependencies) : State → State → Prop
  | lock (s : State) (h : s.callback = .lock) (hm : s.mu = none) :
      CallbackStep deps s { s with mu := some .callback, callback := .check }
  | leave (s : State) (h : s.callback = .check) (hs : s.stopping = true ∨ s.latched = true) :
      CallbackStep deps s { s with callback := .leave }
  | confirm (s : State) (h : s.callback = .check) (hs : s.stopping = false)
      (hl : s.latched = false) :
      CallbackStep deps s { s with confirmed := true, callback := .confirmUnlock }
  | leaveUnlock (s : State) (h : s.callback = .leave) :
      CallbackStep deps s { s with mu := none, callback := .returned }
  | confirmUnlock (s : State) (h : s.callback = .confirmUnlock) :
      CallbackStep deps s { s with mu := none, callback := .setAdmission }
  | setAdmission (s : State) (h : s.callback = .setAdmission) :
      CallbackStep deps s { s.call (.setAdmission true) with callback := .lockAgain }
  | lockAgain (s : State) (h : s.callback = .lockAgain) (hm : s.mu = none) :
      CallbackStep deps s { s with mu := some .callback, callback := .checkAgain }
  | leaveAgain (s : State) (h : s.callback = .checkAgain)
      (hs : s.stopping = true ∨ s.latched = true) :
      CallbackStep deps s { s with callback := .leaveAgain }
  | checkAgain (s : State) (h : s.callback = .checkAgain) (hs : s.stopping = false)
      (hl : s.latched = false) :
      CallbackStep deps s { s with callback := .snapshot }
  | leaveAgainUnlock (s : State) (h : s.callback = .leaveAgain) :
      CallbackStep deps s { s with mu := none, callback := .returned }
  | snapshot (s : State) (h : s.callback = .snapshot) :
      CallbackStep deps s
        { s with
          callback :=
            if s.readiness.processReady then .provisioning s.readiness
            else .set (s.readiness.confirm false) }
  | provisioning (s : State) (snapshot : Snapshot) (ready : Bool)
      (h : s.callback = .provisioning snapshot) (ha : deps.provisioningReady ready) :
      CallbackStep deps s { s with callback := .set (snapshot.confirm ready) }
  | set (s : State) (snapshot : Snapshot) (h : s.callback = .set snapshot) :
      CallbackStep deps s { s with readiness := snapshot, callback := .wake }
  | wake (s : State) (h : s.callback = .wake) :
      CallbackStep deps s { s.call .wakeScheduler with callback := .unlock }
  | unlock (s : State) (h : s.callback = .unlock) :
      CallbackStep deps s { s with mu := none, callback := .returned }

/-- One action of `Shutdown`; it may be called at any time. -/
inductive ShutdownStep (deps : Dependencies) : State → State → Prop
  | begin (s : State) (h : s.shutdown = .idle) :
      ShutdownStep deps s { s with shutdown := .lock }
  | lock (s : State) (h : s.shutdown = .lock) (hm : s.mu = none) :
      ShutdownStep deps s { s with mu := some .shutdown, shutdown := .check }
  | leave (s : State) (h : s.shutdown = .check) (hs : s.stopping = true) :
      ShutdownStep deps s { s with shutdown := .leave }
  | check (s : State) (h : s.shutdown = .check) (hs : s.stopping = false) :
      ShutdownStep deps s { s with shutdown := .stop }
  | leaveUnlock (s : State) (h : s.shutdown = .leave) :
      ShutdownStep deps s { s with mu := none, shutdown := .returned }
  | stop (s : State) (h : s.shutdown = .stop) :
      ShutdownStep deps s { s with stopping := true, shutdown := .setAdmission }
  | setAdmission (s : State) (h : s.shutdown = .setAdmission) :
      ShutdownStep deps s { s.call (.setAdmission false) with shutdown := .unlock }
  | unlock (s : State) (h : s.shutdown = .unlock) :
      ShutdownStep deps s { s with mu := none, shutdown := .down .setReadiness }
  | down (s t : State) (pc pc' : DownPc) (errs : List Failure) (h : s.shutdown = .down pc)
      (hd : DownStep deps true pc s (some pc') errs t) :
      ShutdownStep deps s { t with shutdownErr := t.shutdownErr ++ errs, shutdown := .down pc' }
  | downReturn (s t : State) (pc : DownPc) (errs : List Failure) (h : s.shutdown = .down pc)
      (hd : DownStep deps true pc s none errs t) :
      ShutdownStep deps s { t with shutdownErr := t.shutdownErr ++ errs, shutdown := .returned }

/-- The program points between `c.mu.Lock()` and `c.mu.Unlock()`. -/
def StartPc.locked : StartPc → Bool
  | .enter | .refuse | .proceed | .latch | .latchUnlock => true
  | .readConfirmed _ _ | .readUnlock _ _ _ | .finish | .finishUnlock => true
  | .abortStop | .abortAdmission | .abortUnlock => true
  | _ => false

def CallbackPc.locked : CallbackPc → Bool
  | .check | .leave | .confirmUnlock | .checkAgain | .leaveAgain => true
  | .snapshot | .provisioning _ | .set _ | .wake | .unlock => true
  | _ => false

def ShutdownPc.locked : ShutdownPc → Bool
  | .check | .leave | .stop | .setAdmission | .unlock => true
  | _ => false

/-- The coordinator: `Start`, one publication callback and `Shutdown`. -/
def coordinator (deps : Dependencies) : Threads State Thread where
  step
    | .start => StartStep deps
    | .callback => CallbackStep deps
    | .shutdown => ShutdownStep deps
  holds i s := s.mu = some i

/-- The mutex is owned exactly by the thread inside a locked region. -/
structure MutexInv (s : State) : Prop where
  start : s.start.locked = true ↔ s.mu = some .start
  callback : s.callback.locked = true ↔ s.mu = some .callback
  shutdown : s.shutdown.locked = true ↔ s.mu = some .shutdown

/-- `shutdown` touches neither the mutex, the flags, admission nor a program point. -/
theorem DownStep.frame {deps : Dependencies} {stopIntake : Bool} {pc : DownPc} {s t : State}
    {next : Option DownPc} {errs : List Failure} (h : DownStep deps stopIntake pc s next errs t) :
    t.mu = s.mu ∧ t.stopping = s.stopping ∧ t.latched = s.latched ∧ t.confirmed = s.confirmed ∧
      t.started = s.started ∧ t.start = s.start ∧ t.callback = s.callback ∧
      t.shutdown = s.shutdown ∧ t.admissions = s.admissions := by
  cases h <;> simp [State.call, State.admissions]

@[simp] theorem afterReconcile_unlocked (d : Disposition) : (afterReconcile d).locked = false := by
  cases d with
  | terminalPublicationRequired job => cases job <;> rfl
  | _ => rfl

@[simp] theorem afterAdmission_unlocked (d : Disposition) : (afterAdmission d).locked = false := by
  cases d <;> rfl

@[simp] theorem afterSigning_unlocked (deps : Dependencies) (d : Disposition) (signing : Bool) :
    (afterSigning deps d signing).locked = false := by
  cases d <;> cases signing <;> rfl

@[simp] theorem afterConfirmed_unlocked (deps : Dependencies) (d : Disposition)
    (signing confirmed : Bool) : (afterConfirmed deps d signing confirmed).locked = false := by
  cases signing <;> cases confirmed <;> rfl

theorem StartStep.mutexInv {deps : Dependencies} {s t : State} (h : StartStep deps s t)
    (hs : MutexInv s) : MutexInv t := by
  obtain ⟨hst,hcb,hsh⟩ := hs
  cases h with
  | down t pc pc' errs h hd =>
    obtain ⟨hm,-,-,-,-,-,hc,hd,-⟩ := hd.frame
    constructor <;> simp_all [StartPc.locked]
  | downReturn t pc errs h hd =>
    obtain ⟨hm,-,-,-,-,-,hc,hd,-⟩ := hd.frame
    constructor <;> simp_all [StartPc.locked]
  | reconcile h d ha =>
    have hmu : s.mu ≠ some .start := by simpa [h, StartPc.locked] using hst
    constructor <;> simp_all [State.call]
  | setAdmission d isOpen h =>
    have hmu : s.mu ≠ some .start := by simpa [h, StartPc.locked] using hst
    constructor <;> simp_all [State.call]
  | signingReady d signing h ha =>
    have hmu : s.mu ≠ some .start := by simpa [h, StartPc.locked] using hst
    constructor <;> simp_all
  | readUnlock d signing confirmed h =>
    have hmu : s.mu = some .start := by simpa [h, StartPc.locked] using hst
    constructor <;> simp_all
  | handoff h hc => constructor <;> simp_all [State.call, StartPc.locked, CallbackPc.locked]
  | _ => constructor <;> simp_all [State.call, State.fail, StartPc.locked]

theorem CallbackStep.mutexInv {deps : Dependencies} {s t : State} (h : CallbackStep deps s t)
    (hs : MutexInv s) : MutexInv t := by
  obtain ⟨hst,hcb,hsh⟩ := hs
  cases h with
  | snapshot h => cases hp : s.readiness.processReady <;> constructor <;> simp_all [CallbackPc.locked]
  | _ => constructor <;> simp_all [State.call, CallbackPc.locked]

theorem ShutdownStep.mutexInv {deps : Dependencies} {s t : State} (h : ShutdownStep deps s t)
    (hs : MutexInv s) : MutexInv t := by
  obtain ⟨hst,hcb,hsh⟩ := hs
  cases h with
  | down t pc pc' errs h hd =>
    obtain ⟨hm,-,-,-,-,hs,hc,-,-⟩ := hd.frame
    constructor <;> simp_all [ShutdownPc.locked]
  | downReturn t pc errs h hd =>
    obtain ⟨hm,-,-,-,-,hs,hc,-,-⟩ := hd.frame
    constructor <;> simp_all [ShutdownPc.locked]
  | _ => constructor <;> simp_all [State.call, ShutdownPc.locked]

theorem step_mutexInv {deps : Dependencies} (i : Thread) {s t : State}
    (hs : MutexInv s) (h : (coordinator deps).step i s t) : MutexInv t := by
  cases i with
  | start => exact StartStep.mutexInv h hs
  | callback => exact CallbackStep.mutexInv h hs
  | shutdown => exact ShutdownStep.mutexInv h hs

theorem mutexInv_initial : MutexInv {} := by
  constructor <;> simp [StartPc.locked, CallbackPc.locked, ShutdownPc.locked]

/-- A coordinator is started once: the only error of `Start` that skips
`abortStartup` cannot occur. -/
structure FreshInv (s : State) : Prop where
  fresh : s.start = .lock ∨ s.start = .enter → s.cancel = false ∧ s.started = false
  refuse : s.start ≠ .refuse

theorem afterReconcile_cases (d : Disposition) :
    d = .eligible ∨ afterReconcile d = .latchLock ∨ afterReconcile d = .pollAgain ∨
      afterReconcile d = .abortLock ∨
      afterReconcile d = .setAdmission (.terminalPublicationRequired true) false := by
  cases d with
  | terminalPublicationRequired job => cases job <;> simp [afterReconcile]
  | _ => simp [afterReconcile]

theorem StartStep.freshInv {deps : Dependencies} {s t : State} (h : StartStep deps s t)
    (hs : FreshInv s) : FreshInv t := by
  obtain ⟨hf,hr⟩ := hs
  cases h with
  | refuse h hc =>
    obtain ⟨h1,h2⟩ := hf (.inr h)
    simp [h1, h2] at hc
  | lock h hm => exact ⟨fun _ => hf (.inl h),by simp⟩
  | reconcile h d ha =>
    obtain rfl | hd | hd | hd | hd := afterReconcile_cases d
    · exact ⟨by simp [afterReconcile],by simp [afterReconcile]⟩
    all_goals exact ⟨by simp [hd],by simp [hd]⟩
  | setAdmission d isOpen h =>
    cases d <;> exact ⟨by simp [afterAdmission],by simp [afterAdmission]⟩
  | signingReady d signing h ha =>
    cases d <;> cases signing <;> exact ⟨by simp [afterSigning],by simp [afterSigning]⟩
  | readUnlock d signing confirmed h =>
    cases signing <;> cases confirmed <;>
      exact ⟨by simp [afterConfirmed],by simp [afterConfirmed]⟩
  | _ => exact ⟨by simp [State.fail],by simp [State.fail]⟩

theorem step_freshInv {deps : Dependencies} (i : Thread) {s t : State}
    (hs : FreshInv s) (h : (coordinator deps).step i s t) : FreshInv t := by
  obtain ⟨hf,hr⟩ := hs
  cases i with
  | start => exact StartStep.freshInv h ⟨hf,hr⟩
  | callback => cases h <;> exact ⟨hf,hr⟩
  | shutdown =>
    cases h with
    | down t pc pc' errs h hd =>
      cases hd <;> exact ⟨hf,hr⟩
    | downReturn t pc errs h hd =>
      cases hd <;> exact ⟨hf,hr⟩
    | _ => exact ⟨hf,hr⟩

end CoSigner.Lifecycle
