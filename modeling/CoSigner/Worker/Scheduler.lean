import CoSigner.Lib.Holding
import CoSigner.Lib.Team
import CoSigner.Worker.Intent

/-! Permits and reservations (`worker/permits.go`, `worker/scheduler.go`): any number of passes
of `dispatchBatch`, the sessions they launch and further calls of the release functions, over
every interleaving. A `Do` of a `sync.Once` around one channel operation or one locked region is
one step, since other callers wait for it. -/
namespace CoSigner.Worker
open Monolith

/-- The intent at an index of a pass. -/
abbrev Job (κ : Type) := κ × Nat

inductive Permit where
  | general | dkg
  deriving DecidableEq, Repr

structure SchedulerConfig where
  signingDisabled : Bool := false
  maxConcurrent : Int := 1

/-- The size of a pool: `NewScheduler` and `newPermitPool`. -/
def SchedulerConfig.capacity (cfg : SchedulerConfig) : Permit → Nat
  | .general => (max 1 cfg.maxConcurrent).toNat
  | .dkg => 1

inductive SchedulerOp (κ : Type) where
  /-- Whether the context has ended. -/
  | ctxErr
  | admissionOpen
  | provisioningReady
  /-- The locked region of `reserveIntentID`. -/
  | reserve (id : Bytes) (job : Job κ)
  /-- The release function of a reservation; whether it is the first call. -/
  | unreserve (id : Bytes) (job : Job κ)
  /-- `tryAcquire` of a pool. -/
  | take (pool : Permit) (job : Job κ)
  /-- `release` of a token; whether it is the first call. -/
  | give (pool : Permit) (job : Job κ)
  /-- `ObserveAdmission`. -/
  | observe (admitted : Bool) (job : Job κ)
  | launch (kind : IntentKind) (job : Job κ)
  | waitForClaimDispatch
  /-- The goroutine of a session begins. -/
  | begin
  /-- The session goes on; whether it calls `Release` now. -/
  | work
  /-- `runSessionWithClock` has returned. -/
  | ended
  /-- The `once` of a lease is entered and left; whether this caller is the first. -/
  | enter (job : Job κ)
  | leave (job : Job κ)
  /-- The lease that another caller has of a job. -/
  | lease (job : Job κ)
  | setAdmission (isOpen : Bool)

def SchedulerOp.Ans {κ : Type} : SchedulerOp κ → Type
  | .ctxErr | .admissionOpen | .provisioningReady | .reserve _ _ | .unreserve _ _ | .take _ _
  | .give _ _ | .waitForClaimDispatch | .work | .enter _ => Bool
  | .observe _ _ | .launch _ _ | .begin | .ended | .leave _ | .setAdmission _ => Unit
  | .lease _ => Option IntentKind

abbrev SchedulerProg (κ α : Type) := Prog (SchedulerOp κ) SchedulerOp.Ans α

abbrev SchedulerEvent (κ : Type) := Event (SchedulerOp κ) SchedulerOp.Ans

section
variable {κ : Type}

def ask (o : SchedulerOp κ) : SchedulerProg κ o.Ans := .perform o

/-- `permitToken.release`. -/
def releaseToken (pool : Permit) (job : Job κ) : SchedulerProg κ Unit := do
  let _ : Bool ← ask (.give pool job)

/-- `jobPermitLease.Release`. -/
def releaseLease (kind : IntentKind) (job : Job κ) : SchedulerProg κ Unit := do
  let first : Bool ← ask (.enter job)
  if first then do
    releaseToken .general job
    if kind = .dkg then releaseToken .dkg job
    let _ : Unit ← ask (.leave job)

/-- The function that `reserveIntentID` returns. -/
def releaseIntent (id : Bytes) (job : Job κ) : SchedulerProg κ Unit :=
  if id = [] then pure ()
  else do
    let _ : Bool ← ask (.unreserve id job)

def reserveIntentID (id : Bytes) (job : Job κ) : SchedulerProg κ Bool :=
  if id = [] then pure true else ask (.reserve id job)

/-- `tryAcquireDKG` and `tryAcquireSIGN`. -/
def tryAcquire (kind : IntentKind) (job : Job κ) : SchedulerProg κ Bool :=
  match kind with
  | .sign => ask (.take .general job)
  | .dkg => do
    let guarded : Bool ← ask (.take .dkg job)
    if guarded then do
      let general : Bool ← ask (.take .general job)
      if general then pure true
      else do
        releaseToken .dkg job
        pure false
    else pure false

/-- From the acquisition to the launch; whether the pass goes on. -/
def admitReserved (kind : IntentKind) (id : Bytes) (job : Job κ) : SchedulerProg κ Bool := do
  let acquired ← tryAcquire kind job
  let _ : Unit ← ask (.observe acquired job)
  if acquired then do
    let _ : Unit ← ask (.launch kind job)
    ask .waitForClaimDispatch
  else do
    releaseIntent id job
    pure true

def admitJob (kind : IntentKind) (id : Bytes) (job : Job κ) : SchedulerProg κ Bool := do
  let reserved ← reserveIntentID id job
  if reserved then admitReserved kind id job else pure true

/-- The body of the loop of `dispatchBatch`; whether the pass goes on, and `dkgConsidered`. -/
def considerJob (cfg : SchedulerConfig) (intent : Intent) (job : Job κ) (dkgConsidered : Bool) :
    SchedulerProg κ (Bool × Bool) :=
  match classifyIntentKind intent.type with
  | none => pure (true,dkgConsidered)
  | some .dkg =>
    if dkgConsidered then pure (true,true)
    else do
      let isOpen : Bool ← ask .admissionOpen
      if isOpen then do
        let ready : Bool ← ask .provisioningReady
        if ready then do
          let goes ← admitJob .dkg intent.intentID job
          pure (goes,true)
        else pure (true,true)
      else pure (true,true)
  | some .sign =>
    if cfg.signingDisabled then pure (true,dkgConsidered)
    else do
      let goes ← admitJob .sign intent.intentID job
      pure (goes,dkgConsidered)

def dispatchFrom (cfg : SchedulerConfig) (pass : κ) :
    List Intent → Nat → Bool → SchedulerProg κ Unit
  | [], _, _ => pure ()
  | intent :: intents, i, dkgConsidered => do
    let done : Bool ← ask .ctxErr
    if done then pure ()
    else do
      let (goes,dkgConsidered) ← considerJob cfg intent (pass,i) dkgConsidered
      if goes then dispatchFrom cfg pass intents (i + 1) dkgConsidered else pure ()

def dispatchBatch (cfg : SchedulerConfig) (pass : κ) (intents : List Intent) :
    SchedulerProg κ Unit :=
  dispatchFrom cfg pass intents 0 false

/-- A session that calls `Release` when it likes, cut off after some calls. -/
def runSession (kind : IntentKind) (job : Job κ) : Nat → SchedulerProg κ Unit
  | 0 => .halt
  | turns + 1 => do
    let releases : Bool ← ask .work
    if releases then do
      releaseLease kind job
      runSession kind job turns
    else releaseLease kind job

/-- The goroutine of `launchSession`. -/
def launchSession (kind : IntentKind) (id : Bytes) (job : Job κ) (turns : Nat) :
    SchedulerProg κ Unit := do
  let _ : Unit ← ask .begin
  runSession kind job turns
  let _ : Unit ← ask .ended
  releaseIntent id job

/-- A call from elsewhere. -/
inductive OutsideCall (κ : Type) where
  | release (job : Job κ)
  | releaseIntent (job : Job κ)
  | setAdmission (isOpen : Bool)

inductive SchedulerThread (κ ε : Type) where
  | pass (i : κ)
  | session (job : Job κ)
  | outside (i : ε)
  deriving DecidableEq

inductive OnceState where
  | fresh | running | done
  deriving DecidableEq, Repr

structure SchedulerState (κ : Type) where
  /-- The occupied slots. -/
  slots : Permit → Nat := fun _ => 0
  /-- The tokens that were released. -/
  returned : Permit → Job κ → Bool := fun _ _ => false
  leases : Job κ → Option IntentKind := fun _ => none
  leaseOnce : Job κ → OnceState := fun _ => .fresh
  inFlightIntentIDs : Bytes → Bool := fun _ => false
  /-- The reservations that were released. -/
  unreserved : Job κ → Bool := fun _ => false
  dkgAdmissionOpen : Bool := false

/-- What happens: the intents of each pass, how long the sessions run, and the calls from
elsewhere. -/
structure Workload (κ ε : Type) where
  cfg : SchedulerConfig
  passes : κ → List Intent
  turns : Job κ → Nat
  outside : ε → OutsideCall κ

def Workload.intent {ε : Type} (w : Workload κ ε) (job : Job κ) : Intent :=
  (w.passes job.1).getD job.2 {}

variable {ε : Type}

def outsideBody (w : Workload κ ε) : OutsideCall κ → SchedulerProg κ Unit
  | .release job => do
    let lease : Option IntentKind ← ask (.lease job)
    match lease with
    | none => pure ()
    | some kind => releaseLease kind job
  | .releaseIntent job => releaseIntent (w.intent job).intentID job
  | .setAdmission isOpen => do
    let _ : Unit ← ask (.setAdmission isOpen)

def schedulerBody (w : Workload κ ε) : SchedulerThread κ ε → SchedulerProg κ Unit
  | .pass i => dispatchBatch w.cfg i (w.passes i)
  | .session job =>
    match classifyIntentKind (w.intent job).type with
    | none => pure ()
    | some kind => launchSession kind (w.intent job).intentID job (w.turns job)
  | .outside i => outsideBody w (w.outside i)

end

section
variable {κ ε : Type} [DecidableEq κ]

namespace SchedulerState

def takeSlot (s : SchedulerState κ) (pool : Permit) : SchedulerState κ :=
  { s with slots := Function.update s.slots pool (s.slots pool + 1) }

def giveSlot (s : SchedulerState κ) (pool : Permit) (job : Job κ) : SchedulerState κ :=
  { s with
    slots := Function.update s.slots pool (s.slots pool - 1)
    returned := Function.update s.returned pool (Function.update (s.returned pool) job true) }

def reserveID (s : SchedulerState κ) (id : Bytes) : SchedulerState κ :=
  { s with inFlightIntentIDs := Function.update s.inFlightIntentIDs id true }

def unreserveID (s : SchedulerState κ) (id : Bytes) (job : Job κ) : SchedulerState κ :=
  { s with
    inFlightIntentIDs := Function.update s.inFlightIntentIDs id false
    unreserved := Function.update s.unreserved job true }

end SchedulerState

/-- The reservation was released by those that own it. -/
def OwnerReleased (s : SchedulerState κ) : SchedulerThread κ ε → Job κ → Prop
  | .outside _, job => s.unreserved job = true
  | _, _ => True

/-- What a step answers and does. Contexts, hints and sessions do what they like; a release
function of a reservation is called from elsewhere only after its owner has called it. -/
def schedulerSem (cfg : SchedulerConfig) (τ : SchedulerThread κ ε) :
    (o : SchedulerOp κ) → SchedulerState κ → o.Ans → SchedulerState κ → Prop
  | .admissionOpen, s, r, t => r = s.dkgAdmissionOpen ∧ t = s
  | .setAdmission isOpen, s, _, t => t = { s with dkgAdmissionOpen := isOpen }
  | .reserve id _, s, r, t =>
      r = !s.inFlightIntentIDs id ∧ t = if s.inFlightIntentIDs id then s else s.reserveID id
  | .unreserve id job, s, r, t => OwnerReleased s τ job ∧
      r = !s.unreserved job ∧ t = if s.unreserved job then s else s.unreserveID id job
  | .take pool _, s, r, t =>
      r = decide (s.slots pool < cfg.capacity pool) ∧
        t = if s.slots pool < cfg.capacity pool then s.takeSlot pool else s
  | .give pool job, s, r, t =>
      r = !s.returned pool job ∧
        if s.returned pool job then t = s else 0 < s.slots pool ∧ t = s.giveSlot pool job
  | .launch kind job, s, _, t => t = { s with leases := Function.update s.leases job (some kind) }
  | .begin, s, _, t => (∃ job, τ = .session job ∧ (s.leases job).isSome) ∧ t = s
  | .enter job, s, r, t => s.leaseOnce job ≠ .running ∧ r = decide (s.leaseOnce job = .fresh) ∧
      t = if s.leaseOnce job = .fresh then
        { s with leaseOnce := Function.update s.leaseOnce job .running } else s
  | .leave job, s, _, t => t = { s with leaseOnce := Function.update s.leaseOnce job .done }
  | .lease job, s, r, t => r = s.leases job ∧ t = s
  | .ctxErr, s, _, t | .provisioningReady, s, _, t | .observe _ _, s, _, t
  | .waitForClaimDispatch, s, _, t | .work, s, _, t | .ended, s, _, t => t = s

def scheduler (w : Workload κ ε) :
    Team (SchedulerThread κ ε) (SchedulerOp κ) SchedulerOp.Ans (SchedulerState κ) Unit where
  sem := schedulerSem w.cfg
  body := schedulerBody w

end

end CoSigner.Worker
