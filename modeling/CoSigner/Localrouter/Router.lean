import CoSigner.Errors
import CoSigner.Lib.Team
import CoSigner.Localrouter.Validation

/-! The local router (`localrouter/router.go`): its methods and its receiver as programs over
the state of one router. A locked region is one step, and so is a `sync.Once` around a single
locked region or channel close. -/
namespace CoSigner.Localrouter
open Contract

def RouteError.text : RouteError → String
  | .invalidFrame => "invalid routed frame"
  | .duplicateFrame => "duplicate routed frame"
  | .frameConflict => "conflicting routed frame"
  | .unsupportedParty => "party is not registered with local router"
  | .routerClosed => "local router closed"
  | .queueOverflow => "local router queue overflow"

def RouteError.err (e : RouteError) : Err := ⟨[],ascii e.text⟩

def partyQueueCapacity : Nat := 256

/-- The checks of `New` on the configuration. -/
def Config.valid (config : Config) : Bool :=
  !(config.sessionID == [] || config.stage == [] || config.protocol == [] ||
    config.platformPartyID == [] || config.primaryPartyID == [] || config.recoveryPartyID == []) &&
  !(config.platformPartyID == config.primaryPartyID ||
    config.platformPartyID == config.recoveryPartyID ||
    config.primaryPartyID == config.recoveryPartyID)

/-- The keys of `endpoints`. -/
def Config.hasEndpoint (config : Config) (partyID : Bytes) : Bool :=
  partyID == config.primaryPartyID || partyID == config.recoveryPartyID

/-- A `sync.Once` whose function takes several steps. -/
inductive Once where
  | idle | running | finished
  deriving DecidableEq, Repr

structure Router where
  validator : Validator := {}
  inbound : Bytes → List Frame := fun _ => []
  terminalErr : Option Err := none
  finishing : Bool := false
  /-- `receiveCancel` is set. -/
  receiveCancel : Bool := false
  /-- The receive context was cancelled by the router. -/
  cancelled : Bool := false
  startOnce : Once := .idle
  finishOnce : Once := .idle
  finishErr : Option Err := none
  /-- The receiver was started as a goroutine. -/
  spawned : Bool := false
  /-- `receiveDone` is closed. -/
  receiveDone : Bool := false
  /-- `done` is closed. -/
  done : Bool := false

/-- How the `select` of `deliver` goes on. -/
inductive Delivery where
  | delivered | closed | overflow
  | ended (e : Err)
  deriving DecidableEq, Repr

/-- How the `select` of `RecvFrame` goes on. -/
inductive Arrived where
  | frame (frame : Frame)
  | closed
  | ended (e : Err)
  deriving DecidableEq, Repr

inductive RouterOp where
  /-- `startOnce.Do` is entered, by the first caller only. -/
  | enterStart
  | leaveStart
  /-- The locked region of `Start`; whether the receiver is to be started. -/
  | openReceiver
  | spawnReceiver
  /-- The first step of the receiver. -/
  | receiverRuns
  | cancelReceive
  | markReceiverDone
  | enterFinish
  | setFinishing
  | readCancel
  /-- `<-r.receiveDone`. -/
  | awaitReceiver
  /-- `r.finishErr = r.terminalErr`. -/
  | settle
  | closeNormally
  | leaveFinish
  | finishErr
  | fail (err : Err)
  | isFinishing
  /-- The `select` of `currentError` on `done`. -/
  | isDone
  | readTerminal
  /-- The locked region around `validateAndRecord`; nothing if the router is finishing. -/
  | validate (frame : Frame) (sender : Bytes)
  | recvNetwork
  | sendNetwork (frame : Frame)
  | enqueue (partyID : Bytes) (frame : Frame)
  | dequeue (partyID : Bytes)

def RouterOp.Ans : RouterOp → Type
  | .enterStart | .openReceiver | .enterFinish | .readCancel | .isFinishing | .isDone => Bool
  | .leaveStart | .spawnReceiver | .receiverRuns | .cancelReceive | .markReceiverDone
  | .setFinishing | .awaitReceiver | .closeNormally | .leaveFinish | .fail _ => Unit
  | .settle | .finishErr | .readTerminal | .sendNetwork _ => Option Err
  | .validate _ _ => Option (Option Err)
  | .recvNetwork => Except Err Frame
  | .enqueue _ _ => Delivery
  | .dequeue _ => Arrived

abbrev RouterProg (α : Type) := Prog RouterOp RouterOp.Ans α

def route (o : RouterOp) : RouterProg o.Ans := .perform o

/-- `closeOnce` with the function of `fail` or `closeNormally`: `done` is closed once. -/
def Router.close (s : Router) (err : Err) : Router :=
  if s.done then s
  else { s with terminalErr := some err, cancelled := s.cancelled || s.receiveCancel, done := true }

section
variable (L : Libraries) (config : Config)

/-- What a step answers and does. The network and the contexts answer anything; a `select`
takes any case that is ready. -/
def routerSem : (o : RouterOp) → Router → o.Ans → Router → Prop
  | .enterStart, s, r, t => s.startOnce ≠ .running ∧ r = decide (s.startOnce = .idle) ∧
      t = if s.startOnce = .idle then { s with startOnce := .running } else s
  | .leaveStart, s, _, t => t = { s with startOnce := .finished }
  | .openReceiver, s, r, t => r = !(s.finishing || s.terminalErr.isSome) ∧
      t = if s.finishing || s.terminalErr.isSome then s else { s with receiveCancel := true }
  | .spawnReceiver, s, _, t => t = { s with spawned := true }
  | .receiverRuns, s, _, t => s.spawned = true ∧ t = s
  | .cancelReceive, s, _, t => t = { s with cancelled := true }
  | .markReceiverDone, s, _, t => t = { s with receiveDone := true }
  | .enterFinish, s, r, t => s.finishOnce ≠ .running ∧ r = decide (s.finishOnce = .idle) ∧
      t = if s.finishOnce = .idle then { s with finishOnce := .running } else s
  | .setFinishing, s, _, t => t = { s with finishing := true }
  | .readCancel, s, r, t => r = s.receiveCancel ∧ t = s
  | .awaitReceiver, s, _, t => s.receiveDone = true ∧ t = s
  | .settle, s, r, t => r = s.terminalErr ∧ t = { s with finishErr := s.terminalErr }
  | .closeNormally, s, _, t => t = s.close (s.terminalErr.getD RouteError.routerClosed.err)
  | .leaveFinish, s, _, t => t = { s with finishOnce := .finished }
  | .finishErr, s, r, t => r = s.finishErr ∧ t = s
  | .fail err, s, _, t => t = s.close err
  | .isFinishing, s, r, t => r = s.finishing ∧ t = s
  | .isDone, s, r, t => r = s.done ∧ t = s
  | .readTerminal, s, r, t => r = s.terminalErr ∧ t = s
  | .validate frame sender, s, r, t =>
      if s.finishing then r = none ∧ t = s
      else
        r = some ((validateAndRecord L config s.validator frame sender).1.map RouteError.err) ∧
        t = { s with validator := (validateAndRecord L config s.validator frame sender).2 }
  | .recvNetwork, s, _, t | .sendNetwork _, s, _, t => t = s
  | .enqueue partyID frame, s, r, t =>
      match r with
      | .delivered => (s.inbound partyID).length < partyQueueCapacity ∧
          t = { s with
            inbound := Function.update s.inbound partyID (s.inbound partyID ++ [frame]) }
      | .closed => s.done = true ∧ t = s
      | .ended _ => t = s
      | .overflow => partyQueueCapacity ≤ (s.inbound partyID).length ∧ s.done = false ∧ t = s
  | .dequeue partyID, s, r, t =>
      match r with
      | .frame frame => ∃ rest, s.inbound partyID = frame :: rest ∧
          t = { s with inbound := Function.update s.inbound partyID rest }
      | .closed => s.done = true ∧ t = s
      | .ended _ => t = s

end

/-- An environment in which no frame is sent and the network's calls are cancelled. -/
def routerServe : (o : RouterOp) → Router → Option (o.Ans × Router)
  | .enterStart, s => if s.startOnce = .running then none else
      some (decide (s.startOnce = .idle),
        if s.startOnce = .idle then { s with startOnce := .running } else s)
  | .leaveStart, s => some ((),{ s with startOnce := .finished })
  | .openReceiver, s => some (!(s.finishing || s.terminalErr.isSome),
      if s.finishing || s.terminalErr.isSome then s else { s with receiveCancel := true })
  | .spawnReceiver, s => some ((),{ s with spawned := true })
  | .receiverRuns, s => if s.spawned then some ((),s) else none
  | .cancelReceive, s => some ((),{ s with cancelled := true })
  | .markReceiverDone, s => some ((),{ s with receiveDone := true })
  | .enterFinish, s => if s.finishOnce = .running then none else
      some (decide (s.finishOnce = .idle),
        if s.finishOnce = .idle then { s with finishOnce := .running } else s)
  | .setFinishing, s => some ((),{ s with finishing := true })
  | .readCancel, s => some (s.receiveCancel,s)
  | .awaitReceiver, s => if s.receiveDone then some ((),s) else none
  | .settle, s => some (s.terminalErr,{ s with finishErr := s.terminalErr })
  | .closeNormally, s => some ((),s.close (s.terminalErr.getD RouteError.routerClosed.err))
  | .leaveFinish, s => some ((),{ s with finishOnce := .finished })
  | .finishErr, s => some (s.finishErr,s)
  | .isFinishing, s => some (s.finishing,s)
  | .readTerminal, s => some (s.terminalErr,s)
  | .isDone, s => some (s.done,s)
  | .recvNetwork, s => some (.error Err.canceled,s)
  | _, _ => none

theorem routerServe_sem (L : Libraries) (config : Config) {o : RouterOp} {s t : Router} {r : o.Ans}
    (h : routerServe o s = some (r,t)) : routerSem L config o s r t := by
  cases o
  case enterStart | enterFinish =>
    simp only [routerServe, Option.ite_none_left_eq_some, Option.some.injEq] at h
    obtain ⟨hrunning,rfl,rfl⟩ := h
    exact ⟨hrunning,rfl,rfl⟩
  case receiverRuns | awaitReceiver =>
    simp only [routerServe, Option.ite_none_right_eq_some, Option.some.injEq] at h
    obtain ⟨hready,-,rfl⟩ := h
    exact ⟨hready,rfl⟩
  case openReceiver | readCancel | settle | finishErr | isFinishing | readTerminal | isDone =>
    obtain ⟨rfl,rfl⟩ := Prod.mk.inj (Option.some.inj h)
    exact ⟨rfl,rfl⟩
  case validate | sendNetwork | enqueue | dequeue | fail => cases h
  all_goals
    obtain ⟨-,rfl⟩ := Prod.mk.inj (Option.some.inj h)
    rfl

def currentError : RouterProg (Option Err) := do
  let done : Bool ← route .isDone
  if done then
    let terminal : Option Err ← route .readTerminal
    pure (some (terminal.getD RouteError.routerClosed.err))
  else pure none

section
variable (config : Config)

/-- `Start`; the context only decides when calls of the network end. -/
def start : RouterProg Unit := do
  let first : Bool ← route .enterStart
  if first then
    let opened : Bool ← route .openReceiver
    if opened then
      let _ : Unit ← route .spawnReceiver
    else
      let _ : Unit ← route .cancelReceive
      let _ : Unit ← route .markReceiverDone
    let _ : Unit ← route .leaveStart

/-- `Finish` from `<-r.receiveDone` on. -/
def settleFinish : RouterProg (Option Err) := do
  let _ : Unit ← route .awaitReceiver
  let failure : Option Err ← route .settle
  if failure.isNone then
    let _ : Unit ← route .closeNormally
  let _ : Unit ← route .leaveFinish
  route .finishErr

def finish : RouterProg (Option Err) := do
  let first : Bool ← route .enterFinish
  if first then
    let _ : Unit ← route .setFinishing
    let unstarted : Bool ← route .enterStart
    if unstarted then
      let _ : Unit ← route .markReceiverDone
      let _ : Unit ← route .leaveStart
    let cancel : Bool ← route .readCancel
    if cancel then
      let _ : Unit ← route .cancelReceive
    settleFinish
  else route .finishErr

/-- `Close`. -/
def close : RouterProg Unit := do
  let _ ← finish

def deliver (partyID : Bytes) (frame : Frame) : RouterProg (Option Err) := do
  if config.hasEndpoint partyID then
    let choice : Delivery ← route (.enqueue partyID frame)
    match choice with
    | .delivered => pure none
    | .closed => currentError
    | .ended e => pure (some e)
    | .overflow => pure (some RouteError.queueOverflow.err)
  else pure (some RouteError.unsupportedParty.err)

def routeOutbound (authenticatedSender : Bytes) (frame : Frame) : RouterProg (Option Err) := do
  let closed ← currentError
  match closed with
  | some e => pure (some e)
  | none =>
    let verdict : Option (Option Err) ← route (.validate frame authenticatedSender)
    match verdict with
    | none => pure (some RouteError.routerClosed.err)
    | some (some e) => pure (some e)
    | some none =>
      if frame.broadcast then
        let localParty := if authenticatedSender == config.primaryPartyID then
          config.recoveryPartyID else config.primaryPartyID
        let err ← deliver config localParty frame
        match err with
        | some e => pure (some e)
        | none => route (.sendNetwork frame)
      else if frame.toParty == config.platformPartyID then route (.sendNetwork frame)
      else deliver config frame.toParty frame

/-- `partyTransport.SendFrame`. -/
def sendFrame (partyID : Bytes) (frame : Frame) : RouterProg (Option Err) :=
  routeOutbound config partyID frame

/-- `partyTransport.RecvFrame`. -/
def recvFrame (partyID : Bytes) : RouterProg (Except Err Frame) := do
  let closed ← currentError
  match closed with
  | some e => pure (.error e)
  | none =>
    let arrived : Arrived ← route (.dequeue partyID)
    match arrived with
    | .frame frame => do
      let closed ← currentError
      pure (match closed with
        | some e => .error e
        | none => .ok frame)
    | .closed => do
      -- without an error the source returns an empty frame and nil
      let closed ← currentError
      pure (match closed with
        | some e => .error e
        | none => .ok {})
    | .ended e => do
      let closed ← currentError
      pure (.error (closed.getD e))

/-- What `receiveNetwork` does about an error of `deliver` or of the network. -/
def receiveFailed (e : Err) : RouterProg Unit := do
  if e.isA .canceled then
    let finishing : Bool ← route .isFinishing
    if finishing then pure ()
    else route (.fail e)
  else route (.fail e)

/-- The deliveries of one frame from the network; whether the receiver goes on. -/
def deliverAll (frame : Frame) : List Bytes → RouterProg Bool
  | [] => pure true
  | partyID :: rest => do
    let err ← deliver config partyID frame
    match err with
    | some e => do
      receiveFailed e
      pure false
    | none => deliverAll frame rest

/-- `receiveNetwork`, cut off after `fuel` frames. -/
def receiveNetwork : Nat → RouterProg Unit
  | 0 => .halt
  | fuel + 1 => do
    let received : Except Err Frame ← route .recvNetwork
    match received with
    | .error e => receiveFailed e
    | .ok frame =>
      let verdict : Option (Option Err) ← route (.validate frame config.platformPartyID)
      match verdict with
      | none => pure ()
      | some (some e) => route (.fail e)
      | some none =>
        let recipients :=
          if frame.broadcast then [config.primaryPartyID,config.recoveryPartyID]
          else [frame.toParty]
        if !frame.broadcast && frame.toParty != config.primaryPartyID &&
            frame.toParty != config.recoveryPartyID then
          route (.fail RouteError.invalidFrame.err)
        else
          let goesOn ← deliverAll config frame recipients
          if goesOn then receiveNetwork fuel else pure ()

/-- The goroutine of `Start` up to the deferred `markReceiverDone`. -/
def receive (fuel : Nat) : RouterProg Unit := do
  let _ : Unit ← route .receiverRuns
  receiveNetwork config fuel

end

/-! Which steps belong to starting and finishing the router. -/

def RouterOp.steers : RouterOp → Bool
  | .enterStart | .leaveStart | .openReceiver | .spawnReceiver | .markReceiverDone
  | .enterFinish | .setFinishing | .awaitReceiver | .leaveFinish => true
  | _ => false

/-- The program neither starts nor finishes the router. -/
abbrev Traffics {α : Type} (p : RouterProg α) : Prop := p.Only (·.steers = false)

section
variable {config : Config}

theorem currentError_traffics : Traffics currentError := by
  refine Prog.only_bind (Prog.only_perform rfl) ?_
  intro (done : Bool)
  cases done with
  | true => exact Prog.only_bind (Prog.only_perform rfl) fun _ => trivial
  | false => trivial

theorem deliver_traffics (partyID : Bytes) (frame : Frame) :
    Traffics (deliver config partyID frame) := by
  refine Prog.only_ite (Prog.only_bind (Prog.only_perform rfl) ?_) trivial
  intro (choice : Delivery)
  cases choice with
  | closed => exact currentError_traffics
  | delivered | ended _ | overflow => trivial

theorem sendFrame_traffics (partyID : Bytes) (frame : Frame) :
    Traffics (sendFrame config partyID frame) := by
  refine Prog.only_bind currentError_traffics fun closed => ?_
  cases closed with
  | some e => trivial
  | none =>
    refine Prog.only_bind (Prog.only_perform rfl) ?_
    intro (verdict : Option (Option Err))
    match verdict with
    | none => trivial
    | some (some e) => trivial
    | some none =>
      refine Prog.only_ite ?_ (Prog.only_ite (Prog.only_perform rfl) (deliver_traffics _ _))
      refine Prog.only_bind (deliver_traffics _ _) fun err => ?_
      cases err with
      | some e => trivial
      | none => exact Prog.only_perform rfl

theorem recvFrame_traffics (partyID : Bytes) : Traffics (recvFrame partyID) := by
  refine Prog.only_bind currentError_traffics fun closed => ?_
  cases closed with
  | some e => trivial
  | none =>
    refine Prog.only_bind (Prog.only_perform rfl) ?_
    intro (arrived : Arrived)
    cases arrived with
    | frame _ | closed | ended _ => exact Prog.only_bind currentError_traffics fun _ => trivial

theorem receiveFailed_traffics (e : Err) : Traffics (receiveFailed e) := by
  refine Prog.only_ite (Prog.only_bind (Prog.only_perform rfl) ?_) (Prog.only_perform rfl)
  intro (finishing : Bool)
  cases finishing with
  | true => trivial
  | false => exact Prog.only_perform rfl

theorem deliverAll_traffics (frame : Frame) (recipients : List Bytes) :
    Traffics (deliverAll config frame recipients) := by
  induction recipients with
  | nil => trivial
  | cons partyID rest ih =>
    refine Prog.only_bind (deliver_traffics _ _) fun err => ?_
    cases err with
    | some e => exact Prog.only_bind (receiveFailed_traffics e) fun _ => trivial
    | none => exact ih

theorem receiveNetwork_traffics (fuel : Nat) : Traffics (receiveNetwork config fuel) := by
  induction fuel with
  | zero => trivial
  | succ fuel ih =>
    refine Prog.only_bind (Prog.only_perform rfl) ?_
    intro (received : Except Err Frame)
    cases received with
    | error e => exact receiveFailed_traffics e
    | ok frame =>
      refine Prog.only_bind (Prog.only_perform rfl) ?_
      intro (verdict : Option (Option Err))
      match verdict with
      | none => trivial
      | some (some e) => exact Prog.only_perform rfl
      | some none =>
        refine Prog.only_ite (Prog.only_perform rfl) ?_
        refine Prog.only_bind (deliverAll_traffics _ _) fun goesOn => ?_
        cases goesOn with
        | true => exact ih
        | false => trivial

theorem receive_traffics (fuel : Nat) : Traffics (receive config fuel) :=
  Prog.only_bind (Prog.only_perform rfl) fun _ => receiveNetwork_traffics fuel

end
end CoSigner.Localrouter
