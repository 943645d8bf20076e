import CoSigner.Lib.Trace
import CoSigner.Lib.Strings
import CoSigner.Localrouter.Validation
import CoSigner.Monolith.Types

/-! The poller of an HTTP transport (`transport/http_transport_poll.go`): what it takes from
the backend's responses, and when it gives up. -/
namespace CoSigner.Transport
open Monolith Localrouter

/-- What a transport is stopped with, and what calls of it fail with. -/
inductive TransportError where
  | closed | alreadyDispatched | invalidLifecycle
  | other (text : Bytes)
  deriving DecidableEq, Repr

structure FrameContext where
  session : SessionLifecycle
  intentID : Bytes := []
  orgID : Bytes := []
  sessionID : Bytes
  stage : Bytes
  protocol : Bytes := []
  deriving DecidableEq, Repr

structure InboundMessage where
  deliverySeq : Nat := 0
  protocolSeq : Nat := 0
  messageID : Bytes := []
  round : Nat := 0
  fromPartyID : Bytes := []
  toPartyID : Bytes := []
  broadcast : Bool := false
  payload : Bytes := []
  derivationContextHash : Bytes := []
  deriving DecidableEq, Repr

structure MessagesResult where
  session : SessionLifecycle := {}
  messages : List InboundMessage := []
  deriving DecidableEq, Repr

/-- What the locked region of `Dispatch` comes to. -/
inductive Reservation where
  | granted
  | closed (err : Option TransportError)
  | canceled (err : TransportError)
  | dispatched
  deriving DecidableEq, Repr

/-- The steps of the transport's methods and of its poller. A poller and its channel are known
by the call that started it, one of `κ`. -/
inductive TransportOp (κ : Type) where
  /-- The locked region of `Start`; whether it has started a poller. -/
  | start
  /-- The locked region of `stop`; whether this stop took effect. -/
  | stop (err : Option TransportError)
  /-- The second locked region of `Close`. -/
  | pollStopped
  | join (poller : κ)
  | err
  /-- The locked region of `Dispatch`. -/
  | reserve
  /-- The run function is called with the runner's context, and has returned. -/
  | run
  | ran
  | cancel
  /-- The poller's goroutine begins, and closes its channel. -/
  | begin
  | exit
  | isDone
  | getMessages (afterSeq : Nat)
  | now
  /-- The `select` of `deliverMessages`; whether the frame was taken. -/
  | enqueue (frame : Frame)
  | sleep

def TransportOp.Ans {κ : Type} : TransportOp κ → Type
  | .start | .stop _ | .isDone | .enqueue _ | .sleep => Bool
  | .pollStopped => Option κ
  | .err | .ran => Option TransportError
  | .reserve => Reservation
  | .getMessages _ => Except TransportError MessagesResult
  | .now => Time
  | .join _ | .run | .cancel | .begin | .exit => Unit

abbrev TransportProg (κ α : Type) := Prog (TransportOp κ) TransportOp.Ans α

abbrev TransportEvent (κ : Type) := Event (TransportOp κ) TransportOp.Ans

def ask {κ : Type} (o : TransportOp κ) : TransportProg κ o.Ans := .perform o

def validatePolledSession (kind sessionID : Bytes) (previous current : SessionLifecycle)
    (now : Time) : Bool :=
  current.validate kind sessionID previous.deadline &&
    (kind != ascii "SIGN" ||
      !(current.status != ascii "RUNNING" || current.deadline ≤ now ||
        !current.executionExpiresAt.any (now < ·)) &&
      (previous.startedAt.isNone ||
        previous.executionExpiresAt.isSome && current.startedAt == previous.startedAt &&
          current.executionExpiresAt == previous.executionExpiresAt))

namespace FrameContext

def toFrame (ctx : FrameContext) (msg : InboundMessage) : Frame where
  sessionID := ctx.sessionID
  messageID := msg.messageID
  seq := msg.protocolSeq
  round := msg.round
  roundHint := msg.round
  broadcast := msg.broadcast
  stage := ctx.stage
  protocol := ctx.protocol
  fromParty := msg.fromPartyID
  toParty := msg.toPartyID
  payload := msg.payload
  derivationContextHash := msg.derivationContextHash

def kind (ctx : FrameContext) : Bytes := Strings.toUpper ctx.stage

variable {κ : Type} (ctx : FrameContext)

/-- The loop of `deliverMessages` over the sorted messages. -/
def deliver : List InboundMessage → Nat → TransportProg κ (Nat × Bool)
  | [], afterSeq => pure (afterSeq,true)
  | msg :: rest, afterSeq => do
    let taken : Bool ← ask (.enqueue (ctx.toFrame msg))
    if taken then deliver rest (max afterSeq msg.deliverySeq)
    else pure (afterSeq,false)

def deliverMessages (messages : List InboundMessage) (afterSeq : Nat) :
    TransportProg κ (Nat × Bool) :=
  ctx.deliver (messages.mergeSort fun m n => m.deliverySeq ≤ n.deliverySeq) afterSeq

/-- The loop of `poll`, cut off after some turns. -/
def pollFrom : Nat → SessionLifecycle → Nat → TransportProg κ Unit
  | 0, _, _ => .halt
  | turns + 1, baseline, afterSeq => do
    let done : Bool ← ask .isDone
    if done then return
    let response : Except TransportError MessagesResult ← ask (.getMessages afterSeq)
    let done : Bool ← ask .isDone
    if done then return
    match response with
    | .error err =>
      if err = .invalidLifecycle then do
        let _ : Bool ← ask (.stop (some err))
        return
      let awake : Bool ← ask .sleep
      if awake then pollFrom turns baseline afterSeq
    | .ok result =>
      let now : Time ← ask .now
      if !validatePolledSession ctx.kind ctx.sessionID baseline result.session now then do
        let _ : Bool ← ask (.stop (some .invalidLifecycle))
        return
      let (afterSeq,delivered) ← ctx.deliverMessages result.messages afterSeq
      if !delivered then return
      if result.messages.isEmpty then do
        let awake : Bool ← ask .sleep
        if !awake then return
      pollFrom turns result.session afterSeq

def poll (turns : Nat) : TransportProg κ Unit := ctx.pollFrom turns ctx.session 0

end FrameContext

end CoSigner.Transport
