import CoSigner.Localrouter.Router
import CoSigner.Sharestore.ActivePair
import CoSigner.Worker.Intent

/-! The dual-party DKG (`worker/dkg_coordinator.go`): `Run` with its deferred calls, the two
party goroutines and the router's receiver, over every interleaving and beside other users of
the active pair. -/
namespace CoSigner.Worker
open Contract Monolith Sharestore Localrouter

structure DKGCoordinatorConfig where
  platformPartyID : Bytes
  primaryPartyID : Bytes
  recoveryPartyID : Bytes
  deriving DecidableEq, Repr

structure DKGResult where
  primary : ArtifactEvidence
  recovery : ArtifactEvidence
  deriving DecidableEq, Repr

def invalidDKGContext (text : String) : Err :=
  ⟨[],ascii "invalid dual-party dkg context: " ++ ascii text⟩

def dkgEvidenceMismatch : Err := ⟨[],ascii "post-runtime dkg evidence mismatch"⟩

structure ValidatedDKGContext where
  intent : Intent
  descriptor : KeyDescriptorV1
  fingerprint : Bytes
  descriptorBytes : Bytes
  chainCode : Bytes
  deadline : Time
  deriving DecidableEq, Repr

section
variable (L : Libraries) (config : DKGCoordinatorConfig) (intent : Intent)

def validateRuntimeContext (now : Time) : Except Err ValidatedDKGContext :=
  if !Strings.equalFold (Strings.trimSpace intent.type) (ascii "DKG") ||
      Strings.trimSpace intent.sessionID == [] || Strings.trimSpace intent.payload.orgID == [] ||
      intent.payload.descriptorBytes == [] || intent.expiresAt == 0 ||
      !(now < intent.expiresAt) then
    .error (invalidDKGContext "incomplete intent")
  else
    match parseCanonicalDescriptor L intent.payload.descriptorBytes with
    | none => .error (invalidDKGContext "descriptor")
    | some (descriptor,fingerprint) =>
      if descriptor.keyID != intent.payload.keyID || descriptor.threshold != 2 ||
          descriptor.parties.map (·.partyID) !=
            [config.platformPartyID,config.primaryPartyID,config.recoveryPartyID] then
        .error (invalidDKGContext "descriptor binding")
      else if intent.payload.descriptorFingerprint == [] ||
          intent.payload.descriptorFingerprint != digestString fingerprint then
        .error (invalidDKGContext "descriptor fingerprint")
      else
        match hexDecode intent.payload.chainCode with
        | none => .error (invalidDKGContext "chain code")
        | some chainCode =>
          if chainCode.length != 32 || hexEncode chainCode != intent.payload.chainCode then
            .error (invalidDKGContext "chain code")
          else if intent.payload.chainCodeHash != descriptor.chainCodeHash ||
              digestString (L.sha256 chainCode) != descriptor.chainCodeHash then
            .error (invalidDKGContext "chain code hash")
          else .ok {
            intent := intent
            descriptor := descriptor
            fingerprint := fingerprint
            descriptorBytes := intent.payload.descriptorBytes
            chainCode := intent.payload.chainCode
            deadline := intent.expiresAt }

/-- The configuration of the router that `Run` creates. -/
def routerConfig (descriptor : KeyDescriptorV1) : Localrouter.Config where
  sessionID := intent.sessionID
  platformPartyID := config.platformPartyID
  primaryPartyID := config.primaryPartyID
  recoveryPartyID := config.recoveryPartyID
  stage := ascii "dkg"
  protocol := descriptor.algorithm

end

inductive Party where
  | primary | recovery
  deriving DecidableEq, Repr

def Party.other : Party → Party
  | .primary => .recovery
  | .recovery => .primary

def DKGCoordinatorConfig.partyID (config : DKGCoordinatorConfig) : Party → Bytes
  | .primary => config.primaryPartyID
  | .recovery => config.recoveryPartyID

/-- `coretss.DKGSessionRequest`; the transport is that of the party. -/
structure DKGSessionRequest where
  sessionID : Bytes
  orgID : Bytes
  keyID : Bytes
  parties : List Bytes
  threshold : Nat
  algorithm : Bytes
  curve : Bytes
  localPartyID : Bytes
  opaqueDescriptorFingerprint : Bytes
  chainCode : Bytes
  derivationScheme : Bytes
  deriving DecidableEq, Repr

def buildPartyDKGRequest (runtimeContext : ValidatedDKGContext) (localPartyID : Bytes) :
    DKGSessionRequest where
  sessionID := runtimeContext.intent.sessionID
  orgID := runtimeContext.intent.payload.orgID
  keyID := runtimeContext.descriptor.keyID
  parties := runtimeContext.descriptor.parties.map (·.partyID)
  threshold := runtimeContext.descriptor.threshold.toNat
  algorithm := runtimeContext.descriptor.algorithm
  curve := runtimeContext.descriptor.curve
  localPartyID := localPartyID
  opaqueDescriptorFingerprint := runtimeContext.fingerprint
  chainCode := runtimeContext.chainCode
  derivationScheme := runtimeContext.descriptor.derivationScheme

/-- What a party goroutine is started with; the handle may be nil. -/
structure PartyJob (H : Type) where
  request : DKGSessionRequest
  handle : Option H
  deriving DecidableEq

/-- The calls of `Run` and of its goroutines. Preparams handles are from `H`, the other users
of the active pair from `κ`. -/
inductive DkgOp (H κ : Type) where
  | now
  | cancelRun
  | router (o : RouterOp)
  | beginJob
  | finishJob
  | acquire
  | discard (handle : H)
  /-- The locked region of `RegisterPair`; whether the pair was free. -/
  | register (pair : Pair)
  | release
  | releaseOther (lease : κ)
  | ctxErr
  /-- `go startRun(…)`. -/
  | spawn (party : Party) (job : PartyJob H)
  /-- The first step of a party goroutine. -/
  | spawned
  | ready
  | awaitReady
  | openStart
  | awaitStart
  /-- `RunDKGSessionWithPreParams` is called. -/
  | beginRun (job : PartyJob H)
  /-- It returns. -/
  | endRun
  | cancelParty (party : Party)
  | sendResult (err : Option Err)
  | groupDone
  /-- The `select` of `runParties`; nothing if the router is done. -/
  | select
  /-- The same once `routerDone` is nil. -/
  | takeResult
  | awaitGroup
  | inspect (purpose : StorePurpose) (expected : ExpectedArtifactContext)

def DkgOp.Ans {H κ : Type} : DkgOp H κ → Type
  | .now => Time
  | .router o => o.Ans
  | .beginJob | .discard _ | .ctxErr | .endRun => Option Err
  | .acquire => Except Err (Option H)
  | .register _ => Bool
  | .spawned => PartyJob H
  | .select => Option (Party × Option Err)
  | .takeResult => Party × Option Err
  | .inspect _ _ => Except Err ArtifactEvidence
  | .cancelRun | .finishJob | .release | .releaseOther _ | .spawn _ _ | .ready | .awaitReady
  | .openStart | .awaitStart | .beginRun _ | .cancelParty _ | .sendResult _ | .groupDone
  | .awaitGroup => Unit

abbrev DkgProg (H κ α : Type) := Prog (DkgOp H κ) DkgOp.Ans α

abbrev DkgEvent (H κ : Type) := Event (DkgOp H κ) DkgOp.Ans

section
variable {H κ : Type}

def dkg (o : DkgOp H κ) : DkgProg H κ o.Ans := .perform o

/-- A method of the router. -/
def onRouter {α : Type} (p : RouterProg α) : DkgProg H κ α := p.relabel .router fun _ r => r

def discardHandle (name : String) : Option H → DkgProg H κ (Option Err)
  | none => pure none
  | some handle => do
    let err : Option Err ← dkg (.discard handle)
    pure (err.map (.wrap s!"discard {name} preparams"))

def preferredPartyFailure (failures : List Err) : Option Err :=
  match failures.find? fun e => !e.isA .canceled && !e.isA .deadlineExceeded with
  | some e => some e
  | none => Err.joinAll (failures.map some)

variable (L : Libraries) (config : DKGCoordinatorConfig)

/-- `dkg session %s party %s: %w`. -/
def partyFailure (sessionID : Bytes) (party : Party) (e : Err) : Err :=
  ⟨e.is,ascii "dkg session " ++ sessionID ++ ascii " party " ++ config.partyID party ++
    ascii ": " ++ e.text⟩

/-- The loop of `runParties` after the router is done. -/
def takeResults (sessionID : Bytes) : Nat → List Err → DkgProg H κ (List Err)
  | 0, failures => pure failures
  | n + 1, failures => do
    let (party,err) : Party × Option Err ← dkg .takeResult
    takeResults sessionID n (failures ++ (err.map (partyFailure config sessionID party)).toList)

/-- The loop of `runParties`: the failures and the router's error. -/
def watchResults (sessionID : Bytes) : Nat → List Err → DkgProg H κ (List Err × Option Err)
  | 0, failures => pure (failures,none)
  | n + 1, failures => do
    let choice : Option (Party × Option Err) ← dkg .select
    match choice with
    | some (party,err) =>
      watchResults sessionID n (failures ++ (err.map (partyFailure config sessionID party)).toList)
    | none =>
      let routerErr ← onRouter currentError
      let _ : Unit ← dkg (.cancelParty .primary)
      let _ : Unit ← dkg (.cancelParty .recovery)
      let failures ← takeResults config sessionID (n + 1) failures
      pure (failures,routerErr)

def runParties (runtimeContext : ValidatedDKGContext) (primaryHandle recoveryHandle : Option H) :
    DkgProg H κ (Option Err) := do
  let job (party : Party) (handle : Option H) : PartyJob H :=
    ⟨buildPartyDKGRequest runtimeContext (config.partyID party),handle⟩
  let _ : Unit ← dkg (.spawn .primary (job .primary primaryHandle))
  let _ : Unit ← dkg (.spawn .recovery (job .recovery recoveryHandle))
  let _ : Unit ← dkg .awaitReady
  let _ : Unit ← dkg .openStart
  let (failures,routerErr) ← watchResults config runtimeContext.intent.sessionID 2 []
  let _ : Unit ← dkg .awaitGroup
  let terminalErr ← onRouter currentError
  let _ : Unit ← dkg (.cancelParty .recovery)
  let _ : Unit ← dkg (.cancelParty .primary)
  match terminalErr.or routerErr with
  | some e => pure (some e)
  | none => pure (preferredPartyFailure failures)

/-- `releaseBeforeStart`. -/
def releaseBeforeStart (runErr : Err) (primaryHandle recoveryHandle : Option H) :
    DkgProg H κ (Option Err) := do
  let _ : Unit ← dkg .release
  let first ← discardHandle "primary" primaryHandle
  let second ← discardHandle "recovery" recoveryHandle
  pure (Err.joinAll [some runErr,none,first,second])

def compareEvidence (runtimeContext : ValidatedDKGContext) (primary recovery : ArtifactEvidence) :
    Option Err :=
  let commonMatches := primary.sessionID == runtimeContext.intent.sessionID &&
    recovery.sessionID == runtimeContext.intent.sessionID &&
    primary.keyID == runtimeContext.descriptor.keyID &&
    recovery.keyID == runtimeContext.descriptor.keyID &&
    primary.descriptorFingerprint == runtimeContext.fingerprint &&
    recovery.descriptorFingerprint == runtimeContext.fingerprint &&
    primary.accountPublicKey == recovery.accountPublicKey &&
    primary.chainCodeHash == recovery.chainCodeHash &&
    digestString primary.chainCodeHash == runtimeContext.descriptor.chainCodeHash &&
    primary.codecVersion == recovery.codecVersion
  let partyMatches := primary.partyID == config.primaryPartyID && primary.purpose == .primary &&
    recovery.partyID == config.recoveryPartyID && recovery.purpose == .recovery
  if !commonMatches || !partyMatches then some dkgEvidenceMismatch else none

/-- The part of `Run` after the parties have returned without an error. -/
def inspectPair (runtimeContext : ValidatedDKGContext) : DkgProg H κ (Except Err DKGResult) := do
  let expected : ExpectedArtifactContext := {
    sessionID := runtimeContext.intent.sessionID
    keyID := runtimeContext.descriptor.keyID
    descriptorBytes := runtimeContext.descriptorBytes }
  let primary : Except Err ArtifactEvidence ← dkg (.inspect .primary expected)
  match primary with
  | .error e => pure (.error (.wrap "inspect primary dkg artifact" e))
  | .ok primaryEvidence => do
    let recovery : Except Err ArtifactEvidence ← dkg (.inspect .recovery expected)
    match recovery with
    | .error e => pure (.error (.wrap "inspect recovery dkg artifact" e))
    | .ok recoveryEvidence =>
      match compareEvidence config runtimeContext primaryEvidence recoveryEvidence with
      | some e => pure (.error e)
      | none => pure (.ok ⟨primaryEvidence,recoveryEvidence⟩)

/-- An error that `errors.Join` built from at least one error. -/
def joined (errs : List (Option Err)) : Err := (Err.joinAll errs).getD {}

/-- `Run` between the registration of the pair and its return; whether the job was finished. -/
def runRegistered (runtimeContext : ValidatedDKGContext)
    (primaryHandle recoveryHandle : Option H) : DkgProg H κ (Except Err DKGResult × Bool) := do
  let ended : Option Err ← dkg .ctxErr
  match ended with
  | some e => do
    let err ← releaseBeforeStart e primaryHandle recoveryHandle
    pure (.error (joined [err]),false)
  | none => do
    let ended : Option Err ← dkg .ctxErr
    match ended with
    | some e => do
      let err ← releaseBeforeStart e primaryHandle recoveryHandle
      pure (.error (joined [err]),false)
    | none => do
      let runErr ← runParties config runtimeContext primaryHandle recoveryHandle
      let finishErr ← onRouter finish
      let _ : Unit ← dkg .release
      let _ : Unit ← dkg .finishJob
      match finishErr.or runErr with
      | some e => pure (.error e,true)
      | none => do
        let result ← inspectPair config runtimeContext
        pure (result,true)

/-- `Run` between `BeginJob` and its return; whether the job was finished. -/
def runJob (runtimeContext : ValidatedDKGContext) :
    DkgProg H κ (Except Err DKGResult × Bool) := do
  let primary : Except Err (Option H) ← dkg .acquire
  match primary with
  | .error e => pure (.error (.wrap "acquire primary preparams" e),false)
  | .ok primaryHandle => do
    let recovery : Except Err (Option H) ← dkg .acquire
    match recovery with
    | .error e => do
      let discarded ← discardHandle "primary" primaryHandle
      pure (.error (joined [some (.wrap "acquire recovery preparams" e),discarded]),false)
    | .ok recoveryHandle =>
      let registration : PairRegistration := {
        sessionID := runtimeContext.intent.sessionID
        keyID := runtimeContext.descriptor.keyID
        primaryPartyID := config.primaryPartyID
        recoveryPartyID := config.recoveryPartyID
        descriptorBytes := runtimeContext.descriptorBytes }
      match registration.pair L with
      | none => do
        let first ← discardHandle "primary" primaryHandle
        let second ← discardHandle "recovery" recoveryHandle
        pure (.error (joined [some ⟨[],ascii "core persistence context does not match active pair"⟩,
          first,second]),false)
      | some pair => do
        let free : Bool ← dkg (.register pair)
        if free then runRegistered config runtimeContext primaryHandle recoveryHandle
        else
          let first ← discardHandle "primary" primaryHandle
          let second ← discardHandle "recovery" recoveryHandle
          pure (.error (joined [some ⟨[],ascii "active persistence pair is already registered"⟩,
            first,second]),false)

/-- `Run` between `Transport` and its return. -/
def runAdmitted (runtimeContext : ValidatedDKGContext) : DkgProg H κ (Except Err DKGResult) := do
  let begun : Option Err ← dkg .beginJob
  match begun with
  | some e => pure (.error (.wrap "pause preparams refill" e))
  | none => do
    let (result,jobFinished) ← runJob L config runtimeContext
    if !jobFinished then
      let _ : Unit ← dkg .finishJob
    pure result

/-- `Run` from the creation of the router to the deferred `router.Close()`. -/
def runRouted (router : Localrouter.Config) (runtimeContext : ValidatedDKGContext) :
    DkgProg H κ (Except Err DKGResult) :=
  if router.valid then do
    onRouter start
    let result ←
      if router.hasEndpoint config.primaryPartyID && router.hasEndpoint config.recoveryPartyID
      then runAdmitted L config runtimeContext
      else pure (.error RouteError.unsupportedParty.err)
    onRouter close
    pure result
  else pure (.error (invalidDKGContext "create local router"))

/-- `DKGCoordinator.Run`; `network` says whether there is a network transport. -/
def DKGCoordinatorConfig.run (intent : Intent) (network : Bool) :
    DkgProg H κ (Except Err DKGResult) := do
  if !network then pure (.error (invalidDKGContext "network transport is required"))
  else
    let now : Time ← dkg .now
    match validateRuntimeContext L config intent now with
    | .error e => pure (.error e)
    | .ok runtimeContext => do
      let result ← runRouted L config (routerConfig config intent runtimeContext.descriptor)
        runtimeContext
      let _ : Unit ← dkg .cancelRun
      pure result

/-- What Core does with the transport of a party. -/
inductive Traffic where
  | send (frame : Frame)
  | recv

def Traffic.prog (config : Localrouter.Config) (partyID : Bytes) : Traffic → RouterProg Unit
  | .send frame => do
    let _ ← sendFrame config partyID frame
  | .recv => do
    let _ ← recvFrame partyID

def runTraffic (config : Localrouter.Config) (partyID : Bytes) : List Traffic → RouterProg Unit
  | [] => pure ()
  | t :: ts => do
    t.prog config partyID
    runTraffic config partyID ts

/-- A party goroutine (`startRun`, `run`) up to the deferred `group.Done()`; Core uses the
transport of the party as given. -/
def partyRun (router : Localrouter.Config) (party : Party) (traffic : List Traffic) :
    DkgProg H κ Unit := do
  let job : PartyJob H ← dkg .spawned
  let _ : Unit ← dkg .ready
  let _ : Unit ← dkg .awaitStart
  let _ : Unit ← dkg (.beginRun job)
  onRouter (runTraffic router (config.partyID party) traffic)
  let err : Option Err ← dkg .endRun
  if err.isSome then
    let _ : Unit ← dkg (.cancelParty party.other)
  dkg (.sendResult err)

end

/-! The system: `Run`, its goroutines, and the other users of the active pair. -/

inductive DkgThread (κ : Type) where
  | run
  | party (party : Party)
  | receiver
  | other (caller : κ)
  deriving DecidableEq

/-- What another user of the active pair calls. -/
inductive OtherCall (κ : Type) where
  | register (pair : Pair)
  | release (lease : κ)

/-- The shared state. The lease of `Run` is `none`, those of the others are from `κ`. -/
structure DkgState (H κ : Type) where
  router : Router := {}
  pair : ActivePair (Option κ) := {}
  /-- Who registered the active pair. -/
  holder : Option (Option κ) := none
  /-- The handles that were handed out. -/
  issued : List H := []
  jobs : Party → Option (PartyJob H) := fun _ => none
  ready : Party → Bool := fun _ => false
  startOpen : Bool := false
  results : List (Party × Option Err) := []
  ended : Party → Bool := fun _ => false

section
variable {H κ : Type} [DecidableEq κ]

def DkgThread.lease : DkgThread κ → Option κ
  | .other caller => some caller
  | _ => none

def DkgState.register (s : DkgState H κ) (lease : Option κ) (pair : Pair) : DkgState H κ :=
  { s with pair := s.pair.register lease pair, holder := some lease }

def DkgState.release (s : DkgState H κ) (lease : Option κ) : DkgState H κ :=
  { s with
    pair := s.pair.release lease
    holder := if (s.pair.release lease).active.isNone then none else s.holder }

variable (L : Libraries) (router : Localrouter.Config)

/-- What a step answers and does. The service never hands out a handle twice; contexts, Core,
the inspectors and the clock answer anything. -/
def dkgSem (i : DkgThread κ) : (o : DkgOp H κ) → DkgState H κ → o.Ans → DkgState H κ → Prop
  | .router o, s, r, t => ∃ router', routerSem L router o s.router r router' ∧
      t = { s with router := router' }
  | .acquire, s, r, t =>
      match r with
      | .ok (some handle) => handle ∉ s.issued ∧ t = { s with issued := handle :: s.issued }
      | _ => t = s
  | .register pair, s, r, t => r = s.pair.active.isNone ∧
      t = if s.pair.active.isNone then s.register i.lease pair else s
  | .release, s, _, t => t = s.release none
  | .releaseOther lease, s, _, t => t = s.release (some lease)
  | .spawn party job, s, _, t => t = { s with jobs := Function.update s.jobs party (some job) }
  | .spawned, s, r, t => (∃ party, i = .party party ∧ s.jobs party = some r) ∧ t = s
  | .ready, s, _, t => ∃ party, i = .party party ∧
      t = { s with ready := Function.update s.ready party true }
  | .awaitReady, s, _, t => (∀ party, s.ready party = true) ∧ t = s
  | .openStart, s, _, t => t = { s with startOpen := true }
  | .awaitStart, s, _, t => s.startOpen = true ∧ t = s
  | .sendResult err, s, _, t => ∃ party, i = .party party ∧
      t = { s with results := s.results ++ [(party,err)] }
  | .groupDone, s, _, t => ∃ party, i = .party party ∧
      t = { s with ended := Function.update s.ended party true }
  | .select, s, r, t =>
      match r with
      | some result => ∃ rest, s.results = result :: rest ∧ t = { s with results := rest }
      | none => s.router.done = true ∧ t = s
  | .takeResult, s, r, t => ∃ rest, s.results = r :: rest ∧ t = { s with results := rest }
  | .awaitGroup, s, _, t => (∀ party, s.ended party = true) ∧ t = s
  | .now, s, _, t | .cancelRun, s, _, t | .beginJob, s, _, t | .finishJob, s, _, t
  | .discard _, s, _, t | .ctxErr, s, _, t | .beginRun _, s, _, t | .endRun, s, _, t
  | .cancelParty _, s, _, t | .inspect _ _, s, _, t => t = s

variable (config : DKGCoordinatorConfig)

/-- How the environment of a run is chosen: what Core does with its transports, after how many
frames the receiver is looked at no further, and what the others call. -/
structure DkgScript (κ : Type) where
  traffic : Party → List Traffic
  frames : Nat
  others : κ → OtherCall κ

/-- The programs; only `Run` has a result. -/
def dkgBody (intent : Intent) (network : Bool) (script : DkgScript κ) :
    DkgThread κ → DkgProg H κ (Option (Except Err DKGResult))
  | .run => do
    let result ← config.run L intent network
    pure (some result)
  | .party party => do
    partyRun config router party (script.traffic party)
    let _ : Unit ← dkg .groupDone
    pure none
  | .receiver => do
    onRouter (receive router script.frames)
    let _ : Unit ← dkg (.router .markReceiverDone)
    pure none
  | .other caller =>
    match script.others caller with
    | .register pair => do
      let _ : Bool ← dkg (.register pair)
      pure none
    | .release lease => do
      let _ : Unit ← dkg (.releaseOther lease)
      pure none

/-- The system of one call of `Run`. -/
def dkgTeam (intent : Intent) (network : Bool) (script : DkgScript κ) :
    Team (DkgThread κ) (DkgOp H κ) DkgOp.Ans (DkgState H κ) (Option (Except Err DKGResult)) where
  sem := dkgSem L router
  body := dkgBody L router config intent network script

end
end CoSigner.Worker
