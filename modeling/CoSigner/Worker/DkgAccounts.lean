import CoSigner.Worker.DkgCoordinator

/-! The accounts of a DKG run: what each of its threads acquires, starts, finishes and gives
back, and the accounts with which they end. -/
namespace CoSigner.Worker
open Contract Monolith Sharestore Localrouter

/-- What a thread did to start and stop the router. -/
structure Gate where
  startEntered : Bool := false
  receiverSpawned : Bool := false
  marked : Bool := false
  finishEntered : Bool := false
  awaited : Bool := false
  deriving DecidableEq

/-- The account of one thread. -/
structure Books (H : Type) where
  acquired : List H := []
  discarded : List H := []
  spawns : List (Party × PartyJob H) := []
  begun : Bool := false
  finishes : Nat := 0
  waited : Bool := false
  registered : Bool := false
  released : Bool := false
  gate : Gate := {}
  job : Option (PartyJob H) := none
  runs : List (PartyJob H) := []
  returned : Bool := false
  done : Bool := false

section
variable {H κ : Type}

def Gate.after (g : Gate) : Event RouterOp RouterOp.Ans → Gate
  | ⟨.enterStart,true⟩ => { g with startEntered := true }
  | ⟨.spawnReceiver,_⟩ => { g with receiverSpawned := true }
  | ⟨.markReceiverDone,_⟩ => { g with marked := true }
  | ⟨.enterFinish,true⟩ => { g with finishEntered := true }
  | ⟨.awaitReceiver,_⟩ => { g with awaited := true }
  | _ => g

def Books.after (b : Books H) : DkgEvent H κ → Books H
  | ⟨.acquire,.ok (some handle)⟩ => { b with acquired := b.acquired ++ [handle] }
  | ⟨.discard handle,_⟩ => { b with discarded := b.discarded ++ [handle] }
  | ⟨.spawn party job,_⟩ => { b with spawns := b.spawns ++ [(party,job)] }
  | ⟨.beginJob,none⟩ => { b with begun := true }
  | ⟨.finishJob,_⟩ => { b with finishes := b.finishes + 1 }
  | ⟨.awaitGroup,_⟩ => { b with waited := true }
  | ⟨.register _,true⟩ => { b with registered := true }
  | ⟨.release,_⟩ => { b with released := true }
  | ⟨.router o,r⟩ => { b with gate := b.gate.after ⟨o,r⟩ }
  | ⟨.spawned,job⟩ => { b with job := some job }
  | ⟨.beginRun job,_⟩ => { b with runs := b.runs ++ [job] }
  | ⟨.endRun,_⟩ => { b with returned := true }
  | ⟨.groupDone,_⟩ => { b with done := true }
  | _ => b

/-- What `Run` may do when. -/
def runPre : DkgOp H κ → Books H → Prop
  | .spawn party _, b => b.finishes = 0 ∧ b.waited = false ∧ ∀ job, (party,job) ∉ b.spawns
  | .finishJob, b => b.spawns = [] ∨ b.waited = true
  | .register _, b => b.registered = false ∧ b.released = false
  | .router .leaveStart, b => b.gate.startEntered = true
  | .router .spawnReceiver, b => b.gate.startEntered = true ∧ b.gate.marked = false
  | .router .markReceiverDone, b => b.gate.receiverSpawned = false
  | .router .leaveFinish, b => b.gate.finishEntered = true
  | .releaseOther _, _ | .spawned, _ | .ready, _ | .awaitStart, _ | .beginRun _, _ | .endRun, _
  | .sendResult _, _ | .groupDone, _ => False
  | _, _ => True

/-- What a party goroutine may do when. -/
def partyPre : DkgOp H κ → Books H → Prop
  | .spawned, b => b.done = false ∧ b.job = none
  | .beginRun job, b => b.done = false ∧ b.job = some job ∧ b.runs = []
  | .endRun, b => b.done = false ∧ b.runs ≠ []
  | .groupDone, b => b.done = false ∧ b.returned = true
  | .ready, b | .awaitStart, b | .cancelParty _, b | .sendResult _, b => b.done = false
  | .router o, b => b.done = false ∧ o.steers = false
  | _, _ => False

/-- What the receiver may do when. -/
def receiverPre : DkgOp H κ → Books H → Prop
  | .router .markReceiverDone, _ => True
  | .router o, _ => o.steers = false
  | _, _ => False

def otherPre : DkgOp H κ → Books H → Prop
  | .register _, _ | .releaseOther _, _ => True
  | _, _ => False

def dkgPre : DkgThread κ → DkgOp H κ → Books H → Prop
  | .run => runPre
  | .party _ => partyPre
  | .receiver => receiverPre
  | .other _ => otherPre

/-- `startOnce` and `finishOnce` are entered by `Run` only. -/
def dkgEnv : DkgThread κ → (o : DkgOp H κ) → Books H → o.Ans → Prop
  | .run, .router .enterStart, b, r => r = !b.gate.startEntered
  | .run, .router .enterFinish, b, r => r = !b.gate.finishEntered
  | _, _, _, _ => True

/-- What has been acquired is given back or in use by the parties. -/
def Books.Disposed (b : Books H) : Prop :=
  b.spawns = [] ∧ b.discarded = b.acquired ∨
    ∃ primary recovery : PartyJob H, b.spawns = [(.primary,primary),(.recovery,recovery)] ∧
      b.waited = true ∧ b.discarded = [] ∧
      b.acquired = primary.handle.toList ++ recovery.handle.toList

/-- The account before the deferred calls that belong to the router. -/
structure Books.Settled (b : Books H) : Prop where
  disposed : b.Disposed
  finished : b.finishes = if b.begun then 1 else 0
  released : b.registered = true → b.released = true

/-- The account with which `Run` returns. -/
structure Books.Closed (b : Books H) : Prop extends b.Settled where
  awaited : b.gate.startEntered = true → b.gate.awaited = true

def dkgPost : DkgThread κ → Option (Except Err DKGResult) → Books H → Prop
  | .run, _, b => b.Closed
  | _, _, _ => True

abbrev dkgKeeping (i : DkgThread κ) : Discipline (DkgOp H κ) DkgOp.Ans (Books H) :=
  Prog.keeping Books.after (dkgEnv i) (dkgPre i)

theorem Gate.after_traffic {o : RouterOp} (h : o.steers = false) (g : Gate) (r : o.Ans) :
    g.after ⟨o,r⟩ = g := by
  cases o <;> first | rfl | cases h

theorem traffics_keeps {α : Type} {p : RouterProg α} (hp : Traffics p) {i : DkgThread κ}
    {b : Books H} (hpre : ∀ o : RouterOp, o.steers = false → dkgPre i (.router o) b) :
    (onRouter p).Meets (dkgKeeping i) (fun _ t => t = b) b := by
  have honly : (onRouter p : DkgProg H κ α).Only
      fun o => ∃ o' : RouterOp, o'.steers = false ∧ o = .router o' :=
    hp.relabel fun o ho => ⟨o,ho,rfl⟩
  refine honly.keeps ?_
  rintro _ ⟨o,ho,rfl⟩
  exact ⟨hpre o ho,fun r =>
    congrArg (fun g => { b with gate := g }) (Gate.after_traffic ho b.gate r)⟩

theorem currentError_meets (b : Books H) :
    (onRouter currentError).Meets (dkgKeeping (κ := κ) .run) (fun _ t => t = b) b := by
  refine traffics_keeps currentError_traffics fun o ho => ?_
  cases o <;> trivial

theorem routes_perform {α : Type} {o : RouterOp} {f : o.Ans → RouterProg α}
    {Q : α → Books H → Prop} {b : Books H} (hpre : runPre (κ := κ) (.router o) b)
    (hnext : ∀ r : o.Ans, dkgEnv (κ := κ) .run (.router o) b r →
      (onRouter (f r)).Meets (dkgKeeping (κ := κ) .run) Q
        { b with gate := b.gate.after ⟨o,r⟩ }) :
    (onRouter (route o >>= f)).Meets (dkgKeeping (κ := κ) .run) Q b :=
  Prog.keeps_perform hpre hnext

/-- The router is started, and if it was finished then its receiver was awaited. -/
structure Gate.Open (g : Gate) : Prop where
  started : g.startEntered = true
  awaited : g.finishEntered = true → g.awaited = true

theorem start_meets {b : Books H} (hgate : b.gate = {}) :
    (onRouter start).Meets (dkgKeeping (κ := κ) .run)
      (fun _ t => ∃ g : Gate, g.Open ∧ t = { b with gate := g }) b := by
  refine routes_perform trivial ?_
  intro (first : Bool) hfirst
  obtain rfl : first = true := by rw [show first = !b.gate.startEntered from hfirst, hgate]; rfl
  refine routes_perform trivial ?_
  intro (opened : Bool) _
  cases opened with
  | true =>
    refine routes_perform (by simp [runPre, Gate.after, hgate]) fun _ _ => ?_
    refine routes_perform rfl fun _ _ => ?_
    exact Prog.keeps_pure ⟨_,⟨rfl,by simp [Gate.after, hgate]⟩,rfl⟩
  | false =>
    refine routes_perform trivial fun _ _ => ?_
    refine routes_perform (by simp [runPre, Gate.after, hgate]) fun _ _ => ?_
    refine routes_perform rfl fun _ _ => ?_
    exact Prog.keeps_pure ⟨_,⟨rfl,by simp [Gate.after, hgate]⟩,rfl⟩

theorem settleFinish_meets {b : Books H} (hstarted : b.gate.startEntered = true)
    (hentered : b.gate.finishEntered = true) :
    (onRouter settleFinish).Meets (dkgKeeping (κ := κ) .run)
      (fun _ t => ∃ g : Gate, g.Open ∧ g.awaited = true ∧ t = { b with gate := g }) b := by
  refine routes_perform trivial fun _ _ => routes_perform trivial ?_
  intro (failure : Option Err) _
  cases failure with
  | none =>
    refine routes_perform trivial fun _ _ => routes_perform hentered fun _ _ => ?_
    exact Prog.keeps_call trivial fun _ _ =>
      ⟨{ b.gate with awaited := true },⟨hstarted,fun _ => rfl⟩,rfl,rfl⟩
  | some e =>
    refine routes_perform hentered fun _ _ => ?_
    exact Prog.keeps_call trivial fun _ _ =>
      ⟨{ b.gate with awaited := true },⟨hstarted,fun _ => rfl⟩,rfl,rfl⟩

theorem finish_meets {b : Books H} (hgate : b.gate.Open) :
    (onRouter finish).Meets (dkgKeeping (κ := κ) .run)
      (fun _ t => ∃ g : Gate, g.Open ∧ g.awaited = true ∧ t = { b with gate := g }) b := by
  refine routes_perform trivial ?_
  intro (first : Bool) hfirst
  cases first with
  | false =>
    have hfinished : b.gate.finishEntered = true := by
      simpa using (show false = !b.gate.finishEntered from hfirst)
    exact Prog.keeps_call trivial fun _ _ => ⟨_,hgate,hgate.awaited hfinished,rfl⟩
  | true =>
    refine routes_perform trivial fun _ _ => ?_
    refine routes_perform trivial ?_
    intro (unstarted : Bool) hunstarted
    obtain rfl : unstarted = false := by
      rw [show unstarted = !b.gate.startEntered from hunstarted, hgate.started]
      rfl
    refine routes_perform trivial ?_
    intro (cancel : Bool) _
    cases cancel with
    | true =>
      refine routes_perform trivial fun _ _ => ?_
      exact settleFinish_meets hgate.started rfl
    | false => exact settleFinish_meets hgate.started rfl

theorem discardHandle_meets (name : String) (handle : Option H) (b : Books H) :
    (discardHandle name handle).Meets (dkgKeeping (κ := κ) .run)
      (fun _ t => t = { b with discarded := b.discarded ++ handle.toList }) b := by
  cases handle with
  | none => exact Prog.keeps_pure (by simp)
  | some handle =>
    refine Prog.keeps_perform trivial ?_
    intro (err : Option Err) _
    exact Prog.keeps_pure rfl

variable {config : DKGCoordinatorConfig}

theorem takeResults_meets (sessionID : Bytes) (n : Nat) (failures : List Err) (b : Books H) :
    (takeResults config sessionID n failures).Meets (dkgKeeping (κ := κ) .run)
      (fun _ t => t = b) b := by
  induction n generalizing failures with
  | zero => exact Prog.keeps_pure rfl
  | succ n ih =>
    refine Prog.keeps_perform trivial ?_
    intro (result : Party × Option Err) _
    exact ih _

theorem watchResults_meets (sessionID : Bytes) (n : Nat) (failures : List Err) (b : Books H) :
    (watchResults config sessionID n failures).Meets (dkgKeeping (κ := κ) .run)
      (fun _ t => t = b) b := by
  induction n generalizing failures with
  | zero => exact Prog.keeps_pure rfl
  | succ n ih =>
    refine Prog.keeps_perform trivial ?_
    intro (choice : Option (Party × Option Err)) _
    cases choice with
    | some result => exact ih _
    | none =>
      refine Prog.keeps_bind ((currentError_meets b).mono ?_)
      rintro routerErr _ - rfl
      refine Prog.keeps_perform trivial fun _ _ => Prog.keeps_perform trivial fun _ _ => ?_
      refine Prog.keeps_bind ((takeResults_meets sessionID (n + 1) failures _).mono ?_)
      rintro _ _ - rfl
      exact Prog.keeps_pure rfl

/-- What a party is started with. -/
def partyJob (config : DKGCoordinatorConfig) (runtimeContext : ValidatedDKGContext)
    (party : Party) (handle : Option H) : PartyJob H :=
  ⟨buildPartyDKGRequest runtimeContext (config.partyID party),handle⟩

theorem runParties_meets (runtimeContext : ValidatedDKGContext)
    (primaryHandle recoveryHandle : Option H) {b : Books H} (hspawns : b.spawns = [])
    (hwaited : b.waited = false) (hfinishes : b.finishes = 0) :
    (runParties config runtimeContext primaryHandle recoveryHandle).Meets
      (dkgKeeping (κ := κ) .run) (fun _ t => t = { b with
        spawns := [(.primary,partyJob config runtimeContext .primary primaryHandle),
          (.recovery,partyJob config runtimeContext .recovery recoveryHandle)]
        waited := true }) b := by
  refine Prog.keeps_perform ⟨hfinishes,hwaited,by simp [hspawns]⟩ fun _ _ => ?_
  refine Prog.keeps_perform ⟨hfinishes,hwaited,by simp [Books.after, hspawns]⟩ fun _ _ => ?_
  refine Prog.keeps_perform trivial fun _ _ => Prog.keeps_perform trivial fun _ _ => ?_
  refine Prog.keeps_bind ((watchResults_meets _ _ _ _).mono ?_)
  rintro ⟨failures,routerErr⟩ _ - rfl
  refine Prog.keeps_perform trivial fun _ _ => ?_
  refine Prog.keeps_bind ((currentError_meets _).mono ?_)
  rintro terminalErr _ - rfl
  refine Prog.keeps_perform trivial fun _ _ => Prog.keeps_perform trivial fun _ _ => ?_
  cases terminalErr.or routerErr <;>
    exact Prog.keeps_pure (by simp [Books.after, hspawns, partyJob])

theorem inspectPair_meets (runtimeContext : ValidatedDKGContext) (b : Books H) :
    (inspectPair config runtimeContext).Meets (dkgKeeping (κ := κ) .run) (fun _ t => t = b) b := by
  refine Prog.keeps_perform trivial ?_
  intro (primary : Except Err ArtifactEvidence) _
  cases primary with
  | error e => exact Prog.keeps_pure rfl
  | ok primaryEvidence =>
    refine Prog.keeps_perform trivial ?_
    intro (recovery : Except Err ArtifactEvidence) _
    cases recovery with
    | error e => exact Prog.keeps_pure rfl
    | ok recoveryEvidence =>
      dsimp only
      cases compareEvidence config runtimeContext primaryEvidence recoveryEvidence <;>
        exact Prog.keeps_pure rfl

theorem close_meets {b : Books H} (hgate : b.gate.Open) :
    (onRouter close).Meets (dkgKeeping (κ := κ) .run)
      (fun _ t => ∃ g : Gate, g.awaited = true ∧ t = { b with gate := g }) b := by
  rw [show (onRouter close : DkgProg H κ Unit) = onRouter finish >>= fun _ => pure () from
    Prog.relabel_bind _ _ _ _]
  refine Prog.keeps_bind ((finish_meets hgate).mono ?_)
  rintro _ t - ⟨g,-,hg,ht⟩
  exact Prog.keeps_pure ⟨g,hg,ht⟩

theorem releaseBeforeStart_meets (runErr : Err) (primaryHandle recoveryHandle : Option H)
    (b : Books H) : (releaseBeforeStart runErr primaryHandle recoveryHandle).Meets
      (dkgKeeping (κ := κ) .run) (fun _ t => t = { b with
        released := true
        discarded := b.discarded ++ primaryHandle.toList ++ recoveryHandle.toList }) b := by
  refine Prog.keeps_perform trivial fun _ _ => ?_
  refine Prog.keeps_bind ((discardHandle_meets _ primaryHandle _).mono ?_)
  rintro first _ - rfl
  refine Prog.keeps_bind ((discardHandle_meets _ recoveryHandle _).mono ?_)
  rintro second _ - rfl
  exact Prog.keeps_pure (by simp [Books.after])

/-- The account of `Run` while it holds two handles and the job. -/
structure Books.Holding (b : Books H) (primaryHandle recoveryHandle : Option H) : Prop where
  acquired : b.acquired = primaryHandle.toList ++ recoveryHandle.toList
  discarded : b.discarded = []
  spawns : b.spawns = []
  waited : b.waited = false
  begun : b.begun = true
  finishes : b.finishes = 0
  gate : b.gate.Open

/-- The account with which `Run` leaves the job; `finished` says whether it has finished it. -/
structure Books.Left (b : Books H) (finished : Bool) : Prop where
  disposed : b.Disposed
  spawns : finished = false → b.spawns = []
  begun : b.begun = true
  finishes : b.finishes = if finished then 1 else 0
  released : b.registered = true → b.released = true
  gate : b.gate.Open

theorem runRegistered_meets (runtimeContext : ValidatedDKGContext)
    {primaryHandle recoveryHandle : Option H} {b : Books H}
    (hb : b.Holding primaryHandle recoveryHandle) :
    (runRegistered config runtimeContext primaryHandle recoveryHandle).Meets
      (dkgKeeping (κ := κ) .run) (fun result t => t.Left result.2) b := by
  have hundone (e : Err) : (do
      let err ← releaseBeforeStart e primaryHandle recoveryHandle
      pure (.error (joined [err]),false) : DkgProg H κ (Except Err DKGResult × Bool)).Meets
      (dkgKeeping .run) (fun result t => t.Left result.2) b := by
    refine Prog.keeps_bind ((releaseBeforeStart_meets e primaryHandle recoveryHandle b).mono ?_)
    rintro err _ - rfl
    refine Prog.keeps_pure ⟨.inl ⟨hb.spawns,?_⟩,fun _ => hb.spawns,hb.begun,hb.finishes,
      fun _ => rfl,hb.gate⟩
    simp [hb.discarded, hb.acquired]
  refine Prog.keeps_perform trivial ?_
  intro (ended : Option Err) _
  cases ended with
  | some e => exact hundone e
  | none =>
    refine Prog.keeps_perform trivial ?_
    intro (ended : Option Err) _
    cases ended with
    | some e => exact hundone e
    | none =>
      refine Prog.keeps_bind ((runParties_meets runtimeContext primaryHandle recoveryHandle
        hb.spawns hb.waited hb.finishes).mono ?_)
      rintro runErr _ - rfl
      refine Prog.keeps_bind (Prog.Meets.mono (finish_meets ?_) ?_)
      · exact hb.gate
      rintro finishErr _ - ⟨g,hg,-,rfl⟩
      refine Prog.keeps_perform trivial fun _ _ => Prog.keeps_perform (.inr rfl) fun _ _ => ?_
      have hleft : Books.Left { b with
          spawns := [(.primary,partyJob config runtimeContext .primary primaryHandle),
            (.recovery,partyJob config runtimeContext .recovery recoveryHandle)]
          waited := true, gate := g, released := true, finishes := b.finishes + 1 } true :=
        ⟨.inr ⟨_,_,rfl,rfl,hb.discarded,hb.acquired⟩,nofun,hb.begun,by simp [hb.finishes],
          fun _ => rfl,hg⟩
      cases finishErr.or runErr with
      | some e => exact Prog.keeps_pure hleft
      | none =>
        refine Prog.keeps_bind ((inspectPair_meets runtimeContext _).mono ?_)
        rintro result _ - rfl
        exact Prog.keeps_pure hleft

variable {L : Libraries}

theorem Books.after_acquire (b : Books H) (handle : Option H) :
    b.after (κ := κ) ⟨.acquire,.ok handle⟩ = { b with acquired := b.acquired ++ handle.toList } := by
  cases handle with
  | none => simp [Books.after]
  | some handle => rfl

/-- The account while nothing is registered. -/
structure Books.Unregistered (b : Books H) (primaryHandle recoveryHandle : Option H) : Prop
    extends b.Holding primaryHandle recoveryHandle where
  registered : b.registered = false
  released : b.released = false

theorem Books.Unregistered.left {b : Books H} {primaryHandle recoveryHandle : Option H}
    (hb : b.Unregistered primaryHandle recoveryHandle) :
    Books.Left { b with
      discarded := b.discarded ++ primaryHandle.toList ++ recoveryHandle.toList } false := by
  refine ⟨.inl ⟨hb.spawns,by simp [hb.discarded, hb.acquired]⟩,fun _ => hb.spawns,hb.begun,
    hb.finishes,fun hr => ?_,hb.gate⟩
  simp [hb.registered] at hr

theorem discardBoth_meets {b : Books H} {primaryHandle recoveryHandle : Option H}
    (hb : b.Unregistered primaryHandle recoveryHandle) (cause : Err) : (do
      let first ← discardHandle "primary" primaryHandle
      let second ← discardHandle "recovery" recoveryHandle
      pure (.error (joined [some cause,first,second]),false) :
        DkgProg H κ (Except Err DKGResult × Bool)).Meets (dkgKeeping .run)
      (fun result t => t.Left result.2) b := by
  refine Prog.keeps_bind ((discardHandle_meets _ primaryHandle b).mono ?_)
  rintro first _ - rfl
  refine Prog.keeps_bind ((discardHandle_meets _ recoveryHandle _).mono ?_)
  rintro second _ - rfl
  exact Prog.keeps_pure hb.left

theorem runJob_meets (runtimeContext : ValidatedDKGContext) {b : Books H}
    (hb : b.Unregistered none none) :
    (runJob L config runtimeContext).Meets (dkgKeeping (κ := κ) .run)
      (fun result t => t.Left result.2) b := by
  refine Prog.keeps_perform trivial ?_
  intro (primary : Except Err (Option H)) _
  cases primary with
  | error e =>
    have hleft := hb.left
    exact Prog.keeps_pure (by simpa [Books.after] using hleft)
  | ok primaryHandle =>
    rw [Books.after_acquire]
    refine Prog.keeps_perform trivial ?_
    intro (recovery : Except Err (Option H)) _
    cases recovery with
    | error e =>
      have hb₁ : Books.Unregistered { b with acquired := b.acquired ++ primaryHandle.toList }
          primaryHandle none :=
        { hb with acquired := by simp [hb.acquired] }
      refine Prog.keeps_bind ((discardHandle_meets _ primaryHandle _).mono ?_)
      rintro discarded _ - rfl
      have hleft := hb₁.left
      exact Prog.keeps_pure (by simpa [Books.after] using hleft)
    | ok recoveryHandle =>
      rw [Books.after_acquire]
      have hb₂ : Books.Unregistered
          { b with acquired := b.acquired ++ primaryHandle.toList ++ recoveryHandle.toList }
          primaryHandle recoveryHandle :=
        { hb with acquired := by simp [hb.acquired] }
      dsimp only
      split
      · exact discardBoth_meets hb₂ _
      · refine Prog.keeps_perform ⟨hb.registered,hb.released⟩ ?_
        intro (free : Bool) _
        cases free with
        | false => exact discardBoth_meets hb₂ _
        | true => exact runRegistered_meets runtimeContext { hb₂ with }

theorem runAdmitted_meets (runtimeContext : ValidatedDKGContext) {g : Gate} (hg : g.Open) :
    (runAdmitted L config runtimeContext).Meets (dkgKeeping (κ := κ) .run)
      (fun _ t => t.Settled ∧ t.gate.Open) ({ gate := g } : Books H) := by
  refine Prog.keeps_perform trivial ?_
  intro (begun : Option Err) _
  cases begun with
  | some e => exact Prog.keeps_pure ⟨⟨.inl ⟨rfl,rfl⟩,rfl,nofun⟩,hg⟩
  | none =>
    have hb : Books.Unregistered ({ gate := g, begun := true } : Books H) none none :=
      ⟨⟨rfl,rfl,rfl,rfl,rfl,rfl,hg⟩,rfl,rfl⟩
    refine Prog.keeps_bind ((runJob_meets runtimeContext hb).mono ?_)
    rintro ⟨result,finished⟩ t - ht
    cases finished with
    | true =>
      exact Prog.keeps_pure ⟨⟨ht.disposed,by simp [ht.finishes, ht.begun],ht.released⟩,ht.gate⟩
    | false =>
      refine Prog.keeps_perform (.inl (ht.spawns rfl)) fun _ _ => Prog.keeps_pure ?_
      exact ⟨⟨ht.disposed,by simp [Books.after, ht.finishes, ht.begun],ht.released⟩,ht.gate⟩

theorem runRouted_meets (router : Localrouter.Config) (runtimeContext : ValidatedDKGContext) :
    (runRouted L config router runtimeContext).Meets (dkgKeeping (κ := κ) .run)
      (fun _ t => t.Closed) ({} : Books H) := by
  unfold runRouted
  split
  · refine Prog.keeps_bind (Prog.Meets.mono (start_meets rfl) ?_)
    rintro _ _ - ⟨g,hg,rfl⟩
    have hclose (result : Except Err DKGResult) (t : Books H) (ht : t.Settled ∧ t.gate.Open) :
        (do onRouter close; pure result : DkgProg H κ (Except Err DKGResult)).Meets
          (dkgKeeping .run) (fun _ t => t.Closed) t := by
      refine Prog.keeps_bind ((close_meets ht.2).mono ?_)
      rintro _ _ - ⟨g',hg',rfl⟩
      exact Prog.keeps_pure ⟨⟨ht.1.disposed,ht.1.finished,ht.1.released⟩,fun _ => hg'⟩
    split
    · exact Prog.keeps_bind ((runAdmitted_meets runtimeContext hg).mono
        fun result t _ ht => hclose result t ht)
    · exact hclose _ _ ⟨⟨.inl ⟨rfl,rfl⟩,rfl,nofun⟩,hg⟩
  · exact Prog.keeps_pure ⟨⟨.inl ⟨rfl,rfl⟩,rfl,nofun⟩,nofun⟩

theorem run_meets (intent : Intent) (network : Bool) :
    (config.run L intent network).Meets (dkgKeeping (κ := κ) .run)
      (fun _ t => t.Closed) ({} : Books H) := by
  have hidle : Books.Closed ({} : Books H) := ⟨⟨.inl ⟨rfl,rfl⟩,rfl,nofun⟩,nofun⟩
  cases network with
  | false => exact Prog.keeps_pure hidle
  | true =>
    refine Prog.keeps_perform trivial ?_
    intro (now : Time) _
    cases validateRuntimeContext L config intent now with
    | error e => exact Prog.keeps_pure hidle
    | ok runtimeContext =>
      refine Prog.keeps_bind ((runRouted_meets _ runtimeContext).mono ?_)
      intro result t _ ht
      exact Prog.keeps_perform trivial fun _ _ => Prog.keeps_pure ht

theorem runTraffic_traffics {router : Localrouter.Config} (partyID : Bytes)
    (traffic : List Traffic) : Traffics (runTraffic router partyID traffic) := by
  induction traffic with
  | nil => trivial
  | cons t traffic ih =>
    refine Prog.only_bind ?_ fun _ => ih
    cases t with
    | send frame => exact Prog.only_bind (sendFrame_traffics _ _) fun _ => trivial
    | recv => exact Prog.only_bind (recvFrame_traffics _) fun _ => trivial

theorem partyRun_meets {router : Localrouter.Config} (party : Party) (traffic : List Traffic) :
    (partyRun config router party traffic).Meets (dkgKeeping (κ := κ) (.party party))
      (fun _ t => t.done = false ∧ t.returned = true) ({} : Books H) := by
  refine Prog.keeps_perform ⟨rfl,rfl⟩ ?_
  intro (job : PartyJob H) _
  refine Prog.keeps_perform rfl fun _ _ => Prog.keeps_perform rfl fun _ _ => ?_
  refine Prog.keeps_perform ⟨rfl,rfl,rfl⟩ fun _ _ => ?_
  refine Prog.keeps_bind (Prog.Meets.mono (traffics_keeps (runTraffic_traffics _ _) ?_) ?_)
  · exact fun o ho => ⟨rfl,ho⟩
  rintro _ _ - rfl
  refine Prog.keeps_perform ⟨rfl,by simp [Books.after]⟩ ?_
  intro (err : Option Err) _
  cases err with
  | none => exact Prog.keeps_call rfl fun _ _ => ⟨rfl,rfl⟩
  | some e =>
    exact Prog.keeps_perform rfl fun _ _ => Prog.keeps_call rfl fun _ _ => ⟨rfl,rfl⟩

theorem dkgBody_meets {router : Localrouter.Config} (intent : Intent) (network : Bool)
    (script : DkgScript κ) (i : DkgThread κ) :
    (dkgBody L router config intent network script i).Meets (dkgKeeping i) (dkgPost i)
      ({} : Books H) := by
  cases i with
  | run =>
    exact Prog.keeps_bind ((run_meets intent network).mono fun _ _ _ ht => Prog.keeps_pure ht)
  | party party =>
    refine Prog.keeps_bind ((partyRun_meets party _).mono ?_)
    intro _ t _ ht
    exact Prog.keeps_perform ht fun _ _ => Prog.keeps_pure trivial
  | receiver =>
    refine Prog.keeps_bind ((traffics_keeps (receive_traffics _) fun o ho => ?_).mono ?_)
    · cases o <;> first | exact ho | cases ho
    · rintro _ _ - rfl
      exact Prog.keeps_perform trivial fun _ _ => Prog.keeps_pure trivial
  | other caller =>
    dsimp only [dkgBody]
    cases script.others caller with
    | register pair => exact Prog.keeps_perform trivial fun _ _ => Prog.keeps_pure trivial
    | release lease => exact Prog.keeps_perform trivial fun _ _ => Prog.keeps_pure trivial

end
end CoSigner.Worker
