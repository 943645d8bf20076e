import CoSigner.Errors
import CoSigner.Lib.Team
import Mathlib.Data.List.Chain

/-! The control of the preparams refill (`preparams/controller.go`): any number of calls of
`BeginJob`, of the functions it returns, of `observe` and of `AdmissionHint`, interleaved, with
every locked region and every call of the core service one step. -/
namespace CoSigner.Preparams

/-- What `Controller` reads of `coretss.Snapshot`. -/
structure Snapshot where
  poolSize : Int
  generationInFlight : Int
  deriving DecidableEq, Repr

/-- What the core service is told. -/
inductive Refill where
  | pause | resume
  deriving DecidableEq, Repr

section
variable {κ : Type}

/-- The calls of `BeginJob` are the jobs. -/
inductive ControllerOp (κ : Type) where
  | snapshot
  | refill (call : Refill) (job : κ)
  /-- The locked region of `BeginJob`; whether no job was active. -/
  | activate (job : κ)
  /-- The locked region that clears `jobActive`. -/
  | deactivate (job : κ)
  /-- The locked region of `observe`: ready, and whether it became ready. -/
  | observe (snapshot : Snapshot)
  /-- The send to `wakeups`. -/
  | wake
  /-- The `select` of `waitForGenerationIdle`: the error of the context, or a tick. -/
  | select
  /-- `BeginJob` returns its function. -/
  | issue (job : κ)
  /-- The `once` of the function is entered and left; whether this caller is the first. -/
  | enter (job : κ)
  | leave (job : κ)

def ControllerOp.Ans : ControllerOp κ → Type
  | .snapshot => Snapshot
  | .activate _ | .enter _ => Bool
  | .observe _ => Bool × Bool
  | .select => Option Err
  | _ => Unit

abbrev ControllerProg (κ α : Type) := Prog (ControllerOp κ) ControllerOp.Ans α

abbrev ControllerEvent (κ : Type) := Event (ControllerOp κ) ControllerOp.Ans

def step (o : ControllerOp κ) : ControllerProg κ o.Ans := .perform o

def observe : ControllerProg κ Bool := do
  let snapshot : Snapshot ← step .snapshot
  let (ready,becameReady) : Bool × Bool ← step (.observe snapshot)
  if becameReady then do
    let _ : Unit ← step .wake
    pure ready
  else pure ready

/-- The loop of `waitForGenerationIdle`, cut off after some ticks. -/
def waitTicks : Nat → ControllerProg κ (Option Err)
  | 0 => .halt
  | ticks + 1 => do
    let err : Option Err ← step .select
    match err with
    | some err => pure (some err)
    | none => do
      let snapshot : Snapshot ← step .snapshot
      if snapshot.generationInFlight = 0 then pure none else waitTicks ticks

def waitForGenerationIdle (ticks : Nat) : ControllerProg κ (Option Err) := do
  let snapshot : Snapshot ← step .snapshot
  if snapshot.generationInFlight = 0 then pure none else waitTicks ticks

def errJobAlreadyActive : Err := { text := ascii "preparams-controlled dkg job is already active" }

/-- What a call returns. -/
inductive Outcome where
  /-- `BeginJob`: a function, or an error. -/
  | began (err : Option Err)
  | finished
  | observed (ready : Bool)
  deriving DecidableEq, Repr

/-- Refill goes on and the job is over. -/
def endJob (job : κ) : ControllerProg κ Unit := do
  let _ : Unit ← step (.refill .resume job)
  let _ : Unit ← step (.deactivate job)
  let _ ← observe
  pure ()

def beginJob (ticks : Nat) (job : κ) : ControllerProg κ Outcome := do
  let activated : Bool ← step (.activate job)
  if activated then do
    let _ : Unit ← step (.refill .pause job)
    let err ← waitForGenerationIdle ticks
    match err with
    | some err => do
      endJob job
      pure (.began (some err))
    | none => do
      let _ : Unit ← step (.issue job)
      pure (.began none)
  else pure (.began (some errJobAlreadyActive))

/-- The function that `BeginJob` returns. -/
def finish (job : κ) : ControllerProg κ Outcome := do
  let first : Bool ← step (.enter job)
  if first then do
    endJob job
    let _ : Unit ← step (.leave job)
    pure .finished
  else pure .finished

def admissionHint : ControllerProg κ Outcome := do
  let ready ← observe
  pure (.observed ready)

end

inductive ControllerThread (κ φ ω : Type) where
  | begin (job : κ)
  | finish (i : φ)
  | hint (i : ω)
  deriving DecidableEq

/-- How long `BeginJob` waits at most, and whose function is called. -/
structure ControllerScript (κ φ : Type) where
  ticks : κ → Nat
  finishes : φ → κ

/-- Who runs the body of a `once`. -/
inductive Once (φ : Type) where
  | fresh
  | running (i : φ)
  | done
  deriving DecidableEq, Repr

/-- `Controller`. The functions that were returned, the jobs that were begun and are not over, and
what the core service was told, are recorded beside its fields. -/
structure Controller (κ φ : Type) where
  jobActive : Bool := false
  ready : Bool := false
  generating : Bool := false
  /-- An element is in `wakeups`. -/
  woken : Bool := false
  issued : κ → Bool := fun _ => false
  once : κ → Once φ := fun _ => .fresh
  jobs : List κ := []
  refills : List Refill := []

def Snapshot.ready (snapshot : Snapshot) : Bool :=
  2 ≤ snapshot.poolSize && snapshot.generationInFlight == 0

section
variable {κ φ ω : Type} [DecidableEq κ]

/-- `ready` of the locked region of `observe`. -/
def Controller.readyFor (s : Controller κ φ) (snapshot : Snapshot) : Bool :=
  if s.jobActive then false else snapshot.ready

def controllerSem (i : ControllerThread κ φ ω) :
    (o : ControllerOp κ) → Controller κ φ → o.Ans → Controller κ φ → Prop
  | .snapshot, s, _, t => t = s
  | .refill call _, s, _, t => t = { s with refills := s.refills ++ [call] }
  | .activate job, s, r, t => r = !s.jobActive ∧
      t = if s.jobActive then s else
        { s with jobActive := true, ready := false, jobs := s.jobs ++ [job] }
  | .deactivate job, s, _, t => t = { s with jobActive := false, jobs := s.jobs.erase job }
  | .observe snapshot, s, r, t =>
      let ready := s.readyFor snapshot
      r = (ready,ready && !s.ready) ∧ t = { s with
        generating := if 0 < snapshot.generationInFlight then true else
          if snapshot.generationInFlight = 0 then false else s.generating
        ready := ready }
  | .wake, s, _, t => t = { s with woken := true }
  | .select, s, _, t => t = s
  | .issue job, s, _, t => t = { s with issued := Function.update s.issued job true }
  | .enter job, s, r, t => match i with
    | .finish i => s.issued job = true ∧ (∀ j, s.once job ≠ .running j) ∧
        r = (s.once job matches .fresh) ∧
        t = if s.once job matches .fresh then
          { s with once := Function.update s.once job (.running i) } else s
    | _ => False
  | .leave job, s, _, t => t = { s with once := Function.update s.once job .done }

def controllerBody (w : ControllerScript κ φ) :
    ControllerThread κ φ ω → ControllerProg κ Outcome
  | .begin job => beginJob (w.ticks job) job
  | .finish i => finish (w.finishes i)
  | .hint _ => admissionHint

def controllerTeam (w : ControllerScript κ φ) : Team (ControllerThread κ φ ω) (ControllerOp κ)
    ControllerOp.Ans (Controller κ φ) Outcome where
  sem := controllerSem
  body := controllerBody w

end

/-! What the core service is told. -/

/-- Pause and resume in turn, pause first. -/
structure Alternating (l : List Refill) : Prop where
  chain : l.IsChain (· ≠ ·)
  first : l.head? ≠ some .resume
  count : l.count .pause = l.count .resume + if l.getLast? = some .pause then 1 else 0

theorem Alternating.nil : Alternating [] := ⟨.nil,nofun,rfl⟩

theorem Alternating.snoc {l : List Refill} (h : Alternating l) {call : Refill}
    (hcall : (call = .resume) ↔ l.getLast? = some .pause) : Alternating (l ++ [call]) := by
  have hne : ∀ c ∈ l.getLast?, c ≠ call := by
    rintro c hc rfl
    cases c with
    | pause => exact absurd (hcall.mpr hc) nofun
    | resume => exact absurd (hc.symm.trans (hcall.mp rfl)) nofun
  refine ⟨List.isChain_append.mpr ⟨h.chain,.singleton _,fun c hc d hd => ?_⟩,?_,?_⟩
  · obtain rfl := Option.some.inj hd
    exact hne c hc
  · cases l with
    | nil =>
      rintro heq
      exact absurd (hcall.mp (by simpa using heq)) nofun
    | cons c l => exact h.first
  · have hcount := h.count
    cases call with
    | pause =>
      rw [if_neg fun hlast => absurd (hcall.mpr hlast) nofun] at hcount
      simp [hcount]
    | resume =>
      rw [if_pos (hcall.mp rfl)] at hcount
      simp [hcount]

inductive JobPhase where
  | idle | active | paused | resumed | over
  deriving DecidableEq, Repr

def JobPhase.live : JobPhase → Bool
  | .active | .paused | .resumed => true
  | _ => false

/-- At most one job is live, the flag says whether one is, and refill is paused for it. -/
structure RefillHeld {κ : Type} (jobActive : Bool) (jobs : List κ) (refills : List Refill)
    (phase : κ → JobPhase) : Prop where
  off : jobActive = false → jobs = [] ∧ ∀ j, (phase j).live = false
  on : jobActive = true → ∃ j, jobs = [j] ∧ ∀ k, (phase k).live = true ↔ k = j
  alternating : Alternating refills
  paused : refills.getLast? = some .pause ↔ ∃ j, phase j = .paused

namespace RefillHeld
variable {κ : Type} {jobActive : Bool} {jobs : List κ} {refills : List Refill}
  {phase : κ → JobPhase} {j : κ}

theorem initial : RefillHeld false ([] : List κ) [] fun _ => .idle where
  off _ := ⟨rfl,fun _ => rfl⟩
  on := nofun
  alternating := .nil
  paused := iff_of_false nofun nofun

theorem only (h : RefillHeld jobActive jobs refills phase) (hj : (phase j).live = true) :
    jobActive = true ∧ jobs = [j] ∧ ∀ k, (phase k).live = true ↔ k = j := by
  cases jobActive with
  | false =>
    rw [(h.off rfl).2 j] at hj
    cases hj
  | true =>
    obtain ⟨i,hjobs,honly⟩ := h.on rfl
    obtain rfl := (honly j).mp hj
    exact ⟨rfl,hjobs,honly⟩

variable [DecidableEq κ]

theorem activate (h : RefillHeld false jobs refills phase) (hj : phase j = .idle) :
    RefillHeld true (jobs ++ [j]) refills (Function.update phase j .active) where
  off := nofun
  on _ := by
    obtain ⟨rfl,hnone⟩ := h.off rfl
    refine ⟨j,rfl,fun k => ?_⟩
    by_cases hk : k = j
    · simp [hk, JobPhase.live]
    · simp [hk, hnone]
  alternating := h.alternating
  paused := h.paused.trans <| exists_congr fun k => by
    by_cases hk : k = j
    · simp [hk, hj]
    · simp [hk]

theorem goes (h : RefillHeld jobActive jobs refills phase) (hj : (phase j).live = true)
    {p : JobPhase} (hp : p.live = true) {call : Refill}
    (hcall : call = .resume ↔ phase j = .paused) (hpaused : call = .pause ↔ p = .paused) :
    RefillHeld jobActive jobs (refills ++ [call]) (Function.update phase j p) := by
  obtain ⟨rfl,rfl,honly⟩ := h.only hj
  have hpausedOnly (k : κ) (hk : phase k = .paused) : k = j :=
    (honly k).mp (by rw [hk]; rfl)
  refine ⟨nofun,fun _ => ⟨j,rfl,fun k => ?_⟩,h.alternating.snoc ?_,?_⟩
  · by_cases hk : k = j
    · simp [hk, hp]
    · simpa [hk] using mt (honly k).mp hk
  · rw [hcall, h.paused]
    exact ⟨fun hj => ⟨j,hj⟩,fun ⟨k,hk⟩ => hpausedOnly k hk ▸ hk⟩
  · rw [List.getLast?_concat, Option.some.injEq, hpaused]
    refine ⟨fun hp' => ⟨j,by rw [Function.update_self, hp']⟩,fun ⟨k,hk⟩ => ?_⟩
    by_cases hkj : k = j
    · rwa [hkj, Function.update_self] at hk
    · rw [Function.update_of_ne hkj] at hk
      exact absurd (hpausedOnly k hk) hkj

theorem deactivate (h : RefillHeld jobActive jobs refills phase) (hj : phase j = .resumed) :
    RefillHeld false (jobs.erase j) refills (Function.update phase j .over) := by
  obtain ⟨rfl,rfl,honly⟩ := h.only (j := j) (by rw [hj]; rfl)
  refine ⟨fun _ => ⟨by simp,fun k => ?_⟩,nofun,h.alternating,?_⟩
  · by_cases hk : k = j
    · simp [hk, JobPhase.live]
    · simpa [hk] using mt (honly k).mp hk
  · refine h.paused.trans <| exists_congr fun k => ?_
    by_cases hk : k = j
    · simp [hk, hj]
    · simp [hk]

end RefillHeld

/-! Where a call is. -/

inductive ControllerStage where
  | idle | activated | paused | resumed | closed | issued | left
  deriving DecidableEq, Repr

namespace ControllerStage
variable {κ : Type}

def phase : ControllerStage → JobPhase
  | .idle => .idle
  | .activated => .active
  | .paused | .issued => .paused
  | .resumed => .resumed
  | .closed | .left => .over

def after : ControllerStage → ControllerEvent κ → ControllerStage
  | .idle, ⟨.activate _,true⟩ => .activated
  | .idle, ⟨.enter _,true⟩ => .paused
  | .activated, ⟨.refill _ _,_⟩ => .paused
  | .paused, ⟨.refill _ _,_⟩ => .resumed
  | .paused, ⟨.issue _,_⟩ => .issued
  | .resumed, ⟨.deactivate _,_⟩ => .closed
  | .closed, ⟨.leave _,_⟩ => .left
  | stage, _ => stage

end ControllerStage

section
variable {κ φ ω : Type}

/-- The steps that do not concern the job. -/
def ControllerOp.aside : ControllerOp κ → Prop
  | .snapshot | .observe _ | .wake | .select => True
  | _ => False

def endPre (job : κ) : ControllerOp κ → ControllerStage → Prop
  | .refill call j, .paused => call = .resume ∧ j = job
  | .deactivate j, .resumed => j = job
  | o, _ => o.aside

def beginPre (job : κ) : ControllerOp κ → ControllerStage → Prop
  | .activate j, .idle => j = job
  | .refill call j, .activated => call = .pause ∧ j = job
  | .issue j, .paused => j = job
  | o, stage => endPre job o stage

def finishPre (job : κ) : ControllerOp κ → ControllerStage → Prop
  | .enter j, .idle => j = job
  | .leave j, .closed => j = job
  | o, stage => endPre job o stage

def controllerPre (w : ControllerScript κ φ) :
    ControllerThread κ φ ω → ControllerOp κ → ControllerStage → Prop
  | .begin job => beginPre job
  | .finish i => finishPre (w.finishes i)
  | .hint _ => fun o _ => o.aside

theorem ControllerStage.after_aside (stage : ControllerStage) {o : ControllerOp κ} (ho : o.aside)
    (r : o.Ans) : stage.after ⟨o,r⟩ = stage := by
  cases o <;> first | exact ho.elim | cases stage <;> rfl

theorem endPre_aside {job : κ} {stage : ControllerStage} {o : ControllerOp κ} (ho : o.aside) :
    endPre job o stage := by
  cases o <;> first | exact ho.elim | cases stage <;> trivial

theorem beginPre_aside {job : κ} {stage : ControllerStage} {o : ControllerOp κ} (ho : o.aside) :
    beginPre job o stage := by
  cases o <;> first | exact ho.elim | cases stage <;> trivial

theorem observe_aside : (observe : ControllerProg κ Bool).Only ControllerOp.aside := by
  refine Prog.only_bind (Prog.only_perform trivial) fun _ => ?_
  refine Prog.only_bind (Prog.only_perform trivial) fun (ready,becameReady) => ?_
  exact Prog.only_ite (Prog.only_bind (Prog.only_perform trivial) fun _ => trivial) trivial

theorem waitTicks_aside (ticks : Nat) :
    (waitTicks ticks : ControllerProg κ (Option Err)).Only ControllerOp.aside := by
  induction ticks with
  | zero => trivial
  | succ ticks ih =>
    refine Prog.only_bind (Prog.only_perform trivial) ?_
    intro (err : Option Err)
    cases err with
    | some err => trivial
    | none =>
      exact Prog.only_bind (Prog.only_perform trivial) fun _ => Prog.only_ite trivial ih

theorem waitForGenerationIdle_aside (ticks : Nat) :
    (waitForGenerationIdle ticks : ControllerProg κ (Option Err)).Only ControllerOp.aside :=
  Prog.only_bind (Prog.only_perform trivial) fun _ => Prog.only_ite trivial (waitTicks_aside ticks)

abbrev controllerKeeping (pre : ControllerOp κ → ControllerStage → Prop) :
    Discipline (ControllerOp κ) ControllerOp.Ans ControllerStage :=
  Prog.keeping ControllerStage.after (fun _ _ _ => True) pre

theorem endJob_meets {job : κ} {pre : ControllerOp κ → ControllerStage → Prop}
    (hpre : ∀ o stage, endPre job o stage → pre o stage) :
    (endJob job).Meets (controllerKeeping pre) (fun _ t => t = .closed) .paused := by
  refine Prog.keeps_perform (hpre _ _ ⟨rfl,rfl⟩) fun _ _ => ?_
  refine Prog.keeps_perform (hpre _ _ rfl) fun _ _ => Prog.keeps_bind ?_
  refine (observe_aside.keeps fun o ho => ⟨hpre _ _ (endPre_aside ho),fun r => ?_⟩).mono ?_
  · exact ControllerStage.after_aside .closed ho r
  · rintro _ _ - rfl
    exact Prog.keeps_pure rfl

theorem beginJob_meets (ticks : Nat) (job : κ) :
    (beginJob ticks job).Meets (controllerKeeping (beginPre job)) (fun _ _ => True) .idle := by
  refine Prog.keeps_perform rfl ?_
  intro (activated : Bool) _
  cases activated with
  | false => exact Prog.keeps_pure trivial
  | true =>
    refine Prog.keeps_perform ⟨rfl,rfl⟩ fun _ _ => Prog.keeps_bind ?_
    refine ((waitForGenerationIdle_aside ticks).keeps fun o ho =>
      ⟨beginPre_aside ho,ControllerStage.after_aside .paused ho⟩).mono ?_
    rintro (_ | err) _ - rfl
    · exact Prog.keeps_perform rfl fun _ _ => Prog.keeps_pure trivial
    · refine Prog.keeps_bind ((endJob_meets fun o stage h => ?_).mono fun _ _ _ _ =>
        Prog.keeps_pure trivial)
      cases o <;> cases stage <;> first | exact h | exact h.elim

theorem finish_meets (job : κ) :
    (finish job).Meets (controllerKeeping (finishPre job)) (fun _ _ => True) .idle := by
  refine Prog.keeps_perform rfl ?_
  intro (first : Bool) _
  cases first with
  | false => exact Prog.keeps_pure trivial
  | true =>
    refine Prog.keeps_bind ((endJob_meets fun o stage h => ?_).mono ?_)
    · cases o <;> cases stage <;> first | exact h | exact h.elim
    · rintro _ _ - rfl
      exact Prog.keeps_perform rfl fun _ _ => Prog.keeps_pure trivial

theorem admissionHint_meets : (admissionHint : ControllerProg κ Outcome).Meets
    (controllerKeeping fun o _ => o.aside) (fun _ _ => True) .idle := by
  refine Prog.keeps_bind ((observe_aside.keeps (s := ControllerStage.idle) fun _ ho =>
    ⟨ho,ControllerStage.after_aside .idle ho⟩).mono ?_)
  exact fun _ _ _ _ => Prog.keeps_pure trivial

theorem controllerBody_meets (w : ControllerScript κ φ) : (i : ControllerThread κ φ ω) →
    (controllerBody w i).Meets (controllerKeeping (controllerPre w i)) (fun _ _ => True) .idle
  | .begin job => beginJob_meets (w.ticks job) job
  | .finish i => finish_meets (w.finishes i)
  | .hint _ => admissionHint_meets

end

/-! The invariant. -/

section
variable {κ φ ω : Type}

/-- The phase of a job is known from the call that is concerned with it now. -/
def phaseOf (acc : ControllerThread κ φ ω → ControllerStage) (once : κ → Once φ) (j : κ) :
    JobPhase :=
  match once j with
  | .fresh => (acc (.begin j)).phase
  | .running i => (acc (.finish i)).phase
  | .done => .over

def ControllerStage.working : ControllerStage → Bool
  | .paused | .resumed | .closed => true
  | _ => false

structure ControllerInv (w : ControllerScript κ φ)
    (acc : ControllerThread κ φ ω → ControllerStage) (s : Controller κ φ) : Prop where
  issued : ∀ j, s.issued j = true ↔ acc (.begin j) = .issued
  fresh : ∀ j, s.issued j = false → s.once j = .fresh
  working : ∀ i, (acc (.finish i)).working = true → s.once (w.finishes i) = .running i
  running : ∀ i j, s.once j = .running i → w.finishes i = j
  refill : RefillHeld s.jobActive s.jobs s.refills (phaseOf acc s.once)
  ready : s.jobActive = true → s.ready = false

variable {w : ControllerScript κ φ} {acc : ControllerThread κ φ ω → ControllerStage}
  {s t : Controller κ φ}

theorem ControllerInv.initial : ControllerInv w (fun (_ : ControllerThread κ φ ω) => .idle) {} where
  issued _ := iff_of_false nofun nofun
  fresh _ _ := rfl
  working := nofun
  running := nofun
  refill := .initial
  ready := nofun

namespace ControllerInv

theorem with_begin (h : ControllerInv w acc s) {j : κ} {stage : ControllerStage}
    (hstage : acc (.begin j) = stage) (hnot : stage ≠ .issued) : s.once j = .fresh := by
  refine h.fresh j (Bool.eq_false_iff.mpr fun hissued => hnot ?_)
  rw [← hstage, (h.issued j).mp hissued]

theorem with_finish (h : ControllerInv w acc s) {i : φ} {stage : ControllerStage}
    (hstage : acc (.finish i) = stage) (hworking : stage.working = true) :
    s.once (w.finishes i) = .running i ∧ phaseOf acc s.once (w.finishes i) = stage.phase := by
  have honce := h.working i (by rw [hstage, hworking])
  exact ⟨honce,by rw [phaseOf, honce, ← hstage]⟩

variable [DecidableEq κ] [DecidableEq φ] [DecidableEq ω]

theorem phaseOf_begin {j : κ} (hfresh : s.once j = .fresh) (stage : ControllerStage) :
    phaseOf (Function.update acc (.begin j) stage) s.once =
      Function.update (phaseOf acc s.once) j stage.phase := by
  funext k
  by_cases hk : k = j
  · rw [hk, Function.update_self, phaseOf, hfresh]
    simp
  · rw [Function.update_of_ne hk, phaseOf, phaseOf]
    cases s.once k <;> simp [hk]

theorem phaseOf_other (h : ControllerInv w acc s) {i : φ} {k : κ} (hk : k ≠ w.finishes i)
    {once : κ → Once φ} (honce : once k = s.once k) (stage : ControllerStage) :
    phaseOf (Function.update acc (.finish i) stage) once k = phaseOf acc s.once k := by
  rw [phaseOf, phaseOf, honce]
  cases hother : s.once k with
  | running l =>
    have hli : l ≠ i := by
      rintro rfl
      exact hk (h.running l k hother).symm
    simp [hli]
  | _ => simp

theorem phaseOf_finish (h : ControllerInv w acc s) {i : φ}
    (honce : s.once (w.finishes i) = .running i) (stage : ControllerStage) :
    phaseOf (Function.update acc (.finish i) stage) s.once =
      Function.update (phaseOf acc s.once) (w.finishes i) stage.phase := by
  funext k
  by_cases hk : k = w.finishes i
  · rw [hk, Function.update_self, phaseOf, honce]
    simp
  · rw [Function.update_of_ne hk, h.phaseOf_other hk rfl]

theorem begins (h : ControllerInv w acc s) {j : κ} {stage : ControllerStage}
    (hold : acc (.begin j) ≠ .issued) (hnew : stage ≠ .issued) (hissued : t.issued = s.issued)
    (honce : t.once = s.once) (hready : t.jobActive = true → t.ready = false)
    (hrefill : RefillHeld t.jobActive t.jobs t.refills
      (Function.update (phaseOf acc s.once) j stage.phase)) :
    ControllerInv w (Function.update acc (.begin j) stage) t where
  issued k := by
    rw [hissued, h.issued]
    by_cases hk : k = j
    · simp [hk, hold, hnew]
    · simp [hk]
  fresh k hk := by
    rw [honce]
    exact h.fresh k (hissued ▸ hk)
  working i hi := by
    rw [Function.update_of_ne (by simp)] at hi
    rw [honce, h.working i hi]
  running i k hk := h.running i k (honce ▸ hk)
  refill := by
    rw [honce, phaseOf_begin (h.with_begin rfl hold)]
    exact hrefill
  ready := hready

theorem finishes (h : ControllerInv w acc s) {i : φ} {stage : ControllerStage}
    (hold : (acc (.finish i)).working = true) (hissued : t.issued = s.issued)
    (honce : t.once = s.once) (hready : t.jobActive = true → t.ready = false)
    (hrefill : RefillHeld t.jobActive t.jobs t.refills
      (Function.update (phaseOf acc s.once) (w.finishes i) stage.phase)) :
    ControllerInv w (Function.update acc (.finish i) stage) t where
  issued k := by
    rw [hissued, h.issued, Function.update_of_ne (by simp)]
  fresh k hk := by
    rw [honce]
    exact h.fresh k (hissued ▸ hk)
  working l hl := by
    rw [honce]
    by_cases hli : l = i
    · rw [hli, h.working i hold]
    · rw [Function.update_of_ne (by simpa using hli)] at hl
      exact h.working l hl
  running l k hk := h.running l k (honce ▸ hk)
  refill := by
    rw [honce, h.phaseOf_finish (h.working i hold)]
    exact hrefill
  ready := hready

theorem aside (h : ControllerInv w acc s) {i : ControllerThread κ φ ω} {o : ControllerOp κ}
    {r : o.Ans} (ho : o.aside) (hsem : controllerSem i o s r t) :
    ControllerInv w (Function.update acc i ((acc i).after ⟨o,r⟩)) t := by
  rw [ControllerStage.after_aside _ ho, Function.update_eq_self]
  cases o with
  | snapshot | select =>
    obtain rfl := hsem
    exact h
  | wake =>
    obtain rfl := hsem
    exact ⟨h.issued,h.fresh,h.working,h.running,h.refill,h.ready⟩
  | observe snapshot =>
    obtain ⟨-,rfl⟩ := hsem
    exact ⟨h.issued,h.fresh,h.working,h.running,h.refill,fun hactive => if_pos hactive⟩
  | _ => exact ho.elim

theorem issue (h : ControllerInv w acc s) {j : κ} (hstage : acc (.begin j) = .paused) :
    ControllerInv w (Function.update acc (.begin j) .issued)
      { s with issued := Function.update s.issued j true } where
  issued k := by
    by_cases hk : k = j
    · simp [hk]
    · simpa [hk] using h.issued k
  fresh k hk := by
    by_cases hkj : k = j
    · simp [hkj] at hk
    · exact h.fresh k (by simpa [hkj] using hk)
  working i hi := h.working i (by simpa using hi)
  running := h.running
  refill := by
    have hfresh := h.with_begin hstage nofun
    have hsame : phaseOf acc s.once j = ControllerStage.issued.phase := by
      rw [phaseOf, hfresh, hstage]
      rfl
    rw [phaseOf_begin hfresh, ← hsame, Function.update_eq_self]
    exact h.refill
  ready := h.ready

theorem enter (h : ControllerInv w acc s) {i : φ} (hissued : s.issued (w.finishes i) = true)
    (hfresh : s.once (w.finishes i) = .fresh) :
    ControllerInv w (Function.update acc (.finish i) .paused)
      { s with once := Function.update s.once (w.finishes i) (.running i) } where
  issued k := by simpa using h.issued k
  fresh k hk := by
    have hki : k ≠ w.finishes i := by
      rintro rfl
      rw [hissued] at hk
      cases hk
    simpa [hki] using h.fresh k hk
  working l hl := by
    by_cases hli : l = i
    · simp [hli]
    · have honce := h.working l (by simpa [hli] using hl)
      have hne : w.finishes l ≠ w.finishes i := by
        intro heq
        rw [heq, hfresh] at honce
        cases honce
      simpa [hne] using honce
  running l k hk := by
    by_cases hki : k = w.finishes i
    · subst hki
      simp only [Function.update_self, Once.running.injEq] at hk
      rw [hk]
    · exact h.running l k (by simpa [hki] using hk)
  refill := by
    have hsame : phaseOf (Function.update acc (.finish i) .paused)
        (Function.update s.once (w.finishes i) (.running i)) = phaseOf acc s.once := by
      funext k
      by_cases hki : k = w.finishes i
      · rw [hki, phaseOf, Function.update_self, phaseOf, hfresh]
        simp [(h.issued _).mp hissued, ControllerStage.phase]
      · exact h.phaseOf_other hki (Function.update_of_ne hki ..) _
    rw [hsame]
    exact h.refill
  ready := h.ready

theorem leave (h : ControllerInv w acc s) {i : φ} (hstage : acc (.finish i) = .closed) :
    ControllerInv w (Function.update acc (.finish i) .left)
      { s with once := Function.update s.once (w.finishes i) .done } where
  issued k := by simpa using h.issued k
  fresh k hk := by
    have honce := (h.with_finish hstage rfl).1
    have hki : k ≠ w.finishes i := by
      rintro rfl
      rw [h.fresh _ hk] at honce
      cases honce
    simpa [hki] using h.fresh k hk
  working l hl := by
    have hli : l ≠ i := by
      rintro rfl
      simp [ControllerStage.working] at hl
    have honce := h.working l (by simpa [hli] using hl)
    have hne : w.finishes l ≠ w.finishes i := by
      intro heq
      rw [heq, (h.with_finish hstage rfl).1] at honce
      exact hli (Once.running.inj honce).symm
    simpa [hne] using honce
  running l k hk := by
    by_cases hki : k = w.finishes i
    · simp [hki] at hk
    · exact h.running l k (by simpa [hki] using hk)
  refill := by
    have hsame : phaseOf (Function.update acc (.finish i) .left)
        (Function.update s.once (w.finishes i) .done) = phaseOf acc s.once := by
      funext k
      by_cases hki : k = w.finishes i
      · rw [hki, (h.with_finish hstage rfl).2, phaseOf, Function.update_self]
        rfl
      · exact h.phaseOf_other hki (Function.update_of_ne hki ..) _
    rw [hsame]
    exact h.refill
  ready := h.ready

theorem beginMoves (h : ControllerInv w acc s) {j : κ} {o : ControllerOp κ} {r : o.Ans}
    (hpre : beginPre j o (acc (.begin j))) (hsem : controllerSem (ω := ω) (.begin j) o s r t) :
    ControllerInv w (Function.update acc (.begin j) ((acc (.begin j)).after ⟨o,r⟩)) t := by
  by_cases ho : o.aside
  · exact h.aside ho hsem
  have hphase {stage : ControllerStage} (hstage : acc (.begin j) = stage) (hnot : stage ≠ .issued) :
      phaseOf acc s.once j = stage.phase := by
    rw [phaseOf, h.with_begin hstage hnot, hstage]
  have hold {stage : ControllerStage} (hstage : acc (.begin j) = stage) (hnot : stage ≠ .issued) :
      acc (.begin j) ≠ .issued := hstage ▸ hnot
  cases hstage : acc (.begin j) <;> rw [hstage] at hpre <;> cases o <;>
    try first | exact absurd hpre id | exact absurd trivial ho
  case idle.activate k =>
    obtain rfl := hpre
    obtain ⟨rfl,rfl⟩ := hsem
    cases hactive : s.jobActive with
    | true =>
      change ControllerInv w (Function.update acc (.begin k) .idle) s
      rwa [← hstage, Function.update_eq_self]
    | false =>
      have hrefill := h.refill
      rw [hactive] at hrefill
      exact h.begins (hold hstage nofun) nofun rfl rfl (fun _ => rfl)
        (hrefill.activate (hphase hstage nofun))
  case activated.refill call k =>
    obtain ⟨rfl,rfl⟩ := hpre
    obtain rfl := hsem
    have hj := hphase hstage nofun
    exact h.begins (hold hstage nofun) nofun rfl rfl h.ready
      (h.refill.goes (by rw [hj]; rfl) rfl (iff_of_false nofun (by rw [hj]; nofun))
        (iff_of_true rfl rfl))
  case paused.refill call k =>
    obtain ⟨rfl,rfl⟩ := hpre
    obtain rfl := hsem
    have hj := hphase hstage nofun
    exact h.begins (hold hstage nofun) nofun rfl rfl h.ready
      (h.refill.goes (by rw [hj]; rfl) rfl (iff_of_true rfl hj) (iff_of_false nofun nofun))
  case paused.issue k =>
    obtain rfl := hpre
    obtain rfl := hsem
    exact h.issue hstage
  case resumed.deactivate k =>
    obtain rfl := hpre
    obtain rfl := hsem
    exact h.begins (hold hstage nofun) nofun rfl rfl nofun
      (h.refill.deactivate (hphase hstage nofun))

theorem finishMoves (h : ControllerInv w acc s) {i : φ} {o : ControllerOp κ} {r : o.Ans}
    (hpre : finishPre (w.finishes i) o (acc (.finish i)))
    (hsem : controllerSem (ω := ω) (.finish i) o s r t) :
    ControllerInv w (Function.update acc (.finish i) ((acc (.finish i)).after ⟨o,r⟩)) t := by
  by_cases ho : o.aside
  · exact h.aside ho hsem
  have hold {stage : ControllerStage} (hstage : acc (.finish i) = stage)
      (hworking : stage.working = true) : (acc (.finish i)).working = true := hstage ▸ hworking
  cases hstage : acc (.finish i) <;> rw [hstage] at hpre <;> cases o <;>
    try first | exact absurd hpre id | exact absurd trivial ho
  case idle.enter k =>
    obtain rfl := hpre
    obtain ⟨hissued,hidle,rfl,rfl⟩ := hsem
    cases honce : s.once (w.finishes i) with
    | fresh => exact h.enter hissued honce
    | running l => exact absurd honce (hidle l)
    | done =>
      change ControllerInv w (Function.update acc (.finish i) .idle) s
      rwa [← hstage, Function.update_eq_self]
  case paused.refill call k =>
    obtain ⟨rfl,rfl⟩ := hpre
    obtain rfl := hsem
    have hj := (h.with_finish hstage rfl).2
    exact h.finishes (hold hstage rfl) rfl rfl h.ready
      (h.refill.goes (by rw [hj]; rfl) rfl (iff_of_true rfl hj) (iff_of_false nofun nofun))
  case resumed.deactivate k =>
    obtain rfl := hpre
    obtain rfl := hsem
    exact h.finishes (hold hstage rfl) rfl rfl nofun
      (h.refill.deactivate (h.with_finish hstage rfl).2)
  case closed.leave k =>
    obtain rfl := hpre
    obtain rfl := hsem
    exact h.leave hstage

end ControllerInv

end

/-! Whole runs. -/

theorem admissionHint_traced {κ : Type} : (admissionHint : ControllerProg κ Outcome).Meets
    (Prog.tracing (fun _ _ => True) fun o h => ∀ snapshot, o = .observe snapshot →
      ⟨.snapshot,snapshot⟩ ∈ h)
    (fun a h => ∀ ready, a = .observed ready →
      ∃ snapshot becameReady, ⟨.observe snapshot,(ready,becameReady)⟩ ∈ h) [] := by
  refine Prog.meets_bind (Prog.meets_perform nofun ?_)
  intro (snapshot : Snapshot) _
  refine Prog.meets_perform (fun _ heq => ?_) ?_
  · obtain rfl := ControllerOp.observe.inj heq
    simp
  · intro ((ready,becameReady) : Bool × Bool) _
    have hmem (t : List (ControllerEvent κ)) : (⟨.observe snapshot,(ready,becameReady)⟩ :
        ControllerEvent κ) ∈ ([] ++ [⟨.snapshot,snapshot⟩] ++
          [⟨.observe snapshot,(ready,becameReady)⟩]) ++ t := by simp
    cases becameReady with
    | true =>
      refine Prog.meets_perform nofun fun _ _ => Prog.meets_pure (Prog.meets_pure ?_)
      rintro _ ⟨⟩
      exact ⟨snapshot,true,hmem _⟩
    | false =>
      refine Prog.meets_pure (Prog.meets_pure ?_)
      rintro _ ⟨⟩
      exact ⟨snapshot,false,by simp⟩

section
variable {κ φ ω : Type} [DecidableEq κ] [DecidableEq φ] [DecidableEq ω]
  {w : ControllerScript κ φ} {s : Controller κ φ}
  {h : Moves (ControllerThread κ φ ω) (ControllerOp κ) ControllerOp.Ans}
  {rest : ControllerThread κ φ ω → ControllerProg κ Outcome}

theorem controllerTeam_accounted (w : ControllerScript κ φ) :
    (controllerTeam (ω := ω) w).Accounted {} ControllerStage.after .idle (fun _ _ _ _ => True)
      (controllerPre w) (fun _ _ _ => True) (ControllerInv w) where
  start := .initial
  meets := controllerBody_meets w
  answers _ _ _ _ _ _ _ _ _ := trivial
  moves acc s i o r t hinv hpre hsem := by
    cases i with
    | begin j => exact hinv.beginMoves hpre hsem
    | finish i => exact hinv.finishMoves hpre hsem
    | hint i => exact hinv.aside hpre hsem

/-- A hint that says ready: the two steps of that call, with no job active at the second. -/
def HintHeld (w : ControllerScript κ φ)
    (h : Moves (ControllerThread κ φ ω) (ControllerOp κ) ControllerOp.Ans) (i : ω) : Prop :=
  ∃ h₁ h₂ rest s snapshot becameReady,
    h = h₁ ++ (.hint i,⟨.observe snapshot,(true,becameReady)⟩) :: h₂ ∧
    (controllerTeam w).Run {} h₁ rest s ∧ s.jobActive = false ∧
    (.hint i,⟨.snapshot,snapshot⟩) ∈ h₁ ∧ 2 ≤ snapshot.poolSize ∧ snapshot.generationInFlight = 0

theorem hint_held (hrun : (controllerTeam w).Run {} h rest s) {i : ω}
    (hi : rest (.hint i) = .ret (.observed true)) : HintHeld w h i := by
  have hafter := hrun.after (.hint i)
  rw [hi] at hafter
  obtain ⟨snapshot,becameReady,hmem⟩ :=
    admissionHint_traced.ends hafter (fun _ _ => trivial) true rfl
  obtain ⟨h₁,h₂,rfl⟩ := List.append_of_mem (Team.mem_own.mp hmem)
  obtain ⟨rest',s',t,k,hbefore,hcall,hsem,-⟩ := hrun.split rfl
  have hafter' := hbefore.after (.hint i)
  rw [hcall] at hafter'
  have hown := admissionHint_traced.awaits hafter' (fun _ _ => trivial) snapshot rfl
  have hready : s'.readyFor snapshot = true := (Prod.mk.inj hsem.1).1.symm
  cases hactive : s'.jobActive with
  | true => simp [Controller.readyFor, hactive] at hready
  | false =>
    obtain ⟨hsize,hidle⟩ : 2 ≤ snapshot.poolSize ∧ snapshot.generationInFlight = 0 := by
      simpa [Controller.readyFor, hactive, Snapshot.ready] using hready
    exact ⟨h₁,h₂,rest',s',snapshot,becameReady,rfl,hbefore,hactive,Team.mem_own.mp hown,hsize,
      hidle⟩

/-- What holds at every point of a run. -/
structure RefillControlled (w : ControllerScript κ φ)
    (h : Moves (ControllerThread κ φ ω) (ControllerOp κ) ControllerOp.Ans)
    (rest : ControllerThread κ φ ω → ControllerProg κ Outcome) (s : Controller κ φ) : Prop where
  alternate : s.refills.IsChain (· ≠ ·)
  starts : s.refills.head? ≠ some .resume
  one : s.jobs.length ≤ 1
  flag : s.jobActive = true ↔ s.jobs ≠ []
  ready : s.jobActive = true → s.ready = false
  hint : ∀ i, rest (.hint i) = .ret (.observed true) → HintHeld w h i
  balanced : s.jobs = [] → s.refills.count .pause = s.refills.count .resume

/-- Refill is controlled in every interleaving of the calls. -/
theorem refill_control (w : ControllerScript κ φ) (hrun : (controllerTeam w).Run {} h rest s) :
    RefillControlled w h rest s := by
  have hinv := (hrun.accounted (controllerTeam_accounted w)).1
  have hrefill := hinv.refill
  have hcases : s.jobActive = false ∧ s.jobs = [] ∧ s.refills.getLast? ≠ some .pause ∨
      s.jobActive = true ∧ ∃ j, s.jobs = [j] := by
    cases hactive : s.jobActive with
    | true =>
      obtain ⟨j,hjobs,-⟩ := hrefill.on hactive
      exact .inr ⟨rfl,j,hjobs⟩
    | false =>
      obtain ⟨hjobs,hnone⟩ := hrefill.off hactive
      refine .inl ⟨rfl,hjobs,fun hlast => ?_⟩
      obtain ⟨j,hj⟩ := hrefill.paused.mp hlast
      exact absurd (hnone j) (by rw [hj]; nofun)
  refine ⟨hrefill.alternating.chain,hrefill.alternating.first,?_,?_,hinv.ready,
    fun i hi => hint_held hrun hi,?_⟩
  · rcases hcases with ⟨-,hjobs,-⟩ | ⟨-,j,hjobs⟩ <;> simp [hjobs]
  · rcases hcases with ⟨hactive,hjobs,-⟩ | ⟨hactive,j,hjobs⟩ <;> simp [hactive, hjobs]
  · intro hnone
    rcases hcases with ⟨-,-,hlast⟩ | ⟨-,j,hjobs⟩
    · have hcount := hrefill.alternating.count
      rwa [if_neg hlast] at hcount
    · rw [hjobs] at hnone
      cases hnone

end

/-! Runs that are computed. -/

section
variable {κ φ ω : Type} [DecidableEq κ]

def controllerBlocked : ControllerThread κ φ ω → ControllerOp κ → Controller κ φ → Bool
  | .finish _, .enter job, s => !s.issued job || (s.once job matches .running _)
  | _, .enter _, _ => true
  | _, _, _ => false

def controllerAnswer (snapshot : Snapshot) (err : Option Err) (i : ControllerThread κ φ ω) :
    (o : ControllerOp κ) → Controller κ φ → o.Ans × Controller κ φ
  | .snapshot, s => (snapshot,s)
  | .refill call _, s => ((),{ s with refills := s.refills ++ [call] })
  | .activate job, s => (!s.jobActive,if s.jobActive then s else
      { s with jobActive := true, ready := false, jobs := s.jobs ++ [job] })
  | .deactivate job, s => ((),{ s with jobActive := false, jobs := s.jobs.erase job })
  | .observe snapshot, s => ((s.readyFor snapshot,s.readyFor snapshot && !s.ready),{ s with
      generating := if 0 < snapshot.generationInFlight then true else
        if snapshot.generationInFlight = 0 then false else s.generating
      ready := s.readyFor snapshot })
  | .wake, s => ((),{ s with woken := true })
  | .select, s => (err,s)
  | .issue job, s => ((),{ s with issued := Function.update s.issued job true })
  | .enter job, s => match i with
    | .finish i => ((s.once job matches .fresh),if s.once job matches .fresh then
        { s with once := Function.update s.once job (.running i) } else s)
    | _ => (false,s)
  | .leave job, s => ((),{ s with once := Function.update s.once job .done })

theorem controllerAnswer_sem (snapshot : Snapshot) (err : Option Err)
    (i : ControllerThread κ φ ω) (o : ControllerOp κ) (s : Controller κ φ)
    (h : controllerBlocked i o s = false) : controllerSem i o s
      (controllerAnswer snapshot err i o s).1 (controllerAnswer snapshot err i o s).2 := by
  cases o with
  | activate job => exact ⟨rfl,rfl⟩
  | observe snapshot => exact ⟨rfl,rfl⟩
  | enter job =>
    cases i with
    | finish i =>
      obtain ⟨hissued,hidle⟩ := Bool.or_eq_false_iff.mp h
      refine ⟨by simpa using hissued,fun j hj => ?_,rfl,rfl⟩
      rw [hj] at hidle
      cases hidle
    | _ => cases h
  | _ => rfl

end

/-- A job, a hint while it is active, its function called twice, and a hint after that. -/
def sampleScript : ControllerScript Unit Bool where
  ticks _ := 1
  finishes _ := ()

def sampleOrder : List (ControllerThread Unit Bool Bool) :=
  List.replicate 4 (.begin ()) ++ List.replicate 2 (.hint true) ++
    List.replicate 7 (.finish true) ++ [.finish false] ++ List.replicate 2 (.hint false)

theorem refill_control_sample : ∃ h rest s,
    (controllerTeam (ω := Bool) sampleScript).Run {} h rest s ∧
      rest (.hint true) = .ret (.observed false) ∧ rest (.hint false) = .ret (.observed true) ∧
      s.refills = [.pause,.resume] ∧ RefillControlled sampleScript h rest s := by
  have hplay : (Team.play (Team.serving controllerBlocked (controllerAnswer ⟨2,0⟩ none))
      (controllerTeam (ω := Bool) sampleScript) {} sampleOrder).map
      (fun d => ((d.rest (.hint true)).result,(d.rest (.hint false)).result,d.shared.refills)) =
        some (some (.observed false),some (.observed true),[.pause,.resume]) := by decide +kernel
  obtain ⟨d,hd,heq⟩ := Option.map_eq_some_iff.mp hplay
  simp only [Prod.mk.injEq] at heq
  have hrun := Team.play_serving (T := controllerTeam (ω := Bool) sampleScript)
    (controllerAnswer_sem ⟨2,0⟩ none) hd
  exact ⟨d.moves,d.rest,d.shared,hrun,Prog.result_some heq.1,Prog.result_some heq.2.1,heq.2.2,
    refill_control sampleScript hrun⟩

end CoSigner.Preparams
