import CoSigner.Worker.Scheduler

/-! The gauge of the DKG guard (`worker/permits.go`): one goroutine that calls `tryAcquireDKG`
again and again and any number that call `Release`, with every slot operation and every report
to the gauge one step. -/
namespace CoSigner.Worker

/-- A lease: of an attempt of `tryAcquireDKG`, or one for SIGN. -/
inductive Lease where
  | dkg (attempt : Nat)
  | sign (n : Nat)
  deriving DecidableEq, Repr

inductive GuardOp where
  | beginAcquire (attempt : Nat)
  | endAcquire (attempt : Nat) (acquired : Bool)
  /-- `tryAcquire` of a pool. -/
  | take (pool : Permit) (attempt : Nat)
  /-- `release` of a token, which is called once for each. -/
  | give (pool : Permit) (lease : Lease)
  | setDKGGuard (on : Bool) (attempt : Nat)
  | beginRelease (lease : Lease)
  /-- The `once` of a lease is entered and left; whether this caller is the first. -/
  | enter (lease : Lease)
  | leave (lease : Lease)
  | endRelease (lease : Lease)

def GuardOp.Ans : GuardOp → Type
  | .take _ _ | .enter _ => Bool
  | _ => Unit

abbrev GuardProg (α : Type) := Prog GuardOp GuardOp.Ans α

abbrev GuardEvent := Event GuardOp GuardOp.Ans

def guarding (o : GuardOp) : GuardProg o.Ans := .perform o

def tryAcquireDKG (attempt : Nat) : GuardProg Unit := do
  let _ : Unit ← guarding (.beginAcquire attempt)
  let guarded : Bool ← guarding (.take .dkg attempt)
  if guarded then do
    let general : Bool ← guarding (.take .general attempt)
    if general then do
      let _ : Unit ← guarding (.setDKGGuard true attempt)
      guarding (.endAcquire attempt true)
    else do
      let _ : Unit ← guarding (.give .dkg (.dkg attempt))
      guarding (.endAcquire attempt false)
  else guarding (.endAcquire attempt false)

/-- The attempts of the one goroutine, from a number on. -/
def acquireFrom : Nat → Nat → GuardProg Unit
  | _, 0 => pure ()
  | attempt, n + 1 => do
    tryAcquireDKG attempt
    acquireFrom (attempt + 1) n

/-- The tokens of a lease are released, and the gauge is told of a DKG lease. -/
def releaseTokens (lease : Lease) : GuardProg Unit := do
  let _ : Unit ← guarding (.give .general lease)
  match lease with
  | .sign _ => pure ()
  | .dkg attempt => do
    let _ : Unit ← guarding (.give .dkg lease)
    guarding (.setDKGGuard false attempt)

/-- `jobPermitLease.Release`. -/
def releaseGuarded (lease : Lease) : GuardProg Unit := do
  let _ : Unit ← guarding (.beginRelease lease)
  let first : Bool ← guarding (.enter lease)
  if first then do
    releaseTokens lease
    let _ : Unit ← guarding (.leave lease)
    guarding (.endRelease lease)
  else guarding (.endRelease lease)

inductive GuardThread (κ : Type) where
  | acquirer
  | releaser (i : κ)
  deriving DecidableEq

/-- How far an attempt and its lease are with the DKG slot and the gauge. -/
inductive GuardPhase where
  | idle
  /-- It has the slot. -/
  | guarded
  /-- It has the slot and has set the gauge. -/
  | announced
  /-- It has given the slot back. -/
  | reporting
  /-- It has cleared the gauge. -/
  | done
  deriving DecidableEq, Repr

structure GuardState (κ : Type) where
  slots : Permit → Nat := fun _ => 0
  once : Lease → OnceState := fun _ => .fresh
  /-- The leases that were returned. -/
  issued : Lease → Bool := fun _ => false
  /-- The last value of the gauge. -/
  guard : Option Bool := none
  /-- The calls in progress. -/
  busy : GuardThread κ → Bool := fun _ => false
  phase : Nat → GuardPhase := fun _ => .idle

section
variable {κ : Type} [DecidableEq κ]

namespace GuardState

def setPhase (s : GuardState κ) (attempt : Nat) (phase : GuardPhase) : GuardState κ :=
  { s with phase := Function.update s.phase attempt phase }

def takeSlot (s : GuardState κ) (pool : Permit) (attempt : Nat) : GuardState κ :=
  let t := { s with slots := Function.update s.slots pool (s.slots pool + 1) }
  if pool = .dkg then t.setPhase attempt .guarded else t

def giveSlot (s : GuardState κ) (pool : Permit) (lease : Lease) : GuardState κ :=
  let t := { s with slots := Function.update s.slots pool (s.slots pool - 1) }
  match pool, lease with
  | .dkg, .dkg attempt =>
    t.setPhase attempt (if s.phase attempt = .guarded then .idle else .reporting)
  | _, _ => t

def report (s : GuardState κ) (on : Bool) (attempt : Nat) : GuardState κ :=
  { s with guard := some on }.setPhase attempt (if on then .announced else .done)

def work (s : GuardState κ) (i : GuardThread κ) (busy : Bool) : GuardState κ :=
  { s with busy := Function.update s.busy i busy }

end GuardState

/-- What a step answers and does. `Release` is called on a lease that was returned. -/
def guardSem (cfg : SchedulerConfig) (i : GuardThread κ) :
    (o : GuardOp) → GuardState κ → o.Ans → GuardState κ → Prop
  | .beginAcquire _, s, _, t => t = s.work i true
  | .endAcquire attempt acquired, s, _, t => t = { s with
      issued := if acquired then Function.update s.issued (.dkg attempt) true else s.issued }.work
        i false
  | .take pool attempt, s, r, t => r = decide (s.slots pool < cfg.capacity pool) ∧
      t = if s.slots pool < cfg.capacity pool then s.takeSlot pool attempt else s
  | .give pool lease, s, _, t => 0 < s.slots pool ∧ t = s.giveSlot pool lease
  | .setDKGGuard on attempt, s, _, t => t = s.report on attempt
  | .beginRelease lease, s, _, t => s.issued lease = true ∧ t = s.work i true
  | .enter lease, s, r, t => s.once lease ≠ .running ∧ r = decide (s.once lease = .fresh) ∧
      t = if s.once lease = .fresh then
        { s with once := Function.update s.once lease .running } else s
  | .leave lease, s, _, t => t = { s with once := Function.update s.once lease .done }
  | .endRelease _, s, _, t => t = s.work i false

/-- How often the one goroutine tries, and the leases on which `Release` is called. -/
structure GuardScript (κ : Type) where
  cfg : SchedulerConfig
  attempts : Nat
  releases : κ → Lease

def guardBody (w : GuardScript κ) : GuardThread κ → GuardProg Unit
  | .acquirer => acquireFrom 0 w.attempts
  | .releaser i => releaseGuarded (w.releases i)

def guardTeam (w : GuardScript κ) :
    Team (GuardThread κ) GuardOp GuardOp.Ans (GuardState κ) Unit where
  sem := guardSem w.cfg
  body := guardBody w

/-- Some general slots are taken, and some SIGN leases were returned before. -/
def GuardState.initial (used : Nat) (signs : Nat → Bool) : GuardState κ where
  slots := fun | .general => used | .dkg => 0
  issued := fun | .sign n => signs n | .dkg _ => false

/-- No call is in progress. -/
def GuardState.Quiet (s : GuardState κ) : Prop := ∀ i, s.busy i = false

/-- The lease was returned and not released. -/
def GuardState.Live (s : GuardState κ) (attempt : Nat) : Prop :=
  s.issued (.dkg attempt) = true ∧ s.once (.dkg attempt) = .fresh

/-- The gauge is not set while an earlier lease has given the slot back and not cleared the
gauge. -/
def calm : GuardThread κ → (o : GuardOp) → GuardState κ → o.Ans → Prop
  | _, .setDKGGuard true attempt, s, _ => ∀ earlier < attempt, s.phase earlier ≠ .reporting
  | _, _, _, _ => True

end

/-! Where a thread is. -/

inductive GuardStage where
  | idle (attempt : Nat) | started (attempt : Nat) | guarded (attempt : Nat) | held (attempt : Nat)
  | announced (attempt : Nat) | refused (attempt : Nat) | dropped (attempt : Nat)
  | begun | entered | unheld | freed | reported | left | ended
  deriving DecidableEq, Repr

def GuardStage.after : GuardStage → GuardEvent → GuardStage
  | .idle k, ⟨.beginAcquire _,_⟩ => .started k
  | .started k, ⟨.take _ _,true⟩ => .guarded k
  | .started k, ⟨.take _ _,false⟩ => .dropped k
  | .guarded k, ⟨.take _ _,true⟩ => .held k
  | .guarded k, ⟨.take _ _,false⟩ => .refused k
  | .held k, ⟨.setDKGGuard _ _,_⟩ => .announced k
  | .refused k, ⟨.give _ _,_⟩ => .dropped k
  | .announced k, ⟨.endAcquire _ _,_⟩ => .idle (k + 1)
  | .dropped k, ⟨.endAcquire _ _,_⟩ => .idle (k + 1)
  | .idle _, ⟨.beginRelease _,_⟩ => .begun
  | .begun, ⟨.enter _,true⟩ => .entered
  | .begun, ⟨.enter _,false⟩ => .left
  | .entered, ⟨.give _ _,_⟩ => .unheld
  | .unheld, ⟨.give _ _,_⟩ => .freed
  | .unheld, ⟨.leave _,_⟩ => .left
  | .freed, ⟨.setDKGGuard _ _,_⟩ => .reported
  | .reported, ⟨.leave _,_⟩ => .left
  | .left, ⟨.endRelease _,_⟩ => .ended
  | stage, _ => stage

/-- What the goroutine that acquires may do where. -/
def acquirePre : GuardOp → GuardStage → Prop
  | .beginAcquire attempt, .idle k => attempt = k
  | .take pool attempt, .started k => pool = .dkg ∧ attempt = k
  | .take pool attempt, .guarded k => pool = .general ∧ attempt = k
  | .setDKGGuard on attempt, .held k => on = true ∧ attempt = k
  | .give pool lease, .refused k => pool = .dkg ∧ lease = .dkg k
  | .endAcquire attempt acquired, .announced k => attempt = k ∧ acquired = true
  | .endAcquire attempt acquired, .dropped k => attempt = k ∧ acquired = false
  | _, _ => False

/-- What a caller of `Release` may do where. -/
def releasePre (lease : Lease) : GuardOp → GuardStage → Prop
  | .beginRelease l, .idle _ => l = lease
  | .enter l, .begun => l = lease
  | .give pool l, .entered => pool = .general ∧ l = lease
  | .give pool l, .unheld => pool = .dkg ∧ l = lease ∧ ∃ k, lease = .dkg k
  | .setDKGGuard on attempt, .freed => on = false ∧ lease = .dkg attempt
  | .leave l, .unheld => l = lease ∧ ∃ n, lease = .sign n
  | .leave l, .reported => l = lease
  | .endRelease l, .left => l = lease
  | _, _ => False

section
variable {κ : Type}

def guardPre (w : GuardScript κ) : GuardThread κ → GuardOp → GuardStage → Prop
  | .acquirer => acquirePre
  | .releaser i => releasePre (w.releases i)

abbrev guardKeeping (w : GuardScript κ) (i : GuardThread κ) :
    Discipline GuardOp GuardOp.Ans GuardStage :=
  Prog.keeping GuardStage.after (fun _ _ _ => True) (guardPre w i)

theorem tryAcquireDKG_meets (w : GuardScript κ) (k : Nat) :
    (tryAcquireDKG k).Meets (guardKeeping w .acquirer) (fun _ t => t = .idle (k + 1)) (.idle k) := by
  refine Prog.keeps_perform rfl fun _ _ => Prog.keeps_perform ⟨rfl,rfl⟩ ?_
  intro (guarded : Bool) _
  cases guarded with
  | false => exact Prog.keeps_call ⟨rfl,rfl⟩ fun _ _ => rfl
  | true =>
    refine Prog.keeps_perform ⟨rfl,rfl⟩ ?_
    intro (general : Bool) _
    cases general with
    | false =>
      refine Prog.keeps_perform ⟨rfl,rfl⟩ fun _ _ => ?_
      exact Prog.keeps_call ⟨rfl,rfl⟩ fun _ _ => rfl
    | true =>
      refine Prog.keeps_perform ⟨rfl,rfl⟩ fun _ _ => ?_
      exact Prog.keeps_call ⟨rfl,rfl⟩ fun _ _ => rfl

theorem acquireFrom_meets (w : GuardScript κ) (k n : Nat) :
    (acquireFrom k n).Meets (guardKeeping w .acquirer) (fun _ _ => True) (.idle k) := by
  induction n generalizing k with
  | zero => exact Prog.keeps_pure trivial
  | succ n ih =>
    refine Prog.keeps_bind ((tryAcquireDKG_meets w k).mono ?_)
    rintro _ _ - rfl
    exact ih (k + 1)

theorem releaseTokens_meets (lease : Lease) : (releaseTokens lease).Meets
    (Prog.keeping GuardStage.after (fun _ _ _ => True) (releasePre lease))
    (fun _ t => t = .reported ∨ t = .unheld ∧ ∃ n, lease = .sign n) .entered := by
  refine Prog.keeps_perform ⟨rfl,rfl⟩ fun _ _ => ?_
  cases lease with
  | sign n => exact Prog.keeps_pure (.inr ⟨rfl,n,rfl⟩)
  | dkg k =>
    refine Prog.keeps_perform ⟨rfl,rfl,k,rfl⟩ fun _ _ => ?_
    exact Prog.keeps_call ⟨rfl,rfl⟩ fun _ _ => .inl rfl

theorem releaseGuarded_meets (w : GuardScript κ) (i : κ) :
    (releaseGuarded (w.releases i)).Meets (guardKeeping w (.releaser i)) (fun _ _ => True)
      (.idle 0) := by
  refine Prog.keeps_perform rfl fun _ _ => Prog.keeps_perform rfl ?_
  intro (first : Bool) _
  cases first with
  | false => exact Prog.keeps_call rfl fun _ _ => trivial
  | true =>
    refine Prog.keeps_bind ((releaseTokens_meets (w.releases i)).mono ?_)
    rintro _ _ - (rfl | ⟨rfl,hsign⟩)
    · exact Prog.keeps_perform rfl fun _ _ => Prog.keeps_call rfl fun _ _ => trivial
    · exact Prog.keeps_perform ⟨rfl,hsign⟩ fun _ _ => Prog.keeps_call rfl fun _ _ => trivial

end

/-! The slot, the gauge and the phases. -/

def GuardPhase.holds : GuardPhase → Bool
  | .guarded | .announced => true
  | _ => false

def GuardPhase.shows : GuardPhase → Bool
  | .announced | .reporting => true
  | _ => false

/-- At most one attempt has the slot, and at most one is shown by the gauge. -/
structure GaugeHeld (slots : Nat) (guard : Option Bool) (phase : Nat → GuardPhase) : Prop where
  slots : slots = 0 ∧ (∀ k, (phase k).holds = false) ∨ slots = 1 ∧ ∃ k, (phase k).holds = true
  holder : ∀ j k, (phase j).holds = true → (phase k).holds = true → j = k
  shown : ∀ j k, (phase j).shows = true → (phase k).shows = true → j = k
  gauge : guard = some true ↔ ∃ k, (phase k).shows = true

section
variable {slots : Nat} {guard : Option Bool} {phase : Nat → GuardPhase} {k : Nat}
  {p : GuardPhase}

theorem sole_update {f : GuardPhase → Bool} (hsole : ∀ i j, f (phase i) = true →
    f (phase j) = true → i = j) (hnew : f p = true → ∀ j, f (phase j) = true → j = k) (i j : Nat)
    (hi : f (Function.update phase k p i) = true) (hj : f (Function.update phase k p j) = true) :
    i = j := by
  by_cases hik : i = k <;> by_cases hjk : j = k
  · rw [hik,hjk]
  · rw [hik, Function.update_self] at hi
    rw [Function.update_of_ne hjk] at hj
    rw [hik, hnew hi j hj]
  · rw [hjk, Function.update_self] at hj
    rw [Function.update_of_ne hik] at hi
    rw [hjk, hnew hj i hi]
  · rw [Function.update_of_ne hik] at hi
    rw [Function.update_of_ne hjk] at hj
    exact hsole i j hi hj

theorem exists_update {f : GuardPhase → Bool} (hf : f p = f (phase k)) :
    (∃ j, f (Function.update phase k p j) = true) ↔ ∃ j, f (phase j) = true := by
  refine exists_congr fun j => ?_
  by_cases hj : j = k
  · rw [hj, Function.update_self, hf]
  · rw [Function.update_of_ne hj]

theorem none_update {f : GuardPhase → Bool} (hsole : ∀ i j, f (phase i) = true →
    f (phase j) = true → i = j) (hk : f (phase k) = true) (hp : f p = false) (j : Nat) :
    f (Function.update phase k p j) = false := by
  by_cases hj : j = k
  · rw [hj, Function.update_self, hp]
  · rw [Function.update_of_ne hj, Bool.eq_false_iff]
    exact fun h => hj (hsole j k h hk)

namespace GaugeHeld

theorem take (h : GaugeHeld 0 guard phase) (hk : phase k = .idle) :
    GaugeHeld 1 guard (Function.update phase k .guarded) where
  slots := .inr ⟨rfl,k,by rw [Function.update_self]; rfl⟩
  holder := sole_update h.holder fun _ j hj => by
    have hnone := (h.slots.resolve_right (by simp)).2 j
    rw [hnone] at hj
    cases hj
  shown := sole_update h.shown nofun
  gauge := h.gauge.trans (exists_update (by rw [hk]; rfl)).symm

/-- The slot is given back, by an attempt that goes on to a phase in which it is shown as before. -/
theorem give (h : GaugeHeld slots guard phase) (hk : (phase k).holds = true)
    (hp : p.holds = false) (hshows : p.shows = (phase k).shows) :
    GaugeHeld (slots - 1) guard (Function.update phase k p) := by
  have hone : slots = 1 := by
    refine (h.slots.resolve_left ?_).1
    rintro ⟨-,hnone⟩
    rw [hnone k] at hk
    cases hk
  subst hone
  refine ⟨.inl ⟨rfl,none_update h.holder hk hp⟩,sole_update h.holder ?_,sole_update h.shown ?_,
    h.gauge.trans (exists_update hshows).symm⟩
  · intro hholds
    rw [hp] at hholds
    cases hholds
  · intro hnew j hj
    exact h.shown j k hj (hshows ▸ hnew)

theorem announce (h : GaugeHeld slots guard phase) (hk : phase k = .guarded)
    (hcalm : ∀ j, phase j ≠ .reporting) :
    GaugeHeld slots (some true) (Function.update phase k .announced) := by
  have hsame : GuardPhase.announced.holds = (phase k).holds := by rw [hk]; rfl
  have hholds : (phase k).holds = true := by rw [hk]; rfl
  refine ⟨?_,sole_update h.holder fun _ j hj => h.holder j k hj hholds,
    sole_update h.shown fun _ j hj => ?_,iff_of_true rfl ⟨k,by rw [Function.update_self]; rfl⟩⟩
  · refine .inr ⟨(h.slots.resolve_left ?_).1,(exists_update hsame).mpr ⟨k,hholds⟩⟩
    rintro ⟨-,hnone⟩
    rw [hnone k] at hholds
    cases hholds
  · cases hphase : phase j <;> rw [hphase] at hj <;> try cases hj
    · exact h.holder j k (by rw [hphase]; rfl) hholds
    · exact absurd hphase (hcalm j)

theorem clear (h : GaugeHeld slots guard phase) (hk : phase k = .reporting) :
    GaugeHeld slots (some false) (Function.update phase k .done) := by
  have hshows : (phase k).shows = true := by rw [hk]; rfl
  have hsame : GuardPhase.done.holds = (phase k).holds := by rw [hk]; rfl
  have hnone := none_update (f := GuardPhase.shows) h.shown hshows (p := .done) rfl
  refine ⟨?_,sole_update h.holder nofun,sole_update h.shown nofun,
    iff_of_false (by simp) fun ⟨j,hj⟩ => by rw [hnone j] at hj; cases hj⟩
  rcases h.slots with ⟨hslots,hfree⟩ | ⟨hslots,hheld⟩
  · refine .inl ⟨hslots,fun j => ?_⟩
    by_cases hj : j = k
    · rw [hj, Function.update_self]; rfl
    · rw [Function.update_of_ne hj]
      exact hfree j
  · exact .inr ⟨hslots,(exists_update hsame).mpr hheld⟩

end GaugeHeld
end

/-! The invariant. -/

section
variable {κ : Type}

/-- The attempts from a number on have not been made. -/
def GuardState.Unused (s : GuardState κ) (k : Nat) : Prop :=
  ∀ j, k ≤ j → s.phase j = .idle ∧ s.issued (.dkg j) = false ∧ s.once (.dkg j) = .fresh

/-- An attempt that is not in progress came to nothing or has returned its lease. -/
def GuardState.Settled (s : GuardState κ) (k : Nat) : Prop :=
  s.phase k ≠ .idle → s.issued (.dkg k) = true

/-- An attempt is in progress, in the given phase. -/
structure GuardState.Attempting (s : GuardState κ) (k : Nat) (phase : GuardPhase) : Prop where
  later : s.Unused (k + 1)
  others : ∀ j, j ≠ k → s.Settled j
  phase : s.phase k = phase
  issued : s.issued (.dkg k) = false
  once : s.once (.dkg k) = .fresh
  busy : s.busy .acquirer = true

def GuardState.AcquirerAt (s : GuardState κ) : GuardStage → Prop
  | .idle k => s.Unused k ∧ ∀ j, s.Settled j
  | .started k | .dropped k => s.Attempting k .idle
  | .guarded k | .held k | .refused k => s.Attempting k .guarded
  | .announced k => s.Attempting k .announced
  | _ => False

/-- A `Release` does the work, with its lease in the given phase. -/
structure GuardState.Releasing (s : GuardState κ) (i : κ) (lease : Lease) (phase : GuardPhase) :
    Prop where
  issued : s.issued lease = true
  busy : s.busy (.releaser i) = true
  once : s.once lease = .running
  phase : ∀ k, lease = .dkg k → s.phase k = phase

def GuardState.ReleaserAt (s : GuardState κ) (i : κ) (lease : Lease) : GuardStage → Prop
  | .idle _ | .ended => True
  | .begun | .left => s.issued lease = true ∧ s.busy (.releaser i) = true
  | .entered | .unheld => s.Releasing i lease .announced
  | .freed => s.Releasing i lease .reporting
  | .reported => s.Releasing i lease .done
  | _ => False

def GuardStage.working : GuardStage → Bool
  | .entered | .unheld | .freed | .reported => true
  | _ => false

structure GuardInv (w : GuardScript κ) (acc : GuardThread κ → GuardStage) (s : GuardState κ) :
    Prop where
  acquirer : s.AcquirerAt (acc .acquirer)
  releaser : ∀ i, s.ReleaserAt i (w.releases i) (acc (.releaser i))
  sole : ∀ i j, (acc (.releaser i)).working = true → (acc (.releaser j)).working = true →
    w.releases i = w.releases j → i = j
  worked : ∀ lease, s.once lease = .running →
    ∃ i, w.releases i = lease ∧ (acc (.releaser i)).working = true
  fresh : ∀ k, s.issued (.dkg k) = true → s.once (.dkg k) = .fresh → s.phase k = .announced
  finished : ∀ k, s.issued (.dkg k) = true → s.once (.dkg k) = .done → s.phase k = .done
  gauge : GaugeHeld (s.slots .dkg) s.guard s.phase

variable {w : GuardScript κ} {acc : GuardThread κ → GuardStage} {s t : GuardState κ} {i : κ}
  {lease : Lease} {stage : GuardStage}

theorem GuardState.ReleaserAt.working (h : s.ReleaserAt i lease stage)
    (hworking : stage.working = true) :
    s.busy (.releaser i) = true ∧ s.once lease = .running := by
  cases stage <;> first | exact ⟨h.busy,h.once⟩ | cases hworking

theorem GuardState.AcquirerAt.settled (h : s.AcquirerAt stage) (hbusy : s.busy .acquirer = false)
    (k : Nat) : s.Settled k := by
  cases stage <;> first | exact h.2 k | exact h.elim | exact absurd (h.busy.symm.trans hbusy) nofun

/-- With no call in progress the gauge shows whether there is a live lease. -/
theorem GuardInv.truthful (h : GuardInv w acc s) (hquiet : s.Quiet) :
    s.guard = some true ↔ ∃ k, s.Live k := by
  have hidle (lease : Lease) : s.once lease ≠ .running := by
    intro hrunning
    obtain ⟨i,rfl,hworking⟩ := h.worked lease hrunning
    have hbusy := ((h.releaser i).working hworking).1
    rw [hquiet] at hbusy
    cases hbusy
  rw [h.gauge.gauge]
  constructor
  · rintro ⟨k,hk⟩
    have hissued : s.issued (.dkg k) = true := by
      refine h.acquirer.settled (hquiet _) k fun hphase => ?_
      rw [hphase] at hk
      cases hk
    refine ⟨k,hissued,?_⟩
    cases honce : s.once (.dkg k) with
    | fresh => rfl
    | running => exact absurd honce (hidle _)
    | done =>
      rw [h.finished k hissued honce] at hk
      cases hk
  · rintro ⟨k,hk,honce⟩
    exact ⟨k,by rw [h.fresh k hk honce]; rfl⟩

/-! What a step of one goroutine leaves alone. -/

/-- Nothing changed about the leases that were not returned. -/
structure GuardState.SameOutside (s t : GuardState κ) : Prop where
  issued : t.issued = s.issued
  once : ∀ k, s.issued (.dkg k) = false → t.once (.dkg k) = s.once (.dkg k)
  phase : ∀ k, s.issued (.dkg k) = false → t.phase k = s.phase k
  busy : t.busy .acquirer = s.busy .acquirer

namespace GuardState.SameOutside

theorem unused (h : s.SameOutside t) {k : Nat} (hs : s.Unused k) : t.Unused k := by
  intro j hj
  obtain ⟨hphase,hissued,honce⟩ := hs j hj
  exact ⟨(h.phase j hissued).trans hphase,h.issued ▸ hissued,(h.once j hissued).trans honce⟩

theorem settled (h : s.SameOutside t) {k : Nat} (hs : s.Settled k) : t.Settled k := by
  intro hphase
  rw [h.issued]
  by_contra hissued
  have hout := Bool.eq_false_iff.mpr hissued
  exact hissued (hs (h.phase k hout ▸ hphase))

theorem attempting (h : s.SameOutside t) {k : Nat} {phase : GuardPhase}
    (hs : s.Attempting k phase) : t.Attempting k phase where
  later := h.unused hs.later
  others j hj := h.settled (hs.others j hj)
  phase := (h.phase k hs.issued).trans hs.phase
  issued := h.issued ▸ hs.issued
  once := (h.once k hs.issued).trans hs.once
  busy := h.busy.trans hs.busy

theorem acquirerAt (h : s.SameOutside t) (hs : s.AcquirerAt stage) : t.AcquirerAt stage := by
  cases stage <;>
    first | exact h.attempting hs | exact ⟨h.unused hs.1,fun j => h.settled (hs.2 j)⟩ | exact hs

end GuardState.SameOutside

/-- A caller of `Release` is where it was when nothing changed about its lease, or when only the
caller that does the work is concerned. -/
theorem GuardState.ReleaserAt.frame (h : s.ReleaserAt i lease stage)
    (hissued : s.issued lease = true → t.issued lease = true)
    (hbusy : t.busy (.releaser i) = s.busy (.releaser i))
    (hlease : stage.working = true → s.issued lease = true → t.once lease = s.once lease ∧
      ∀ k, lease = .dkg k → t.phase k = s.phase k) : t.ReleaserAt i lease stage := by
  have hreleasing {phase : GuardPhase} (hworking : stage.working = true)
      (hs : s.Releasing i lease phase) : t.Releasing i lease phase := by
    obtain ⟨honce,hphase⟩ := hlease hworking hs.issued
    exact ⟨hissued hs.issued,hbusy.trans hs.busy,honce.trans hs.once,
      fun k hk => (hphase k hk).trans (hs.phase k hk)⟩
  cases stage <;>
    first | exact hreleasing rfl h | exact ⟨hissued h.1,hbusy.trans h.2⟩ | exact h

/-- Nothing changed about the leases that were returned, and at most the lease of the attempt
that has set the gauge is new. -/
structure GuardState.SameInside (s t : GuardState κ) : Prop where
  once : t.once = s.once
  issued : ∀ lease, s.issued lease = true → t.issued lease = true
  phase : ∀ k, s.issued (.dkg k) = true → t.phase k = s.phase k
  busy : ∀ i, t.busy (.releaser i) = s.busy (.releaser i)
  new : ∀ k, t.issued (.dkg k) = true → s.issued (.dkg k) = false →
    s.once (.dkg k) = .fresh ∧ t.phase k = .announced

theorem GuardState.SameInside.refl (s : GuardState κ) : s.SameInside s :=
  ⟨rfl,fun _ => id,fun _ _ => rfl,fun _ => rfl,fun _ hj hnot => absurd (hj.symm.trans hnot) nofun⟩

section
variable [DecidableEq κ]

theorem GuardState.work_self (s : GuardState κ) (i : GuardThread κ) (busy : Bool) :
    (s.work i busy).busy i = busy :=
  Function.update_self ..

theorem GuardState.work_of_ne (s : GuardState κ) {i j : GuardThread κ} (hj : j ≠ i)
    (busy : Bool) : (s.work i busy).busy j = s.busy j :=
  Function.update_of_ne hj ..

theorem GuardInv.acquire (h : GuardInv w acc s) (hsame : s.SameInside t)
    (hat : t.AcquirerAt stage) (hgauge : GaugeHeld (t.slots .dkg) t.guard t.phase) :
    GuardInv w (Function.update acc .acquirer stage) t := by
  have hother (j : κ) : Function.update acc .acquirer stage (.releaser j) = acc (.releaser j) :=
    Function.update_of_ne (by simp) _ _
  refine ⟨by rwa [Function.update_self],fun j => ?_,fun j k => ?_,fun l hl => ?_,
    fun k hk honce => ?_,fun k hk honce => ?_,hgauge⟩
  · rw [hother]
    refine (h.releaser j).frame (hsame.issued _) (hsame.busy j) fun _ hissued => ?_
    exact ⟨by rw [hsame.once],fun k hk => hsame.phase k (hk ▸ hissued)⟩
  · simpa only [hother] using h.sole j k
  · simpa only [hother] using h.worked l (hsame.once ▸ hl)
  · by_cases hs : s.issued (.dkg k) = true
    · rw [hsame.phase k hs]
      exact h.fresh k hs (hsame.once ▸ honce)
    · exact (hsame.new k hk (Bool.eq_false_iff.mpr hs)).2
  · rw [hsame.once] at honce
    by_cases hs : s.issued (.dkg k) = true
    · rw [hsame.phase k hs]
      exact h.finished k hs honce
    · rw [(hsame.new k hk (Bool.eq_false_iff.mpr hs)).1] at honce
      cases honce

/-- Nothing changed except about one lease, which was returned before. -/
structure GuardState.SameExcept (s t : GuardState κ) (i : κ) (lease : Lease) : Prop where
  issued : t.issued = s.issued
  mine : s.issued lease = true
  once : ∀ l, l ≠ lease → t.once l = s.once l
  phase : ∀ k, Lease.dkg k ≠ lease → t.phase k = s.phase k
  busy : ∀ j, j ≠ .releaser i → t.busy j = s.busy j

/-- A step of a caller of `Release`: nobody else does the work on the lease, or the caller does
not do it either and nothing changes about the lease. -/
structure ReleaseStep (w : GuardScript κ) (acc : GuardThread κ → GuardStage) (s t : GuardState κ)
    (i : κ) (stage : GuardStage) : Prop where
  same : s.SameExcept t i (w.releases i)
  at_ : t.ReleaserAt i (w.releases i) stage
  life : ∀ k, w.releases i = .dkg k → (t.once (.dkg k) = .fresh → t.phase k = .announced) ∧
    (t.once (.dkg k) = .done → t.phase k = .done)
  alone : ((∀ j, (acc (.releaser j)).working = true → w.releases j = w.releases i → j = i) ∧
      (t.once (w.releases i) = .running → stage.working = true)) ∨
    ((acc (.releaser i)).working = false ∧ stage.working = false ∧
      t.once (w.releases i) = s.once (w.releases i) ∧
      ∀ k, w.releases i = .dkg k → t.phase k = s.phase k)

theorem GuardInv.release (h : GuardInv w acc s) (hstep : ReleaseStep w acc s t i stage)
    (hgauge : GaugeHeld (t.slots .dkg) t.guard t.phase) :
    GuardInv w (Function.update acc (.releaser i) stage) t := by
  have hsame := hstep.same
  have hother (j : κ) (hj : j ≠ i) :
      Function.update acc (.releaser i) stage (.releaser j) = acc (.releaser j) :=
    Function.update_of_ne (by simpa using hj) _ _
  have hne (k : Nat) (hk : s.issued (.dkg k) = false) : Lease.dkg k ≠ w.releases i := by
    rintro heq
    rw [heq, hsame.mine] at hk
    cases hk
  refine ⟨?_,fun j => ?_,fun j k hj hk heq => ?_,fun l hl => ?_,fun k hk honce => ?_,
    fun k hk honce => ?_,hgauge⟩
  · rw [Function.update_of_ne (by simp)]
    refine GuardState.SameOutside.acquirerAt ⟨hsame.issued,fun k hk => hsame.once _ (hne k hk),
      fun k hk => hsame.phase k (hne k hk),hsame.busy _ (by simp)⟩ h.acquirer
  · by_cases hj : j = i
    · rw [hj, Function.update_self]
      exact hstep.at_
    · rw [hother j hj]
      refine (h.releaser j).frame (by rw [hsame.issued]; exact id) (hsame.busy _ (by simpa))
        fun hworking _ => ?_
      by_cases hlease : w.releases j = w.releases i
      · rcases hstep.alone with ⟨halone,-⟩ | ⟨-,-,honce,hphase⟩
        · exact absurd (halone j hworking hlease) hj
        · rw [hlease]
          exact ⟨honce,hphase⟩
      · exact ⟨hsame.once _ hlease,fun k hk => hsame.phase k (hk ▸ hlease)⟩
  · have hnobody (l : κ) (hl : (Function.update acc (.releaser i) stage (.releaser l)).working = true)
        (hworking : stage.working = true) (hlease : w.releases l = w.releases i) : l = i := by
      by_contra hli
      rw [hother l hli] at hl
      rcases hstep.alone with ⟨halone,-⟩ | ⟨-,hidle,-⟩
      · exact hli (halone l hl hlease)
      · rw [hidle] at hworking
        cases hworking
    by_cases hji : j = i
    · rw [hji, Function.update_self] at hj
      rw [hji]
      exact (hnobody k hk hj (by rw [← heq, hji])).symm
    · by_cases hki : k = i
      · rw [hki, Function.update_self] at hk
        rw [hki]
        exact hnobody j hj hk (by rw [heq, hki])
      · rw [hother j hji] at hj
        rw [hother k hki] at hk
        exact h.sole j k hj hk heq
  · have hkept (hl' : s.once l = .running) (hi : w.releases i = l →
        (acc (.releaser i)).working = false) : ∃ j, w.releases j = l ∧
        (Function.update acc (.releaser i) stage (.releaser j)).working = true := by
      obtain ⟨j,hj,hworking⟩ := h.worked l hl'
      refine ⟨j,hj,?_⟩
      rw [hother j, hworking]
      rintro rfl
      rw [hi hj] at hworking
      cases hworking
    by_cases hlease : l = w.releases i
    · rcases hstep.alone with ⟨-,hworking⟩ | ⟨hidle,-,honce,-⟩
      · exact ⟨i,hlease.symm,by rw [Function.update_self]; exact hworking (hlease ▸ hl)⟩
      · exact hkept (by rw [hlease, ← honce, ← hlease, hl]) fun _ => hidle
    · exact hkept (hsame.once l hlease ▸ hl) fun heq => absurd heq.symm hlease
  · by_cases hlease : Lease.dkg k = w.releases i
    · exact (hstep.life k hlease.symm).1 honce
    · rw [hsame.phase k hlease]
      exact h.fresh k (hsame.issued ▸ hk) (hsame.once _ hlease ▸ honce)
  · by_cases hlease : Lease.dkg k = w.releases i
    · exact (hstep.life k hlease.symm).2 honce
    · rw [hsame.phase k hlease]
      exact h.finished k (hsame.issued ▸ hk) (hsame.once _ hlease ▸ honce)

end

/-! The steps of the goroutine that acquires. -/

theorem GuardState.Attempting.next {k : Nat} {p q : GuardPhase} (hs : s.Attempting k p)
    (hissued : t.issued = s.issued) (honce : t.once = s.once)
    (hphase : t.phase = Function.update s.phase k q) (hbusy : t.busy = s.busy) :
    s.SameInside t ∧ t.Attempting k q := by
  have hother (j : Nat) (hj : j ≠ k) : t.phase j = s.phase j := by
    rw [hphase, Function.update_of_ne hj]
  refine ⟨⟨honce,fun l hl => hissued ▸ hl,fun j hj => hother j ?_,fun j => by rw [hbusy],
    fun j hj hnot => ?_⟩,⟨fun j hj => ?_,fun j hj => ?_,?_,?_,?_,?_⟩⟩
  · rintro rfl
    rw [hs.issued] at hj
    cases hj
  · rw [hissued, hnot] at hj
    cases hj
  · rw [hother j (by omega), hissued, honce]
    exact hs.later j hj
  · rw [GuardState.Settled, hother j hj, hissued]
    exact hs.others j hj
  · rw [hphase, Function.update_self]
  · rw [hissued, hs.issued]
  · rw [honce, hs.once]
  · rw [hbusy, hs.busy]

variable [DecidableEq κ]

theorem GuardInv.beginAcquire (h : GuardInv w acc s) {k : Nat} (hk : acc .acquirer = .idle k) :
    GuardInv w (Function.update acc .acquirer (.started k)) (s.work .acquirer true) := by
  obtain ⟨hunused,hsettled⟩ : s.AcquirerAt (.idle k) := hk ▸ h.acquirer
  refine h.acquire ⟨rfl,fun _ => id,fun _ _ => rfl,fun j => ?_,fun j hj hnot => ?_⟩ ?_ h.gauge
  · exact GuardState.work_of_ne _ (by simp) _
  · exact absurd (hj.symm.trans hnot) nofun
  · obtain ⟨hphase,hissued,honce⟩ := hunused k k.le_refl
    exact ⟨fun j hj => hunused j (by omega),fun j _ => hsettled j,hphase,hissued,honce,
      GuardState.work_self ..⟩

theorem GuardInv.endFailed (h : GuardInv w acc s) {k : Nat} (hk : acc .acquirer = .dropped k) :
    GuardInv w (Function.update acc .acquirer (.idle (k + 1))) (s.work .acquirer false) := by
  have hs : s.AcquirerAt (.dropped k) := hk ▸ h.acquirer
  refine h.acquire ⟨rfl,fun _ => id,fun _ _ => rfl,fun j => ?_,fun j hj hnot => ?_⟩ ?_ h.gauge
  · exact GuardState.work_of_ne _ (by simp) _
  · exact absurd (hj.symm.trans hnot) nofun
  · refine ⟨hs.later,fun j hj => ?_⟩
    refine hs.others j ?_ hj
    rintro rfl
    exact hj hs.phase

theorem GuardInv.endIssued (h : GuardInv w acc s) {k : Nat} (hk : acc .acquirer = .announced k) :
    GuardInv w (Function.update acc .acquirer (.idle (k + 1))) (GuardState.work { s with
      issued := Function.update s.issued (.dkg k) true } .acquirer false) := by
  have hs : s.AcquirerAt (.announced k) := hk ▸ h.acquirer
  have hissued (l : Lease) (hl : l ≠ .dkg k) :
      Function.update s.issued (.dkg k) true l = s.issued l := Function.update_of_ne hl _ _
  refine h.acquire ⟨rfl,fun l hl => ?_,fun _ _ => rfl,fun j => ?_,fun j hj hnot => ?_⟩ ?_ h.gauge
  · change Function.update s.issued (.dkg k) true l = true
    by_cases hlk : l = .dkg k
    · rw [hlk, Function.update_self]
    · rw [hissued l hlk, hl]
  · exact GuardState.work_of_ne _ (by simp) _
  · obtain rfl : j = k := by
      by_contra hjk
      exact absurd ((hissued (.dkg j) (by simpa using hjk)).symm.trans hj) (by rw [hnot]; nofun)
    exact ⟨hs.once,hs.phase⟩
  · refine ⟨fun j hj => ?_,fun j hj => ?_⟩
    · obtain ⟨hphase,hnot,honce⟩ := hs.later j hj
      exact ⟨hphase,(hissued (.dkg j) (by simp; omega)).trans hnot,honce⟩
    · change Function.update s.issued (.dkg k) true (.dkg j) = true
      by_cases hjk : j = k
      · rw [hjk, Function.update_self]
      · rw [hissued _ (by simpa using hjk)]
        exact hs.others j hjk hj

theorem GuardInv.acquirerMoves (h : GuardInv w acc s) {o : GuardOp} {r : o.Ans}
    (hpre : acquirePre o (acc .acquirer)) (hsem : guardSem w.cfg .acquirer o s r t)
    (hcalm : calm (κ := κ) .acquirer o s r) :
    GuardInv w (Function.update acc .acquirer ((acc .acquirer).after ⟨o,r⟩)) t := by
  have hat := h.acquirer
  cases hstage : acc .acquirer <;> rw [hstage] at hpre hat <;> cases o <;>
    try exact absurd hpre id
  case idle.beginAcquire k attempt =>
    obtain rfl := hsem
    exact h.beginAcquire hstage
  case started.take k pool attempt =>
    obtain ⟨rfl,rfl⟩ := hpre
    obtain ⟨rfl,rfl⟩ := hsem
    by_cases hfree : s.slots .dkg < w.cfg.capacity .dkg
    · rw [if_pos hfree, decide_eq_true hfree]
      have hzero : s.slots .dkg = 0 := Nat.lt_one_iff.mp hfree
      obtain ⟨hsame,hnext⟩ := GuardState.Attempting.next (t := s.takeSlot .dkg attempt) hat rfl rfl
        rfl rfl
      refine h.acquire hsame hnext ?_
      have hgauge := (hzero ▸ h.gauge).take hat.phase
      simpa [GuardState.takeSlot, GuardState.setPhase, hzero] using hgauge
    · rw [if_neg hfree, decide_eq_false hfree]
      exact h.acquire (.refl s) hat h.gauge
  case guarded.take k pool attempt =>
    obtain ⟨rfl,rfl⟩ := hpre
    obtain ⟨rfl,rfl⟩ := hsem
    by_cases hfree : s.slots .general < w.cfg.capacity .general
    · rw [if_pos hfree, decide_eq_true hfree]
      obtain ⟨hsame,hnext⟩ := GuardState.Attempting.next (t := s.takeSlot .general attempt)
        (q := .guarded) hat rfl rfl (by rw [← hat.phase, Function.update_eq_self]; rfl) rfl
      exact h.acquire hsame hnext h.gauge
    · rw [if_neg hfree, decide_eq_false hfree]
      exact h.acquire (.refl s) hat h.gauge
  case held.setDKGGuard k on attempt =>
    obtain ⟨rfl,rfl⟩ := hpre
    obtain rfl := hsem
    obtain ⟨hsame,hnext⟩ := GuardState.Attempting.next (t := s.report true attempt) hat rfl rfl
      rfl rfl
    refine h.acquire hsame hnext (h.gauge.announce hat.phase fun j hj => ?_)
    rcases Nat.lt_trichotomy j attempt with hlt | rfl | hgt
    · exact hcalm j hlt hj
    · exact absurd (hat.phase.symm.trans hj) nofun
    · exact absurd ((hat.later j hgt).1.symm.trans hj) nofun
  case refused.give k pool lease =>
    obtain ⟨rfl,rfl⟩ := hpre
    obtain ⟨-,rfl⟩ := hsem
    obtain ⟨hsame,hnext⟩ := GuardState.Attempting.next (t := s.giveSlot .dkg (.dkg k)) hat rfl rfl
      (by rw [GuardState.giveSlot, GuardState.setPhase, if_pos hat.phase]) rfl
    refine h.acquire hsame hnext ?_
    have hgauge := h.gauge.give (k := k) (p := .idle) (by rw [hat.phase]; rfl) rfl
      (by rw [hat.phase]; rfl)
    simpa [GuardState.giveSlot, GuardState.setPhase, hat.phase] using hgauge
  case announced.endAcquire k attempt acquired =>
    obtain ⟨rfl,rfl⟩ := hpre
    obtain rfl := hsem
    exact h.endIssued hstage
  case dropped.endAcquire k attempt acquired =>
    obtain ⟨rfl,rfl⟩ := hpre
    obtain rfl := hsem
    exact h.endFailed hstage

end

/-! The steps of the callers of `Release`. -/

section
variable {κ : Type} {w : GuardScript κ} {acc : GuardThread κ → GuardStage} {s t : GuardState κ}
  {i : κ} {stage : GuardStage}

theorem ReleaseStep.work {p q : GuardPhase} (h : GuardInv w acc s)
    (hworking : (acc (.releaser i)).working = true) (hs : s.Releasing i (w.releases i) p)
    (hissued : t.issued = s.issued) (honce : t.once = s.once)
    (hphase : ∀ k, Lease.dkg k ≠ w.releases i → t.phase k = s.phase k)
    (hmine : ∀ k, w.releases i = .dkg k → t.phase k = q) (hbusy : t.busy = s.busy)
    (hat : t.Releasing i (w.releases i) q → t.ReleaserAt i (w.releases i) stage)
    (hnext : stage.working = true) : ReleaseStep w acc s t i stage where
  same := ⟨hissued,hs.issued,fun _ _ => by rw [honce],hphase,fun _ _ => by rw [hbusy]⟩
  at_ := hat ⟨by rw [hissued, hs.issued],by rw [hbusy, hs.busy],by rw [honce, hs.once],hmine⟩
  life k hk := by
    rw [honce, ← hk, hs.once]
    exact ⟨nofun,nofun⟩
  alone := .inl ⟨fun j hj heq => h.sole j i hj hworking heq,fun _ => hnext⟩

theorem ReleaseStep.phase {p q : GuardPhase} {k : Nat} (h : GuardInv w acc s)
    (hworking : (acc (.releaser i)).working = true) (hs : s.Releasing i (w.releases i) p)
    (hk : w.releases i = .dkg k) (hissued : t.issued = s.issued) (honce : t.once = s.once)
    (hphase : t.phase = Function.update s.phase k q) (hbusy : t.busy = s.busy)
    (hat : t.Releasing i (w.releases i) q → t.ReleaserAt i (w.releases i) stage)
    (hnext : stage.working = true) : ReleaseStep w acc s t i stage := by
  refine .work h hworking hs hissued honce (fun j hj => ?_) (fun j hj => ?_) hbusy hat hnext
  · rw [hphase, Function.update_of_ne]
    rintro rfl
    exact hj hk.symm
  · obtain rfl := Lease.dkg.inj (hk.symm.trans hj)
    rw [hphase, Function.update_self]

theorem ReleaseStep.pass (h : GuardInv w acc s) (hmine : s.issued (w.releases i) = true)
    (hissued : t.issued = s.issued) (honce : t.once = s.once) (hphase : t.phase = s.phase)
    (hbusy : ∀ j, j ≠ .releaser i → t.busy j = s.busy j)
    (hat : t.ReleaserAt i (w.releases i) stage)
    (hidle : (acc (.releaser i)).working = false) (hnext : stage.working = false) :
    ReleaseStep w acc s t i stage where
  same := ⟨hissued,hmine,fun _ _ => by rw [honce],fun _ _ => by rw [hphase],hbusy⟩
  at_ := hat
  life k hk := by
    rw [honce, hphase]
    exact ⟨h.fresh k (hk ▸ hmine),h.finished k (hk ▸ hmine)⟩
  alone := .inr ⟨hidle,hnext,by rw [honce],fun k _ => by rw [hphase]⟩

theorem GuardState.giveSlot_general (s : GuardState κ) (lease : Lease) : s.giveSlot .general lease =
    { s with slots := Function.update s.slots .general (s.slots .general - 1) } := by
  cases lease <;> rfl

variable [DecidableEq κ]

theorem GuardInv.enter (h : GuardInv w acc s) (hstage : acc (.releaser i) = .begun)
    (hfresh : s.once (w.releases i) = .fresh) : GuardInv w
      (Function.update acc (.releaser i) .entered)
      { s with once := Function.update s.once (w.releases i) .running } := by
  obtain ⟨hissued,hbusy⟩ : s.ReleaserAt i (w.releases i) .begun := hstage ▸ h.releaser i
  refine h.release ⟨⟨rfl,hissued,fun l hl => Function.update_of_ne hl ..,fun _ _ => rfl,
    fun _ _ => rfl⟩,⟨hissued,hbusy,Function.update_self ..,fun k hk => ?_⟩,fun k hk => ?_,
    .inl ⟨fun j hj heq => ?_,fun _ => rfl⟩⟩ h.gauge
  · exact h.fresh k (hk ▸ hissued) (hk ▸ hfresh)
  · have hrunning : Function.update s.once (w.releases i) .running (.dkg k) = .running := by
      rw [hk, Function.update_self]
    exact ⟨fun hnot => absurd (hrunning.symm.trans hnot) nofun,
      fun hnot => absurd (hrunning.symm.trans hnot) nofun⟩
  · have hrunning := ((h.releaser j).working hj).2
    rw [heq, hfresh] at hrunning
    cases hrunning

theorem GuardInv.leave (h : GuardInv w acc s) {p : GuardPhase}
    (hs : s.Releasing i (w.releases i) p) (hworking : (acc (.releaser i)).working = true)
    (hdone : ∀ k, w.releases i = .dkg k → s.phase k = .done) : GuardInv w
      (Function.update acc (.releaser i) .left)
      { s with once := Function.update s.once (w.releases i) .done } := by
  refine h.release ⟨⟨rfl,hs.issued,fun l hl => Function.update_of_ne hl ..,fun _ _ => rfl,
    fun _ _ => rfl⟩,⟨hs.issued,hs.busy⟩,fun k hk => ?_,
    .inl ⟨fun j hj heq => h.sole j i hj hworking heq,fun hrunning => ?_⟩⟩ h.gauge
  · have honce : Function.update s.once (w.releases i) .done (.dkg k) = .done := by
      rw [hk, Function.update_self]
    exact ⟨fun hnot => absurd (honce.symm.trans hnot) nofun,fun _ => hdone k hk⟩
  · exact absurd ((Function.update_self (w.releases i) OnceState.done s.once).symm.trans hrunning)
      nofun

theorem GuardInv.releaserMoves (h : GuardInv w acc s) {o : GuardOp} {r : o.Ans}
    (hpre : releasePre (w.releases i) o (acc (.releaser i)))
    (hsem : guardSem w.cfg (.releaser i) o s r t) :
    GuardInv w (Function.update acc (.releaser i) ((acc (.releaser i)).after ⟨o,r⟩)) t := by
  have hat := h.releaser i
  have hworking {x : GuardStage} (hx : acc (.releaser i) = x) :
      (acc (.releaser i)).working = x.working := by rw [hx]
  cases hstage : acc (.releaser i) <;> rw [hstage] at hpre hat <;> cases o <;>
    try exact absurd hpre id
  case idle.beginRelease _ lease =>
    obtain rfl := hpre
    obtain ⟨hissued,rfl⟩ := hsem
    refine h.release (.pass h hissued rfl rfl rfl (fun j hj => GuardState.work_of_ne _ hj _)
      ⟨hissued,GuardState.work_self ..⟩ (by rw [hstage]; rfl) rfl) h.gauge
  case begun.enter lease =>
    obtain rfl := hpre
    obtain ⟨-,rfl,rfl⟩ := hsem
    by_cases hfresh : s.once (w.releases i) = .fresh
    · rw [if_pos hfresh, decide_eq_true hfresh]
      exact h.enter hstage hfresh
    · rw [if_neg hfresh, decide_eq_false hfresh]
      exact h.release (.pass h hat.1 rfl rfl rfl (fun _ _ => rfl) hat (by rw [hstage]; rfl) rfl)
        h.gauge
  case entered.give pool lease =>
    obtain ⟨rfl,rfl⟩ := hpre
    obtain ⟨-,rfl⟩ := hsem
    rw [GuardState.giveSlot_general]
    exact h.release (.work h (hworking hstage) hat rfl rfl (fun _ _ => rfl) hat.phase rfl id rfl)
      h.gauge
  case unheld.give pool lease =>
    obtain ⟨rfl,rfl,k,hk⟩ := hpre
    obtain ⟨-,rfl⟩ := hsem
    have hannounced := hat.phase k hk
    have hphase : (s.giveSlot .dkg (w.releases i)).phase =
        Function.update s.phase k .reporting := by
      simp [GuardState.giveSlot, GuardState.setPhase, hk, hannounced]
    refine h.release (.phase h (hworking hstage) hat hk (by rw [hk]; rfl) (by rw [hk]; rfl) hphase
      (by rw [hk]; rfl) id rfl) ?_
    rw [hphase, hk]
    exact h.gauge.give (by rw [hannounced]; rfl) rfl (by rw [hannounced]; rfl)
  case unheld.leave lease =>
    obtain ⟨rfl,n,hn⟩ := hpre
    obtain rfl := hsem
    exact h.leave hat (by rw [hstage]; rfl) fun k hk => absurd (hn.symm.trans hk) nofun
  case freed.setDKGGuard on k =>
    obtain ⟨rfl,hk⟩ := hpre
    obtain rfl := hsem
    exact h.release (.phase h (hworking hstage) hat hk rfl rfl rfl rfl id rfl)
      (h.gauge.clear (hat.phase k hk))
  case reported.leave lease =>
    obtain rfl := hpre
    obtain rfl := hsem
    exact h.leave hat (by rw [hstage]; rfl) hat.phase
  case left.endRelease lease =>
    obtain rfl := hpre
    obtain rfl := hsem
    exact h.release (.pass h hat.1 rfl rfl rfl (fun j hj => GuardState.work_of_ne _ hj _) trivial
      (by rw [hstage]; rfl) rfl) h.gauge

end

/-! Whole runs. -/

section
variable {κ : Type} {w : GuardScript κ} {s : GuardState κ}

theorem GuardInv.initial (used : Nat) (signs : Nat → Bool) :
    GuardInv w (fun _ => .idle 0) (GuardState.initial used signs) where
  acquirer := ⟨fun _ _ => ⟨rfl,rfl,rfl⟩,fun _ hj => absurd rfl hj⟩
  releaser _ := trivial
  sole := nofun
  worked := nofun
  fresh := nofun
  finished := nofun
  gauge := ⟨.inl ⟨rfl,fun _ => rfl⟩,nofun,nofun,iff_of_false nofun nofun⟩

theorem guardBody_meets (w : GuardScript κ) : (i : GuardThread κ) →
    (guardBody w i).Meets (guardKeeping w i) (fun _ _ => True) (.idle 0)
  | .acquirer => acquireFrom_meets w 0 w.attempts
  | .releaser i => releaseGuarded_meets w i

variable [DecidableEq κ]

theorem guardTeam_accounted (w : GuardScript κ) (used : Nat) (signs : Nat → Bool) :
    ((guardTeam w).under calm).Accounted (GuardState.initial used signs) GuardStage.after (.idle 0)
      (fun _ _ _ _ => True) (guardPre w) (fun _ _ _ => True) (GuardInv w) where
  start := .initial used signs
  meets := guardBody_meets w
  answers _ _ _ _ _ _ _ _ _ := trivial
  moves acc s i o r t hinv hpre hsem := by
    cases i with
    | acquirer => exact hinv.acquirerMoves hpre hsem.2 hsem.1
    | releaser i => exact hinv.releaserMoves hpre hsem.2

/-- The gauge tells the truth in every run in which it is never set between the two steps of a
release. -/
theorem guard_gauge_truthful (w : GuardScript κ) (used : Nat) (signs : Nat → Bool)
    {h : Moves (GuardThread κ) GuardOp GuardOp.Ans} {rest : GuardThread κ → GuardProg Unit}
    (hrun : ((guardTeam w).under calm).Run (GuardState.initial used signs) h rest s)
    (hquiet : s.Quiet) : s.guard = some true ↔ ∃ k, s.Live k :=
  (hrun.accounted (guardTeam_accounted w used signs)).1.truthful hquiet

/-! Runs that are computed. -/

def guardBlocked : GuardThread κ → GuardOp → GuardState κ → Bool
  | _, .give pool _, s => s.slots pool == 0
  | _, .beginRelease lease, s => !s.issued lease
  | _, .enter lease, s => s.once lease == .running
  | _, _, _ => false

def guardAnswer (cfg : SchedulerConfig) (i : GuardThread κ) :
    (o : GuardOp) → GuardState κ → o.Ans × GuardState κ
  | .beginAcquire _, s => ((),s.work i true)
  | .endAcquire attempt acquired, s => ((),{ s with
      issued := if acquired then Function.update s.issued (.dkg attempt) true else s.issued }.work
        i false)
  | .take pool attempt, s => (decide (s.slots pool < cfg.capacity pool),
      if s.slots pool < cfg.capacity pool then s.takeSlot pool attempt else s)
  | .give pool lease, s => ((),s.giveSlot pool lease)
  | .setDKGGuard on attempt, s => ((),s.report on attempt)
  | .beginRelease _, s => ((),s.work i true)
  | .enter lease, s => (decide (s.once lease = .fresh),
      if s.once lease = .fresh then
        { s with once := Function.update s.once lease .running } else s)
  | .leave lease, s => ((),{ s with once := Function.update s.once lease .done })
  | .endRelease _, s => ((),s.work i false)

theorem guardAnswer_sem (cfg : SchedulerConfig) (i : GuardThread κ) (o : GuardOp)
    (s : GuardState κ) (h : guardBlocked i o s = false) :
    guardSem cfg i o s (guardAnswer cfg i o s).1 (guardAnswer cfg i o s).2 := by
  cases o with
  | take pool attempt => exact ⟨rfl,rfl⟩
  | give pool lease => exact ⟨Nat.pos_of_ne_zero (by simpa [guardBlocked] using h),rfl⟩
  | beginRelease lease => exact ⟨by simpa [guardBlocked] using h,rfl⟩
  | enter lease => exact ⟨by simpa [guardBlocked] using h,rfl,rfl⟩
  | _ => rfl

/-- As `guardBlocked`, and the gauge is not set in the middle of a release. -/
def calmBlocked (i : GuardThread κ) (o : GuardOp) (s : GuardState κ) : Bool :=
  guardBlocked i o s || match o with
    | .setDKGGuard true attempt =>
      (List.range attempt).any fun earlier => s.phase earlier == .reporting
    | _ => false

theorem calmAnswer_sem (cfg : SchedulerConfig) (i : GuardThread κ) (o : GuardOp)
    (s : GuardState κ) (h : calmBlocked i o s = false) :
    calm i o s (guardAnswer cfg i o s).1 ∧
      guardSem cfg i o s (guardAnswer cfg i o s).1 (guardAnswer cfg i o s).2 := by
  obtain ⟨hfree,hcalm⟩ := Bool.or_eq_false_iff.mp h
  refine ⟨?_,guardAnswer_sem cfg i o s hfree⟩
  match o, hcalm with
  | .setDKGGuard true attempt, hcalm =>
    intro earlier hlt
    simpa using List.any_eq_false.mp hcalm earlier (List.mem_range.mpr hlt)
  | .setDKGGuard false _, _ => trivial
  | .take .. , _ | .give .., _ | .beginAcquire _, _ | .endAcquire .., _ | .beginRelease _, _ |
    .enter _, _ | .leave _, _ | .endRelease _, _ => trivial

end

/-- Two leases after one another, and the first is released. -/
def twoLeases : GuardScript Unit where
  cfg := { maxConcurrent := 4 }
  attempts := 2
  releases _ := .dkg 0

/-- The second attempt ends before the release of the first lease starts, and fails. -/
theorem guard_gauge_truthful_release : ∃ h rest s,
    ((guardTeam twoLeases).under calm).Run (GuardState.initial 0 fun _ => false) h rest s ∧
      s.Quiet ∧ s.guard = some false ∧ ¬ ∃ k, s.Live k := by
  have hplay : (Team.play (Team.serving calmBlocked (guardAnswer twoLeases.cfg))
      ((guardTeam twoLeases).under calm) (GuardState.initial 0 fun _ => false)
      (List.replicate 8 .acquirer ++ List.replicate 7 (.releaser ()))).map
      (fun d => (d.shared.busy .acquirer,d.shared.busy (.releaser ()),d.shared.guard)) =
        some (false,false,some false) := by decide +kernel
  obtain ⟨d,hd,heq⟩ := Option.map_eq_some_iff.mp hplay
  simp only [Prod.mk.injEq] at heq
  have hquiet : d.shared.Quiet
    | .acquirer => heq.1
    | .releaser () => heq.2.1
  have hrun := Team.play_serving (T := (guardTeam twoLeases).under calm)
    (calmAnswer_sem twoLeases.cfg) hd
  refine ⟨d.moves,d.rest,d.shared,hrun,hquiet,heq.2.2,?_⟩
  rw [← guard_gauge_truthful twoLeases 0 _ hrun hquiet, heq.2.2]
  simp

/-- The first lease gives its slot back, the second attempt returns its lease, and then the first
clears the gauge. -/
theorem guard_gauge_lies : ∃ h rest s,
    (guardTeam twoLeases).Run (GuardState.initial 0 fun _ => false) h rest s ∧
      s.Quiet ∧ s.guard = some false ∧ s.Live 1 := by
  have hplay : (Team.play (Team.serving guardBlocked (guardAnswer twoLeases.cfg))
      (guardTeam twoLeases) (GuardState.initial 0 fun _ => false)
      (List.replicate 5 .acquirer ++ List.replicate 4 (.releaser ()) ++
        List.replicate 5 .acquirer ++ List.replicate 3 (.releaser ()))).map
      (fun d => (d.shared.busy .acquirer,d.shared.busy (.releaser ()),d.shared.guard,
        d.shared.issued (.dkg 1),d.shared.once (.dkg 1))) =
        some (false,false,some false,true,.fresh) := by decide +kernel
  obtain ⟨d,hd,heq⟩ := Option.map_eq_some_iff.mp hplay
  simp only [Prod.mk.injEq] at heq
  have hquiet : d.shared.Quiet
    | .acquirer => heq.1
    | .releaser () => heq.2.1
  exact ⟨d.moves,d.rest,d.shared,Team.play_serving (guardAnswer_sem twoLeases.cfg) hd,hquiet,
    heq.2.2.1,heq.2.2.2⟩

end CoSigner.Worker
