import CoSigner.Lifecycle.Admission

/-! What the readiness snapshot says after a confirmed startup publication. `Start`
reads `confirmed` under the mutex and publishes its snapshot later, outside it, while
the callback reads and rewrites the same snapshot. -/
namespace CoSigner.Lifecycle
open Interleaving

/-- Dependencies whose probes always give the same answers. -/
def Constant (deps : Dependencies) (signing provisioning : Bool) : Prop :=
  (∀ b, deps.SigningAnswer b → b = signing) ∧ ∀ b, deps.provisioningReady b → b = provisioning

/-- The snapshot a confirmed publication should leave behind. -/
structure Confirmed (deps : Dependencies) (signing provisioning : Bool) (r : Snapshot) : Prop where
  reason : r.provisioningReason ≠ .dkgTerminalUnconfirmed
  process : r.processReady = signing
  sign : r.signingReady = (signing && !deps.signingDisabled)
  provision : r.provisioningReady = (signing && provisioning)

/-- `Start` returned nil, the callback ran to its end and nothing was shut down. -/
structure Settled (s : State) : Prop where
  start : s.start = .returned
  callback : s.callback = .returned
  shutdown : s.shutdown = .idle

/-- The callback is between its read of the snapshot and its write. -/
def CallbackPc.rewriting : CallbackPc → Bool
  | .provisioning _ | .set _ => true
  | _ => false

/-- The callback has written its snapshot. -/
def CallbackPc.written : CallbackPc → Bool
  | .wake | .unlock | .returned => true
  | _ => false

/-- `Start` publishes `snapshot` at a harmless moment: a snapshot that still carries the
unconfirmed reason before the callback's write, and, when signing is ready, none at all
between the callback's read and its write. -/
def PublishesInTime (signing : Bool) (snapshot : Snapshot) (s : State) : Prop :=
  (snapshot.provisioningReason = .dkgTerminalUnconfirmed → s.callback.written = false) ∧
  (signing = true → s.callback.rewriting = false)

/-- The verdict of reconciliation `Start` is working on. -/
def StartPc.verdict : StartPc → Option Disposition
  | .latchLock | .latch | .latchUnlock => some .capabilityDeferred
  | .handoff | .handedOff => some (.terminalPublicationRequired true)
  | .setAdmission d _ | .startScheduler d | .startIntake d | .signingReady d => some d
  | .provisioning d _ | .readLock d _ | .readConfirmed d _ | .readUnlock d _ _ => some d
  | .setReadiness d _ => some d
  | _ => none

/-- `Start` has published its snapshot and is about to return nil. -/
def StartPc.published : StartPc → Bool
  | .finishLock | .finish | .finishUnlock | .returned => true
  | _ => false

/-- `Start` is failing. -/
def StartPc.failing : StartPc → Bool
  | .abortLock | .abortStop | .abortAdmission | .abortUnlock | .down _ | .failed => true
  | _ => false

def StartPc.done (pc : StartPc) : Bool := pc.published || pc.failing

/-- Only a verdict that asks for it makes a callback, and only a deferred one latches. -/
structure VerdictInv (s : State) : Prop where
  latched : s.latched = true → s.callback = .idle ∧
    (s.start.verdict = some .capabilityDeferred ∨ s.start.done = true)
  callback : s.callback ≠ .idle →
    s.start.verdict = some (.terminalPublicationRequired true) ∨ s.start.done = true
  stopping : s.stopping = true → s.shutdown ≠ .idle ∨ s.start.failing = true
  leaving : s.callback = .leave ∨ s.callback = .leaveAgain → s.stopping = true ∨ s.latched = true

theorem StartStep.verdictInv {deps : Dependencies} {s t : State} (h : StartStep deps s t)
    (hs : VerdictInv s) : VerdictInv t := by
  obtain ⟨hl,hc,hst,hlv⟩ := hs
  cases h with
  | down t pc pc' errs h hd =>
    obtain ⟨-,h1,h2,-,-,-,h3,h4,-⟩ := hd.frame
    constructor <;> simp_all [StartPc.verdict, StartPc.done, StartPc.published, StartPc.failing]
  | downReturn t pc errs h hd =>
    obtain ⟨-,h1,h2,-,-,-,h3,h4,-⟩ := hd.frame
    constructor <;> simp_all [StartPc.verdict, StartPc.done, StartPc.published, StartPc.failing]
  | reconcile h d ha =>
    have hcb : s.callback = .idle := by
      refine Decidable.byContradiction fun hne => ?_
      simpa [h, StartPc.verdict, StartPc.done, StartPc.published, StartPc.failing] using hc hne
    have hlt : s.latched = false := by
      refine Bool.eq_false_iff.mpr fun hne => ?_
      simpa [h, StartPc.verdict, StartPc.done, StartPc.published, StartPc.failing] using hl hne
    have hfl : s.stopping = true → s.shutdown ≠ .idle := by
      simpa [h, StartPc.failing] using hst
    exact ⟨by simp [State.call, hlt],by simp [State.call, hcb],fun hp => .inl (hfl hp),
      by simp [State.call, hcb]⟩
  | setAdmission d isOpen h =>
    cases d <;> constructor <;> simp_all [State.call, afterAdmission, StartPc.verdict,
      StartPc.done, StartPc.published, StartPc.failing]
  | signingReady d signing h ha =>
    cases d <;> cases signing <;> constructor <;> simp_all [afterSigning, StartPc.verdict,
      StartPc.done, StartPc.published, StartPc.failing]
  | readUnlock d signing confirmed h =>
    cases signing <;> cases confirmed <;> constructor <;> simp_all [afterConfirmed,
      StartPc.verdict, StartPc.done, StartPc.published, StartPc.failing]
  | _ =>
    constructor <;> simp_all [State.call, State.fail, StartPc.verdict, StartPc.done,
      StartPc.published, StartPc.failing]

theorem CallbackStep.active {deps : Dependencies} {s t : State} (h : CallbackStep deps s t) :
    s.callback ≠ .idle ∧ t.callback ≠ .idle := by
  cases h with
  | snapshot h => cases hp : s.readiness.processReady <;> simp [h]
  | _ => simp_all

theorem step_verdictInv {deps : Dependencies} (i : Thread) (s t : State) (hs : VerdictInv s)
    (h : (coordinator deps).step i s t) : VerdictInv t := by
  cases i with
  | start => exact StartStep.verdictInv h hs
  | callback =>
    obtain ⟨hl,hc,hst,hlv⟩ := hs
    have hne := CallbackStep.active h
    have hlt : s.latched = false := Bool.eq_false_iff.mpr fun hlt => hne.1 (hl hlt).1
    have hleave : t.callback = .leave ∨ t.callback = .leaveAgain →
        s.stopping = true ∨ s.latched = true := by
      cases h with
      | snapshot h => cases hp : s.readiness.processReady <;> simp
      | _ => simp_all
    cases h <;> exact ⟨by simp [State.call, hlt],fun _ => hc hne.1,hst,hleave⟩
  | shutdown =>
    obtain ⟨hl,hc,hst,hlv⟩ := hs
    cases h with
    | down t pc pc' errs h hd =>
      obtain ⟨-,h1,h2,-,-,h3,h4,-,-⟩ := hd.frame
      exact ⟨by simpa [h2, h3, h4] using hl,by simpa [h3, h4] using hc,by simp,
        by simpa [h1, h2, h4] using hlv⟩
    | downReturn t pc errs h hd =>
      obtain ⟨-,h1,h2,-,-,h3,h4,-,-⟩ := hd.frame
      exact ⟨by simpa [h2, h3, h4] using hl,by simpa [h3, h4] using hc,by simp,
        by simpa [h1, h2, h4] using hlv⟩
    | stop h => exact ⟨hl,hc,by simp,by simp⟩
    | _ => exact ⟨hl,hc,by simp,hlv⟩

theorem verdictInv_initial : VerdictInv {} :=
  ⟨by simp,by simp,by simp,by simp⟩

/-- Nothing stops or defers the process. -/
structure Calm (s : State) : Prop where
  shutdown : s.shutdown = .idle
  stopping : s.stopping = false
  latched : s.latched = false

theorem step_calm {deps : Dependencies} {i : Thread} {s t : State}
    (h : (coordinator deps).step i s t) (ht : Calm t) : Calm s := by
  obtain ⟨h1,h2,h3⟩ := ht
  cases i with
  | start =>
    cases h with
    | down t pc pc' errs h hd =>
      obtain ⟨-,hst,hl,-,-,-,-,hsh,-⟩ := hd.frame
      exact ⟨hsh.symm.trans h1,hst.symm.trans h2,hl.symm.trans h3⟩
    | downReturn t pc errs h hd =>
      obtain ⟨-,hst,hl,-,-,-,-,hsh,-⟩ := hd.frame
      exact ⟨hsh.symm.trans h1,hst.symm.trans h2,hl.symm.trans h3⟩
    | latch h => simp at h3
    | abortStop h => simp at h2
    | _ => exact ⟨h1,h2,h3⟩
  | callback => cases h <;> exact ⟨h1,h2,h3⟩
  | shutdown => cases h <;> simp at h1

theorem Settled.calm {deps : Dependencies} {f : State} (h : (coordinator deps).Reach {} f)
    (hf : Settled f) : Calm f := by
  have hv := Threads.Reach.invariant step_verdictInv h verdictInv_initial
  refine ⟨hf.shutdown,?_,?_⟩
  · refine Bool.eq_false_iff.mpr fun hst => ?_
    simpa [hf.shutdown, hf.start, StartPc.failing] using hv.stopping hst
  · refine Bool.eq_false_iff.mpr fun hl => ?_
    simpa [hf.callback] using (hv.latched hl).1

/-- The snapshot that will stand once the callback has run, when the readiness value
is `r` and `Start` has published. -/
def outcome (provisioning : Bool) (r : Snapshot) : CallbackPc → Snapshot
  | .provisioning snapshot => snapshot.confirm provisioning
  | .set snapshot => snapshot
  | .wake | .unlock | .returned => r
  | _ => r.confirm provisioning

theorem confirm_unready {r : Snapshot} (h : r.processReady = false) (a b : Bool) :
    r.confirm a = r.confirm b := by
  simp [Snapshot.confirm, h]

/-- After `Start` has published, no step changes what will stand in the end. -/
theorem step_outcome {deps : Dependencies} {signing provisioning : Bool}
    (hc : Constant deps signing provisioning) {i : Thread} {s t : State} (hv : VerdictInv s)
    (h : (coordinator deps).step i s t) (ht : Calm t) (hs : s.start.published = true) :
    t.start.published = true ∧
      outcome provisioning t.readiness t.callback =
        outcome provisioning s.readiness s.callback := by
  obtain ⟨h1,h2,h3⟩ := step_calm h ht
  have hleave : s.callback ≠ .leave ∧ s.callback ≠ .leaveAgain := by
    have := hv.leaving
    simp_all
  cases i with
  | start => cases h <;> simp_all [StartPc.published]
  | callback =>
    cases h with
    | snapshot h =>
      refine ⟨hs,?_⟩
      cases hp : s.readiness.processReady with
      | true => simp [outcome, h]
      | false => simp [outcome, h, confirm_unready hp false provisioning]
    | provisioning snapshot ready h ha =>
      obtain rfl := hc.2 ready ha
      exact ⟨hs,by simp [outcome, h]⟩
    | leaveUnlock h => exact absurd h hleave.1
    | leaveAgainUnlock h => exact absurd h hleave.2
    | _ => simp_all [outcome, State.call]
  | shutdown => cases h <;> simp_all

theorem reach_outcome {deps : Dependencies} {signing provisioning : Bool}
    (hc : Constant deps signing provisioning) {s f : State} (h : (coordinator deps).Reach s f)
    (hf : Calm f) (hv : VerdictInv s) (hs : s.start.published = true) :
    outcome provisioning f.readiness f.callback =
      outcome provisioning s.readiness s.callback := by
  have hrun : f.start.published = true ∧ outcome provisioning f.readiness f.callback =
      outcome provisioning s.readiness s.callback := by
    induction h with
    | refl => exact ⟨hs,rfl⟩
    | tail hreach hnext ih =>
      obtain ⟨i,hi⟩ := hnext
      obtain ⟨hp,ho⟩ := ih (step_calm hi hf)
      have hv' := Threads.Reach.invariant step_verdictInv hreach hv
      obtain ⟨hp',ho'⟩ := step_outcome hc hv' hi hf hp
      exact ⟨hp',ho'.trans ho⟩
  exact hrun.2

/-- The probes have answered `signing` and `provisioning` wherever `Start` remembers them. -/
def StartPc.Answered (deps : Dependencies) (signing provisioning : Bool) : StartPc → Prop
  | .provisioning _ b | .readLock _ b | .readConfirmed _ b | .readUnlock _ b _ => b = signing
  | .setReadiness (.terminalPublicationRequired _) snapshot =>
    snapshot = provisioned deps signing provisioning ∨
      snapshot = withheld deps signing .dkgTerminalUnconfirmed
  | _ => True

theorem provisioned_unready (deps : Dependencies) (a b : Bool) :
    provisioned deps false a = provisioned deps false b := by
  simp [provisioned]

theorem step_answered {deps : Dependencies} {signing provisioning : Bool}
    (hc : Constant deps signing provisioning) (i : Thread) (s t : State)
    (hs : s.start.Answered deps signing provisioning) (h : (coordinator deps).step i s t) :
    t.start.Answered deps signing provisioning := by
  cases i with
  | start =>
    cases h with
    | reconcile h d ha => cases d <;> (try rename_i b; cases b) <;> trivial
    | setAdmission d isOpen h => cases d <;> trivial
    | signingReady d b h ha =>
      obtain rfl := hc.1 b ha
      cases d <;> cases b <;> simp [afterSigning, StartPc.Answered]
    | provisioning d b ready h ha =>
      obtain rfl := hc.2 ready ha
      rw [h] at hs
      obtain rfl : b = signing := hs
      cases d <;> simp [StartPc.Answered]
    | readUnlock d b confirmed h =>
      rw [h] at hs
      obtain rfl : b = signing := hs
      cases d <;> cases b <;> cases confirmed <;>
        simp [afterConfirmed, StartPc.Answered, provisioned_unready deps false provisioning]
    | readLock d b h => rw [h] at hs; exact hs
    | readConfirmed d b h => rw [h] at hs; exact hs
    | _ => trivial
  | callback => cases h <;> exact hs
  | shutdown =>
    cases h with
    | down t pc pc' errs h hd => simpa [hd.frame.2.2.2.2.2.1] using hs
    | downReturn t pc errs h hd => simpa [hd.frame.2.2.2.2.2.1] using hs
    | _ => exact hs

/-- Until `Start` publishes or fails, the callback only sees the zero snapshot. -/
structure EarlyInv (s : State) : Prop where
  readiness : s.start.done = false → s.callback.written = false → s.readiness = {}
  probe : s.start.done = false → ∀ snapshot, s.callback ≠ .provisioning snapshot
  set : s.start.done = false → ∀ snapshot, s.callback = .set snapshot →
    snapshot = ({} : Snapshot).confirm false

theorem StartStep.done_mono {deps : Dependencies} {s t : State} (h : StartStep deps s t)
    (ht : t.start.done = false) : s.start.done = false := by
  cases h <;> simp_all [StartPc.done, StartPc.published, StartPc.failing]

theorem StartStep.earlyInv {deps : Dependencies} {s t : State} (h : StartStep deps s t)
    (hs : EarlyInv s) : EarlyInv t := by
  have hd := h.done_mono
  obtain ⟨h1,h2,h3⟩ := hs
  cases h with
  | setReadiness d snapshot h => constructor <;> simp [StartPc.done, StartPc.published]
  | down t pc pc' errs h hd => constructor <;> simp [StartPc.done, StartPc.failing]
  | downReturn t pc errs h hd => constructor <;> simp [StartPc.done, StartPc.failing]
  | handoff h hcb =>
    refine ⟨fun ht _ => h1 (hd ht) (by simp [hcb, CallbackPc.written]),?_,?_⟩ <;> simp
  | _ => exact ⟨fun ht => h1 (hd ht),fun ht => h2 (hd ht),fun ht => h3 (hd ht)⟩

theorem step_earlyInv {deps : Dependencies} (i : Thread) (s t : State) (hs : EarlyInv s)
    (h : (coordinator deps).step i s t) : EarlyInv t := by
  cases i with
  | start => exact StartStep.earlyInv h hs
  | callback =>
    obtain ⟨h1,h2,h3⟩ := hs
    cases h with
    | snapshot h =>
      have hr : s.start.done = false → s.readiness = {} :=
        fun ht => h1 ht (by simp [h, CallbackPc.written])
      refine ⟨fun ht _ => hr ht,fun ht => ?_,fun ht => ?_⟩ <;> simp_all
    | provisioning snapshot ready h ha =>
      refine ⟨fun ht => absurd h (h2 ht _),fun ht => absurd h (h2 ht _),
        fun ht => absurd h (h2 ht _)⟩
    | _ => constructor <;> simp_all [State.call, CallbackPc.written]
  | shutdown =>
    obtain ⟨h1,h2,h3⟩ := hs
    cases h with
    | down t pc pc' errs h hd =>
      cases hd <;> constructor <;> simp_all [State.call]
    | downReturn t pc errs h hd =>
      cases hd <;> constructor <;> simp_all [State.call]
    | _ => exact ⟨h1,h2,h3⟩

theorem earlyInv_initial : EarlyInv {} :=
  ⟨fun _ _ => rfl,by simp,by simp⟩

def State.publish (s : State) (snapshot : Snapshot) : State :=
  { s with readiness := snapshot, start := .finishLock }

/-- In a run that ends in `f`, `Start` publishes `snapshot` in the state `s`, working on
verdict `d`. -/
structure Publication (deps : Dependencies) (d : Disposition) (s : State) (snapshot : Snapshot)
    (f : State) : Prop where
  reached : (coordinator deps).Reach {} s
  publishing : s.start = .setReadiness d snapshot
  rest : (coordinator deps).Reach (s.publish snapshot) f

theorem Publication.extend {deps : Dependencies} {d : Disposition} {s f g : State}
    {snapshot : Snapshot} (h : Publication deps d s snapshot f)
    (hg : (coordinator deps).Next f g) : Publication deps d s snapshot g :=
  ⟨h.reached,h.publishing,h.rest.tail hg⟩

theorem step_published {deps : Dependencies} {i : Thread} {s t : State}
    (h : (coordinator deps).step i s t) (ht : t.start.published = true) :
    (∃ d snapshot, s.start = .setReadiness d snapshot ∧ t = s.publish snapshot) ∨
      (s.start.published = true ∧ (t.callback ≠ .idle → s.callback ≠ .idle)) := by
  cases i with
  | start =>
    cases h with
    | setReadiness d snapshot h => exact .inl ⟨d,snapshot,h,rfl⟩
    | reconcile h d ha =>
      cases d <;> (try rename_i b; cases b) <;> simp [afterReconcile, StartPc.published] at ht
    | setAdmission d isOpen h => cases d <;> simp [afterAdmission, StartPc.published] at ht
    | signingReady d b h ha =>
      cases d <;> cases b <;> simp [afterSigning, StartPc.published] at ht
    | readUnlock d b confirmed h =>
      cases b <;> cases confirmed <;> simp [afterConfirmed, StartPc.published] at ht
    | _ => simp_all [StartPc.published, State.fail]
  | callback =>
    have hne := CallbackStep.active h
    cases h <;> exact .inr ⟨ht,fun _ => hne.1⟩
  | shutdown =>
    cases h with
    | down t pc pc' errs h hd =>
      obtain ⟨-,-,-,-,-,h3,h4,-,-⟩ := hd.frame
      exact .inr ⟨by simpa [h3] using ht,by simp [h4]⟩
    | downReturn t pc errs h hd =>
      obtain ⟨-,-,-,-,-,h3,h4,-,-⟩ := hd.frame
      exact .inr ⟨by simpa [h3] using ht,by simp [h4]⟩
    | _ => exact .inr ⟨ht,id⟩

theorem exists_publication {deps : Dependencies} {f : State} (h : (coordinator deps).Reach {} f)
    (hf : f.start.published = true) : ∃ d s snapshot, Publication deps d s snapshot f ∧
      (f.callback ≠ .idle → s.callback ≠ .idle) := by
  induction h with
  | refl => simp [StartPc.published] at hf
  | tail hreach hnext ih =>
    obtain ⟨i,hi⟩ := hnext
    rcases step_published hi hf with ⟨d,snapshot,hp,rfl⟩ | ⟨hp,hcb⟩
    · exact ⟨d,_,snapshot,⟨hreach,hp,.refl⟩,id⟩
    · obtain ⟨d,s,snapshot,hpub,hs⟩ := ih hp
      exact ⟨d,s,snapshot,hpub.extend ⟨i,hi⟩,fun ht => hs (hcb ht)⟩

theorem confirmed_provisioned (deps : Dependencies) (signing provisioning : Bool) :
    Confirmed deps signing provisioning (provisioned deps signing provisioning) := by
  constructor <;> cases signing <;> cases provisioning <;> simp [provisioned]

theorem confirmed_confirm {deps : Dependencies} {signing provisioning : Bool} {r : Snapshot}
    (hp : r.processReady = signing) (hs : r.signingReady = (signing && !deps.signingDisabled)) :
    Confirmed deps signing provisioning (r.confirm provisioning) := by
  constructor <;> cases signing <;> cases provisioning <;> simp_all [Snapshot.confirm]

theorem confirmed_zero_iff {deps : Dependencies} {signing provisioning : Bool} :
    Confirmed deps signing provisioning (({} : Snapshot).confirm false) ↔ signing = false := by
  constructor
  · intro h
    simpa [Snapshot.confirm] using h.process.symm
  · rintro rfl
    constructor <;> simp [Snapshot.confirm]

/-- Whatever the callback has done when `Start` publishes, the snapshot that will stand is
the confirmed one exactly when the publication is in time. -/
theorem outcome_confirmed_iff {deps : Dependencies} {signing provisioning b : Bool} {s : State}
    {snapshot : Snapshot} (he : EarlyInv s)
    (hpub : s.start = .setReadiness (.terminalPublicationRequired b) snapshot)
    (ha : s.start.Answered deps signing provisioning) :
    Confirmed deps signing provisioning (outcome provisioning snapshot s.callback) ↔
      PublishesInTime signing snapshot s := by
  have hdone : s.start.done = false := by simp [hpub, StartPc.done, StartPc.published, StartPc.failing]
  rw [hpub] at ha
  have hready : snapshot.processReady = signing ∧
      snapshot.signingReady = (signing && !deps.signingDisabled) := by
    rcases ha with rfl | rfl <;> simp [provisioned, withheld]
  have hunwritten : Confirmed deps signing provisioning (snapshot.confirm provisioning) :=
    confirmed_confirm hready.1 hready.2
  have hwritten : Confirmed deps signing provisioning snapshot ↔
      snapshot.provisioningReason ≠ .dkgTerminalUnconfirmed := by
    refine ⟨fun h => h.reason,fun h => ?_⟩
    rcases ha with rfl | rfl
    · exact confirmed_provisioned deps signing provisioning
    · exact absurd rfl h
  cases hcb : s.callback with
  | provisioning x => exact absurd hcb (he.probe hdone x)
  | set x =>
    obtain rfl := he.set hdone x hcb
    simp [outcome, confirmed_zero_iff, PublishesInTime, hcb, CallbackPc.written, CallbackPc.rewriting]
  | wake | unlock | returned =>
    simp [outcome, hwritten, PublishesInTime, hcb, CallbackPc.written, CallbackPc.rewriting]
  | _ => simp [outcome, hunwritten, PublishesInTime, hcb, CallbackPc.written, CallbackPc.rewriting]

/-- A settled run leaves the confirmed snapshot behind exactly when `Start` published in
time. -/
theorem settled_readiness_iff {deps : Dependencies} {signing provisioning : Bool}
    (hc : Constant deps signing provisioning) {f : State}
    (hrun : (coordinator deps).Reach {} f) (hf : Settled f) :
    (∃ s snapshot, Publication deps (.terminalPublicationRequired true) s snapshot f) ∧
      ∀ s snapshot, Publication deps (.terminalPublicationRequired true) s snapshot f →
        (Confirmed deps signing provisioning f.readiness ↔ PublishesInTime signing snapshot s) := by
  constructor
  · obtain ⟨d,s,snapshot,hp,hcb⟩ := exists_publication hrun (by simp [hf.start, StartPc.published])
    have hv := Threads.Reach.invariant step_verdictInv hp.reached verdictInv_initial
    have hd := hv.callback (hcb (by simp [hf.callback]))
    simp only [hp.publishing, StartPc.verdict, StartPc.done, StartPc.published,
      StartPc.failing, Option.some.injEq, Bool.or_self, Bool.false_eq_true, or_false] at hd
    exact ⟨s,snapshot,hd ▸ hp⟩
  · intro s snapshot hp
    have he := Threads.Reach.invariant step_earlyInv hp.reached earlyInv_initial
    have ha := Threads.Reach.invariant (step_answered hc) hp.reached trivial
    have hv := Threads.Reach.invariant step_verdictInv
      (hp.reached.tail ⟨.start,.setReadiness s _ snapshot hp.publishing⟩) verdictInv_initial
    have hout := reach_outcome hc hp.rest (hf.calm hrun) hv rfl
    simp only [hf.callback] at hout
    change f.readiness = outcome provisioning snapshot s.callback at hout
    rw [hout]
    exact outcome_confirmed_iff he hp.publishing ha

/-- `Start` has read `confirmed = false` and is about to publish. -/
def unpublished : State :=
  { handedOff with
    calls := handedOff.calls ++ [.startScheduler, .startIntake true]
    start := .setReadiness (.terminalPublicationRequired true)
      (withheld publicationDeps true .dkgTerminalUnconfirmed) }

theorem reach_unpublished : (coordinator publicationDeps).Reach {} unpublished := by
  have hhanded : ((coordinator publicationDeps).guarded fun _ _ => True).Reach {} handedOff :=
    Threads.coarse_reach (fun _ _ _ => trivial) (fun _ _ _ => trivial) reach_handedOff
  refine (Threads.guarded_reach hhanded).trans ?_
  refine .head ⟨.start,.handedOff _ rfl⟩ ?_
  refine .head ⟨.start,.startScheduler _ _ rfl⟩ ?_
  refine .head ⟨.start,.startIntake _ _ rfl⟩ ?_
  refine .head ⟨.start,.signingReady _ _ true rfl
    (by simp [Dependencies.SigningAnswer, publicationDeps])⟩ ?_
  refine .head ⟨.start,.readLock _ _ _ rfl rfl⟩ ?_
  refine .head ⟨.start,.readConfirmed _ _ _ rfl⟩ ?_
  exact .single ⟨.start,.readUnlock _ (.terminalPublicationRequired true) true false rfl⟩

/-- The callback has run to its end from `s`. -/
def calledBack (s : State) : State :=
  { s with
    confirmed := true
    readiness := s.readiness.confirm true
    calls := s.calls ++ [.setAdmission true] ++ [.wakeScheduler]
    callback := .returned }

theorem reach_calledBack {s : State} (hcb : s.callback = .lock) (hm : s.mu = none)
    (hst : s.stopping = false) (hl : s.latched = false) :
    (coordinator publicationDeps).Reach s (calledBack s) := by
  have hconfirm : (coordinator publicationDeps).Reach s
      { s with mu := none, confirmed := true, callback := .setAdmission } :=
    .head ⟨.callback,.lock _ hcb hm⟩ (.head ⟨.callback,.confirm _ rfl hst hl⟩
      (.single ⟨.callback,.confirmUnlock _ rfl⟩))
  have hopen : (coordinator publicationDeps).Reach
      { s with mu := none, confirmed := true, callback := .setAdmission }
      { s with
        mu := some .callback, confirmed := true, calls := s.calls ++ [.setAdmission true]
        callback := .snapshot } :=
    .head ⟨.callback,.setAdmission _ rfl⟩ (.head ⟨.callback,.lockAgain _ rfl rfl⟩
      (.single ⟨.callback,.checkAgain _ rfl hst hl⟩))
  have hset : (coordinator publicationDeps).Reach
      { s with
        mu := some .callback, confirmed := true, calls := s.calls ++ [.setAdmission true]
        callback := .snapshot }
      { s with
        mu := some .callback, confirmed := true, calls := s.calls ++ [.setAdmission true]
        callback := .set (s.readiness.confirm true) } := by
    cases hp : s.readiness.processReady with
    | true =>
      refine .head ⟨.callback,.snapshot _ rfl⟩ ?_
      rw [if_pos hp]
      exact .single ⟨.callback,.provisioning _ s.readiness true rfl rfl⟩
    | false =>
      rw [confirm_unready hp true false]
      have hstep := @CallbackStep.snapshot publicationDeps
        { s with
          mu := some .callback, confirmed := true, calls := s.calls ++ [.setAdmission true]
          callback := .snapshot } rfl
      simp only [hp, Bool.false_eq_true, if_false] at hstep
      exact .single ⟨.callback,hstep⟩
  have hend : ({ s with
      mu := none, confirmed := true, readiness := s.readiness.confirm true
      calls := s.calls ++ [.setAdmission true] ++ [.wakeScheduler]
      callback := .returned } : State) = calledBack s := by
    simp [calledBack, hm]
  rw [← hend]
  refine (hconfirm.trans hopen).trans (hset.trans ?_)
  exact .head ⟨.callback,.set _ _ rfl⟩ (.head ⟨.callback,.wake _ rfl⟩
    (.single ⟨.callback,.unlock _ rfl⟩))

/-- `Start` has published `snapshot` from `s` and returned nil. -/
def finished (s : State) (snapshot : Snapshot) : State :=
  { s.publish snapshot with started := true, start := .returned }

theorem reach_finished {deps : Dependencies} {s : State} {snapshot : Snapshot}
    (hm : s.mu = none) : (coordinator deps).Reach (s.publish snapshot) (finished s snapshot) := by
  refine .head ⟨.start,.finishLock _ rfl hm⟩ (.head ⟨.start,.finish _ rfl⟩ ?_)
  have hend : ({ s.publish snapshot with mu := none, started := true, start := .returned } : State) =
      finished s snapshot := by
    simp [finished, State.publish, hm]
  rw [← hend]
  exact .single ⟨.start,.finishUnlock _ rfl⟩

theorem publicationDeps_constant : Constant publicationDeps true true := by
  constructor <;> intro b h <;> simpa [Dependencies.SigningAnswer, publicationDeps] using h

/-- `Start` reads `confirmed = false`, the callback runs, and `Start` publishes over it. -/
theorem settled_readiness_stale : ¬∀ (deps : Dependencies) (signing provisioning : Bool) (f : State),
    Constant deps signing provisioning → (coordinator deps).Reach {} f → Settled f →
      Confirmed deps signing provisioning f.readiness := by
  intro hall
  have hrun : (coordinator publicationDeps).Reach {} (finished (calledBack unpublished)
      (withheld publicationDeps true .dkgTerminalUnconfirmed)) := by
    have hset := (reach_unpublished.trans (reach_calledBack rfl rfl rfl rfl)).tail
      ⟨.start,.setReadiness _ _ _ rfl⟩
    exact hset.trans (reach_finished rfl)
  have h := hall publicationDeps true true _ publicationDeps_constant hrun ⟨rfl,rfl,rfl⟩
  exact h.reason rfl

theorem settled_readiness_iff_in_time :
    Confirmed publicationDeps true true (calledBack (finished unpublished
      (withheld publicationDeps true .dkgTerminalUnconfirmed))).readiness := by
  have hrest : (coordinator publicationDeps).Reach
      (unpublished.publish (withheld publicationDeps true .dkgTerminalUnconfirmed)) _ :=
    (reach_finished rfl).trans (reach_calledBack rfl rfl rfl rfl)
  have hrun := (reach_unpublished.tail ⟨.start,.setReadiness _ _ _ rfl⟩).trans hrest
  have h := (settled_readiness_iff publicationDeps_constant hrun ⟨rfl,rfl,rfl⟩).2 unpublished _
    ⟨reach_unpublished,rfl,hrest⟩
  exact h.mpr ⟨fun _ => rfl,fun _ => rfl⟩

end CoSigner.Lifecycle
