import CoSigner.Lib.Team
import CoSigner.Transport.Poll

/-! The life of an HTTP transport (`transport/http_transport.go`): `Start`, `Dispatch`, `Close`,
`stop` and `Err` in any number and over every interleaving, each locked region being one step,
and the pollers they start. -/
namespace CoSigner.Transport

/-- A call of a method, or the goroutine that a call of `Start` has started. -/
inductive Thread (κ : Type) where
  | call (i : κ)
  | poller (i : κ)
  deriving DecidableEq

def Thread.id {κ : Type} : Thread κ → κ
  | .call i => i
  | .poller i => i

structure TransportState (κ : Type) where
  done : Bool := false
  err : Option TransportError := none
  /-- The poller whose channel is `pollStopped` and whose context `pollCancel` cancels. -/
  pollStopped : Option κ := none
  spawned : κ → Bool := fun _ => false
  exited : κ → Bool := fun _ => false
  pollCanceled : κ → Bool := fun _ => false
  dispatched : Bool := false
  /-- The call of `Dispatch` whose context `dispatchCancel` cancels. -/
  dispatchCancel : Option κ := none
  runnerCanceled : κ → Bool := fun _ => false

inductive TransportCall where
  | start | dispatch | close | err
  | stop (err : Option TransportError)
  deriving DecidableEq, Repr

section
variable {κ : Type}

def dispatch : TransportProg κ (Option TransportError) := do
  let reservation : Reservation ← ask .reserve
  match reservation with
  | .closed err => pure (some (err.getD .closed))
  | .canceled err => pure (some err)
  | .dispatched => pure (some .alreadyDispatched)
  | .granted => do
    let _ : Unit ← ask .run
    let result : Option TransportError ← ask .ran
    let _ : Unit ← ask .cancel
    pure result

def close : TransportProg κ (Option TransportError) := do
  let _ : Bool ← ask (.stop none)
  let stopped : Option κ ← ask .pollStopped
  match stopped with
  | none => pure none
  | some poller => do
    let _ : Unit ← ask (.join poller)
    pure none

def callBody : TransportCall → TransportProg κ (Option TransportError)
  | .start => do
    let _ : Bool ← ask .start
    pure none
  | .dispatch => dispatch
  | .close => close
  | .err => ask .err
  | .stop err => do
    let _ : Bool ← ask (.stop err)
    pure none

/-- The goroutine of a poller. -/
def poller (ctx : FrameContext) (turns : Nat) : TransportProg κ (Option TransportError) := do
  let _ : Unit ← ask .begin
  ctx.poll turns
  let _ : Unit ← ask .exit
  pure none

end

section
variable {κ : Type} [DecidableEq κ]

namespace TransportState

def startPoller (s : TransportState κ) (i : κ) : TransportState κ :=
  { s with pollStopped := some i, spawned := Function.update s.spawned i true }

def stopWith (s : TransportState κ) (err : Option TransportError) : TransportState κ :=
  { s with
    done := true
    err := err
    pollCanceled := match s.pollStopped with
      | some i => Function.update s.pollCanceled i true
      | none => s.pollCanceled
    runnerCanceled := match s.dispatchCancel with
      | some i => Function.update s.runnerCanceled i true
      | none => s.runnerCanceled }

theorem stopWith_cancels {s : TransportState κ} {i : κ} {err : Option TransportError}
    (h : s.dispatchCancel = some i) : (s.stopWith err).runnerCanceled i = true := by
  simp [stopWith, h]

def grant (s : TransportState κ) (i : κ) : TransportState κ :=
  { s with dispatched := true, dispatchCancel := some i }

end TransportState

/-- What a step answers and does. The contexts that callers pass in may be cancelled at any
time, and the backend and the clock answer anything. -/
def sem (τ : Thread κ) : (o : TransportOp κ) → TransportState κ → o.Ans → TransportState κ → Prop
  | .start, s, r, t =>
      let starts := !s.done && s.pollStopped.isNone
      r = starts ∧ t = if starts then s.startPoller τ.id else s
  | .stop err, s, r, t => r = !s.done ∧ t = if s.done then s else s.stopWith err
  | .pollStopped, s, r, t => r = s.pollStopped ∧ t = s
  | .join i, s, _, t => s.exited i = true ∧ t = s
  | .err, s, r, t => r = s.err ∧ t = s
  | .reserve, s, r, t =>
      if s.done then r = .closed s.err ∧ t = s
      else (∃ e, r = .canceled e ∧ t = s) ∨
        if s.dispatched then r = .dispatched ∧ t = s else r = .granted ∧ t = s.grant τ.id
  | .cancel, s, _, t => t = { s with runnerCanceled := Function.update s.runnerCanceled τ.id true }
  | .begin, s, _, t => s.spawned τ.id = true ∧ t = s
  | .exit, s, _, t => t = { s with exited := Function.update s.exited τ.id true }
  | .isDone, s, r, t => (s.done = true ∨ s.pollCanceled τ.id = true → r = true) ∧ t = s
  | .run, s, _, t | .ran, s, _, t | .getMessages _, s, _, t | .now, s, _, t | .enqueue _, s, _, t
  | .sleep, s, _, t => t = s

/-- Any calls, with a poller for each of them that would start one. -/
def team (calls : κ → TransportCall) (ctx : FrameContext) (turns : κ → Nat) :
    Team (Thread κ) (TransportOp κ) TransportOp.Ans (TransportState κ) (Option TransportError) where
  sem := sem
  body
    | .call i => callBody (calls i)
    | .poller i => poller ctx (turns i)

abbrev TransportMoves (κ : Type) := Moves (Thread κ) (TransportOp κ) TransportOp.Ans

/-! What the programs say about themselves. -/

/-- Where a call or a poller may be when it makes a step. -/
def callPre (calls : κ → TransportCall) :
    Thread κ → TransportOp κ → List (TransportEvent κ) → Prop
  | τ, .run, own => own = [⟨.reserve,.granted⟩] ∧ ∃ i, τ = .call i ∧ calls i = .dispatch
  | _, .pollStopped, own => ∃ err effect, own = [⟨.stop err,effect⟩]
  | τ, .start, _ | τ, .reserve, _ => ∃ i, τ = .call i
  | τ, .exit, _ => ∃ i, τ = .poller i
  | _, _, _ => True

/-- What a call has done when it returns. -/
def callPost : TransportCall → Option TransportError → List (TransportEvent κ) → Prop
  | .close, _, own => ∃ effect, own = [⟨.stop none,effect⟩,⟨.pollStopped,none⟩] ∨
      ∃ j, own = [⟨.stop none,effect⟩,⟨.pollStopped,some j⟩,⟨.join j,()⟩]
  | .err, result, own => own = [⟨.err,result⟩]
  | _, _, _ => True

def threadPost (calls : κ → TransportCall) :
    Thread κ → Option TransportError → List (TransportEvent κ) → Prop
  | .call i => callPost (calls i)
  | .poller _ => fun _ _ => True

/-- The steps of the poll loop. -/
def polls : TransportOp κ → Bool
  | .isDone | .getMessages _ | .now | .enqueue _ | .sleep | .stop _ => true
  | _ => false

end

section
variable {κ : Type}

theorem deliver_only (ctx : FrameContext) (messages : List InboundMessage) (afterSeq : Nat) :
    (ctx.deliver messages afterSeq : TransportProg κ (Nat × Bool)).Only (polls · = true) := by
  induction messages generalizing afterSeq with
  | nil => trivial
  | cons msg messages ih =>
    refine ⟨rfl,?_⟩
    intro (taken : Bool)
    cases taken with
    | true => exact ih _
    | false => trivial

theorem pollFrom_only (ctx : FrameContext) (turns : Nat) (baseline : Monolith.SessionLifecycle)
    (afterSeq : Nat) :
    (ctx.pollFrom turns baseline afterSeq : TransportProg κ Unit).Only (polls · = true) := by
  induction turns generalizing baseline afterSeq with
  | zero => trivial
  | succ turns ih =>
    refine ⟨rfl,?_⟩
    intro (done : Bool)
    cases done with
    | true => trivial
    | false =>
      refine ⟨rfl,?_⟩
      intro (response : Except TransportError MessagesResult)
      refine ⟨rfl,?_⟩
      intro (done : Bool)
      cases done with
      | true => trivial
      | false =>
        cases response with
        | error err =>
          show Prog.Only _ (if err = .invalidLifecycle then _ else _)
          split
          · exact ⟨rfl,fun _ => trivial⟩
          · refine ⟨rfl,?_⟩
            intro (awake : Bool)
            cases awake with
            | true => exact ih _ _
            | false => trivial
        | ok result =>
          refine ⟨rfl,?_⟩
          intro (now : Time)
          show Prog.Only _ (if (!_) = true then _ else _)
          split
          · exact ⟨rfl,fun _ => trivial⟩
          · refine Prog.only_bind (deliver_only ctx _ _) ?_
            intro outcome
            obtain ⟨afterSeq',delivered⟩ := outcome
            cases delivered with
            | false => trivial
            | true =>
              show Prog.Only _ (if result.messages.isEmpty = true then _ else _)
              split
              · refine ⟨rfl,?_⟩
                intro (awake : Bool)
                cases awake with
                | true => exact ih _ _
                | false => trivial
              · exact ih _ _

theorem callBody_meets {calls : κ → TransportCall} (i : κ) (c : TransportCall) (hc : calls i = c) :
    (callBody c).Meets (Prog.tracing (fun _ _ => True) (callPre calls (.call i))) (callPost c)
      [] := by
  cases c with
  | start =>
    refine Prog.meets_perform ⟨i,rfl⟩ ?_
    intro _ _
    exact Prog.meets_pure trivial
  | dispatch =>
    refine Prog.meets_perform ⟨i,rfl⟩ ?_
    intro (reservation : Reservation) _
    cases reservation with
    | granted =>
      refine Prog.meets_perform ⟨rfl,i,rfl,hc⟩ ?_
      intro _ _
      refine Prog.meets_perform trivial ?_
      intro (result : Option TransportError) _
      refine Prog.meets_perform trivial ?_
      intro _ _
      exact Prog.meets_pure trivial
    | _ => exact Prog.meets_pure trivial
  | close =>
    refine Prog.meets_perform trivial ?_
    intro (effect : Bool) _
    refine Prog.meets_perform ⟨_,effect,rfl⟩ ?_
    intro (stopped : Option κ) _
    cases stopped with
    | none => exact Prog.meets_pure ⟨effect,.inl rfl⟩
    | some j =>
      refine Prog.meets_perform trivial ?_
      intro _ _
      exact Prog.meets_pure ⟨effect,.inr ⟨j,rfl⟩⟩
  | err =>
    refine Prog.Meets.perform ?_
    intro own hown _
    obtain rfl : [] = own := hown
    refine ⟨trivial,?_⟩
    intro (result : Option TransportError) t ht _ u hu _
    exact hu.symm.trans ht.2
  | stop err =>
    refine Prog.meets_perform trivial ?_
    intro _ _
    exact Prog.meets_pure trivial

end

section
variable {κ : Type} [DecidableEq κ] {calls : κ → TransportCall} {ctx : FrameContext}
  {turns : κ → Nat}

theorem team_disciplined :
    (team calls ctx turns).Disciplined (fun _ _ => True) (callPre calls) (threadPost calls) := by
  refine ⟨fun _ _ _ _ _ _ => trivial,?_⟩
  intro τ
  cases τ with
  | poller i =>
    refine Prog.meets_perform trivial ?_
    intro _ _
    refine Prog.meets_bind (((pollFrom_only ctx (turns i) ctx.session 0).meets ?_ _).mono ?_)
    · intro o own ho
      cases o <;> trivial
    · intro _ own _ _
      refine Prog.meets_perform ⟨i,rfl⟩ ?_
      intro _ _
      exact Prog.meets_pure trivial
  | call i => exact callBody_meets i _ rfl

end

/-! What holds along every run. -/

/-- What is noted of a step. -/
inductive Mark (κ : Type) where
  | spawn
  | stop (err : Option TransportError) (effect : Bool)
  | pollStopped (poller : Option κ)
  | joined (poller : κ)
  | err (err : Option TransportError)
  | granted
  | run
  | exit
  | other
  deriving DecidableEq

section
variable {κ : Type}

def mark : TransportEvent κ → Mark κ
  | ⟨.start,true⟩ => .spawn
  | ⟨.stop err,effect⟩ => .stop err effect
  | ⟨.pollStopped,poller⟩ => .pollStopped poller
  | ⟨.join i,_⟩ => .joined i
  | ⟨.err,err⟩ => .err err
  | ⟨.reserve,.granted⟩ => .granted
  | ⟨.run,_⟩ => .run
  | ⟨.exit,_⟩ => .exit
  | _ => .other

abbrev Log (κ : Type) := List (Thread κ × Mark κ)

end

section
variable {κ : Type} [DecidableEq κ] {calls : κ → TransportCall} {ctx : FrameContext}
  {turns : κ → Nat}

/-- Everything that a step can be. -/
inductive Step (τ : Thread κ) : Mark κ → TransportState κ → TransportState κ → Prop
  | spawn {s : TransportState κ} (hdone : s.done = false) (hpoller : s.pollStopped = none) :
      Step τ .spawn s (s.startPoller τ.id)
  | stop {s : TransportState κ} (err : Option TransportError) (hdone : s.done = false) :
      Step τ (.stop err true) s (s.stopWith err)
  | stopped {s : TransportState κ} (err : Option TransportError) (hdone : s.done = true) :
      Step τ (.stop err false) s s
  | pollStopped {s : TransportState κ} : Step τ (.pollStopped s.pollStopped) s s
  | joined {s : TransportState κ} (i : κ) (h : s.exited i = true) : Step τ (.joined i) s s
  | err {s : TransportState κ} : Step τ (.err s.err) s s
  | granted {s : TransportState κ} (hdone : s.done = false) (hfree : s.dispatched = false) :
      Step τ .granted s (s.grant τ.id)
  | run {s : TransportState κ} : Step τ .run s s
  | cancel {s : TransportState κ} : Step τ .other s
      { s with runnerCanceled := Function.update s.runnerCanceled τ.id true }
  | exit {s : TransportState κ} : Step τ .exit s
      { s with exited := Function.update s.exited τ.id true }
  | other {s : TransportState κ} : Step τ .other s s

theorem sem_step {τ : Thread κ} {o : TransportOp κ} {s t : TransportState κ} {r : o.Ans}
    (h : sem τ o s r t) : Step τ (mark ⟨o,r⟩) s t := by
  cases o with
  | start =>
    obtain ⟨rfl,rfl⟩ := h
    cases hdone : s.done with
    | true => exact .other
    | false =>
      cases hpoller : s.pollStopped with
      | none => exact .spawn hdone hpoller
      | some i => exact .other
  | stop err =>
    obtain ⟨rfl,rfl⟩ := h
    cases hdone : s.done with
    | true => exact .stopped err hdone
    | false => exact .stop err hdone
  | pollStopped =>
    obtain ⟨rfl,rfl⟩ := h
    exact .pollStopped
  | join i =>
    obtain ⟨hexit,rfl⟩ := h
    exact .joined i hexit
  | err =>
    obtain ⟨rfl,rfl⟩ := h
    exact .err
  | reserve =>
    simp only [sem] at h
    by_cases hdone : s.done = true
    · rw [if_pos hdone] at h
      obtain ⟨rfl,rfl⟩ := h
      exact .other
    · rw [if_neg hdone] at h
      cases h with
      | inl h =>
        obtain ⟨e,rfl,rfl⟩ := h
        exact .other
      | inr h =>
        by_cases hfree : s.dispatched = true
        · rw [if_pos hfree] at h
          obtain ⟨rfl,rfl⟩ := h
          exact .other
        · rw [if_neg hfree] at h
          obtain ⟨rfl,rfl⟩ := h
          exact .granted (Bool.eq_false_iff.mpr hdone) (Bool.eq_false_iff.mpr hfree)
  | run =>
    obtain rfl := h
    exact .run
  | cancel =>
    obtain rfl := h
    exact .cancel
  | exit =>
    obtain rfl := h
    exact .exit
  | begin => exact h.2 ▸ .other
  | isDone => exact h.2 ▸ .other
  | ran => exact h ▸ .other
  | getMessages afterSeq => exact h ▸ .other
  | now => exact h ▸ .other
  | enqueue frame => exact h ▸ .other
  | sleep => exact h ▸ .other

def isRun (m : Thread κ × Mark κ) : Bool := m.2 = .run

def isSpawn (m : Thread κ × Mark κ) : Bool := m.2 = .spawn

/-- What the programs say of the moment of a step. -/
structure Placed (l : Log κ) (τ : Thread κ) (m : Mark κ) : Prop where
  run : m = .run → (τ,.granted) ∈ l ∧ (τ,.run) ∉ l
  pollStopped : ∀ i, m = .pollStopped i → ∃ err effect, (τ,.stop err effect) ∈ l
  caller : m = .granted ∨ m = .spawn → ∃ i, τ = .call i
  exit : m = .exit → ∃ i, τ = .poller i

/-- The state has the first stop. -/
structure StopKnown (l : Log κ) (s : TransportState κ) : Prop where
  stopped : ∀ τ err effect, (τ,.stop err effect) ∈ l → s.done = true
  effective : s.done = true → ∃ τ err, (τ,.stop err true) ∈ l
  err : ∀ τ err, (τ,.stop err true) ∈ l → s.err = err

/-- The state has the one reservation, and it is cancelled once the transport is stopped. -/
structure RunKnown (l : Log κ) (s : TransportState κ) : Prop where
  dispatched : ∀ τ, (τ,.granted) ∈ l → s.dispatched = true
  dispatchCancel : ∀ τ, (τ,.granted) ∈ l → s.dispatchCancel = some τ.id
  canceled : ∀ τ, (τ,.granted) ∈ l → s.done = true → s.runnerCanceled τ.id = true
  caller : ∀ τ, (τ,.granted) ∈ l → ∃ i, τ = .call i
  granted : ∀ τ, (τ,.run) ∈ l → (τ,.granted) ∈ l
  once : l.countP isRun ≤ 1

/-- The state has the one poller. -/
structure PollerKnown (l : Log κ) (s : TransportState κ) : Prop where
  spawned : ∀ τ, (τ,.spawn) ∈ l → s.pollStopped = some τ.id
  once : l.countP isSpawn ≤ 1
  unstarted : ∀ τ, (τ,.pollStopped none) ∈ l → s.done = true ∧ s.pollStopped = none
  started : ∀ τ i, (τ,.pollStopped (some i)) ∈ l → s.pollStopped = some i

/-- The state has the pollers that ended. -/
structure ExitKnown (l : Log κ) (s : TransportState κ) : Prop where
  joined : ∀ τ i, (τ,.joined i) ∈ l → s.exited i = true
  exited : ∀ i, s.exited i = true → (.poller i,.exit) ∈ l

section
variable {l : Log κ} {s t : TransportState κ} {τ : Thread κ} {m : Mark κ}

theorem StopKnown.step (hs : StopKnown l s) (h : Step τ m s t) : StopKnown (l ++ [(τ,m)]) t := by
  obtain ⟨hstopped,heffective,herr⟩ := hs
  cases h with
  | stop err hdone => constructor <;> grind [TransportState.stopWith]
  | stopped err hdone => constructor <;> grind
  | _ => constructor <;> grind [TransportState.startPoller, TransportState.grant]

theorem RunKnown.fresh (hs : RunKnown l s) (hm : Placed l τ .run) : l.countP isRun = 0 := by
  obtain ⟨hgranted,hrun⟩ := hm.run rfl
  rw [List.countP_eq_zero]
  intro e he hisrun
  obtain ⟨τ',m⟩ := e
  obtain rfl : m = .run := by simpa [isRun] using hisrun
  have hgranted' := hs.granted τ' he
  obtain ⟨i,rfl⟩ := hs.caller τ hgranted
  obtain ⟨j,rfl⟩ := hs.caller τ' hgranted'
  have hid := (hs.dispatchCancel _ hgranted').symm.trans (hs.dispatchCancel _ hgranted)
  obtain rfl : j = i := Option.some.inj hid
  exact hrun he

omit [DecidableEq κ] in
theorem mem_of_mark_ne {τ' : Thread κ} {m' : Mark κ} (h : (τ',m') ∈ l ++ [(τ,m)]) (hne : m ≠ m') :
    (τ',m') ∈ l := by
  rcases List.mem_append.mp h with h | h
  · exact h
  · obtain ⟨-,rfl⟩ := Prod.mk.inj (List.mem_singleton.mp h)
    exact absurd rfl hne

theorem RunKnown.aside (hs : RunKnown l s) (hgrant : m ≠ .granted) (hrun : m ≠ .run)
    (hdispatched : t.dispatched = s.dispatched) (hdispatch : t.dispatchCancel = s.dispatchCancel)
    (hcancel : ∀ τ, (τ,.granted) ∈ l → t.done = true → t.runnerCanceled τ.id = true) :
    RunKnown (l ++ [(τ,m)]) t where
  dispatched τ' h := hdispatched ▸ hs.dispatched τ' (mem_of_mark_ne h hgrant)
  dispatchCancel τ' h := hdispatch ▸ hs.dispatchCancel τ' (mem_of_mark_ne h hgrant)
  canceled τ' h := hcancel τ' (mem_of_mark_ne h hgrant)
  caller τ' h := hs.caller τ' (mem_of_mark_ne h hgrant)
  granted τ' h := List.mem_append_left _ (hs.granted τ' (mem_of_mark_ne h hrun))
  once := by
    rw [List.countP_append, List.countP_singleton, if_neg (by simpa [isRun] using hrun)]
    exact hs.once

theorem RunKnown.grants (hs : RunKnown l s) (hm : Placed l τ .granted) (hdone : s.done = false)
    (hfree : s.dispatched = false) : RunKnown (l ++ [(τ,.granted)]) (s.grant τ.id) := by
  have hnone (τ' : Thread κ) : (τ',.granted) ∉ l := fun h => by
    rw [hs.dispatched τ' h] at hfree
    cases hfree
  have hsole {τ' : Thread κ} (h : (τ',.granted) ∈ l ++ [(τ,.granted)]) : τ' = τ := by
    rcases List.mem_append.mp h with h | h
    · exact absurd h (hnone τ')
    · exact (Prod.mk.inj (List.mem_singleton.mp h)).1
  refine ⟨fun _ _ => rfl,fun τ' h => ?_,fun τ' _ h => ?_,fun τ' h => ?_,fun τ' h => ?_,?_⟩
  · rw [hsole h]
    rfl
  · exact absurd (hdone.symm.trans h) nofun
  · rw [hsole h]
    exact hm.caller (.inl rfl)
  · exact List.mem_append_left _ (hs.granted τ' (mem_of_mark_ne h nofun))
  · rw [List.countP_append, List.countP_singleton, if_neg (by simp [isRun])]
    exact hs.once

theorem RunKnown.runs (hs : RunKnown l s) (hm : Placed l τ .run) :
    RunKnown (l ++ [(τ,.run)]) s where
  dispatched τ' h := hs.dispatched τ' (mem_of_mark_ne h nofun)
  dispatchCancel τ' h := hs.dispatchCancel τ' (mem_of_mark_ne h nofun)
  canceled τ' h := hs.canceled τ' (mem_of_mark_ne h nofun)
  caller τ' h := hs.caller τ' (mem_of_mark_ne h nofun)
  granted τ' h := by
    refine List.mem_append_left _ ?_
    rcases List.mem_append.mp h with h | h
    · exact hs.granted τ' h
    · rw [(Prod.mk.inj (List.mem_singleton.mp h)).1]
      exact (hm.run rfl).1
  once := by
    rw [List.countP_append, hs.fresh hm, List.countP_singleton]
    split <;> omega

theorem RunKnown.step (hs : RunKnown l s) (hm : Placed l τ m) (h : Step τ m s t) :
    RunKnown (l ++ [(τ,m)]) t := by
  cases h with
  | granted hdone hfree => exact hs.grants hm hdone hfree
  | run => exact hs.runs hm
  | stop err hdone =>
    exact hs.aside nofun nofun rfl rfl fun τ' h _ =>
      TransportState.stopWith_cancels (hs.dispatchCancel τ' h)
  | cancel =>
    refine hs.aside nofun nofun rfl rfl fun τ' h hdone => ?_
    by_cases hid : τ'.id = τ.id
    · simp [hid]
    · simpa [hid] using hs.canceled τ' h hdone
  | _ => exact hs.aside nofun nofun rfl rfl hs.canceled

theorem PollerKnown.fresh (hs : PollerKnown l s) (hnone : s.pollStopped = none) :
    l.countP isSpawn = 0 := by
  rw [List.countP_eq_zero]
  intro e he hspawn
  obtain ⟨τ,m⟩ := e
  obtain rfl : m = .spawn := by simpa [isSpawn] using hspawn
  simp [hs.spawned τ he] at hnone

theorem PollerKnown.step (hs : PollerKnown l s) (hstop : StopKnown l s) (hm : Placed l τ m)
    (h : Step τ m s t) : PollerKnown (l ++ [(τ,m)]) t := by
  have hfresh := hs.fresh
  have hdone : ∀ i, m = .pollStopped i → s.done = true := by
    intro i hi
    obtain ⟨err,effect,hmem⟩ := hm.pollStopped i hi
    exact hstop.stopped τ err effect hmem
  obtain ⟨hspawned,honce,hunstarted,hstarted⟩ := hs
  cases h with
  | spawn hopen hpoller => constructor <;> grind [isSpawn, TransportState.startPoller]
  | pollStopped => constructor <;> grind [isSpawn]
  | _ => constructor <;> grind [isSpawn, TransportState.stopWith, TransportState.grant]

theorem ExitKnown.step (hs : ExitKnown l s) (hm : Placed l τ m) (h : Step τ m s t) :
    ExitKnown (l ++ [(τ,m)]) t := by
  obtain ⟨hjoined,hexited⟩ := hs
  cases h with
  | joined i hi => constructor <;> grind
  | exit =>
    obtain ⟨i,rfl⟩ := hm.exit rfl
    constructor <;> grind [Thread.id]
  | _ => constructor <;> grind [TransportState.startPoller, TransportState.stopWith,
      TransportState.grant]

/-- All that the state knows. -/
structure Known (l : Log κ) (s : TransportState κ) : Prop where
  stop : StopKnown l s
  run : RunKnown l s
  poller : PollerKnown l s
  exit : ExitKnown l s

theorem Known.step (hs : Known l s) (hm : Placed l τ m) (h : Step τ m s t) :
    Known (l ++ [(τ,m)]) t :=
  ⟨hs.stop.step h,hs.run.step hm h,hs.poller.step hs.stop hm h,hs.exit.step hm h⟩

theorem known_start : Known ([] : Log κ) {} := by
  refine ⟨⟨?_,?_,?_⟩,⟨?_,?_,?_,?_,?_,?_⟩,⟨?_,?_,?_,?_⟩,⟨?_,?_⟩⟩ <;> simp

end

/-- The log of a run. -/
def log (h : TransportMoves κ) : Log κ := Team.notes mark h

theorem placed_of_pre {h : TransportMoves κ} {τ : Thread κ} {o : TransportOp κ} {r : o.Ans}
    (hpre : callPre calls τ o (Team.own τ h)) : Placed (log h) τ (mark ⟨o,r⟩) := by
  cases o with
  | run =>
    obtain ⟨hown,-⟩ := hpre
    refine ⟨fun _ => ?_,by simp [mark],by simp [mark],by simp [mark]⟩
    simp [log, Team.mem_notes, hown, mark]
  | pollStopped =>
    obtain ⟨err,effect,hown⟩ := hpre
    refine ⟨by simp [mark],fun _ _ => ⟨err,effect,?_⟩,by simp [mark],by simp [mark]⟩
    simp [log, Team.mem_notes, hown, mark]
  | start =>
    have hr : mark ⟨.start,r⟩ = .spawn ∨ mark ⟨.start,r⟩ = (.other : Mark κ) := by
      cases r using Bool.rec <;> simp [mark]
    refine ⟨?_,?_,fun _ => hpre,?_⟩ <;> grind
  | reserve =>
    have hr : mark ⟨.reserve,r⟩ = .granted ∨ mark ⟨.reserve,r⟩ = (.other : Mark κ) := by
      cases r using Reservation.rec <;> simp [mark]
    refine ⟨?_,?_,fun _ => hpre,?_⟩ <;> grind
  | exit => exact ⟨by simp [mark],by simp [mark],by simp [mark],fun _ => hpre⟩
  | _ => exact ⟨by simp [mark],by simp [mark],by simp [mark],by simp [mark]⟩

variable {h : TransportMoves κ} {rest : Thread κ → TransportProg κ (Option TransportError)}
  {s : TransportState κ}

theorem known_of_run (hrun : (team calls ctx turns).Run {} h rest s) : Known (log h) s := by
  refine hrun.invariant team_disciplined (fun h s => Known (log h) s) known_start ?_
  intro h s τ o r t hs hpre hsem
  rw [log, Team.notes_snoc]
  exact hs.step (placed_of_pre hpre) (sem_step hsem)

theorem known_before (hrun : (team calls ctx turns).Run {} h rest s) {l₁ l₂ : Log κ}
    {τ : Thread κ} {m : Mark κ} (hl : log h = l₁ ++ (τ,m) :: l₂) :
    ∃ s' t, Known l₁ s' ∧ Placed l₁ τ m ∧ Step τ m s' t := by
  obtain ⟨h₁,rest',s',o,r,t,k,rfl,rfl,hbefore,hi,hsem,-⟩ := hrun.split_notes hl
  exact ⟨s',t,known_of_run hbefore,placed_of_pre (hbefore.allowed team_disciplined hi),
    sem_step hsem⟩

theorem returned_own (hrun : (team calls ctx turns).Run {} h rest s) {i : κ}
    {a : Option TransportError} (hi : rest (.call i) = .ret a) :
    callPost (calls i) a (Team.own (.call i) h) :=
  hrun.returned team_disciplined hi

/-- What is claimed of a run with the log `l`, in which `rest` remains of the calls. -/
structure DispatchSafe (calls : κ → TransportCall) (l : Log κ)
    (rest : Thread κ → TransportProg κ (Option TransportError)) (s : TransportState κ) : Prop where
  /-- The run function of at most one `Dispatch` is executed. -/
  runOnce : l.countP isRun ≤ 1
  /-- None is executed if a stop took effect before its reservation. -/
  runReserved : ∀ l₁ l₂ τ, l = l₁ ++ (τ,.run) :: l₂ →
    ∃ g₁ g₂, l₁ = g₁ ++ (τ,.granted) :: g₂ ∧ ∀ τ' err, (τ',.stop err true) ∉ g₁
  /-- A stop that takes effect later has cancelled the context of the run function. -/
  runCanceled : ∀ l₁ l₂ τ, l = l₁ ++ (τ,.granted) :: l₂ →
    ∀ τ' err, (τ',.stop err true) ∈ l₂ → s.runnerCanceled τ.id = true
  spawnOnce : l.countP isSpawn ≤ 1
  /-- No poller is started after a stop. -/
  spawnOpen : ∀ l₁ l₂ τ, l = l₁ ++ (τ,.spawn) :: l₂ → ∀ τ' err, (τ',.stop err true) ∉ l₁
  /-- `Close` has returned only if a started poller has exited. -/
  closeJoins : ∀ i a, calls i = .close → rest (.call i) = .ret a →
    ∀ τ, (τ,.spawn) ∈ l → (.poller τ.id,.exit) ∈ l
  /-- The first stop takes effect, and no other. -/
  firstStop : ∀ l₁ l₂ τ err effect, l = l₁ ++ (τ,.stop err effect) :: l₂ →
    (effect = true ↔ ∀ τ' err' effect', (τ',.stop err' effect') ∉ l₁)
  /-- `Err` returns what is read, and after a stop that is its argument. -/
  errReturned : ∀ i a, calls i = .err → rest (.call i) = .ret a → (.call i,.err a) ∈ l
  errKept : ∀ l₁ l₂ τ err, l = l₁ ++ (τ,.stop err true) :: l₂ → ∀ τ' r, (τ',.err r) ∈ l₂ → r = err

theorem dispatch_versus_stop (calls : κ → TransportCall) (ctx : FrameContext) (turns : κ → Nat)
    (hrun : (team calls ctx turns).Run {} h rest s) : DispatchSafe calls (log h) rest s := by
  have hknown := known_of_run hrun
  refine ⟨hknown.run.once,?_,?_,hknown.poller.once,?_,?_,?_,?_,?_⟩
  · intro l₁ l₂ τ hl
    obtain ⟨-,-,-,hplaced,-⟩ := known_before hrun hl
    obtain ⟨g₁,g₂,rfl⟩ := List.append_of_mem (hplaced.run rfl).1
    refine ⟨g₁,g₂,rfl,?_⟩
    intro τ' err hstop
    obtain ⟨s',t,hknown',-,hstep⟩ := known_before hrun
      (show log h = g₁ ++ (τ,.granted) :: (g₂ ++ (τ,.run) :: l₂) by rw [hl]; simp)
    cases hstep with
    | granted hdone => simp [hknown'.stop.stopped τ' err true hstop] at hdone
  · intro l₁ l₂ τ hl τ' err hstop
    have hdone := hknown.stop.stopped τ' err true (by rw [hl]; simp [hstop])
    exact hknown.run.canceled τ (by rw [hl]; simp) hdone
  · intro l₁ l₂ τ hl τ' err hstop
    obtain ⟨s',t,hknown',-,hstep⟩ := known_before hrun hl
    cases hstep with
    | spawn hdone => simp [hknown'.stop.stopped τ' err true hstop] at hdone
  · intro i a hcall hreturn τ hspawn
    have hpost := returned_own hrun hreturn
    rw [hcall] at hpost
    have hpoller := hknown.poller.spawned τ hspawn
    obtain ⟨effect,hown | ⟨j,hown⟩⟩ := hpost
    · have hnone := hknown.poller.unstarted (.call i) (by simp [log, Team.mem_notes, hown, mark])
      simp [hpoller] at hnone
    · have hstarted := hknown.poller.started (.call i) j
        (by simp [log, Team.mem_notes, hown, mark])
      obtain rfl : τ.id = j := Option.some.inj (hpoller.symm.trans hstarted)
      exact hknown.exit.exited _ (hknown.exit.joined (.call i) _
        (by simp [log, Team.mem_notes, hown, mark]))
  · intro l₁ l₂ τ err effect hl
    obtain ⟨s',t,hknown',-,hstep⟩ := known_before hrun hl
    cases hstep with
    | stop _ hdone =>
      refine iff_of_true rfl ?_
      intro τ' err' effect' hmem
      simp [hknown'.stop.stopped τ' err' effect' hmem] at hdone
    | stopped _ hdone =>
      obtain ⟨τ',err',hmem⟩ := hknown'.stop.effective hdone
      exact iff_of_false Bool.false_ne_true fun hnone => hnone τ' err' true hmem
  · intro i a hcall hreturn
    have hpost := returned_own hrun hreturn
    rw [hcall] at hpost
    have hown : Team.own (.call i) h = [⟨.err,a⟩] := hpost
    simp [log, Team.mem_notes, hown, mark]
  · intro l₁ l₂ τ err hl τ' r hmem
    obtain ⟨m₁,m₂,rfl⟩ := List.append_of_mem hmem
    obtain ⟨s',t,hknown',-,hstep⟩ := known_before hrun
      (show log h = (l₁ ++ (τ,.stop err true) :: m₁) ++ (τ',.err r) :: m₂ by rw [hl]; simp)
    cases hstep with
    | err => exact hknown'.stop.err τ err (by simp)

/-- The answers of an environment that cancels no context and whose backend has nothing. -/
def quiet (τ : Thread κ) : (o : TransportOp κ) → TransportState κ → o.Ans × TransportState κ
  | .start, s =>
      let starts := !s.done && s.pollStopped.isNone
      (starts,if starts then s.startPoller τ.id else s)
  | .stop err, s => (!s.done,if s.done then s else s.stopWith err)
  | .pollStopped, s => (s.pollStopped,s)
  | .err, s => (s.err,s)
  | .reserve, s =>
      if s.done then (.closed s.err,s)
      else if s.dispatched then (.dispatched,s) else (.granted,s.grant τ.id)
  | .cancel, s => ((),{ s with runnerCanceled := Function.update s.runnerCanceled τ.id true })
  | .exit, s => ((),{ s with exited := Function.update s.exited τ.id true })
  | .isDone, s => (s.done || s.pollCanceled τ.id,s)
  | .ran, s => (none,s)
  | .getMessages _, s => (.error (.other []),s)
  | .now, s => ((0 : Time),s)
  | .enqueue _, s | .sleep, s => (true,s)
  | .join _, s | .begin, s | .run, s => ((),s)

def waits (τ : Thread κ) : TransportOp κ → TransportState κ → Bool
  | .join i, s => !s.exited i
  | .begin, s => !s.spawned τ.id
  | _, _ => false

theorem quiet_sem (τ : Thread κ) (o : TransportOp κ) (s : TransportState κ)
    (h : waits τ o s = false) : sem τ o s (quiet τ o s).1 (quiet τ o s).2 := by
  cases o with
  | join i => exact ⟨by simpa [waits] using h,rfl⟩
  | begin => exact ⟨by simpa [waits] using h,rfl⟩
  | reserve =>
    simp only [sem, quiet]
    by_cases hdone : s.done = true
    · rw [if_pos hdone, if_pos hdone]
      exact ⟨rfl,rfl⟩
    · by_cases hdispatched : s.dispatched = true
      · rw [if_neg hdone, if_neg hdone, if_pos hdispatched, if_pos hdispatched]
        exact .inr ⟨rfl,rfl⟩
      · rw [if_neg hdone, if_neg hdone, if_neg hdispatched, if_neg hdispatched]
        exact .inr ⟨rfl,rfl⟩
  | isDone =>
    refine ⟨?_,rfl⟩
    intro hdone
    exact Bool.or_eq_true _ _ ▸ hdone
  | start => exact ⟨rfl,rfl⟩
  | stop err => exact ⟨rfl,rfl⟩
  | pollStopped => exact ⟨rfl,rfl⟩
  | err => exact ⟨rfl,rfl⟩
  | _ => rfl

end

/-! A transport that is started and dispatched, then stopped by its backend and closed. -/

def sampleCalls : Nat → TransportCall
  | 0 => .start
  | 1 => .dispatch
  | 2 => .stop (some .invalidLifecycle)
  | 3 => .close
  | _ => .err

def sampleTeam : Team (Thread Nat) (TransportOp Nat) TransportOp.Ans (TransportState Nat)
    (Option TransportError) :=
  team sampleCalls { session := {}, sessionID := [], stage := ascii "sign" } fun _ => 1

def sampleOrder : List (Thread Nat) :=
  [.call 0,.call 1,.poller 0,.call 1,.call 2,.call 3,.call 3,.poller 0,.poller 0,.call 3,.call 4]

theorem dispatch_versus_stop_sample :
    ∃ d : Team.Point (Thread Nat) (TransportOp Nat) TransportOp.Ans (TransportState Nat)
        (Option TransportError),
      Team.play (Team.serving waits quiet) sampleTeam {} sampleOrder = some d ∧
      log d.moves = [(.call 0,.spawn),(.call 1,.granted),(.poller 0,.other),(.call 1,.run),
        (.call 2,.stop (some .invalidLifecycle) true),(.call 3,.stop none false),
        (.call 3,.pollStopped (some 0)),(.poller 0,.other),(.poller 0,.exit),(.call 3,.joined 0),
        (.call 4,.err (some .invalidLifecycle))] ∧
      DispatchSafe sampleCalls (log d.moves) d.rest d.shared := by
  have hlog : (Team.play (Team.serving waits quiet) sampleTeam {} sampleOrder).map
      (fun d => log d.moves) = some [(.call 0,.spawn),(.call 1,.granted),(.poller 0,.other),
        (.call 1,.run),(.call 2,.stop (some .invalidLifecycle) true),(.call 3,.stop none false),
        (.call 3,.pollStopped (some 0)),(.poller 0,.other),(.poller 0,.exit),(.call 3,.joined 0),
        (.call 4,.err (some .invalidLifecycle))] := by decide +kernel
  obtain ⟨d,hplay,hd⟩ := Option.map_eq_some_iff.mp hlog
  exact ⟨d,hplay,hd,dispatch_versus_stop _ _ _ (Team.play_serving quiet_sem hplay)⟩

end CoSigner.Transport
