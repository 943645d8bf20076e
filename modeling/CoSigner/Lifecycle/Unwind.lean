import CoSigner.Lifecycle.Coordinator

/-! How a failing `Start` unwinds: what has been called, in which order, when it returns
its error, and that a later `Shutdown` adds nothing. The publication callback may run at
any time. -/
namespace CoSigner.Lifecycle
open Interleaving

/-- What an observer of a run notes down: who made each call, and whether the
coordinator ever held a lock or capabilities to close. -/
structure Watch where
  calls : List (Thread × Event) := []
  lock : Bool := false
  capabilities : Bool := false

/-- The calls of one thread. -/
def Watch.made (w : Watch) (i : Thread) : List Event :=
  w.calls.filterMap fun c => if c.1 = i then some c.2 else none

/-- Thread `i` made the calls `es` and left the coordinator in `t`. -/
def Watch.note (w : Watch) (i : Thread) (es : List Event) (t : State) : Watch where
  calls := w.calls ++ es.map (i,·)
  lock := w.lock || t.lock
  capabilities := w.capabilities || t.capabilities

/-- The runs in which nobody calls `Shutdown` before `Start` has returned. -/
inductive Watched (deps : Dependencies) : Watch → State → Prop
  | fresh : Watched deps {} {}
  | step {w : Watch} {s t : State} {es : List Event} (i : Thread) : Watched deps w s →
      (i = .shutdown → s.start = .failed ∨ s.start = .returned) →
      (coordinator deps).step i s t → t.calls = s.calls ++ es → Watched deps (w.note i es t) t

/-- The calls that drain the process and release what it holds. -/
def Event.cleanup : Event → Bool
  | .drain | .waitPublisher | .closeCapabilities | .closeLock => true
  | _ => false

/-- The last word on admission is `false`. -/
def AdmissionClosed (es : List Event) : Prop :=
  ∃ before after, es = before ++ .setAdmission false :: after ∧ .setAdmission true ∉ after

/-- A failed startup, undone: admission closed for good by `Start`, readiness empty, the
run context cancelled, and each release made once, in order, the lock last. -/
structure Unwound (w : Watch) (s : State) : Prop where
  admission : AdmissionClosed (w.made .start)
  readiness : s.readiness = {}
  cancelled : s.cancelled = true
  cleanup : s.calls.filter Event.cleanup =
    [.drain, .waitPublisher] ++ (if w.capabilities then [.closeCapabilities] else []) ++
      (if w.lock then [.closeLock] else [])

/-- How far `abortStartup` has come. -/
def StartPc.stage : StartPc → Nat
  | .abortAdmission => 1
  | .abortUnlock | .down .setReadiness => 2
  | .down .stopIntake | .down .cancel => 3
  | .down .drain => 4
  | .down .reportDrainError | .down .waitPublisher => 5
  | .down .closeCapabilities => 6
  | .down .closeLock => 7
  | .failed => 8
  | _ => 0

/-- What `Start` has taken: nothing, the lock, the lock and the capabilities. -/
def StartPc.taken : StartPc → Nat
  | .lock | .enter | .proceed | .acquireLock => 0
  | .openCapabilities => 1
  | _ => 2

/-- The callback is between its second check and its write of the snapshot. -/
def CallbackPc.publishing : CallbackPc → Bool
  | .snapshot | .provisioning _ | .set _ => true
  | _ => false

def ShutdownPc.refused : ShutdownPc → Bool
  | .lock | .check | .leave | .returned => true
  | _ => false

/-- The releases made by the time `abortStartup` has come to `stage`. -/
def released (w : Watch) (stage : Nat) : List Event :=
  (if 5 ≤ stage then [.drain] else []) ++ (if 6 ≤ stage then [.waitPublisher] else []) ++
    (if 7 ≤ stage ∧ w.capabilities then [.closeCapabilities] else []) ++
    (if 8 ≤ stage ∧ w.lock then [.closeLock] else [])

/-- The invariant of a `Start` that has not returned nil. -/
structure Unwinding (w : Watch) (s : State) : Prop where
  begun : s.start = .lock ∨ s.start = .enter ∨ s.cancel = true
  unlocked : s.start.taken = 0 → w.lock = false
  unopened : s.start.taken ≤ 1 → w.capabilities = false
  lock : s.lock = (w.lock && decide (s.start.stage < 8))
  capabilities : s.capabilities = (w.capabilities && decide (s.start.stage < 7))
  cleanup : s.calls.filter Event.cleanup = released w s.start.stage
  stopping : 1 ≤ s.start.stage → s.stopping = true
  quiet : 1 ≤ s.start.stage → s.callback.publishing = false
  admission : 2 ≤ s.start.stage → AdmissionClosed (w.made .start)
  readiness : 3 ≤ s.start.stage → s.readiness = {}
  cancelled : 4 ≤ s.start.stage → s.cancelled = true
  shutdown : s.shutdown = .idle ∨ s.start = .failed ∧ s.shutdown.refused = true

theorem made_note (w : Watch) (i j : Thread) (es : List Event) (t : State) :
    (w.note i es t).made j = w.made j ++ if i = j then es else [] := by
  unfold Watch.made Watch.note
  rw [List.filterMap_append]
  by_cases h : i = j
  · simp [h, List.filterMap_map, Function.comp_def]
  · simp [h, List.filterMap_map, Function.comp_def]

theorem AdmissionClosed.append {es fs : List Event} (h : AdmissionClosed es)
    (hf : .setAdmission true ∉ fs) : AdmissionClosed (es ++ fs) := by
  obtain ⟨before,after,rfl,ha⟩ := h
  exact ⟨before,after ++ fs,by simp,by simp [ha, hf]⟩

/-- What a step of `Start` changes before `abortStartup` has set `stopping`. -/
structure Ahead (s t : State) (es : List Event) : Prop where
  after : t.start.stage = 0
  begun : t.start = .lock ∨ t.start = .enter ∨ t.cancel = true
  taken : t.start.taken ≤ 1 → s.start.taken = 0
  lock : t.lock = s.lock ∨ s.start = .acquireLock ∧ t.start.taken ≠ 0
  capabilities : t.capabilities = s.capabilities ∨ s.start = .openCapabilities
  calls : es.filter Event.cleanup = []
  shutdown : t.shutdown = s.shutdown

@[simp] theorem afterReconcile_stage (d : Disposition) :
    (afterReconcile d).stage = 0 ∧ (afterReconcile d).taken = 2 := by
  cases d with
  | terminalPublicationRequired job => cases job <;> decide
  | _ => decide

@[simp] theorem afterAdmission_stage (d : Disposition) :
    (afterAdmission d).stage = 0 ∧ (afterAdmission d).taken = 2 := by
  cases d <;> exact ⟨rfl,rfl⟩

@[simp] theorem afterSigning_stage (deps : Dependencies) (d : Disposition) (signing : Bool) :
    (afterSigning deps d signing).stage = 0 ∧ (afterSigning deps d signing).taken = 2 := by
  cases d <;> cases signing <;> exact ⟨rfl,rfl⟩

@[simp] theorem afterConfirmed_stage (deps : Dependencies) (d : Disposition)
    (signing confirmed : Bool) :
    (afterConfirmed deps d signing confirmed).stage = 0 ∧
      (afterConfirmed deps d signing confirmed).taken = 2 := by
  cases signing <;> cases confirmed <;> exact ⟨rfl,rfl⟩

theorem StartStep.ahead {deps : Dependencies} {s t : State} {es : List Event}
    (h : StartStep deps s t) (hc : t.calls = s.calls ++ es) (hf : FreshInv s)
    (hb : s.start = .lock ∨ s.start = .enter ∨ s.cancel = true)
    (hs : s.start ≠ .abortStop) (h0 : s.start.stage = 0) : Ahead s t es := by
  cases h with
  | refuse h hr =>
    obtain ⟨h1,h2⟩ := hf.fresh (.inr h)
    simp [h1, h2] at hr
  | refuseUnlock h => exact absurd h hf.refuse
  | abortStop h => exact absurd h hs
  | abortAdmission h => simp [h, StartPc.stage] at h0
  | abortUnlock h => simp [h, StartPc.stage] at h0
  | down t pc pc' errs h hd => cases pc <;> simp [h, StartPc.stage] at h0
  | downReturn t pc errs h hd => cases pc <;> simp [h, StartPc.stage] at h0
  | reconcile h d ha =>
    obtain ⟨h1,h2⟩ := afterReconcile_stage d
    obtain rfl : [.reconcile (some d)] = es := List.append_cancel_left hc
    constructor <;> simp_all [State.call, Event.cleanup]
  | setAdmission d isOpen h =>
    obtain ⟨h1,h2⟩ := afterAdmission_stage d
    obtain rfl : [.setAdmission isOpen] = es := List.append_cancel_left hc
    constructor <;> simp_all [State.call, Event.cleanup]
  | signingReady d signing h ha =>
    obtain ⟨h1,h2⟩ := afterSigning_stage deps d signing
    obtain rfl : es = [] := List.self_eq_append_right.mp hc
    constructor <;> simp_all
  | readUnlock d signing confirmed h =>
    obtain ⟨h1,h2⟩ := afterConfirmed_stage deps d signing confirmed
    obtain rfl : es = [] := List.self_eq_append_right.mp hc
    constructor <;> simp_all
  | _ =>
    simp only [State.call, State.fail, List.append_cancel_left_eq, List.self_eq_append_right] at hc
    subst hc
    constructor <;> simp_all [State.call, State.fail, StartPc.stage, StartPc.taken, Event.cleanup]

theorem Ahead.unwinding {w : Watch} {s t : State} {es : List Event} (ha : Ahead s t es)
    (h0 : s.start.stage = 0) (hc : t.calls = s.calls ++ es) (hs : Unwinding w s) :
    Unwinding (w.note .start es t) t := by
  have hl := hs.lock
  have hp := hs.capabilities
  simp only [h0, Nat.zero_lt_succ, decide_true, Bool.and_true] at hl hp
  have hfree : s.start = .acquireLock → w.lock = false := fun h => hs.unlocked (by rw [h]; rfl)
  have hshut : s.start = .openCapabilities → w.capabilities = false :=
    fun h => hs.unopened (by rw [h]; decide)
  have hnot {n : Nat} {P : Prop} (h : n + 1 ≤ t.start.stage) : P := by
    rw [ha.after] at h
    omega
  refine ⟨ha.begun,?_,?_,?_,?_,?_,hnot,hnot,hnot,hnot,hnot,?_⟩
  · intro h
    have hw := hs.unlocked (ha.taken (by omega))
    obtain hk | ⟨-,hk⟩ := ha.lock
    · simp [Watch.note, hw, hk, hl]
    · exact absurd h hk
  · intro h
    have hz := ha.taken h
    have hw := hs.unopened (by omega)
    obtain hk | hk := ha.capabilities
    · simp [Watch.note, hw, hk, hp]
    · simp [hk, StartPc.taken] at hz
  · obtain hk | ⟨hk,-⟩ := ha.lock
    · simp [Watch.note, hk, hl, ha.after]
    · simp [Watch.note, hfree hk, ha.after]
  · obtain hk | hk := ha.capabilities
    · simp [Watch.note, hk, hp, ha.after]
    · simp [Watch.note, hshut hk, ha.after]
  · rw [hc, List.filter_append, ha.calls, hs.cleanup, h0, ha.after]
    rfl
  · obtain h | ⟨h,-⟩ := hs.shutdown
    · exact .inl (ha.shutdown.trans h)
    · simp [h, StartPc.stage] at h0

/-- Once `abortStartup` runs, nothing new is taken, and what is left to show of a step of
`Start` is what it changes. -/
theorem Unwinding.advance {w : Watch} {s t : State} {es : List Event} (hs : Unwinding w s)
    (hstage : 1 ≤ s.start.stage) (hnext : t.start.taken = 2) (hfail : s.start ≠ .failed)
    (hcancel : t.cancel = s.cancel) (hstop : t.stopping = s.stopping)
    (hback : t.callback = s.callback) (hshut : t.shutdown = s.shutdown)
    (hlock : t.lock = (w.lock && decide (t.start.stage < 8)))
    (hcaps : t.capabilities = (w.capabilities && decide (t.start.stage < 7)))
    (hclean : t.calls.filter Event.cleanup = released w t.start.stage)
    (hadm : AdmissionClosed (w.made .start ++ es))
    (hread : 3 ≤ t.start.stage → t.readiness = {})
    (hrun : 4 ≤ t.start.stage → t.cancelled = true) : Unwinding (w.note .start es t) t := by
  have hl : (w.note .start es t).lock = w.lock := by
    cases hw : w.lock <;> simp [Watch.note, hlock, hw]
  have hp : (w.note .start es t).capabilities = w.capabilities := by
    cases hw : w.capabilities <;> simp [Watch.note, hcaps, hw]
  have hrel : released (w.note .start es t) t.start.stage = released w t.start.stage := by
    unfold released
    rw [hl, hp]
  have hbegun : s.cancel = true := by
    obtain h | h | h := hs.begun
    · simp [h, StartPc.stage] at hstage
    · simp [h, StartPc.stage] at hstage
    · exact h
  refine ⟨.inr (.inr (hcancel.trans hbegun)),by omega,by omega,by rw [hl, hlock],
    by rw [hp, hcaps],by rw [hrel, hclean],fun _ => hstop.trans (hs.stopping hstage),
    fun _ => by rw [hback, hs.quiet hstage],fun _ => by simpa [made_note] using hadm,
    hread,hrun,?_⟩
  obtain h | ⟨h,-⟩ := hs.shutdown
  · exact .inl (hshut.trans h)
  · exact absurd h hfail

theorem DownStep.unwinding {deps : Dependencies} {w : Watch} {s u : State} {pc : DownPc}
    {next : Option DownPc} {errs : List Failure} {es : List Event}
    (hd : DownStep deps false pc s next errs u) (h : s.start = .down pc) (hs : Unwinding w s)
    (hc : u.calls = s.calls ++ es) {t : State}
    (ht : t = { u with startErr := u.startErr ++ errs, start := next.elim .failed .down }) :
    Unwinding (w.note .start es t) t := by
  have hstage : 2 ≤ s.start.stage := by rw [h]; cases pc <;> decide
  have hfail : s.start ≠ .failed := by simp [h]
  obtain ⟨-,hstop,-,-,-,-,hback,hshut,-⟩ := hd.frame
  have hcancel : u.cancel = s.cancel := by cases hd <;> rfl
  have hadm : .setAdmission true ∉ es → AdmissionClosed (w.made .start ++ es) :=
    (hs.admission hstage).append
  have hcl := hs.cleanup
  have hl := hs.lock
  have hp := hs.capabilities
  have hread := hs.readiness
  have hrun := hs.cancelled
  subst ht
  rw [h] at hcl hl hp hread hrun
  cases hd with
  | setReadiness =>
    obtain rfl : es = [] := List.self_eq_append_right.mp hc
    exact hs.advance (by omega) rfl hfail rfl rfl rfl rfl hl hp hcl (hadm (by simp))
      (fun _ => rfl) (fun h => by simp [StartPc.stage] at h)
  | stopIntake _ ok =>
    obtain rfl : [.stopIntake] = es := List.append_cancel_left hc
    exact hs.advance (by omega) rfl hfail rfl rfl rfl rfl hl hp
      (by rw [State.call, List.filter_append, hcl]; rfl) (hadm (by simp)) hread
      (fun h => by simp [StartPc.stage] at h)
  | cancel =>
    obtain rfl : [.cancel] = es := List.append_cancel_left hc
    exact hs.advance (by omega) rfl hfail rfl rfl rfl rfl hl hp
      (by rw [State.call, List.filter_append, hcl]; rfl) (hadm (by simp)) (fun _ => hread (by decide))
      (fun _ => rfl)
  | noCancel _ hn =>
    obtain hb | hb | hb := hs.begun
    · simp [h] at hb
    · simp [h] at hb
    · simp [hb] at hn
  | drain =>
    obtain rfl : [.drain] = es := List.append_cancel_left hc
    exact hs.advance (by omega) rfl hfail rfl rfl rfl rfl hl hp
      (by rw [State.call, List.filter_append, hcl]; rfl) (hadm (by simp))
      (fun _ => hread (by decide)) (fun _ => hrun (by decide))
  | drainFailed =>
    obtain rfl : [.drain] = es := List.append_cancel_left hc
    cases deps.hasReportDrainError with
    | _ =>
      exact hs.advance (by omega) rfl hfail rfl rfl rfl rfl hl hp
        (by rw [State.call, List.filter_append, hcl]; rfl) (hadm (by simp))
        (fun _ => hread (by decide)) (fun _ => hrun (by decide))
  | reportDrainError =>
    obtain rfl : [.reportDrainError] = es := List.append_cancel_left hc
    exact hs.advance (by omega) rfl hfail rfl rfl rfl rfl hl hp
      (by rw [State.call, List.filter_append, hcl]; rfl) (hadm (by simp))
      (fun _ => hread (by decide)) (fun _ => hrun (by decide))
  | waitPublisher =>
    obtain rfl : [.waitPublisher] = es := List.append_cancel_left hc
    exact hs.advance (by omega) rfl hfail rfl rfl rfl rfl hl hp
      (by rw [State.call, List.filter_append, hcl]; rfl) (hadm (by simp))
      (fun _ => hread (by decide)) (fun _ => hrun (by decide))
  | closeCapabilities _ hcaps ok =>
    obtain rfl : [.closeCapabilities] = es := List.append_cancel_left hc
    have hw : w.capabilities = true := by simpa [hcaps, StartPc.stage] using hp.symm
    exact hs.advance (by omega) rfl hfail rfl rfl rfl rfl hl (by simp [StartPc.stage])
      (by rw [State.call, List.filter_append, hcl]; simp [released, StartPc.stage, Event.cleanup, hw])
      (hadm (by simp)) (fun _ => hread (by decide)) (fun _ => hrun (by decide))
  | noCapabilities _ hcaps =>
    obtain rfl : es = [] := List.self_eq_append_right.mp hc
    have hw : w.capabilities = false := by simpa [hcaps, StartPc.stage] using hp.symm
    exact hs.advance (by omega) rfl hfail rfl rfl rfl rfl hl (by simp [hw, hcaps])
      (by rw [hcl]; simp [released, StartPc.stage, hw])
      (hadm (by simp)) (fun _ => hread (by decide)) (fun _ => hrun (by decide))
  | closeLock _ hlock ok =>
    obtain rfl : [.closeLock] = es := List.append_cancel_left hc
    have hw : w.lock = true := by simpa [hlock, StartPc.stage] using hl.symm
    exact hs.advance (by omega) rfl hfail rfl rfl rfl rfl (by simp [StartPc.stage])
      (by simpa [StartPc.stage, State.call] using hp)
      (by rw [State.call, List.filter_append, hcl]; simp [released, StartPc.stage, Event.cleanup, hw])
      (hadm (by simp)) (fun _ => hread (by decide)) (fun _ => hrun (by decide))
  | noLock _ hlock =>
    obtain rfl : es = [] := List.self_eq_append_right.mp hc
    have hw : w.lock = false := by simpa [hlock, StartPc.stage] using hl.symm
    exact hs.advance (by omega) rfl hfail rfl rfl rfl rfl (by simp [hw, hlock])
      (by simpa [StartPc.stage] using hp) (by rw [hcl]; simp [released, StartPc.stage, hw])
      (hadm (by simp)) (fun _ => hread (by decide)) (fun _ => hrun (by decide))

theorem StartStep.unwinding {deps : Dependencies} {w : Watch} {s t : State} {es : List Event}
    (h : StartStep deps s t) (hc : t.calls = s.calls ++ es) (hm : MutexInv s) (hf : FreshInv s)
    (hs : Unwinding w s) : Unwinding (w.note .start es t) t := by
  by_cases h0 : s.start.stage = 0
  · by_cases hstop : s.start = .abortStop
    · cases h with
      | abortStop =>
        obtain rfl : es = [] := List.self_eq_append_right.mp hc
        -- the callback holds the mutex while it publishes, and here `Start` does
        have hq : s.callback.publishing = false := by
          have hmu := hm.start.mp (by rw [hstop]; rfl)
          have hcb := hm.callback
          cases hp : s.callback <;> simp_all [CallbackPc.publishing, CallbackPc.locked]
        have hl := hs.lock
        have hp := hs.capabilities
        have hcl := hs.cleanup
        have hsh := hs.shutdown
        have hb := hs.begun
        rw [hstop] at hl hp hcl hsh hb
        simp only [StartPc.stage, reduceCtorEq, false_or, false_and, or_false, Nat.zero_lt_succ,
          decide_true, Bool.and_true] at hl hp hb hsh
        refine ⟨.inr (.inr hb),?_,?_,?_,?_,?_,fun _ => rfl,fun _ => hq,?_,?_,?_,.inl hsh⟩
        · simp [StartPc.taken]
        · simp [StartPc.taken]
        · simp [Watch.note, hl, StartPc.stage]
        · simp [Watch.note, hp, StartPc.stage]
        · exact hcl
        all_goals simp [StartPc.stage]
      | _ => simp_all
    · exact (h.ahead hc hf hs.begun hstop h0).unwinding h0 hc hs
  · have hpos : 1 ≤ s.start.stage := by omega
    cases h with
    | abortAdmission h =>
      obtain rfl : [.setAdmission false] = es := List.append_cancel_left hc
      have hl := hs.lock
      have hp := hs.capabilities
      have hcl := hs.cleanup
      rw [h] at hl hp hcl
      exact hs.advance hpos rfl (by simp [h]) rfl rfl rfl rfl hl hp
        (by rw [State.call, List.filter_append, hcl]; rfl) ⟨_,[],rfl,by simp⟩
        (fun h => by simp [StartPc.stage] at h) (fun h => by simp [StartPc.stage] at h)
    | abortUnlock h =>
      obtain rfl : es = [] := List.self_eq_append_right.mp hc
      have hl := hs.lock
      have hp := hs.capabilities
      have hcl := hs.cleanup
      rw [h] at hl hp hcl
      exact hs.advance hpos rfl (by simp [h]) rfl rfl rfl rfl hl hp hcl
        ((hs.admission (by rw [h]; decide)).append (by simp))
        (fun h => by simp [StartPc.stage] at h) (fun h => by simp [StartPc.stage] at h)
    | down u pc pc' errs h hd => exact hd.unwinding h hs hc rfl
    | downReturn u pc errs h hd => exact hd.unwinding h hs hc rfl
    | _ => simp_all [StartPc.stage]

/-- A thread other than `Start` that releases nothing and leaves readiness alone once
`abortStartup` has begun. -/
theorem Unwinding.beside {w : Watch} {s t : State} {es : List Event} {i : Thread}
    (hs : Unwinding w s) (hi : i ≠ .start) (hc : t.calls = s.calls ++ es)
    (he : es.filter Event.cleanup = []) (hstart : t.start = s.start)
    (hcancel : t.cancel = s.cancel) (hlock : t.lock = s.lock)
    (hcaps : t.capabilities = s.capabilities) (hstop : t.stopping = s.stopping)
    (hrun : t.cancelled = s.cancelled)
    (hback : s.stopping = true → s.callback.publishing = false →
      t.callback.publishing = false ∧ t.readiness = s.readiness)
    (hshut : t.shutdown = .idle ∨ t.start = .failed ∧ t.shutdown.refused = true) :
    Unwinding (w.note i es t) t := by
  have hl := hs.lock
  have hp := hs.capabilities
  have hwl : (w.note i es t).lock = w.lock := by
    cases hw : w.lock <;> simp [Watch.note, hlock, hl, hw]
  have hwp : (w.note i es t).capabilities = w.capabilities := by
    cases hw : w.capabilities <;> simp [Watch.note, hcaps, hp, hw]
  have hmade : (w.note i es t).made .start = w.made .start := by simp [made_note, hi]
  have hrel (n : Nat) : released (w.note i es t) n = released w n := by
    unfold released
    rw [hwl, hwp]
  have hquiet (h : 1 ≤ s.start.stage) := hback (hs.stopping h) (hs.quiet h)
  refine ⟨?_,?_,?_,?_,?_,?_,?_,?_,?_,?_,?_,hshut⟩
  · rw [hstart, hcancel]
    exact hs.begun
  · rw [hstart, hwl]
    exact hs.unlocked
  · rw [hstart, hwp]
    exact hs.unopened
  · rw [hlock, hwl, hstart, hl]
  · rw [hcaps, hwp, hstart, hp]
  · rw [hc, List.filter_append, he, List.append_nil, hs.cleanup, hrel, hstart]
  · rw [hstart, hstop]
    exact hs.stopping
  · rw [hstart]
    exact fun h => (hquiet h).1
  · rw [hstart, hmade]
    exact hs.admission
  · rw [hstart]
    exact fun h => (hquiet (by omega)).2.trans (hs.readiness h)
  · rw [hstart, hrun]
    exact hs.cancelled

theorem CallbackStep.unwinding {deps : Dependencies} {w : Watch} {s t : State} {es : List Event}
    (h : CallbackStep deps s t) (hc : t.calls = s.calls ++ es) (hs : Unwinding w s) :
    Unwinding (w.note .callback es t) t := by
  have hsh := hs.shutdown
  cases h with
  | setAdmission h =>
    obtain rfl : [.setAdmission true] = es := List.append_cancel_left hc
    exact hs.beside (by decide) rfl rfl rfl rfl rfl rfl rfl rfl (fun _ _ => ⟨rfl,rfl⟩) hsh
  | wake h =>
    obtain rfl : [.wakeScheduler] = es := List.append_cancel_left hc
    exact hs.beside (by decide) rfl rfl rfl rfl rfl rfl rfl rfl (fun _ _ => ⟨rfl,rfl⟩) hsh
  | _ =>
    obtain rfl : es = [] := List.self_eq_append_right.mp hc
    refine hs.beside (by decide) hc rfl rfl rfl rfl rfl rfl rfl (fun h1 h2 => ?_) hsh
    simp_all [CallbackPc.publishing]

theorem ShutdownStep.unwinding {deps : Dependencies} {w : Watch} {s t : State} {es : List Event}
    (h : ShutdownStep deps s t) (hc : t.calls = s.calls ++ es) (hfail : s.start = .failed)
    (hs : Unwinding w s) : Unwinding (w.note .shutdown es t) t := by
  have hstop : s.stopping = true := hs.stopping (by rw [hfail]; decide)
  have hsh : s.shutdown = .idle ∨ s.shutdown.refused = true := hs.shutdown.imp_right And.right
  have hkeep (hn : t = { s with mu := t.mu, shutdown := t.shutdown })
      (hr : t.shutdown.refused = true) : Unwinding (w.note .shutdown es t) t := by
    obtain rfl : es = [] := List.self_eq_append_right.mp (by rw [hn] at hc; exact hc)
    rw [hn]
    exact hs.beside (by decide) (by simp) rfl rfl rfl rfl rfl rfl rfl (fun _ h => ⟨h,rfl⟩)
      (.inr ⟨hfail,hr⟩)
  cases h with
  | begin => exact hkeep rfl rfl
  | lock => exact hkeep rfl rfl
  | leave => exact hkeep rfl rfl
  | leaveUnlock => exact hkeep rfl rfl
  | check h hn => simp [hstop] at hn
  | _ => simp_all [ShutdownPc.refused]

theorem returned_stays {deps : Dependencies} {i : Thread} {s t : State}
    (h : (coordinator deps).step i s t) (hs : s.start = .returned) : t.start = .returned := by
  cases i with
  | start => cases h <;> simp_all
  | callback => cases h <;> exact hs
  | shutdown =>
    cases h with
    | down u pc pc' errs h hd => exact hd.frame.2.2.2.2.2.1.trans hs
    | downReturn u pc errs h hd => exact hd.frame.2.2.2.2.2.1.trans hs
    | _ => exact hs

theorem Watched.inv {deps : Dependencies} {w : Watch} {s : State} (h : Watched deps w s) :
    MutexInv s ∧ FreshInv s ∧ (s.start = .returned ∨ Unwinding w s) := by
  induction h with
  | fresh =>
    refine ⟨mutexInv_initial,⟨fun _ => ⟨rfl,rfl⟩,by decide⟩,.inr ?_⟩
    constructor <;> simp [StartPc.stage, Watch.made, released]
  | @step w s t es i _ hlate hstep hc ih =>
    obtain ⟨hm,hf,hu⟩ := ih
    refine ⟨step_mutexInv i hm hstep,step_freshInv i hf hstep,?_⟩
    obtain hret | hu := hu
    · exact .inl (returned_stays hstep hret)
    · cases i with
      | start => exact .inr (StartStep.unwinding hstep hc hm hf hu)
      | callback => exact .inr (CallbackStep.unwinding hstep hc hu)
      | shutdown =>
        obtain hfail | hret := hlate rfl
        · exact .inr (ShutdownStep.unwinding hstep hc hfail hu)
        · exact .inl (returned_stays hstep hret)

/-- When `Start` has returned an error, and for ever after, its startup is undone. -/
theorem Watched.failed_unwound {deps : Dependencies} {w : Watch} {s : State}
    (h : Watched deps w s) (hf : s.start = .failed) : Unwound w s := by
  obtain ⟨-,-,hr | hu⟩ := h.inv
  · simp [hf] at hr
  have hadm := hu.admission
  have hread := hu.readiness
  have hrun := hu.cancelled
  have hcl := hu.cleanup
  rw [hf] at hadm hread hrun hcl
  refine ⟨hadm (by decide),hread (by decide),hrun (by decide),hcl.trans ?_⟩
  simp [released, StartPc.stage]

/-- Dependencies that may answer anything. -/
def anyAnswers : Dependencies where
  signingDisabled := false
  hasSigningReady := true
  reconcile _ := True
  signingReady _ := True
  provisioningReady _ := True
  hasReportDrainError := true

/-- Intake fails after admission was opened, draining fails, and `Shutdown` is called
afterwards. -/
theorem intake_failure_unwound : ∃ w s, Watched anyAnswers w s ∧ s.shutdown = .returned ∧
    (w.lock = true ∧ w.capabilities = true ∧ .setAdmission true ∈ w.made .start) ∧
    Unwound w s := by
  have h : Watched anyAnswers {} {} := .fresh
  have h := h.step .start (by simp) (StartStep.lock _ rfl rfl) (List.append_nil _).symm
  have h := h.step .start (by simp) (StartStep.enter _ rfl rfl rfl) (List.append_nil _).symm
  have h := h.step .start (by simp) (StartStep.proceed _ rfl) (List.append_nil _).symm
  have h := h.step .start (by simp) (StartStep.acquireLock _ rfl true) rfl
  have h := h.step .start (by simp) (StartStep.openCapabilities _ rfl true) rfl
  have h := h.step .start (by simp) (StartStep.startPublisher _ rfl) rfl
  have h := h.step .start (by simp) (StartStep.reconcile _ rfl .eligible trivial) rfl
  have h := h.step .start (by simp) (StartStep.setAdmission _ _ _ rfl) rfl
  have h := h.step .start (by simp) (StartStep.startScheduler _ _ rfl) rfl
  have h := h.step .start (by simp) (StartStep.startIntakeFailed _ _ rfl) rfl
  have h := h.step .start (by simp) (StartStep.abortLock _ rfl rfl) (List.append_nil _).symm
  have h := h.step .start (by simp) (StartStep.abortStop _ rfl) (List.append_nil _).symm
  have h := h.step .start (by simp) (StartStep.abortAdmission _ rfl) rfl
  have h := h.step .start (by simp) (StartStep.abortUnlock _ rfl) (List.append_nil _).symm
  have h := h.step .start (by simp) (StartStep.down _ _ _ _ _ rfl (.setReadiness _))
    (List.append_nil _).symm
  have h := h.step .start (by simp) (StartStep.down _ _ _ _ _ rfl (.cancel _ rfl)) rfl
  have h := h.step .start (by simp) (StartStep.down _ _ _ _ _ rfl (.drainFailed _)) rfl
  have h := h.step .start (by simp) (StartStep.down _ _ _ _ _ rfl (.reportDrainError _)) rfl
  have h := h.step .start (by simp) (StartStep.down _ _ _ _ _ rfl (.waitPublisher _)) rfl
  have h := h.step .start (by simp) (StartStep.down _ _ _ _ _ rfl (.closeCapabilities _ rfl true)) rfl
  have h := h.step .start (by simp) (StartStep.downReturn _ _ _ _ rfl (.closeLock _ rfl true)) rfl
  have h := h.step .shutdown (fun _ => .inl rfl) (ShutdownStep.begin _ rfl) (List.append_nil _).symm
  have h := h.step .shutdown (fun _ => .inl rfl) (ShutdownStep.lock _ rfl rfl)
    (List.append_nil _).symm
  have h := h.step .shutdown (fun _ => .inl rfl) (ShutdownStep.leave _ rfl rfl)
    (List.append_nil _).symm
  have h := h.step .shutdown (fun _ => .inl rfl) (ShutdownStep.leaveUnlock _ rfl)
    (List.append_nil _).symm
  exact ⟨_,_,h,rfl,by decide,h.failed_unwound rfl⟩

end CoSigner.Lifecycle
