import CoSigner.Lifecycle.Coordinator

/-! When DKG admission stays closed once the process is stopping. The callback
checks `stopping` under the mutex and opens admission after releasing it, so a stop
that falls in between is followed by an opening call. -/
namespace CoSigner.Lifecycle
open Interleaving

/-- The callback has passed its first check and has not called
`SetDKGAdmissionOpen(true)` yet. -/
def Opening (s : State) : Prop := s.callback = .setAdmission

/-- The thread is about to take the mutex in order to set `stopping`. -/
def EntersStop (i : Thread) (s : State) : Prop :=
  (i = .shutdown ∧ s.shutdown = .lock) ∨ (i = .start ∧ s.start = .abortLock)

/-- The stop does not fall between the decision to open admission and its call. -/
def StopsOutsideOpening (i : Thread) (s : State) : Prop :=
  EntersStop i s → ¬Opening s

/-- Nothing is opened after `s`, once `s` is stopping and has been closed. -/
def ClosedForGood (s t : State) : Prop :=
  s.stopping = true → false ∈ s.admissions →
    ∃ later, t.admissions = s.admissions ++ later ∧ true ∉ later

theorem admissions_call (s : State) (e : Event) :
    (s.call e).admissions = s.admissions ++
      (match e with | .setAdmission isOpen => [isOpen] | _ => []) := by
  cases e <;> simp [State.call, State.admissions]

/-- The program points of `Shutdown` after `stopping` was set or found set. -/
def ShutdownPc.stopped : ShutdownPc → Bool
  | .leave | .setAdmission | .unlock | .down _ | .returned => true
  | _ => false

theorem StartStep.admission_cases {deps : Dependencies} {s t : State} (h : StartStep deps s t) :
    (t.stopping = s.stopping ∧ t.admissions = s.admissions ∧ s.start ≠ .abortAdmission ∧
      t.start ≠ .abortAdmission ∧ (t.start = .abortStop → s.start = .abortLock ∧ s.mu = none)) ∨
    (∃ d isOpen, s.start = .setAdmission d isOpen ∧ t.stopping = s.stopping ∧
      t.admissions = s.admissions ++ [isOpen] ∧ t.start = afterAdmission d) ∨
    (s.start = .abortStop ∧ t.start = .abortAdmission ∧ t.stopping = true ∧
      t.admissions = s.admissions) ∨
    (s.start = .abortAdmission ∧ t.stopping = s.stopping ∧
      t.admissions = s.admissions ++ [false] ∧ t.start = .abortUnlock) := by
  cases h with
  | reconcile h d ha =>
    left
    cases d with
    | terminalPublicationRequired job =>
      cases job <;> simp [afterReconcile, h, State.call, State.admissions]
    | _ => simp [afterReconcile, h, State.call, State.admissions]
  | down t pc pc' errs h hd =>
    obtain ⟨-,hst,-,-,-,-,-,-,had⟩ := hd.frame
    left
    simp_all [State.admissions]
  | downReturn t pc errs h hd =>
    obtain ⟨-,hst,-,-,-,-,-,-,had⟩ := hd.frame
    left
    simp_all [State.admissions]
  | setAdmission d isOpen h =>
    right; left
    exact ⟨d,isOpen,h,rfl,admissions_call s _,rfl⟩
  | abortStop h => simp [h, State.admissions]
  | abortAdmission h =>
    right; right; right
    exact ⟨h,rfl,admissions_call s _,rfl⟩
  | signingReady d signing h ha =>
    left
    cases d <;> cases signing <;> simp [afterSigning, h, State.admissions]
  | readUnlock d signing confirmed h =>
    left
    cases signing <;> cases confirmed <;> simp [afterConfirmed, h, State.admissions]
  | _ => left; simp_all [State.call, State.fail, State.admissions]

theorem StartStep.frame {deps : Dependencies} {s t : State} (h : StartStep deps s t) :
    t.shutdown = s.shutdown ∧
      (t.callback = s.callback ∨ (s.callback = .idle ∧ t.callback = .lock)) := by
  cases h with
  | down t pc pc' errs h hd => simp [hd.frame]
  | downReturn t pc errs h hd => simp [hd.frame]
  | handoff h hc => simp [State.call, hc]
  | _ => simp [State.call, State.fail]

theorem StartStep.start_closed {deps : Dependencies} {s t : State}
    (hrec : ∀ d, deps.reconcile (some d) → d≠.eligible) (h : StartStep deps s t)
    (d' : Disposition) : t.start ≠ .setAdmission d' true := by
  cases h with
  | reconcile h d ha =>
    obtain hd | hd | hd | hd | hd := afterReconcile_cases d
    · exact absurd hd (hrec d ha)
    all_goals simp [hd]
  | setAdmission d isOpen h => cases d <;> simp [afterAdmission]
  | signingReady d signing h ha => cases d <;> cases signing <;> simp [afterSigning]
  | readUnlock d signing confirmed h => cases signing <;> cases confirmed <;> simp [afterConfirmed]
  | _ => simp [State.fail]

theorem CallbackStep.frame {deps : Dependencies} {s t : State} (h : CallbackStep deps s t) :
    t.start = s.start ∧ t.shutdown = s.shutdown ∧ t.stopping = s.stopping := by
  cases h <;> simp [State.call]

theorem CallbackStep.admission_cases {deps : Dependencies} {s t : State}
    (h : CallbackStep deps s t) :
    (t.admissions = s.admissions ∧
      (t.callback = .confirmUnlock → s.callback = .check ∧ s.stopping = false) ∧
      (t.callback = .setAdmission → s.callback = .confirmUnlock)) ∨
    (s.callback = .setAdmission ∧ t.callback = .lockAgain ∧
      t.admissions = s.admissions ++ [true]) := by
  cases h with
  | setAdmission h => exact .inr ⟨h,rfl,admissions_call s _⟩
  | snapshot h =>
    left
    cases hp : s.readiness.processReady <;> simp [State.admissions]
  | _ => left; simp_all [State.call, State.admissions]

theorem ShutdownStep.frame {deps : Dependencies} {s t : State} (h : ShutdownStep deps s t) :
    t.start = s.start ∧ t.callback = s.callback := by
  cases h with
  | down t pc pc' errs h hd => simp [hd.frame]
  | downReturn t pc errs h hd => simp [hd.frame]
  | _ => simp [State.call]

theorem ShutdownStep.admission_cases {deps : Dependencies} {s t : State}
    (h : ShutdownStep deps s t) :
    (t.stopping = s.stopping ∧ t.admissions = s.admissions ∧ s.shutdown ≠ .setAdmission ∧
      t.shutdown ≠ .setAdmission ∧ (t.shutdown = .check → s.shutdown = .lock ∧ s.mu = none) ∧
      (t.shutdown = .stop → s.shutdown = .check) ∧
      (t.shutdown.stopped = true → s.shutdown.stopped = true ∨ s.stopping = true)) ∨
    (s.shutdown = .stop ∧ t.shutdown = .setAdmission ∧ t.stopping = true ∧
      t.admissions = s.admissions) ∨
    (s.shutdown = .setAdmission ∧ t.shutdown = .unlock ∧ t.stopping = s.stopping ∧
      t.admissions = s.admissions ++ [false]) := by
  cases h with
  | down t pc pc' errs h hd =>
    obtain ⟨-,hst,-,-,-,-,-,-,had⟩ := hd.frame
    left
    simp_all [State.admissions, ShutdownPc.stopped]
  | downReturn t pc errs h hd =>
    obtain ⟨-,hst,-,-,-,-,-,-,had⟩ := hd.frame
    left
    simp_all [State.admissions, ShutdownPc.stopped]
  | stop h => simp [h, State.admissions]
  | setAdmission h => exact .inr (.inr ⟨h,rfl,rfl,admissions_call s _⟩)
  | _ => left; simp_all [State.admissions, ShutdownPc.stopped]

/-- Some thread is stopping the process, or owns the mutex in order to. -/
def Stopping (s : State) : Prop :=
  s.stopping = true ∨ s.shutdown = .check ∨ s.shutdown = .stop ∨ s.start = .abortStop

structure AdmissionInv (s : State) : Prop where
  mutex : MutexInv s
  start : ∀ d, s.start ≠ .setAdmission d true
  decided : Stopping s → s.callback ≠ .setAdmission ∧ s.callback ≠ .confirmUnlock
  stopped : s.shutdown.stopped = true → s.stopping = true
  closed : s.stopping = true → s.admissions.getLast? = some false ∨
    s.shutdown = .setAdmission ∨ s.start = .abortAdmission

theorem admissionInv_initial : AdmissionInv {} :=
  ⟨mutexInv_initial,by simp,by simp [Stopping],by simp [ShutdownPc.stopped],by simp⟩

theorem StartStep.admissionInv {deps : Dependencies} {s t : State}
    (hrec : ∀ d, deps.reconcile (some d) → d≠.eligible) (h : StartStep deps s t)
    (hok : s.mu = some .start ∨ StopsOutsideOpening .start s) (hs : AdmissionInv s) :
    AdmissionInv t := by
  obtain ⟨hsh,hcb⟩ := h.frame
  have hcb' : t.callback = .setAdmission ∨ t.callback = .confirmUnlock → t.callback = s.callback := by
    obtain hcb | ⟨-,hcb⟩ := hcb
    · exact fun _ => hcb
    · simp [hcb]
  refine ⟨h.mutexInv hs.mutex,h.start_closed hrec,?_,?_,?_⟩
  · intro hstop
    suffices hdec : s.callback ≠ .setAdmission ∧ s.callback ≠ .confirmUnlock by
      constructor
      · intro hc
        exact hdec.1 ((hcb' (.inl hc)).symm.trans hc)
      · intro hc
        exact hdec.2 ((hcb' (.inr hc)).symm.trans hc)
    rw [Stopping,hsh] at hstop
    obtain ⟨hst,-,-,-,henter⟩ | ⟨d,isOpen,hd,hst,-,ht⟩ | ⟨hd,-,-,-⟩ | ⟨hd,hst,-,ht⟩ := h.admission_cases
    · rw [hst] at hstop
      obtain hstop | hstop | hstop | hstop := hstop
      · exact hs.decided (.inl hstop)
      · exact hs.decided (.inr (.inl hstop))
      · exact hs.decided (.inr (.inr (.inl hstop)))
      · obtain ⟨hl,hm⟩ := henter hstop
        constructor
        · obtain hok | hok := hok
          · simp [hm] at hok
          · exact hok (.inr ⟨rfl,hl⟩)
        · intro hc
          have := hs.mutex.callback.mp (by rw [hc]; rfl)
          simp [hm] at this
    · have hta : afterAdmission d ≠ .abortStop := by cases d <;> simp [afterAdmission]
      rw [hst,ht] at hstop
      apply hs.decided
      obtain hstop | hstop | hstop | hstop := hstop
      · exact .inl hstop
      · exact .inr (.inl hstop)
      · exact .inr (.inr (.inl hstop))
      · exact absurd hstop hta
    · exact hs.decided (.inr (.inr (.inr hd)))
    · apply hs.decided
      rw [hst,ht] at hstop
      obtain hstop | hstop | hstop | hstop := hstop
      · exact .inl hstop
      · exact .inr (.inl hstop)
      · exact .inr (.inr (.inl hstop))
      · simp at hstop
  · intro hp
    rw [hsh] at hp
    have hst := hs.stopped hp
    obtain ⟨ht,-⟩ | ⟨d,isOpen,-,ht,-⟩ | ⟨-,-,ht,-⟩ | ⟨-,ht,-⟩ := h.admission_cases <;> simp [ht, hst]
  · intro hst'
    rw [hsh]
    obtain ⟨hst,had,hna,-,-⟩ | ⟨d,isOpen,hd,hst,had,-⟩ | ⟨-,ht,-⟩ | ⟨-,-,had,-⟩ := h.admission_cases
    · obtain hc | hc | hc := hs.closed (hst ▸ hst')
      · exact .inl (had ▸ hc)
      · exact .inr (.inl hc)
      · exact absurd hc hna
    · left
      cases isOpen with
      | false => simp [had]
      | true => exact absurd hd (hs.start d)
    · exact .inr (.inr ht)
    · left
      simp [had]

theorem CallbackStep.admissionInv {deps : Dependencies} {s t : State}
    (h : CallbackStep deps s t) (hs : AdmissionInv s) : AdmissionInv t := by
  obtain ⟨hst,hsh,hsp⟩ := h.frame
  have hstop : Stopping t ↔ Stopping s := by simp [Stopping, hst, hsh, hsp]
  refine ⟨h.mutexInv hs.mutex,?_,?_,?_,?_⟩
  · rw [hst]
    exact hs.start
  · intro hp
    rw [hstop] at hp
    obtain ⟨-,hconf,hopen⟩ | ⟨hopen,-,-⟩ := h.admission_cases
    · constructor
      · intro hc
        exact (hs.decided hp).2 (hopen hc)
      · intro hc
        obtain ⟨hck,hns⟩ := hconf hc
        have hmu := hs.mutex.callback.mp (by rw [hck]; rfl)
        obtain hp | hp | hp | hp := hp
        · simp [hns] at hp
        · have := hs.mutex.shutdown.mp (by rw [hp]; rfl)
          simp [hmu] at this
        · have := hs.mutex.shutdown.mp (by rw [hp]; rfl)
          simp [hmu] at this
        · have := hs.mutex.start.mp (by rw [hp]; rfl)
          simp [hmu] at this
    · exact absurd hopen (hs.decided hp).1
  · rw [hsh,hsp]
    exact hs.stopped
  · intro hp
    rw [hst,hsh]
    rw [hsp] at hp
    obtain ⟨had,-,-⟩ | ⟨hopen,-,-⟩ := h.admission_cases
    · rw [had]
      exact hs.closed hp
    · exact absurd hopen (hs.decided (.inl hp)).1

theorem ShutdownStep.admissionInv {deps : Dependencies} {s t : State}
    (h : ShutdownStep deps s t)
    (hok : s.mu = some .shutdown ∨ StopsOutsideOpening .shutdown s) (hs : AdmissionInv s) :
    AdmissionInv t := by
  obtain ⟨hst,hcb⟩ := h.frame
  refine ⟨h.mutexInv hs.mutex,?_,?_,?_,?_⟩
  · rw [hst]
    exact hs.start
  · intro hstop
    rw [hcb]
    rw [Stopping,hst] at hstop
    obtain ⟨hsp,-,-,-,hck,hstp,-⟩ | ⟨hsh,-⟩ | ⟨hsh,ht,hsp,-⟩ := h.admission_cases
    · obtain hp | hp | hp | hp := hstop
      · exact hs.decided (.inl (hsp ▸ hp))
      · obtain ⟨hl,hm⟩ := hck hp
        constructor
        · obtain hok | hok := hok
          · simp [hm] at hok
          · exact hok (.inl ⟨rfl,hl⟩)
        · intro hc
          have := hs.mutex.callback.mp (by rw [hc]; rfl)
          simp [hm] at this
      · exact hs.decided (.inr (.inl (hstp hp)))
      · exact hs.decided (.inr (.inr (.inr hp)))
    · exact hs.decided (.inr (.inr (.inl hsh)))
    · exact hs.decided (.inl (hs.stopped (by rw [hsh]; rfl)))
  · intro hp
    obtain ⟨hsp,-,-,-,-,-,hst'⟩ | ⟨-,-,hsp,-⟩ | ⟨hsh,-,hsp,-⟩ := h.admission_cases
    · rw [hsp]
      obtain hst' | hst' := hst' hp
      · exact hs.stopped hst'
      · exact hst'
    · exact hsp
    · rw [hsp]
      exact hs.stopped (by rw [hsh]; rfl)
  · intro hp
    rw [hst]
    obtain ⟨hsp,had,hns,-,-⟩ | ⟨-,ht,-⟩ | ⟨-,-,-,had⟩ := h.admission_cases
    · obtain hc | hc | hc := hs.closed (hsp ▸ hp)
      · exact .inl (had ▸ hc)
      · exact absurd hc hns
      · exact .inr (.inr hc)
    · exact .inr (.inl ht)
    · left
      simp [had]

/-- The program points of `Start` after `abortStartup` set `stopping`. -/
def StartPc.stopped : StartPc → Bool
  | .abortAdmission | .abortUnlock | .down _ | .failed => true
  | _ => false

@[simp] theorem afterReconcile_stopped (d : Disposition) :
    (afterReconcile d).stopped = false := by
  cases d with
  | terminalPublicationRequired job => cases job <;> rfl
  | _ => rfl

theorem stopping_mono {deps : Dependencies} {i : Thread} {s t : State}
    (h : (coordinator deps).step i s t) (hs : s.stopping = true) : t.stopping = true := by
  cases i with
  | start =>
    obtain ⟨ht,-⟩ | ⟨d,isOpen,-,ht,-⟩ | ⟨-,-,ht,-⟩ | ⟨-,ht,-⟩ := StartStep.admission_cases h <;>
      simp [ht, hs]
  | callback =>
    rw [(CallbackStep.frame h).2.2]
    exact hs
  | shutdown =>
    obtain ⟨ht,-⟩ | ⟨-,-,ht,-⟩ | ⟨-,-,ht,-⟩ := ShutdownStep.admission_cases h <;> simp [ht, hs]

theorem step_aborted {deps : Dependencies} (i : Thread) {s t : State}
    (h : (coordinator deps).step i s t) (hf : FreshInv s)
    (hs : s.start.stopped = true → s.stopping = true) :
    t.start.stopped = true → t.stopping = true := by
  intro ht
  cases i with
  | start =>
    cases h with
    | refuseUnlock h => exact absurd h hf.refuse
    | abortStop h => rfl
    | down t pc pc' errs h hd =>
      obtain ⟨-,hst,-⟩ := hd.frame
      simp only [hst]
      exact hs (by rw [h]; rfl)
    | downReturn t pc errs h hd =>
      obtain ⟨-,hst,-⟩ := hd.frame
      simp only [hst]
      exact hs (by rw [h]; rfl)
    | reconcile h d ha => simp at ht
    | setAdmission d isOpen h => cases d <;> simp [afterAdmission, StartPc.stopped] at ht
    | signingReady d signing h ha =>
      cases d <;> cases signing <;> simp [afterSigning, StartPc.stopped] at ht
    | readUnlock d signing confirmed h =>
      cases signing <;> cases confirmed <;> simp [afterConfirmed, StartPc.stopped] at ht
    | _ => simp_all [State.call, State.fail, StartPc.stopped]
  | callback =>
    obtain ⟨hst,-,hsp⟩ := CallbackStep.frame h
    rw [hsp]
    exact hs (hst ▸ ht)
  | shutdown =>
    obtain ⟨hst,-⟩ := ShutdownStep.frame h
    exact stopping_mono h (hs (hst ▸ ht))

theorem step_admissions {deps : Dependencies} {i : Thread} {s t : State} (hs : AdmissionInv s)
    (h : (coordinator deps).step i s t) (hst : s.stopping = true) :
    t.admissions = s.admissions ∨ t.admissions = s.admissions ++ [false] := by
  cases i with
  | start =>
    obtain ⟨-,ht,-⟩ | ⟨d,isOpen,hd,-,ht,-⟩ | ⟨-,-,-,ht⟩ | ⟨-,-,ht,-⟩ := StartStep.admission_cases h
    · exact .inl ht
    · cases isOpen with
      | false => exact .inr ht
      | true => exact absurd hd (hs.start d)
    · exact .inl ht
    · exact .inr ht
  | callback =>
    obtain ⟨ht,-,-⟩ | ⟨hopen,-,-⟩ := CallbackStep.admission_cases h
    · exact .inl ht
    · exact absurd hopen (hs.decided (.inl hst)).1
  | shutdown =>
    obtain ⟨-,ht,-⟩ | ⟨-,-,-,ht⟩ | ⟨-,-,-,ht⟩ := ShutdownStep.admission_cases h
    · exact .inl ht
    · exact .inl ht
    · exact .inr ht

def MayMove (i : Thread) (s : State) : Prop := s.mu = some i ∨ StopsOutsideOpening i s

/-- What holds in every state of a run whose stops fall outside the opening window. -/
structure ClosingInv (s : State) : Prop where
  admission : AdmissionInv s
  fresh : FreshInv s
  aborted : s.start.stopped = true → s.stopping = true

theorem closingInv_initial : ClosingInv {} :=
  ⟨admissionInv_initial,⟨by simp,by simp⟩,by simp [StartPc.stopped]⟩

theorem step_closingInv {deps : Dependencies}
    (hrec : ∀ d, deps.reconcile (some d) → d≠.eligible) (i : Thread) (s t : State)
    (hs : ClosingInv s) (h : ((coordinator deps).guarded MayMove).step i s t) : ClosingInv t := by
  obtain ⟨hok,h⟩ := h
  refine ⟨?_,step_freshInv i hs.fresh h,step_aborted i h hs.fresh hs.aborted⟩
  cases i with
  | start => exact StartStep.admissionInv hrec h hok hs.admission
  | callback => exact CallbackStep.admissionInv h hs.admission
  | shutdown => exact ShutdownStep.admissionInv h hok hs.admission

/-- Along a whole run the admission calls only grow, and by closing calls only. -/
theorem run_closedForGood {deps : Dependencies}
    (hrec : ∀ d, deps.reconcile (some d) → d≠.eligible) {s t : State} (hs : ClosingInv s)
    (hst : s.stopping = true) (h : ((coordinator deps).guarded MayMove).Reach s t) :
    t.stopping = true ∧ ∃ later, t.admissions = s.admissions ++ later ∧ true ∉ later := by
  induction h with
  | refl => exact ⟨hst,[],by simp,by simp⟩
  | tail hrun hnext ih =>
    obtain ⟨i,hi⟩ := hnext
    obtain ⟨hst',later,hadm,hno⟩ := ih
    have hinv := Threads.Reach.invariant (step_closingInv hrec) hrun hs
    refine ⟨stopping_mono hi.2 hst',?_⟩
    obtain ht | ht := step_admissions hinv.admission hi.2 hst'
    · exact ⟨later,ht.trans hadm,hno⟩
    · exact ⟨later++[false],by rw [ht,hadm,List.append_assoc],by simp [hno]⟩

theorem step_owner {deps : Dependencies} (i j : Thread) (s t : State)
    (h : (coordinator deps).step i s t) (hj : t.mu = some j) : j = i ∨ s.mu = some j := by
  cases i with
  | start =>
    cases h with
    | down t pc pc' errs h hd => exact .inr (hd.frame.1 ▸ hj)
    | downReturn t pc errs h hd => exact .inr (hd.frame.1 ▸ hj)
    | _ => simp_all [State.call, State.fail]
  | callback => cases h <;> simp_all [State.call]
  | shutdown =>
    cases h with
    | down t pc pc' errs h hd => exact .inr (hd.frame.1 ▸ hj)
    | downReturn t pc errs h hd => exact .inr (hd.frame.1 ▸ hj)
    | _ => simp_all [State.call]

/-- Once stopping has been set and admission closed, it is never opened again, and the
last call is a closing one when `Shutdown` or the failing `Start` returns: in every
interleaving where no stop takes the mutex between the callback's decision and its call. -/
theorem admission_closed_for_good (deps : Dependencies)
    (hrec : ∀ d, deps.reconcile (some d) → d≠.eligible) (s t : State)
    (hs : ((coordinator deps).coarse.guarded StopsOutsideOpening).Reach {} s)
    (ht : ((coordinator deps).coarse.guarded StopsOutsideOpening).Reach s t) :
    ClosedForGood s t ∧
      (t.shutdown = .returned ∨ t.start = .failed → t.admissions.getLast? = some false) := by
  have hfine : ∀ {a b : State},
      ((coordinator deps).coarse.guarded StopsOutsideOpening).Reach a b →
      ((coordinator deps).guarded MayMove).Reach a b := by
    intro a b h
    exact Threads.coarse_reach (fun i a h => Or.inr h) (fun i a h => Or.inl h) h
  have hinv := Threads.Reach.invariant (step_closingInv hrec) (hfine hs) closingInv_initial
  have hinv' := Threads.Reach.invariant (step_closingInv hrec) (hfine ht) hinv
  refine ⟨fun hst _ => (run_closedForGood hrec hinv hst (hfine ht)).2,?_⟩
  intro hret
  have hst : t.stopping = true := by
    obtain hret | hret := hret
    · exact hinv'.admission.stopped (by rw [hret]; rfl)
    · exact hinv'.aborted (by rw [hret]; rfl)
  have hfree := Threads.coarse_free step_owner (hs.trans ht)
    (by simp [coordinator] : ∀ j, ¬(coordinator deps).holds j {})
  obtain h | h | h := hinv'.admission.closed hst
  · exact h
  · exact absurd (hinv'.admission.mutex.shutdown.mp (by rw [h]; rfl)) (hfree .shutdown)
  · exact absurd (hinv'.admission.mutex.start.mp (by rw [h]; rfl)) (hfree .start)

/-- A coordinator whose reconciliation asks for a terminal publication. -/
def publicationDeps : Dependencies where
  signingDisabled := false
  hasSigningReady := false
  reconcile result := result = some (.terminalPublicationRequired true)
  signingReady _ := True
  provisioningReady ready := ready = true
  hasReportDrainError := false

/-- `Start` has handed its job to the publisher, which is about to call back. -/
def handedOff : State where
  lock := true
  capabilities := true
  cancel := true
  calls := [.acquireLock true, .openCapabilities true, .startPublisher true,
    .reconcile (some (.terminalPublicationRequired true)), .setAdmission false, .handoff]
  start := .handedOff
  callback := .lock

/-- The same state once `Shutdown` has left its locked region. -/
def shut (s : State) : State :=
  { s with
    stopping := true
    calls := s.calls ++ [.setAdmission false]
    shutdown := .down .setReadiness }

theorem start_outside {s : State} (h : s.start ≠ .abortLock) :
    StopsOutsideOpening .start s := by
  rintro (⟨h',-⟩ | ⟨-,h'⟩)
  · simp at h'
  · exact absurd h' h

theorem reach_handedOff :
    ((coordinator publicationDeps).coarse.guarded StopsOutsideOpening).Reach {} handedOff := by
  refine .head ⟨.start,start_outside (by simp),.more (.lock _ rfl rfl) rfl
    (.more (.enter _ rfl rfl rfl) rfl (.last (.proceed _ rfl) (fun h => by cases h)))⟩ ?_
  refine .head ⟨.start,start_outside (by simp),
    .last (.acquireLock _ rfl true) (fun h => by cases h)⟩ ?_
  refine .head ⟨.start,start_outside (by simp),
    .last (.openCapabilities _ rfl true) (fun h => by cases h)⟩ ?_
  refine .head ⟨.start,start_outside (by simp),
    .last (.startPublisher _ rfl) (fun h => by cases h)⟩ ?_
  refine .head ⟨.start,start_outside (by simp),
    .last (.reconcile _ rfl (.terminalPublicationRequired true) rfl)
      (fun h => by cases h)⟩ ?_
  refine .head ⟨.start,start_outside (by simp [afterReconcile]),
    .last (.setAdmission _ _ _ rfl) (fun h => by cases h)⟩ ?_
  exact .single ⟨.start,start_outside (by simp [afterAdmission]),
    .last (.handoff _ rfl rfl) (fun h => by cases h)⟩

theorem reach_shut {ok : Thread → State → Prop} {s : State} (hs : s.shutdown = .idle)
    (hm : s.mu = none) (hst : s.stopping = false) (hok : ok .shutdown s)
    (hok' : ok .shutdown { s with shutdown := .lock }) :
    ((coordinator publicationDeps).coarse.guarded ok).Reach s (shut s) := by
  refine .head ⟨.shutdown,hok,.last (.begin _ hs) (by simp [coordinator, hm])⟩ ?_
  refine .single ⟨.shutdown,hok',.more (.lock _ rfl hm) rfl (.more (.check _ rfl hst) rfl
    (.more (.stop _ rfl) rfl (.more (.setAdmission _ rfl) rfl ?_)))⟩
  have hshut : ({ s with
      mu := none, stopping := true, calls := s.calls ++ [.setAdmission false]
      shutdown := .down .setReadiness } : State) = shut s := by
    simp [shut, hm]
  rw [← hshut]
  exact .last (.unlock _ rfl) nofun

/-- The callback of `handedOff` has found that nothing is stopping. -/
def decided : State := { handedOff with confirmed := true, callback := .setAdmission }

/-- The callback of `decided` makes its call after `Shutdown` has closed admission. -/
def reopened : State :=
  { shut decided with
    calls := (shut decided).calls ++ [.setAdmission true], callback := .lockAgain }

/-- The callback decides to open, `Shutdown` closes admission, and the callback's call
opens it again. -/
theorem admission_reopened : ¬∀ (deps : Dependencies),
    (∀ d, deps.reconcile (some d) → d≠.eligible) → ∀ s t,
      (coordinator deps).coarse.Reach {} s → (coordinator deps).coarse.Reach s t →
      ClosedForGood s t ∧
        (t.shutdown = .returned ∨ t.start = .failed → t.admissions.getLast? = some false) := by
  intro hall
  have hdecided : (coordinator publicationDeps).coarse.Reach {} decided :=
    (Threads.guarded_reach reach_handedOff).tail ⟨.callback,.more (.lock _ rfl rfl) rfl
      (.more (.confirm _ rfl rfl rfl) rfl (.last (.confirmUnlock _ rfl) nofun))⟩
  have hclose : ((coordinator publicationDeps).coarse.guarded fun _ _ => True).Reach decided
      (shut decided) := reach_shut rfl rfl rfl trivial trivial
  have hshut := hdecided.trans (Threads.guarded_reach hclose)
  have hopen : (coordinator publicationDeps).coarse.Reach (shut decided) reopened :=
    .single ⟨.callback,.last (.setAdmission _ rfl) nofun⟩
  obtain ⟨later,hlater,hno⟩ :=
    (hall publicationDeps (by simp [publicationDeps]) _ _ hshut hopen).1 rfl (by decide)
  have h : (shut decided).admissions ++ [true] = (shut decided).admissions ++ later :=
    Eq.trans (by decide) hlater
  rw [← List.append_cancel_left h] at hno
  simp at hno

/-- The callback of `handedOff` has opened admission and comes back for the mutex. -/
def opened : State :=
  { handedOff with
    confirmed := true
    calls := handedOff.calls ++ [.setAdmission true]
    callback := .lockAgain }

/-- The callback and `Shutdown` have both returned after the stop. -/
def settled : State :=
  { shut opened with
    cancelled := true
    capabilities := false
    lock := false
    calls := (shut opened).calls ++
      [.stopIntake, .cancel, .drain, .waitPublisher, .closeCapabilities, .closeLock]
    callback := .returned
    shutdown := .returned }

theorem callback_outside (s : State) : StopsOutsideOpening .callback s := by
  simp [StopsOutsideOpening, EntersStop]

theorem shutdown_outside {s : State} (h : s.shutdown ≠ .lock) :
    StopsOutsideOpening .shutdown s := by
  simp [StopsOutsideOpening, EntersStop, h]

theorem reach_opened :
    ((coordinator publicationDeps).coarse.guarded StopsOutsideOpening).Reach {} opened := by
  refine (reach_handedOff.tail ⟨.callback,callback_outside _,.more (.lock _ rfl rfl) rfl
    (.more (.confirm _ rfl rfl rfl) rfl (.last (.confirmUnlock _ rfl) nofun))⟩).tail
      ⟨.callback,callback_outside _,.last (.setAdmission _ rfl) nofun⟩

theorem reach_settled :
    ((coordinator publicationDeps).coarse.guarded StopsOutsideOpening).Reach (shut opened)
      settled := by
  refine .head ⟨.callback,callback_outside _,.more (.lockAgain _ rfl rfl) rfl
    (.more (.leaveAgain _ rfl (.inl rfl)) rfl (.last (.leaveAgainUnlock _ rfl) nofun))⟩ ?_
  refine .head ⟨.shutdown,shutdown_outside (by simp [shut]),
    .last (.down _ _ _ _ _ rfl (.setReadiness _)) nofun⟩ ?_
  refine .head ⟨.shutdown,shutdown_outside (by simp),
    .last (.down _ _ _ _ _ rfl (.stopIntake _ true)) nofun⟩ ?_
  refine .head ⟨.shutdown,shutdown_outside (by simp),
    .last (.down _ _ _ _ _ rfl (.cancel _ rfl)) nofun⟩ ?_
  refine .head ⟨.shutdown,shutdown_outside (by simp),
    .last (.down _ _ _ _ _ rfl (.drain _)) nofun⟩ ?_
  refine .head ⟨.shutdown,shutdown_outside (by simp),
    .last (.down _ _ _ _ _ rfl (.waitPublisher _)) nofun⟩ ?_
  refine .head ⟨.shutdown,shutdown_outside (by simp),
    .last (.down _ _ _ _ _ rfl (.closeCapabilities _ rfl true)) nofun⟩ ?_
  exact .single ⟨.shutdown,shutdown_outside (by simp),
    .last (.downReturn _ _ _ _ rfl (.closeLock _ rfl true)) nofun⟩

theorem admission_closed_for_good_shut :
    ClosedForGood (shut opened) settled ∧
      (shut opened).stopping = true ∧ (shut opened).admissions = [false, true, false] ∧
      settled.callback = .returned ∧ settled.shutdown = .returned ∧
      settled.admissions.getLast? = some false := by
  have hrun : ((coordinator publicationDeps).coarse.guarded StopsOutsideOpening).Reach {}
      (shut opened) := by
    refine reach_opened.trans (reach_shut rfl rfl rfl ?_ ?_)
    · exact shutdown_outside (by simp [opened, handedOff])
    · simp [StopsOutsideOpening, Opening, opened]
  obtain ⟨hclosed,hlast⟩ :=
    admission_closed_for_good publicationDeps (by simp [publicationDeps]) _ _ hrun reach_settled
  exact ⟨hclosed,rfl,by decide,rfl,rfl,hlast (.inl rfl)⟩

end CoSigner.Lifecycle
