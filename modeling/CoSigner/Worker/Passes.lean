import CoSigner.Worker.Scheduler

/-! What the programs of the scheduler say about themselves: what a pass, a session or an
outside caller has done when it makes a step. -/
namespace CoSigner.Worker
open Monolith

/-- What is noted of a step. -/
inductive SchedulerMark (κ : Type) where
  | took (pool : Permit) (job : Job κ)
  | gave (pool : Permit) (job : Job κ) (effect : Bool)
  | reserved (id : Bytes) (job : Job κ)
  | unreserved (id : Bytes) (job : Job κ) (effect : Bool)
  | full (job : Job κ)
  | launched (kind : IntentKind) (job : Job κ)
  | began
  | ended
  | lease (job : Job κ) (kind : Option IntentKind)
  /-- The `once` of a lease is entered for the first time, and left. -/
  | entered (job : Job κ)
  | left (job : Job κ)
  | admission (isOpen : Bool)
  | setAdmission (isOpen : Bool)
  | other
  deriving DecidableEq

abbrev SchedulerLog (κ ε : Type) := List (SchedulerThread κ ε × SchedulerMark κ)

section
variable {κ ε : Type}

def schedulerMark : SchedulerEvent κ → SchedulerMark κ
  | ⟨.take pool job,true⟩ => .took pool job
  | ⟨.give pool job,effect⟩ => .gave pool job effect
  | ⟨.reserve id job,true⟩ => .reserved id job
  | ⟨.unreserve id job,effect⟩ => .unreserved id job effect
  | ⟨.observe false job,_⟩ => .full job
  | ⟨.launch kind job,_⟩ => .launched kind job
  | ⟨.begin,_⟩ => .began
  | ⟨.ended,_⟩ => .ended
  | ⟨.lease job,kind⟩ => .lease job kind
  | ⟨.enter job,true⟩ => .entered job
  | ⟨.leave job,_⟩ => .left job
  | ⟨.admissionOpen,isOpen⟩ => .admission isOpen
  | ⟨.setAdmission isOpen,_⟩ => .setAdmission isOpen
  | _ => .other

attribute [local simp] schedulerMark

/-- The job that a step of a pass is about. -/
def SchedulerMark.job : SchedulerMark κ → Option (Job κ)
  | .took _ job | .gave _ job _ | .reserved _ job | .unreserved _ job _ | .full job
  | .launched _ job => some job
  | _ => none

/-- What was noted of the steps of one program. -/
abbrev marks (own : List (SchedulerEvent κ)) : List (SchedulerMark κ) := own.map schedulerMark

/-! What the programs say about themselves. -/

/-- The job was reserved if it has an ID and holds the slots of its kind, it was not given up or
launched before, and it is the first DKG of its pass; `did` is what the pass has done. -/
structure Launching (w : Workload κ ε) (kind : IntentKind) (job : Job κ)
    (did : SchedulerMark κ → Prop) : Prop where
  classified : classifyIntentKind (w.intent job).type = some kind
  general : did (.took .general job)
  dkg : kind = .dkg → did (.took .dkg job)
  reserved : (w.intent job).intentID ≠ [] → did (.reserved (w.intent job).intentID job)
  kept : ∀ id effect, ¬did (.unreserved id job effect)
  fresh : ∀ kind', ¬did (.launched kind' job)
  once : kind = .dkg → ∀ job', ¬did (.launched .dkg job')
  admitted : kind = .dkg → did (.admission true)

/-- A pass takes a token for its job: the one of the DKG pool first, if the job is a DKG, and none
after it has given one back or up. -/
structure Taking (w : Workload κ ε) (pool : Permit) (job : Job κ) (did : SchedulerMark κ → Prop) :
    Prop where
  fresh : ¬did (.took pool job)
  kept : ∀ pool' effect, ¬did (.gave pool' job effect)
  trying : ¬did (.full job)
  dkg : pool = .dkg → classifyIntentKind (w.intent job).type = some .dkg
  guarded : pool = .general → classifyIntentKind (w.intent job).type = some .dkg →
    did (.took .dkg job)

/-- The caller of `Release` runs the session of the job or has its lease; `kind` is the lease's. -/
def Releasing (w : Workload κ ε) (τ : SchedulerThread κ ε) (kind : IntentKind) (job : Job κ)
    (did : SchedulerMark κ → Prop) : Prop :=
  (τ = .session job ∧ did .began ∧ classifyIntentKind (w.intent job).type = some kind) ∨
    did (.lease job (some kind))

/-- Where a program may be when it makes a step. -/
def schedulerPre (w : Workload κ ε) (τ : SchedulerThread κ ε) :
    SchedulerOp κ → List (SchedulerEvent κ) → Prop
  | .take pool job, own => τ = .pass job.1 ∧ Taking w pool job (· ∈ marks own)
  | .give pool job, own =>
      (τ = .pass job.1 ∧ pool = .dkg ∧ .took .dkg job ∈ marks own ∧
        .took .general job ∉ marks own) ∨
      ∃ kind, Releasing w τ kind job (· ∈ marks own) ∧ .entered job ∈ marks own ∧
        (pool = .dkg → kind = .dkg)
  | .enter job, own => ∃ kind, Releasing w τ kind job (· ∈ marks own)
  | .leave job, own => ∃ kind, Releasing w τ kind job (· ∈ marks own) ∧
      (∃ effect, .gave .general job effect ∈ marks own) ∧
      (kind = .dkg → ∃ effect, .gave .dkg job effect ∈ marks own)
  | .reserve id job, own => τ = .pass job.1 ∧ id = (w.intent job).intentID ∧
      .reserved id job ∉ marks own
  | .unreserve id job, own => id = (w.intent job).intentID ∧
      ((τ = .pass job.1 ∧ .reserved id job ∈ marks own ∧ ∀ kind, .launched kind job ∉ marks own) ∨
      (τ = .session job ∧ id ≠ [] ∧ .began ∈ marks own ∧ .ended ∈ marks own) ∨ ∃ i, τ = .outside i)
  | .observe admitted job, own => τ = .pass job.1 ∧ (admitted = false →
      ∀ pool, .took pool job ∈ marks own → ∃ effect, .gave pool job effect ∈ marks own)
  | .launch kind job, own => τ = .pass job.1 ∧ Launching w kind job (· ∈ marks own)
  | .ended, own => ∃ job, τ = .session job ∧ .began ∈ marks own
  | .begin, _ => ∃ job, τ = .session job
  | _, _ => True

abbrev schedulerDiscipline (w : Workload κ ε) (τ : SchedulerThread κ ε) :
    Discipline (SchedulerOp κ) SchedulerOp.Ans (List (SchedulerEvent κ)) :=
  Prog.tracing (fun _ _ => True) (schedulerPre w τ)

/-- A pass has not come to the index. -/
def Fresh (p : κ) (i : Nat) (own : List (SchedulerEvent κ)) : Prop :=
  ∀ m ∈ marks own, ∀ n, m.job = some (p,n) → n < i

/-- The pass has launched no DKG. -/
def DKGFree (own : List (SchedulerEvent κ)) : Prop := ∀ job, .launched .dkg job ∉ marks own

variable {w : Workload κ ε} {p : κ} {i : Nat} {own : List (SchedulerEvent κ)}

theorem Fresh.not_mem (h : Fresh p i own) {m : SchedulerMark κ} (hm : m.job = some (p,i)) :
    m ∉ marks own :=
  fun hmem => absurd (h m hmem i hm) (Nat.lt_irrefl i)

theorem Fresh.succ (h : Fresh p i own) : Fresh p (i + 1) own :=
  fun m hm n hn => Nat.lt_succ_of_lt (h m hm n hn)

theorem Fresh.append (h : Fresh p (i + 1) own) {suffix : List (SchedulerEvent κ)}
    (hs : ∀ m ∈ marks suffix, ∀ job, m.job = some job → job = (p,i)) :
    Fresh p (i + 1) (own ++ suffix) := by
  intro m hm n hn
  rw [marks, List.map_append] at hm
  cases List.mem_append.mp hm with
  | inl hm => exact h m hm n hn
  | inr hm =>
    obtain ⟨-,rfl⟩ := Prod.mk.inj (hs m hm _ hn)
    exact Nat.lt_succ_self n

theorem DKGFree.append (h : DKGFree own) {suffix : List (SchedulerEvent κ)}
    (hs : ∀ job, .launched .dkg job ∉ marks suffix) : DKGFree (own ++ suffix) := by
  intro job hm
  rw [marks, List.map_append] at hm
  cases List.mem_append.mp hm with
  | inl hm => exact h job hm
  | inr hm => exact hs job hm

/-- Steps about one job; a SIGN job launches no DKG. -/
def Tail (p : κ) (i : Nat) (kind : IntentKind) (tail : List (SchedulerEvent κ)) : Prop :=
  ∀ m ∈ marks tail, (∀ job, m.job = some job → job = (p,i)) ∧
    (kind = .sign → ∀ job, m ≠ .launched .dkg job)

theorem Tail.append {kind : IntentKind} {t u : List (SchedulerEvent κ)} (ht : Tail p i kind t)
    (hu : Tail p i kind u) : Tail p i kind (t ++ u) := by
  intro m hm
  rw [marks, List.map_append] at hm
  cases List.mem_append.mp hm with
  | inl hm => exact ht m hm
  | inr hm => exact hu m hm

theorem Tail.one {kind : IntentKind} {e : SchedulerEvent κ}
    (hjob : ∀ job, (schedulerMark e).job = some job → job = (p,i))
    (hdkg : kind = .sign → ∀ job, schedulerMark e ≠ .launched .dkg job) : Tail p i kind [e] := by
  intro m hm
  obtain rfl : m = schedulerMark e := by simpa using hm
  exact ⟨hjob,hdkg⟩

theorem passed {kind : IntentKind} (hfresh : Fresh p i own) {tail : List (SchedulerEvent κ)}
    (htail : Tail p i kind tail) :
    Fresh p (i + 1) (own ++ tail) ∧ (kind = .sign → DKGFree own → DKGFree (own ++ tail)) := by
  refine ⟨hfresh.succ.append fun m hm => (htail m hm).1,?_⟩
  intro hsign hfree
  exact hfree.append fun job hm => (htail _ hm).2 hsign job rfl

/-- What `tryAcquire` does. -/
inductive Attempt (job : Job κ) : IntentKind → Bool → List (SchedulerEvent κ) → Prop
  | sign (acquired : Bool) : Attempt job .sign acquired [⟨.take .general job,acquired⟩]
  | guarded : Attempt job .dkg false [⟨.take .dkg job,false⟩]
  | dkg : Attempt job .dkg true [⟨.take .dkg job,true⟩,⟨.take .general job,true⟩]
  | crowded (effect : Bool) : Attempt job .dkg false
      [⟨.take .dkg job,true⟩,⟨.take .general job,false⟩,⟨.give .dkg job,effect⟩]

theorem tryAcquire_meets {kind : IntentKind} (htook : ∀ pool, .took pool (p,i) ∉ marks own)
    (hgave : ∀ pool effect, .gave pool (p,i) effect ∉ marks own) (hfull : .full (p,i) ∉ marks own)
    (hkind : classifyIntentKind (w.intent (p,i)).type = some kind) :
    (tryAcquire kind (p,i)).Meets (schedulerDiscipline w (.pass p))
      (fun acquired t => ∃ suffix, t = own ++ suffix ∧ Attempt (p,i) kind acquired suffix) own := by
  cases kind with
  | sign =>
    refine Prog.Meets.perform ?_
    intro t ht _
    obtain rfl : own = t := ht
    refine ⟨⟨rfl,htook _,hgave,hfull,by simp,by simp [hkind]⟩,?_⟩
    intro (acquired : Bool) t ht _ u hu _
    exact ⟨_,hu.symm.trans ht.2,.sign acquired⟩
  | dkg =>
    refine Prog.meets_perform ⟨rfl,htook _,hgave,hfull,fun _ => hkind,by simp⟩ ?_
    intro (guarded : Bool) _
    cases guarded with
    | false => exact Prog.meets_pure ⟨_,rfl,.guarded⟩
    | true =>
      refine Prog.meets_perform ⟨rfl,by simp [schedulerMark, htook],by simp [schedulerMark, hgave],
        by simp [schedulerMark, hfull],by simp,by simp [schedulerMark]⟩ ?_
      intro (general : Bool) _
      cases general with
      | true => exact Prog.meets_pure ⟨_,by simp,.dkg⟩
      | false =>
        refine Prog.meets_perform (.inl ⟨rfl,rfl,by simp [schedulerMark],
          by simp [schedulerMark, htook]⟩) ?_
        intro (effect : Bool) _
        exact Prog.meets_pure ⟨_,by simp,.crowded effect⟩

theorem Attempt.only {job : Job κ} {kind : IntentKind} {acquired : Bool}
    {suffix : List (SchedulerEvent κ)} (h : Attempt job kind acquired suffix) :
    ∀ m ∈ marks suffix, m = .other ∨ (∃ pool, m = .took pool job) ∨
      ∃ pool effect, m = .gave pool job effect := by
  cases h with
  | sign acquired => cases acquired <;> simp [schedulerMark]
  | crowded effect => cases effect <;> simp [schedulerMark]
  | _ => simp [schedulerMark]

theorem Attempt.acquires {job : Job κ} {kind : IntentKind} {suffix : List (SchedulerEvent κ)}
    (h : Attempt job kind true suffix) : .took .general job ∈ marks suffix ∧
      (kind = .dkg → .took .dkg job ∈ marks suffix) := by
  cases h with
  | sign => simp [schedulerMark]
  | dkg => simp [schedulerMark]

theorem Attempt.restores {job : Job κ} {kind : IntentKind} {suffix : List (SchedulerEvent κ)}
    (h : Attempt job kind false suffix) (pool : Permit) (hm : .took pool job ∈ marks suffix) :
    ∃ effect, .gave pool job effect ∈ marks suffix := by
  cases h with
  | sign => simp [schedulerMark] at hm
  | guarded => simp [schedulerMark] at hm
  | crowded effect =>
    obtain rfl : pool = .dkg := by simpa [schedulerMark] using hm
    exact ⟨effect,by simp [schedulerMark]⟩

theorem admitReserved_meets {kind : IntentKind} {res : List (SchedulerEvent κ)}
    (hfresh : Fresh p i own) (hkind : classifyIntentKind (w.intent (p,i)).type = some kind)
    (hdkg : kind = .dkg → DKGFree own ∧ .admission true ∈ marks own)
    (hres : ∀ m ∈ marks res, m = .other ∨ m = .reserved (w.intent (p,i)).intentID (p,i))
    (hid : (w.intent (p,i)).intentID ≠ [] →
      .reserved (w.intent (p,i)).intentID (p,i) ∈ marks res) :
    (admitReserved kind (w.intent (p,i)).intentID (p,i)).Meets (schedulerDiscipline w (.pass p))
      (fun _ t => Fresh p (i + 1) t ∧ (kind = .sign → DKGFree own → DKGFree t)) (own ++ res) := by
  have hnew : ∀ m : SchedulerMark κ, m.job = some (p,i) → m ∉ marks own :=
    fun m => hfresh.not_mem
  have hreserving : ∀ m : SchedulerMark κ, m.job = some (p,i) →
      m ≠ .reserved (w.intent (p,i)).intentID (p,i) → m ∉ marks (own ++ res) := by
    intro m hjob hne hmem
    rw [marks, List.map_append] at hmem
    cases List.mem_append.mp hmem with
    | inl hmem => exact hnew m hjob hmem
    | inr hmem =>
      cases hres m hmem with
      | inl hother => simp [hother, SchedulerMark.job] at hjob
      | inr hreserved => exact hne hreserved
  refine Prog.meets_bind ((tryAcquire_meets (fun pool => hreserving _ rfl (by simp))
    (fun pool effect => hreserving _ rfl (by simp)) (hreserving _ rfl (by simp)) hkind).mono ?_)
  intro acquired t _ hattempt
  obtain ⟨suffix,rfl,hattempt⟩ := hattempt
  have hmarks := hattempt.only
  have htail : ∀ admitted, Tail p i kind (res ++ (suffix ++ [⟨.observe admitted (p,i),()⟩])) := by
    intro admitted
    refine Tail.append ?_ (Tail.append ?_ (.one ?_ ?_))
    · intro m hm
      obtain rfl | rfl := hres m hm <;> simp [SchedulerMark.job]
    · intro m hm
      obtain rfl | ⟨pool,rfl⟩ | ⟨pool,effect,rfl⟩ := hmarks m hm <;> simp [SchedulerMark.job]
    · cases admitted <;> simp [schedulerMark, SchedulerMark.job]
    · cases admitted <;> simp [schedulerMark]
  refine Prog.meets_perform ?_ ?_
  · refine ⟨rfl,?_⟩
    intro hfull pool hmem
    simp only [marks, List.map_append, List.mem_append] at hmem ⊢
    obtain rfl : acquired = false := hfull
    have hrestores := hattempt.restores pool
    grind [SchedulerMark.job]
  rintro ⟨⟩ _
  cases acquired with
  | true =>
    obtain ⟨hgeneral,hguard⟩ := hattempt.acquires
    refine Prog.meets_perform ⟨rfl,?_⟩ ?_
    · have hsplit : ∀ m, m ∈ marks (own ++ res ++ suffix ++ [⟨.observe true (p,i),()⟩]) ↔
          m ∈ marks own ∨ m ∈ marks res ∨ m ∈ marks suffix ∨ m = .other := by
        simp [schedulerMark]
      have hlaunched : ∀ kind' job, .launched kind' job ∈
          marks (own ++ res ++ suffix ++ [⟨.observe true (p,i),()⟩]) →
          .launched kind' job ∈ marks own := by
        intro kind' job hm
        obtain hm | hm | hm | hm := (hsplit _).mp hm
        · exact hm
        · simpa using hres _ hm
        · simpa using hmarks _ hm
        · simp at hm
      refine ⟨hkind,?_,?_,?_,?_,?_,?_,?_⟩
      · exact (hsplit _).mpr (.inr (.inr (.inl hgeneral)))
      · exact fun hdkg' => (hsplit _).mpr (.inr (.inr (.inl (hguard hdkg'))))
      · exact fun hne => (hsplit _).mpr (.inr (.inl (hid hne)))
      · intro id effect hm
        obtain hm | hm | hm | hm := (hsplit _).mp hm
        · exact hnew _ rfl hm
        · simpa using hres _ hm
        · simpa using hmarks _ hm
        · simp at hm
      · exact fun kind' hm => hnew _ rfl (hlaunched kind' _ hm)
      · exact fun hdkg' job hm => (hdkg hdkg').1 job (hlaunched _ job hm)
      · exact fun hdkg' => (hsplit _).mpr (.inl (hdkg hdkg').2)
    rintro ⟨⟩ _
    refine Prog.Meets.perform ?_
    intro t ht _
    obtain rfl := ht
    refine ⟨trivial,?_⟩
    intro (goes : Bool) t ht _ u hu _
    obtain rfl : t = u := hu
    obtain rfl := ht.2
    have hpassed := passed hfresh ((htail true).append
      (Tail.append (.one (e := ⟨.launch kind (p,i),()⟩) (by simp [schedulerMark, SchedulerMark.job])
        (by rintro rfl; simp [schedulerMark]))
        (.one (e := ⟨.waitForClaimDispatch,goes⟩) (by simp [schedulerMark, SchedulerMark.job])
          (by simp [schedulerMark]))))
    simpa only [List.append_assoc] using hpassed
  | false =>
    show Prog.Meets _ (releaseIntent _ _ >>= fun _ => pure true) _ _
    refine Prog.meets_bind ?_
    unfold releaseIntent
    split
    · refine Prog.meets_pure (Prog.meets_pure ?_)
      simpa only [List.append_assoc] using passed hfresh (htail false)
    · rename_i hne
      refine Prog.meets_perform ⟨rfl,.inl ⟨rfl,?_,?_⟩⟩ ?_
      · simp only [marks, List.map_append, List.mem_append]
        grind
      · intro kind'
        simp only [marks, List.map_append, List.mem_append]
        grind [SchedulerMark.job, schedulerMark]
      intro (first : Bool) _
      refine Prog.meets_pure (Prog.meets_pure ?_)
      have hpassed := passed hfresh ((htail false).append
        (.one (e := ⟨.unreserve (w.intent (p,i)).intentID (p,i),first⟩)
          (by simp [schedulerMark, SchedulerMark.job]) (by simp [schedulerMark])))
      simpa only [List.append_assoc] using hpassed

theorem reserveIntentID_meets {id : Bytes} (hid : id = (w.intent (p,i)).intentID)
    (hfresh : Fresh p i own) :
    (reserveIntentID id (p,i)).Meets (schedulerDiscipline w (.pass p))
      (fun reserved t => ∃ res, t = own ++ res ∧
        (∀ m ∈ marks res, m = .other ∨ m = .reserved id (p,i)) ∧
        (reserved = true → id ≠ [] → .reserved id (p,i) ∈ marks res)) own := by
  by_cases hnil : id = []
  · rw [show reserveIntentID id (p,i) = pure true from if_pos hnil]
    exact Prog.meets_pure ⟨[],by simp,by simp,fun _ hne => absurd hnil hne⟩
  · rw [show reserveIntentID id (p,i) = ask (.reserve id (p,i)) from if_neg hnil]
    refine Prog.Meets.perform ?_
    intro t ht _
    obtain rfl : own = t := ht
    refine ⟨⟨rfl,hid,hfresh.not_mem rfl⟩,?_⟩
    intro (free : Bool) t ht _ u hu _
    refine ⟨_,hu.symm.trans ht.2,?_,?_⟩ <;> cases free <;> simp [schedulerMark]

theorem admitJob_meets {kind : IntentKind} (hfresh : Fresh p i own)
    (hkind : classifyIntentKind (w.intent (p,i)).type = some kind)
    (hdkg : kind = .dkg → DKGFree own ∧ .admission true ∈ marks own) :
    (admitJob kind (w.intent (p,i)).intentID (p,i)).Meets (schedulerDiscipline w (.pass p))
      (fun _ t => Fresh p (i + 1) t ∧ (kind = .sign → DKGFree own → DKGFree t)) own := by
  refine Prog.meets_bind ((reserveIntentID_meets rfl hfresh).mono ?_)
  intro reserved t _ hreserve
  obtain ⟨res,rfl,hres,hid⟩ := hreserve
  cases reserved with
  | true => exact admitReserved_meets hfresh hkind hdkg hres (hid rfl)
  | false =>
    refine Prog.meets_pure (passed hfresh ?_)
    intro m hm
    obtain rfl | rfl := hres m hm <;> simp [SchedulerMark.job]

theorem considerJob_meets {dkgConsidered : Bool} (hfresh : Fresh p i own)
    (hfree : dkgConsidered = false → DKGFree own) :
    (considerJob w.cfg (w.intent (p,i)) (p,i) dkgConsidered).Meets
      (schedulerDiscipline w (.pass p))
      (fun r t => Fresh p (i + 1) t ∧ (r.2 = false → DKGFree t)) own := by
  unfold considerJob
  cases hkind : classifyIntentKind (w.intent (p,i)).type with
  | none => exact Prog.meets_pure ⟨hfresh.succ,hfree⟩
  | some kind =>
    cases kind with
    | sign =>
      show Prog.Meets _ (if w.cfg.signingDisabled = true then _ else _) _ _
      split
      · exact Prog.meets_pure ⟨hfresh.succ,hfree⟩
      · refine Prog.meets_bind ((admitJob_meets hfresh hkind (by simp)).mono ?_)
        intro goes t _ ht
        exact Prog.meets_pure ⟨ht.1,fun hc => ht.2 rfl (hfree hc)⟩
    | dkg =>
      cases dkgConsidered with
      | true => exact Prog.meets_pure ⟨hfresh.succ,by simp⟩
      | false =>
        have hpassed : ∀ tail : List (SchedulerEvent κ), (∀ m ∈ marks tail, m.job = none) →
            Fresh p i (own ++ tail) := by
          intro tail htail m hm n hn
          rw [marks, List.map_append] at hm
          cases List.mem_append.mp hm with
          | inl hm => exact hfresh m hm n hn
          | inr hm => simp [htail m hm] at hn
        refine Prog.meets_perform trivial ?_
        intro (isOpen : Bool) _
        cases isOpen with
        | false =>
          exact Prog.meets_pure ⟨(hpassed _ (by simp [schedulerMark, SchedulerMark.job])).succ,
            by simp⟩
        | true =>
          refine Prog.meets_perform trivial ?_
          intro (ready : Bool) _
          cases ready with
          | false =>
            refine Prog.meets_pure ⟨?_,by simp⟩
            rw [List.append_assoc]
            exact (hpassed _ (by simp [schedulerMark, SchedulerMark.job])).succ
          | true =>
            have hnow : Fresh p i (own ++ [⟨.admissionOpen,true⟩] ++
                [⟨.provisioningReady,true⟩]) := by
              rw [List.append_assoc]
              exact hpassed _ (by simp [schedulerMark, SchedulerMark.job])
            refine Prog.meets_bind ((admitJob_meets hnow hkind ?_).mono ?_)
            · intro _
              refine ⟨?_,by simp [schedulerMark]⟩
              rw [List.append_assoc]
              exact (hfree rfl).append (by simp [schedulerMark])
            · intro goes t _ ht
              exact Prog.meets_pure ⟨ht.1,by simp⟩

theorem dispatchFrom_meets (intents : List Intent) {dkgConsidered : Bool}
    (hintents : ∀ n, intents.getD n {} = w.intent (p,i + n)) (hfresh : Fresh p i own)
    (hfree : dkgConsidered = false → DKGFree own) :
    (dispatchFrom w.cfg p intents i dkgConsidered).Meets (schedulerDiscipline w (.pass p))
      (fun _ _ => True) own := by
  induction intents generalizing i dkgConsidered own with
  | nil => exact Prog.meets_pure trivial
  | cons intent intents ih =>
    refine Prog.meets_perform trivial ?_
    intro (done : Bool) _
    cases done with
    | true => exact Prog.meets_pure trivial
    | false =>
      obtain rfl : intent = w.intent (p,i) := by simpa using hintents 0
      have hnow : Fresh p i (own ++ [⟨.ctxErr,false⟩]) := by
        intro m hm n hn
        simp only [marks, List.map_append, List.map_cons, List.map_nil, List.mem_append,
          List.mem_singleton] at hm
        cases hm with
        | inl hm => exact hfresh m hm n hn
        | inr hm => simp [hm, schedulerMark, SchedulerMark.job] at hn
      refine Prog.meets_bind ((considerJob_meets hnow fun hc => (hfree hc).append ?_).mono ?_)
      · simp [schedulerMark]
      · intro r t _ ht
        obtain ⟨goes,considered⟩ := r
        cases goes with
        | false => exact Prog.meets_pure trivial
        | true =>
          refine ih ?_ ht.1 ht.2
          intro n
          have hn := hintents (n + 1)
          rw [List.getD_cons_succ] at hn
          rw [hn, Nat.add_assoc, Nat.add_comm 1 n]

/-- Nothing of what was noted is lost. -/
def Later (own t : List (SchedulerEvent κ)) : Prop := ∀ m ∈ marks own, m ∈ marks t

theorem Later.snoc {t : List (SchedulerEvent κ)} (h : Later own t) (e : SchedulerEvent κ) :
    Later own (t ++ [e]) := by
  intro m hm
  rw [marks, List.map_append]
  exact List.mem_append_left _ (h m hm)

theorem Later.refl (own : List (SchedulerEvent κ)) : Later own own := fun _ hm => hm

theorem Later.trans {t u : List (SchedulerEvent κ)} (h : Later own t) (h' : Later t u) :
    Later own u :=
  fun m hm => h' m (h m hm)

section
variable {τ : SchedulerThread κ ε} {kind : IntentKind} {job : Job κ}

theorem Releasing.mono {did did' : SchedulerMark κ → Prop} (h : Releasing w τ kind job did)
    (hd : ∀ m, did m → did' m) : Releasing w τ kind job did' :=
  h.imp (fun h => ⟨h.1,hd _ h.2.1,h.2.2⟩) (hd _)

theorem releaseLease_meets (hcaller : Releasing w τ kind job (· ∈ marks own)) :
    (releaseLease kind job).Meets (schedulerDiscipline w τ) (fun _ t => Later own t) own := by
  refine Prog.meets_perform ⟨kind,hcaller⟩ ?_
  intro (first : Bool) _
  have hstart := (Later.refl own).snoc ⟨.enter job,first⟩
  cases first with
  | false => exact Prog.meets_pure hstart
  | true =>
    have hcalled := hcaller.mono hstart
    refine Prog.meets_perform (.inr ⟨kind,hcalled,by simp [schedulerMark],by simp⟩) ?_
    intro (effect : Bool) _
    have hgeneral := hstart.snoc ⟨.give .general job,effect⟩
    cases kind with
    | sign =>
      refine Prog.meets_perform ⟨.sign,hcaller.mono hgeneral,⟨effect,by simp [schedulerMark]⟩,
        by simp⟩ ?_
      intro _ _
      exact Prog.meets_pure (hgeneral.snoc _)
    | dkg =>
      refine Prog.meets_perform (.inr ⟨.dkg,hcaller.mono hgeneral,by simp [schedulerMark],
        fun _ => rfl⟩) ?_
      intro (effect' : Bool) _
      have hdkg := hgeneral.snoc ⟨.give .dkg job,effect'⟩
      refine Prog.meets_perform ⟨.dkg,hcaller.mono hdkg,⟨effect,by simp [schedulerMark]⟩,
        fun _ => ⟨effect',by simp [schedulerMark]⟩⟩ ?_
      intro _ _
      exact Prog.meets_pure (hdkg.snoc _)

theorem runSession_meets (turns : Nat) (hcaller : Releasing w τ kind job (· ∈ marks own)) :
    (runSession kind job turns).Meets (schedulerDiscipline w τ) (fun _ t => Later own t) own := by
  induction turns generalizing own with
  | zero => trivial
  | succ turns ih =>
    refine Prog.meets_perform trivial ?_
    intro (releases : Bool) _
    have hstart := (Later.refl own).snoc ⟨.work,releases⟩
    have hlease := releaseLease_meets (hcaller.mono hstart)
    cases releases with
    | false => exact hlease.mono fun _ t _ ht => hstart.trans ht
    | true =>
      refine Prog.meets_bind (hlease.mono ?_)
      intro _ t _ ht
      refine (ih (hcaller.mono (hstart.trans ht))).mono ?_
      intro _ u _ hu
      exact (hstart.trans ht).trans hu

end

theorem releaseIntent_meets {τ : SchedulerThread κ ε} {id : Bytes} {job : Job κ}
    (hpre : id ≠ [] → schedulerPre w τ (.unreserve id job) own) :
    (releaseIntent id job).Meets (schedulerDiscipline w τ) (fun _ _ => True) own := by
  unfold releaseIntent
  split
  · exact Prog.meets_pure trivial
  · rename_i hid
    refine Prog.meets_perform (hpre hid) ?_
    intro _ _
    exact Prog.meets_pure trivial

theorem launchSession_meets {kind : IntentKind} {job : Job κ} (turns : Nat)
    (hkind : classifyIntentKind (w.intent job).type = some kind) :
    (launchSession kind (w.intent job).intentID job turns).Meets
      (schedulerDiscipline w (.session job)) (fun _ _ => True) [] := by
  refine Prog.meets_perform ⟨job,rfl⟩ ?_
  intro _ _
  refine Prog.meets_bind ((runSession_meets turns ?_).mono ?_)
  · exact .inl ⟨rfl,by simp [schedulerMark],hkind⟩
  · intro _ t _ ht
    have hbegan : .began ∈ marks t := ht _ (by simp [schedulerMark])
    refine Prog.meets_perform ⟨job,rfl,hbegan⟩ ?_
    intro _ _
    refine releaseIntent_meets ?_
    intro hid
    refine ⟨rfl,.inr (.inl ⟨rfl,hid,?_,?_⟩)⟩
    · exact (Later.refl t).snoc _ _ hbegan
    · simp [schedulerMark]

theorem scheduler_meets (τ : SchedulerThread κ ε) :
    (schedulerBody w τ).Meets (schedulerDiscipline w τ) (fun _ _ => True) [] := by
  cases τ with
  | pass p =>
    refine dispatchFrom_meets (w.passes p) ?_ (by simp [Fresh]) (by simp [DKGFree])
    intro n
    rw [Workload.intent, Nat.zero_add]
  | session job =>
    dsimp only [schedulerBody]
    cases hkind : classifyIntentKind (w.intent job).type with
    | none => exact Prog.meets_pure trivial
    | some kind => exact launchSession_meets _ hkind
  | outside i =>
    show Prog.Meets _ (outsideBody w (w.outside i)) _ _
    cases w.outside i with
    | release job =>
      refine Prog.meets_perform trivial ?_
      intro (lease : Option IntentKind) _
      cases lease with
      | none => exact Prog.meets_pure trivial
      | some kind =>
        refine (releaseLease_meets (.inr ?_)).mono fun _ _ _ _ => trivial
        simp [schedulerMark]
    | releaseIntent job =>
      exact releaseIntent_meets fun _ => ⟨rfl,.inr (.inr ⟨i,rfl⟩)⟩
    | setAdmission isOpen =>
      refine Prog.meets_perform trivial ?_
      intro _ _
      exact Prog.meets_pure trivial

end

end CoSigner.Worker
