import CoSigner.Worker.Passes
import Mathlib.Data.List.Perm.Subperm

/-! What permits and reservations guarantee over every run of the scheduler: slots are held by
live leases, intent IDs by live reservations, and nobody frees what another holds. -/
namespace CoSigner.Worker
open Monolith

section
variable {κ ε : Type}

/-- Whether DKG admission is open after the steps. -/
def admissionAfter (isOpen : Bool) : SchedulerThread κ ε × SchedulerMark κ → Bool
  | (_,.setAdmission b) => b
  | _ => isOpen

def admission (l : SchedulerLog κ ε) : Bool := l.foldl admissionAfter false

/-- The launch of a DKG by a pass. -/
def launchesDKG : SchedulerThread κ ε × SchedulerMark κ → Bool
  | (_,.launched .dkg _) => true
  | _ => false

end

section
variable {κ ε : Type} [DecidableEq κ] {w : Workload κ ε}

def poolChange (pool : Permit) :
    SchedulerThread κ ε × SchedulerMark κ → Option (Job κ × Bool)
  | (_,.took p job) => if p = pool then some (job,true) else none
  | (_,.gave p job true) => if p = pool then some (job,false) else none
  | _ => none

/-- The jobs whose tokens of the pool are out. -/
def holders (pool : Permit) (l : SchedulerLog κ ε) : List (Job κ) :=
  Holding.held (poolChange pool) l

/-- An acquisition succeeds with its general token, the last one that it takes; the lease is
released when its `once` is entered. -/
def leaseChange : SchedulerThread κ ε × SchedulerMark κ → Option (Job κ × Bool)
  | (_,.took .general job) => some (job,true)
  | (_,.entered job) => some (job,false)
  | _ => none

/-- The leases that were acquired and not released. -/
def leases (l : SchedulerLog κ ε) : List (Job κ) := Holding.held leaseChange l

/-- The live leases of the jobs that need a slot of the pool. -/
def live (w : Workload κ ε) (pool : Permit) (l : SchedulerLog κ ε) : List (Job κ) :=
  (leases l).filter fun job =>
    pool = .general || classifyIntentKind (w.intent job).type == some .dkg

/-- No acquisition and no `Release` is half done. -/
def settled [DecidableEq ε] (l : SchedulerLog κ ε) : Bool :=
  l.all fun
    | (τ,.took .dkg job) => decide ((τ,.took .general job) ∈ l ∨ (τ,.full job) ∈ l)
    | (τ,.entered job) => decide ((τ,.left job) ∈ l)
    | _ => true

def reservationChange :
    SchedulerThread κ ε × SchedulerMark κ → Option ((Bytes × Job κ) × Bool)
  | (_,.reserved id job) => some ((id,job),true)
  | (_,.unreserved id job true) => some ((id,job),false)
  | _ => none

/-- The reservations that hold an intent ID. -/
def reservations (l : SchedulerLog κ ε) : List (Bytes × Job κ) := Holding.held reservationChange l

def sessionChange : SchedulerThread κ ε × SchedulerMark κ → Option (Job κ × Bool)
  | (_,.launched _ job) => some (job,true)
  | (.session job,.ended) => some (job,false)
  | _ => none

/-- The sessions that were launched and have not ended. -/
def sessions (l : SchedulerLog κ ε) : List (Job κ) := Holding.held sessionChange l

/-- Everything that a step can be. -/
inductive SchedulerStep (cfg : SchedulerConfig) (τ : SchedulerThread κ ε) :
    SchedulerMark κ → SchedulerState κ → SchedulerState κ → Prop
  | took {s : SchedulerState κ} (pool : Permit) (job : Job κ)
      (hroom : s.slots pool < cfg.capacity pool) :
      SchedulerStep cfg τ (.took pool job) s (s.takeSlot pool)
  | gave {s : SchedulerState κ} (pool : Permit) (job : Job κ) (hheld : s.returned pool job = false) :
      SchedulerStep cfg τ (.gave pool job true) s (s.giveSlot pool job)
  | returned {s : SchedulerState κ} (pool : Permit) (job : Job κ)
      (hreturned : s.returned pool job = true) : SchedulerStep cfg τ (.gave pool job false) s s
  | reserved {s : SchedulerState κ} (id : Bytes) (job : Job κ)
      (hfree : s.inFlightIntentIDs id = false) :
      SchedulerStep cfg τ (.reserved id job) s (s.reserveID id)
  | unreserved {s : SchedulerState κ} (id : Bytes) (job : Job κ)
      (hheld : s.unreserved job = false) (howner : ∀ i, τ ≠ .outside i) :
      SchedulerStep cfg τ (.unreserved id job true) s (s.unreserveID id job)
  | released {s : SchedulerState κ} (id : Bytes) (job : Job κ)
      (hreleased : s.unreserved job = true) : SchedulerStep cfg τ (.unreserved id job false) s s
  | launched {s : SchedulerState κ} (kind : IntentKind) (job : Job κ) :
      SchedulerStep cfg τ (.launched kind job) s
        { s with leases := Function.update s.leases job (some kind) }
  | began {s : SchedulerState κ} (job : Job κ) (hsession : τ = .session job)
      (hlease : (s.leases job).isSome) : SchedulerStep cfg τ .began s s
  | lease {s : SchedulerState κ} (job : Job κ) :
      SchedulerStep cfg τ (.lease job (s.leases job)) s s
  | admission {s : SchedulerState κ} :
      SchedulerStep cfg τ (.admission s.dkgAdmissionOpen) s s
  | setAdmission {s : SchedulerState κ} (isOpen : Bool) :
      SchedulerStep cfg τ (.setAdmission isOpen) s { s with dkgAdmissionOpen := isOpen }
  | entered {s : SchedulerState κ} (job : Job κ) (leaseOnce : Job κ → OnceState) :
      SchedulerStep cfg τ (.entered job) s { s with leaseOnce := leaseOnce }
  | left {s : SchedulerState κ} (job : Job κ) (leaseOnce : Job κ → OnceState) :
      SchedulerStep cfg τ (.left job) s { s with leaseOnce := leaseOnce }
  | full {s : SchedulerState κ} (job : Job κ) : SchedulerStep cfg τ (.full job) s s
  | ended {s : SchedulerState κ} : SchedulerStep cfg τ .ended s s
  | other {s : SchedulerState κ} : SchedulerStep cfg τ .other s s

theorem schedulerSem_step {cfg : SchedulerConfig} {τ : SchedulerThread κ ε} {o : SchedulerOp κ}
    {s t : SchedulerState κ} {r : o.Ans} (h : schedulerSem cfg τ o s r t) :
    SchedulerStep cfg τ (schedulerMark ⟨o,r⟩) s t := by
  cases o with
  | take pool job =>
    obtain ⟨rfl,rfl⟩ := h
    by_cases hroom : s.slots pool < cfg.capacity pool
    · rw [if_pos hroom, decide_eq_true hroom]
      exact .took pool job hroom
    · rw [if_neg hroom, decide_eq_false hroom]
      exact .other
  | give pool job =>
    obtain ⟨rfl,ht⟩ := h
    cases hreturned : s.returned pool job with
    | true =>
      rw [hreturned] at ht
      obtain rfl : t = s := ht
      exact .returned pool job hreturned
    | false =>
      rw [hreturned] at ht
      obtain ⟨-,rfl⟩ : 0 < s.slots pool ∧ t = s.giveSlot pool job := ht
      exact .gave pool job hreturned
  | reserve id job =>
    obtain ⟨rfl,rfl⟩ := h
    cases hfree : s.inFlightIntentIDs id with
    | true => exact .other
    | false => exact .reserved id job hfree
  | unreserve id job =>
    obtain ⟨howner,rfl,rfl⟩ := h
    cases hreleased : s.unreserved job with
    | true => exact .released id job hreleased
    | false =>
      refine .unreserved id job hreleased ?_
      rintro i rfl
      have hdone : s.unreserved job = true := howner
      rw [hreleased] at hdone
      cases hdone
  | observe admitted job =>
    obtain rfl := h
    cases admitted with
    | true => exact .other
    | false => exact .full job
  | launch kind job =>
    obtain rfl := h
    exact .launched kind job
  | begin =>
    obtain ⟨⟨job,hsession,hlease⟩,rfl⟩ := h
    exact .began job hsession hlease
  | ended =>
    obtain rfl := h
    exact .ended
  | enter job =>
    obtain ⟨-,rfl,rfl⟩ := h
    by_cases hfresh : s.leaseOnce job = .fresh
    · rw [if_pos hfresh, decide_eq_true hfresh]
      exact .entered job _
    · rw [if_neg hfresh, decide_eq_false hfresh]
      exact .other
  | leave job =>
    obtain rfl := h
    exact .left job _
  | lease job =>
    obtain ⟨rfl,rfl⟩ := h
    exact .lease job
  | admissionOpen =>
    obtain ⟨rfl,rfl⟩ := h
    exact .admission
  | setAdmission isOpen =>
    obtain rfl := h
    exact .setAdmission isOpen
  | ctxErr => exact h ▸ .other
  | provisioningReady => exact h ▸ .other
  | waitForClaimDispatch => exact h ▸ .other
  | work => exact h ▸ .other

theorem scheduler_disciplined :
    (scheduler w).Disciplined (fun _ _ => True) (schedulerPre w) (fun _ _ _ => True) :=
  ⟨fun _ _ _ _ _ _ => trivial,scheduler_meets⟩

/-- What the programs say of the moment of a step. -/
def SchedulerPlaced (w : Workload κ ε) (l : SchedulerLog κ ε) (τ : SchedulerThread κ ε) :
    SchedulerMark κ → Prop
  | .took pool job => τ = .pass job.1 ∧ Taking w pool job fun m => (τ,m) ∈ l
  | .gave pool job _ =>
      (τ = .pass job.1 ∧ pool = .dkg ∧ (τ,.took .dkg job) ∈ l ∧ (τ,.took .general job) ∉ l) ∨
      ∃ kind, (Releasing w τ kind job fun m => (τ,m) ∈ l) ∧ (τ,.entered job) ∈ l ∧
        (pool = .dkg → kind = .dkg)
  | .entered job => ∃ kind, Releasing w τ kind job fun m => (τ,m) ∈ l
  | .left job => ∃ kind, (Releasing w τ kind job fun m => (τ,m) ∈ l) ∧
      (∃ effect, (τ,.gave .general job effect) ∈ l) ∧
      (kind = .dkg → ∃ effect, (τ,.gave .dkg job effect) ∈ l)
  | .reserved id job => τ = .pass job.1 ∧ id = (w.intent job).intentID ∧ (τ,.reserved id job) ∉ l
  | .unreserved id job _ => id = (w.intent job).intentID ∧
      ((τ = .pass job.1 ∧ (τ,.reserved id job) ∈ l ∧ ∀ kind, (τ,.launched kind job) ∉ l) ∨
      (τ = .session job ∧ id ≠ [] ∧ (τ,.began) ∈ l ∧ (τ,.ended) ∈ l) ∨ ∃ i, τ = .outside i)
  | .full job => τ = .pass job.1 ∧
      ∀ pool, (τ,.took pool job) ∈ l → ∃ effect, (τ,.gave pool job effect) ∈ l
  | .launched kind job => τ = .pass job.1 ∧ Launching w kind job fun m => (τ,m) ∈ l
  | .ended => ∃ job, τ = .session job ∧ (τ,.began) ∈ l
  | _ => True

/-- The slots of a pool are those of the tokens that are out. -/
structure PoolKnown (cfg : SchedulerConfig) (pool : Permit) (l : SchedulerLog κ ε)
    (s : SchedulerState κ) : Prop where
  slots : s.slots pool = (holders pool l).length
  bounded : s.slots pool ≤ cfg.capacity pool
  nodup : (holders pool l).Nodup
  held : ∀ job, job ∈ holders pool l ↔ (.pass job.1,.took pool job) ∈ l ∧
    s.returned pool job = false

section
variable {l : SchedulerLog κ ε} {s t : SchedulerState κ} {τ : SchedulerThread κ ε}
  {m : SchedulerMark κ} {pool : Permit} {job : Job κ}

theorem PoolKnown.same (hs : PoolKnown w.cfg pool l s) (hchange : poolChange pool (τ,m) = none)
    (htook : ∀ job, m ≠ .took pool job) (hslots : t.slots pool = s.slots pool)
    (hreturned : t.returned pool = s.returned pool) : PoolKnown w.cfg pool (l ++ [(τ,m)]) t := by
  obtain ⟨hcount,hbounded,hnodup,hheld⟩ := hs
  have hholders : holders pool (l ++ [(τ,m)]) = holders pool l := Holding.held_none hchange l
  refine ⟨by rw [hslots, hholders, hcount],by rw [hslots]; exact hbounded,
    by rw [hholders]; exact hnodup,?_⟩
  intro job
  rw [hholders, hreturned, hheld]
  simp [Ne.symm (htook job)]

theorem PoolKnown.take (hs : PoolKnown w.cfg pool l s) (hroom : s.slots pool < w.cfg.capacity pool)
    (hfresh : (.pass job.1,.took pool job) ∉ l) (hheld : s.returned pool job = false) :
    PoolKnown w.cfg pool (l ++ [(.pass job.1,.took pool job)]) (s.takeSlot pool) := by
  have hholders : holders pool (l ++ [(.pass job.1,.took pool job)]) = job :: holders pool l :=
    Holding.held_take (by simp [poolChange]) l
  have hslots : (s.takeSlot pool).slots pool = s.slots pool + 1 := by
    simp [SchedulerState.takeSlot]
  have hnew : job ∉ holders pool l := fun hm => hfresh ((hs.held job).mp hm).1
  refine ⟨by rw [hslots, hholders, List.length_cons, hs.slots],hslots ▸ hroom,
    hholders ▸ List.nodup_cons.mpr ⟨hnew,hs.nodup⟩,?_⟩
  intro job'
  rw [hholders, List.mem_cons, hs.held]
  by_cases hjob : job' = job
  · obtain rfl := hjob
    exact iff_of_true (.inl rfl) ⟨by simp,hheld⟩
  · simp [hjob, SchedulerState.takeSlot]

theorem PoolKnown.give (hs : PoolKnown w.cfg pool l s) (htook : (.pass job.1,.took pool job) ∈ l)
    (hheld : s.returned pool job = false) :
    PoolKnown w.cfg pool (l ++ [(τ,.gave pool job true)]) (s.giveSlot pool job) := by
  have hholders : holders pool (l ++ [(τ,.gave pool job true)]) = (holders pool l).filter (· ≠ job) :=
    Holding.held_give (by simp [poolChange]) l
  have hslots : (s.giveSlot pool job).slots pool = s.slots pool - 1 := by
    simp [SchedulerState.giveSlot]
  have hmem : job ∈ holders pool l := (hs.held job).mpr ⟨htook,hheld⟩
  refine ⟨by rw [hslots, hholders, Holding.length_give hs.nodup hmem, hs.slots],?_,
    hholders ▸ hs.nodup.filter _,?_⟩
  · rw [hslots]
    exact Nat.le_trans (Nat.sub_le _ _) hs.bounded
  · intro job'
    rw [hholders, List.mem_filter, hs.held]
    by_cases hjob : job' = job
    · simp [hjob, SchedulerState.giveSlot]
    · simp [hjob, SchedulerState.giveSlot]

end

/-- The intent IDs in flight are those of the live reservations. -/
structure ReservationKnown (l : SchedulerLog κ ε) (s : SchedulerState κ) : Prop where
  held : ∀ id job, (id,job) ∈ reservations l ↔ (.pass job.1,.reserved id job) ∈ l ∧
    s.unreserved job = false
  inFlight : ∀ id, s.inFlightIntentIDs id = true ↔ ∃ job, (id,job) ∈ reservations l
  unique : ∀ id job job', (id,job) ∈ reservations l → (id,job') ∈ reservations l → job = job'

section
variable {l : SchedulerLog κ ε} {s t : SchedulerState κ} {τ : SchedulerThread κ ε}
  {m : SchedulerMark κ} {id : Bytes} {job : Job κ}

theorem ReservationKnown.same (hs : ReservationKnown l s)
    (hchange : reservationChange (τ,m) = none) (hreserved : ∀ id job, m ≠ .reserved id job)
    (hinFlight : t.inFlightIntentIDs = s.inFlightIntentIDs)
    (hunreserved : t.unreserved = s.unreserved) : ReservationKnown (l ++ [(τ,m)]) t := by
  obtain ⟨hheld,hids,hunique⟩ := hs
  have hsame : reservations (l ++ [(τ,m)]) = reservations l := Holding.held_none hchange l
  refine ⟨?_,by rw [hsame, hinFlight]; exact hids,by rw [hsame]; exact hunique⟩
  intro id job
  rw [hsame, hunreserved, hheld]
  simp [Ne.symm (hreserved id job)]

theorem ReservationKnown.reserve (hs : ReservationKnown l s)
    (hfree : s.inFlightIntentIDs id = false) (hheld : s.unreserved job = false) :
    ReservationKnown (l ++ [(.pass job.1,.reserved id job)]) (s.reserveID id) := by
  have hnew : reservations (l ++ [(.pass job.1,.reserved id job)]) = (id,job) :: reservations l :=
    Holding.held_take (by simp [reservationChange]) l
  have hnone : ∀ job', (id,job') ∉ reservations l := by
    intro job' hm
    have hid := (hs.inFlight id).mpr ⟨job',hm⟩
    rw [hfree] at hid
    cases hid
  refine ⟨?_,?_,?_⟩
  · intro id' job'
    rw [hnew, List.mem_cons, hs.held]
    by_cases hsame : (id',job') = (id,job)
    · obtain ⟨rfl,rfl⟩ := Prod.mk.inj hsame
      exact iff_of_true (.inl rfl) ⟨by simp,hheld⟩
    · have hmark : (SchedulerThread.pass job'.1,SchedulerMark.reserved id' job') ≠
          ((.pass job.1,.reserved id job) : SchedulerThread κ ε × SchedulerMark κ) := by
        intro heq
        simp only [Prod.mk.injEq, SchedulerMark.reserved.injEq] at heq
        exact hsame (Prod.ext heq.2.1 heq.2.2)
      simp only [hsame, false_or, List.mem_append, List.mem_singleton, hmark, or_false]
      rfl
  · intro id'
    rw [hnew]
    by_cases hid : id' = id
    · exact iff_of_true (by simp [SchedulerState.reserveID, hid]) ⟨job,by simp [hid]⟩
    · simp only [SchedulerState.reserveID, Function.update_of_ne hid, hs.inFlight, List.mem_cons,
        Prod.mk.injEq, hid, false_and, false_or]
  · intro id' job₁ job₂ h₁ h₂
    rw [hnew, List.mem_cons] at h₁ h₂
    cases h₁ with
    | inl h₁ =>
      obtain ⟨rfl,rfl⟩ := Prod.mk.inj h₁
      cases h₂ with
      | inl h₂ => exact (Prod.mk.inj h₂).2.symm
      | inr h₂ => exact absurd h₂ (hnone job₂)
    | inr h₁ =>
      cases h₂ with
      | inl h₂ =>
        obtain ⟨rfl,rfl⟩ := Prod.mk.inj h₂
        exact absurd h₁ (hnone job₁)
      | inr h₂ => exact hs.unique id' job₁ job₂ h₁ h₂

theorem ReservationKnown.unreserve (hs : ReservationKnown l s)
    (hreserved : (.pass job.1,.reserved id job) ∈ l) (hheld : s.unreserved job = false)
    (honly : ∀ id', (.pass job.1,.reserved id' job) ∈ l → id' = id) :
    ReservationKnown (l ++ [(τ,.unreserved id job true)]) (s.unreserveID id job) := by
  have hnew : reservations (l ++ [(τ,.unreserved id job true)]) =
      (reservations l).filter (· ≠ (id,job)) :=
    Holding.held_give (by simp [reservationChange]) l
  have hmem : (id,job) ∈ reservations l := (hs.held id job).mpr ⟨hreserved,hheld⟩
  refine ⟨?_,?_,?_⟩
  · intro id' job'
    rw [hnew, List.mem_filter, hs.held]
    by_cases hjob : job' = job
    · obtain rfl := hjob
      refine iff_of_false ?_ (by simp [SchedulerState.unreserveID])
      intro hm
      obtain rfl := honly id' hm.1.1
      simp at hm
    · simp [SchedulerState.unreserveID, hjob]
  · intro id'
    rw [hnew]
    by_cases hid : id' = id
    · obtain rfl := hid
      refine iff_of_false (by simp [SchedulerState.unreserveID]) ?_
      rintro ⟨job',hm⟩
      obtain ⟨hm,hne⟩ := List.mem_filter.mp hm
      obtain rfl := hs.unique id' job' job hm hmem
      simp at hne
    · simp only [SchedulerState.unreserveID, Function.update_of_ne hid, hs.inFlight,
        List.mem_filter, ne_eq, Prod.mk.injEq, hid, false_and, not_false_eq_true, decide_true,
        and_true]
  · intro id' job₁ job₂ h₁ h₂
    rw [hnew] at h₁ h₂
    exact hs.unique id' job₁ job₂ (List.mem_filter.mp h₁).1 (List.mem_filter.mp h₂).1

end

/-- The live sessions were launched and have not ended. -/
structure SessionKnown (l : SchedulerLog κ ε) : Prop where
  nodup : (sessions l).Nodup
  live : ∀ job, job ∈ sessions l ↔ (∃ kind, (.pass job.1,.launched kind job) ∈ l) ∧
    (.session job,.ended) ∉ l

section
variable {l : SchedulerLog κ ε} {τ : SchedulerThread κ ε} {m : SchedulerMark κ} {job : Job κ}

theorem SessionKnown.same (hs : SessionKnown l) (hchange : sessionChange (τ,m) = none)
    (hlaunched : ∀ kind job, m ≠ .launched kind job) (hended : m ≠ .ended) :
    SessionKnown (l ++ [(τ,m)]) := by
  obtain ⟨hnodup,hlive⟩ := hs
  have hsame : sessions (l ++ [(τ,m)]) = sessions l := Holding.held_none hchange l
  refine ⟨hsame ▸ hnodup,?_⟩
  intro job
  rw [hsame, hlive]
  simp [Ne.symm hended, Ne.symm (hlaunched _ job)]

theorem SessionKnown.launch (hs : SessionKnown l) {kind : IntentKind}
    (hfresh : ∀ kind', (.pass job.1,.launched kind' job) ∉ l)
    (hrunning : (.session job,.ended) ∉ l) :
    SessionKnown (l ++ [(.pass job.1,.launched kind job)]) := by
  have hnew : sessions (l ++ [(.pass job.1,.launched kind job)]) = job :: sessions l :=
    Holding.held_take (by simp [sessionChange]) l
  have hjob : job ∉ sessions l := by
    intro hm
    obtain ⟨⟨kind',hlaunched⟩,-⟩ := (hs.live job).mp hm
    exact hfresh kind' hlaunched
  refine ⟨hnew ▸ List.nodup_cons.mpr ⟨hjob,hs.nodup⟩,?_⟩
  intro job'
  rw [hnew, List.mem_cons, hs.live]
  by_cases hsame : job' = job
  · obtain rfl := hsame
    exact iff_of_true (.inl rfl) ⟨⟨kind,by simp⟩,by simpa using hrunning⟩
  · simp [hsame]

theorem SessionKnown.finish (hs : SessionKnown l) :
    SessionKnown (l ++ [(.session job,.ended)]) := by
  have hnew : sessions (l ++ [(.session job,.ended)]) = (sessions l).filter (· ≠ job) :=
    Holding.held_give (by simp [sessionChange]) l
  refine ⟨hnew ▸ hs.nodup.filter _,?_⟩
  intro job'
  rw [hnew, List.mem_filter, hs.live]
  by_cases hsame : job' = job
  · simp [hsame]
  · simp [hsame]

end

/-- The live leases were acquired, and their `once` was not entered. -/
structure LeaseKnown (l : SchedulerLog κ ε) : Prop where
  nodup : (leases l).Nodup
  live : ∀ job, job ∈ leases l ↔ (.pass job.1,.took .general job) ∈ l ∧
    ∀ τ, (τ,.entered job) ∉ l

section
variable {l : SchedulerLog κ ε} {τ : SchedulerThread κ ε} {m : SchedulerMark κ} {job : Job κ}

theorem LeaseKnown.same (hs : LeaseKnown l) (htook : ∀ job, m ≠ .took .general job)
    (hentered : ∀ job, m ≠ .entered job) : LeaseKnown (l ++ [(τ,m)]) := by
  obtain ⟨hnodup,hlive⟩ := hs
  have hchange : leaseChange (τ,m) = none := by
    unfold leaseChange
    split
    · rename_i heq
      exact absurd (Prod.mk.inj heq).2 (htook _)
    · rename_i heq
      exact absurd (Prod.mk.inj heq).2 (hentered _)
    · rfl
  have hsame : leases (l ++ [(τ,m)]) = leases l := Holding.held_none hchange l
  refine ⟨hsame ▸ hnodup,?_⟩
  intro job
  rw [hsame, hlive]
  simp [Ne.symm (htook job), Ne.symm (hentered job)]

theorem LeaseKnown.acquire (hs : LeaseKnown l) (hfresh : (.pass job.1,.took .general job) ∉ l)
    (hunused : ∀ τ, (τ,.entered job) ∉ l) :
    LeaseKnown (l ++ [(.pass job.1,.took .general job)]) := by
  have hnew : leases (l ++ [(.pass job.1,.took .general job)]) = job :: leases l :=
    Holding.held_take (show leaseChange (_,.took .general job) = _ from rfl) l
  have hjob : job ∉ leases l := fun hm => hfresh ((hs.live job).mp hm).1
  refine ⟨hnew ▸ List.nodup_cons.mpr ⟨hjob,hs.nodup⟩,?_⟩
  intro job'
  rw [hnew, List.mem_cons, hs.live]
  by_cases hsame : job' = job
  · obtain rfl := hsame
    exact iff_of_true (.inl rfl) ⟨by simp,by simpa using hunused⟩
  · simp [hsame]

theorem LeaseKnown.release (hs : LeaseKnown l) : LeaseKnown (l ++ [(τ,.entered job)]) := by
  have hnew : leases (l ++ [(τ,.entered job)]) = (leases l).filter (· ≠ job) :=
    Holding.held_give (show leaseChange (_,.entered job) = _ from rfl) l
  refine ⟨hnew ▸ hs.nodup.filter _,?_⟩
  intro job'
  rw [hnew, List.mem_filter, hs.live]
  by_cases hsame : job' = job
  · obtain rfl := hsame
    exact iff_of_false (by simp) fun hunused => hunused.2 τ (by simp)
  · simp [hsame]

end

end

section
variable {κ ε : Type} [DecidableEq κ] [DecidableEq ε] {w : Workload κ ε}

/-- How many DKGs a pass has launched. -/
def dkgLaunches (p : κ) (l : SchedulerLog κ ε) : Nat :=
  l.countP fun m => decide (m.1 = .pass p) && launchesDKG m

def schedulerLog (h : Moves (SchedulerThread κ ε) (SchedulerOp κ) SchedulerOp.Ans) :
    SchedulerLog κ ε :=
  Team.notes schedulerMark h

theorem placed_of_pre {h : Moves (SchedulerThread κ ε) (SchedulerOp κ) SchedulerOp.Ans}
    {τ : SchedulerThread κ ε} {o : SchedulerOp κ} {r : o.Ans}
    (hpre : schedulerPre w τ o (Team.own τ h)) :
    SchedulerPlaced w (schedulerLog h) τ (schedulerMark ⟨o,r⟩) := by
  have hown : ∀ m : SchedulerMark κ, m ∈ marks (Team.own τ h) ↔ (τ,m) ∈ schedulerLog h :=
    fun m => Team.mem_notes.symm
  cases o with
  | take pool job =>
    cases r using Bool.rec with
    | false => trivial
    | true =>
      simp only [schedulerPre, hown] at hpre
      exact hpre
  | reserve id job =>
    cases r using Bool.rec with
    | false => trivial
    | true => exact ⟨hpre.1,hpre.2.1,mt (hown _).mpr hpre.2.2⟩
  | observe admitted job =>
    cases admitted with
    | true => trivial
    | false =>
      simp only [schedulerPre, hown, forall_const] at hpre
      exact hpre
  | give pool job =>
    simp only [schedulerPre, hown] at hpre
    exact hpre
  | enter job =>
    cases r using Bool.rec with
    | false => trivial
    | true =>
      simp only [schedulerPre, hown] at hpre
      exact hpre
  | leave job =>
    simp only [schedulerPre, hown] at hpre
    exact hpre
  | unreserve id job =>
    simp only [schedulerPre, hown] at hpre
    exact hpre
  | launch kind job =>
    simp only [schedulerPre, hown] at hpre
    exact hpre
  | ended =>
    simp only [schedulerPre, hown] at hpre
    exact hpre
  | _ => trivial

variable {h : Moves (SchedulerThread κ ε) (SchedulerOp κ) SchedulerOp.Ans}
  {rest : SchedulerThread κ ε → SchedulerProg κ Unit} {s : SchedulerState κ}

theorem step_before (hrun : (scheduler w).Run {} h rest s) {l₁ l₂ : SchedulerLog κ ε}
    {τ : SchedulerThread κ ε} {m : SchedulerMark κ} (hl : schedulerLog h = l₁ ++ (τ,m) :: l₂) :
    ∃ h₁ rest₁ s₁ t, schedulerLog h₁ = l₁ ∧ (scheduler w).Run {} h₁ rest₁ s₁ ∧
      SchedulerPlaced w l₁ τ m ∧ SchedulerStep w.cfg τ m s₁ t := by
  obtain ⟨h₁,rest₁,s₁,o,r,t,k,rfl,rfl,hbefore,hi,hsem,-⟩ := hrun.split_notes hl
  exact ⟨h₁,rest₁,s₁,t,rfl,hbefore,placed_of_pre (hbefore.allowed scheduler_disciplined hi),
    schedulerSem_step hsem⟩

theorem scheduler_invariant (Inv : SchedulerLog κ ε → SchedulerState κ → Prop)
    (hstart : Inv [] {})
    (hstep : ∀ h rest s τ m t, (scheduler w).Run {} h rest s → Inv (schedulerLog h) s →
      SchedulerPlaced w (schedulerLog h) τ m → SchedulerStep w.cfg τ m s t →
      Inv (schedulerLog h ++ [(τ,m)]) t)
    (hrun : (scheduler w).Run {} h rest s) : Inv (schedulerLog h) s := by
  refine hrun.invariant_along scheduler_disciplined (fun h s => Inv (schedulerLog h) s) hstart ?_
  intro h rest s τ o r t hrun hs hpre hsem
  rw [schedulerLog, Team.notes_snoc]
  exact hstep h rest s τ _ t hrun hs (placed_of_pre hpre) (schedulerSem_step hsem)

theorem placed_at (hrun : (scheduler w).Run {} h rest s) {τ : SchedulerThread κ ε}
    {m : SchedulerMark κ} (hm : (τ,m) ∈ schedulerLog h) :
    ∃ l₁, (∀ x ∈ l₁, x ∈ schedulerLog h) ∧ SchedulerPlaced w l₁ τ m := by
  obtain ⟨l₁,l₂,hl⟩ := List.append_of_mem hm
  obtain ⟨-,-,-,-,-,-,hplaced,-⟩ := step_before hrun hl
  exact ⟨l₁,fun x hx => hl ▸ List.mem_append_left _ hx,hplaced⟩

theorem reserved_by (hrun : (scheduler w).Run {} h rest s) {τ : SchedulerThread κ ε} {id : Bytes}
    {job : Job κ} (hm : (τ,.reserved id job) ∈ schedulerLog h) :
    τ = .pass job.1 ∧ id = (w.intent job).intentID := by
  obtain ⟨l₁,-,hplaced⟩ := placed_at hrun hm
  exact ⟨hplaced.1,hplaced.2.1⟩

theorem launched_by (hrun : (scheduler w).Run {} h rest s) {τ : SchedulerThread κ ε}
    {kind : IntentKind} {job : Job κ} (hm : (τ,.launched kind job) ∈ schedulerLog h) :
    τ = .pass job.1 ∧ classifyIntentKind (w.intent job).type = some kind ∧
      (.pass job.1,.took .general job) ∈ schedulerLog h ∧
      (kind = .dkg → (.pass job.1,.took .dkg job) ∈ schedulerLog h) ∧
      ((w.intent job).intentID ≠ [] →
        (.pass job.1,.reserved (w.intent job).intentID job) ∈ schedulerLog h) := by
  obtain ⟨l₁,hsub,rfl,hlaunching⟩ := placed_at hrun hm
  exact ⟨rfl,hlaunching.classified,hsub _ hlaunching.general,
    fun hkind => hsub _ (hlaunching.dkg hkind),fun hid => hsub _ (hlaunching.reserved hid)⟩

theorem ended_began (hrun : (scheduler w).Run {} h rest s) {job : Job κ}
    (hm : (.session job,.ended) ∈ schedulerLog h) : (.session job,.began) ∈ schedulerLog h := by
  obtain ⟨l₁,hsub,job',-,hbegan⟩ := placed_at hrun hm
  exact hsub _ hbegan

theorem leases_known (hrun : (scheduler w).Run {} h rest s) :
    ∀ job kind, s.leases job = some kind → (.pass job.1,.launched kind job) ∈ schedulerLog h := by
  refine scheduler_invariant (fun l s => ∀ job kind, s.leases job = some kind →
    (.pass job.1,.launched kind job) ∈ l) (by simp) ?_ hrun
  intro h rest s τ m t _ hs hm hstep job kind hlease
  cases hstep with
  | launched kind' job' =>
    obtain ⟨rfl,-⟩ := hm
    by_cases hjob : job = job'
    · obtain rfl := hjob
      obtain rfl : kind' = kind := by simpa using hlease
      simp
    · have hbefore : s.leases job = some kind := Function.update_of_ne hjob _ s.leases ▸ hlease
      exact List.mem_append_left _ (hs job kind hbefore)
  | _ => exact List.mem_append_left _ (hs job kind hlease)

theorem began_launched (hrun : (scheduler w).Run {} h rest s) {job : Job κ}
    (hm : (.session job,.began) ∈ schedulerLog h) :
    ∃ kind, (.pass job.1,.launched kind job) ∈ schedulerLog h := by
  obtain ⟨l₁,l₂,hl⟩ := List.append_of_mem hm
  obtain ⟨h₁,rest₁,s₁,t,rfl,hbefore,-,hstep⟩ := step_before hrun hl
  cases hstep with
  | began job' hsession hlease =>
    obtain rfl : job = job' := SchedulerThread.session.inj hsession
    obtain ⟨kind,hkind⟩ := Option.isSome_iff_exists.mp hlease
    exact ⟨kind,hl ▸ List.mem_append_left _ (leases_known hbefore job kind hkind)⟩

theorem lease_launched (hrun : (scheduler w).Run {} h rest s) {τ : SchedulerThread κ ε}
    {job : Job κ} {kind : IntentKind} (hm : (τ,.lease job (some kind)) ∈ schedulerLog h) :
    (.pass job.1,.launched kind job) ∈ schedulerLog h := by
  obtain ⟨l₁,l₂,hl⟩ := List.append_of_mem hm
  obtain ⟨h₁,rest₁,s₁,t,rfl,hbefore,-,hstep⟩ := step_before hrun hl
  generalize hk : some kind = lease at hstep
  cases hstep with
  | lease job =>
    exact hl ▸ List.mem_append_left _ (leases_known hbefore job kind hk.symm)

theorem releasing_launched (hrun : (scheduler w).Run {} h rest s) {τ : SchedulerThread κ ε}
    {kind : IntentKind} {job : Job κ}
    (hm : Releasing w τ kind job fun m => (τ,m) ∈ schedulerLog h) :
    (.pass job.1,.launched kind job) ∈ schedulerLog h := by
  obtain ⟨rfl,hbegan,hkind⟩ | hlease := hm
  · obtain ⟨kind',hlaunched⟩ := began_launched hrun hbegan
    obtain ⟨-,hkind',-⟩ := launched_by hrun hlaunched
    obtain rfl := Option.some.inj (hkind.symm.trans hkind')
    exact hlaunched
  · exact lease_launched hrun hlease

theorem entered_launched (hrun : (scheduler w).Run {} h rest s) {τ : SchedulerThread κ ε}
    {job : Job κ} (hm : (τ,.entered job) ∈ schedulerLog h) :
    ∃ kind, (.pass job.1,.launched kind job) ∈ schedulerLog h := by
  obtain ⟨l₁,l₂,hl⟩ := List.append_of_mem hm
  obtain ⟨h₁,rest₁,s₁,t,rfl,hbefore,⟨kind,hcaller⟩,-⟩ := step_before hrun hl
  exact ⟨kind,hl ▸ List.mem_append_left _ (releasing_launched hbefore hcaller)⟩

theorem gave_took (hrun : (scheduler w).Run {} h rest s) {τ : SchedulerThread κ ε}
    {pool : Permit} {job : Job κ} {effect : Bool}
    (hm : SchedulerPlaced w (schedulerLog h) τ (.gave pool job effect)) :
    (.pass job.1,.took pool job) ∈ schedulerLog h := by
  obtain ⟨rfl,rfl,hm,-⟩ | ⟨kind,hcaller,-,hpool⟩ := hm
  · exact hm
  · obtain ⟨-,-,hgeneral,hdkg,-⟩ := launched_by hrun (releasing_launched hrun hcaller)
    cases pool with
    | general => exact hgeneral
    | dkg => exact hdkg (hpool rfl)

theorem returned_gave (hrun : (scheduler w).Run {} h rest s) :
    ∀ pool job, s.returned pool job = true →
      ∃ τ effect, (τ,.gave pool job effect) ∈ schedulerLog h := by
  refine scheduler_invariant (fun l s => ∀ pool job, s.returned pool job = true →
    ∃ τ effect, (τ,.gave pool job effect) ∈ l) (by simp) ?_ hrun
  intro h rest s τ m t _ hs hm hstep pool job hreturned
  have hkept : s.returned pool job = true →
      ∃ τ' effect, (τ',.gave pool job effect) ∈ schedulerLog h ++ [(τ,m)] := by
    intro hbefore
    obtain ⟨τ',effect,hgave⟩ := hs pool job hbefore
    exact ⟨τ',effect,List.mem_append_left _ hgave⟩
  cases hstep with
  | gave pool' job' hheld =>
    by_cases hsame : pool = pool' ∧ job = job'
    · obtain ⟨rfl,rfl⟩ := hsame
      exact ⟨τ,true,by simp⟩
    · refine hkept ?_
      by_cases hpool : pool = pool'
      · obtain rfl := hpool
        have hjob : job ≠ job' := fun heq => hsame ⟨rfl,heq⟩
        simpa [SchedulerState.giveSlot, hjob] using hreturned
      · simpa [SchedulerState.giveSlot, hpool] using hreturned
  | _ => exact hkept hreturned

theorem returned_took (hrun : (scheduler w).Run {} h rest s) {pool : Permit} {job : Job κ}
    (hreturned : s.returned pool job = true) : (.pass job.1,.took pool job) ∈ schedulerLog h := by
  obtain ⟨τ,effect,hgave⟩ := returned_gave hrun pool job hreturned
  obtain ⟨l₁,l₂,hl⟩ := List.append_of_mem hgave
  obtain ⟨h₁,rest₁,s₁,t,rfl,hbefore,hplaced,-⟩ := step_before hrun hl
  exact hl ▸ List.mem_append_left _ (gave_took hbefore hplaced)

theorem gave_returned (hrun : (scheduler w).Run {} h rest s) :
    ∀ τ pool job effect, (τ,.gave pool job effect) ∈ schedulerLog h →
      s.returned pool job = true := by
  refine scheduler_invariant (fun l s => ∀ τ pool job effect, (τ,.gave pool job effect) ∈ l →
    s.returned pool job = true) (by simp) ?_ hrun
  intro h rest s τ m t hrun hs hm hstep τ' pool job effect hgave
  cases hstep with
  | gave pool' job' hheld =>
    by_cases hsame : pool = pool' ∧ job = job'
    · obtain ⟨rfl,rfl⟩ := hsame
      simp [SchedulerState.giveSlot]
    · have hbefore : s.returned pool job = true := by
        refine hs τ' pool job effect ((List.mem_append.mp hgave).resolve_right ?_)
        intro hnew
        simp at hnew
        exact hsame ⟨hnew.2.1,hnew.2.2.1⟩
      by_cases hpool : pool = pool'
      · obtain rfl := hpool
        simp [SchedulerState.giveSlot, Function.update_apply, hbefore]
      · simp [SchedulerState.giveSlot, hpool, hbefore]
  | returned pool' job' hreturned =>
    cases List.mem_append.mp hgave with
    | inl hgave => exact hs τ' pool job effect hgave
    | inr hgave =>
      obtain ⟨rfl,rfl⟩ : pool = pool' ∧ job = job' := by
        simp at hgave
        exact ⟨hgave.2.1,hgave.2.2.1⟩
      exact hreturned
  | _ => exact hs τ' pool job effect (by simpa using hgave)

theorem poolKnown_of_run (hrun : (scheduler w).Run {} h rest s) (pool : Permit) :
    PoolKnown w.cfg pool (schedulerLog h) s := by
  refine scheduler_invariant (PoolKnown w.cfg pool) ?_ ?_ hrun
  · exact ⟨rfl,Nat.zero_le _,List.nodup_nil,by simp [holders, Holding.held]⟩
  intro h rest s τ m t hrun hs hm hstep
  cases hstep with
  | took pool' job hroom =>
    by_cases hpool : pool = pool'
    · obtain rfl := hpool
      obtain ⟨rfl,htaking⟩ := hm
      refine hs.take hroom htaking.fresh ?_
      exact Bool.eq_false_iff.mpr fun hreturned =>
        htaking.fresh (returned_took hrun hreturned)
    · exact hs.same (by simp [poolChange, Ne.symm hpool]) (by simp [Ne.symm hpool])
        (by simp [SchedulerState.takeSlot, hpool]) rfl
  | gave pool' job hheld =>
    by_cases hpool : pool = pool'
    · obtain rfl := hpool
      exact hs.give (gave_took hrun hm) hheld
    · exact hs.same (by simp [poolChange, Ne.symm hpool]) (by simp)
        (by simp [SchedulerState.giveSlot, hpool]) (by simp [SchedulerState.giveSlot, hpool])
  | _ => exact hs.same rfl (by simp) rfl rfl

theorem unreserved_reserved (hrun : (scheduler w).Run {} h rest s) {τ : SchedulerThread κ ε}
    {id : Bytes} {job : Job κ} {effect : Bool}
    (hm : SchedulerPlaced w (schedulerLog h) τ (.unreserved id job effect))
    (howner : ∀ i, τ ≠ .outside i) : (.pass job.1,.reserved id job) ∈ schedulerLog h := by
  obtain ⟨rfl,⟨rfl,hreserved,-⟩ | ⟨rfl,hid,hbegan,-⟩ | ⟨i,rfl⟩⟩ := hm
  · exact hreserved
  · obtain ⟨kind,hlaunched⟩ := began_launched hrun hbegan
    obtain ⟨-,-,-,-,hreserved⟩ := launched_by hrun hlaunched
    exact hreserved hid
  · exact absurd rfl (howner i)

theorem unreserved_known (hrun : (scheduler w).Run {} h rest s) :
    ∀ job, s.unreserved job = true → ∃ τ id, (τ,.unreserved id job true) ∈ schedulerLog h ∧
      ∀ i, τ ≠ .outside i := by
  refine scheduler_invariant (fun l s => ∀ job, s.unreserved job = true →
    ∃ τ id, (τ,.unreserved id job true) ∈ l ∧ ∀ i, τ ≠ .outside i) (by simp) ?_ hrun
  intro h rest s τ m t _ hs hm hstep job hunreserved
  have hkept : s.unreserved job = true → ∃ τ' id,
      (τ',.unreserved id job true) ∈ schedulerLog h ++ [(τ,m)] ∧ ∀ i, τ' ≠ .outside i := by
    intro hbefore
    obtain ⟨τ',id,hmem,howner⟩ := hs job hbefore
    exact ⟨τ',id,List.mem_append_left _ hmem,howner⟩
  cases hstep with
  | unreserved id job' hheld howner =>
    by_cases hjob : job = job'
    · obtain rfl := hjob
      exact ⟨τ,id,by simp,howner⟩
    · refine hkept ?_
      simpa [SchedulerState.unreserveID, hjob] using hunreserved
  | _ => exact hkept hunreserved

theorem released_why (hrun : (scheduler w).Run {} h rest s) {job : Job κ}
    (hreleased : s.unreserved job = true) :
    (.pass job.1,.reserved (w.intent job).intentID job) ∈ schedulerLog h ∧
      ((.pass job.1,.unreserved (w.intent job).intentID job true) ∈ schedulerLog h ∨
        (.session job,.ended) ∈ schedulerLog h) := by
  obtain ⟨τ,id,hmem,howner⟩ := unreserved_known hrun job hreleased
  obtain ⟨l₁,l₂,hl⟩ := List.append_of_mem hmem
  obtain ⟨h₁,rest₁,s₁,t,rfl,hbefore,hplaced,-⟩ := step_before hrun hl
  have hsub : ∀ x ∈ schedulerLog h₁, x ∈ schedulerLog h :=
    fun x hx => hl ▸ List.mem_append_left _ hx
  have hreserved := hsub _ (unreserved_reserved hbefore hplaced howner)
  obtain ⟨rfl,⟨rfl,-,-⟩ | ⟨rfl,-,-,hended⟩ | ⟨i,rfl⟩⟩ := hplaced
  · exact ⟨hreserved,.inl hmem⟩
  · exact ⟨hreserved,.inr (hsub _ hended)⟩
  · exact absurd rfl (howner i)

theorem reservationKnown_of_run (hrun : (scheduler w).Run {} h rest s) :
    ReservationKnown (schedulerLog h) s := by
  refine scheduler_invariant ReservationKnown ?_ ?_ hrun
  · refine ⟨?_,?_,?_⟩ <;> simp [reservations, Holding.held]
  intro h rest s τ m t hrun hs hm hstep
  cases hstep with
  | reserved id job hfree =>
    obtain ⟨rfl,rfl,hfresh⟩ := hm
    refine hs.reserve hfree (Bool.eq_false_iff.mpr ?_)
    intro hreleased
    exact hfresh (released_why hrun hreleased).1
  | unreserved id job hheld howner =>
    have hreserved := unreserved_reserved hrun hm howner
    refine hs.unreserve hreserved hheld ?_
    intro id' hid'
    exact (reserved_by hrun hid').2.trans (reserved_by hrun hreserved).2.symm
  | _ => exact hs.same rfl (by simp) rfl rfl

theorem sessionKnown_of_run (hrun : (scheduler w).Run {} h rest s) :
    SessionKnown (schedulerLog h) := by
  refine scheduler_invariant (fun l _ => SessionKnown l) ?_ ?_ hrun
  · exact ⟨List.nodup_nil,by simp [sessions, Holding.held]⟩
  intro h rest s τ m t hrun hs hm hstep
  cases hstep with
  | launched kind job =>
    obtain ⟨rfl,hlaunching⟩ := hm
    refine hs.launch hlaunching.fresh ?_
    intro hended
    obtain ⟨kind',hlaunched⟩ := began_launched hrun (ended_began hrun hended)
    exact hlaunching.fresh kind' hlaunched
  | ended =>
    obtain ⟨job,rfl,-⟩ := hm
    exact hs.finish
  | _ => exact hs.same rfl (by simp) (by simp)

theorem session_reserved (hrun : (scheduler w).Run {} h rest s) {job : Job κ}
    (hlive : job ∈ sessions (schedulerLog h)) (hid : (w.intent job).intentID ≠ []) :
    ((w.intent job).intentID,job) ∈ reservations (schedulerLog h) := by
  obtain ⟨⟨kind,hlaunched⟩,hrunning⟩ := ((sessionKnown_of_run hrun).live job).mp hlive
  obtain ⟨-,-,-,-,hreserved⟩ := launched_by hrun hlaunched
  refine ((reservationKnown_of_run hrun).held _ job).mpr ⟨hreserved hid,?_⟩
  refine Bool.eq_false_iff.mpr ?_
  intro hreleased
  cases (released_why hrun hreleased).2 with
  | inr hended => exact hrunning hended
  | inl hgivenUp =>
    -- a pass neither launches a job that it has given up nor gives up one that it has launched
    obtain ⟨l₁,l₂,hl⟩ := List.append_of_mem hgivenUp
    obtain ⟨g₁,g₂,hg⟩ := List.append_of_mem hlaunched
    obtain ⟨h₁,-,-,-,rfl,-,⟨-,hplaced⟩,-⟩ := step_before hrun hl
    obtain ⟨h₂,-,-,-,rfl,-,⟨-,hlaunching⟩,-⟩ := step_before hrun hg
    cases before_or_before (hl.symm.trans hg) (by simp) with
    | inl hbefore => exact hlaunching.kept _ _ hbefore
    | inr hbefore =>
      obtain ⟨-,-,hnone⟩ | ⟨hthread,-⟩ | ⟨i,hthread⟩ := hplaced
      · exact hnone kind hbefore
      · cases hthread
      · cases hthread

theorem admission_known (hrun : (scheduler w).Run {} h rest s) :
    s.dkgAdmissionOpen = admission (schedulerLog h) := by
  refine scheduler_invariant (fun l s => s.dkgAdmissionOpen = admission l) rfl ?_ hrun
  intro h rest s τ m t _ hs hm hstep
  rw [admission, List.foldl_append, ← admission, ← hs]
  cases hstep <;> rfl

theorem dkgLaunches_once (hrun : (scheduler w).Run {} h rest s) (p : κ) :
    dkgLaunches p (schedulerLog h) ≤ 1 := by
  refine scheduler_invariant (fun l _ => dkgLaunches p l ≤ 1) (by simp [dkgLaunches]) ?_ hrun
  intro h rest s τ m t _ hs hm hstep
  have hsnoc : dkgLaunches p (schedulerLog h ++ [(τ,m)]) = dkgLaunches p (schedulerLog h) +
      if decide (τ = .pass p) && launchesDKG (τ,m) then 1 else 0 := by
    simp [dkgLaunches]
  by_cases hnew : (decide (τ = .pass p) && launchesDKG (τ,m)) = true
  · have hzero : dkgLaunches p (schedulerLog h) = 0 := by
      rw [Bool.and_eq_true, decide_eq_true_eq] at hnew
      obtain ⟨rfl,hdkg⟩ := hnew
      rw [dkgLaunches, List.countP_eq_zero]
      rintro ⟨τ',m'⟩ hmem hold
      rw [Bool.and_eq_true, decide_eq_true_eq] at hold
      obtain ⟨rfl,hdkg'⟩ := hold
      cases hstep with
      | launched kind job =>
        cases kind with
        | sign => cases hdkg
        | dkg =>
          cases m' with
          | launched kind' job' =>
            cases kind' with
            | sign => cases hdkg'
            | dkg => exact hm.2.once rfl job' hmem
          | _ => cases hdkg'
      | _ => cases hdkg
    exact Nat.le_of_eq (by rw [hsnoc, if_pos hnew, hzero])
  · rw [hsnoc, if_neg hnew]
    exact hs

theorem leaseKnown_of_run (hrun : (scheduler w).Run {} h rest s) : LeaseKnown (schedulerLog h) := by
  refine scheduler_invariant (fun l _ => LeaseKnown l) ?_ ?_ hrun
  · exact ⟨List.nodup_nil,by simp [leases, Holding.held]⟩
  intro h rest s τ m t hrun hs hm hstep
  cases hstep with
  | took pool job hroom =>
    cases pool with
    | dkg => exact hs.same (by simp) (by simp)
    | general =>
      obtain ⟨rfl,htaking⟩ := hm
      refine hs.acquire htaking.fresh ?_
      intro τ hentered
      obtain ⟨kind,hlaunched⟩ := entered_launched hrun hentered
      exact htaking.fresh (launched_by hrun hlaunched).2.2.1
  | entered job => exact hs.release
  | _ => exact hs.same (by simp) (by simp)

/-- A token that was returned was given back by its own acquisition, which then failed, or by the
`Release` of its lease. -/
theorem returned_why (hrun : (scheduler w).Run {} h rest s) {pool : Permit} {job : Job κ}
    (hreturned : s.returned pool job = true) :
    pool = .dkg ∧ (.pass job.1,.took .general job) ∉ schedulerLog h ∨
      ∃ τ, (τ,.entered job) ∈ schedulerLog h := by
  obtain ⟨τ,effect,hgave⟩ := returned_gave hrun pool job hreturned
  obtain ⟨l₁,l₂,hl⟩ := List.append_of_mem hgave
  obtain ⟨h₁,-,-,-,rfl,-,⟨rfl,rfl,-,hnot⟩ | ⟨-,-,hentered,-⟩,-⟩ := step_before hrun hl
  · refine .inl ⟨rfl,?_⟩
    intro htook
    -- the general token is not taken after the other one was given back
    obtain ⟨g₁,g₂,hg⟩ := List.append_of_mem htook
    obtain ⟨h₂,-,-,-,rfl,-,⟨-,htaking⟩,-⟩ := step_before hrun hg
    cases before_or_before (hl.symm.trans hg) (by simp) with
    | inl hbefore => exact htaking.kept _ _ hbefore
    | inr hbefore => exact hnot hbefore
  · exact .inr ⟨τ,hl ▸ List.mem_append_left _ hentered⟩

theorem held_of_live (hrun : (scheduler w).Run {} h rest s) {pool : Permit} {job : Job κ}
    (hlive : job ∈ live w pool (schedulerLog h)) : job ∈ holders pool (schedulerLog h) := by
  obtain ⟨hmem,hpool⟩ := List.mem_filter.mp hlive
  obtain ⟨hgeneral,hunused⟩ := ((leaseKnown_of_run hrun).live job).mp hmem
  refine ((poolKnown_of_run hrun pool).held job).mpr ⟨?_,Bool.eq_false_iff.mpr ?_⟩
  · cases pool with
    | general => exact hgeneral
    | dkg =>
      obtain ⟨l₁,hsub,-,htaking⟩ := placed_at hrun hgeneral
      exact hsub _ (htaking.guarded rfl (by simpa using hpool))
  · intro hreturned
    obtain ⟨-,hnot⟩ | ⟨τ,hentered⟩ := returned_why hrun hreturned
    · exact hnot hgeneral
    · exact hunused τ hentered

theorem live_of_held (hrun : (scheduler w).Run {} h rest s)
    (hsettled : settled (schedulerLog h) = true) {pool : Permit} {job : Job κ}
    (hheld : job ∈ holders pool (schedulerLog h)) : job ∈ live w pool (schedulerLog h) := by
  obtain ⟨htook,hout⟩ := ((poolKnown_of_run hrun pool).held job).mp hheld
  have hout' : ∀ τ effect, (τ,.gave pool job effect) ∉ schedulerLog h := by
    intro τ effect hgave
    rw [gave_returned hrun τ pool job effect hgave] at hout
    cases hout
  obtain ⟨l₁,-,-,htaking⟩ := placed_at hrun htook
  have hdkg : pool = .dkg → classifyIntentKind (w.intent job).type = some .dkg := htaking.dkg
  have hgeneral : (.pass job.1,.took .general job) ∈ schedulerLog h := by
    cases pool with
    | general => exact htook
    | dkg =>
      have hdone := List.all_eq_true.mp hsettled _ htook
      obtain hgeneral | hfull := of_decide_eq_true hdone
      · exact hgeneral
      · obtain ⟨l₁,l₂,hl⟩ := List.append_of_mem hfull
        obtain ⟨g₁,g₂,hg⟩ := List.append_of_mem htook
        obtain ⟨h₁,-,-,-,rfl,-,⟨-,hrestored⟩,-⟩ := step_before hrun hl
        obtain ⟨h₂,-,-,-,rfl,-,⟨-,htaking⟩,-⟩ := step_before hrun hg
        cases before_or_before (hl.symm.trans hg) (by simp) with
        | inl hbefore => exact absurd hbefore htaking.trying
        | inr hbefore =>
          obtain ⟨effect,hgave⟩ := hrestored .dkg hbefore
          exact absurd (hl ▸ List.mem_append_left _ hgave) (hout' _ effect)
  refine List.mem_filter.mpr ⟨((leaseKnown_of_run hrun).live job).mpr ⟨hgeneral,?_⟩,?_⟩
  · intro τ hentered
    have hleft : (τ,.left job) ∈ schedulerLog h :=
      of_decide_eq_true (List.all_eq_true.mp hsettled _ hentered)
    obtain ⟨l₁,l₂,hl⟩ := List.append_of_mem hleft
    obtain ⟨h₁,rest₁,s₁,t,rfl,hbefore,⟨kind,hcaller,⟨effect,hgave⟩,hgaveDKG⟩,-⟩ :=
      step_before hrun hl
    have hsub : ∀ x ∈ schedulerLog h₁, x ∈ schedulerLog h :=
      fun x hx => hl ▸ List.mem_append_left _ hx
    cases pool with
    | general => exact hout' τ effect (hsub _ hgave)
    | dkg =>
      obtain ⟨-,hkind,-⟩ := launched_by hbefore (releasing_launched hbefore hcaller)
      obtain rfl := Option.some.inj (hkind.symm.trans (hdkg rfl))
      obtain ⟨effect',hgave'⟩ := hgaveDKG rfl
      exact hout' τ effect' (hsub _ hgave')
  · cases pool with
    | general => rfl
    | dkg => simp [hdkg rfl]

/-- What is claimed of a run with the log `l` that reaches the state `s`. -/
structure PermitSafe (w : Workload κ ε) (l : SchedulerLog κ ε) (s : SchedulerState κ) : Prop where
  /-- The occupied slots are those of the tokens that are out. -/
  tokens : ∀ pool, s.slots pool = (holders pool l).length
  /-- A live lease has its slots. -/
  leased : ∀ pool, (live w pool l).Nodup ∧ ∀ job ∈ live w pool l, job ∈ holders pool l
  /-- Where no acquisition and no `Release` is half done, nothing else has one. -/
  occupied : settled l = true → ∀ pool, s.slots pool = (live w pool l).length
  general : (live w .general l).length ≤ s.slots .general ∧
    s.slots .general ≤ (max 1 w.cfg.maxConcurrent).toNat
  dkg : (live w .dkg l).length ≤ s.slots .dkg ∧ s.slots .dkg ≤ 1
  /-- A release frees the slot of its own lease, once. -/
  gaveOwn : ∀ l₁ l₂ τ pool job, l = l₁ ++ (τ,.gave pool job true) :: l₂ → job ∈ holders pool l₁
  /-- An acquisition that fails leaves the pools as they would be without it. -/
  failed : ∀ l₁ l₂ τ job, l = l₁ ++ (τ,.full job) :: l₂ → ∀ pool,
    holders pool (l₁.filter fun m => (poolChange pool m).map Prod.fst ≠ some job) = holders pool l₁
  /-- The intent IDs in flight are those of the live reservations. -/
  inFlight : ∀ id, s.inFlightIntentIDs id = true ↔ ∃ job, (id,job) ∈ reservations l
  /-- A release of a reservation frees its own ID, once. -/
  freedOwn : ∀ l₁ l₂ τ id job, l = l₁ ++ (τ,.unreserved id job true) :: l₂ →
    (id,job) ∈ reservations l₁
  /-- At most one session is live for an intent ID. -/
  alone : (sessions l).Nodup ∧ ∀ job job', job ∈ sessions l → job' ∈ sessions l →
    (w.intent job).intentID = (w.intent job').intentID → (w.intent job).intentID ≠ [] → job = job'
  dkgOnce : ∀ p, dkgLaunches p l ≤ 1
  /-- A pass that launches a DKG has seen the admission open. -/
  dkgOpen : ∀ l₁ l₂ τ job, l = l₁ ++ (τ,.launched .dkg job) :: l₂ → τ = .pass job.1 ∧
    ∃ g₁ g₂, l₁ = g₁ ++ (τ,.admission true) :: g₂ ∧ admission g₁ = true

theorem live_nodup (hrun : (scheduler w).Run {} h rest s) (pool : Permit) :
    (live w pool (schedulerLog h)).Nodup :=
  (leaseKnown_of_run hrun).nodup.filter _

theorem live_le_slots (hrun : (scheduler w).Run {} h rest s) (pool : Permit) :
    (live w pool (schedulerLog h)).length ≤ s.slots pool := by
  rw [(poolKnown_of_run hrun pool).slots]
  exact ((live_nodup hrun pool).subperm fun _ => held_of_live hrun).length_le

theorem permits_and_reservations (w : Workload κ ε) (hrun : (scheduler w).Run {} h rest s) :
    PermitSafe w (schedulerLog h) s := by
  have hpool := poolKnown_of_run hrun
  have hreservation := reservationKnown_of_run hrun
  refine ⟨fun pool => (hpool pool).slots,
    fun pool => ⟨live_nodup hrun pool,fun _ => held_of_live hrun⟩,?_,
    ⟨live_le_slots hrun _,(hpool .general).bounded⟩,⟨live_le_slots hrun _,(hpool .dkg).bounded⟩,
    ?_,?_,hreservation.inFlight,?_,⟨(sessionKnown_of_run hrun).nodup,?_⟩,dkgLaunches_once hrun,?_⟩
  · intro hsettled pool
    rw [(hpool pool).slots]
    refine ((List.perm_ext_iff_of_nodup (hpool pool).nodup (live_nodup hrun pool)).mpr ?_).length_eq
    exact fun job => ⟨live_of_held hrun hsettled,held_of_live hrun⟩
  · intro l₁ l₂ τ pool job hl
    obtain ⟨h₁,rest₁,s₁,t,rfl,hbefore,hplaced,hstep⟩ := step_before hrun hl
    cases hstep with
    | gave _ _ hheld =>
      exact ((poolKnown_of_run hbefore pool).held job).mpr ⟨gave_took hbefore hplaced,hheld⟩
  · intro l₁ l₂ τ job hl pool
    obtain ⟨h₁,rest₁,s₁,t,rfl,hbefore,⟨rfl,hrestored⟩,-⟩ := step_before hrun hl
    have hnot : job ∉ holders pool (schedulerLog h₁) := by
      intro hmem
      obtain ⟨htook,hheld⟩ := ((poolKnown_of_run hbefore pool).held job).mp hmem
      obtain ⟨effect,hgave⟩ := hrestored pool htook
      have hreturned := gave_returned hbefore _ pool job effect hgave
      rw [hheld] at hreturned
      cases hreturned
    rw [holders, Holding.held_without]
    refine List.filter_eq_self.mpr ?_
    intro job' hjob'
    exact decide_eq_true fun heq => hnot (heq ▸ hjob')
  · intro l₁ l₂ τ id job hl
    obtain ⟨h₁,rest₁,s₁,t,rfl,hbefore,hplaced,hstep⟩ := step_before hrun hl
    cases hstep with
    | unreserved _ _ hheld howner =>
      exact ((reservationKnown_of_run hbefore).held id job).mpr
        ⟨unreserved_reserved hbefore hplaced howner,hheld⟩
  · intro job job' hjob hjob' hsame hid
    have hheld := session_reserved hrun hjob hid
    have hheld' := session_reserved hrun hjob' (hsame ▸ hid)
    rw [← hsame] at hheld'
    exact hreservation.unique _ job job' hheld hheld'
  · intro l₁ l₂ τ job hl
    obtain ⟨h₁,rest₁,s₁,t,rfl,hbefore,⟨rfl,hlaunching⟩,-⟩ := step_before hrun hl
    refine ⟨rfl,?_⟩
    obtain ⟨g₁,g₂,hg⟩ := List.append_of_mem (hlaunching.admitted rfl)
    obtain ⟨h₂,rest₂,s₂,t₂,rfl,hbefore₂,-,hstep⟩ := step_before hbefore hg
    refine ⟨_,g₂,hg,(admission_known hbefore₂).symm.trans ?_⟩
    generalize hseen : SchedulerMark.admission true = seen at hstep
    cases hstep with
    | admission => exact (SchedulerMark.admission.inj hseen).symm
    | _ => cases hseen

end

section
variable {κ ε : Type} [DecidableEq κ]

/-- The answers of an environment in which no context ends, provisioning is ready and sessions
end at once. -/
def schedulerAnswer (cfg : SchedulerConfig) :
    (o : SchedulerOp κ) → SchedulerState κ → o.Ans × SchedulerState κ
  | .admissionOpen, s => (s.dkgAdmissionOpen,s)
  | .setAdmission isOpen, s => ((),{ s with dkgAdmissionOpen := isOpen })
  | .reserve id _, s =>
      (!s.inFlightIntentIDs id,if s.inFlightIntentIDs id then s else s.reserveID id)
  | .unreserve id job, s =>
      (!s.unreserved job,if s.unreserved job then s else s.unreserveID id job)
  | .take pool _, s =>
      (decide (s.slots pool < cfg.capacity pool),
        if s.slots pool < cfg.capacity pool then s.takeSlot pool else s)
  | .give pool job, s =>
      (!s.returned pool job,if s.returned pool job then s else s.giveSlot pool job)
  | .launch kind job, s => ((),{ s with leases := Function.update s.leases job (some kind) })
  | .enter job, s => (decide (s.leaseOnce job = .fresh),if s.leaseOnce job = .fresh then
      { s with leaseOnce := Function.update s.leaseOnce job .running } else s)
  | .leave job, s => ((),{ s with leaseOnce := Function.update s.leaseOnce job .done })
  | .lease job, s => (s.leases job,s)
  | .ctxErr, s | .work, s => (false,s)
  | .provisioningReady, s | .waitForClaimDispatch, s => (true,s)
  | .observe _ _, s | .begin, s | .ended, s => ((),s)

def schedulerBlocked (τ : SchedulerThread κ ε) : SchedulerOp κ → SchedulerState κ → Bool
  | .unreserve _ job, s =>
      match τ with
      | .outside _ => !s.unreserved job
      | _ => false
  | .give pool job, s => !s.returned pool job && s.slots pool == 0
  | .begin, s =>
      match τ with
      | .session job => (s.leases job).isNone
      | _ => true
  | .enter job, s => decide (s.leaseOnce job = .running)
  | _, _ => false

theorem schedulerAnswer_sem {cfg : SchedulerConfig} (τ : SchedulerThread κ ε) (o : SchedulerOp κ)
    (s : SchedulerState κ) (h : schedulerBlocked τ o s = false) :
    schedulerSem cfg τ o s (schedulerAnswer cfg o s).1 (schedulerAnswer cfg o s).2 := by
  cases o with
  | unreserve id job =>
    refine ⟨?_,rfl,rfl⟩
    cases τ with
    | outside i => simpa [schedulerBlocked, OwnerReleased] using h
    | _ => trivial
  | give pool job =>
    refine ⟨rfl,?_⟩
    cases hreturned : s.returned pool job with
    | true => simp [schedulerAnswer, hreturned]
    | false =>
      have hslot : s.slots pool ≠ 0 := by simpa [schedulerBlocked, hreturned] using h
      simpa [schedulerAnswer, hreturned] using Nat.pos_of_ne_zero hslot
  | begin =>
    cases τ with
    | session job => exact ⟨⟨job,rfl,by simpa [schedulerBlocked] using h⟩,rfl⟩
    | _ => cases h
  | enter job => exact ⟨of_decide_eq_false h,rfl,rfl⟩
  | admissionOpen => exact ⟨rfl,rfl⟩
  | reserve id job => exact ⟨rfl,rfl⟩
  | take pool job => exact ⟨rfl,rfl⟩
  | lease job => exact ⟨rfl,rfl⟩
  | _ => rfl

end

/-! One slot, two passes, and late calls of the release functions of the first session. -/

def sampleWorkload : Workload Nat Nat where
  cfg := {}
  passes
    | 0 => [{ type := ascii "DKG", intentID := ascii "a" },
        { type := ascii "SIGN", intentID := ascii "b" }]
    | _ => [{ type := ascii " sign", intentID := ascii "b" }]
  turns _ := 1
  outside
    | 0 => .setAdmission true
    | 1 => .release (0,0)
    | _ => .releaseIntent (0,0)

def sampleOrder : List (SchedulerThread Nat Nat) :=
  [.outside 0] ++ List.replicate 14 (.pass 0) ++ List.replicate 8 (.session (0,0)) ++
    [.pass 1,.pass 1,.pass 1,.outside 1,.outside 1,.outside 2,.pass 1,.pass 1]

/-- The run of the sample ends with nothing half done: the DKG has given back both its slots and
its ID, and the second pass has launched the SIGN that the first one had no slot for. -/
theorem permits_and_reservations_sample : ∃ h rest s,
    (scheduler sampleWorkload).Run {} h rest s ∧ (.pass 0,.full (0,1)) ∈ schedulerLog h ∧
      (.outside 2,.unreserved (ascii "a") (0,0) false) ∈ schedulerLog h ∧
      live sampleWorkload .general (schedulerLog h) = [(1,0)] ∧
      sessions (schedulerLog h) = [(1,0)] ∧
      s.slots .general = 1 ∧ s.slots .dkg = 0 ∧ PermitSafe sampleWorkload (schedulerLog h) s := by
  have hplay : (Team.play (Team.serving schedulerBlocked fun _ => schedulerAnswer {})
      (scheduler sampleWorkload) {} sampleOrder).map
      (fun d => decide ((.pass 0,.full (0,1)) ∈ schedulerLog d.moves ∧
        (.outside 2,.unreserved (ascii "a") (0,0) false) ∈ schedulerLog d.moves ∧
        settled (schedulerLog d.moves) = true ∧
        live sampleWorkload .general (schedulerLog d.moves) = [(1,0)] ∧
        live sampleWorkload .dkg (schedulerLog d.moves) = [] ∧
        sessions (schedulerLog d.moves) = [(1,0)])) = some true := by decide +kernel
  obtain ⟨d,hd,heq⟩ := Option.map_eq_some_iff.mp hplay
  obtain ⟨hfull,hlate,hsettled,hgeneral,hdkg,hsessions⟩ := of_decide_eq_true heq
  have hrun := Team.play_serving schedulerAnswer_sem hd
  have hsafe := permits_and_reservations _ hrun
  refine ⟨d.moves,d.rest,d.shared,hrun,hfull,hlate,hgeneral,hsessions,?_,?_,hsafe⟩
  · rw [hsafe.occupied hsettled, hgeneral]
    rfl
  · rw [hsafe.occupied hsettled, hdkg]
    rfl

/-! A pass that has seen the admission open, and launches its DKG after it was closed. -/

def closingWorkload : Workload Nat Nat where
  cfg := {}
  passes _ := [{ type := ascii "DKG", intentID := ascii "a" }]
  turns _ := 1
  outside
    | 0 => .setAdmission true
    | _ => .setAdmission false

def closingOrder : List (SchedulerThread Nat Nat) :=
  [.outside 0,.pass 0,.pass 0,.outside 1] ++ List.replicate 6 (.pass 0)

theorem dkg_launched_after_closing : ¬∀ (w : Workload Nat Nat) h rest s,
    (scheduler w).Run {} h rest s → ∀ l₁ l₂ τ job,
      schedulerLog h = l₁ ++ (τ,.launched .dkg job) :: l₂ → admission l₁ = true := by
  intro hopen
  have hplay : (Team.play (Team.serving schedulerBlocked fun _ => schedulerAnswer {})
      (scheduler closingWorkload) {} closingOrder).map
      (fun d => (decide (schedulerLog d.moves =
        (schedulerLog d.moves).dropLast ++ [(.pass 0,.launched .dkg (0,0))]),
        admission (schedulerLog d.moves).dropLast)) = some (true,false) := by decide +kernel
  obtain ⟨d,hd,heq⟩ := Option.map_eq_some_iff.mp hplay
  simp only [Prod.mk.injEq, decide_eq_true_eq] at heq
  have hlaunched := hopen _ _ _ _ (Team.play_serving schedulerAnswer_sem hd) _ _ _ _ heq.1
  rw [heq.2] at hlaunched
  cases hlaunched

end CoSigner.Worker
