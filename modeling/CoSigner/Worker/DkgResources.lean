import CoSigner.Worker.DkgAccounts

/-! What a DKG run holds and gives back: preparams handles, the preparams job, the active pair,
the router's receiver and the party goroutines, over every interleaving. -/
namespace CoSigner.Worker
open Contract Monolith Sharestore Localrouter
variable {H κ : Type}

/-- What only some calls change in an account. -/
structure Books.Kept (o : DkgOp H κ) (b c : Books H) : Prop where
  acquired : o ≠ .acquire → c.acquired = b.acquired
  spawns : (∀ party job, o ≠ .spawn party job) → c.spawns = b.spawns
  waited : o ≠ .awaitGroup → c.waited = b.waited
  finishes : o ≠ .finishJob → c.finishes = b.finishes
  registered : (∀ pair, o ≠ .register pair) → c.registered = b.registered
  released : o ≠ .release → c.released = b.released
  gate : (∀ o', o ≠ .router o') → c.gate = b.gate
  job : o ≠ .spawned → c.job = b.job
  runs : (∀ job, o ≠ .beginRun job) → c.runs = b.runs
  returned : o ≠ .endRun → c.returned = b.returned
  done : o ≠ .groupDone → c.done = b.done

theorem Books.after_kept (b : Books H) (o : DkgOp H κ) (r : o.Ans) : b.Kept o (b.after ⟨o,r⟩) := by
  cases o with
  | acquire =>
    rcases r with _ | _ | _ <;> constructor <;> intro h <;> first | rfl | exact absurd rfl h
  | beginJob | register _ =>
    cases r <;> constructor <;> intro h <;> first | rfl | exact absurd rfl (h _)
  | _ =>
    constructor <;> intro h <;>
      first | rfl | exact absurd rfl h | exact absurd rfl (h _) | exact absurd rfl (h _ _)

/-- What only some calls change in the state. -/
structure DkgState.Kept (o : DkgOp H κ) (s t : DkgState H κ) : Prop where
  issued : o ≠ .acquire → t.issued = s.issued
  jobs : (∀ party job, o ≠ .spawn party job) → t.jobs = s.jobs
  ended : o ≠ .groupDone → t.ended = s.ended
  router : (∀ o', o ≠ .router o') → t.router = s.router
  pair : (∀ pair, o ≠ .register pair) → o ≠ .release → (∀ lease, o ≠ .releaseOther lease) →
    t.pair = s.pair ∧ t.holder = s.holder

theorem DkgState.Kept.refl (o : DkgOp H κ) (s : DkgState H κ) : DkgState.Kept o s s :=
  ⟨fun _ => rfl,fun _ => rfl,fun _ => rfl,fun _ => rfl,fun _ _ _ => ⟨rfl,rfl⟩⟩

section
variable [DecidableEq κ] {L : Libraries} {router : Localrouter.Config} {i : DkgThread κ}
  {o : DkgOp H κ} {r : o.Ans} {s t : DkgState H κ}

theorem dkgSem_kept (h : dkgSem L router i o s r t) : DkgState.Kept o s t := by
  cases o
  case acquire =>
    rcases r with _ | _ | _
    · exact (show t = s from h) ▸ .refl _ _
    · exact (show t = s from h) ▸ .refl _ _
    · obtain ⟨-,rfl⟩ := h
      exact ⟨fun ho => absurd rfl ho,fun _ => rfl,fun _ => rfl,fun _ => rfl,fun _ _ _ => ⟨rfl,rfl⟩⟩
  case register pair =>
    obtain ⟨-,rfl⟩ := h
    split
    · exact ⟨fun _ => rfl,fun _ => rfl,fun _ => rfl,fun _ => rfl,fun ho => absurd rfl (ho pair)⟩
    · exact .refl _ _
  case select =>
    cases r with
    | none =>
      obtain ⟨-,rfl⟩ := h
      exact .refl _ _
    | some result =>
      obtain ⟨_,-,rfl⟩ := h
      exact ⟨fun _ => rfl,fun _ => rfl,fun _ => rfl,fun _ => rfl,fun _ _ _ => ⟨rfl,rfl⟩⟩
  case release =>
    obtain rfl : t = s.release none := h
    exact ⟨fun _ => rfl,fun _ => rfl,fun _ => rfl,fun _ => rfl,fun _ ho => absurd rfl ho⟩
  case releaseOther lease =>
    obtain rfl : t = s.release (some lease) := h
    exact ⟨fun _ => rfl,fun _ => rfl,fun _ => rfl,fun _ => rfl,fun _ _ ho => absurd rfl (ho lease)⟩
  case router | ready | sendResult | takeResult | groupDone =>
    obtain ⟨_,-,rfl⟩ := h
    constructor <;> intro ho <;>
      first | rfl | exact fun _ _ => ⟨rfl,rfl⟩ | exact absurd rfl ho | exact absurd rfl (ho _)
  case spawned | awaitReady | awaitStart | awaitGroup =>
    obtain ⟨-,rfl⟩ := h
    exact .refl _ _
  case spawn party job =>
    obtain rfl := h
    exact ⟨fun _ => rfl,fun ho => absurd rfl (ho party job),fun _ => rfl,fun _ => rfl,
      fun _ _ _ => ⟨rfl,rfl⟩⟩
  case openStart =>
    obtain rfl := h
    exact ⟨fun _ => rfl,fun _ => rfl,fun _ => rfl,fun _ => rfl,fun _ _ _ => ⟨rfl,rfl⟩⟩
  all_goals exact (show t = s from h) ▸ .refl _ _

/-! The parties run what `Run` started, and `Run` waits for them. -/

structure PartySound (spawns : List (Party × PartyJob H)) (p : Party) (b : Books H) : Prop where
  got : ∀ j, b.job = some j → (p,j) ∈ spawns
  ran : b.runs = [] ∨ ∃ j, b.job = some j ∧ b.runs = [j]
  returned : b.returned = true → b.runs ≠ []
  done : b.done = true → b.returned = true

structure Parties (run : Books H) (party : Party → Books H) (s : DkgState H κ) : Prop where
  jobs : ∀ p j, s.jobs p = some j → (p,j) ∈ run.spawns
  sound : ∀ p, PartySound run.spawns p (party p)
  ended : ∀ p, s.ended p = true → (party p).done = true
  waited : run.waited = true → ∀ p, (party p).done = true
  finished : 0 < run.finishes → run.spawns = [] ∨ run.waited = true

section
variable {run : Books H} {party : Party → Books H}

theorem Parties.moveRun (h : Parties run party s) (hpre : runPre o run)
    (hsem : dkgSem L router .run o s r t) : Parties (run.after ⟨o,r⟩) party t := by
  have hs := dkgSem_kept hsem
  cases o
  case spawn p j =>
    obtain ⟨hfinishes,hwaited,-⟩ := hpre
    obtain rfl := hsem
    refine ⟨fun q k hq => ?_,fun q => { h.sound q with
      got := fun k hk => List.mem_append_left _ ((h.sound q).got k hk) },h.ended,fun hw => ?_,
      fun hf => ?_⟩
    · dsimp only at hq
      by_cases hqp : q = p
      · subst hqp
        rw [Function.update_self] at hq
        obtain rfl := Option.some.inj hq
        exact List.mem_append_right _ List.mem_cons_self
      · rw [Function.update_of_ne hqp] at hq
        exact List.mem_append_left _ (h.jobs q k hq)
    · rw [show run.waited = true from hw] at hwaited
      cases hwaited
    · exact absurd hfinishes (Nat.pos_iff_ne_zero.mp hf)
  case awaitGroup =>
    obtain ⟨hended,rfl⟩ := hsem
    exact ⟨h.jobs,h.sound,h.ended,fun _ p => h.ended p (hended p),fun _ => .inr rfl⟩
  case finishJob =>
    obtain rfl : t = s := hsem
    exact ⟨h.jobs,h.sound,h.ended,h.waited,fun _ => hpre⟩
  case groupDone => exact hpre.elim
  all_goals
    have hb := run.after_kept _ r
    exact ⟨by rw [hs.jobs nofun, hb.spawns nofun]; exact h.jobs,
      by rw [hb.spawns nofun]; exact h.sound,by rw [hs.ended nofun]; exact h.ended,
      by rw [hb.waited nofun]; exact h.waited,
      by rw [hb.finishes nofun, hb.spawns nofun, hb.waited nofun]; exact h.finished⟩

theorem PartySound.frame {spawns : List (Party × PartyJob H)} {p : Party} {b b' : Books H}
    (h : PartySound spawns p b) (hjob : b'.job = b.job) (hruns : b'.runs = b.runs)
    (hreturned : b'.returned = b.returned) (hdone : b'.done = b.done) :
    PartySound spawns p b' :=
  ⟨by rw [hjob]; exact h.got,by rw [hruns, hjob]; exact h.ran,
    by rw [hreturned, hruns]; exact h.returned,by rw [hdone, hreturned]; exact h.done⟩

omit [DecidableEq κ] in
theorem PartySound.after {spawns : List (Party × PartyJob H)} {p : Party} {b : Books H}
    (h : PartySound spawns p b) (hpre : partyPre o b)
    (hjob : ∀ j, (b.after ⟨o,r⟩).job = some j → (p,j) ∈ spawns) :
    PartySound spawns p (b.after ⟨o,r⟩) := by
  cases o
  case spawned =>
    obtain ⟨-,hnone⟩ := hpre
    refine ⟨hjob,.inl ?_,h.returned,h.done⟩
    rcases h.ran with hr | ⟨j,hj,-⟩
    · exact hr
    · rw [hnone] at hj
      cases hj
  case beginRun job =>
    obtain ⟨-,hgot,hruns⟩ := hpre
    exact ⟨h.got,.inr ⟨job,hgot,congrArg (· ++ [job]) hruns⟩,fun _ => by simp [Books.after],h.done⟩
  case endRun => exact ⟨h.got,h.ran,fun _ => hpre.2,fun _ => rfl⟩
  case groupDone => exact ⟨h.got,h.ran,h.returned,fun _ => hpre.2⟩
  all_goals
    have hb := b.after_kept _ r
    exact h.frame (hb.job (by simp)) (hb.runs (by simp)) (hb.returned (by simp)) (hb.done (by simp))

theorem Parties.moveParty {p : Party} (h : Parties run party s) (hpre : partyPre o (party p))
    (hsem : dkgSem L router (.party p) o s r t) :
    Parties run (Function.update party p ((party p).after ⟨o,r⟩)) t := by
  have hs := dkgSem_kept hsem
  have hjobs : t.jobs = s.jobs := hs.jobs (by rintro q j rfl; exact hpre)
  have hsound : PartySound run.spawns p ((party p).after ⟨o,r⟩) := by
    refine (h.sound p).after hpre fun j hj => ?_
    cases o
    case spawned =>
      obtain ⟨⟨q,hq,hgot⟩,-⟩ := hsem
      obtain rfl := DkgThread.party.inj hq
      obtain rfl := Option.some.inj hj
      exact h.jobs p _ hgot
    all_goals
      rw [((party p).after_kept _ r).job nofun] at hj
      exact (h.sound p).got j hj
  have hdone (q : Party) (hq : (party q).done = true ∨ t.ended q = true) :
      (Function.update party p ((party p).after ⟨o,r⟩) q).done = true := by
    cases o
    case groupDone =>
      obtain ⟨p',hp',rfl⟩ := hsem
      obtain rfl := DkgThread.party.inj hp'
      by_cases hqp : q = p
      · subst hqp
        rw [Function.update_self]
        rfl
      · rw [Function.update_of_ne hqp]
        dsimp only at hq
        rw [Function.update_of_ne hqp] at hq
        exact hq.elim id (h.ended q)
    all_goals
      rw [hs.ended nofun] at hq
      have hold := hq.elim id (h.ended q)
      by_cases hqp : q = p
      · subst hqp
        rw [Function.update_self, ((party q).after_kept _ r).done nofun]
        exact hold
      · rw [Function.update_of_ne hqp]
        exact hold
  refine ⟨by rw [hjobs]; exact h.jobs,fun q => ?_,fun q hq => hdone q (.inr hq),
    fun hw q => hdone q (.inl (h.waited hw q)),h.finished⟩
  by_cases hqp : q = p
  · subst hqp
    rw [Function.update_self]
    exact hsound
  · rw [Function.update_of_ne hqp]
    exact h.sound q

omit [DecidableEq κ] in
theorem Parties.frame (h : Parties run party s) (hjobs : t.jobs = s.jobs)
    (hended : t.ended = s.ended) : Parties run party t :=
  ⟨hjobs ▸ h.jobs,h.sound,hended ▸ h.ended,h.waited,h.finished⟩

/-! The handles of `Run` are all different. -/

structure Handles (run : Books H) (s : DkgState H κ) : Prop where
  nodup : run.acquired.Nodup
  issued : ∀ handle ∈ run.acquired, handle ∈ s.issued

theorem Handles.moveRun (h : Handles run s) (hsem : dkgSem L router .run o s r t) :
    Handles (run.after ⟨o,r⟩) t := by
  have hs := dkgSem_kept hsem
  cases o
  case acquire =>
    rcases r with e | _ | handle
    · obtain rfl : t = s := hsem
      exact h
    · obtain rfl : t = s := hsem
      exact h
    · obtain ⟨hnew,rfl⟩ := hsem
      refine ⟨?_,fun x hx => ?_⟩
      · refine List.nodup_append.mpr ⟨h.nodup,List.nodup_singleton handle,?_⟩
        rintro x hx y hy rfl
        exact hnew (List.mem_singleton.mp hy ▸ h.issued x hx)
      · rcases List.mem_append.mp hx with hx | hx
        · exact List.mem_cons_of_mem _ (h.issued x hx)
        · exact List.mem_singleton.mp hx ▸ List.mem_cons_self
  all_goals
    have hb := run.after_kept _ r
    exact ⟨by rw [hb.acquired nofun]; exact h.nodup,
      by rw [hb.acquired nofun, hs.issued nofun]; exact h.issued⟩

/-! The receiver is started once at most, and closed by whoever was to close it. -/

structure RouterHeld (run receiver : Gate) (s : Router) : Prop where
  startOnce : s.startOnce = .idle ↔ run.startEntered = false
  finishOnce : s.finishOnce = .idle ↔ run.finishEntered = false
  spawned : s.spawned = true → run.receiverSpawned = true
  started : run.receiverSpawned = true → run.startEntered = true
  unmarked : run.receiverSpawned = true → run.marked = false
  receiveDone : s.receiveDone = true → run.marked = true ∨ receiver.marked = true
  awaited : run.awaited = true → s.receiveDone = true

theorem routerSem_traffic {o : RouterOp} {r : o.Ans} {s t : Router} (ho : o.steers = false)
    (h : routerSem L router o s r t) : t.startOnce = s.startOnce ∧ t.finishOnce = s.finishOnce ∧
      t.spawned = s.spawned ∧ t.receiveDone = s.receiveDone := by
  have hclose (e : Err) : (s.close e).startOnce = s.startOnce ∧
      (s.close e).finishOnce = s.finishOnce ∧ (s.close e).spawned = s.spawned ∧
      (s.close e).receiveDone = s.receiveDone := by
    unfold Router.close
    split <;> exact ⟨rfl,rfl,rfl,rfl⟩
  cases o
  case closeNormally | fail =>
    obtain rfl := h
    exact hclose _
  case receiverRuns | readCancel | finishErr | isFinishing | isDone | readTerminal | settle =>
    obtain ⟨-,rfl⟩ := h
    exact ⟨rfl,rfl,rfl,rfl⟩
  case cancelReceive | recvNetwork | sendNetwork =>
    obtain rfl := h
    exact ⟨rfl,rfl,rfl,rfl⟩
  case validate =>
    simp only [routerSem] at h
    split at h <;> obtain ⟨-,rfl⟩ := h <;> exact ⟨rfl,rfl,rfl,rfl⟩
  case enqueue =>
    cases r with
    | overflow =>
      obtain ⟨-,-,rfl⟩ := h
      exact ⟨rfl,rfl,rfl,rfl⟩
    | ended =>
      obtain rfl : t = s := h
      exact ⟨rfl,rfl,rfl,rfl⟩
    | _ =>
      obtain ⟨-,rfl⟩ := h
      exact ⟨rfl,rfl,rfl,rfl⟩
  case dequeue =>
    cases r with
    | frame =>
      obtain ⟨_,-,rfl⟩ := h
      exact ⟨rfl,rfl,rfl,rfl⟩
    | ended =>
      obtain rfl : t = s := h
      exact ⟨rfl,rfl,rfl,rfl⟩
    | closed =>
      obtain ⟨-,rfl⟩ := h
      exact ⟨rfl,rfl,rfl,rfl⟩
  all_goals cases ho

section
variable {g g' : Gate} {o : RouterOp} {r : o.Ans} {s t : Router}

theorem RouterHeld.traffic (h : RouterHeld g g' s) (ho : o.steers = false)
    (hsem : routerSem L router o s r t) : RouterHeld g g' t := by
  obtain ⟨hstart,hfinish,hspawned,hdone⟩ := routerSem_traffic ho hsem
  exact ⟨hstart ▸ h.startOnce,hfinish ▸ h.finishOnce,hspawned ▸ h.spawned,h.started,h.unmarked,
    hdone ▸ h.receiveDone,hdone ▸ h.awaited⟩

omit [DecidableEq κ] in
theorem RouterHeld.moveRun {b : Books H} (h : RouterHeld b.gate g' s)
    (hpre : runPre (κ := κ) (.router o) b) (hsem : routerSem L router o s r t) :
    RouterHeld (b.gate.after ⟨o,r⟩) g' t := by
  by_cases ho : o.steers = false
  · rw [Gate.after_traffic ho]
    exact h.traffic ho hsem
  cases o
  case enterStart =>
    obtain ⟨-,rfl,rfl⟩ := hsem
    split
    · rename_i hidle
      rw [decide_eq_true hidle]
      exact { h with startOnce := by simp [Gate.after], started := fun _ => rfl }
    · rename_i hidle
      rw [decide_eq_false hidle]
      exact h
  case enterFinish =>
    obtain ⟨-,rfl,rfl⟩ := hsem
    split
    · rename_i hidle
      rw [decide_eq_true hidle]
      exact { h with finishOnce := by simp [Gate.after] }
    · rename_i hidle
      rw [decide_eq_false hidle]
      exact h
  case leaveStart =>
    obtain rfl := hsem
    exact { h with startOnce := by simp [Gate.after, show b.gate.startEntered = true from hpre] }
  case leaveFinish =>
    obtain rfl := hsem
    exact { h with finishOnce := by simp [Gate.after, show b.gate.finishEntered = true from hpre] }
  case openReceiver =>
    obtain ⟨-,rfl⟩ := hsem
    split
    · exact h
    · exact { h with }
  case setFinishing =>
    obtain rfl := hsem
    exact { h with }
  case spawnReceiver =>
    obtain rfl := hsem
    exact { h with spawned := fun _ => rfl, started := fun _ => hpre.1, unmarked := fun _ => hpre.2 }
  case markReceiverDone =>
    obtain rfl := hsem
    refine { h with unmarked := fun hs => ?_, receiveDone := fun _ => .inl rfl,
                    awaited := fun _ => rfl }
    exact absurd ((show b.gate.receiverSpawned = false from hpre).symm.trans hs) (by decide)
  case awaitReceiver =>
    obtain ⟨hdone,rfl⟩ := hsem
    exact { h with awaited := fun _ => hdone }
  all_goals exact absurd rfl ho

theorem RouterHeld.mark (h : RouterHeld g g' s) :
    RouterHeld g { g' with marked := true } { s with receiveDone := true } :=
  { h with receiveDone := fun _ => .inr rfl, awaited := fun _ => rfl }

end

/-! The pair that `Run` registered is released. -/

def PairHeld (run : Books H) (s : DkgState H κ) : Prop :=
  s.holder = some none → run.registered = true ∧ run.released = false ∧
    ∃ active, s.pair.active = some active ∧ s.pair.leases none = some active.generation

omit [DecidableEq κ] in
theorem PairHeld.releases (h : PairHeld run s) : (s.release none).holder ≠ some none := by
  intro hholder
  unfold DkgState.release at hholder
  dsimp only at hholder
  split at hholder
  · cases hholder
  · rename_i hactive
    obtain ⟨-,-,active,hsome,hlease⟩ := h hholder
    simp [ActivePair.release, hsome, hlease] at hactive

omit [DecidableEq κ] in
theorem PairHeld.releaseOther (h : PairHeld run s) (lease : κ) :
    PairHeld run (s.release (some lease)) := by
  intro hholder
  unfold DkgState.release at hholder ⊢
  dsimp only at hholder ⊢
  split at hholder
  · cases hholder
  · rename_i hactive
    obtain ⟨hregistered,hreleased,active,hsome,hlease⟩ := h hholder
    refine ⟨hregistered,hreleased,active,?_⟩
    unfold ActivePair.release at hactive ⊢
    split at hactive
    · simp at hactive
    · rename_i hother
      rw [if_neg hother]
      exact ⟨hsome,hlease⟩

omit [DecidableEq κ] in
theorem PairHeld.frame {run' : Books H} (h : PairHeld run s)
    (hregistered : run'.registered = run.registered) (hreleased : run'.released = run.released)
    (hpair : t.pair = s.pair ∧ t.holder = s.holder) : PairHeld run' t := by
  unfold PairHeld
  rw [hregistered, hreleased, hpair.1, hpair.2]
  exact h

theorem PairHeld.moveRun (h : PairHeld run s) (hpre : runPre o run)
    (hsem : dkgSem L router .run o s r t) : PairHeld (run.after ⟨o,r⟩) t := by
  have hs := dkgSem_kept hsem
  cases o
  case register pair =>
    obtain ⟨rfl,rfl⟩ := hsem
    cases hactive : s.pair.active with
    | none =>
      intro _
      refine ⟨by simp [Books.after],by simp [Books.after, hpre.2],?_⟩
      simp [DkgState.register, DkgThread.lease, ActivePair.register]
    | some active =>
      refine h.frame ?_ ?_ ⟨rfl,rfl⟩ <;> simp [Books.after]
  case release =>
    obtain rfl : t = s.release none := hsem
    exact fun hholder => absurd hholder h.releases
  case releaseOther lease => exact hpre.elim
  all_goals
    have hb := run.after_kept _ r
    exact h.frame (hb.registered (by simp)) (hb.released (by simp))
      (hs.pair (by simp) (by simp) (by simp))

end

/-! The whole system. -/

structure DkgInv (acc : DkgThread κ → Books H) (s : DkgState H κ) : Prop where
  parties : Parties (acc .run) (fun party => acc (.party party)) s
  handles : Handles (acc .run) s
  router : RouterHeld (acc .run).gate (acc .receiver).gate s.router
  pair : PairHeld (acc .run) s

variable {acc : DkgThread κ → Books H}

theorem DkgInv.answers (h : DkgInv acc s) (hsem : dkgSem L router i o s r t) :
    dkgEnv i o (acc i) r := by
  cases i
  case run =>
    cases o
    case router o =>
      obtain ⟨_,hsem,-⟩ := hsem
      cases o
      case enterStart =>
        obtain ⟨-,rfl,-⟩ := hsem
        show decide _ = !(acc .run).gate.startEntered
        rw [Bool.eq_iff_iff]
        simp [h.router.startOnce]
      case enterFinish =>
        obtain ⟨-,rfl,-⟩ := hsem
        show decide _ = !(acc .run).gate.finishEntered
        rw [Bool.eq_iff_iff]
        simp [h.router.finishOnce]
      all_goals trivial
    all_goals trivial
  all_goals trivial

theorem DkgInv.moveRun (h : DkgInv acc s) (hpre : runPre o (acc .run))
    (hsem : dkgSem L router .run o s r t) :
    DkgInv (Function.update acc .run ((acc .run).after ⟨o,r⟩)) t := by
  have hrouter : RouterHeld ((acc .run).after ⟨o,r⟩).gate (acc .receiver).gate t.router := by
    cases o
    case router o =>
      obtain ⟨_,hsem,rfl⟩ := hsem
      exact h.router.moveRun hpre hsem
    all_goals
      rw [((acc .run).after_kept _ r).gate nofun, (dkgSem_kept hsem).router nofun]
      exact h.router
  exact ⟨h.parties.moveRun hpre hsem,h.handles.moveRun hsem,hrouter,h.pair.moveRun hpre hsem⟩

theorem update_party {α : Type} (f : DkgThread κ → α) (p : Party) (x : α) :
    (fun q => Function.update f (.party p) x (.party q)) =
      Function.update (fun q => f (.party q)) p x := by
  funext q
  by_cases hq : q = p
  · subst hq
    rw [Function.update_self, Function.update_self]
  · rw [Function.update_of_ne (by simpa using hq), Function.update_of_ne hq]

theorem DkgInv.moveParty {p : Party} (h : DkgInv acc s) (hpre : partyPre o (acc (.party p)))
    (hsem : dkgSem L router (.party p) o s r t) :
    DkgInv (Function.update acc (.party p) ((acc (.party p)).after ⟨o,r⟩)) t := by
  have hs := dkgSem_kept hsem
  have hrouter : RouterHeld (acc .run).gate (acc .receiver).gate t.router := by
    cases o
    case router o =>
      obtain ⟨_,hsem,rfl⟩ := hsem
      exact h.router.traffic hpre.2 hsem
    all_goals
      rw [hs.router (by simp)]
      exact h.router
  have hissued : t.issued = s.issued := hs.issued (by rintro rfl; exact hpre)
  have hpair := hs.pair (by rintro _ rfl; exact hpre) (by rintro rfl; exact hpre)
    (by rintro _ rfl; exact hpre)
  refine ⟨?_,⟨h.handles.nodup,hissued ▸ h.handles.issued⟩,hrouter,h.pair.frame rfl rfl hpair⟩
  rw [update_party]
  exact h.parties.moveParty hpre hsem

theorem DkgInv.moveReceiver (h : DkgInv acc s) (hpre : receiverPre o (acc .receiver))
    (hsem : dkgSem L router .receiver o s r t) :
    DkgInv (Function.update acc .receiver ((acc .receiver).after ⟨o,r⟩)) t := by
  have hs := dkgSem_kept hsem
  have hrouter : RouterHeld (acc .run).gate ((acc .receiver).after ⟨o,r⟩).gate t.router := by
    cases o
    case router o =>
      obtain ⟨_,hsem,rfl⟩ := hsem
      by_cases ho : o.steers = false
      · have hgate := Gate.after_traffic ho (acc .receiver).gate r
        simpa only [Books.after, hgate] using h.router.traffic ho hsem
      · cases o
        case markReceiverDone =>
          obtain rfl := hsem
          exact h.router.mark
        all_goals exact absurd hpre ho
    all_goals exact hpre.elim
  have hframe : (∀ party job, o ≠ .spawn party job) ∧ o ≠ .groupDone ∧ o ≠ .acquire ∧
      (∀ pair, o ≠ .register pair) ∧ o ≠ .release ∧ ∀ lease, o ≠ .releaseOther lease := by
    cases o
    case router => simp
    all_goals exact hpre.elim
  obtain ⟨hspawn,hdone,hacquire,hregister,hrelease,hother⟩ := hframe
  exact ⟨h.parties.frame (hs.jobs hspawn) (hs.ended hdone),
    ⟨h.handles.nodup,hs.issued hacquire ▸ h.handles.issued⟩,hrouter,
    h.pair.frame rfl rfl (hs.pair hregister hrelease hother)⟩

theorem DkgInv.moveOther {caller : κ} (h : DkgInv acc s) (hpre : otherPre o (acc (.other caller)))
    (hsem : dkgSem L router (.other caller) o s r t) :
    DkgInv (Function.update acc (.other caller) ((acc (.other caller)).after ⟨o,r⟩)) t := by
  have hs := dkgSem_kept hsem
  have hframe : (∀ party job, o ≠ .spawn party job) ∧ o ≠ .groupDone ∧ o ≠ .acquire ∧
      ∀ o', o ≠ .router o' := by
    cases o
    case register | releaseOther => simp
    all_goals exact hpre.elim
  obtain ⟨hspawn,hdone,hacquire,hrouter⟩ := hframe
  have hpair : PairHeld (acc .run) t := by
    cases o
    case register pair =>
      obtain ⟨-,rfl⟩ := hsem
      split
      · intro hholder
        cases Option.some.inj hholder
      · exact h.pair
    case releaseOther lease =>
      obtain rfl : t = s.release (some lease) := hsem
      exact h.pair.releaseOther lease
    all_goals exact hpre.elim
  exact ⟨h.parties.frame (hs.jobs hspawn) (hs.ended hdone),
    ⟨h.handles.nodup,hs.issued hacquire ▸ h.handles.issued⟩,hs.router hrouter ▸ h.router,hpair⟩

/-- The state before a run: the active pair may be another's. -/
def DkgState.idle (pair : ActivePair (Option κ)) (holder : Option κ) (issued : List H) :
    DkgState H κ :=
  { pair := pair, holder := holder.map some, issued := issued }

variable {config : DKGCoordinatorConfig} {intent : Intent} {network : Bool} {script : DkgScript κ}

theorem dkg_accounted (pair : ActivePair (Option κ)) (holder : Option κ) (issued : List H) :
    (dkgTeam L router config intent network script).Accounted (.idle pair holder issued)
      Books.after {} dkgEnv dkgPre dkgPost DkgInv where
  start := by
    refine ⟨⟨nofun,fun _ => ⟨nofun,.inl rfl,nofun,nofun⟩,nofun,nofun,nofun⟩,⟨.nil,nofun⟩,
      ⟨by simp [DkgState.idle],by simp [DkgState.idle],nofun,nofun,nofun,nofun,nofun⟩,?_⟩
    intro hholder
    cases holder <;> cases hholder
  meets i := dkgBody_meets intent network script i
  answers _ _ _ _ _ _ h _ hsem := h.answers hsem
  moves _ _ i _ _ _ h hpre hsem := by
    cases i with
    | run => exact h.moveRun hpre hsem
    | party p => exact h.moveParty hpre hsem
    | receiver => exact h.moveReceiver hpre hsem
    | other caller => exact h.moveOther hpre hsem

end

/-! What is read off a whole history. -/

def beginsJob : DkgEvent H κ → Bool
  | ⟨.beginJob,none⟩ => true
  | _ => false

def finishesJob : DkgEvent H κ → Bool
  | ⟨.finishJob,_⟩ => true
  | _ => false

theorem Books.after_begun (b : Books H) (e : DkgEvent H κ) :
    (b.after e).begun = (b.begun || beginsJob e) := by
  obtain ⟨o,r⟩ := e
  cases o
  case acquire => rcases r with _ | _ | _ <;> simp [Books.after, beginsJob]
  case beginJob | register => cases r <;> simp [Books.after, beginsJob]
  all_goals simp [Books.after, beginsJob]

theorem Books.after_finishes (b : Books H) (e : DkgEvent H κ) :
    (b.after e).finishes = b.finishes + if finishesJob e then 1 else 0 := by
  obtain ⟨o,r⟩ := e
  cases o
  case finishJob => rfl
  all_goals
    rw [(b.after_kept _ r).finishes (by simp)]
    rfl

section
variable [DecidableEq H]

/-- The call hands out the handle. -/
def acquires (x : H) : DkgEvent H κ → Bool
  | ⟨.acquire,.ok (some handle)⟩ => handle = x
  | _ => false

def discards (x : H) : DkgEvent H κ → Bool
  | ⟨.discard handle,_⟩ => handle = x
  | _ => false

/-- `RunDKGSessionWithPreParams` is called with the handle. -/
def runsWith (x : H) : DkgEvent H κ → Bool
  | ⟨.beginRun job,_⟩ => job.handle = some x
  | _ => false

theorem Books.after_acquired (b : Books H) (x : H) (e : DkgEvent H κ) :
    (b.after e).acquired.count x = b.acquired.count x + if acquires x e then 1 else 0 := by
  obtain ⟨o,r⟩ := e
  cases o
  case acquire => rcases r with _ | _ | _ <;> simp [Books.after, acquires, List.count_singleton]
  all_goals
    rw [(b.after_kept _ r).acquired (by simp)]
    rfl

theorem Books.after_discarded (b : Books H) (x : H) (e : DkgEvent H κ) :
    (b.after e).discarded.count x = b.discarded.count x + if discards x e then 1 else 0 := by
  obtain ⟨o,r⟩ := e
  cases o
  case discard handle => simp [Books.after, discards, List.count_singleton]
  case acquire => rcases r with _ | _ | _ <;> rfl
  case beginJob | register => cases r <;> rfl
  all_goals rfl

/-- The calls of Core with the handle, in an account. -/
def Books.ran (b : Books H) (x : H) : Nat := b.runs.countP fun job => job.handle = some x

theorem Books.after_ran (b : Books H) (x : H) (e : DkgEvent H κ) :
    (b.after e).ran x = b.ran x + if runsWith x e then 1 else 0 := by
  obtain ⟨o,r⟩ := e
  cases o
  case beginRun job => simp [Books.after, Books.ran, runsWith, List.countP_singleton]
  all_goals
    rw [Books.ran, (b.after_kept _ r).runs (by simp)]
    rfl

end

section
variable [DecidableEq κ] {L : Libraries} {router : Localrouter.Config}
  {config : DKGCoordinatorConfig} {intent : Intent} {network : Bool} {script : DkgScript κ}
  {pair : ActivePair (Option κ)} {holder : Option κ} {issued : List H}
  {h : Moves (DkgThread κ) (DkgOp H κ) DkgOp.Ans}
  {rest : DkgThread κ → DkgProg H κ (Option (Except Err DKGResult))} {s : DkgState H κ}

abbrev dkgBooks (h : Moves (DkgThread κ) (DkgOp H κ) DkgOp.Ans) : DkgThread κ → Books H :=
  Team.accounts Books.after {} h

theorem dkgBooks_snoc (h : Moves (DkgThread κ) (DkgOp H κ) DkgOp.Ans) (i : DkgThread κ)
    (e : DkgEvent H κ) : dkgBooks (h ++ [(i,e)]) =
      Function.update (dkgBooks h) i ((dkgBooks h i).after e) :=
  Team.accounts_snoc _ _ h i e

/-- How often something happened in a history. -/
def times (p : DkgEvent H κ → Bool) (h : Moves (DkgThread κ) (DkgOp H κ) DkgOp.Ans) : Nat :=
  h.countP fun m => p m.2

omit [DecidableEq κ] in
theorem times_snoc (p : DkgEvent H κ → Bool) (h : Moves (DkgThread κ) (DkgOp H κ) DkgOp.Ans)
    (i : DkgThread κ) (e : DkgEvent H κ) :
    times p (h ++ [(i,e)]) = times p h + if p e then 1 else 0 := by
  simp [times, List.countP_append, List.countP_singleton]

theorem dkg_inv (hrun : (dkgTeam L router config intent network script).Run
    (.idle pair holder issued) h rest s) : DkgInv (dkgBooks h) s :=
  (hrun.accounted (dkg_accounted pair holder issued)).1

omit [DecidableEq κ] in
theorem partyRun_only (party : Party) (traffic : List Traffic) :
    (partyRun config router party traffic : DkgProg H κ Unit).Only (· ≠ .groupDone) := by
  have htraffic : (onRouter (runTraffic router (config.partyID party) traffic) :
      DkgProg H κ Unit).Only (· ≠ .groupDone) :=
    (runTraffic_traffics _ _).relabel fun _ _ => by simp
  have hcall {o : DkgOp H κ} (ho : o ≠ .groupDone) : (dkg o).Only (· ≠ .groupDone) :=
    Prog.only_perform ho
  refine Prog.only_bind (hcall (by simp)) fun job => Prog.only_bind (hcall (by simp)) fun _ => ?_
  refine Prog.only_bind (hcall (by simp)) fun _ => Prog.only_bind (hcall (by simp)) fun _ => ?_
  refine Prog.only_bind htraffic fun _ => Prog.only_bind (hcall (by simp)) ?_
  intro (err : Option Err)
  cases err with
  | none => exact hcall (by simp)
  | some e => exact Prog.only_bind (hcall (by simp)) fun _ => hcall (by simp)

theorem party_ended {p : Party} (hrun : (dkgTeam L router config intent network script).Run
    (.idle pair holder issued) h rest s) (hdone : (dkgBooks h (.party p)).done = true) :
    rest (.party p) = .ret none := by
  have hkeep : ∀ (b : Books H) (e : DkgEvent H κ), ¬e.1 = .groupDone → (b.after e).done = b.done :=
    fun b e he => (b.after_kept e.1 e.2).done he
  obtain ⟨⟨o,r⟩,he,rfl⟩ := Team.account_flag Books.after {} Books.done rfl hkeep hdone
  exact (hrun.after (.party p)).last (partyRun_only p _) ⟨r,he⟩

theorem Gate.after_marked (g : Gate) {e : Event RouterOp RouterOp.Ans}
    (he : e.1 ≠ .markReceiverDone) : (g.after e).marked = g.marked := by
  obtain ⟨o,r⟩ := e
  cases o
  case markReceiverDone => exact absurd rfl he
  case enterStart | enterFinish => cases r <;> rfl
  all_goals rfl

theorem receiver_ended (hrun : (dkgTeam L router config intent network script).Run
    (.idle pair holder issued) h rest s) (hmarked : (dkgBooks h .receiver).gate.marked = true) :
    rest .receiver = .ret none := by
  have hkeep : ∀ (b : Books H) (e : DkgEvent H κ), ¬e.1 = .router .markReceiverDone →
      (b.after e).gate.marked = b.gate.marked := by
    rintro b ⟨o,r⟩ ho
    by_cases hrouter : ∃ o', o = .router o'
    · obtain ⟨o',rfl⟩ := hrouter
      exact b.gate.after_marked fun heq => ho (congrArg DkgOp.router heq)
    · rw [(b.after_kept o r).gate fun o' heq => hrouter ⟨o',heq⟩]
  obtain ⟨⟨o,r⟩,he,rfl⟩ := Team.account_flag Books.after {} (·.gate.marked) rfl hkeep hmarked
  refine (hrun.after .receiver).last ?_ ⟨r,he⟩
  refine (receive_traffics script.frames).relabel fun o ho heq => ?_
  obtain rfl := DkgOp.router.inj heq
  cases ho

def spawnsIn : DkgEvent H κ → List (Party × PartyJob H)
  | ⟨.spawn party job,_⟩ => [(party,job)]
  | _ => []

def runsIn : DkgEvent H κ → List (PartyJob H)
  | ⟨.beginRun job,_⟩ => [job]
  | _ => []

theorem mem_spawns {p : Party} {j : PartyJob H} :
    (p,j) ∈ (dkgBooks h .run).spawns ↔ ∃ r, (.run,⟨.spawn p j,r⟩) ∈ h := by
  have hstep : ∀ (b : Books H) (e : DkgEvent H κ), (b.after e).spawns = b.spawns ++ spawnsIn e := by
    rintro b ⟨o,r⟩
    cases o
    case spawn => rfl
    all_goals
      rw [(b.after_kept _ r).spawns (by simp)]
      exact (List.append_nil _).symm
  have hcollect := Team.account_collects Books.after ({} : Books H) hstep (Team.own .run h)
  rw [dkgBooks, Team.accounts, hcollect]
  constructor
  · intro hspawn
    obtain ⟨⟨o,r⟩,he,hin⟩ := List.mem_flatMap.mp hspawn
    cases o
    case spawn party job =>
      obtain ⟨rfl,rfl⟩ := Prod.mk.inj (List.mem_singleton.mp hin)
      exact ⟨r,Team.mem_own.mp he⟩
    all_goals cases hin
  · rintro ⟨r,he⟩
    exact List.mem_flatMap.mpr ⟨_,Team.mem_own.mpr he,List.mem_singleton.mpr rfl⟩

theorem mem_runs {p : Party} {j : PartyJob H} {r : Unit}
    (he : (.party p,⟨.beginRun j,r⟩) ∈ h) : j ∈ (dkgBooks h (.party p)).runs := by
  have hstep : ∀ (b : Books H) (e : DkgEvent H κ), (b.after e).runs = b.runs ++ runsIn e := by
    rintro b ⟨o,r⟩
    cases o
    case beginRun => rfl
    all_goals
      rw [(b.after_kept _ r).runs (by simp)]
      exact (List.append_nil _).symm
  rw [dkgBooks, Team.accounts, Team.account_collects Books.after ({} : Books H) hstep]
  exact List.mem_flatMap.mpr ⟨_,Team.mem_own.mpr he,List.mem_singleton.mpr rfl⟩

/-- Only `Run` begins and finishes the job. -/
structure JobTallied (h : Moves (DkgThread κ) (DkgOp H κ) DkgOp.Ans) : Prop where
  begun : (h.any fun m => beginsJob m.2) = (dkgBooks h .run).begun
  finishes : times finishesJob h = (dkgBooks h .run).finishes

omit [DecidableEq κ] in
theorem dkgPre_job {i : DkgThread κ} {o : DkgOp H κ} {b : Books H} (hpre : dkgPre i o b)
    (r : o.Ans) (hi : i ≠ .run) : beginsJob ⟨o,r⟩ = false ∧ finishesJob ⟨o,r⟩ = false := by
  cases o
  case beginJob | finishJob => cases i <;> first | exact hpre.elim | exact absurd rfl hi
  all_goals exact ⟨rfl,rfl⟩

theorem jobTallied (hrun : (dkgTeam L router config intent network script).Run
    (.idle pair holder issued) h rest s) : JobTallied h := by
  induction hrun with
  | start => exact ⟨rfl,rfl⟩
  | @move h _ _ _ o _ r i hrun' hi _ ih =>
    have hpre := hrun'.permitted (dkg_accounted pair holder issued) hi
    refine ⟨?_,?_⟩
    · rw [List.any_append, ih.begun, dkgBooks_snoc]
      by_cases hthread : i = .run
      · subst hthread
        rw [Function.update_self, Books.after_begun]
        simp
      · simp [Function.update_of_ne (Ne.symm hthread), (dkgPre_job hpre r hthread).1]
    · rw [times_snoc, ih.finishes, dkgBooks_snoc]
      by_cases hthread : i = .run
      · subst hthread
        rw [Function.update_self, Books.after_finishes]
      · rw [Function.update_of_ne (Ne.symm hthread), (dkgPre_job hpre r hthread).2]
        rfl

theorem returned_of_waited (hrun : (dkgTeam L router config intent network script).Run
    (.idle pair holder issued) h rest s) (hwaited : (dkgBooks h .run).waited = true) (p : Party) :
    ∃ e, (.party p,⟨.endRun,e⟩) ∈ h := by
  have hparties := (dkg_inv hrun).parties
  have hreturned := (hparties.sound p).done (hparties.waited hwaited p)
  have hkeep : ∀ (b : Books H) (e : DkgEvent H κ), ¬e.1 = .endRun →
      (b.after e).returned = b.returned := fun b e he => (b.after_kept e.1 e.2).returned he
  obtain ⟨⟨o,r⟩,he,rfl⟩ := Team.account_flag Books.after {} Books.returned rfl hkeep hreturned
  exact ⟨r,Team.mem_own.mp he⟩

theorem finished_last (hrun : (dkgTeam L router config intent network script).Run
    (.idle pair holder issued) h rest s) {h₁ h₂ : Moves (DkgThread κ) (DkgOp H κ) DkgOp.Ans}
    {r : Unit} (heq : h = h₁ ++ (.run,⟨.finishJob,r⟩) :: h₂) {p : Party} {j : PartyJob H}
    (hspawn : (p,j) ∈ (dkgBooks h .run).spawns) : ∃ e, (.party p,⟨.endRun,e⟩) ∈ h₁ := by
  obtain ⟨r',hmem⟩ := mem_spawns.mp hspawn
  obtain ⟨g₁,g₂,hg⟩ := List.append_of_mem hmem
  obtain hfinish | hstart := before_or_before (heq.symm.trans hg) (fun h => by cases h)
  · obtain ⟨_,_,_,_,hbefore,hnext,-,-⟩ := hrun.split hg
    have hnone := (hbefore.permitted (dkg_accounted pair holder issued) hnext).1
    rw [← (jobTallied hbefore).finishes, times, List.countP_eq_zero] at hnone
    exact absurd rfl (hnone _ hfinish)
  · obtain ⟨_,_,_,_,hbefore,hnext,-,-⟩ := hrun.split heq
    obtain hspawns | hwaited := hbefore.permitted (dkg_accounted pair holder issued) hnext
    · exact absurd hspawns (List.ne_nil_of_mem (mem_spawns.mpr ⟨r',hstart⟩))
    · exact returned_of_waited hbefore hwaited p

variable [DecidableEq H]

/-- Only `Run` acquires and discards handles, and only the parties call Core. -/
structure Tallied (x : H) (h : Moves (DkgThread κ) (DkgOp H κ) DkgOp.Ans) : Prop where
  acquired : times (acquires x) h = (dkgBooks h .run).acquired.count x
  discarded : times (discards x) h = (dkgBooks h .run).discarded.count x
  ran : times (runsWith x) h =
    (dkgBooks h (.party .primary)).ran x + (dkgBooks h (.party .recovery)).ran x

omit [DecidableEq κ] in
theorem dkgPre_quiet {i : DkgThread κ} {o : DkgOp H κ} {b : Books H} (hpre : dkgPre i o b)
    (r : o.Ans) (x : H) :
    (i ≠ .run → acquires x ⟨o,r⟩ = false ∧ discards x ⟨o,r⟩ = false) ∧
      ((∀ p, i ≠ .party p) → runsWith x ⟨o,r⟩ = false) := by
  cases o
  case acquire | discard | beginRun =>
    cases i <;> first | exact hpre.elim | exact ⟨fun hi => absurd rfl hi,fun _ => rfl⟩ |
      exact ⟨fun _ => ⟨rfl,rfl⟩,fun hi => absurd rfl (hi _)⟩
  all_goals exact ⟨fun _ => ⟨rfl,rfl⟩,fun _ => rfl⟩

theorem Tallied.move {x : H} (h' : Tallied x h) {i : DkgThread κ} {o : DkgOp H κ} (r : o.Ans)
    (hpre : dkgPre i o (dkgBooks h i)) : Tallied x (h ++ [(i,⟨o,r⟩)]) := by
  obtain ⟨hrun,hparty⟩ := dkgPre_quiet hpre r x
  refine ⟨?_,?_,?_⟩
  · rw [times_snoc, h'.acquired, dkgBooks_snoc]
    by_cases hi : i = .run
    · subst hi
      rw [Function.update_self, Books.after_acquired]
    · rw [Function.update_of_ne (Ne.symm hi), (hrun hi).1]
      rfl
  · rw [times_snoc, h'.discarded, dkgBooks_snoc]
    by_cases hi : i = .run
    · subst hi
      rw [Function.update_self, Books.after_discarded]
    · rw [Function.update_of_ne (Ne.symm hi), (hrun hi).2]
      rfl
  · rw [times_snoc, h'.ran, dkgBooks_snoc]
    cases i with
    | party p =>
      cases p with
      | primary =>
        rw [Function.update_self, Function.update_of_ne (by simp), Books.after_ran]
        omega
      | recovery =>
        rw [Function.update_self, Function.update_of_ne (by simp), Books.after_ran]
        omega
    | _ =>
      rw [Function.update_of_ne (by simp), Function.update_of_ne (by simp), hparty (by simp)]
      rfl

theorem tallied (x : H) (hrun : (dkgTeam L router config intent network script).Run
    (.idle pair holder issued) h rest s) : Tallied x h := by
  induction hrun with
  | start => exact ⟨rfl,rfl,rfl⟩
  | move i hrun' hi _ ih => exact ih.move _ (hrun'.permitted (dkg_accounted pair holder issued) hi)

/-- What a run that has returned has left behind. -/
structure Released (h : Moves (DkgThread κ) (DkgOp H κ) DkgOp.Ans)
    (rest : DkgThread κ → DkgProg H κ (Option (Except Err DKGResult))) (s : DkgState H κ) :
    Prop where
  handles : ∀ x, 0 < times (acquires x) h →
    times (runsWith x) h = 1 ∧ times (discards x) h = 0 ∨
      times (runsWith x) h = 0 ∧ times (discards x) h = 1
  apart : ∀ p q j k r r', (.party p,⟨.beginRun j,r⟩) ∈ h → (.party q,⟨.beginRun k,r'⟩) ∈ h →
    p ≠ q → ∀ x, j.handle = some x → k.handle ≠ some x
  finished : times finishesJob h = if h.any fun m => beginsJob m.2 then 1 else 0
  finishedLast : ∀ h₁ h₂ r, h = h₁ ++ (.run,⟨.finishJob,r⟩) :: h₂ →
    ∀ p j r', (.party p,⟨.beginRun j,r'⟩) ∈ h → ∃ e, (.party p,⟨.endRun,e⟩) ∈ h₁
  pair : s.holder ≠ some none
  receiver : s.router.spawned = true → rest .receiver = .ret none
  parties : ∀ p, s.jobs p ≠ none → rest (.party p) = .ret none

theorem count_toList (handle : Option H) (x : H) :
    handle.toList.count x = if handle = some x then 1 else 0 := by
  cases handle <;> simp [List.count_singleton]

theorem Books.ran_singleton {b : Books H} {j : PartyJob H} (h : b.runs = [j]) (x : H) :
    b.ran x = if j.handle = some x then 1 else 0 := by
  simp [Books.ran, h, List.countP_singleton]

omit [DecidableEq κ] [DecidableEq H] in
theorem Parties.ran_started {run : Books H} {party : Party → Books H} (hp : Parties run party s)
    {primary recovery : PartyJob H}
    (hspawns : run.spawns = [(.primary,primary),(.recovery,recovery)])
    (hwaited : run.waited = true) (p : Party) :
    (party p).runs = [match p with | .primary => primary | .recovery => recovery] := by
  have hsound := hp.sound p
  have hran := hsound.returned (hsound.done (hp.waited hwaited p))
  obtain ⟨j,hjob,hruns⟩ := hsound.ran.resolve_left hran
  have hmem := hsound.got j hjob
  rw [hspawns] at hmem
  rw [hruns]
  cases p <;> simpa using hmem

omit [DecidableEq κ] in
theorem Books.Disposed.tally {run : Books H} {party : Party → Books H} (hp : Parties run party s)
    (h : run.Disposed) (x : H) :
    ((party .primary).ran x + (party .recovery).ran x = run.acquired.count x ∧
        run.discarded.count x = 0) ∨
      ((party .primary).ran x + (party .recovery).ran x = 0 ∧
        run.discarded.count x = run.acquired.count x) := by
  obtain ⟨hspawns,hdiscarded⟩ | ⟨primary,recovery,hspawns,hwaited,hdiscarded,hacquired⟩ := h
  · have hidle : ∀ p, (party p).ran x = 0 := by
      intro p
      obtain hruns | ⟨j,hjob,-⟩ := (hp.sound p).ran
      · simp [Books.ran, hruns]
      · have hmem := (hp.sound p).got j hjob
        rw [hspawns] at hmem
        cases hmem
    exact .inr ⟨by rw [hidle, hidle],by rw [hdiscarded]⟩
  · have hprimary := Books.ran_singleton (hp.ran_started hspawns hwaited .primary) x
    have hrecovery := Books.ran_singleton (hp.ran_started hspawns hwaited .recovery) x
    exact .inl ⟨by rw [hprimary, hrecovery, hacquired, List.count_append, count_toList,
      count_toList],by rw [hdiscarded]; rfl⟩

theorem Books.ran_pos {b : Books H} {j : PartyJob H} {x : H} (hj : j ∈ b.runs)
    (hx : j.handle = some x) : 0 < b.ran x :=
  List.countP_pos_iff.mpr ⟨j,hj,by simpa using hx⟩

/-- However the run goes, everything is released once. -/
theorem dkg_run_releases (L : Libraries) (router : Localrouter.Config)
    (config : DKGCoordinatorConfig) (intent : Intent) (network : Bool) (script : DkgScript κ)
    (pair : ActivePair (Option κ)) (holder : Option κ) (issued : List H)
    (h : Moves (DkgThread κ) (DkgOp H κ) DkgOp.Ans)
    (rest : DkgThread κ → DkgProg H κ (Option (Except Err DKGResult))) (s : DkgState H κ)
    (result : Option (Except Err DKGResult))
    (hrun : (dkgTeam L router config intent network script).Run (.idle pair holder issued) h rest s)
    (hreturns : rest .run = .ret result) : Released h rest s := by
  have hinv := dkg_inv hrun
  have hclosed : (dkgBooks h .run).Closed :=
    hrun.settled (dkg_accounted pair holder issued) hreturns
  have hsum := fun x => hclosed.disposed.tally hinv.parties x
  have honce := fun x => List.nodup_iff_count_le_one.mp hinv.handles.nodup x
  have hspawned : ∀ p j r, (.party p,⟨.beginRun j,r⟩) ∈ h → (p,j) ∈ (dkgBooks h .run).spawns := by
    intro p j r he
    have hmem := mem_runs he
    obtain hruns | ⟨k,hjob,hruns⟩ := (hinv.parties.sound p).ran
    · rw [hruns] at hmem
      cases hmem
    · rw [hruns, List.mem_singleton] at hmem
      exact hmem ▸ (hinv.parties.sound p).got k hjob
  refine ⟨fun x hx => ?_,?_,?_,?_,?_,?_,?_⟩
  · have htally := tallied x hrun
    rw [htally.acquired] at hx
    rw [htally.ran, htally.discarded]
    have := hsum x
    have := honce x
    omega
  · intro p q j k r r' hj hk hpq x hjx hkx
    have hp := Books.ran_pos (mem_runs hj) hjx
    have hq := Books.ran_pos (mem_runs hk) hkx
    have := hsum x
    have := honce x
    cases p <;> cases q <;> first | exact hpq rfl | omega
  · rw [(jobTallied hrun).finishes, (jobTallied hrun).begun]
    exact hclosed.finished
  · intro h₁ h₂ r heq p j r' hj
    exact finished_last hrun heq (hspawned p j r' hj)
  · intro hholder
    obtain ⟨hregistered,hreleased,-⟩ := hinv.pair hholder
    rw [hclosed.released hregistered] at hreleased
    cases hreleased
  · intro hspawn
    have hrec := hinv.router.spawned hspawn
    have hawaited := hclosed.awaited (hinv.router.started hrec)
    obtain hmarked | hmarked := hinv.router.receiveDone (hinv.router.awaited hawaited)
    · rw [hinv.router.unmarked hrec] at hmarked
      cases hmarked
    · exact receiver_ended hrun hmarked
  · intro p hjob
    obtain ⟨j,hj⟩ := Option.ne_none_iff_exists'.mp hjob
    have hmem := hinv.parties.jobs p j hj
    obtain ⟨hspawns,-⟩ | ⟨_,_,-,hwaited,-,-⟩ := hclosed.disposed
    · rw [hspawns] at hmem
      cases hmem
    · exact party_ended hrun (hinv.parties.waited hwaited p)

end

/-! A run without failures. -/

/-- An environment without failures; the artifacts are as given. -/
def dkgServe [DecidableEq κ] (inspected : StorePurpose → Except Err ArtifactEvidence)
    (i : DkgThread κ) :
    (o : DkgOp Nat κ) → DkgState Nat κ → Option (o.Ans × DkgState Nat κ)
  | .router o, s =>
      (routerServe o s.router).map fun c => (c.1,{ s with router := c.2 })
  | .acquire, s =>
      if s.issued.length ∈ s.issued then none
      else some (.ok (some s.issued.length),{ s with issued := s.issued.length :: s.issued })
  | .register pair, s => some (s.pair.active.isNone,
      if s.pair.active.isNone then s.register i.lease pair else s)
  | .release, s => some ((),s.release none)
  | .spawn party job, s => some ((),{ s with jobs := Function.update s.jobs party (some job) })
  | .spawned, s =>
      match i with
      | .party party => (s.jobs party).map fun job => (job,s)
      | _ => none
  | .ready, s =>
      match i with
      | .party party => some ((),{ s with ready := Function.update s.ready party true })
      | _ => none
  | .awaitReady, s => if s.ready .primary && s.ready .recovery then some ((),s) else none
  | .openStart, s => some ((),{ s with startOpen := true })
  | .awaitStart, s => if s.startOpen then some ((),s) else none
  | .sendResult err, s =>
      match i with
      | .party party => some ((),{ s with results := s.results ++ [(party,err)] })
      | _ => none
  | .groupDone, s =>
      match i with
      | .party party => some ((),{ s with ended := Function.update s.ended party true })
      | _ => none
  | .select, s =>
      match s.results with
      | result :: rest => some (some result,{ s with results := rest })
      | [] => none
  | .takeResult, s =>
      match s.results with
      | result :: rest => some (result,{ s with results := rest })
      | [] => none
  | .awaitGroup, s => if s.ended .primary && s.ended .recovery then some ((),s) else none
  | .now, s => some ((0 : Int),s)
  | .inspect purpose _, s => some (inspected purpose,s)
  | .beginJob, s | .discard _, s | .ctxErr, s | .endRun, s => some ((none : Option Err),s)
  | .cancelRun, s | .finishJob, s | .beginRun _, s | .cancelParty _, s => some ((),s)
  | .releaseOther _, _ => none

theorem dkgServe_sem [DecidableEq κ] (L : Libraries) (router : Localrouter.Config)
    {inspected : StorePurpose → Except Err ArtifactEvidence} {i : DkgThread κ} {o : DkgOp Nat κ}
    {s t : DkgState Nat κ} {r : o.Ans} (h : dkgServe inspected i o s = some (r,t)) :
    dkgSem L router i o s r t := by
  cases o
  case router o =>
    obtain ⟨⟨r',router'⟩,hr,heq⟩ := Option.map_eq_some_iff.mp h
    obtain ⟨rfl,rfl⟩ := Prod.mk.inj heq
    exact ⟨router',routerServe_sem L router hr,rfl⟩
  case acquire =>
    simp only [dkgServe, Option.ite_none_left_eq_some] at h
    obtain ⟨hfresh,heq⟩ := h
    obtain ⟨rfl,rfl⟩ := Prod.mk.inj (Option.some.inj heq)
    exact ⟨hfresh,rfl⟩
  case register =>
    obtain ⟨rfl,rfl⟩ := Prod.mk.inj (Option.some.inj h)
    exact ⟨rfl,rfl⟩
  case spawned =>
    cases i with
    | party party =>
      obtain ⟨job,hjob,heq⟩ := Option.map_eq_some_iff.mp h
      obtain ⟨rfl,rfl⟩ := Prod.mk.inj heq
      exact ⟨⟨party,rfl,hjob⟩,rfl⟩
    | _ => cases h
  case ready | sendResult | groupDone =>
    cases i with
    | party party =>
      obtain ⟨-,rfl⟩ := Prod.mk.inj (Option.some.inj h)
      exact ⟨party,rfl,rfl⟩
    | _ => cases h
  case awaitReady | awaitGroup =>
    simp only [dkgServe, Bool.and_eq_true, Option.ite_none_right_eq_some] at h
    obtain ⟨⟨hprimary,hrecovery⟩,heq⟩ := h
    obtain ⟨-,rfl⟩ := Prod.mk.inj (Option.some.inj heq)
    refine ⟨fun party => ?_,rfl⟩
    cases party
    · exact hprimary
    · exact hrecovery
  case awaitStart =>
    simp only [dkgServe, Option.ite_none_right_eq_some] at h
    obtain ⟨hopen,heq⟩ := h
    obtain ⟨-,rfl⟩ := Prod.mk.inj (Option.some.inj heq)
    exact ⟨hopen,rfl⟩
  case select | takeResult =>
    simp only [dkgServe] at h
    cases hresults : s.results with
    | cons result rest =>
      simp only [hresults] at h
      obtain ⟨rfl,rfl⟩ := Prod.mk.inj (Option.some.inj h)
      exact ⟨rest,hresults,rfl⟩
    | nil =>
      simp only [hresults] at h
      cases h
  case releaseOther => cases h
  all_goals
    obtain ⟨-,rfl⟩ := Prod.mk.inj (Option.some.inj h)
    rfl

def sampleChainCode : Bytes := List.replicate 32 0x42

def dkgFingerprint : Bytes :=
  Strings.bigEndian 32 0x3957ed3d02d5ece1bcc8a1f8156dff6685bf48552220d3079f17c684894f3f56

def dkgLibraries : Libraries :=
  { jcsLibraries with
    sha256 := tabled [(goldenDescriptor.encode,dkgFingerprint),
      (sampleChainCode,goldenMaterial.chainCodeHash)] }

def sampleParties : DKGCoordinatorConfig where
  platformPartyID := ascii "mpc-signer"
  primaryPartyID := ascii "co-signer-primary"
  recoveryPartyID := ascii "co-signer-recovery"

def sampleDkgIntent : Intent where
  type := ascii "DKG"
  sessionID := ascii "dkg-1"
  expiresAt := (10 : Int)
  payload := {
    orgID := ascii "org-1"
    keyID := goldenDescriptor.keyID
    descriptorBytes := goldenDescriptor.encode
    descriptorFingerprint := digestString dkgFingerprint
    chainCode := hexEncode sampleChainCode
    chainCodeHash := goldenDescriptor.chainCodeHash }

def sampleEvidence (purpose : StorePurpose) : ArtifactEvidence where
  sessionID := sampleDkgIntent.sessionID
  keyID := goldenDescriptor.keyID
  partyID := purpose.partyID
  purpose := purpose
  descriptorFingerprint := dkgFingerprint
  accountPublicKey := goldenMaterial.accountPublicKey
  chainCodeHash := goldenMaterial.chainCodeHash

def sampleRouter : Localrouter.Config :=
  routerConfig sampleParties sampleDkgIntent goldenDescriptor

/-- Nobody else uses the active pair. -/
def dkgAlone : DkgScript Empty := ⟨fun _ => [],1,Empty.elim⟩

def dkgOrder : List (DkgThread Empty) :=
  List.replicate 13 .run ++ [.party .primary,.party .primary,.party .recovery,.party .recovery,
    .run,.run] ++ List.replicate 5 (.party .primary) ++ List.replicate 5 (.party .recovery) ++
  List.replicate 11 .run ++ List.replicate 4 .receiver ++ List.replicate 12 .run

theorem sampleDkg_run : ∃ d : Team.Point (DkgThread Empty) (DkgOp Nat Empty) DkgOp.Ans
    (DkgState Nat Empty) (Option (Except Err DKGResult)),
    d.rest .run = .ret (some (.ok ⟨sampleEvidence .primary,sampleEvidence .recovery⟩)) ∧
      (dkgTeam dkgLibraries sampleRouter sampleParties sampleDkgIntent true dkgAlone).Run
        (.idle {} none []) d.moves d.rest d.shared := by
  have hplay : (Team.play (dkgServe fun p => .ok (sampleEvidence p))
      (dkgTeam dkgLibraries sampleRouter sampleParties sampleDkgIntent true dkgAlone)
      (.idle {} none []) dkgOrder).map (fun d => (d.rest .run).result) =
        some (some (some (.ok ⟨sampleEvidence .primary,sampleEvidence .recovery⟩))) := by
    decide +kernel
  obtain ⟨d,hd,hrest⟩ := Option.map_eq_some_iff.mp hplay
  exact ⟨d,Prog.result_some hrest,Team.play_run (dkgServe_sem dkgLibraries sampleRouter) hd⟩

theorem dkg_run_releases_sample : ∃ (h : Moves (DkgThread Empty) (DkgOp Nat Empty) DkgOp.Ans)
    (rest : DkgThread Empty → DkgProg Nat Empty (Option (Except Err DKGResult)))
    (s : DkgState Nat Empty),
    rest .run = .ret (some (.ok ⟨sampleEvidence .primary,sampleEvidence .recovery⟩)) ∧
      Released h rest s := by
  obtain ⟨d,hreturns,hrun⟩ := sampleDkg_run
  exact ⟨d.moves,d.rest,d.shared,hreturns,
    dkg_run_releases _ _ _ _ _ _ _ _ _ _ _ _ _ hrun hreturns⟩

end CoSigner.Worker
