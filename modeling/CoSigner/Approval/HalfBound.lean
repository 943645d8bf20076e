import CoSigner.Approval.Runs
import CoSigner.Approval.Service

/-! An execution with only one of its two records. Nothing repairs it: the calls that
would use it fail, and no call adds the missing record. -/
namespace CoSigner.Approval
open Attempt Contract SigningPolicy Monolith
variable (L : Libraries)

/-- Exactly one of the two records of an execution is there. -/
def HalfBound (d : Directory) (org request : Bytes) : Prop :=
  (d (path L org request .execution)).isSome ≠ (d (path L org request .executionKnown)).isSome

/-- The files outside `T` are those of `d`, with the same content. -/
def Unchanged (T : Bytes → Prop) (d d' : Directory) : Prop :=
  ∀ name, ¬ T name → (d' name).map (·.content) = (d name).map (·.content)

section Unchanged
variable {T : Bytes → Prop} {d d' d'' : Directory}

theorem Unchanged.syncs {ok : Bool} (h : Unchanged T d d') (hs : d'.Syncs ok d'') :
    Unchanged T d d'' := by
  intro name hname
  cases ok with
  | true =>
    rw [show d'' = d'.syncAll from hs, ← h name hname]
    simp [Directory.syncAll, Function.comp_def]
  | false => exact (show d'' = d' from hs) ▸ h name hname

theorem Unchanged.publishes {name raw : Bytes} {ok : Bool} (h : Unchanged T d d')
    (hT : T name) (hp : d'.Publishes name raw ok d'') : Unchanged T d d'' := by
  intro name' hname
  have hne : name' ≠ name := fun heq => hname (heq ▸ hT)
  rw [hp.other hne]
  exact h name' hname

theorem HalfBound.unchanged {org request : Bytes} (h : HalfBound L d org request)
    (hT : ∀ kind, kind = .execution ∨ kind = .executionKnown → ¬ T (path L org request kind))
    (hd : Unchanged T d d') : HalfBound L d' org request := by
  have hsome (kind : Kind) (hkind : kind = .execution ∨ kind = .executionKnown) :
      (d' (path L org request kind)).isSome = (d (path L org request kind)).isSome := by
    simpa using congrArg Option.isSome (hd _ (hT kind hkind))
  unfold HalfBound
  rw [hsome _ (.inl rfl), hsome _ (.inr rfl)]
  exact h

end Unchanged

/-- Only names in `T` are created, and the other files stay as they are in `w`. -/
def keepingDiscipline (w : World) (T : Bytes → Prop) : Discipline Op Answer World where
  sem := World.Performs
  rely s t := s.directory.Grows t.directory
  inv s := Unchanged T w.directory s.directory
  pre
    | .read name, _ => RecordName name
    | .publish _ name, _ => T name
    | _, _ => True

theorem keepingFrame (w : World) (T : Bytes → Prop) :
    JournalFrame (keepingDiscipline w T) T fun s t => s.directory.Grows t.directory where
  refl s := Directory.Grows.refl _
  trans h h' := h.trans h'
  relyRefl s := Directory.Grows.refl _
  relyTrans _ _ _ h h' := h.trans h'
  rely h := h
  sem := rfl
  grows h := h
  quietPre {o} ho s := by cases o <;> trivial
  quiet _ h := h.grows
  readPre hname _ := hname
  publishPre hT _ _ := hT
  publishes _ h := h.grows

theorem keeping_keeps {w : World} {T : Bytes → Prop} {o : Op} {s t : World} {r : Answer o}
    (hinv : (keepingDiscipline w T).inv s) (hpre : (keepingDiscipline w T).pre o s)
    (hsem : World.Performs o s r t) : (keepingDiscipline w T).inv t := by
  by_cases ho : o.quiet = true
  · obtain ⟨-,ok,hsync⟩ := hsem.quiet ho
    exact hinv.syncs hsync
  · cases o with
    | read name => cases r <;> exact hsem.2 ▸ hinv
    | publish draft name =>
      obtain ⟨raw,d,-,hd,rfl⟩ := hsem
      exact hinv.publishes hpre hd
    | evaluate endpoint orgID item => exact (show t = _ from hsem) ▸ hinv
    | autoApprove orgID requestID => exact (show t = _ from hsem) ▸ hinv
    | send orgID requestID body => exact (show t = _ from hsem) ▸ hinv
    | _ => exact absurd rfl ho

theorem path_congr {org request org' request' : Bytes}
    (h : recordKey L org' request' = recordKey L org request) (kind : Kind) :
    path L org' request' kind = path L org request kind := by
  rw [path, path, h]

section Half
variable {w : World} {T : Bytes → Prop} {org request org' request' : Bytes} {s : World}

/-- The pair stays half bound as long as its two files are kept. -/
structure Kept (w : World) (T : Bytes → Prop) (org request : Bytes) : Prop where
  half : HalfBound L w.directory org request
  names : ∀ kind, kind = .execution ∨ kind = .executionKnown → ¬ T (path L org request kind)

variable {L}

theorem Kept.now (h : Kept L w T org request) (hi : (keepingDiscipline w T).inv s) :
    HalfBound L s.directory org request :=
  h.half.unchanged L h.names hi

variable (hK : Kept L w T org request)
  (hkey : recordKey L org' request' = recordKey L org request)
include hK hkey

theorem Kept.loadExecution (hi : (keepingDiscipline w T).inv s) (state : State) :
    Safe (keepingDiscipline w T) (fun s t => s.directory.Grows t.directory)
      (Approval.loadExecution L org' request' state) (fun _ _ => False) s := by
  have F := keepingFrame w T
  refine Safe.bind F.toFrame hi (F.readRecord hi decodeExecution (path_recordName L _ _ _))
    fun execution t hst hit he => ?_
  refine Safe.bind F.toFrame hit (F.readRecord hit decodeExecutionKnown (path_recordName L _ _ _))
    fun known u htu hiu hk => ?_
  replace he := he.here F.toFrame hit
  replace hk := hk.here F.toFrame hiu
  rw [path_congr L hkey] at he hk
  cases execution with
  | none =>
    cases known with
    | none =>
      -- neither was there when the load began
      have hknown := Directory.Grows.absent hst (hk.2 rfl)
      exact absurd (hK.now hi) (by simp [HalfBound, he.2 rfl, hknown])
    | some k => exact Safe.throw F.toFrame _ _
  | some x =>
    cases known with
    | none => exact Safe.throw F.toFrame _ _
    | some k =>
      obtain ⟨raw,hraw,-⟩ := he.1 x rfl
      obtain ⟨rawKnown,hrawKnown,-⟩ := hk.1 k rfl
      obtain ⟨_,hexecution⟩ := hraw.grows htu
      obtain ⟨_,hknown⟩ := hrawKnown
      exact absurd (hK.now hiu) (by simp [HalfBound, hexecution, hknown])

theorem Kept.loadState (hi : (keepingDiscipline w T).inv s) :
    Safe (keepingDiscipline w T) (fun s t => s.directory.Grows t.directory)
      (Approval.loadState L org' request') (fun _ _ => False) s := by
  have F := keepingFrame w T
  refine F.ensureThen hi fun _ t _ hit => ?_
  refine Safe.bind F.toFrame hit (F.check hit) fun _ t _ hit _ => ?_
  refine Safe.bind F.toFrame hit (F.loadAdmission L hit org' request') fun a t _ hit _ => ?_
  refine Safe.bind F.toFrame hit (F.loadReceipt L hit org' request' a) fun r t _ hit _ => ?_
  refine Safe.bind F.toFrame hit (F.loadAcknowledgement L hit org' request' r)
    fun application t _ hit _ => ?_
  exact Safe.bind F.toFrame hit (hK.loadExecution hkey hit _)
    fun _ _ _ hit h => (h.here F.toFrame hit).elim

theorem Kept.load :
    Safe (keepingDiscipline w T) (fun s t => s.directory.Grows t.directory)
      (Approval.load L org' request') (fun _ _ => False) s :=
  (keepingFrame w T).locked (P := fun _ _ => False) (fun _ _ _ _ => id)
    fun _ _ hit => hK.loadState hkey hit

theorem Kept.bindExecution {x : ExecutionBinding} (horg : x.orgID = org')
    (hrequest : x.requestID = request') :
    Safe (keepingDiscipline w T) (fun s t => s.directory.Grows t.directory)
      (Approval.bindExecution L x) (fun _ _ => False) s := by
  have F := keepingFrame w T
  refine F.locked (P := fun _ _ => False) (fun _ _ _ _ => id) fun t _ hit => ?_
  refine Safe.bind F.toFrame hit (Q := fun _ _ => False) ?_
    fun _ _ _ hit h => (h.here F.toFrame hit).elim
  rw [horg, hrequest]
  exact hK.loadState hkey hit

theorem Kept.authorize (hi : (keepingDiscipline w T).inv s) {i : Intent} {a : ApprovedExecution}
    (ha : i.approval = some a) (horg : i.payload.orgID = org') (hrequest : a.requestID = request') :
    Safe (keepingDiscipline w T) (fun s t => s.directory.Grows t.directory)
      (Approval.authorize L i) (fun _ _ => False) s := by
  have F := keepingFrame w T
  refine F.ensureThen hi fun _ t _ hit => ?_
  split
  · rename_i b p hb hp
    obtain rfl : a = b := Option.some.inj (ha.symm.trans hb)
    refine F.ensureThen hit fun _ t _ hit => ?_
    refine Safe.bind F.toFrame hit (Q := fun _ _ => False) ?_
      fun _ _ _ hit h => (h.here F.toFrame hit).elim
    rw [horg, hrequest]
    exact hK.load hkey
  · exact Safe.throw F.toFrame _ _

end Half

/-- The calls that load or bind the execution filed under a key. -/
def Call.executes (key : Bytes) : Call → Prop
  | .load org request => recordKey L org request = key
  | .bindExecution x => recordKey L x.orgID x.requestID = key
  | .authorize i => ∃ a, i.approval = some a ∧ recordKey L i.payload.orgID a.requestID = key
  | _ => False

section Runs
variable {w : World} {T : Bytes → Prop} {org request : Bytes}

theorem Kept.refuses (hK : Kept L w T org request) {c : Call}
    (hc : c.executes L (recordKey L org request)) {s : World}
    (hi : (keepingDiscipline w T).inv s) :
    Safe (keepingDiscipline w T) (fun s t => s.directory.Grows t.directory) (c.body L)
      (fun _ _ => False) s := by
  have F := keepingFrame w T
  cases c with
  | load org' request' =>
    exact Safe.bind F.toFrame hi (hK.load hc) fun _ _ _ hit h => (h.here F.toFrame hit).elim
  | bindExecution x =>
    exact Safe.bind F.toFrame hi (hK.bindExecution hc rfl rfl)
      fun _ _ _ hit h => (h.here F.toFrame hit).elim
  | authorize i =>
    obtain ⟨a,ha,hkey⟩ := hc
    exact Safe.bind F.toFrame hi (hK.authorize hkey hi ha rfl rfl)
      fun _ _ _ hit h => (h.here F.toFrame hit).elim
  | _ => exact hc.elim

/-- A crash that keeps the files outside `T`. -/
def crashKeeping (w : World) (T : Bytes → Prop) (s t : World) : Prop :=
  s.Crash t ∧ Unchanged T w.directory t.directory

/-- Calls that load or bind the half bound execution fail in every run; the others create
names in `T`. -/
theorem Kept.sound (hK : Kept L w T org request) (ι : Type) {C : Type} (f : C → Call)
    (hf : ∀ c, (f c).executes L (recordKey L org request) ∨
      ∀ name, (f c).creates L name → T name) :
    Pool.Sound ι (keepingDiscipline w T) (fun c => (f c).run L) (crashKeeping w T)
      fun c r _ => (f c).executes L (recordKey L org request) → ∃ e, r = .error e where
  refl s := Directory.Grows.refl _
  trans _ _ _ h h' := h.trans h'
  keeps _ _ _ _ hinv hpre hsem := keeping_keeps hinv hpre hsem
  interferes _ _ _ _ _ _ _ _ _ hsem := World.Performs.grows hsem
  bodies c s hinv := by
    rcases Classical.em ((f c).executes L (recordKey L org request)) with hex | hex
    · refine Prog.Meets.mono (hK.refuses L hex hinv) fun r t _ h _ => ?_
      cases r with
      | error e => exact ⟨e,rfl⟩
      | ok o => exact (h.2 o rfl).elim
    · have hN := (hf c).resolve_left hex
      exact Prog.Meets.mono ((keepingFrame w T).body L hinv (f c) hN) fun r t _ _ h => absurd h hex
  stable _ _ _ _ _ _ _ _ _ h := h
  crashed _ _ _ hc := hc.2
  survives _ _ _ _ _ _ h := h

theorem Kept.good (hK : Kept L w T org request) {ι : Type} [DecidableEq ι]
    {C : Type} {f : C → Call} (hf : ∀ c, (f c).executes L (recordKey L org request) ∨
      ∀ name, (f c).creates L name → T name)
    {p : Pool ι C Op Answer World (Except Err Outcome)}
    (h : Pool.Reach World.Performs (fun c => (f c).run L) (crashKeeping w T) (opened w) p) :
    p.Good (keepingDiscipline w T)
      fun c r _ => (f c).executes L (recordKey L org request) → ∃ e, r = .error e :=
  Pool.Reach.good (hK.sound L ι f hf) h
    ⟨fun _ _ => rfl,by simp [opened],by simp [opened]⟩

end Runs

/-- The names of all files but the two of one execution. -/
def otherNames (org request name : Bytes) : Prop :=
  name ≠ path L org request .execution ∧ name ≠ path L org request .executionKnown

theorem HalfBound.kept {w : World} {org request : Bytes} (h : HalfBound L w.directory org request) :
    Kept L w (otherNames L org request) org request := by
  refine ⟨h,?_⟩
  rintro kind (rfl | rfl) hname
  · exact hname.1 rfl
  · exact hname.2 rfl

theorem creates_other {c : Call} {org request : Bytes}
    (hc : ¬ c.executes L (recordKey L org request)) {name : Bytes} (h : c.creates L name) :
    otherNames L org request name := by
  have hpath {org' request' : Bytes} {kind : Kind} (hname : name = path L org' request' kind)
      (hne : (kind = .execution ∨ kind = .executionKnown) →
        recordKey L org' request' ≠ recordKey L org request) : otherNames L org request name := by
    subst hname
    constructor
    · intro heq
      obtain ⟨hkey,hkind⟩ := path_injective L heq
      exact hne (.inl hkind) hkey
    · intro heq
      obtain ⟨hkey,hkind⟩ := path_injective L heq
      exact hne (.inr hkind) hkey
  cases c with
  | journalAdmit a => exact hpath h (by simp)
  | saveReceipt r => exact hpath h (by simp)
  | acknowledge o q application => exact hpath h (by simp)
  | bindExecution x =>
    rcases h with h | h
    · exact hpath h fun _ => hc
    · exact hpath h fun _ => hc
  | authorize i =>
    obtain ⟨a,ha,h⟩ := h
    have hne : recordKey L i.payload.orgID a.requestID ≠ recordKey L org request :=
      fun hkey => hc ⟨a,ha,hkey⟩
    rcases h with h | h
    · exact hpath h fun _ => hne
    · exact hpath h fun _ => hne
  | _ => exact h.elim

/-- The journal's durability. A published file keeps its bytes, unless a crash takes it before
any directory sync; what a successful call vouches for is there in every later state; only
records are read; and an execution with one of its two records is neither used nor repaired. -/
theorem journal_durability {ι : Type} [DecidableEq ι] (w : World) :
    (∀ p q : Pool ι Call Op Answer World (Except Err Outcome), JournalRun L (opened w) p →
      Pool.Step World.Performs (Call.run L) World.Crash p q →
      ∀ name e, p.shared.directory name = some e →
        (∃ e', q.shared.directory name = some e' ∧ e'.content = e.content) ∨
        q.shared.directory name = none ∧ e.synced = false ∧ p.shared.Crash q.shared) ∧
    (∀ p : Pool ι Call Op Answer World (Except Err Outcome), JournalRun L (opened w) p →
      ∀ c o, (c,.ok o) ∈ p.log → Recorded L
        (fun name raw => ∀ q, JournalRun L p q → q.shared.directory.Durable name raw) c o) ∧
    (∀ p : Pool ι Call Op Answer World (Except Err Outcome), JournalRun L (opened w) p →
      ∀ i c name k, p.active i = some (c,.call (.read name) k) →
        RecordName name ∧ ∀ temp ∈ p.shared.temps, temp.val ≠ name) ∧
    ∀ org request, HalfBound L w.directory org request →
      (∀ p : Pool ι Call Op Answer World (Except Err Outcome),
        Pool.Reach World.Performs (Call.run L) (crashKeeping w (otherNames L org request))
          (opened w) p →
        (∀ c r, (c,r) ∈ p.log → c.executes L (recordKey L org request) → ∃ e, r = .error e) ∧
        Unchanged (otherNames L org request) w.directory p.shared.directory) ∧
      ∀ p : Pool ι { c : Call // c.executes L (recordKey L org request) } Op Answer World
          (Except Err Outcome),
        Pool.Reach World.Performs (fun c => c.val.run L) (crashKeeping w fun _ => False)
          (opened w) p →
        Unchanged (fun _ => False) w.directory p.shared.directory := by
  refine ⟨?_,?_,?_,?_⟩
  · intro p q _ hstep name e he
    rcases step_entry L hstep he with ⟨e',he',hcontent,-⟩ | hcrash
    · exact .inl ⟨e',he',hcontent⟩
    · exact .inr hcrash
  · exact fun p hp c o hlog => JournalRun.recorded L hp hlog
  · exact fun p hp i c name k hi => JournalRun.reads L hp hi
  · intro org request hhalf
    constructor
    · intro p hp
      have hgood := hhalf.kept.good L (f := id)
        (fun c => (Classical.em _).imp_right fun hc _ => creates_other L hc) hp
      exact ⟨hgood.log,hgood.inv⟩
    · intro p hp
      exact (Kept.good L ⟨hhalf,fun _ _ => id⟩ (f := Subtype.val) (fun c => .inl c.2) hp).inv

/-- The guard record of an execution whose own record a crash kept from being written. -/
def strandedGuard : ExecutionKnown :=
  ⟨1,ascii "org-1",ascii "pay-1",ascii (String.ofList (List.replicate 64 'a')),ascii "00"⟩

def strandedWorld : World :=
  { directory := Directory.create (fun _ => none)
      (path .inert (ascii "org-1") (ascii "pay-1") .executionKnown)
      (executionKnownSchema.marshal strandedGuard) }

def failure : Except Err Outcome → Option Err
  | .error e => some e
  | .ok _ => none

theorem stranded_load : ∃ t, (Call.run .inert (.load (ascii "org-1") (ascii "pay-1"))).exec
    (World.serve silent) strandedWorld = some (.error .integrity,t) := by
  have hload : ((Call.run .inert (.load (ascii "org-1") (ascii "pay-1"))).exec
      (World.serve silent) strandedWorld).map (fun r => failure r.1) = some (some .integrity) := by
    decide +kernel
  obtain ⟨⟨r,t⟩,hexec,hfails⟩ := Option.map_eq_some_iff.mp hload
  cases r with
  | error e => exact ⟨t,Option.some.inj hfails ▸ hexec⟩
  | ok => cases hfails

/-- The stranded execution is loaded once: the call fails and the guard is left as it was. -/
theorem journal_durability_stranded :
    HalfBound .inert strandedWorld.directory (ascii "org-1") (ascii "pay-1") ∧
    ∃ p : Pool Unit Call Op Answer World (Except Err Outcome),
      Pool.Reach World.Performs (Call.run .inert)
        (crashKeeping strandedWorld (otherNames .inert (ascii "org-1") (ascii "pay-1")))
        (opened strandedWorld) p ∧
      (.load (ascii "org-1") (ascii "pay-1"),.error .integrity) ∈ p.log ∧
      Unchanged (otherNames .inert (ascii "org-1") (ascii "pay-1")) strandedWorld.directory
        p.shared.directory := by
  have hhalf : HalfBound .inert strandedWorld.directory (ascii "org-1") (ascii "pay-1") := by
    rw [HalfBound]
    decide +kernel
  obtain ⟨t,ht⟩ := stranded_load
  have hrun : Pool.Reach World.Performs (Call.run .inert)
      (crashKeeping strandedWorld (otherNames .inert (ascii "org-1") (ascii "pay-1")))
      (opened strandedWorld)
      ({ shared := t, log := [(.load (ascii "org-1") (ascii "pay-1"),.error .integrity)] } :
        Pool Unit Call Op Answer World (Except Err Outcome)) := by
    refine Pool.Reach.exec ?_ (p := opened strandedWorld) (i := ()) rfl ht
    exact fun hs => serve_performs hs
  exact ⟨hhalf,_,hrun,List.mem_singleton_self _,
    (((journal_durability .inert strandedWorld).2.2.2 _ _ hhalf).1 _ hrun).2⟩

end CoSigner.Approval
