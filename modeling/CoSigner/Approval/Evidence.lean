import CoSigner.Approval.Paths

/-! What the journal's code guarantees, whatever else happens to the directory: a call
that succeeds leaves its record durable, and a loaded state is backed by durable files. -/
namespace CoSigner.Approval
open Attempt Contract
variable (L : Libraries)

/-- Journal code that creates only files with names in `N` moves the world along `R`. -/
structure JournalFrame (D : Discipline Op Answer World) (N : Bytes → Prop)
    (R : World → World → Prop) : Prop extends Frame D R where
  sem : D.sem = World.Performs
  grows : ∀ {s t}, R s t → s.directory.Grows t.directory
  quietPre : ∀ {o}, o.quiet = true → ∀ s, D.pre o s
  quiet : ∀ {o s t} {r : Answer o}, o.quiet = true → World.Performs o s r t → R s t
  readPre : ∀ {name}, RecordName name → ∀ s, D.pre (.read name) s
  publishPre : ∀ {name}, N name → ∀ draft s, D.pre (.publish draft name) s
  publishes : ∀ {draft name s t} {r : Answer (.publish draft name)}, N name →
    World.Performs (.publish draft name) s r t → R s t

variable {D : Discipline Op Answer World} {N : Bytes → Prop} {R : World → World → Prop}
  {s : World} {α : Type}

namespace JournalFrame

theorem now (F : JournalFrame D N R) {P : Directory → Prop}
    (hP : ∀ d d', d.Grows d' → P d → P d') (h : P s.directory) :
    Now D (fun t => P t.directory) s :=
  fun _ ht _ => hP _ _ (F.grows (F.rely ht)) h

theorem holds (F : JournalFrame D N R) {name raw : Bytes} (h : s.directory.Holds name raw) :
    Now D (fun t => t.directory.Holds name raw) s :=
  F.now (P := fun d => d.Holds name raw) (fun _ _ hd h => h.grows hd) h

theorem quietCall (F : JournalFrame D N R) {o : Op} (ho : o.quiet = true)
    {Q : Answer o → World → Prop}
    (h : ∀ t r u, R s t → D.inv t → World.Performs o t r u → D.inv u → Now D (Q r) u) :
    Safe D R (call o : Action (Answer o)) Q s := by
  refine Safe.call F.toFrame (fun t _ _ => F.quietPre ho t) ?_
  intro t r u hst hi hsem hu
  rw [F.sem] at hsem
  exact ⟨F.quiet ho hsem,h t r u hst hi hsem hu⟩

theorem quietThen (F : JournalFrame D N R) (hi : D.inv s) {o : Op} (ho : o.quiet = true)
    {next : Answer o → Action α} {Q : α → World → Prop}
    (h : ∀ r t, R s t → D.inv t → Safe D R (next r) Q t) :
    Safe D R (call o >>= next) Q s :=
  Safe.bind F.toFrame hi (Q := fun _ _ => True)
    (F.quietCall ho fun _ _ _ _ _ _ _ _ _ _ => trivial)
    fun r t hst hit _ => h r t hst hit

theorem ensureThen (F : JournalFrame D N R) (hi : D.inv s) {e : Option Err}
    {next : Unit → Action α} {Q : α → World → Prop}
    (h : e = none → ∀ t, R s t → D.inv t → Safe D R (next ()) Q t) :
    Safe D R (ensure e >>= next) Q s :=
  Safe.bind F.toFrame hi (Q := fun _ _ => e = none)
    (Safe.ensure F.toFrame fun he _ _ _ => he)
    fun _ t hst hit he => h (he.here F.toFrame hit) t hst hit

theorem check (F : JournalFrame D N R) (hi : D.inv s) :
    Safe D R Approval.check (fun _ _ => True) s :=
  F.quietThen hi (o := .check) rfl fun _ _ _ _ =>
    Safe.ensure F.toFrame fun _ _ _ _ => trivial

theorem syncDirectory (F : JournalFrame D N R) (hi : D.inv s) :
    Safe D R Approval.syncDirectory
      (fun _ t => ∀ name raw, s.directory.Holds name raw → t.directory.Durable name raw) s := by
  let Q : Option Err → World → Prop := fun r t =>
    r = none → ∀ name raw, s.directory.Holds name raw → t.directory.Durable name raw
  refine Safe.bind F.toFrame hi (Q := Q) (F.quietCall rfl ?_) ?_
  · rintro t r u hst - ⟨d,hd,rfl⟩ -
    intro v hv _ hr name raw hholds
    subst hr
    have hsynced : d.Durable name raw := by
      rw [show d = t.directory.syncAll from hd]
      exact (hholds.grows (F.grows hst)).sync
    exact hsynced.grows (F.grows (F.rely hv))
  · intro r t hst hit hQ
    exact Safe.ensure F.toFrame fun hr u hu hiu => hQ u hu hiu hr

theorem readCall (F : JournalFrame D N R) {name : Bytes} (hname : RecordName name)
    {Q : Except Err Bytes → World → Prop}
    (hok : ∀ t raw, R s t → D.inv t → t.directory.Holds name raw → Now D (Q (.ok raw)) t)
    (herr : ∀ t e, R s t → D.inv t → (e.isA .notExist = true → t.directory name = none) →
      Now D (Q (.error e)) t) :
    Safe D R (call (Op.read name) : Action (Except Err Bytes)) Q s := by
  refine Safe.call F.toFrame (fun t _ _ => F.readPre hname t) ?_
  intro t r u hst hit hsem _
  rw [F.sem] at hsem
  cases r with
  | ok raw =>
    obtain ⟨hholds | ⟨temp,-,rfl⟩,rfl⟩ := hsem
    · exact ⟨F.refl _,hok _ raw hst hit hholds⟩
    · exact absurd temp.property hname.not_temp
  | error e =>
    obtain ⟨habsent,rfl⟩ := hsem
    exact ⟨F.refl _,herr _ e hst hit habsent⟩

theorem readFile (F : JournalFrame D N R) (hi : D.inv s) {name : Bytes}
    (hname : RecordName name) :
    Safe D R (Approval.readFile name) (fun raw t => t.directory.Holds name raw) s := by
  let Q : Except Err Bytes → World → Prop := fun r t => ∀ raw, r = .ok raw → t.directory.Holds name raw
  refine Safe.bind F.toFrame hi (Q := Q) (F.readCall hname ?_ ?_) ?_
  · rintro t raw - - hholds v hv hiv raw' hr
    obtain rfl := Except.ok.inj hr
    exact F.holds hholds v hv hiv
  · rintro t e - - - v - - raw' hr
    cases hr
  · intro r t _ _ hQ
    cases r with
    | ok raw => exact Safe.pure F.toFrame fun u hu hiu => hQ u hu hiu raw rfl
    | error e => exact Safe.throw F.toFrame e _

theorem publishName (F : JournalFrame D N R) (hi : D.inv s) {name : Bytes} (hN : N name)
    {draft : Draft} (hsynced : draft.synced = true) :
    Safe D R (do
      ensure (← call (Op.publish draft name))
      Approval.syncDirectory : Action Unit)
      (fun _ t => t.directory.Durable name draft.content) s := by
  let Q : Option Err → World → Prop := fun r t => r = none → t.directory.Holds name draft.content
  refine Safe.bind F.toFrame hi (Q := Q) ?_ ?_
  · refine Safe.call F.toFrame (fun t _ _ => F.publishPre hN draft t) ?_
    intro t r u _ _ hsem _
    rw [F.sem] at hsem
    refine ⟨F.publishes hN hsem,?_⟩
    intro v hv hiv hr
    subst hr
    obtain ⟨raw,d,hcontent,hd,rfl⟩ := hsem
    obtain rfl := hcontent hsynced
    exact F.holds hd.holds v hv hiv
  · intro r t _ hit hQ
    refine F.ensureThen hit fun hr u htu hiu => ?_
    have hholds := (hQ.here F.toFrame hit hr).grows (F.grows htu)
    exact (F.syncDirectory hiu).mono fun _ _ _ _ h => h name _ hholds

theorem answerThen (F : JournalFrame D N R) (hi : D.inv s) {o : Op} (ho : o.quiet = true)
    {P : Answer o → Prop} (hP : ∀ t r u, World.Performs o t r u → P r)
    {next : Answer o → Action α} {Q : α → World → Prop}
    (h : ∀ r, P r → ∀ t, R s t → D.inv t → Safe D R (next r) Q t) :
    Safe D R (call o >>= next) Q s :=
  Safe.bind F.toFrame hi (Q := fun r _ => P r)
    (F.quietCall ho fun t r u _ _ hsem _ _ _ _ => hP t r u hsem)
    fun r t hst hit hr => h r (hr.here F.toFrame hit) t hst hit

theorem publish (F : JournalFrame D N R) (hi : D.inv s) {name : Bytes} (hN : N name)
    (raw : Bytes) :
    Safe D R (Approval.publish name raw) (fun _ t => t.directory.Durable name raw) s := by
  refine Safe.bind F.toFrame hi (F.check hi) fun _ t _ hit _ => ?_
  refine F.answerThen hit (o := .createTemp) rfl
    (P := fun r => ∀ draft, r = .ok draft → draft.content = []) ?_ fun r hcreated t _ hit => ?_
  · rintro t r u hsem draft rfl
    exact hsem.1
  cases r with
  | error e => exact Safe.throw F.toFrame e _
  | ok draft =>
    refine F.quietThen hit (o := .chmod) rfl fun _ t _ hit => ?_
    refine F.ensureThen hit fun _ t _ hit => ?_
    refine F.answerThen hit (o := .write draft raw) rfl
      (P := fun r => r.1.content = raw.take r.2.1) ?_ fun r hwritten t _ hit => ?_
    · intro t r u hsem
      rw [hsem.1, hcreated draft rfl]
      rfl
    refine F.ensureThen hit fun _ t _ hit => ?_
    refine F.ensureThen hit fun hlength t _ hit => ?_
    have hcontent : r.1.content = raw := by
      rw [hwritten, show r.2.1 = raw.length by simpa using hlength, List.take_length]
    refine F.answerThen hit (o := .syncFile r.1) rfl
      (P := fun r' => r'.1.content = raw ∧ (r'.2 = none → r'.1.synced = true)) ?_
      fun r' hsynced t _ hit => ?_
    · intro t r' u hsem
      exact ⟨hsem.1.trans hcontent,hsem.2.1⟩
    refine F.ensureThen hit fun hok t _ hit => ?_
    refine F.quietThen hit (o := .closeFile) rfl fun _ t _ hit => ?_
    refine F.ensureThen hit fun _ t _ hit => ?_
    have hdurable := F.publishName hit hN (hsynced.2 hok)
    rwa [hsynced.1] at hdurable

theorem confirm (F : JournalFrame D N R) (hi : D.inv s) {name : Bytes} (hname : RecordName name)
    (raw : Bytes) :
    Safe D R (Approval.confirm name raw) (fun _ t => t.directory.Durable name raw) s := by
  refine Safe.bind F.toFrame hi (F.readFile hi hname) fun old t _ hit hold => ?_
  split
  · rename_i heq
    subst heq
    exact (F.syncDirectory hit).mono fun _ _ _ _ h => h name old (hold.here F.toFrame hit)
  · exact Safe.throw F.toFrame _ _

theorem put (F : JournalFrame D N R) (hi : D.inv s) {name : Bytes} (hname : RecordName name)
    (hN : N name) (raw : Bytes) :
    Safe D R (Approval.put name raw) (fun _ t => t.directory.Durable name raw) s := by
  unfold Approval.put
  split
  · exact Safe.throw F.toFrame _ _
  · refine Safe.tryCatch F.toFrame hi (F.publish hi hN raw) fun e t _ hit => ?_
    split
    · exact F.confirm hit hname raw
    · exact Safe.throw F.toFrame _ _

theorem readRecord (F : JournalFrame D N R) (hi : D.inv s) {σ : Type}
    (decode : Bytes → Option σ) {name : Bytes} (hname : RecordName name) :
    Safe D R (Approval.readRecord decode name)
      (fun r t => (∀ x, r = some x → ∃ raw, t.directory.Holds name raw ∧ decode raw = some x) ∧
        (r = none → s.directory name = none)) s := by
  let Q : Except Err Bytes → World → Prop := fun r t =>
    (∀ raw, r = .ok raw → t.directory.Holds name raw) ∧
      ∀ e, r = .error e → e.isA .notExist = true → s.directory name = none
  refine Safe.bind F.toFrame hi (Q := Q) (F.readCall hname ?_ ?_) ?_
  · rintro t raw - - hholds v hv hiv
    refine ⟨?_,fun _ h => by cases h⟩
    rintro raw' hr
    obtain rfl := Except.ok.inj hr
    exact F.holds hholds v hv hiv
  · rintro t e hst - habsent v - -
    refine ⟨fun _ h => (by cases h),?_⟩
    rintro e' he hne
    obtain rfl := Except.error.inj he
    exact (F.grows hst).absent (habsent hne)
  · intro r t _ hit hQ
    cases r with
    | ok raw =>
      dsimp only
      split
      · rename_i x hx
        refine Safe.pure F.toFrame fun u hu hiu => ⟨?_,fun h => by cases h⟩
        rintro y hy
        obtain rfl := Option.some.inj hy
        exact ⟨raw,(hQ u hu hiu).1 raw rfl,hx⟩
      · exact Safe.throw F.toFrame _ _
    | error e =>
      show Safe D R (if e.isA .notExist then pure none else throw e : Action (Option σ)) _ t
      split
      · rename_i hne
        refine Safe.pure F.toFrame fun u hu hiu => ⟨fun _ h => (by cases h),fun _ => ?_⟩
        exact (hQ u hu hiu).2 e rfl hne
      · exact Safe.throw F.toFrame _ _

end JournalFrame

/-- The files a loaded state was read from; `Has` says which files there are. -/
def HasAdmission (Has : Bytes → Bytes → Prop) (org request : Bytes) (a : Admission) : Prop :=
  ∃ raw, Has (path L org request .admission) raw ∧ decodeAdmission raw = some a ∧
    a.orgID = org ∧ a.requestID = request ∧ a.validate = true

def HasReceipt (Has : Bytes → Bytes → Prop) (org request : Bytes) (a : Admission)
    (r : SavedReceipt) : Prop :=
  ∃ raw, Has (path L org request .receipt) raw ∧ decodeReceipt raw = some r ∧
    validateReceipt L a r = .ok ()

def HasAck (Has : Bytes → Bytes → Prop) (org request : Bytes) (r : SavedReceipt)
    (application : Bytes) : Prop :=
  ∃ raw ack, Has (path L org request .ack) raw ∧ decodeAcknowledgement raw = some ack ∧
    ack.application = application ∧ validAck L org request r ack = true ∧
    validateApplication L application request = .ok ()

def HasExecution (Has : Bytes → Bytes → Prop) (org request : Bytes) (state : State)
    (x : ExecutionBinding) : Prop :=
  ∃ raw, Has (path L org request .execution) raw ∧ decodeExecution raw = some x ∧
    validateExecution L state x = true ∧
    ∃ rawKnown known, Has (path L org request .executionKnown) rawKnown ∧
      decodeExecutionKnown rawKnown = some known ∧ validKnown L org request state raw known = true

structure Loaded (Has : Bytes → Bytes → Prop) (org request : Bytes) (state : State) : Prop where
  validOrg : validReference org = true
  validRequest : validReference request = true
  admission : ∀ a, state.admission = some a → HasAdmission L Has org request a
  receipt : ∀ r, state.receipt = some r →
    ∃ a, state.admission = some a ∧ HasReceipt L Has org request a r
  application : state.application ≠ [] →
    ∃ r, state.receipt = some r ∧ HasAck L Has org request r state.application
  execution : ∀ x, state.execution = some x →
    HasExecution L Has org request { state with execution := none } x

section Mono
variable {L} {Has Has' : Bytes → Bytes → Prop} {org request : Bytes}

theorem HasAdmission.mono {a : Admission} (h : HasAdmission L Has org request a)
    (hmono : ∀ name raw, Has name raw → Has' name raw) : HasAdmission L Has' org request a :=
  let ⟨raw,hraw,h⟩ := h
  ⟨raw,hmono _ _ hraw,h⟩

theorem HasReceipt.mono {a : Admission} {r : SavedReceipt}
    (h : HasReceipt L Has org request a r) (hmono : ∀ name raw, Has name raw → Has' name raw) :
    HasReceipt L Has' org request a r :=
  let ⟨raw,hraw,h⟩ := h
  ⟨raw,hmono _ _ hraw,h⟩

theorem HasAck.mono {r : SavedReceipt} {application : Bytes}
    (h : HasAck L Has org request r application)
    (hmono : ∀ name raw, Has name raw → Has' name raw) :
    HasAck L Has' org request r application :=
  let ⟨raw,ack,hraw,h⟩ := h
  ⟨raw,ack,hmono _ _ hraw,h⟩

theorem HasExecution.mono {state : State} {x : ExecutionBinding}
    (h : HasExecution L Has org request state x)
    (hmono : ∀ name raw, Has name raw → Has' name raw) :
    HasExecution L Has' org request state x :=
  let ⟨raw,hraw,hx,hv,rawKnown,known,hknown,h⟩ := h
  ⟨raw,hmono _ _ hraw,hx,hv,rawKnown,known,hmono _ _ hknown,h⟩

theorem Loaded.mono {state : State} (h : Loaded L Has org request state)
    (hmono : ∀ name raw, Has name raw → Has' name raw) : Loaded L Has' org request state where
  validOrg := h.validOrg
  validRequest := h.validRequest
  admission a ha := (h.admission a ha).mono hmono
  receipt r hr := let ⟨a,ha,h⟩ := h.receipt r hr; ⟨a,ha,h.mono hmono⟩
  application hne := let ⟨r,hr,h⟩ := h.application hne; ⟨r,hr,h.mono hmono⟩
  execution x hx := (h.execution x hx).mono hmono

end Mono

namespace JournalFrame

theorem holdsMono (F : JournalFrame D N R) {t : World} (h : R s t) :
    ∀ name raw, s.directory.Holds name raw → t.directory.Holds name raw :=
  fun _ _ hh => hh.grows (F.grows h)

theorem durableMono (F : JournalFrame D N R) {t : World} (h : R s t) :
    ∀ name raw, s.directory.Durable name raw → t.directory.Durable name raw :=
  fun _ _ hh => hh.grows (F.grows h)

theorem loadAdmission (F : JournalFrame D N R) (hi : D.inv s) (org request : Bytes) :
    Safe D R (Approval.loadAdmission L org request)
      (fun r t => (∀ a, r = some a → HasAdmission L t.directory.Holds org request a) ∧
        (r = none → s.directory (path L org request .admission) = none)) s := by
  refine Safe.bind F.toFrame hi (F.readRecord hi decodeAdmission (path_recordName L _ _ _))
    fun r t _ hit hr => ?_
  cases r with
  | none =>
    exact Safe.pure F.toFrame fun u hu hiu => ⟨fun _ h => (by cases h),fun _ => (hr u hu hiu).2 rfl⟩
  | some a =>
    show Safe D R (if a.orgID = org ∧ a.requestID = request ∧ a.validate = true then
      pure (some a) else throw .integrity : Action (Option Admission)) _ t
    split
    · rename_i hvalid
      refine Safe.pure F.toFrame fun u hu hiu => ⟨?_,fun h => by cases h⟩
      rintro b hb
      obtain rfl := Option.some.inj hb
      obtain ⟨raw,hraw,hdecode⟩ := (hr u hu hiu).1 a rfl
      exact ⟨raw,hraw,hdecode,hvalid⟩
    · exact Safe.throw F.toFrame _ _

theorem loadReceipt (F : JournalFrame D N R) (hi : D.inv s) (org request : Bytes)
    (admission : Option Admission) :
    Safe D R (Approval.loadReceipt L org request admission)
      (fun r t => (∀ x, r = some x →
          ∃ a, admission = some a ∧ HasReceipt L t.directory.Holds org request a x) ∧
        (r = none → s.directory (path L org request .receipt) = none)) s := by
  refine Safe.bind F.toFrame hi (F.readRecord hi decodeReceipt (path_recordName L _ _ _))
    fun r t _ hit hr => ?_
  cases r with
  | none =>
    exact Safe.pure F.toFrame fun u hu hiu => ⟨fun _ h => (by cases h),fun _ => (hr u hu hiu).2 rfl⟩
  | some x =>
    cases admission with
    | none => exact Safe.throw F.toFrame _ _
    | some a =>
      dsimp only
      split
      · rename_i hvalid
        refine Safe.pure F.toFrame fun u hu hiu => ⟨?_,fun h => by cases h⟩
        rintro y hy
        obtain rfl := Option.some.inj hy
        obtain ⟨raw,hraw,hdecode⟩ := (hr u hu hiu).1 x rfl
        exact ⟨a,rfl,raw,hraw,hdecode,hvalid⟩
      · exact Safe.throw F.toFrame _ _

theorem loadAcknowledgement (F : JournalFrame D N R) (hi : D.inv s) (org request : Bytes)
    (receipt : Option SavedReceipt) :
    Safe D R (Approval.loadAcknowledgement L org request receipt)
      (fun application t => application ≠ [] →
        ∃ r, receipt = some r ∧ HasAck L t.directory.Holds org request r application) s := by
  refine Safe.bind F.toFrame hi (F.readRecord hi decodeAcknowledgement (path_recordName L _ _ _))
    fun k t _ hit hk => ?_
  cases k with
  | none => exact Safe.pure F.toFrame fun u _ _ h => absurd rfl h
  | some ack =>
    cases receipt with
    | none => exact Safe.throw F.toFrame _ _
    | some r =>
      dsimp only
      split
      · rename_i hack
        split
        · rename_i hvalid
          refine Safe.pure F.toFrame fun u hu hiu _ => ?_
          obtain ⟨raw,hraw,hdecode⟩ := (hk u hu hiu).1 ack rfl
          exact ⟨r,rfl,raw,ack,hraw,hdecode,rfl,hack,hvalid⟩
        · exact Safe.throw F.toFrame _ _
      · exact Safe.throw F.toFrame _ _

theorem loadExecution (F : JournalFrame D N R) (hi : D.inv s) (org request : Bytes)
    (state : State) :
    Safe D R (Approval.loadExecution L org request state)
      (fun r t => ∀ x, r = some x → HasExecution L t.directory.Holds org request state x) s := by
  refine Safe.bind F.toFrame hi (F.readRecord hi decodeExecution (path_recordName L _ _ _))
    fun execution t _ hit he => ?_
  refine Safe.bind F.toFrame hit (F.readRecord hit decodeExecutionKnown (path_recordName L _ _ _))
    fun known u htu hiu hk => ?_
  cases execution with
  | none =>
    cases known with
    | none => exact Safe.pure F.toFrame fun v _ _ x h => by cases h
    | some k => exact Safe.throw F.toFrame _ _
  | some x =>
    cases known with
    | none => exact Safe.throw F.toFrame _ _
    | some k =>
      show Safe D R (if validateExecution L state x then do
        let raw ← Approval.readFile (path L org request .execution)
        if validKnown L org request state raw k then pure (some x) else throw .integrity
        else throw .integrity : Action (Option ExecutionBinding)) _ u
      split
      · rename_i hvalid
        refine Safe.bind F.toFrame hiu (F.readFile hiu (path_recordName L _ _ _))
          fun raw v huv hiv hraw => ?_
        split
        · rename_i hknown
          refine Safe.pure F.toFrame fun w hw hiw y hy => ?_
          obtain rfl := Option.some.inj hy
          obtain ⟨raw',hraw',hdecode⟩ := (he.here F.toFrame hit).1 x rfl
          obtain ⟨rawKnown,hrawKnown,hdecodeKnown⟩ := (hk.here F.toFrame hiu).1 k rfl
          have huw := F.trans huv (F.rely hw)
          have hsame : raw = raw' :=
            (hraw w hw hiw).unique (F.holdsMono (F.trans htu huw) _ _ hraw')
          subst hsame
          exact ⟨raw,hraw w hw hiw,hdecode,hvalid,rawKnown,k,F.holdsMono huw _ _ hrawKnown,
            hdecodeKnown,hknown⟩
        · exact Safe.throw F.toFrame _ _
      · exact Safe.throw F.toFrame _ _

/-- A loaded state is backed by durable files; a missing admission or receipt had no
file when the load began. -/
theorem loadState (F : JournalFrame D N R) (hi : D.inv s) (org request : Bytes) :
    Safe D R (Approval.loadState L org request)
      (fun state t => Loaded L t.directory.Durable org request state ∧
        (state.admission = none → s.directory (path L org request .admission) = none) ∧
        (state.receipt = none → s.directory (path L org request .receipt) = none)) s := by
  refine F.ensureThen hi fun hvalid t0 hs0 hi0 => ?_
  have hrefs : validReference org = true ∧ validReference request = true := by
    simpa using hvalid
  refine Safe.bind F.toFrame hi0 (F.check hi0) fun _ t1 h01 hi1 _ => ?_
  refine Safe.bind F.toFrame hi1 (F.loadAdmission L hi1 org request) fun a t2 h12 hi2 ha => ?_
  refine Safe.bind F.toFrame hi2 (F.loadReceipt L hi2 org request a) fun r t3 h23 hi3 hr => ?_
  refine Safe.bind F.toFrame hi3 (F.loadAcknowledgement L hi3 org request r)
    fun application t4 h34 hi4 hk => ?_
  refine Safe.bind F.toFrame hi4 (F.loadExecution L hi4 org request _) fun x t5 h45 hi5 hx => ?_
  have hs1 := F.trans hs0 h01
  have hs2 := F.trans hs1 h12
  have h35 := F.trans h34 h45
  have h25 := F.trans h23 h35
  replace ha := ha.here F.toFrame hi2
  replace hr := hr.here F.toFrame hi3
  replace hk := hk.here F.toFrame hi4
  replace hx := hx.here F.toFrame hi5
  have hheld : Loaded L t5.directory.Holds org request ⟨a,r,application,x⟩ := by
    refine ⟨hrefs.1,hrefs.2,fun b hb => (ha.1 b hb).mono (F.holdsMono h25),?_,?_,?_⟩
    · intro y hy
      obtain ⟨b,hb,hrec⟩ := hr.1 y hy
      exact ⟨b,hb,hrec.mono (F.holdsMono h35)⟩
    · intro hne
      obtain ⟨y,hy,hack⟩ := hk hne
      exact ⟨y,hy,hack.mono (F.holdsMono h45)⟩
    · intro y hy
      exact hx y hy
  refine Safe.bind F.toFrame hi5 (F.syncDirectory hi5) fun _ t6 h56 hi6 hsync => ?_
  refine Safe.pure F.toFrame fun v hv hiv => ⟨hheld.mono (hsync v hv hiv),?_,?_⟩
  · exact fun hnone => (F.grows hs1).absent (ha.2 hnone)
  · exact fun hnone => (F.grows hs2).absent (hr.2 hnone)

theorem locked (F : JournalFrame D N R) {p : Action α} {P : α → Directory → Prop}
    (hP : ∀ a d d', d.Grows d' → P a d → P a d')
    (hp : ∀ t, R s t → D.inv t → Safe D R p (fun a t => P a t.directory) t) :
    Safe D R (Approval.locked p) (fun a t => P a t.directory) s := by
  intro t ht hit
  refine ⟨F.quietPre rfl t,fun _ u hlock hiu => ?_⟩
  rw [F.sem] at hlock
  have hsu := F.trans (F.rely ht) (F.quiet rfl hlock)
  refine Prog.Meets.bind (p := p.run) F.relyRefl hiu
    (Prog.Meets.mono (hp u hsu hiu) fun r v hiv hv => ?_)
  intro w hw hiw
  refine ⟨F.quietPre rfl w,fun _ x hunlock hix y hy hiy => ?_⟩
  rw [F.sem] at hunlock
  have hvy := F.trans (F.rely hw) (F.trans (F.quiet rfl hunlock) (F.rely hy))
  refine ⟨F.trans hsu (F.trans hv.1 hvy),fun a ha => ?_⟩
  exact hP a _ _ (F.grows hvy) (hv.2 a ha)

theorem load (F : JournalFrame D N R) (org request : Bytes) :
    Safe D R (Approval.load L org request)
      (fun state t => Loaded L t.directory.Durable org request state ∧
        (state.admission = none → s.directory (path L org request .admission) = none) ∧
        (state.receipt = none → s.directory (path L org request .receipt) = none)) s := by
  refine F.locked (P := fun state d => Loaded L d.Durable org request state ∧
    (state.admission = none → s.directory (path L org request .admission) = none) ∧
    (state.receipt = none → s.directory (path L org request .receipt) = none)) ?_ ?_
  · exact fun _ _ _ hd h => ⟨h.1.mono fun _ _ hh => hh.grows hd,h.2⟩
  · intro t hst hit
    refine (F.loadState L hit org request).mono fun state u _ _ h => ?_
    exact ⟨h.1,fun hn => (F.grows hst).absent (h.2.1 hn),fun hn => (F.grows hst).absent (h.2.2 hn)⟩

end JournalFrame
end CoSigner.Approval
