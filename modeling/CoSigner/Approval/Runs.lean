import CoSigner.Approval.Calls

/-! Runs of the journal: any calls from any threads, any answers of the file system, and
crashes at any moment. -/
namespace CoSigner.Approval
open Attempt Contract SigningPolicy Monolith
variable (L : Libraries)

inductive Call where
  /-- What `OpenJournal` does to the directory. -/
  | probe
  | journalAdmit (a : Admission)
  | saveReceipt (r : SavedReceipt)
  | acknowledge (org request application : Bytes)
  | bindExecution (x : ExecutionBinding)
  | load (org request : Bytes)
  | pendingReceipts (limit : Int)
  | authorize (i : Intent)

inductive Outcome where
  | done
  | loaded (state : State)
  | pending (receipt : Option SavedReceipt) (err : Option Err)

def Call.body : Call → Action Outcome
  | .probe => do Approval.probe; pure .done
  | .journalAdmit a => do Approval.journalAdmit L a; pure .done
  | .saveReceipt r => do Approval.saveReceipt L r; pure .done
  | .acknowledge org request application => do
    Approval.acknowledge L org request application
    pure .done
  | .bindExecution x => do Approval.bindExecution L x; pure .done
  | .load org request => do pure (.loaded (← Approval.load L org request))
  | .pendingReceipts limit => do
    let r ← Approval.pendingReceipts L limit
    pure (.pending r.1 r.2)
  | .authorize i => do Approval.authorize L i; pure .done

def Call.run (c : Call) : Prog Op Answer (Except Err Outcome) := (c.body L).run

/-- The records that a successful call vouches for. -/
def Recorded (Has : Bytes → Bytes → Prop) : Call → Outcome → Prop
  | .journalAdmit a, _ => Admitted L Has a
  | .saveReceipt r, _ => Receipted L Has r
  | .acknowledge org request application, _ => Acknowledged L Has org request application
  | .bindExecution x, _ => Bound L Has x
  | .load org request, .loaded state => Loaded L Has org request state
  | .load _ _, _ => False
  | .pendingReceipts _, .pending r _ => ∀ x, r = some x → Undelivered L Has x
  | .pendingReceipts _, _ => False
  | .authorize i, _ => Authorized L Has i
  | .probe, _ => True

theorem Recorded.mono {Has Has' : Bytes → Bytes → Prop} {c : Call} {o : Outcome}
    (h : Recorded L Has c o) (hmono : ∀ name raw, Has name raw → Has' name raw) :
    Recorded L Has' c o := by
  cases c with
  | probe => trivial
  | journalAdmit a => exact Admitted.mono h hmono
  | saveReceipt r => exact Receipted.mono h hmono
  | acknowledge org request application => exact Acknowledged.mono h hmono
  | bindExecution x => exact Bound.mono h hmono
  | load org request =>
    cases o with
    | loaded state => exact Loaded.mono h hmono
    | _ => exact h
  | pendingReceipts limit =>
    cases o with
    | pending r err => exact fun x hx => (h x hx).mono hmono
    | _ => exact h
  | authorize i => exact Authorized.mono h hmono

/-- The names of the files that a call may create. -/
def Call.creates : Call → Bytes → Prop
  | .journalAdmit a, name => name = path L a.orgID a.requestID .admission
  | .saveReceipt r, name => name = path L r.orgID r.requestID .receipt
  | .acknowledge org request _, name => name = path L org request .ack
  | .bindExecution x, name => name = path L x.orgID x.requestID .executionKnown ∨
      name = path L x.orgID x.requestID .execution
  | .authorize i, name => ∃ a ∈ i.approval,
      name = path L i.payload.orgID a.requestID .executionKnown ∨
        name = path L i.payload.orgID a.requestID .execution
  | _, _ => False

theorem JournalFrame.body {D : Discipline Op Answer World} {N : Bytes → Prop}
    {R : World → World → Prop} {s : World} (F : JournalFrame D N R) (hi : D.inv s) (c : Call)
    (hN : ∀ name, c.creates L name → N name) :
    Safe D R (c.body L) (fun o t => Recorded L t.directory.Durable c o) s := by
  cases c with
  | probe =>
    exact Safe.bind F.toFrame hi (F.probe hi) fun _ _ _ _ _ =>
      Safe.pure F.toFrame fun _ _ _ => trivial
  | journalAdmit a =>
    exact Safe.bind F.toFrame hi (F.journalAdmit L a (hN _ rfl)) fun _ _ _ _ h =>
      Safe.pure F.toFrame h
  | saveReceipt r =>
    exact Safe.bind F.toFrame hi (F.saveReceipt L r (hN _ rfl)) fun _ _ _ _ h =>
      Safe.pure F.toFrame h
  | acknowledge org request application =>
    exact Safe.bind F.toFrame hi (F.acknowledge L org request application (hN _ rfl))
      fun _ _ _ _ h => Safe.pure F.toFrame h
  | bindExecution x =>
    exact Safe.bind F.toFrame hi (F.bindExecution L x (hN _ (.inl rfl)) (hN _ (.inr rfl)))
      fun _ _ _ _ h => Safe.pure F.toFrame h
  | load org request =>
    exact Safe.bind F.toFrame hi (F.load L org request) fun _ _ _ _ h =>
      Safe.pure F.toFrame fun t ht hit => (h t ht hit).1
  | pendingReceipts limit =>
    exact Safe.bind F.toFrame hi (F.pendingReceipts L limit) fun _ _ _ _ h =>
      Safe.pure F.toFrame h
  | authorize i =>
    refine Safe.bind F.toFrame hi (F.authorize L hi i ?_) fun _ _ _ _ h => Safe.pure F.toFrame h
    exact fun a ha => ⟨hN _ ⟨a,ha,.inl rfl⟩,hN _ ⟨a,ha,.inr rfl⟩⟩

/-- A pool of journal calls over the world `w`, with nothing started yet. -/
def opened {ι C : Type} (w : World) : Pool ι C Op Answer World (Except Err Outcome) :=
  { shared := w }

/-- Files only come, and only records are read. -/
def journalDiscipline : Discipline Op Answer World where
  sem := World.Performs
  rely s t := s.directory.Grows t.directory
  pre
    | .read name, _ => RecordName name
    | _, _ => True

theorem journalFrame :
    JournalFrame journalDiscipline (fun _ => True) fun s t => s.directory.Grows t.directory where
  refl s := Directory.Grows.refl _
  trans h h' := h.trans h'
  relyRefl s := Directory.Grows.refl _
  relyTrans _ _ _ h h' := h.trans h'
  rely h := h
  sem := rfl
  grows h := h
  quietPre {o} ho s := by cases o <;> trivial
  quiet _ h := h.grows
  readPre hname _ := hname
  publishPre _ _ _ := trivial
  publishes _ h := h.grows

theorem journalSound (ι : Type) : Pool.Sound ι journalDiscipline (Call.run L) World.Crash
    fun c r t => ∀ o, r = .ok o → Recorded L t.directory.Durable c o where
  refl s := Directory.Grows.refl _
  trans _ _ _ h h' := h.trans h'
  keeps _ _ _ _ _ _ _ := trivial
  interferes _ _ _ _ _ _ _ _ _ hsem := World.Performs.grows hsem
  bodies c s hinv :=
    Prog.Meets.mono (journalFrame.body L hinv c fun _ _ => trivial) fun _ _ _ h => h.2
  stable _ _ _ _ _ _ _ _ hsem h o ho :=
    (h o ho).mono L fun _ _ hh => hh.grows (World.Performs.grows hsem)
  crashed _ _ _ _ := trivial
  survives _ _ _ _ _ hc h o ho := by
    obtain ⟨d,hd,rfl⟩ := hc
    exact (h o ho).mono L fun _ _ hh => hh.crash hd

section Runs
variable {ι : Type} [DecidableEq ι]

/-- Any run of journal calls. -/
abbrev JournalRun : Pool ι Call Op Answer World (Except Err Outcome) →
    Pool ι Call Op Answer World (Except Err Outcome) → Prop :=
  Pool.Reach World.Performs (Call.run L) World.Crash

variable {w : World} {p q : Pool ι Call Op Answer World (Except Err Outcome)}

theorem JournalRun.good (h : JournalRun L (opened w) p) :
    p.Good journalDiscipline fun c r t => ∀ o, r = .ok o → Recorded L t.directory.Durable c o :=
  Pool.Reach.good (journalSound L ι) h ⟨trivial,by simp [opened],by simp [opened]⟩

theorem step_entry (h : Pool.Step World.Performs (Call.run L) World.Crash p q) {name : Bytes}
    {e : CoSigner.Entry} (he : p.shared.directory name = some e) :
    (∃ e', q.shared.directory name = some e' ∧ e'.content = e.content ∧
      (e.synced = true → e'.synced = true)) ∨
    q.shared.directory name = none ∧ e.synced = false ∧ p.shared.Crash q.shared := by
  cases h with
  | start i c h => exact .inl ⟨e,he,rfl,id⟩
  | finish i c a h => exact .inl ⟨e,he,rfl,id⟩
  | call i c o k h r t hs =>
    obtain ⟨synced,ht,hsynced⟩ := World.Performs.grows hs name e.content e.synced he
    exact .inl ⟨_,ht,rfl,hsynced⟩
  | crash t hc =>
    obtain ⟨d,hd,rfl⟩ := id hc
    rcases hd name with heq | ⟨hnone,hs⟩
    · exact .inl ⟨e,heq.trans he,rfl,id⟩
    · exact .inr ⟨hnone,hs e he,hc⟩

theorem JournalRun.durable (h : JournalRun L p q) {name raw : Bytes}
    (hd : p.shared.directory.Durable name raw) : q.shared.directory.Durable name raw := by
  induction h with
  | refl => exact hd
  | tail _ hstep ih =>
    rcases step_entry L hstep ih with ⟨e,he,hcontent,hsynced⟩ | ⟨-,hs,-⟩
    · obtain ⟨content,synced⟩ := e
      obtain rfl : content = raw := hcontent
      obtain rfl : synced = true := hsynced rfl
      exact he
    · cases hs

theorem JournalRun.recorded (h : JournalRun L (opened w) p) {c : Call} {o : Outcome}
    (hlog : (c,.ok o) ∈ p.log) :
    Recorded L (fun name raw => ∀ q, JournalRun L p q → q.shared.directory.Durable name raw) c o :=
  ((h.good L).log _ _ hlog o rfl).mono L fun _ _ hd _ hq => JournalRun.durable L hq hd

theorem JournalRun.reads (h : JournalRun L (opened w) p) {i : ι} {c : Call}
    {name : Bytes} {k : Answer (.read name) → Prog Op Answer (Except Err Outcome)}
    (hi : p.active i = some (c,.call (.read name) k)) :
    RecordName name ∧ ∀ temp ∈ p.shared.temps, temp.val ≠ name := by
  have hgood := h.good L
  have hname : RecordName name :=
    (hgood.active i c _ hi _ (Directory.Grows.refl _) hgood.inv).1
  exact ⟨hname,fun temp _ heq => hname.not_temp (heq ▸ temp.property)⟩

end Runs
end CoSigner.Approval
