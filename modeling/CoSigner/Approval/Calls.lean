import CoSigner.Approval.Evidence
import CoSigner.Approval.SignGate

/-! What each call of the journal and of the gate leaves in the directory when it
succeeds. -/
namespace CoSigner.Approval
open Attempt Contract SigningPolicy Monolith
variable (L : Libraries)

/-- The guard record that goes with a binding. -/
def executionGuard (x : ExecutionBinding) : ExecutionKnown :=
  ⟨1,x.orgID,x.requestID,x.authorizationHash,digest L (executionSchema.marshal x)⟩

/-- An admission is there with the content of `a`, up to the time of admission. -/
def Admitted (Has : Bytes → Bytes → Prop) (a : Admission) : Prop :=
  a.validate = true ∧ ∃ raw, Has (path L a.orgID a.requestID .admission) raw ∧
    (raw = admissionSchema.marshal a ∨ ∃ old, decodeAdmission raw = some old ∧
      equalJSON old { a with admittedAt := old.admittedAt } = true)

def Receipted (Has : Bytes → Bytes → Prop) (r : SavedReceipt) : Prop :=
  ∃ a, HasAdmission L Has r.orgID r.requestID a ∧ validateReceipt L a r = .ok () ∧
    Has (path L r.orgID r.requestID .receipt) (receiptSchema.marshal r)

def Acknowledged (Has : Bytes → Bytes → Prop) (org request application : Bytes) : Prop :=
  ∃ a r, HasAdmission L Has org request a ∧ HasReceipt L Has org request a r ∧
    validateApplication L application request = .ok () ∧
    Has (path L org request .ack)
      (acknowledgementSchema.marshal ⟨1,org,request,digest L r.bytes,application⟩)

def Bound (Has : Bytes → Bytes → Prop) (x : ExecutionBinding) : Prop :=
  ∃ state, Loaded L Has x.orgID x.requestID state ∧ validateExecution L state x = true ∧
    Has (path L x.orgID x.requestID .executionKnown)
      (executionKnownSchema.marshal (executionGuard L x)) ∧
    Has (path L x.orgID x.requestID .execution) (executionSchema.marshal x)

/-- What the gate has seen when it lets an intent through, and the binding it made. -/
def Authorized (Has : Bytes → Bytes → Prop) (i : Intent) : Prop :=
  i.version = 2 ∧ ∃ a p state now auth, i.approval = some a ∧ i.prepared = some p ∧
    a.outgoingID = i.intentID ∧ Loaded L Has i.payload.orgID a.requestID state ∧
    heldDecision L a state = none ∧ verifyIntent L i a p now = some auth ∧
    authorizedPayload L i.payload auth = true ∧ Bound L Has (executionBinding i a)

/-- A receipt that is still to be delivered. -/
def Undelivered (Has : Bytes → Bytes → Prop) (r : SavedReceipt) : Prop :=
  ∃ a, HasAdmission L Has r.orgID r.requestID a ∧ HasReceipt L Has r.orgID r.requestID a r

section Mono
variable {L} {Has Has' : Bytes → Bytes → Prop}

theorem Admitted.mono {a : Admission} (h : Admitted L Has a)
    (hmono : ∀ name raw, Has name raw → Has' name raw) : Admitted L Has' a :=
  let ⟨hv,raw,hraw,h⟩ := h
  ⟨hv,raw,hmono _ _ hraw,h⟩

theorem Receipted.mono {r : SavedReceipt} (h : Receipted L Has r)
    (hmono : ∀ name raw, Has name raw → Has' name raw) : Receipted L Has' r :=
  let ⟨a,ha,hr,h⟩ := h
  ⟨a,ha.mono hmono,hr,hmono _ _ h⟩

theorem Acknowledged.mono {org request application : Bytes}
    (h : Acknowledged L Has org request application)
    (hmono : ∀ name raw, Has name raw → Has' name raw) :
    Acknowledged L Has' org request application :=
  let ⟨a,r,ha,hr,hv,h⟩ := h
  ⟨a,r,ha.mono hmono,hr.mono hmono,hv,hmono _ _ h⟩

theorem Bound.mono {x : ExecutionBinding} (h : Bound L Has x)
    (hmono : ∀ name raw, Has name raw → Has' name raw) : Bound L Has' x :=
  let ⟨state,hs,hv,hk,h⟩ := h
  ⟨state,hs.mono hmono,hv,hmono _ _ hk,hmono _ _ h⟩

theorem Authorized.mono {i : Intent} (h : Authorized L Has i)
    (hmono : ∀ name raw, Has name raw → Has' name raw) : Authorized L Has' i :=
  let ⟨hv,a,p,state,now,auth,ha,hp,ho,hs,hd,hver,hpay,hb⟩ := h
  ⟨hv,a,p,state,now,auth,ha,hp,ho,hs.mono hmono,hd,hver,hpay,hb.mono hmono⟩

theorem Undelivered.mono {r : SavedReceipt} (h : Undelivered L Has r)
    (hmono : ∀ name raw, Has name raw → Has' name raw) : Undelivered L Has' r :=
  let ⟨a,ha,hr⟩ := h
  ⟨a,ha.mono hmono,hr.mono hmono⟩

end Mono

theorem HasReceipt.names {Has : Bytes → Bytes → Prop} {org request : Bytes} {a : Admission}
    {r : SavedReceipt} (ha : HasAdmission L Has org request a)
    (hr : HasReceipt L Has org request a r) : r.orgID = org ∧ r.requestID = request := by
  obtain ⟨-,-,-,horg,hrequest,-⟩ := ha
  obtain ⟨-,-,-,hvalid⟩ := hr
  have hv := validateReceipt_valid L hvalid
  exact ⟨hv.orgID.trans horg,hv.requestID.trans hrequest⟩

theorem isReceiptName_recordName {name : Bytes} (h : isReceiptName name = true) :
    RecordName name := by
  obtain ⟨stem,rfl⟩ := List.isSuffixOf_iff_suffix.mp h
  exact ⟨stem ++ ascii ".receipt",by rw [List.append_assoc]; rfl⟩

attribute [local irreducible] equalJSON Json.Schema.marshal path

namespace JournalFrame
variable {D : Discipline Op Answer World} {N : Bytes → Prop} {R : World → World → Prop}
  {s : World}

theorem journalAdmit (F : JournalFrame D N R) (a : Admission)
    (hN : N (path L a.orgID a.requestID .admission)) :
    Safe D R (Approval.journalAdmit L a) (fun _ t => Admitted L t.directory.Durable a) s := by
  refine F.locked (P := fun _ d => Admitted L d.Durable a)
    (fun _ _ _ hd h => h.mono fun _ _ hh => hh.grows hd) ?_
  intro t _ hit
  refine F.ensureThen hit fun hvalid u _ hiu => ?_
  replace hvalid : a.validate = true := by simpa using hvalid
  refine Safe.bind F.toFrame hiu (F.loadState L hiu a.orgID a.requestID)
    fun state v _ hiv hstate => ?_
  split
  · rename_i old hold
    split
    · rename_i heq
      refine Safe.pure F.toFrame fun w hw hiw => ⟨hvalid,?_⟩
      obtain ⟨raw,hraw,hdecode,-⟩ := (hstate w hw hiw).1.admission old hold
      exact ⟨raw,hraw,.inr ⟨old,hdecode,heq⟩⟩
    · exact Safe.throw F.toFrame _ _
  · refine (F.put hiv (path_recordName L _ _ _) hN _).mono fun _ w _ _ hdurable => ?_
    exact ⟨hvalid,_,hdurable,.inl rfl⟩

theorem saveReceipt (F : JournalFrame D N R) (r : SavedReceipt)
    (hN : N (path L r.orgID r.requestID .receipt)) :
    Safe D R (Approval.saveReceipt L r) (fun _ t => Receipted L t.directory.Durable r) s := by
  refine F.locked (P := fun _ d => Receipted L d.Durable r)
    (fun _ _ _ hd h => h.mono fun _ _ hh => hh.grows hd) ?_
  intro t _ hit
  refine Safe.bind F.toFrame hit (F.loadState L hit r.orgID r.requestID)
    fun state u _ hiu hstate => ?_
  split
  · exact Safe.throw F.toFrame _ _
  · rename_i a ha
    split
    · exact Safe.throw F.toFrame _ _
    · rename_i hvalid
      have hadm := (hstate.here F.toFrame hiu).1.admission a ha
      refine (F.put hiu (path_recordName L _ _ _) hN _).mono fun _ v _ huv hdurable => ?_
      exact ⟨a,hadm.mono (F.durableMono huv),hvalid,hdurable⟩

theorem acknowledge (F : JournalFrame D N R) (org request application : Bytes)
    (hN : N (path L org request .ack)) :
    Safe D R (Approval.acknowledge L org request application)
      (fun _ t => Acknowledged L t.directory.Durable org request application) s := by
  refine F.locked (P := fun _ d => Acknowledged L d.Durable org request application)
    (fun _ _ _ hd h => h.mono fun _ _ hh => hh.grows hd) ?_
  intro t _ hit
  refine Safe.bind F.toFrame hit (F.loadState L hit org request) fun state u _ hiu hstate => ?_
  split
  · exact Safe.throw F.toFrame _ _
  · rename_i r hr
    split
    · exact Safe.throw F.toFrame _ _
    · rename_i hvalid
      have hloaded := (hstate.here F.toFrame hiu).1
      obtain ⟨a,ha,hrec⟩ := hloaded.receipt r hr
      have hadm := hloaded.admission a ha
      refine (F.put hiu (path_recordName L _ _ _) hN _).mono fun _ v _ huv hdurable => ?_
      exact ⟨a,r,hadm.mono (F.durableMono huv),hrec.mono (F.durableMono huv),hvalid,hdurable⟩

theorem bindExecution (F : JournalFrame D N R) (x : ExecutionBinding)
    (hK : N (path L x.orgID x.requestID .executionKnown))
    (hN : N (path L x.orgID x.requestID .execution)) :
    Safe D R (Approval.bindExecution L x) (fun _ t => Bound L t.directory.Durable x) s := by
  refine F.locked (P := fun _ d => Bound L d.Durable x)
    (fun _ _ _ hd h => h.mono fun _ _ hh => hh.grows hd) ?_
  intro t _ hit
  refine Safe.bind F.toFrame hit (F.loadState L hit x.orgID x.requestID)
    fun state u _ hiu hstate => ?_
  split
  · rename_i hvalid
    have hloaded := (hstate.here F.toFrame hiu).1
    refine Safe.bind F.toFrame hiu (F.put hiu (path_recordName L _ _ _) hK _)
      fun _ v huv hiv hknown => ?_
    refine (F.put hiv (path_recordName L _ _ _) hN _).mono fun _ w _ hvw hdurable => ?_
    exact ⟨state,hloaded.mono (F.durableMono (F.trans huv hvw)),hvalid,
      (hknown.here F.toFrame hiv).grows (F.grows hvw),hdurable⟩
  · exact Safe.throw F.toFrame _ _

theorem authorize (F : JournalFrame D N R) (hi : D.inv s) (i : Intent)
    (hN : ∀ a ∈ i.approval, N (path L i.payload.orgID a.requestID .executionKnown) ∧
      N (path L i.payload.orgID a.requestID .execution)) :
    Safe D R (Approval.authorize L i) (fun _ t => Authorized L t.directory.Durable i) s := by
  refine F.ensureThen hi fun hversion t _ hit => ?_
  replace hversion : i.version = 2 := by simpa using hversion
  split
  · rename_i a p ha hp
    refine F.ensureThen hit fun hout t _ hit => ?_
    replace hout : a.outgoingID = i.intentID := by simpa using hout
    refine Safe.bind F.toFrame hit (F.load L i.payload.orgID a.requestID)
      fun state t _ hit hstate => ?_
    have hloaded := (hstate.here F.toFrame hit).1
    refine F.ensureThen hit fun hheld t1 h01 hit => ?_
    refine F.quietThen hit (o := .now) rfl fun now t2 h12 hit => ?_
    split
    · exact Safe.throw F.toFrame _ _
    · rename_i auth hauth
      refine F.ensureThen hit fun hpayload t3 h23 hit => ?_
      replace hpayload : authorizedPayload L i.payload auth = true := by simpa using hpayload
      refine F.ensureThen hit fun _ t4 h34 hit => ?_
      refine F.quietThen hit (o := .contextErr) rfl fun _ t5 h45 hit => ?_
      refine F.ensureThen hit fun _ t6 h56 hit => ?_
      obtain ⟨hknown,hexecution⟩ := hN a ha
      refine (F.bindExecution L (executionBinding i a) hknown hexecution).mono
        fun _ t7 _ h67 hbound => ?_
      have hgrown := F.trans h01 (F.trans h12 (F.trans h23 (F.trans h34 (F.trans h45
        (F.trans h56 h67)))))
      exact ⟨hversion,a,p,state,now,auth,ha,hp,hout,hloaded.mono (F.durableMono hgrown),hheld,
        hauth,hpayload,hbound⟩
  · exact Safe.throw F.toFrame _ _

theorem probe (F : JournalFrame D N R) (hi : D.inv s) :
    Safe D R Approval.probe (fun _ _ => True) s :=
  F.quietThen hi (o := .probe) rfl fun _ _ _ hit =>
    F.ensureThen hit fun _ _ _ hiu => (F.syncDirectory hiu).mono fun _ _ _ _ _ => trivial

theorem pendingRecord (F : JournalFrame D N R) (hi : D.inv s) {name : Bytes}
    (hname : RecordName name) :
    Safe D R (Approval.pendingRecord L name)
      (fun r t => ∀ x, r = some x → Undelivered L t.directory.Durable x) s := by
  refine Safe.bind F.toFrame hi (F.readFile hi hname) fun raw t _ hit _ => ?_
  split
  · exact Safe.throw F.toFrame _ _
  · rename_i receipt _
    split
    · refine Safe.bind F.toFrame hit (F.loadState L hit receipt.orgID receipt.requestID)
        fun state u _ hiu hstate => ?_
      refine Safe.pure F.toFrame fun v hv hiv x hx => ?_
      have hx : state.receipt = some x := by
        split at hx
        · exact hx
        · cases hx
      have hloaded := (hstate v hv hiv).1
      obtain ⟨a,ha,hrec⟩ := hloaded.receipt x hx
      obtain ⟨horg,hrequest⟩ := HasReceipt.names L (hloaded.admission a ha) hrec
      exact ⟨a,by rw [horg, hrequest]; exact ⟨hloaded.admission a ha,hrec⟩⟩
    · exact Safe.throw F.toFrame _ _

theorem scanReceipts (F : JournalFrame D N R) (hi : D.inv s) (n : Nat) (err : Option Err) :
    Safe D R (Approval.scanReceipts L n err)
      (fun r t => ∀ x, r.1 = some x → Undelivered L t.directory.Durable x) s := by
  induction n generalizing s err with
  | zero => exact Safe.pure F.toFrame fun _ _ _ _ h => by cases h
  | succ n ih =>
    refine F.quietThen hi (o := .readName) rfl fun r t _ hit => ?_
    obtain e | _ | name := r
    · exact Safe.throw F.toFrame _ _
    · exact F.quietThen hit (o := .closeScan) rfl fun _ _ _ _ =>
        Safe.pure F.toFrame fun _ _ _ _ h => by cases h
    · dsimp only
      split
      · rename_i hname
        let Q : Except Err (Option SavedReceipt) → World → Prop := fun found u =>
          ∀ x, found = .ok (some x) → Undelivered L u.directory.Durable x
        refine Safe.bind F.toFrame hit (Q := Q) ?_ ?_
        · refine Safe.tryCatch F.toFrame hit ?_ fun e u _ _ =>
            Safe.pure F.toFrame fun _ _ _ _ h => by cases h
          refine Safe.bind F.toFrame hit (F.pendingRecord L hit (isReceiptName_recordName hname))
            fun r u _ _ hr => Safe.pure F.toFrame fun v hv hiv x hx => ?_
          exact hr v hv hiv x (Except.ok.inj hx)
        · intro found u _ hiu hfound
          obtain e | _ | receipt := found
          · exact ih hiu _
          · exact ih hiu err
          · refine Safe.pure F.toFrame fun v hv hiv x hx => hfound v hv hiv x ?_
            rw [Option.some.inj hx]
      · exact ih hit err

theorem pendingReceipts (F : JournalFrame D N R) (limit : Int) :
    Safe D R (Approval.pendingReceipts L limit)
      (fun r t => ∀ x, r.1 = some x → Undelivered L t.directory.Durable x) s := by
  refine F.locked (P := fun (r : Option SavedReceipt × Option Err) d =>
      ∀ x, r.1 = some x → Undelivered L d.Durable x)
    (fun _ _ _ hd h x hx => (h x hx).mono fun _ _ hh => hh.grows hd) ?_
  intro t _ hit
  refine F.ensureThen hit fun _ t _ hit => ?_
  refine Safe.bind F.toFrame hit (F.check hit) fun _ t _ hit _ => ?_
  refine F.quietThen hit (o := .openScan) rfl fun _ t _ hit => ?_
  exact F.ensureThen hit fun _ t _ hit => F.scanReceipts L hit _ none

end JournalFrame
end CoSigner.Approval
