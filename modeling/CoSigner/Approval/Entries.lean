import CoSigner.Approval.Service
import CoSigner.Approval.Runs

/-! What a journal is for: per request an admission, then a receipt for it, then its
application, then one execution. On a file system that works the files are at all times
those of such entries, and every call does to them what it is meant to do. -/
namespace CoSigner.Approval
open Attempt Contract SigningPolicy Json
variable (L : Libraries)

/-- An organization and a request that a journal can keep records of. -/
structure Pair where
  org : Bytes
  request : Bytes
  validOrg : validReference org = true
  validRequest : validReference request = true
  deriving DecidableEq

def Pair.path (p : Pair) (kind : Kind) : Bytes := Approval.path L p.org p.request kind

/-- An admission of this request, in valid UTF-8. -/
structure Admits (p : Pair) (a : Admission) : Prop where
  org : a.orgID = p.org
  request : a.requestID = p.request
  valid : a.validate = true
  text : ∀ e ∈ a.endpoint, Utf8.valid e = true

/-- Each record of a request rests on the one before it. -/
structure Consistent (p : Pair) (s : State) : Prop where
  admission : ∀ a, s.admission = some a → Admits p a
  receipt : ∀ r, s.receipt = some r →
    ∃ a, s.admission = some a ∧ validateReceipt L a r = .ok ()
  application : s.application ≠ [] → (∃ r, s.receipt = some r) ∧
    validateApplication L s.application p.request = .ok ()
  execution : ∀ x, s.execution = some x → validateExecution L s x = true

/-- The file that holds a record of a state. -/
def State.file (p : Pair) (s : State) : Kind → Option Bytes
  | .admission => s.admission.map admissionSchema.marshal
  | .receipt => s.receipt.map receiptSchema.marshal
  | .ack => if s.application = [] then none else s.receipt.map fun r =>
      acknowledgementSchema.marshal ⟨1,p.org,p.request,digest L r.bytes,s.application⟩
  | .execution => s.execution.map executionSchema.marshal
  | .executionKnown => s.execution.map fun x => executionKnownSchema.marshal (executionGuard L x)

/-- The files of a request are those of the state `s`. -/
structure Files (k : Contents) (p : Pair) (s : State) : Prop where
  consistent : Consistent L p s
  files : ∀ kind, k (p.path L kind) = s.file L p kind
  size : ∀ kind raw, s.file L p kind = some raw → 1 ≤ raw.length ∧ raw.length ≤ 32768

theorem validateExecution_ignores (s : State) (y : Option ExecutionBinding)
    (x : ExecutionBinding) :
    validateExecution L { s with execution := y } x = validateExecution L s x := rfl

section Load
variable {L} {reply : (o : Op) → World → Answer o} {k : Contents} {p : Pair} {s : State}
  {b : Bool}

theorem Consistent.valid (h : Consistent L p s) : ∀ a ∈ s.admission, a.Valid :=
  fun a ha => Admission.validate_valid (h.admission a ha).valid

theorem Files.record (h : Files L k p s) (kind : Kind) {raw : Bytes}
    (hfile : s.file L p kind = some raw) :
    k (p.path L kind) = some raw ∧ 1 ≤ raw.length ∧ raw.length ≤ 32768 :=
  ⟨(h.files kind).trans hfile,h.size kind raw hfile⟩

theorem Files.missing (h : Files L k p s) (kind : Kind) (hfile : s.file L p kind = none) :
    k (p.path L kind) = none :=
  (h.files kind).trans hfile

theorem Files.loadAdmission (h : Files L k p s) :
    Computes reply (Approval.loadAdmission L p.org p.request) b k (.ok s.admission) k := by
  cases ha : s.admission with
  | none =>
    exact .bind (.readRecord_none (h.missing _ (by simp [State.file, ha]))) (.pure _)
  | some a =>
    have hadm := h.consistent.admission a ha
    obtain ⟨hraw,hsize⟩ := h.record .admission (by simp only [State.file, ha]; rfl)
    have hdecode := decodeAdmission_marshal (Admission.validate_valid hadm.valid) hadm.text
    refine .bind (.readRecord_some hraw hsize hdecode) ?_
    show Computes reply (if a.orgID = p.org ∧ a.requestID = p.request ∧ a.validate = true then
      pure (some a) else throw .integrity : Action (Option Admission)) b k _ k
    rw [if_pos ⟨hadm.org,hadm.request,hadm.valid⟩]
    exact .pure _

theorem Files.loadReceipt (h : Files L k p s) :
    Computes reply (Approval.loadReceipt L p.org p.request s.admission) b k (.ok s.receipt) k := by
  cases hr : s.receipt with
  | none =>
    exact .bind (.readRecord_none (h.missing _ (by simp [State.file, hr]))) (.pure _)
  | some r =>
    obtain ⟨a,ha,hvalid⟩ := h.consistent.receipt r hr
    obtain ⟨hraw,hsize⟩ := h.record .receipt (by simp only [State.file, hr]; rfl)
    have hdecode := decodeReceipt_marshal L (h.consistent.valid a ha) (validateReceipt_valid L hvalid)
    refine .bind (.readRecord_some hraw hsize hdecode) ?_
    rw [ha]
    dsimp only
    rw [hvalid]
    exact .pure _

theorem Files.loadAcknowledgement (h : Files L k p s) :
    Computes reply (Approval.loadAcknowledgement L p.org p.request s.receipt) b k
      (.ok s.application) k := by
  by_cases happ : s.application = []
  · rw [happ]
    exact .bind (.readRecord_none (h.missing _ (by simp [State.file, happ]))) (.pure _)
  · obtain ⟨⟨r,hr⟩,hvalid⟩ := h.consistent.application happ
    obtain ⟨hraw,hsize⟩ := h.record .ack
      (by simp only [State.file, hr, if_neg happ]; rfl)
    have hdecode := decodeAcknowledgement_marshal
      (k := ⟨1,p.org,p.request,digest L r.bytes,s.application⟩) rfl p.validOrg p.validRequest
      (hash_valid L _)
    have hack : validAck L p.org p.request r
        ⟨1,p.org,p.request,digest L r.bytes,s.application⟩ = true := by
      simp [validAck]
    refine .bind (.readRecord_some hraw hsize hdecode) ?_
    rw [hr]
    dsimp only
    rw [if_pos hack, hvalid]
    exact .pure _

theorem Consistent.executes (h : Consistent L p s) {x : ExecutionBinding}
    (hx : validateExecution L s x = true) : ∃ a, s.admission = some a ∧ x.orgID = p.org ∧
      x.requestID = p.request ∧ x.authorizationHash = a.authorizationHash := by
  obtain ⟨a,r,ha,-,horg,hrequest,hhash,-⟩ := (validateExecution_valid L hx).evidence
  have hadm := h.admission a ha
  exact ⟨a,ha,horg.trans hadm.org,hrequest.trans hadm.request,hhash⟩

theorem Consistent.decodeGuard (h : Consistent L p s) {x : ExecutionBinding}
    (hx : validateExecution L s x = true) :
    decodeExecutionKnown (executionKnownSchema.marshal (executionGuard L x)) =
      some (executionGuard L x) := by
  obtain ⟨a,ha,horg,hrequest,hhash⟩ := h.executes hx
  refine decodeExecutionKnown_marshal rfl ?_ ?_ ?_ (hash_valid L _)
  · exact (congrArg validReference horg).trans p.validOrg
  · exact (congrArg validReference hrequest).trans p.validRequest
  · exact (congrArg hex256 hhash).trans (h.valid a ha).authorizationHash

theorem Files.loadExecution (h : Files L k p s) :
    Computes reply (Approval.loadExecution L p.org p.request { s with execution := none }) b k
      (.ok s.execution) k := by
  cases hx : s.execution with
  | none =>
    refine .bind (.readRecord_none (h.missing .execution (by simp [State.file, hx]))) ?_
    exact .bind (.readRecord_none (h.missing .executionKnown (by simp [State.file, hx])))
      (.pure _)
  | some x =>
    have hvalid := h.consistent.execution x hx
    obtain ⟨hraw,hsize⟩ := h.record .execution (by simp only [State.file, hx]; rfl)
    obtain ⟨hguard,hguardSize⟩ := h.record .executionKnown
      (by simp only [State.file, hx]; rfl)
    have hdecode := decodeExecution_marshal L h.consistent.valid (validateExecution_valid L hvalid)
    have hdecodeGuard := h.consistent.decodeGuard hvalid
    obtain ⟨a,ha,horg,hrequest,hhash⟩ := h.consistent.executes hvalid
    have hknown : validKnown L p.org p.request { s with execution := none }
        (executionSchema.marshal x) (executionGuard L x) = true := by
      simp [validKnown, executionGuard, horg, hrequest, hhash, ha]
    refine .bind (.readRecord_some hraw hsize hdecode) ?_
    refine .bind (.readRecord_some hguard hguardSize hdecodeGuard) ?_
    show Computes reply (if validateExecution L { s with execution := none } x then do
      let raw ← Approval.readFile (path L p.org p.request .execution)
      if validKnown L p.org p.request { s with execution := none } raw (executionGuard L x) then
        pure (some x) else throw .integrity
      else throw .integrity : Action (Option ExecutionBinding)) b k _ k
    rw [validateExecution_ignores, if_pos hvalid]
    refine .bind (.readFile hraw hsize) ?_
    rw [if_pos hknown]
    exact .pure _

theorem Files.loadState (h : Files L k p s) :
    Computes reply (Approval.loadState L p.org p.request) b k (.ok s) k := by
  have hrefs : Computes reply (ensure (if validReference p.org && validReference p.request then none
      else some Err.integrity)) b k (.ok ()) k := by
    rw [p.validOrg, p.validRequest]
    exact .ensure
  refine .bind hrefs (.bind .check ?_)
  refine .bind h.loadAdmission (.bind h.loadReceipt (.bind h.loadAcknowledgement ?_))
  exact .bind h.loadExecution (.bind .syncDirectory (.pure _))

theorem Files.load (h : Files L k p s) (reply : (o : Op) → World → Answer o) :
    Computes reply (Approval.load L p.org p.request) false k (.ok s) k :=
  .locked h.loadState

end Load

/-- The request that a call is about. -/
def Call.about (p : Pair) : Call → Prop
  | .journalAdmit a => a.orgID = p.org ∧ a.requestID = p.request
  | .saveReceipt r => r.orgID = p.org ∧ r.requestID = p.request
  | .acknowledge org request _ => org = p.org ∧ request = p.request
  | .bindExecution x => x.orgID = p.org ∧ x.requestID = p.request
  | .load org request => org = p.org ∧ request = p.request
  | _ => False

/-- The strings of a call that no check holds to be UTF-8. -/
def Call.text : Call → Prop
  | .journalAdmit a => ∀ e ∈ a.endpoint, Utf8.valid e = true
  | _ => True

def fits (raw : Bytes) : Bool := raw.length ≤ 32768

/-- What a call makes of the records of its request, or nothing if it is refused: a missing
record is added once the ones before it are there, and a present one is only confirmed. -/
def State.next (s : State) : Call → Option State
  | .journalAdmit a =>
    if a.validate then
      match s.admission with
      | none => if fits (admissionSchema.marshal a) then some { s with admission := some a } else none
      | some old => if old = { a with admittedAt := old.admittedAt } then some s else none
    else none
  | .saveReceipt r =>
    match s.admission with
    | none => none
    | some a =>
      if (validateReceipt L a r).isOk then
        match s.receipt with
        | none => if fits (receiptSchema.marshal r) then some { s with receipt := some r } else none
        | some old => if old = r then some s else none
      else none
  | .acknowledge org request application =>
    match s.receipt with
    | none => none
    | some r =>
      if (validateApplication L application request).isOk then
        if s.application = [] then
          if fits (acknowledgementSchema.marshal
              ⟨1,org,request,digest L r.bytes,application⟩) then
            some { s with application := application }
          else none
        else if s.application = application then some s else none
      else none
  | .bindExecution x =>
    if validateExecution L s x then
      match s.execution with
      | none =>
        if fits (executionKnownSchema.marshal (executionGuard L x)) then
          some { s with execution := some x }
        else none
      | some old => if old = x then some s else none
    else none
  | _ => some s

/-- What an outcome tells of the state. -/
def Outcome.tells (s : State) : Call → Outcome → Prop
  | .load _ _, o => o = .loaded s
  | _, o => o = .done

/-- The call does to the files what it is meant to do: it is refused and changes nothing, or
it leaves the files of the next state. -/
def Realizes (reply : (o : Op) → World → Answer o) (k : Contents) (p : Pair) (s : State)
    (c : Call) : Prop :=
  match s.next L c with
  | none => ∃ e, Computes reply (c.body L) false k (.error e) k
  | some s' => ∃ o k', Computes reply (c.body L) false k (.ok o) k' ∧ o.tells s c ∧
      Files L k' p s' ∧ (s' = s → k' = k) ∧
      ∀ name, (∀ kind, name ≠ p.path L kind) → k' name = k name

section Calls
variable {L} {reply : (o : Op) → World → Answer o} {k : Contents} {p : Pair} {s : State}

theorem Pair.path_ne {kind kind' : Kind} (h : kind' ≠ kind) : p.path L kind' ≠ p.path L kind :=
  fun heq => h (path_injective L heq).2

theorem Files.create (h : Files L k p s) {s' : State} {kind : Kind} {raw : Bytes}
    (hcon : Consistent L p s') (hnew : s'.file L p kind = some raw)
    (hsize : 1 ≤ raw.length ∧ raw.length ≤ 32768)
    (hold : ∀ kind', kind' ≠ kind → s'.file L p kind' = s.file L p kind') :
    Files L (k.create (p.path L kind) raw) p s' := by
  refine ⟨hcon,?_,?_⟩
  · intro kind'
    by_cases hkind : kind' = kind
    · subst hkind
      simp [Contents.create, hnew]
    · rw [hold kind' hkind, ← h.files kind']
      exact Function.update_of_ne (Pair.path_ne hkind) _ _
  · intro kind' raw' hfile
    by_cases hkind : kind' = kind
    · subst hkind
      obtain rfl := Option.some.inj (hnew.symm.trans hfile)
      exact hsize
    · exact h.size kind' raw' (hold kind' hkind ▸ hfile)

theorem create_frame (kind : Kind) (raw name : Bytes) (hname : ∀ kind, name ≠ p.path L kind) :
    k.create (p.path L kind) raw name = k name :=
  Function.update_of_ne (hname kind) _ _

theorem Files.realizes_load (h : Files L k p s) {org request : Bytes}
    (hp : (Call.load org request).about p) : Realizes L reply k p s (.load org request) := by
  obtain ⟨rfl,rfl⟩ := hp
  exact ⟨_,k,.bind (h.load reply) (.pure _),rfl,h,fun _ => rfl,fun _ _ => rfl⟩

theorem equalJSON_iff {old a : Admission} (hold : Admits p old) (ha : Admits p a) :
    equalJSON old { a with admittedAt := old.admittedAt } = true ↔
      old = { a with admittedAt := old.admittedAt } := by
  have hv := Admission.validate_valid hold.valid
  have hw := Admission.validate_valid ha.valid
  have hdecode := decodeAdmission_marshal hv hold.text
  have hdecode' := decodeAdmission_marshal (a := { a with admittedAt := old.admittedAt })
    ⟨hw.version,hw.orgID,hw.requestID,hw.authorizationHash,hv.admittedAt,hw.mode⟩ ha.text
  simp only [equalJSON, beq_iff_eq]
  constructor
  · intro h
    exact Option.some.inj (hdecode.symm.trans ((congrArg decodeAdmission h).trans hdecode'))
  · exact fun h => congrArg admissionSchema.marshal h

theorem Consistent.empty (h : Consistent L p s) (ha : s.admission = none) :
    s.receipt = none ∧ s.application = [] ∧ s.execution = none := by
  have hreceipt : s.receipt = none := by
    cases hr : s.receipt with
    | none => rfl
    | some r =>
      obtain ⟨a,ha',-⟩ := h.receipt r hr
      rw [ha] at ha'
      cases ha'
  refine ⟨hreceipt,?_,?_⟩
  · by_contra happ
    obtain ⟨⟨r,hr⟩,-⟩ := h.application happ
    rw [hreceipt] at hr
    cases hr
  · cases hx : s.execution with
    | none => rfl
    | some x =>
      obtain ⟨a,ha',-⟩ := h.executes (h.execution x hx)
      rw [ha] at ha'
      cases ha'

theorem Files.after_load (h : Files L k p s) {org request : Bytes} (horg : org = p.org)
    (hrequest : request = p.request) {next : State → Action Unit} {r : Except Err Unit}
    {k' : Contents} (hnext : Computes reply (next s) true k r k') :
    Computes reply (Approval.loadState L org request >>= next) true k r k' := by
  subst horg hrequest
  exact .bind h.loadState hnext

theorem Files.realizes_put (h : Files L k p s) {c : Call} {kind : Kind} {raw : Bytes}
    (s' : State) (hc : ∀ o, Outcome.tells s c o ↔ o = .done)
    (hbody : ∀ {out : Except Err Unit} {k' : Contents},
      Computes reply (put (p.path L kind) raw) true k out k' →
      Computes reply (c.body L) false k (out.map fun _ => .done) k')
    (hnext : s.next L c = match s.file L p kind with
      | none => if fits raw then some s' else none
      | some old => if old = raw then some s else none)
    (hraw : 1 ≤ raw.length) (hnew : s'.file L p kind = some raw)
    (hfresh : s.file L p kind = none → Consistent L p s' ∧
      ∀ kind', kind' ≠ kind → s'.file L p kind' = s.file L p kind') :
    Realizes L reply k p s c := by
  unfold Realizes
  rw [hnext]
  cases hfile : s.file L p kind with
  | none =>
    have habsent := h.missing _ hfile
    by_cases hfits : raw.length ≤ 32768
    · have hsize := And.intro hraw hfits
      simp only [fits, hfits, decide_true, if_true]
      refine ⟨_,_,hbody (.put_new hsize habsent),(hc _).mpr rfl,
        h.create (hfresh hfile).1 hnew hsize (hfresh hfile).2,?_,create_frame _ _⟩
      intro hs
      rw [hs, hfile] at hnew
      cases hnew
    · simp only [fits, hfits, decide_false, Bool.false_eq_true, if_false]
      exact ⟨_,hbody (.put_large (.inr (by omega)))⟩
  | some old =>
    obtain ⟨hpresent,hsize⟩ := h.record _ hfile
    by_cases heq : old = raw
    · subst heq
      simp only [if_true]
      exact ⟨_,k,hbody (.put_same hsize hpresent),(hc _).mpr rfl,h,fun _ => rfl,fun _ _ => rfl⟩
    · simp only [if_neg heq]
      obtain ⟨e,he⟩ := Computes.put_refused reply true hpresent hsize heq
      exact ⟨e,hbody he⟩

theorem computes_locked {q : Action Unit} {out : Except Err Unit} {k' : Contents}
    (h : Computes reply q true k out k') :
    Computes reply (do Approval.locked q; pure .done : Action Outcome) false k
      (out.map fun _ => .done) k' := by
  cases out with
  | error e => exact .fails (.locked h)
  | ok u => exact .bind (.locked h) (.pure _)

theorem Files.realizes_journalAdmit (h : Files L k p s) {a : Admission}
    (hp : (Call.journalAdmit a).about p) (htext : (Call.journalAdmit a).text) :
    Realizes L reply k p s (.journalAdmit a) := by
  obtain ⟨horg,hrequest⟩ := hp
  by_cases hvalid : a.validate = true
  swap
  · have hbody : Computes reply ((Call.journalAdmit a).body L) false k (.error .integrity) k := by
      refine .fails (.locked (.fails ?_))
      rw [if_neg hvalid]
      exact .throw _
    simpa only [Realizes, State.next, hvalid] using ⟨_,hbody⟩
  have hbody : ∀ {out : Except Err Unit} {k' : Contents},
      Computes reply _ true k out k' →
      Computes reply ((Call.journalAdmit a).body L) false k (out.map fun _ => .done) k' :=
    fun hrest => computes_locked (.bind (a := ()) (by rw [if_pos hvalid]; exact .ensure)
      (h.after_load horg hrequest hrest))
  have hadm : Admits p a := ⟨horg,hrequest,hvalid,htext⟩
  cases ha : s.admission with
  | none =>
    obtain ⟨hreceipt,happ,hexec⟩ := h.consistent.empty ha
    have hfile : s.file L p .admission = none := by simp [State.file, ha]
    rw [ha, horg, hrequest] at hbody
    refine h.realizes_put { s with admission := some a } (fun _ => Iff.rfl) hbody ?_
      (admissionSchema.marshal_length_pos a) rfl fun _ => ⟨?_,?_⟩
    · rw [hfile]
      simp [State.next, hvalid, ha]
    · exact ⟨fun b hb => Option.some.inj hb ▸ hadm,by simp [hreceipt],by simp [happ],
        by simp [hexec]⟩
    · intro kind hkind
      cases kind <;> first | rfl | exact absurd rfl hkind
  | some old =>
    have hiff := equalJSON_iff (h.consistent.admission old ha) hadm
    rw [ha] at hbody
    dsimp only at hbody
    by_cases heq : old = { a with admittedAt := old.admittedAt }
    · simp only [Realizes, State.next, hvalid, ha, if_true, if_pos heq]
      rw [if_pos (hiff.mpr heq)] at hbody
      exact ⟨_,k,hbody (.pure ()),rfl,h,fun _ => rfl,fun _ _ => rfl⟩
    · simp only [Realizes, State.next, hvalid, ha, if_true, if_neg heq]
      rw [if_neg (fun hjson => heq (hiff.mp hjson))] at hbody
      exact ⟨_,hbody (.throw _)⟩

theorem Consistent.undecided (h : Consistent L p s) (hr : s.receipt = none) :
    s.application = [] ∧ s.execution = none := by
  constructor
  · by_contra hne
    obtain ⟨⟨r,hr'⟩,-⟩ := h.application hne
    rw [hr] at hr'
    cases hr'
  · cases hx : s.execution with
    | none => rfl
    | some x =>
      obtain ⟨-,r,-,hr',-⟩ := (validateExecution_valid L (h.execution x hx)).evidence
      rw [hr] at hr'
      cases hr'

theorem Consistent.unapplied (h : Consistent L p s) (happ : s.application = []) :
    s.execution = none := by
  cases hx : s.execution with
  | none => rfl
  | some x =>
    obtain ⟨v,hv,-⟩ := (validateExecution_valid L (h.execution x hx)).applied
    rw [happ] at hv
    cases hv

theorem marshal_ne {σ : Type} {marshal : σ → Bytes} {decode : Bytes → Option σ} {x y : σ}
    (hx : decode (marshal x) = some x) (hy : decode (marshal y) = some y) :
    marshal x = marshal y ↔ x = y :=
  ⟨fun h => Option.some.inj (hx.symm.trans ((congrArg decode h).trans hy)),congrArg marshal⟩

theorem Files.realizes_saveReceipt (h : Files L k p s) {r : SavedReceipt}
    (hp : (Call.saveReceipt r).about p) : Realizes L reply k p s (.saveReceipt r) := by
  obtain ⟨horg,hrequest⟩ := hp
  have hbody : ∀ {out : Except Err Unit} {k' : Contents},
      Computes reply _ true k out k' →
      Computes reply ((Call.saveReceipt r).body L) false k (out.map fun _ => .done) k' :=
    fun hrest => computes_locked (h.after_load horg hrequest hrest)
  cases ha : s.admission with
  | none =>
    rw [ha] at hbody
    simp only [Realizes, State.next, ha]
    exact ⟨_,hbody (.throw _)⟩
  | some a =>
    rw [ha] at hbody
    dsimp only at hbody
    cases hv : validateReceipt L a r with
    | error e =>
      rw [hv] at hbody
      simp only [Realizes, State.next, ha, hv, Except.isOk, Except.toBool]
      exact ⟨_,hbody (.throw _)⟩
    | ok u =>
      rw [hv, horg, hrequest] at hbody
      refine h.realizes_put { s with receipt := some r } (fun _ => Iff.rfl) hbody ?_
        (receiptSchema.marshal_length_pos r) rfl ?_
      · cases hr : s.receipt with
        | none => simp [State.next, State.file, ha, hv, hr, Except.isOk, Except.toBool]
        | some old =>
          obtain ⟨a',ha',hv'⟩ := h.consistent.receipt old hr
          have hiff := marshal_ne
            (decodeReceipt_marshal L (h.consistent.valid a' ha') (validateReceipt_valid L hv'))
            (decodeReceipt_marshal L (h.consistent.valid a ha) (validateReceipt_valid L hv))
          simp [State.next, State.file, ha, hv, hr, Except.isOk, Except.toBool, hiff]
      · intro hfile
        have hr : s.receipt = none := by simpa [State.file] using hfile
        obtain ⟨happ,hexec⟩ := h.consistent.undecided hr
        constructor
        · refine ⟨h.consistent.admission,?_,by simp [happ],by simp [hexec]⟩
          intro r' hr'
          obtain rfl := Option.some.inj hr'
          exact ⟨a,ha,hv⟩
        · intro kind hkind
          cases kind with
          | receipt => exact absurd rfl hkind
          | ack => simp [State.file, happ]
          | _ => rfl

theorem Files.realizes_acknowledge (h : Files L k p s) {org request application : Bytes}
    (hp : (Call.acknowledge org request application).about p) :
    Realizes L reply k p s (.acknowledge org request application) := by
  obtain ⟨rfl,rfl⟩ := hp
  have hbody : ∀ {out : Except Err Unit} {k' : Contents},
      Computes reply _ true k out k' →
      Computes reply ((Call.acknowledge p.org p.request application).body L) false k
        (out.map fun _ => .done) k' :=
    fun hrest => computes_locked (h.after_load rfl rfl hrest)
  cases hr : s.receipt with
  | none =>
    rw [hr] at hbody
    simp only [Realizes, State.next, hr]
    exact ⟨_,hbody (.throw _)⟩
  | some r =>
    rw [hr] at hbody
    dsimp only at hbody
    cases hv : validateApplication L application p.request with
    | error e =>
      rw [hv] at hbody
      simp only [Realizes, State.next, hr, hv, Except.isOk, Except.toBool]
      exact ⟨_,hbody (.throw _)⟩
    | ok u =>
      rw [hv] at hbody
      have hne : application ≠ [] := by
        rintro rfl
        exact absurd (hv.symm.trans (show validateApplication L [] p.request = .error .contract
          from rfl)) (by simp)
      refine h.realizes_put { s with application := application } (fun _ => Iff.rfl) hbody
        ?_ (acknowledgementSchema.marshal_length_pos _) ?_ ?_
      · by_cases happ : s.application = []
        · simp [State.next, State.file, hr, hv, happ, Except.isOk, Except.toBool]
        · have hdecode (x : Bytes) := decodeAcknowledgement_marshal
            (k := ⟨1,p.org,p.request,digest L r.bytes,x⟩) rfl p.validOrg p.validRequest
            (hash_valid L _)
          have hiff := marshal_ne (hdecode s.application) (hdecode application)
          simp [State.next, State.file, hr, hv, happ, Except.isOk, Except.toBool, hiff]
      · simp [State.file, hne, hr]
      · intro hfile
        have happ : s.application = [] := by
          by_contra happ
          simp [State.file, happ, hr] at hfile
        have hexec := h.consistent.unapplied happ
        constructor
        · exact ⟨h.consistent.admission,h.consistent.receipt,fun _ => ⟨⟨r,hr⟩,hv⟩,by simp [hexec]⟩
        · intro kind hkind
          cases kind <;> first | rfl | exact absurd rfl hkind

attribute [local irreducible] Schema.marshal Approval.path

theorem Files.bind_after (h : Files L k p s) {x : ExecutionBinding}
    (hp : (Call.bindExecution x).about p) {out : Except Err Unit} {k' : Contents}
    (hrest : Computes reply (if validateExecution L s x then do
        put (p.path L .executionKnown) (executionKnownSchema.marshal (executionGuard L x))
        put (p.path L .execution) (executionSchema.marshal x)
      else throw .integrity : Action Unit) true k out k') :
    Computes reply ((Call.bindExecution x).body L) false k (out.map fun _ => .done) k' := by
  obtain ⟨horg,hrequest⟩ := hp
  have hpath (kind : Kind) : p.path L kind = path L x.orgID x.requestID kind := by
    rw [Pair.path, horg, hrequest]
  rw [hpath, hpath] at hrest
  exact computes_locked (h.after_load horg hrequest hrest)

theorem Files.bind (h : Files L k p s) {x : ExecutionBinding} (hvalid : validateExecution L s x = true)
    (hfits : (executionKnownSchema.marshal (executionGuard L x)).length ≤ 32768) :
    Files L ((k.create (p.path L .executionKnown)
        (executionKnownSchema.marshal (executionGuard L x))).create (p.path L .execution)
        (executionSchema.marshal x)) p { s with execution := some x } := by
  have hcon := h.consistent
  refine ⟨⟨hcon.admission,hcon.receipt,hcon.application,?_⟩,?_,?_⟩
  · intro y hy
    obtain rfl := Option.some.inj hy
    exact hvalid
  · intro kind
    by_cases hexec : kind = .execution
    · subst hexec
      simp [Contents.create, State.file]
    · rw [Contents.create, Function.update_of_ne (Pair.path_ne hexec)]
      by_cases hknown : kind = .executionKnown
      · subst hknown
        simp [Contents.create, State.file]
      · rw [Contents.create, Function.update_of_ne (Pair.path_ne hknown), h.files kind]
        cases kind <;> first | rfl | exact absurd rfl hexec | exact absurd rfl hknown
  · intro kind raw hfile
    have hvalid' := validateExecution_valid L hvalid
    cases kind with
    | execution =>
      obtain rfl := Option.some.inj hfile
      exact ⟨executionSchema.marshal_length_pos x,executionSchema_length L hcon.valid hvalid'⟩
    | executionKnown =>
      obtain rfl := Option.some.inj hfile
      exact ⟨executionKnownSchema.marshal_length_pos _,hfits⟩
    | admission => exact h.size .admission raw hfile
    | receipt => exact h.size .receipt raw hfile
    | ack => exact h.size .ack raw hfile

theorem Files.realizes_bindExecution (h : Files L k p s) {x : ExecutionBinding}
    (hp : (Call.bindExecution x).about p) : Realizes L reply k p s (.bindExecution x) := by
  by_cases hvalid : validateExecution L s x = true
  swap
  · simp only [Realizes, State.next, hvalid]
    have hrest : Computes reply (if validateExecution L s x then do
        put (p.path L .executionKnown) (executionKnownSchema.marshal (executionGuard L x))
        put (p.path L .execution) (executionSchema.marshal x)
      else throw .integrity : Action Unit) true k (.error .integrity) k := by
      rw [if_neg hvalid]
      exact .throw _
    exact ⟨_,h.bind_after hp hrest⟩
  have hexec := validateExecution_valid L hvalid
  have hsize := And.intro (executionSchema.marshal_length_pos x)
    (executionSchema_length L h.consistent.valid hexec)
  have hbody {out : Except Err Unit} {k' : Contents} (hrest : Computes reply (do
      put (p.path L .executionKnown) (executionKnownSchema.marshal (executionGuard L x))
      put (p.path L .execution) (executionSchema.marshal x) : Action Unit) true k out k') :
      Computes reply ((Call.bindExecution x).body L) false k (out.map fun _ => .done) k' := by
    refine h.bind_after hp ?_
    rw [if_pos hvalid]
    exact hrest
  cases hx : s.execution with
  | none =>
    have hk : k (p.path L .executionKnown) = none := h.missing _ (by simp [State.file, hx])
    have hkx : k (p.path L .execution) = none := h.missing _ (by simp [State.file, hx])
    by_cases hfits : (executionKnownSchema.marshal (executionGuard L x)).length ≤ 32768
    · have hknownSize := And.intro (executionKnownSchema.marshal_length_pos (executionGuard L x))
        hfits
      simp only [Realizes, State.next, hvalid, hx, fits, if_true, hfits, decide_true]
      refine ⟨_,_,hbody (.bind (.put_new hknownSize hk) (.put_new hsize ?_)),rfl,
        h.bind hvalid hfits,?_,?_⟩
      · rw [Contents.create, Function.update_of_ne (Pair.path_ne (by decide)), hkx]
      · intro hs
        exact absurd (congrArg State.execution hs) (by simp [hx])
      · intro name hname
        rw [create_frame _ _ _ hname, create_frame _ _ _ hname]
    · simp only [Realizes, State.next, hvalid, hx, fits, if_true, hfits, decide_false,
        Bool.false_eq_true, if_false]
      exact ⟨_,hbody (.fails (.put_large (.inr (by omega))))⟩
  | some old =>
    obtain ⟨hk,hkSize⟩ := h.record .executionKnown
      (by simp only [State.file, hx]; rfl)
    obtain ⟨hkx,hkxSize⟩ := h.record .execution
      (by simp only [State.file, hx]; rfl)
    by_cases heq : old = x
    · subst heq
      simp only [Realizes, State.next, hvalid, hx, if_true]
      exact ⟨_,k,hbody (.bind (.put_same hkSize hk) (.put_same hkxSize hkx)),rfl,h,fun _ => rfl,
        fun _ _ => rfl⟩
    · simp only [Realizes, State.next, hvalid, hx, if_true, if_neg heq]
      have hold := decodeExecution_marshal L h.consistent.valid
        (validateExecution_valid L (h.consistent.execution old hx))
      have hdecode := decodeExecution_marshal L h.consistent.valid hexec
      have hne : executionSchema.marshal old ≠ executionSchema.marshal x := fun hraw =>
        heq ((marshal_ne hold hdecode).mp hraw)
      by_cases hsame : executionKnownSchema.marshal (executionGuard L old) =
          executionKnownSchema.marshal (executionGuard L x)
      · obtain ⟨e,he⟩ := Computes.put_refused reply true hkx hkxSize hne
        exact ⟨e,hbody (.bind (.put_same (hsame ▸ hkSize) (hsame ▸ hk)) he)⟩
      · obtain ⟨e,he⟩ := Computes.put_refused reply true hk hkSize hsame
        exact ⟨e,hbody (.fails he)⟩

theorem Files.realizes (h : Files L k p s) {c : Call} (hp : c.about p) (htext : c.text)
    (reply : (o : Op) → World → Answer o) : Realizes L reply k p s c := by
  cases c with
  | journalAdmit a => exact h.realizes_journalAdmit hp htext
  | saveReceipt r => exact h.realizes_saveReceipt hp
  | acknowledge org request application => exact h.realizes_acknowledge hp
  | bindExecution x => exact h.realizes_bindExecution hp
  | load org request => exact h.realizes_load hp
  | _ => exact hp.elim

end Calls
end CoSigner.Approval
