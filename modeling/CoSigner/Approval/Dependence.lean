import CoSigner.Approval.Entries
import CoSigner.Approval.HalfBound

/-! Sequences of journal calls on a file system that works, from an empty directory: the
files are at all times those of consistent entries, one for each request. -/
namespace CoSigner.Approval
open Attempt Contract SigningPolicy Json
variable (L : Libraries)

/-- The separator of a record key occurs in no reference. -/
theorem validReference_zero {s : Bytes} (h : validReference s = true) : (0 : UInt8) ∉ s :=
  fun hmem => absurd (bounded_bytes h 0 hmem) (by decide)

theorem recordKey_injective (hsha : Function.Injective L.sha256) {p q : Pair}
    (h : recordKey L p.org p.request = recordKey L q.org q.request) : p = q := by
  have hraw := hsha (hexEncode_injective h)
  obtain ⟨horg,hrequest⟩ := Strings.cut_injective (validReference_zero p.validOrg)
    (validReference_zero q.validOrg) hraw
  cases p
  cases q
  simp_all

theorem Pair.path_injective (hsha : Function.Injective L.sha256) {p q : Pair} {kind kind' : Kind}
    (h : p.path L kind = q.path L kind') : p = q :=
  recordKey_injective L hsha (Approval.path_injective L h).1

/-- The calls of the journal itself. -/
def Call.journal : Call → Prop
  | .authorize _ => False
  | _ => True

/-- The calls made so far with their results, and the world they leave, from an empty
directory on. All strings are UTF-8. -/
inductive After : List (Call × Except Err Outcome) → World → Prop
  | start : After [] { directory := fun _ => none }
  | call {h : List (Call × Except Err Outcome)} {s t : World} {c : Call} {r : Except Err Outcome}
      {reply : (o : Op) → World → Answer o} (hs : After h s) (hc : c.journal) (htext : c.text)
      (he : (c.run L).exec (World.serve reply) s = some (r,t)) : After (h ++ [(c,r)]) t

/-- What is recorded stays recorded. -/
structure State.Le (s s' : State) : Prop where
  admission : ∀ a, s.admission = some a → s'.admission = some a
  receipt : ∀ r, s.receipt = some r → s'.receipt = some r
  application : s.application ≠ [] → s'.application = s.application
  execution : ∀ x, s.execution = some x → s'.execution = some x

/-- The same operation for the same request. -/
def Call.sameSlot : Call → Call → Prop
  | .journalAdmit a, .journalAdmit b => a.orgID = b.orgID ∧ a.requestID = b.requestID
  | .saveReceipt r, .saveReceipt t => r.orgID = t.orgID ∧ r.requestID = t.requestID
  | .acknowledge org request _, .acknowledge org' request' _ => org = org' ∧ request = request'
  | .bindExecution x, .bindExecution y => x.orgID = y.orgID ∧ x.requestID = y.requestID
  | .load org request, .load org' request' => org = org' ∧ request = request'
  | _, _ => False

/-- Equal content; the time of an admission does not count. -/
def Call.sameContent : Call → Call → Prop
  | .journalAdmit a, .journalAdmit b => a = { b with admittedAt := a.admittedAt }
  | .saveReceipt r, .saveReceipt t => r = t
  | .acknowledge _ _ application, .acknowledge _ _ application' => application = application'
  | .bindExecution x, .bindExecution y => x = y
  | .load _ _, .load _ _ => True
  | _, _ => False

/-- The admission of a call carries a time. -/
def Call.timed : Call → Prop
  | .journalAdmit a => validTimestamp a.admittedAt = true
  | _ => True

theorem validateApplication_nil (request : Bytes) :
    validateApplication L [] request = .error .contract := rfl

section Next
variable {L} {s s' : State} {c d : Call}

/-- The shape of a confirmed call: its content is what the state holds. -/
def State.Holds (L : Libraries) (s : State) : Call → Prop
  | .journalAdmit a => a.validate = true ∧
      ∃ old, s.admission = some old ∧ old = { a with admittedAt := old.admittedAt }
  | .saveReceipt r => s.receipt = some r ∧
      ∃ a, s.admission = some a ∧ validateReceipt L a r = .ok ()
  | .acknowledge _ request application => s.application = application ∧ application ≠ [] ∧
      (∃ r, s.receipt = some r) ∧ validateApplication L application request = .ok ()
  | .bindExecution x => s.execution = some x ∧ validateExecution L s x = true
  | _ => True

theorem State.Holds.next (h : s.Holds L c) : s.next L c = some s := by
  cases c with
  | journalAdmit a =>
    obtain ⟨hvalid,old,hold,heq⟩ := h
    simp only [State.next, hvalid, hold, if_true, if_pos heq]
  | saveReceipt r =>
    obtain ⟨hr,a,ha,hvalid⟩ := h
    simp [State.next, ha, hr, hvalid, Except.isOk, Except.toBool]
  | acknowledge org request application =>
    obtain ⟨happ,hne,⟨r,hr⟩,hvalid⟩ := h
    simp [State.next, hr, happ, hne, hvalid, Except.isOk, Except.toBool]
  | bindExecution x =>
    obtain ⟨hx,hvalid⟩ := h
    simp [State.next, hx, hvalid]
  | _ => rfl

theorem isOk_iff {r : Except Err Unit} : r.isOk = true ↔ r = .ok () := by
  cases r <;> simp [Except.isOk, Except.toBool]

theorem State.Le.refl (s : State) : s.Le s := ⟨fun _ => id,fun _ => id,fun _ => rfl,fun _ => id⟩

theorem next_holds (h : s.next L c = some s') : s.Le s' ∧ s'.Holds L c := by
  cases c with
  | journalAdmit a =>
    simp only [State.next] at h
    split at h
    swap
    · cases h
    rename_i hvalid
    split at h
    · rename_i hnone
      simp only [Option.ite_none_right_eq_some, Option.some.injEq] at h
      obtain ⟨-,rfl⟩ := h
      exact ⟨⟨by simp [hnone],fun _ => id,fun _ => rfl,fun _ => id⟩,hvalid,a,rfl,rfl⟩
    · rename_i old hold
      simp only [Option.ite_none_right_eq_some, Option.some.injEq] at h
      obtain ⟨heq,rfl⟩ := h
      exact ⟨.refl s,hvalid,old,hold,heq⟩
  | saveReceipt r =>
    simp only [State.next] at h
    split at h
    · cases h
    rename_i a ha
    split at h
    swap
    · cases h
    rename_i hvalid
    rw [isOk_iff] at hvalid
    split at h
    · rename_i hnone
      simp only [Option.ite_none_right_eq_some, Option.some.injEq] at h
      obtain ⟨-,rfl⟩ := h
      exact ⟨⟨fun _ => id,by simp [hnone],fun _ => rfl,fun _ => id⟩,rfl,a,ha,hvalid⟩
    · rename_i old hold
      simp only [Option.ite_none_right_eq_some, Option.some.injEq] at h
      obtain ⟨rfl,rfl⟩ := h
      exact ⟨.refl s,hold,a,ha,hvalid⟩
  | acknowledge org request application =>
    simp only [State.next] at h
    split at h
    · cases h
    rename_i r hr
    split at h
    swap
    · cases h
    rename_i hvalid
    rw [isOk_iff] at hvalid
    have hne : application ≠ [] := by
      rintro rfl
      rw [validateApplication_nil] at hvalid
      cases hvalid
    split at h
    · rename_i happ
      simp only [Option.ite_none_right_eq_some, Option.some.injEq] at h
      obtain ⟨-,rfl⟩ := h
      exact ⟨⟨fun _ => id,fun _ => id,fun hne => absurd happ hne,fun _ => id⟩,rfl,hne,⟨r,hr⟩,hvalid⟩
    · simp only [Option.ite_none_right_eq_some, Option.some.injEq] at h
      obtain ⟨happ,rfl⟩ := h
      exact ⟨.refl s,happ,hne,⟨r,hr⟩,hvalid⟩
  | bindExecution x =>
    simp only [State.next] at h
    split at h
    swap
    · cases h
    rename_i hvalid
    split at h
    · rename_i hnone
      simp only [Option.ite_none_right_eq_some, Option.some.injEq] at h
      obtain ⟨-,rfl⟩ := h
      exact ⟨⟨fun _ => id,fun _ => id,fun _ => rfl,by simp [hnone]⟩,rfl,hvalid⟩
    · rename_i old hold
      simp only [Option.ite_none_right_eq_some, Option.some.injEq] at h
      obtain ⟨rfl,rfl⟩ := h
      exact ⟨.refl s,hold,hvalid⟩
  | _ =>
    obtain rfl := Option.some.inj h
    exact ⟨.refl s,trivial⟩

theorem State.Holds.mono (h : s.Holds L c) (hle : s.Le s') : s'.Holds L c := by
  cases c with
  | journalAdmit a =>
    obtain ⟨hvalid,old,hold,heq⟩ := h
    exact ⟨hvalid,old,hle.admission old hold,heq⟩
  | saveReceipt r =>
    obtain ⟨hr,a,ha,hvalid⟩ := h
    exact ⟨hle.receipt r hr,a,hle.admission a ha,hvalid⟩
  | acknowledge org request application =>
    obtain ⟨rfl,hne,⟨r,hr⟩,hvalid⟩ := h
    exact ⟨hle.application hne,hne,⟨r,hle.receipt r hr⟩,hvalid⟩
  | bindExecution x =>
    obtain ⟨hx,hvalid⟩ := h
    obtain ⟨a,r,ha,hr,-⟩ := (validateExecution_valid L hvalid).evidence
    have happ : s'.application = s.application := by
      refine hle.application fun happ => ?_
      obtain ⟨v,hv,-⟩ := (validateExecution_valid L hvalid).applied
      rw [happ] at hv
      cases hv
    refine ⟨hle.execution x hx,?_⟩
    unfold validateExecution at hvalid ⊢
    rw [hle.admission a ha, hle.receipt r hr, happ]
    rw [ha, hr] at hvalid
    exact hvalid
  | _ => trivial

theorem State.Holds.other (h : s.Holds L c) (hslot : c.sameSlot d) (hne : ¬ c.sameContent d) :
    s.next L d = none := by
  cases hd : s.next L d with
  | none => rfl
  | some s' =>
    obtain ⟨hle,hholds⟩ := next_holds hd
    have hboth := h.mono hle
    refine absurd ?_ hne
    cases c <;> cases d <;> first | exact hslot.elim | skip
    case journalAdmit.journalAdmit a b =>
      obtain ⟨-,old,hold,ha⟩ := hboth
      obtain ⟨-,old',hold',hb⟩ := hholds
      obtain rfl := Option.some.inj (hold.symm.trans hold')
      exact congrArg (fun x : Admission => { x with admittedAt := a.admittedAt })
        (ha.symm.trans hb)
    case saveReceipt.saveReceipt r t => exact Option.some.inj (hboth.1.symm.trans hholds.1)
    case acknowledge.acknowledge => exact hboth.1.symm.trans hholds.1
    case bindExecution.bindExecution => exact Option.some.inj (hboth.1.symm.trans hholds.1)
    case load.load => trivial

theorem State.Holds.same (h : s.Holds L c) (hslot : c.sameSlot d) (hsame : c.sameContent d)
    (htimed : d.timed) : s.Holds L d := by
  cases c <;> cases d <;> first | exact hslot.elim | skip
  case journalAdmit.journalAdmit a b =>
    obtain ⟨hvalid,old,hold,heq⟩ := h
    have ha : a = { b with admittedAt := a.admittedAt } := hsame
    refine ⟨?_,old,hold,?_⟩
    · rw [ha] at hvalid
      simp only [Admission.validate, Bool.and_eq_true] at hvalid ⊢
      exact ⟨⟨hvalid.1.1,htimed⟩,hvalid.2⟩
    · rw [ha] at heq
      exact heq
  case saveReceipt.saveReceipt r t => exact (show r = t from hsame) ▸ h
  case acknowledge.acknowledge org request x org' request' y =>
    obtain ⟨rfl,rfl⟩ := hslot
    exact (show x = y from hsame) ▸ h
  case bindExecution.bindExecution x y => exact (show x = y from hsame) ▸ h
  case load.load => trivial

end Next

/-- The files are those of one entry for each request. -/
def Entries (k : Contents) : Prop := ∀ p, ∃ s, Files L k p s

section Steps
variable {L} {k k' : Contents} {p : Pair} {s s' : State} {reply : (o : Op) → World → Answer o}

theorem Files.congr (h : Files L k p s) (hk : ∀ kind, k' (p.path L kind) = k (p.path L kind)) :
    Files L k' p s :=
  ⟨h.consistent,fun kind => (hk kind).trans (h.files kind),h.size⟩

theorem Computes.run {α : Type} {q : Action α} {b : Bool} {r r' : Except Err α} {w w' : World}
    (h : Computes reply q b w.contents r k') (hl : w.locked = b)
    (he : q.run.exec (World.serve reply) w = some (r',w')) :
    r' = r ∧ w'.locked = b ∧ w'.contents = k' := by
  obtain ⟨t,ht,hlt,hct⟩ := h w hl rfl
  rw [ht, Option.some.injEq, Prod.mk.injEq] at he
  obtain ⟨rfl,rfl⟩ := he
  exact ⟨rfl,hlt,hct⟩

theorem Files.unique (h : Files L k p s) (h' : Files L k p s') : s = s' := by
  let w : World := { directory := fun name => (k name).map fun raw => ⟨raw,true⟩ }
  have hw : w.contents = k := by
    funext name
    cases hname : k name <;> simp [w, World.contents, hname]
  obtain ⟨t,ht,-,-⟩ := h.load silent w rfl hw
  obtain ⟨t',ht',-,-⟩ := h'.load silent w rfl hw
  rw [ht] at ht'
  simp only [Option.some.injEq, Prod.mk.injEq, Except.ok.injEq] at ht'
  exact ht'.1

theorem refused (k : Contents) (reply : (o : Op) → World → Answer o) {c : Call} (hc : c.journal)
    (hp : ∀ p, ¬ c.about p) : c = .probe ∨ (∃ limit, c = .pendingReceipts limit) ∨
      Computes reply (c.body L) false k (.error .integrity) k := by
  have hpair {org request : Bytes} (h : ∀ p : Pair, ¬ (org = p.org ∧ request = p.request)) :
      ¬ (validReference org = true ∧ validReference request = true) :=
    fun hv => h ⟨org,request,hv.1,hv.2⟩ ⟨rfl,rfl⟩
  have hload {org request : Bytes} (h : ∀ p : Pair, ¬ (org = p.org ∧ request = p.request))
      (b : Bool) : Computes reply (Approval.loadState L org request) b k (.error .integrity) k := by
    refine .fails ?_
    rw [if_neg (by simpa using hpair h)]
    exact .throw _
  cases c with
  | probe => exact .inl rfl
  | pendingReceipts limit => exact .inr (.inl ⟨limit,rfl⟩)
  | journalAdmit a =>
    refine .inr (.inr (.fails (.locked (.fails ?_))))
    have hvalid : ¬ a.validate = true := fun hv =>
      have ha := Admission.validate_valid hv
      hpair hp ⟨ha.orgID,ha.requestID⟩
    rw [if_neg hvalid]
    exact .throw _
  | saveReceipt r => exact .inr (.inr (.fails (.locked (.fails (hload hp true)))))
  | acknowledge org request application =>
    exact .inr (.inr (.fails (.locked (.fails (hload hp true)))))
  | bindExecution x => exact .inr (.inr (.fails (.locked (.fails (hload hp true)))))
  | load org request => exact .inr (.inr (.fails (.locked (hload hp true))))
  | authorize i => exact hc.elim

theorem contents_kept {c : Call} (hc : ∀ name, ¬ c.creates L name) {w w' : World}
    {r : Except Err Outcome} (he : (c.run L).exec (World.serve reply) w = some (r,w')) :
    w'.contents = w.contents := by
  have hinv : (keepingDiscipline w fun _ => False).inv w := fun _ _ => rfl
  have hmeets := (keepingFrame w fun _ => False).body L hinv c fun name h => (hc name h).elim
  have hserve : ∀ {o : Op} {s : World} {r : Answer o} {t : World},
      World.serve reply o s = some (r,t) → World.Performs o s r t := serve_performs
  unfold Safe at hmeets
  obtain ⟨-,hkept⟩ := Prog.Meets.exec (fun s => Directory.Grows.refl _) hserve
    (fun hi hp hs => keeping_keeps hi hp hs) hmeets hinv he
  funext name
  exact hkept name id

theorem exec_locked {α : Type} {q : Action α} {w w' : World} {r : Except Err α}
    (he : (Approval.locked q).run.exec (World.serve reply) w = some (r,w')) :
    w'.locked = false := by
  have hrun : (Approval.locked q).run = (Prog.perform Op.lock >>= fun _ => q.run >>= fun r =>
    Prog.perform Op.unlock >>= fun _ => Pure.pure r : Prog Op Answer (Except Err α)) := rfl
  rw [hrun, Prog.exec_bind] at he
  obtain ⟨lock,-,he⟩ := Option.bind_eq_some_iff.mp he
  rw [Prog.exec_bind] at he
  obtain ⟨mid,-,he⟩ := Option.bind_eq_some_iff.mp he
  simp only [Prog.exec_bind, Prog.perform, Prog.exec, World.serve, Option.bind_some] at he
  cases he
  rfl

theorem exec_pendingReceipts {limit : Int} {w w' : World} {r : Except Err Outcome}
    (he : ((Call.pendingReceipts limit).run L).exec (World.serve reply) w = some (r,w')) :
    w'.locked = false := by
  have hrun : (Call.pendingReceipts limit).run L = (Approval.pendingReceipts L limit >>= fun r =>
    pure (.pending r.1 r.2) : Action Outcome).run := rfl
  rw [hrun, ExceptT.run_bind, Prog.exec_bind] at he
  obtain ⟨⟨out,mid⟩,hmid,he⟩ := Option.bind_eq_some_iff.mp he
  have hunlocked := exec_locked hmid
  cases out <;> cases he <;> exact hunlocked

/-- What a call leaves, wherever the files are those of entries. -/
structure Leaves (L : Libraries) (c : Call) (r : Except Err Outcome) (w w' : World) : Prop where
  unlocked : w'.locked = false
  other : ∀ p s, ¬ c.about p → Files L w.contents p s → Files L w'.contents p s
  own : ∀ p s, c.about p → Files L w.contents p s →
    (∃ e, r = .error e) ∧ s.next L c = none ∧ w'.contents = w.contents ∨
    ∃ o s', r = .ok o ∧ o.tells s c ∧ s.next L c = some s' ∧ Files L w'.contents p s' ∧
      (s' = s → w'.contents = w.contents)

theorem exec_leaves (hsha : Function.Injective L.sha256) {c : Call} (hc : c.journal)
    (htext : c.text) {w w' : World} {r : Except Err Outcome} (hl : w.locked = false)
    (hk : Entries L w.contents)
    (he : (c.run L).exec (World.serve reply) w = some (r,w')) : Leaves L c r w w' := by
  rcases Classical.em (∃ p, c.about p) with ⟨p,hp⟩ | hp
  · obtain ⟨s,hs⟩ := hk p
    have habout {q : Pair} (hq : c.about q) : q = p := by
      cases c <;> first | exact hq.elim | (cases p; cases q; simp_all [Call.about])
    have hreal := hs.realizes hp htext reply
    unfold Realizes at hreal
    cases hnext : s.next L c with
    | none =>
      rw [hnext] at hreal
      obtain ⟨e,hcomp⟩ := hreal
      obtain ⟨rfl,hlw,hcw⟩ := hcomp.run hl he
      refine ⟨hlw,fun q t _ ht => hcw ▸ ht,fun q t hq ht => .inl ?_⟩
      obtain rfl := habout hq
      obtain rfl := hs.unique ht
      exact ⟨⟨e,rfl⟩,hnext,hcw⟩
    | some s' =>
      rw [hnext] at hreal
      obtain ⟨o,k',hcomp,htells,hfiles,hsame,hframe⟩ := hreal
      obtain ⟨rfl,hlw,rfl⟩ := hcomp.run hl he
      refine ⟨hlw,fun q t hq ht => ht.congr fun kind => hframe _ fun kind' heq => ?_,
        fun q t hq ht => .inr ?_⟩
      · exact hq (Pair.path_injective L hsha heq ▸ hp)
      · obtain rfl := habout hq
        obtain rfl := hs.unique ht
        exact ⟨o,s',rfl,htells,hnext,hfiles,hsame⟩
  · replace hp : ∀ p, ¬ c.about p := fun p h => hp ⟨p,h⟩
    have hsame : w'.locked = false ∧ w'.contents = w.contents := by
      rcases refused w.contents reply hc hp with rfl | ⟨limit,rfl⟩ | hcomp
      · refine ⟨?_,contents_kept (c := .probe) (fun _ h => h) he⟩
        cases he
        exact hl
      · exact ⟨exec_pendingReceipts he,contents_kept (c := .pendingReceipts limit) (fun _ h => h) he⟩
      · exact (hcomp.run hl he).2
    exact ⟨hsame.1,fun q t _ ht => hsame.2 ▸ ht,fun q t hq => absurd hq (hp q)⟩

/-- The records that a state rests on, as the files `k` hold them. -/
structure Dependent (L : Libraries) (k : Contents) (org request : Bytes) (state : State) :
    Prop where
  receipt : ∀ r, state.receipt = some r → ∃ a v, state.admission = some a ∧
    a.orgID = org ∧ a.requestID = request ∧ r.orgID = org ∧ r.requestID = request ∧
    r.authorizationHash = a.authorizationHash ∧ parseReceipt L r.bytes = some v ∧
    L.ed25519Verify r.publicKey (decisionDomain ++ v.envelopeBytes) v.signature = true
  application : state.application ≠ [] → ∃ r raw ack, state.receipt = some r ∧
    k (path L org request .ack) = some raw ∧ decodeAcknowledgement raw = some ack ∧
    ack.application = state.application ∧ ack.receiptHash = digest L r.bytes
  execution : ∀ x, state.execution = some x → ∃ a r v u, state.admission = some a ∧
    state.receipt = some r ∧ parseDecisionApplication L state.application = some v ∧
    str v "disposition" = ascii "APPLIED" ∧ parseReceipt L r.bytes = some u ∧
    str u.envelope "decision" = ascii "APPROVED" ∧ x.authorizationHash = a.authorizationHash

theorem Files.dependent (h : Files L k p s) : Dependent L k p.org p.request s := by
  refine ⟨?_,?_,?_⟩
  · intro r hr
    obtain ⟨a,ha,hvalid⟩ := h.consistent.receipt r hr
    have hadm := h.consistent.admission a ha
    have hv := validateReceipt_valid L hvalid
    obtain ⟨v,hverified,-⟩ := hv.verified
    exact ⟨a,v,ha,hadm.org,hadm.request,hv.orgID.trans hadm.org,hv.requestID.trans hadm.request,
      hv.authorizationHash,hverified.parsed,hverified.signed⟩
  · intro happ
    obtain ⟨⟨r,hr⟩,-⟩ := h.consistent.application happ
    have hfile : s.file L p .ack = some (acknowledgementSchema.marshal
        ⟨1,p.org,p.request,digest L r.bytes,s.application⟩) := by
      simp [State.file, happ, hr]
    refine ⟨r,_,_,hr,(h.files .ack).trans hfile,decodeAcknowledgement_marshal rfl p.validOrg
      p.validRequest (hash_valid L _),rfl,rfl⟩
  · intro x hx
    have hvalid := validateExecution_valid L (h.consistent.execution x hx)
    obtain ⟨a,r,ha,hr,-,-,hhash,u,hu,hdecision⟩ := hvalid.evidence
    obtain ⟨v,hv,hdisposition⟩ := hvalid.applied
    exact ⟨a,r,v,u,ha,hr,hv,hdisposition,hu,hdecision,hhash⟩

theorem files_empty (p : Pair) : Files L (fun _ => none) p {} := by
  refine ⟨⟨by simp,by simp,by simp,by simp⟩,?_,?_⟩
  · intro kind
    cases kind <;> rfl
  · intro kind raw hfile
    cases kind <;> cases hfile

/-- Along a sequence of calls the files are those of entries, and every call that succeeded
is recorded in the entry of its request. -/
structure Recording (L : Libraries) (h : List (Call × Except Err Outcome)) (w : World) :
    Prop where
  unlocked : w.locked = false
  entries : Entries L w.contents
  recorded : ∀ c o, (c,.ok o) ∈ h → ∀ p s, c.about p → Files L w.contents p s → s.Holds L c
  known : ∀ c o, (c,.ok o) ∈ h →
    (∃ p, c.about p) ∨ c = .probe ∨ ∃ limit, c = .pendingReceipts limit

theorem Leaves.le {c : Call} {r : Except Err Outcome} {w w' : World} (h : Leaves L c r w w')
    (hs : Files L w.contents p s) : ∃ s', Files L w'.contents p s' ∧ s.Le s' := by
  by_cases hp : c.about p
  · rcases h.own p s hp hs with ⟨-,-,hk⟩ | ⟨o,s',-,-,hnext,hfiles,-⟩
    · exact ⟨s,hk ▸ hs,.refl s⟩
    · exact ⟨s',hfiles,(next_holds hnext).1⟩
  · exact ⟨s,h.other p s hp hs,.refl s⟩

theorem After.recording (hsha : Function.Injective L.sha256)
    {h : List (Call × Except Err Outcome)} {w : World} (hw : After L h w) : Recording L h w := by
  induction hw with
  | start => exact ⟨rfl,fun p => ⟨{},files_empty p⟩,by simp,by simp⟩
  | @call h w w' d r reply _ hd htext he ih =>
    have hleaves := exec_leaves hsha hd htext ih.unlocked ih.entries he
    refine ⟨hleaves.unlocked,?_,?_,?_⟩
    · intro p
      obtain ⟨s,hs⟩ := ih.entries p
      obtain ⟨s',hs',-⟩ := hleaves.le hs
      exact ⟨s',hs'⟩
    · intro c o hmem p t hp ht
      obtain ⟨s,hs⟩ := ih.entries p
      rcases List.mem_append.mp hmem with hold | hnew
      · obtain ⟨s',hs',hle⟩ := hleaves.le hs
        obtain rfl := hs'.unique ht
        exact (ih.recorded c o hold p s hp hs).mono hle
      · simp only [List.mem_singleton, Prod.mk.injEq] at hnew
        obtain ⟨rfl,rfl⟩ := hnew
        rcases hleaves.own p s hp hs with ⟨⟨e,herr⟩,-⟩ | ⟨o',s',-,-,hnext,hfiles,-⟩
        · cases herr
        · obtain rfl := hfiles.unique ht
          exact (next_holds hnext).2
    · intro c o hmem
      rcases List.mem_append.mp hmem with hold | hnew
      · exact ih.known c o hold
      · simp only [List.mem_singleton, Prod.mk.injEq] at hnew
        obtain ⟨rfl,rfl⟩ := hnew
        by_cases hp : ∃ p, c.about p
        · exact .inl hp
        · rcases refused w.contents reply hd fun p h => hp ⟨p,h⟩ with hc | hc | hcomp
          · exact .inr (.inl hc)
          · exact .inr (.inr hc)
          · cases (hcomp.run ih.unlocked he).1

theorem untimed_next {c : Call} (h : ¬ c.timed) : s.next L c = none := by
  cases c with
  | journalAdmit a =>
    have hvalid : ¬ a.validate = true := fun hv => h (Admission.validate_valid hv).admittedAt
    simp only [State.next, if_neg hvalid]
  | _ => exact absurd trivial h

theorem State.Holds.again {c d : Call} (h : s.Holds L c) (hslot : c.sameSlot d) :
    s.next L d = none ∨ s.next L d = some s := by
  by_cases hsame : c.sameContent d
  · by_cases htimed : d.timed
    · exact .inr (h.same hslot hsame htimed).next
    · exact .inl (untimed_next htimed)
  · exact .inl (h.other hslot hsame)

end Steps

theorem Call.sameSlot.about {c d : Call} {p : Pair} (h : c.sameSlot d) (hp : c.about p) :
    d.about p := by
  cases c <;> cases d <;> first | exact h.elim | exact ⟨h.1.symm.trans hp.1,h.2.symm.trans hp.2⟩

/-- The journal on a file system that works. Loading succeeds and each record rests on the one
before it; a call that succeeded is confirmed when it is made again and refused with another
content; and no call changes what another request has. -/
theorem journal_dependence (hsha : Function.Injective L.sha256)
    {h : List (Call × Except Err Outcome)} {w : World} (hw : After L h w) :
    (∀ org request, validReference org = true → validReference request = true → ∀ reply,
      ∃ state w', ((Call.load org request).run L).exec (World.serve reply) w =
        some (.ok (.loaded state),w') ∧ Dependent L w.contents org request state) ∧
    (∀ (c : Call) (o : Outcome) (c' : Call), (c,.ok o) ∈ h → c.sameSlot c' → c'.text → ∀ reply,
      ∃ r w', (c'.run L).exec (World.serve reply) w = some (r,w') ∧ w'.contents = w.contents ∧
        (c.sameContent c' → c'.timed → ∃ o', r = .ok o') ∧
        (¬ c.sameContent c' → ∃ e, r = .error e)) ∧
    ∀ (c : Call) r w' reply, c.journal → c.text → (c.run L).exec (World.serve reply) w = some (r,w') →
      ∀ p : Pair, ¬ c.about p → ∀ reply', ∃ state w₁ w₂,
        ((Call.load p.org p.request).run L).exec (World.serve reply') w =
          some (.ok (.loaded state),w₁) ∧
        ((Call.load p.org p.request).run L).exec (World.serve reply') w' =
          some (.ok (.loaded state),w₂) := by
  obtain ⟨hunlocked,hentries,hrecorded,hknown⟩ := hw.recording hsha
  have hload {w : World} {p : Pair} {s : State} (hl : w.locked = false)
      (hs : Files L w.contents p s) (reply : (o : Op) → World → Answer o) :
      ∃ w', ((Call.load p.org p.request).run L).exec (World.serve reply) w =
        some (.ok (.loaded s),w') := by
    have hcomp : Computes reply ((Call.load p.org p.request).body L) false w.contents
        (.ok (.loaded s)) w.contents := .bind (hs.load reply) (.pure _)
    obtain ⟨w',hexec,-⟩ := hcomp w hl rfl
    exact ⟨w',hexec⟩
  refine ⟨?_,?_,?_⟩
  · intro org request horg hrequest reply
    obtain ⟨s,hs⟩ := hentries ⟨org,request,horg,hrequest⟩
    obtain ⟨w',hexec⟩ := hload hunlocked hs reply
    exact ⟨s,w',hexec,hs.dependent⟩
  · intro c o c' hmem hslot htext reply
    obtain ⟨p,hp⟩ : ∃ p, c.about p := by
      rcases hknown c o hmem with hp | rfl | ⟨limit,rfl⟩
      · exact hp
      · exact hslot.elim
      · exact hslot.elim
    obtain ⟨s,hs⟩ := hentries p
    have hholds := hrecorded c o hmem p s hp hs
    have hreal := hs.realizes (hslot.about hp) htext reply
    unfold Realizes at hreal
    rcases hholds.again hslot with hnext | hnext
    · rw [hnext] at hreal
      obtain ⟨e,hcomp⟩ := hreal
      obtain ⟨w',hexec,-,hk⟩ := hcomp w hunlocked rfl
      refine ⟨_,w',hexec,hk,fun hsame htimed => ?_,fun _ => ⟨e,rfl⟩⟩
      have := (hholds.same hslot hsame htimed).next
      rw [hnext] at this
      cases this
    · rw [hnext] at hreal
      obtain ⟨o',k',hcomp,-,-,hkept,-⟩ := hreal
      obtain ⟨w',hexec,-,hk⟩ := hcomp w hunlocked rfl
      refine ⟨_,w',hexec,hk.trans (hkept rfl),fun _ _ => ⟨o',rfl⟩,fun hne => ?_⟩
      have := hholds.other hslot hne
      rw [hnext] at this
      cases this
  · intro c r w' reply hc htext hexec p hp reply'
    have hleaves := exec_leaves hsha hc htext hunlocked hentries hexec
    obtain ⟨s,hs⟩ := hentries p
    obtain ⟨w₁,hw₁⟩ := hload hunlocked hs reply'
    obtain ⟨w₂,hw₂⟩ := hload hleaves.unlocked (hleaves.other p s hp hs) reply'
    exact ⟨s,w₁,w₂,hw₁,hw₂⟩

/-- The calls all succeed, one after another, on a file system that works. -/
def succeed : List Call → World → Option World
  | [], w => some w
  | c :: cs, w =>
    match (c.run L).exec (World.serve silent) w with
    | some (.ok .done,t) => succeed cs t
    | _ => none

theorem succeed_cons {c : Call} {cs : List Call} {w w' : World}
    (h : succeed L (c :: cs) w = some w') : ∃ t,
      (c.run L).exec (World.serve silent) w = some (.ok .done,t) ∧ succeed L cs t = some w' := by
  rw [succeed] at h
  split at h
  · exact ⟨_,‹_›,h⟩
  · cases h

/-- An automatic admission. -/
def automatic (authorizationHash : Bytes) : Admission where
  version := 1
  orgID := ascii "acme"
  requestID := ascii "r-1"
  authorizationHash := authorizationHash
  mode := autoApproveMode
  admittedAt := ascii "2026-10-19T10:00:00.000Z"

def firstHash : Bytes := ascii "21c6f5721e5e32205f00dd09aa392f015909b766f666ceb1d70e8d21797c18d8"

def otherHash : Bytes := ascii "122f04a2ecd1e17c0959bd556b255bf9ea5f6a9f6b7ba96e24ecc8e9f4da628d"

/-- SHA-256 at the one record key. -/
def automaticLibraries : Libraries :=
  { Libraries.inert with
    sha256 := tabled [(ascii "acme" ++ 0 :: ascii "r-1",Strings.bigEndian 32
      0x83b55551adbba8a4746123acdcafa1ce12246b13ef11271a55e590fe981d9d94)] }

theorem automatic_hash_ne : firstHash ≠ otherHash := by decide +kernel

/-- An admission is made, and another one for the same request is then refused. -/
theorem journal_dependence_automatic :
    ∃ w, After automaticLibraries [(.journalAdmit (automatic firstHash),.ok .done)] w ∧
    ∃ r w', ((Call.journalAdmit (automatic otherHash)).run automaticLibraries).exec
        (World.serve silent) w = some (r,w') ∧
      w'.contents = w.contents ∧ ∃ e, r = .error e := by
  have htext (hash : Bytes) : (Call.journalAdmit (automatic hash)).text := fun _ h => by cases h
  have hsha : Function.Injective automaticLibraries.sha256 :=
    tabled_injective (by decide +kernel) (by decide +kernel)
  have hmade : (succeed automaticLibraries [.journalAdmit (automatic firstHash)]
      { directory := fun _ => none }).isSome = true := by
    decide +kernel
  obtain ⟨_,hmade⟩ := Option.isSome_iff_exists.mp hmade
  obtain ⟨w,hexec,-⟩ := succeed_cons automaticLibraries hmade
  have hafter : After automaticLibraries [(.journalAdmit (automatic firstHash),.ok .done)] w :=
    .call .start trivial (htext firstHash) hexec
  obtain ⟨-,hrepeat,-⟩ := journal_dependence automaticLibraries hsha hafter
  have hslot : (Call.journalAdmit (automatic firstHash)).sameSlot
      (.journalAdmit (automatic otherHash)) := by
    simp [Call.sameSlot, automatic]
  obtain ⟨r,w',hr,hkept,-,hrefused⟩ := hrepeat _ .done _ List.mem_cons_self hslot (htext otherHash)
    silent
  refine ⟨w,hafter,r,w',hr,hkept,hrefused fun hsame => ?_⟩
  exact automatic_hash_ne (congrArg Admission.authorizationHash hsame)

end CoSigner.Approval
