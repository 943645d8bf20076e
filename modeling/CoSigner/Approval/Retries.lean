import CoSigner.Approval.Capacity
import Mathlib.Data.List.Perm.Subperm
import Mathlib.Data.List.Induction

/-! How long a saved receipt can wait for its turn, and how many are sent in one. -/
namespace CoSigner.Approval
open Json Contract
variable {L : Libraries}

namespace Dispatcher

/-- Steps one after the other, each with its history. -/
inductive Steps (L : Libraries) : Dispatcher → List History → Dispatcher → Prop
  | nil (d : Dispatcher) : Steps L d [] d
  | cons {d d₁ d' : Dispatcher} {e : Option Err} {h : History} {hs : List History}
      (hstep : (step L d).Ends h (d₁,e)) (hrest : Steps L d₁ hs d') : Steps L d (h :: hs) d'

/-- The context was live whenever it was asked. -/
def Live (h : History) : Prop := ∀ err : Err, ⟨.contextErr,some err⟩ ∉ h

/-- The counter stays below its largest number over these steps. -/
def CounterLasts (d : Dispatcher) (hs : List History) : Prop :=
  d.sequence.toNat + putOffs hs.flatten + 1 < UInt64.size

/-- How many entries of saved receipts were made before this one. -/
def rank (d : Dispatcher) (e : Entry) : Nat :=
  (d.backoff.filter fun e' => e'.1.savedReceipt && decide (e'.2.sequence < e.2.sequence)).length

/-- The receipt was sent; or its entry is gone; or it could not be loaded and its entry was made
anew. -/
def Settled (L : Libraries) (e : Entry) (h : History) (d : Dispatcher) : Prop :=
  Attempted e.1 h ∨ d.find e.1 = none ∨
    LoadFailed L e.1 h ∧ ∃ s, d.find e.1 = some s ∧ e.2.sequence < s.sequence

theorem mem_earlier {d : Dispatcher} {e e' : Entry} :
    e' ∈ d.backoff.filter (fun e' => e'.1.savedReceipt && decide (e'.2.sequence < e.2.sequence)) ↔
      e' ∈ d.backoff ∧ e'.1.savedReceipt = true ∧ e'.2.sequence < e.2.sequence := by
  simp [List.mem_filter]

theorem Tabled.nodup {d : Dispatcher} (h : d.Tabled) : d.backoff.Nodup := h.keys.of_map _

theorem KeepsAll.earlier_mem {d d' : Dispatcher} {ts : List Touch} (hk : d.KeepsAll ts d')
    {e e' : Entry} (he : e.2.sequence ≤ d.sequence)
    (hmem : e' ∈ d'.backoff.filter fun e' =>
      e'.1.savedReceipt && decide (e'.2.sequence < e.2.sequence)) :
    (e' ∈ d.backoff.filter fun e' =>
      e'.1.savedReceipt && decide (e'.2.sequence < e.2.sequence)) ∧ ∀ t ∈ ts, t.key ≠ e'.1 := by
  obtain ⟨hmem,hsaved,hlt⟩ := mem_earlier.mp hmem
  obtain ⟨hold,huntouched⟩ := hk.old e' hmem (UInt64.le_trans (UInt64.le_of_lt hlt) he)
  exact ⟨mem_earlier.mpr ⟨hold,hsaved,hlt⟩,huntouched⟩

theorem KeepsAll.rank_le {d d' : Dispatcher} {ts : List Touch} (hk : d.KeepsAll ts d')
    (hd' : d'.Tabled) {e : Entry} (he : e.2.sequence ≤ d.sequence) : d'.rank e ≤ d.rank e :=
  (List.subperm_of_subset (hd'.nodup.filter _)
    fun _ hmem => (hk.earlier_mem he hmem).1).length_le

theorem KeepsAll.rank_lt {d d' : Dispatcher} {ts : List Touch} (hk : d.KeepsAll ts d')
    (hd' : d'.Tabled) {e e' : Entry} (he : e.2.sequence ≤ d.sequence) (he' : e' ∈ d.backoff)
    (hsaved : e'.1.savedReceipt = true) (hlt : e'.2.sequence < e.2.sequence) {t : Touch}
    (ht : t ∈ ts) (hkey : t.key = e'.1) : d'.rank e < d.rank e := by
  have hgone : e' ∉ d'.backoff.filter fun e' =>
      e'.1.savedReceipt && decide (e'.2.sequence < e.2.sequence) :=
    fun hmem => (hk.earlier_mem he hmem).2 t ht hkey
  have hnodup := List.nodup_cons.mpr ⟨hgone,hd'.nodup.filter _⟩
  refine (List.subperm_of_subset hnodup ?_).length_le
  intro x hx
  cases List.mem_cons.mp hx with
  | inl heq => exact heq ▸ mem_earlier.mpr ⟨he',hsaved,hlt⟩
  | inr hx => exact (hk.earlier_mem he hx).1

theorem settled_of_touched {d d' : Dispatcher} (hd : d.Tabled) (hd' : d'.Tabled) {h : History}
    {ts : List Touch} (hk : d.KeepsAll ts d') (hj : ∀ t ∈ ts, Justified L h t) {e : Entry}
    (he : e ∈ d.backoff) (hsaved : e.1.savedReceipt = true)
    (htouch : ∃ t ∈ ts, t.key = e.1) : Settled L e h d' := by
  cases hfind : d'.find e.1 with
  | none => exact .inr (.inl hfind)
  | some s =>
    have hmem := hd'.find_some.mp hfind
    cases hk.new _ hmem with
    | inl hold =>
      obtain ⟨t,ht,hkey⟩ := htouch
      exact absurd hkey ((hk.old _ hmem (hd.counted _ hold)).2 t ht)
    | inr hnew =>
      obtain ⟨hlt,now,delay,hsuppress⟩ := hnew
      cases hj _ hsuppress hsaved with
      | inl hsent => exact .inl hsent
      | inr hfailed =>
        exact .inr (.inr ⟨hfailed,s,hfind,UInt64.lt_of_le_of_lt (hd.counted e he) hlt⟩)

/-- A step settles a waiting entry or leaves it as it is, with no more entries before it; and
with one less where it was the saved receipts' turn. -/
theorem step_progress {d d' : Dispatcher} (hd : d.Tabled) {t : Time} {e : Entry}
    (he : e ∈ d.backoff) (hw : Waiting t e) {err : Option Err} {h : History}
    (hrun : (step L d).Ends h (d',err)) (hlive : Live h) (hlater : Later t h)
    (hcount : d.sequence.toNat + putOffs h + 1 < UInt64.size) :
    d'.Tabled ∧ d'.sequence.toNat ≤ d.sequence.toNat + putOffs h ∧
      d'.recoveryTurn = !d.recoveryTurn ∧
      (Settled L e h d' ∨ e ∈ d'.backoff ∧ d'.rank e ≤ d.rank e ∧
        (d.recoveryTurn = false → d'.rank e < d.rank e)) := by
  obtain ⟨ctx,h',rfl,hctx⟩ := Prog.ends_perform.mp hrun
  cases ctx with
  | some err => exact absurd List.mem_cons_self (hlive err)
  | none =>
    have hlater' : Later t h' := fun now hmem => hlater now (List.mem_cons_of_mem _ hmem)
    obtain ⟨ts,hdoes,hserves⟩ := step_does hd.toMapped hrun hlater'
    have hdelays := hdoes.delays
    have hroom : d.turned.sequence.toNat + suppressions ts < UInt64.size :=
      Nat.lt_of_le_of_lt (Nat.add_le_add_left hdelays _) (Nat.lt_of_succ_lt hcount)
    have hturned : d.turned.Tabled := hd.other rfl (UInt64.le_refl _)
    have hd' := hdoes.evolves.tabled hturned hroom
    have hk : d.KeepsAll ts d' :=
      have hkeeps := hdoes.evolves.keepsAll hturned hroom
      ⟨hkeeps.counts,hkeeps.saved,hkeeps.old,hkeeps.new⟩
    refine ⟨hd',?_,hdoes.turn,?_⟩
    · rw [hdoes.evolves.sequence hroom]
      exact Nat.add_le_add_left hdelays _
    · by_cases htouch : ∃ t ∈ ts, t.key = e.1
      · exact .inl (settled_of_touched hd hd' hk hdoes.justified he hw.saved htouch)
      · refine .inr ⟨hk.saved e he hw.saved fun t ht hkey => htouch ⟨t,ht,hkey⟩,
          hk.rank_le hd' (hd.counted e he),?_⟩
        intro hturn
        obtain ⟨e',he',hsaved,hle,touch,hmem,hkey⟩ :=
          hserves hturn e he hw (hd.numbered (by omega) he)
        refine hk.rank_lt hd' (hd.counted e he) he' hsaved ?_ hmem hkey
        refine UInt64.lt_of_le_of_ne hle fun heq => htouch ⟨touch,hmem,?_⟩
        rw [hkey, List.inj_on_of_nodup_map hd.sequences he' he heq]

/-- The history of some step in which the entry is settled, not too late. -/
def SettlesWithin (L : Libraries) (n : Nat) (d : Dispatcher) (hs : List History) (e : Entry) :
    Prop :=
  ∃ hs₁ h hs₂ d₁ d₂ err, hs = hs₁ ++ h :: hs₂ ∧ hs₁.length < n ∧ Steps L d hs₁ d₁ ∧
    (step L d₁).Ends h (d₂,err) ∧ Settled L e h d₂

theorem SettlesWithin.cons {n : Nat} {d d₁ : Dispatcher} {h : History} {hs : List History}
    {e : Entry} {err : Option Err} (hstep : (step L d).Ends h (d₁,err))
    (hrest : SettlesWithin L n d₁ hs e) : SettlesWithin L (n + 1) d (h :: hs) e := by
  obtain ⟨hs₁,h',hs₂,d₂,d₃,err',rfl,hlen,hsteps,hlast,hsettled⟩ := hrest
  refine ⟨h :: hs₁,h',hs₂,d₂,d₃,err',rfl,?_,.cons hstep hsteps,hlast,hsettled⟩
  rw [List.length_cons]
  omega

theorem Settled.within {d d₁ : Dispatcher} {h : History} {hs : List History} {e : Entry}
    {err : Option Err} (hstep : (step L d).Ends h (d₁,err)) (hsettled : Settled L e h d₁) (n : Nat) :
    SettlesWithin L (n + 1) d (h :: hs) e :=
  ⟨[],h,hs,d,d₁,err,rfl,Nat.succ_pos n,.nil d,hstep,hsettled⟩

theorem two_steps {t : Time} {e : Entry} (hw : Waiting t e) {d d' : Dispatcher} (hd : d.Tabled)
    (he : e ∈ d.backoff) {h₁ h₂ : History} {hs : List History}
    (hsteps : Steps L d (h₁ :: h₂ :: hs) d') (hlive : ∀ h ∈ h₁ :: h₂ :: hs, Live h)
    (hlater : ∀ h ∈ h₁ :: h₂ :: hs, Later t h) (hcount : CounterLasts d (h₁ :: h₂ :: hs)) :
    SettlesWithin L 2 d (h₁ :: h₂ :: hs) e ∨ ∃ d₁ d₂ err₁ err₂,
      (step L d).Ends h₁ (d₁,err₁) ∧ (step L d₁).Ends h₂ (d₂,err₂) ∧ Steps L d₂ hs d' ∧
        d₂.Tabled ∧ CounterLasts d₂ hs ∧ e ∈ d₂.backoff ∧ d₂.rank e < d.rank e := by
  simp only [CounterLasts, List.flatten_cons, putOffs_append] at hcount ⊢
  obtain ⟨hlive₁,hlive₂,-⟩ := List.forall_mem_cons.mp hlive |>.imp id List.forall_mem_cons.mp
  obtain ⟨hlater₁,hlater₂,-⟩ := List.forall_mem_cons.mp hlater |>.imp id List.forall_mem_cons.mp
  cases hsteps with
  | @cons _ d₁ _ err₁ _ _ hstep₁ hrest =>
    cases hrest with
    | @cons _ d₂ _ err₂ _ _ hstep₂ hrest =>
      obtain ⟨hd₁,hseq₁,hturn₁,hprogress₁⟩ :=
        step_progress hd he hw hstep₁ hlive₁ hlater₁ (by omega)
      cases hprogress₁ with
      | inl hsettled => exact .inl (hsettled.within hstep₁ 1)
      | inr hwaits =>
        obtain ⟨he₁,hle₁,hlt₁⟩ := hwaits
        obtain ⟨hd₂,hseq₂,-,hprogress₂⟩ :=
          step_progress hd₁ he₁ hw hstep₂ hlive₂ hlater₂ (by omega)
        cases hprogress₂ with
        | inl hsettled => exact .inl (.cons hstep₁ (hsettled.within hstep₂ 0))
        | inr hwaits =>
          obtain ⟨he₂,hle₂,hlt₂⟩ := hwaits
          refine .inr ⟨d₁,d₂,err₁,err₂,hstep₁,hstep₂,hrest,hd₂,by omega,he₂,?_⟩
          cases hturn : d.recoveryTurn with
          | false => exact Nat.lt_of_le_of_lt hle₂ (hlt₁ hturn)
          | true => exact Nat.lt_of_lt_of_le (hlt₂ (by rw [hturn₁, hturn]; rfl)) hle₁

theorem settles_within {t : Time} {e : Entry} (hw : Waiting t e) (m : Nat) {d d' : Dispatcher}
    (hd : d.Tabled) (he : e ∈ d.backoff) (hrank : d.rank e ≤ m) {hs : List History}
    (hsteps : Steps L d hs d') (hlen : 2 * (m + 1) ≤ hs.length) (hlive : ∀ h ∈ hs, Live h)
    (hlater : ∀ h ∈ hs, Later t h) (hcount : CounterLasts d hs) :
    SettlesWithin L (2 * (m + 1)) d hs e := by
  induction m generalizing d hs with
  | zero =>
    match hs, hlen with
    | h₁ :: h₂ :: hs, _ =>
      cases two_steps hw hd he hsteps hlive hlater hcount with
      | inl hsettles => exact hsettles
      | inr hwaits =>
        obtain ⟨_,_,_,_,_,_,_,_,_,_,hlt⟩ := hwaits
        omega
  | succ m ih =>
    match hs, hlen with
    | h₁ :: h₂ :: hs, hlen =>
      cases two_steps hw hd he hsteps hlive hlater hcount with
      | inl hsettles =>
        obtain ⟨hs₁,h,hs₂,d₁,d₂,err,heq,hlt,hrest⟩ := hsettles
        exact ⟨hs₁,h,hs₂,d₁,d₂,err,heq,by omega,hrest⟩
      | inr hwaits =>
        obtain ⟨d₁,d₂,err₁,err₂,hstep₁,hstep₂,hrest,hd₂,hcount₂,he₂,hlt⟩ := hwaits
        simp only [List.length_cons] at hlen
        have hsettles := ih hd₂ he₂ (by omega) hrest (by omega)
          (fun h hmem => hlive h (List.mem_cons_of_mem _ (List.mem_cons_of_mem _ hmem)))
          (fun h hmem => hlater h (List.mem_cons_of_mem _ (List.mem_cons_of_mem _ hmem))) hcount₂
        exact .cons hstep₁ (.cons hstep₂ hsettles)

/-! One delivery each time saved receipts are recovered. -/

def isSend (e : CoSigner.Event Op Answer) : Bool :=
  match e.1 with
  | .send _ _ _ => true
  | _ => false

def Unsent (h : History) : Prop := ∀ e ∈ h, isSend e = false

/-- A receipt is sent only where none was sent before. -/
def SendsOnce : Op → History → Prop
  | .send _ _ _, h => Unsent h
  | _, _ => True

abbrev sending : Discipline Op Answer History := Prog.tracing (fun _ _ => True) SendsOnce

/-- Calls that send nothing. -/
def Silent : Op → Prop
  | .send _ _ _ => False
  | _ => True

theorem Silent.sendsOnce {o : Op} (h : Silent o) (t : History) : SendsOnce o t := by
  cases o with
  | send orgID requestID body => exact h.elim
  | _ => trivial

theorem Silent.isSend {e : CoSigner.Event Op Answer} (h : Silent e.1) : isSend e = false := by
  obtain ⟨o,r⟩ := e
  cases o with
  | send orgID requestID body => exact h.elim
  | _ => rfl

theorem Silent.file {names : Bytes → Prop} {o : Op} (h : FileCall names o) : Silent o := by
  cases o with
  | send orgID requestID body => exact h
  | _ => trivial

theorem silent_meets {α : Type} {p : DispatchProg α} (hp : p.Only Silent) {h : History}
    (hh : Unsent h) : p.Meets sending (fun _ t => Unsent t) h := by
  refine (hp.meets_extends (fun _ t ho => ho.sendsOnce t) h).mono ?_
  rintro a _ _ ⟨h',rfl,hh'⟩ e he
  cases List.mem_append.mp he with
  | inl he => exact hh e he
  | inr he => exact (hh' e he).isSend

theorem due_silent (d : Dispatcher) (key : SuppressionKey) : (d.due key).Only Silent := by
  unfold due
  split
  · trivial
  · exact Prog.only_bind (Prog.only_perform trivial) fun _ => trivial

theorem suppress_silent (d : Dispatcher) (key : SuppressionKey) :
    (d.suppress key).Only Silent := by
  rw [suppress_eq]
  refine Prog.only_bind (Prog.only_perform trivial) fun _ => ?_
  exact Prog.only_bind (Prog.only_perform trivial) fun _ => trivial

theorem dueHint_silent (d : Dispatcher) (es : List Entry) (best : Option Entry) :
    (d.dueHint es best).Only Silent := by
  induction es generalizing best with
  | nil => trivial
  | cons e es ih =>
    unfold dueHint
    split
    · refine Prog.only_bind (due_silent d e.1) fun due => ?_
      split
      · exact ih _
      · exact ih best
    · exact ih best

theorem load_silent (org request : Bytes) : (load L org request).run.Only Silent :=
  (load_only org request : (load L org request).Only (FileCall fun _ => False)).mono
    fun _ => Silent.file

theorem deliver_once {d : Dispatcher} {r : SavedReceipt} {h : History} (hh : Unsent h) :
    (deliver L d r).Meets sending (fun _ _ => True) h := by
  refine Prog.meets_perform hh ?_
  intro (answer : Except Err Bytes) _
  refine Prog.Only.meets ?_ (fun _ t (ho : Silent _) => ho.sendsOnce t) _
  cases answer with
  | error e => exact Prog.only_bind (suppress_silent d _) fun _ => trivial
  | ok application =>
    have hack : (acknowledge L r.orgID r.requestID application).Only (FileCall fun _ => True) :=
      acknowledge_only r.orgID r.requestID application trivial
    refine Prog.only_bind (hack.mono fun _ => Silent.file) ?_
    intro acknowledged
    cases acknowledged with
    | error e => exact Prog.only_bind (suppress_silent d _) fun _ => trivial
    | ok _ =>
      simp only
      split
      · trivial
      · split <;> trivial

theorem retrySavedHint_once {d : Dispatcher} {h : History} (hh : Unsent h) :
    (retrySavedHint L d).Meets sending (fun r t => r.2.1 = false → Unsent t) h := by
  refine Prog.meets_bind ((silent_meets (dueHint_silent d _ _) hh).mono ?_)
  intro hint t _ ht
  cases hint with
  | none => exact Prog.meets_pure fun _ => ht
  | some b =>
    obtain ⟨key,s⟩ := b
    refine Prog.meets_bind ((silent_meets (load_silent key.orgID key.requestID) ht).mono ?_)
    intro loaded u _ hu
    cases loaded with
    | error e =>
      exact Prog.meets_bind ((silent_meets (suppress_silent d key) hu).mono
        fun _ v _ hv => Prog.meets_pure fun _ => hv)
    | ok state =>
      simp only
      split
      · exact Prog.meets_bind ((silent_meets (suppress_silent d key) hu).mono
          fun _ v _ hv => Prog.meets_pure fun _ => hv)
      · split
        · exact Prog.meets_bind ((deliver_once hu).mono
            fun _ v _ _ => Prog.meets_pure fun hfalse => by cases hfalse)
        · exact Prog.meets_pure fun _ => hu

theorem recoverScanned_once {d : Dispatcher} {h : History} (hh : Unsent h) :
    (recoverScanned L d).Meets sending (fun _ _ => True) h := by
  have hretried {result : Option Err} {t : History} (ht : Unsent t) :
      (retrySavedHint L d >>= fun x => pure (x.1,joinErrs result x.2.2) :
        DispatchProg (Dispatcher × Option Err)).Meets sending (fun _ _ => True) t :=
    Prog.meets_bind ((retrySavedHint_once ht).mono fun _ _ _ _ => Prog.meets_pure trivial)
  have hscan : (pendingReceipts L 50).Only (FileCall fun _ => False) := pendingReceipts_only 50
  refine Prog.meets_bind ((silent_meets (hscan.mono fun _ => Silent.file) hh).mono ?_)
  intro found t _ ht
  cases found with
  | error err => exact hretried ht
  | ok outcome =>
    obtain ⟨receipt,result⟩ := outcome
    cases receipt with
    | none => exact hretried ht
    | some r =>
      refine Prog.meets_bind ((silent_meets (due_silent d _) ht).mono ?_)
      intro due u _ hu
      cases due with
      | false => exact hretried hu
      | true => exact Prog.meets_bind ((deliver_once hu).mono fun _ _ _ _ => Prog.meets_pure trivial)

theorem recoverSaved_once (d : Dispatcher) :
    (recoverSaved L d).Meets sending (fun _ _ => True) [] := by
  have hnone : Unsent [] := by simp [Unsent]
  show Prog.Meets _ (if d.turned.recoveryTurn = true then _ else recoverScanned L d.turned) _ _
  split
  · refine Prog.meets_bind ((retrySavedHint_once hnone).mono ?_)
    intro outcome t _ ht
    obtain ⟨d₁,attempted,e⟩ := outcome
    show Prog.Meets _ (if (attempted || e.isSome) = true then _ else _) _ _
    split
    · exact Prog.meets_pure trivial
    · rename_i hnot
      simp only [Bool.or_eq_true, not_or, Bool.not_eq_true] at hnot
      exact recoverScanned_once (ht hnot.1)
  · exact recoverScanned_once hnone

theorem sends_once {h : History}
    (hpre : ∀ h₁ e h₂, h = h₁ ++ e :: h₂ → SendsOnce e.1 h₁) : (h.filter isSend).length ≤ 1 := by
  induction h using List.reverseRecOn with
  | nil => exact Nat.zero_le 1
  | append_singleton h e ih =>
    rw [List.filter_append, List.length_append]
    cases he : isSend e with
    | false =>
      have hrest := ih fun h₁ e' h₂ heq => hpre h₁ e' (h₂ ++ [e]) (by simp [heq])
      simpa [he] using hrest
    | true =>
      have hunsent : Unsent h := by
        have hlast := hpre h e [] rfl
        obtain ⟨o,r⟩ := e
        cases o with
        | send orgID requestID body => exact hlast
        | _ => cases he
      rw [List.filter_eq_nil_iff.mpr fun e' he' => by simp [hunsent e' he']]
      simp [he]

/-- Until the counter comes round, a saved receipt that is due waits for no more than two steps
for each one before it and for itself; and no recovery ever sends more than one. -/
theorem saved_receipts_served {t : Time} {e : Entry} (hw : Waiting t e) {d d' : Dispatcher}
    (hd : d.Tabled) (he : e ∈ d.backoff) {hs : List History} (hsteps : Steps L d hs d')
    (hlen : 2 * (d.rank e + 1) ≤ hs.length) (hlive : ∀ h ∈ hs, Live h)
    (hlater : ∀ h ∈ hs, Later t h) (hcount : CounterLasts d hs) :
    SettlesWithin L (2 * (d.rank e + 1)) d hs e ∧
      ∀ (d₁ : Dispatcher) h q, (recoverSaved L d₁).After h q → (h.filter isSend).length ≤ 1 := by
  refine ⟨settles_within hw _ hd he (Nat.le_refl _) hsteps hlen hlive hlater hcount,?_⟩
  intro d₁ h q hrun
  exact sends_once (((recoverSaved_once d₁).after hrun fun _ _ => trivial).2)

/-! Nothing works, and the saved receipt is put off once more. -/

def refusing : (o : Op) → Answer o
  | .check | .probe | .chmod | .closeFile | .publish _ _ | .syncDirectory
  | .openScan => some .integrity
  | .read _ | .createTemp | .readName | .pendingApprovals _ | .evaluate _ _ _ | .send _ _ _ =>
    .error .integrity
  | .write draft _ => (draft,0,some .integrity)
  | .syncFile draft => (draft,some .integrity)
  | .lock | .unlock | .closeScan | .autoApprove _ _ => ()
  | .now => (5 : Int)
  | .jitter _ => (1 : Int)
  | .contextErr => none

theorem refusing_run {d d' : Dispatcher} {t : History} {e : Option Err}
    (hplay : (step Libraries.inert d).play (fun o => some (refusing o)) = some (t,d',e)) :
    (step Libraries.inert d).Ends t (d',e) ∧ Live t ∧ Later 5 t := by
  obtain ⟨hends,hserved⟩ := Prog.ends_play hplay
  refine ⟨hends,?_,?_⟩
  · intro err hmem
    cases hserved _ hmem
  · intro now hmem
    obtain rfl : 5 = now := Option.some.inj (hserved _ hmem)
    exact Int.le_refl 5

/-- So many steps with these answers. -/
def refusingSteps (d : Dispatcher) : Nat → Option (List History × Dispatcher)
  | 0 => some ([],d)
  | n + 1 => ((step Libraries.inert d).play fun o => some (refusing o)).bind fun r =>
    (refusingSteps r.2.1 n).map fun rest => (r.1 :: rest.1,rest.2)

theorem refusingSteps_run {n : Nat} {d d' : Dispatcher} {hs : List History}
    (h : refusingSteps d n = some (hs,d')) :
    hs.length = n ∧ Steps Libraries.inert d hs d' ∧ (∀ h ∈ hs, Live h) ∧ ∀ h ∈ hs, Later 5 h := by
  induction n generalizing d hs with
  | zero =>
    obtain ⟨rfl,rfl⟩ := Prod.mk.inj (Option.some.inj h)
    exact ⟨rfl,.nil d,by simp,by simp⟩
  | succ n ih =>
    obtain ⟨⟨t,d₁,e⟩,hplay,hrest⟩ := Option.bind_eq_some_iff.mp h
    obtain ⟨⟨hs₁,d₂⟩,hsteps,heq⟩ := Option.map_eq_some_iff.mp hrest
    obtain ⟨rfl,rfl⟩ := Prod.mk.inj heq
    obtain ⟨hends,hlive,hlater⟩ := refusing_run hplay
    obtain ⟨hlen,hrun,hlives,hlaters⟩ := ih hsteps
    exact ⟨congrArg (· + 1) hlen,.cons hends hrun,List.forall_mem_cons.mpr ⟨hlive,hlives⟩,
      List.forall_mem_cons.mpr ⟨hlater,hlaters⟩⟩

theorem crowd_refused : ((refusingSteps (crowd true 2) 4).map fun r => putOffs r.1.flatten) =
    some 2 := by
  decide +kernel

/-- The second of two saved receipts waits for its turn. -/
theorem crowd_served : ∃ hs d', hs.length = 4 ∧ Steps Libraries.inert (crowd true 2) hs d' ∧
    (crowd true 2).rank (crowdEntry true 1) = 1 ∧
    SettlesWithin Libraries.inert 4 (crowd true 2) hs (crowdEntry true 1) := by
  obtain ⟨⟨hs,d'⟩,hplayed,hdelays⟩ := Option.map_eq_some_iff.mp crowd_refused
  obtain ⟨hlen,hsteps,hlive,hlater⟩ := refusingSteps_run hplayed
  obtain ⟨ts,hevolves,hcount⟩ := crowd_evolves true (n := 2) (by decide)
  have htabled : (crowd true 2).Tabled := by
    refine hevolves.tabled (new_tabled idle_new) ?_
    rw [hcount]
    decide
  have hwaiting : Waiting 5 (crowdEntry true 1) := ⟨rfl,by decide⟩
  have hrank : (crowd true 2).rank (crowdEntry true 1) = 1 := by decide
  have hlasts : CounterLasts (crowd true 2) hs := by
    rw [CounterLasts, hdelays]
    decide
  have hsettles := (saved_receipts_served hwaiting htabled (mem_crowd true (by decide)) hsteps
    (by rw [hrank, hlen]) hlive hlater hlasts).1
  rw [hrank] at hsettles
  exact ⟨hs,d',hlen,hsteps,hrank,hsettles⟩

/-! A saved receipt with the largest number is never found. -/

def lastEntry : Entry := (crowdKey true 0,⟨1,0,maxUint64⟩)

def last (turn : Bool) : Dispatcher :=
  { idle with
    backoff := [lastEntry]
    sequence := maxUint64
    recoveryTurn := turn }

theorem last_evolves : ∃ ts, idle.Evolves ts (last false) := by
  obtain ⟨n,hn⟩ : ∃ n, n = UInt64.size - 2 := ⟨_,rfl⟩
  obtain ⟨d,hevolves,hforget,-⟩ :=
    suppress_repeated (crowdKey_named false 0) n idle (.inr (by decide))
  have hnumber : idle.sequence + UInt64.ofNat n = maxUint64 - 1 := by
    rw [hn]
    decide
  have hlast : (d.forget (crowdKey false 0)).suppressed (crowdKey true 0) 0 0 = last false := by
    rw [hforget, hnumber]
    rfl
  have hnext : d.Evolves [.forget (crowdKey false 0),.suppress (crowdKey true 0) 0 0]
      (last false) := by
    refine .touch (crowdKey_named false 0) (.touch (crowdKey_named true 0) ?_)
    exact hlast ▸ .refl _
  exact ⟨_,hevolves.trans hnext⟩

theorem last_played (turn : Bool) : ∃ h e,
    (step Libraries.inert (last turn)).play (fun o => some (refusing o)) = some (h,last (!turn),e) ∧
      h.all (fun e => !isSend e) = true := by
  cases turn with
  | false => exact ⟨_,_,rfl,by decide⟩
  | true => exact ⟨_,_,rfl,by decide⟩

theorem last_unsettled {h : History} (hh : Unsent h) (turn : Bool) :
    ¬ Settled Libraries.inert lastEntry h (last turn) := by
  intro hsettled
  cases hsettled with
  | inl hsent =>
    obtain ⟨body,answer,hmem⟩ := hsent
    exact absurd (hh _ hmem) (by simp [isSend])
  | inr hrest =>
    have hfind : (last turn).find lastEntry.1 = some lastEntry.2 := by
      cases turn <;> decide
    rw [hfind] at hrest
    obtain hnone | ⟨-,s,hs,hlt⟩ := hrest
    · cases hnone
    · obtain rfl := Option.some.inj hs
      exact UInt64.lt_irrefl _ hlt

theorem last_waits (n : Nat) (turn : Bool) : ∃ hs d', hs.length = n ∧
    Steps Libraries.inert (last turn) hs d' ∧ (∀ h ∈ hs, Live h) ∧ (∀ h ∈ hs, Later 5 h) ∧
    ∀ m, ¬ SettlesWithin Libraries.inert m (last turn) hs lastEntry := by
  induction n generalizing turn with
  | zero =>
    refine ⟨[],_,rfl,.nil _,by simp,by simp,?_⟩
    rintro m ⟨hs₁,h,hs₂,_,_,_,heq,-⟩
    simp at heq
  | succ n ih =>
    obtain ⟨h,e,hplay,hunsent⟩ := last_played turn
    obtain ⟨hends,hlive,hlater⟩ := refusing_run hplay
    obtain ⟨hs,d',hlen,hsteps,hlives,hlaters,hwaits⟩ := ih !turn
    refine ⟨h :: hs,d',congrArg (· + 1) hlen,.cons hends hsteps,
      List.forall_mem_cons.mpr ⟨hlive,hlives⟩,List.forall_mem_cons.mpr ⟨hlater,hlaters⟩,?_⟩
    -- The first step leaves the entry as it is, and its history says where the next one begins.
    rintro m ⟨hs₁,h₁,hs₂,d₁,d₂,err,heq,hlt,hfirst,hlast,hsettled⟩
    cases hfirst with
    | nil =>
      obtain ⟨rfl,-⟩ := List.cons.inj heq
      obtain ⟨rfl,-⟩ := Prod.mk.inj (hends.unique hlast)
      exact last_unsettled (by simpa [Unsent] using hunsent) _ hsettled
    | cons hstep hrest =>
      obtain ⟨rfl,rfl⟩ := List.cons.inj heq
      obtain ⟨rfl,-⟩ := Prod.mk.inj (hends.unique hstep)
      exact hwaits m ⟨_,h₁,hs₂,d₁,d₂,err,rfl,Nat.lt_of_succ_lt hlt,hrest,hlast,hsettled⟩

/-- A receipt that waits is not always sent within two steps, nor within any number. -/
theorem last_receipt_starves : ∃ ts, idle.Evolves ts (last false) ∧
    lastEntry ∈ (last false).backoff ∧ Waiting 5 lastEntry ∧ (last false).rank lastEntry = 0 ∧
    ∀ n, ∃ hs d', hs.length = n ∧ Steps Libraries.inert (last false) hs d' ∧
      (∀ h ∈ hs, Live h) ∧ (∀ h ∈ hs, Later 5 h) ∧
      ∀ m, ¬ SettlesWithin Libraries.inert m (last false) hs lastEntry := by
  obtain ⟨ts,hevolves⟩ := last_evolves
  exact ⟨ts,hevolves,List.mem_cons_self,⟨rfl,by decide⟩,by decide,fun n => last_waits n false⟩

end Dispatcher
end CoSigner.Approval
