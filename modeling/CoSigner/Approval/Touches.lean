import CoSigner.Approval.Backoff
import CoSigner.Approval.Footprint

/-! Runs of a dispatcher's steps: what they do to the table of delays, and why. -/
namespace CoSigner.Approval
open Json Contract
variable {L : Libraries}

abbrev History := List (CoSigner.Event Op Answer)

/-! What the journal answers about a request. -/

theorem loadAdmission_yields (org request : Bytes) :
    (loadAdmission L org request).Yields fun admission => ∀ a, admission = some a →
      a.orgID = org ∧ a.requestID = request := by
  refine Attempt.yields_bind (Attempt.yields_any _) ?_
  intro found _
  cases found with
  | none => exact Attempt.yields_pure nofun
  | some a =>
    show Attempt.Yields (if _ then _ else _) _
    split
    · rename_i hnames
      refine Attempt.yields_pure ?_
      intro a' ha'
      obtain rfl := Option.some.inj ha'
      exact ⟨hnames.1,hnames.2.1⟩
    · exact Attempt.yields_throw _ _

theorem loadReceipt_yields (org request : Bytes) (admission : Option Admission) :
    (loadReceipt L org request admission).Yields fun receipt => ∀ r, receipt = some r →
      ∃ a, admission = some a ∧ r.orgID = a.orgID ∧ r.requestID = a.requestID := by
  refine Attempt.yields_bind (Attempt.yields_any _) ?_
  intro found _
  cases found with
  | none => exact Attempt.yields_pure nofun
  | some r =>
    cases admission with
    | none => exact Attempt.yields_throw _ _
    | some a =>
      dsimp only
      cases hvalid : validateReceipt L a r with
      | error e => exact Attempt.yields_throw _ _
      | ok _ =>
        refine Attempt.yields_pure ?_
        intro r' hr'
        obtain rfl := Option.some.inj hr'
        have hv := validateReceipt_valid L hvalid
        exact ⟨a,rfl,hv.orgID,hv.requestID⟩

/-- Both names of the request are references, and its receipt is one for this request. -/
structure Names (org request : Bytes) (state : State) : Prop where
  reference : validReference org = true
  receipt : ∀ r, state.receipt = some r → r.orgID = org ∧ r.requestID = request

theorem loadState_yields (org request : Bytes) :
    (loadState L org request).Yields (Names org request) := by
  refine Attempt.yields_bind (Attempt.yields_ensure _) ?_
  intro _ hrefs
  have horg : validReference org = true := by
    by_contra hno
    simp [hno] at hrefs
  refine Attempt.yields_bind (Attempt.yields_any _) ?_
  intro _ _
  refine Attempt.yields_bind (loadAdmission_yields org request) ?_
  intro admission hadmission
  refine Attempt.yields_bind (loadReceipt_yields org request admission) ?_
  intro receipt hreceipt
  refine Attempt.yields_bind (Attempt.yields_any _) ?_
  intro application _
  refine Attempt.yields_bind (Attempt.yields_any _) ?_
  intro execution _
  refine Attempt.yields_bind (Attempt.yields_any _) ?_
  intro _ _
  refine Attempt.yields_pure ⟨horg,?_⟩
  intro r hr
  obtain ⟨a,ha,ho,hq⟩ := hreceipt r hr
  obtain ⟨hao,har⟩ := hadmission a ha
  exact ⟨ho.trans hao,hq.trans har⟩

theorem locked_ends {α : Type} {p : Action α} {h : History} {r : Except Err α}
    (hrun : (locked p).run.Ends h r) : ∃ h', p.run.Ends h' r := by
  obtain ⟨-,t,-,ht⟩ := Prog.ends_perform.mp hrun
  obtain ⟨h',r',t',-,hp,ht'⟩ := Prog.ends_bind.mp ht
  obtain ⟨-,t'',-,hr⟩ := Prog.ends_perform.mp ht'
  obtain ⟨-,rfl⟩ := Prog.ends_ret.mp hr
  exact ⟨h',hp⟩

theorem load_ends {org request : Bytes} {h : History} {state : State}
    (hrun : (load L org request).run.Ends h (.ok state)) : Names org request state := by
  obtain ⟨h',hp⟩ := locked_ends hrun
  exact loadState_yields org request h' state hp

theorem noKey_ne_saved {org request : Bytes} : (⟨org,request,true⟩ : SuppressionKey) ≠ noKey := by
  simp [noKey]

theorem noKey_ne_reference {org : Bytes} (h : validReference org = true) (request : Bytes)
    (saved : Bool) : (⟨org,request,saved⟩ : SuppressionKey) ≠ noKey := by
  intro heq
  obtain ⟨rfl,-,-⟩ := SuppressionKey.mk.inj heq
  exact absurd h (by decide)

namespace Dispatcher

/-- The receipt of this key was sent. -/
def Attempted (key : SuppressionKey) (h : History) : Prop :=
  ∃ body answer, ⟨.send key.orgID key.requestID body,answer⟩ ∈ h

/-- The journal was asked for this key's records and had no receipt to give. -/
def LoadFailed (L : Libraries) (key : SuppressionKey) (h : History) : Prop :=
  ∃ h₁ h₂ h₃ r, h = h₁ ++ (h₂ ++ h₃) ∧ (load L key.orgID key.requestID).run.Ends h₂ r ∧
    ∀ state, r = .ok state → state.receipt = none

/-- Why the entry of a saved receipt is touched: it was sent; or it is put off because it could
not be loaded; or it is given up. -/
def Justified (L : Libraries) (h : History) (t : Touch) : Prop :=
  t.key.savedReceipt = true → Attempted t.key h ∨
    match t with
    | .suppress key _ _ => LoadFailed L key h
    | .forget _ => True

theorem Attempted.mono {key : SuppressionKey} {h : History} (ha : Attempted key h)
    (h₁ h₂ : History) : Attempted key (h₁ ++ (h ++ h₂)) := by
  obtain ⟨body,answer,hmem⟩ := ha
  exact ⟨body,answer,List.mem_append_right _ (List.mem_append_left _ hmem)⟩

theorem LoadFailed.mono {key : SuppressionKey} {h : History} (hl : LoadFailed L key h)
    (h₁ h₂ : History) : LoadFailed L key (h₁ ++ (h ++ h₂)) := by
  obtain ⟨t₁,t₂,t₃,r,rfl,hload,hr⟩ := hl
  exact ⟨h₁ ++ t₁,t₂,t₃ ++ h₂,r,by simp,hload,hr⟩

theorem Justified.mono {h : History} {t : Touch} (hj : Justified L h t) (h₁ h₂ : History) :
    Justified L (h₁ ++ (h ++ h₂)) t := by
  intro hsaved
  cases hj hsaved with
  | inl ha => exact .inl (ha.mono h₁ h₂)
  | inr hl =>
    cases t with
    | suppress key now delay => exact .inr (LoadFailed.mono hl h₁ h₂)
    | forget key => exact .inr trivial

def isDelay (e : CoSigner.Event Op Answer) : Bool :=
  match e.1 with
  | .jitter _ => true
  | _ => false

/-- The calls of `suppress` in a history: each of them draws a delay. -/
def putOffs (h : History) : Nat := h.countP isDelay

@[simp] theorem putOffs_append (h h' : History) : putOffs (h ++ h') = putOffs h + putOffs h' :=
  List.countP_append

/-- A run with this history leaves the second dispatcher behind. -/
structure Does (L : Libraries) (d : Dispatcher) (h : History) (ts : List Touch)
    (d' : Dispatcher) : Prop where
  evolves : d.Evolves ts d'
  justified : ∀ t ∈ ts, Justified L h t
  turn : d'.recoveryTurn = d.recoveryTurn
  delays : suppressions ts ≤ putOffs h

theorem Does.none (d : Dispatcher) (h : History) : Does L d h [] d :=
  ⟨.refl d,by simp,rfl,Nat.zero_le _⟩

theorem Does.within {d d' : Dispatcher} {h : History} {ts : List Touch} (hd : Does L d h ts d')
    (h₁ h₂ : History) : Does L d (h₁ ++ (h ++ h₂)) ts d' := by
  refine ⟨hd.evolves,fun t ht => (hd.justified t ht).mono h₁ h₂,hd.turn,?_⟩
  have hdelays := hd.delays
  simp only [putOffs_append]
  omega

theorem Does.after {d d' : Dispatcher} {h : History} {ts : List Touch} (hd : Does L d h ts d')
    (h₁ : History) : Does L d (h₁ ++ h) ts d' := by
  simpa using hd.within h₁ []

theorem Does.trans {d d₁ d₂ : Dispatcher} {h h' : History} {ts ts' : List Touch}
    (hd : Does L d h ts d₁) (hd' : Does L d₁ h' ts' d₂) : Does L d (h ++ h') (ts ++ ts') d₂ := by
  refine ⟨hd.evolves.trans hd'.evolves,?_,hd'.turn.trans hd.turn,?_⟩
  · intro t ht
    cases List.mem_append.mp ht with
    | inl ht => simpa using (hd.justified t ht).mono [] h'
    | inr ht => simpa using (hd'.justified t ht).mono h []
  · rw [suppressions_append, putOffs_append]
    exact Nat.add_le_add hd.delays hd'.delays

theorem Does.other {d d₁ d' : Dispatcher} {h : History} {ts : List Touch}
    (hd : Does L d h ts d₁) (hbackoff : d'.backoff = d₁.backoff)
    (hsequence : d'.sequence = d₁.sequence) (hturn : d'.recoveryTurn = d₁.recoveryTurn) :
    Does L d h ts d' := by
  have hend : d₁.Evolves [] d' := .other hbackoff hsequence (.refl d')
  refine ⟨?_,hd.justified,hturn.trans hd.turn,hd.delays⟩
  simpa using hd.evolves.trans hend

theorem suppressed_turn (d : Dispatcher) (key : SuppressionKey) (now : Time) (delay : Duration) :
    (d.suppressed key now delay).recoveryTurn = d.recoveryTurn := by
  unfold suppressed
  simp only
  split
  · split <;> rfl
  · rfl

theorem does_suppress {d d' : Dispatcher} {key : SuppressionKey} {h : History}
    (hkey : key ≠ noKey) (hrun : (d.suppress key).Ends h d') (h₀ : History)
    (hj : key.savedReceipt = true → Attempted key (h₀ ++ h) ∨ LoadFailed L key (h₀ ++ h)) :
    ∃ now delay, Does L d (h₀ ++ h) [.suppress key now delay] d' := by
  rw [suppress_eq] at hrun
  obtain ⟨now,t,rfl,ht⟩ := Prog.ends_perform.mp hrun
  obtain ⟨delay,t',rfl,ht'⟩ := Prog.ends_perform.mp ht
  obtain ⟨rfl,rfl⟩ := Prog.ends_ret.mp ht'
  refine ⟨now,delay,.touch hkey (.refl _),?_,suppressed_turn d key now delay,?_⟩
  · simpa [Justified, Touch.key] using hj
  · rw [putOffs_append]
    exact Nat.le_add_left 1 (putOffs h₀)

theorem does_forget (d : Dispatcher) {key : SuppressionKey} (hkey : key ≠ noKey) (h : History) :
    Does L d h [.forget key] (d.forget key) := by
  refine ⟨.touch hkey (.refl _),?_,rfl,Nat.zero_le _⟩
  simp [Justified]

theorem deliver_does {d d' : Dispatcher} {r : SavedReceipt} {h : History} {e : Option Err}
    (hrun : (deliver L d r).Ends h (d',e)) :
    Attempted ⟨r.orgID,r.requestID,true⟩ h ∧ ∃ ts, Does L d h ts d' ∧
      ∃ t ∈ ts, t.key = ⟨r.orgID,r.requestID,true⟩ := by
  obtain ⟨answer,t,rfl,ht⟩ := Prog.ends_perform.mp hrun
  have hsent : Attempted ⟨r.orgID,r.requestID,true⟩
      (⟨.send r.orgID r.requestID r.bytes,answer⟩ :: t) := ⟨r.bytes,answer,List.mem_cons_self⟩
  refine ⟨hsent,?_⟩
  cases answer with
  | error err =>
    obtain ⟨t₁,d₁,t₂,rfl,hsuppress,hret⟩ := Prog.ends_bind.mp ht
    obtain ⟨rfl,heq⟩ := Prog.ends_ret.mp hret
    obtain ⟨rfl,-⟩ := Prod.mk.inj heq
    rw [List.append_nil] at hsent ⊢
    obtain ⟨now,delay,hdoes⟩ := does_suppress (L := L) noKey_ne_saved hsuppress
      [⟨.send r.orgID r.requestID r.bytes,.error err⟩] fun _ => .inl hsent
    exact ⟨_,hdoes,_,List.mem_cons_self,rfl⟩
  | ok application =>
    obtain ⟨t₁,acknowledged,t₂,rfl,hack,hrest⟩ := Prog.ends_bind.mp ht
    cases acknowledged with
    | error err =>
      obtain ⟨t₃,d₁,t₄,rfl,hsuppress,hret⟩ := Prog.ends_bind.mp hrest
      obtain ⟨rfl,heq⟩ := Prog.ends_ret.mp hret
      obtain ⟨rfl,-⟩ := Prod.mk.inj heq
      rw [List.append_nil] at hsent ⊢
      obtain ⟨now,delay,hdoes⟩ := does_suppress (L := L) noKey_ne_saved hsuppress
        (⟨.send r.orgID r.requestID r.bytes,.ok application⟩ :: t₁) fun _ => .inl hsent
      exact ⟨_,hdoes,_,List.mem_cons_self,rfl⟩
    | ok _ =>
      have hd' : d' = d.forget ⟨r.orgID,r.requestID,true⟩ := by
        simp only at hrest
        split at hrest
        · exact ((Prod.mk.inj (Prog.ends_ret.mp hrest).2).1).symm
        · split at hrest
          · exact ((Prod.mk.inj (Prog.ends_ret.mp hrest).2).1).symm
          · exact ((Prod.mk.inj (Prog.ends_ret.mp hrest).2).1).symm
      rw [hd']
      exact ⟨_,does_forget d noKey_ne_saved _,_,List.mem_cons_self,rfl⟩

theorem does_returned {d d' : Dispatcher} {e e' : Option Err} {h : History}
    (hrun : (pure (d,e) : DispatchProg (Dispatcher × Option Err)).Ends h (d',e')) (h₀ : History) :
    ∃ ts, Does L d h₀ ts d' := by
  obtain ⟨-,heq⟩ := Prog.ends_ret.mp hrun
  obtain ⟨rfl,-⟩ := Prod.mk.inj heq
  exact ⟨[],.none d h₀⟩

theorem does_postponed {d d' : Dispatcher} {key : SuppressionKey} {e e' : Option Err}
    {h : History} (hkey : key ≠ noKey) (hfresh : key.savedReceipt = false)
    (hrun : (d.suppress key >>= fun d => pure (d,e) :
      DispatchProg (Dispatcher × Option Err)).Ends h (d',e')) : ∃ ts, Does L d h ts d' := by
  obtain ⟨t₁,d₁,t₂,rfl,hsuppress,hret⟩ := Prog.ends_bind.mp hrun
  obtain ⟨rfl,heq⟩ := Prog.ends_ret.mp hret
  obtain ⟨rfl,-⟩ := Prod.mk.inj heq
  obtain ⟨now,delay,hdoes⟩ := does_suppress (L := L) hkey hsuppress [] (by simp [hfresh])
  rw [List.append_nil]
  exact ⟨_,hdoes⟩

theorem conclude_does {d d' : Dispatcher} {a : Admission} {response : Object} {h : History}
    {e : Option Err} (ha : validReference a.orgID = true)
    (hrun : (conclude L d a response).Ends h (d',e)) : ∃ ts, Does L d h ts d' := by
  obtain ⟨now,t,rfl,ht⟩ := Prog.ends_perform.mp hrun
  cases hreceipt : d.receipt L a response now with
  | none =>
    rw [hreceipt] at ht
    exact does_returned ht _
  | some raw =>
    rw [hreceipt] at ht
    obtain ⟨t₁,saved,t₂,rfl,-,hrest⟩ := Prog.ends_bind.mp ht
    cases saved with
    | error err => exact does_returned hrest _
    | ok _ =>
      obtain ⟨-,ts,hdoes,-⟩ := deliver_does hrest
      have hfresh := does_forget (L := L) d (noKey_ne_reference ha a.requestID false)
        (⟨.now,now⟩ :: t₁)
      exact ⟨_,hfresh.trans hdoes⟩

theorem answered_does {d d' : Dispatcher} {orgID : Bytes} {item : PendingItem} {a : Admission}
    {answer : Except Err Object} {h : History} {e : Option Err}
    (horg : validReference orgID = true) (ha : a.orgID = orgID)
    (hrun : Prog.Ends (match answer with
      | .error e => (do
        let d ← d.suppress ⟨orgID,item.requestID,false⟩
        pure (d,some e) : DispatchProg (Dispatcher × Option Err))
      | .ok response =>
        if str response "status" = ascii "PENDING" then do
          let d ← d.suppress ⟨orgID,item.requestID,false⟩
          pure (d,none)
        else conclude L d a response) h (d',e)) : ∃ ts, Does L d h ts d' := by
  have hkey := noKey_ne_reference horg item.requestID false
  cases answer with
  | error err => exact does_postponed hkey rfl hrun
  | ok response =>
    replace hrun : Prog.Ends (if _ then _ else _) _ _ := hrun
    split at hrun
    · exact does_postponed hkey rfl hrun
    · exact conclude_does (ha ▸ horg) hrun

theorem evaluate_does {d d' : Dispatcher} {orgID : Bytes} {item : PendingItem} {h : History}
    {e : Option Err} (horg : validReference orgID = true)
    (hrun : (evaluate L d orgID item).Ends h (d',e)) : ∃ ts, Does L d h ts d' := by
  obtain ⟨now,t,rfl,ht⟩ := Prog.ends_perform.mp hrun
  obtain ⟨t₁,admitted,t₂,rfl,-,hadmitted⟩ := Prog.ends_bind.mp ht
  cases admitted with
  | error err => exact does_returned hadmitted _
  | ok _ =>
    simp only at hadmitted
    split at hadmitted
    · obtain ⟨answer,t₃,rfl,hanswer⟩ := Prog.ends_perform.mp hadmitted
      obtain ⟨ts,hdoes⟩ := answered_does horg rfl hanswer
      exact ⟨ts,(hdoes.after [⟨.evaluate d.cfg.endpoint orgID item,answer⟩]).after
        (⟨.now,now⟩ :: t₁)⟩
    · obtain ⟨_,t₃,rfl,happroved⟩ := Prog.ends_perform.mp hadmitted
      obtain ⟨ts,hdoes⟩ := conclude_does horg happroved
      exact ⟨ts,(hdoes.after [⟨.autoApprove orgID item.requestID,()⟩]).after (⟨.now,now⟩ :: t₁)⟩

theorem process_does {d d' : Dispatcher} {item : PendingItem} {h : History} {e : Option Err}
    (hrun : (process L d item).Ends h (d',e)) : ∃ ts, Does L d h ts d' := by
  unfold process at hrun
  split at hrun
  · exact does_returned hrun _
  · rename_i orgID _
    obtain ⟨t₁,loaded,t₂,rfl,hload,hloaded⟩ := Prog.ends_bind.mp hrun
    cases loaded with
    | error err => exact does_returned hloaded _
    | ok state =>
      have horg := (load_ends hload).reference
      replace hloaded : Prog.Ends (if _ then _ else _) _ _ := hloaded
      split at hloaded
      · exact does_returned hloaded _
      · split at hloaded
        · rename_i r _
          split at hloaded
          · obtain ⟨t₃,due,t₄,rfl,-,hdue⟩ := Prog.ends_bind.mp hloaded
            replace hdue : Prog.Ends (if due = true then _ else _) _ _ := hdue
            split at hdue
            · obtain ⟨-,ts,hdoes,-⟩ := deliver_does hdue
              refine ⟨ts,?_⟩
              simpa using hdoes.after (t₁ ++ t₃)
            · exact does_returned hdue _
          · exact does_returned hloaded _
        · split at hloaded
          · exact does_returned hloaded _
          · obtain ⟨t₃,due,t₄,rfl,-,hdue⟩ := Prog.ends_bind.mp hloaded
            replace hdue : Prog.Ends (if due = true then _ else _) _ _ := hdue
            split at hdue
            · obtain ⟨ts,hdoes⟩ := evaluate_does horg hdue
              refine ⟨ts,?_⟩
              simpa using hdoes.after (t₁ ++ t₃)
            · exact does_returned hdue _

theorem processItems_does {items : List PendingItem} {d d' : Dispatcher}
    {result result' : Option Err} {finished : Bool} {h : History}
    (hrun : (processItems L d result items).Ends h (d',result',finished)) :
    ∃ ts, Does L d h ts d' := by
  induction items generalizing d result h with
  | nil =>
    obtain ⟨-,heq⟩ := Prog.ends_ret.mp hrun
    obtain ⟨rfl,-⟩ := Prod.mk.inj heq
    exact ⟨[],.none d h⟩
  | cons item items ih =>
    obtain ⟨ctx,t,rfl,ht⟩ := Prog.ends_perform.mp hrun
    cases ctx with
    | some err =>
      obtain ⟨-,heq⟩ := Prog.ends_ret.mp ht
      obtain ⟨rfl,-⟩ := Prod.mk.inj heq
      exact ⟨[],.none d _⟩
    | none =>
      obtain ⟨t₁,⟨d₁,e₁⟩,t₂,rfl,hprocess,hitems⟩ := Prog.ends_bind.mp ht
      obtain ⟨ts₁,hdoes₁⟩ := process_does hprocess
      obtain ⟨ts₂,hdoes₂⟩ := ih hitems
      exact ⟨_,(hdoes₁.trans hdoes₂).after [⟨.contextErr,none⟩]⟩

/-- The clock does not go back behind `t`. -/
def Later (t : Time) (h : History) : Prop := ∀ now : Time, ⟨.now,now⟩ ∈ h → t ≤ now

theorem Later.left {t : Time} {h₁ h₂ : History} (h : Later t (h₁ ++ h₂)) : Later t h₁ :=
  fun now hmem => h now (List.mem_append_left _ hmem)

theorem Later.right {t : Time} {h₁ h₂ : History} (h : Later t (h₁ ++ h₂)) : Later t h₂ :=
  fun now hmem => h now (List.mem_append_right _ hmem)

/-- The receipt of this entry may be sent again. -/
structure Waiting (t : Time) (e : Entry) : Prop where
  saved : e.1.savedReceipt = true
  due : e.2.until_ ≤ t

theorem due_ends {d : Dispatcher} (hd : d.Mapped) {e : Entry} (he : e ∈ d.backoff) {h : History}
    {b : Bool} (hrun : (d.due e.1).Ends h b) {t : Time} (ht : Later t h) (hdue : e.2.until_ ≤ t) :
    b = true := by
  unfold due at hrun
  rw [hd.find_some.mpr he] at hrun
  obtain ⟨now,h',rfl,hret⟩ := Prog.ends_perform.mp hrun
  obtain ⟨-,rfl⟩ := Prog.ends_ret.mp hret
  exact decide_eq_true (Int.le_trans hdue (ht now List.mem_cons_self))

/-- What a walk over the entries finds: an entry of a saved receipt, and none that waits was made
before it. -/
structure Hinted (t : Time) (es : List Entry) (best r : Option Entry) : Prop where
  saved : ∀ b, r = some b → b.1.savedReceipt = true
  earliest : Earliest (Waiting t) es best r

theorem earlier_saved {best : Option Entry} {e : Entry}
    (hbest : ∀ b, best = some b → b.1.savedReceipt = true) (he : e.1.savedReceipt = true) :
    ∀ b, earlier best e = some b → b.1.savedReceipt = true := by
  intro b hb
  cases (earlier_spec best e).1 with
  | inl h => exact Option.some.inj (h.symm.trans hb) ▸ he
  | inr h => exact hbest b (h.symm.trans hb)

theorem dueHint_ends {d : Dispatcher} (hd : d.Mapped) {t : Time} {es : List Entry}
    (hes : ∀ e ∈ es, e ∈ d.backoff) {best r : Option Entry} {h : History}
    (hbest : ∀ b, best = some b → b.1.savedReceipt = true)
    (hrun : (d.dueHint es best).Ends h r) (ht : Later t h) : Hinted t es best r := by
  induction es generalizing best h with
  | nil =>
    obtain ⟨-,rfl⟩ := Prog.ends_ret.mp hrun
    exact ⟨hbest,earliest_nil _ best⟩
  | cons e es ih =>
    obtain ⟨he,hes⟩ := List.forall_mem_cons.mp hes
    unfold dueHint at hrun
    split at hrun
    · rename_i hsaved
      obtain ⟨t₁,due,t₂,rfl,hdue,hrest⟩ := Prog.ends_bind.mp hrun
      cases due with
      | true =>
        have hrest := ih hes (earlier_saved hbest hsaved) hrest ht.right
        exact ⟨hrest.saved,hrest.earliest.take⟩
      | false =>
        have hrest := ih hes hbest hrest ht.right
        refine ⟨hrest.saved,hrest.earliest.skip fun hw => ?_⟩
        exact absurd (due_ends hd he hdue ht.left hw.due) (by simp)
    · rename_i hfresh
      have hrest := ih hes hbest hrun ht
      exact ⟨hrest.saved,hrest.earliest.skip fun hw => hfresh hw.saved⟩

/-- Where an entry waits that does not have the largest number, an entry of a saved receipt not
made after it has been touched. -/
def Serves (t : Time) (d : Dispatcher) (ts : List Touch) : Prop :=
  ∀ e ∈ d.backoff, Waiting t e → e.2.sequence < maxUint64 →
    ∃ e' ∈ d.backoff, e'.1.savedReceipt = true ∧ e'.2.sequence ≤ e.2.sequence ∧
      ∃ t ∈ ts, t.key = e'.1

theorem Hinted.unserved {t : Time} {d : Dispatcher} (h : Hinted t d.backoff none none)
    (ts : List Touch) : Serves t d ts := by
  intro e he hw hlt
  exact absurd hlt (UInt64.not_lt.mpr (h.earliest.entries e he hw))

theorem Hinted.serves {t : Time} {d : Dispatcher} {b : Entry}
    (h : Hinted t d.backoff none (some b)) {ts : List Touch} (hts : ∃ t ∈ ts, t.key = b.1) :
    Serves t d ts := by
  intro e he hw _
  have hmem := (h.earliest.mem b rfl).resolve_right (by simp)
  exact ⟨b,hmem,h.saved b rfl,h.earliest.entries e he hw,hts⟩

theorem saved_ne_noKey {key : SuppressionKey} (h : key.savedReceipt = true) : key ≠ noKey := by
  intro heq
  rw [heq] at h
  cases h

theorem does_unloaded {d d' : Dispatcher} {key : SuppressionKey} {loaded : Except Err State}
    {attempted attempted' : Bool} {e e' : Option Err} {h₁ h : History}
    (hsaved : key.savedReceipt = true)
    (hload : (load L key.orgID key.requestID).run.Ends h₁ loaded)
    (hnone : ∀ state, loaded = .ok state → state.receipt = none)
    (hrun : (d.suppress key >>= fun d => pure (d,attempted,e) :
      DispatchProg (Dispatcher × Bool × Option Err)).Ends h (d',attempted',e')) :
    ∃ ts, Does L d (h₁ ++ h) ts d' ∧ ∃ t ∈ ts, t.key = key := by
  obtain ⟨t₁,d₁,t₂,rfl,hsuppress,hret⟩ := Prog.ends_bind.mp hrun
  obtain ⟨rfl,heq⟩ := Prog.ends_ret.mp hret
  obtain ⟨rfl,-⟩ := Prod.mk.inj heq
  rw [List.append_nil]
  obtain ⟨now,delay,hdoes⟩ := does_suppress (L := L) (saved_ne_noKey hsaved) hsuppress h₁
    fun _ => .inr ⟨[],h₁,t₁,loaded,rfl,hload,hnone⟩
  exact ⟨_,hdoes,_,List.mem_cons_self,rfl⟩

theorem retrySavedHint_does {d d' : Dispatcher} (hd : d.Mapped) {attempted : Bool}
    {e : Option Err} {h : History} (hrun : (retrySavedHint L d).Ends h (d',attempted,e)) {t : Time}
    (ht : Later t h) : ∃ ts, Does L d h ts d' ∧ Serves t d ts := by
  obtain ⟨t₁,hint,t₂,rfl,hhint,hrest⟩ := Prog.ends_bind.mp hrun
  have hhinted := dueHint_ends hd (fun _ he => he) (by simp) hhint ht.left
  cases hint with
  | none =>
    obtain ⟨-,heq⟩ := Prog.ends_ret.mp hrest
    obtain ⟨rfl,-⟩ := Prod.mk.inj heq
    exact ⟨[],.none d _,hhinted.unserved []⟩
  | some b =>
    have hsaved := hhinted.saved b rfl
    obtain ⟨key,s⟩ := b
    obtain ⟨t₃,loaded,t₄,rfl,hload,hloaded⟩ := Prog.ends_bind.mp hrest
    cases loaded with
    | error err =>
      obtain ⟨ts,hdoes,htouch⟩ := does_unloaded hsaved hload nofun hloaded
      exact ⟨ts,hdoes.after t₁,hhinted.serves htouch⟩
    | ok state =>
      cases hreceipt : state.receipt with
      | none =>
        simp only [hreceipt] at hloaded
        obtain ⟨ts,hdoes,htouch⟩ := does_unloaded hsaved hload
          (fun _ h => Except.ok.inj h ▸ hreceipt) hloaded
        exact ⟨ts,hdoes.after t₁,hhinted.serves htouch⟩
      | some r =>
        simp only [hreceipt] at hloaded
        split at hloaded
        · obtain ⟨t₅,⟨d₁,e₁⟩,t₆,rfl,hdeliver,hret⟩ := Prog.ends_bind.mp hloaded
          obtain ⟨rfl,heq⟩ := Prog.ends_ret.mp hret
          obtain ⟨rfl,-⟩ := Prod.mk.inj heq
          obtain ⟨-,ts,hdoes,htouch⟩ := deliver_does hdeliver
          obtain ⟨horg,hrequest⟩ := (load_ends hload).receipt r hreceipt
          rw [horg, hrequest, ← hsaved] at htouch
          rw [List.append_nil]
          exact ⟨ts,(hdoes.after t₃).after t₁,hhinted.serves htouch⟩
        · obtain ⟨-,heq⟩ := Prog.ends_ret.mp hloaded
          obtain ⟨rfl,-⟩ := Prod.mk.inj heq
          exact ⟨_,does_forget d (saved_ne_noKey hsaved) _,
            hhinted.serves ⟨_,List.mem_cons_self,rfl⟩⟩

theorem recoverScanned_does {d d' : Dispatcher} (hd : d.Mapped) {e : Option Err} {h : History}
    (hrun : (recoverScanned L d).Ends h (d',e)) {t : Time} (ht : Later t h) :
    ∃ ts, Does L d h ts d' := by
  obtain ⟨t₁,found,t₂,rfl,-,hfound⟩ := Prog.ends_bind.mp hrun
  have hretried {result : Option Err} {t₃ : History} (hl : Later t t₃)
      (hretry : (retrySavedHint L d >>= fun x => pure (x.1,joinErrs result x.2.2) :
        DispatchProg (Dispatcher × Option Err)).Ends t₃ (d',e)) : ∃ ts, Does L d t₃ ts d' := by
    obtain ⟨t₄,⟨d₁,_,e₁⟩,t₅,rfl,hhint,hret⟩ := Prog.ends_bind.mp hretry
    obtain ⟨rfl,heq⟩ := Prog.ends_ret.mp hret
    obtain ⟨rfl,-⟩ := Prod.mk.inj heq
    obtain ⟨ts,hdoes,-⟩ := retrySavedHint_does hd hhint hl.left
    rw [List.append_nil]
    exact ⟨ts,hdoes⟩
  cases found with
  | error err =>
    obtain ⟨ts,hdoes⟩ := hretried ht.right hfound
    exact ⟨ts,hdoes.after t₁⟩
  | ok outcome =>
    obtain ⟨receipt,result⟩ := outcome
    cases receipt with
    | none =>
      obtain ⟨ts,hdoes⟩ := hretried ht.right hfound
      exact ⟨ts,hdoes.after t₁⟩
    | some r =>
      obtain ⟨t₃,due,t₄,rfl,-,hdue⟩ := Prog.ends_bind.mp hfound
      cases due with
      | false =>
        obtain ⟨ts,hdoes⟩ := hretried ht.right.right hdue
        exact ⟨ts,(hdoes.after t₃).after t₁⟩
      | true =>
        obtain ⟨t₅,⟨d₁,e₁⟩,t₆,rfl,hdeliver,hret⟩ := Prog.ends_bind.mp hdue
        obtain ⟨rfl,heq⟩ := Prog.ends_ret.mp hret
        obtain ⟨rfl,-⟩ := Prod.mk.inj heq
        obtain ⟨-,ts,hdoes,-⟩ := deliver_does hdeliver
        rw [List.append_nil]
        exact ⟨ts,(hdoes.after t₃).after t₁⟩

theorem Serves.append {t : Time} {d : Dispatcher} {ts : List Touch} (h : Serves t d ts)
    (ts' : List Touch) : Serves t d (ts ++ ts') := by
  intro e he hw hlt
  obtain ⟨e',he',hsaved,hle,touch,hmem,hkey⟩ := h e he hw hlt
  exact ⟨e',he',hsaved,hle,touch,List.mem_append_left _ hmem,hkey⟩

/-- The dispatcher whose turn has come. -/
def turned (d : Dispatcher) : Dispatcher := { d with recoveryTurn := !d.recoveryTurn }

theorem Mapped.turned {d : Dispatcher} (h : d.Mapped) : d.turned.Mapped := h.other rfl

theorem recoverSaved_does {d d' : Dispatcher} (hd : d.Mapped) {e : Option Err} {h : History}
    (hrun : (recoverSaved L d).Ends h (d',e)) {t : Time} (ht : Later t h) :
    ∃ ts, Does L d.turned h ts d' ∧ (d.recoveryTurn = false → Serves t d.turned ts) := by
  replace hrun : Prog.Ends (if d.turned.recoveryTurn = true then _ else recoverScanned L d.turned)
    _ _ := hrun
  split at hrun
  · obtain ⟨t₁,⟨d₁,attempted,e₁⟩,t₂,rfl,hretry,hrest⟩ := Prog.ends_bind.mp hrun
    obtain ⟨ts,hdoes,hserves⟩ := retrySavedHint_does hd.turned hretry ht.left
    replace hrest : Prog.Ends (if (attempted || e₁.isSome) = true then _ else _) _ _ := hrest
    split at hrest
    · obtain ⟨rfl,heq⟩ := Prog.ends_ret.mp hrest
      obtain ⟨rfl,-⟩ := Prod.mk.inj heq
      rw [List.append_nil]
      exact ⟨ts,hdoes,fun _ => hserves⟩
    · obtain ⟨ts',hdoes'⟩ := recoverScanned_does (hdoes.evolves.mapped hd.turned) hrest ht.right
      exact ⟨ts ++ ts',hdoes.trans hdoes',fun _ => hserves.append ts'⟩
  · rename_i hturn
    obtain ⟨ts,hdoes⟩ := recoverScanned_does hd.turned hrun ht
    refine ⟨ts,hdoes,fun hfalse => ?_⟩
    simp [Dispatcher.turned, hfalse] at hturn

theorem page_does {d d' : Dispatcher} {page : PendingPage} {result e : Option Err} {h : History}
    (hrun : Prog.Ends (match page.marshal with
      | none => (pure (d,joinErrs result (some .contract)) :
          DispatchProg (Dispatcher × Option Err))
      | some raw =>
        match parsePendingPage L raw with
        | none => pure (d,joinErrs result (some .contract))
        | some () =>
          if 50 < (page.items.getD []).length then pure (d,joinErrs result (some .integrity))
          else do
            let (d,result,finished) ← processItems L d result (page.items.getD [])
            let d := if finished then { d with cursor := page.nextCursor.getD [] } else d
            pure (d,result)) h (d',e)) : ∃ ts, Does L d h ts d' := by
  split at hrun
  · exact does_returned hrun _
  · split at hrun
    · exact does_returned hrun _
    · split at hrun
      · exact does_returned hrun _
      · obtain ⟨t₁,⟨d₁,e₁,finished⟩,t₂,rfl,hitems,hret⟩ := Prog.ends_bind.mp hrun
        obtain ⟨ts,hdoes⟩ := processItems_does hitems
        obtain ⟨rfl,heq⟩ := Prog.ends_ret.mp hret
        obtain ⟨rfl,-⟩ := Prod.mk.inj heq
        rw [List.append_nil]
        refine ⟨ts,hdoes.other ?_ ?_ ?_⟩
        · cases finished <;> rfl
        · cases finished <;> rfl
        · cases finished <;> rfl

/-- A step with a live context touches the table with a reason, and where it is the saved
receipts' turn it serves them. -/
theorem step_does {d d' : Dispatcher} (hd : d.Mapped) {e : Option Err} {h : History}
    (hrun : (step L d).Ends (⟨.contextErr,none⟩ :: h) (d',e)) {t : Time} (ht : Later t h) :
    ∃ ts, Does L d.turned (⟨.contextErr,none⟩ :: h) ts d' ∧
      (d.recoveryTurn = false → Serves t d.turned ts) := by
  obtain ⟨ctx,t₁,hhead,hctx⟩ := Prog.ends_perform.mp hrun
  obtain ⟨hfirst,rfl⟩ := List.cons.inj hhead
  cases hfirst
  obtain ⟨t₂,⟨d₁,result⟩,t₃,rfl,hrecover,hrest⟩ := Prog.ends_bind.mp hctx
  obtain ⟨ts,hdoes,hserves⟩ := recoverSaved_does hd hrecover ht.left
  obtain ⟨answer,t₄,rfl,hanswer⟩ := Prog.ends_perform.mp hrest
  cases answer with
  | error err =>
    obtain ⟨rfl,heq⟩ := Prog.ends_ret.mp hanswer
    obtain ⟨rfl,-⟩ := Prod.mk.inj heq
    have hdoes' := (hdoes.within [⟨.contextErr,none⟩] [⟨.pendingApprovals d₁.cursor,.error err⟩])
    refine ⟨ts,hdoes'.other ?_ ?_ ?_,hserves⟩
    · split <;> rfl
    · split <;> rfl
    · split <;> rfl
  | ok page =>
    obtain ⟨ts',hdoes'⟩ := page_does hanswer
    exact ⟨ts ++ ts',(hdoes.trans (hdoes'.after [⟨.pendingApprovals d₁.cursor,.ok page⟩])).after
      [⟨.contextErr,none⟩],fun hturn => (hserves hturn).append ts'⟩

theorem exists_later (h : History) : ∃ t, Later t h := by
  induction h with
  | nil => exact ⟨0,by simp [Later]⟩
  | cons e h ih =>
    obtain ⟨t,ht⟩ := ih
    by_cases he : ∃ now : Time, e = ⟨.now,now⟩
    · obtain ⟨now,rfl⟩ := he
      refine ⟨min t now,?_⟩
      intro now' hmem
      cases List.mem_cons.mp hmem with
      | inl heq =>
        cases heq
        exact Int.min_le_right t now
      | inr hmem => exact Int.le_trans (Int.min_le_left t now) (ht now' hmem)
    · refine ⟨t,?_⟩
      intro now' hmem
      cases List.mem_cons.mp hmem with
      | inl heq => exact absurd ⟨now',heq.symm⟩ he
      | inr hmem => exact ht now' hmem

theorem step_evolves {d d' : Dispatcher} (hd : d.Mapped) {e : Option Err} {h : History}
    (hrun : (step L d).Ends h (d',e)) : ∃ ts, d.Evolves ts d' ∧ suppressions ts ≤ putOffs h := by
  obtain ⟨ctx,t,rfl,hctx⟩ := Prog.ends_perform.mp hrun
  cases ctx with
  | some err =>
    obtain ⟨-,heq⟩ := Prog.ends_ret.mp hctx
    obtain ⟨rfl,-⟩ := Prod.mk.inj heq
    exact ⟨[],.refl d,Nat.zero_le _⟩
  | none =>
    obtain ⟨t₀,ht₀⟩ := exists_later t
    obtain ⟨ts,hdoes,-⟩ := step_does hd hrun ht₀
    refine ⟨ts,.other ?_ ?_ hdoes.evolves,hdoes.delays⟩
    · rfl
    · rfl

end Dispatcher
end CoSigner.Approval
