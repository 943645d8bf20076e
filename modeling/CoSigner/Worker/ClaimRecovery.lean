import CoSigner.Terminal.Publisher
import CoSigner.Worker.Validation

/-! The claim of an intent with its retries (`claimWithRecovery`): an attempt whose outcome is not
known is repeated, and from then on a refusal may be that of a claim the session holds itself. -/
namespace CoSigner.Worker
open Monolith

/-- `errors.Join(errClaimCleanup, err)`. -/
def needsCleanup (e : ClaimError) : ClaimError :=
  ⟨.cleanup :: e.is,ascii "claim delivery requires cleanup" ++ 0x0A :: e.text⟩

def contextClaimError : ContextError → ClaimError
  | .canceled => ⟨[.canceled],ascii "context canceled"⟩
  | .deadlineExceeded => ⟨[.deadlineExceeded],ascii "context deadline exceeded"⟩

inductive ClaimOp where
  | ctxErr
  | claimIntent (intentType intentID : Bytes)
  | notifyDispatch
  | pause
  deriving DecidableEq

def ClaimOp.Ans : ClaimOp → Type
  | .ctxErr | .pause => Option ContextError
  | .claimIntent _ _ => ClaimResult × Option ClaimError
  | .notifyDispatch => Unit

abbrev ClaimProg := Prog ClaimOp ClaimOp.Ans

abbrev ClaimEvent := Event ClaimOp ClaimOp.Ans

def claiming (o : ClaimOp) : ClaimProg o.Ans := .perform o

/-- The attempt may have reached the backend. -/
def dispatchedBy : Option ClaimError → Bool
  | none => true
  | some e => e.isA .outcomeUnknown || e.isA .deadlineExceeded || e.isA .signRejected

section
variable (L : Libraries) (intent : Intent)

/-- A rejected SIGN claim that is one of this intent. -/
def rejectionVerified (claim : ClaimResult) : Bool :=
  (claim.intent L).type == ascii "SIGN" && Strings.equalFold intent.type (ascii "SIGN") &&
    validateClaimIdentity intent (claim.intent L) claim .sign

/-- What the loop makes of an attempt's error before it decides. -/
def attemptError (claim : ClaimResult) (e : ClaimError) : ClaimError :=
  if e.isA .signRejected && !rejectionVerified L intent claim then
    ⟨[.outcomeUnknown],ascii "claim outcome unknown"⟩
  else e

/-- What `claimWithRecovery` returns after an attempt; nothing if it tries again. -/
def claimVerdict (uncertain : Bool) (claim : ClaimResult) (err : Option ClaimError) :
    Option (ClaimResult × Option ClaimError) :=
  match err.map (attemptError L intent claim) with
  | none => some (claim,none)
  | some e =>
    if e.isA .signRejected then some (claim,some e)
    else if e.isA .alreadyClaimed || e.isA .notFound then
      some (claim,some (if uncertain && e.isA .alreadyClaimed then needsCleanup e else e))
    else if !e.isA .outcomeUnknown && !e.isA .deadlineExceeded then
      some (claim,some (if uncertain then needsCleanup e else e))
    else none

/-- The end of a turn of the loop, and what follows it. -/
def concludeAttempt (uncertain : Bool) (claim : ClaimResult) (err : Option ClaimError)
    (next : ClaimProg (ClaimResult × Option ClaimError)) :
    ClaimProg (ClaimResult × Option ClaimError) :=
  match claimVerdict L intent uncertain claim err with
  | some r => pure r
  | none => do
    let ended : Option ContextError ← claiming .pause
    match ended with
    | some e => pure ({},some (contextClaimError e))
    | none => next

/-- The loop of `claimWithRecovery`, cut off after some turns. -/
def claimFrom : Nat → Bool → Bool → ClaimProg (ClaimResult × Option ClaimError)
  | 0, _, _ => .halt
  | turns + 1, first, uncertain => do
    let ended : Option ContextError ← claiming .ctxErr
    match ended with
    | some e => pure ({},some (contextClaimError e))
    | none => do
      let (claim,err) : ClaimResult × Option ClaimError ←
        claiming (.claimIntent intent.type intent.intentID)
      if first && dispatchedBy err then
        let _ : Unit ← claiming .notifyDispatch
      concludeAttempt L intent uncertain claim err (claimFrom turns false true)

def claimWithRecovery (turns : Nat) : ClaimProg (ClaimResult × Option ClaimError) :=
  claimFrom L intent turns true false

end

/-- The answers to the attempts so far. -/
def attemptAnswer : ClaimEvent → Option (ClaimResult × Option ClaimError)
  | ⟨.claimIntent _ _,answer⟩ => some answer
  | _ => none

section
variable {L : Libraries} {intent : Intent}

theorem needsCleanup_isA (e : ClaimError) : (needsCleanup e).isA .cleanup = true := by
  simp [needsCleanup, ClaimError.isA]

/-- An attempt after which the backend may have the claim. -/
def LeftOpen (L : Libraries) (intent : Intent) (answer : ClaimResult × Option ClaimError) : Prop :=
  ∃ e, answer.2 = some e ∧ (e.isA .outcomeUnknown = true ∨ e.isA .deadlineExceeded = true ∨
    e.isA .signRejected = true ∧ rejectionVerified L intent answer.1 = false)

theorem claimVerdict_none {u : Bool} {claim : ClaimResult} {err : Option ClaimError}
    (h : claimVerdict L intent u claim err = none) : LeftOpen L intent (claim,err) := by
  cases err with
  | none => cases h
  | some e =>
    refine ⟨e,rfl,?_⟩
    by_cases hrejected : (e.isA .signRejected && !rejectionVerified L intent claim) = true
    · exact .inr (.inr (by simpa using hrejected))
    · have hsame : attemptError L intent claim e = e := if_neg hrejected
      simp only [claimVerdict, Option.map_some, hsame] at h
      split at h
      · cases h
      · split at h
        · cases h
        · split at h
          · cases h
          · rename_i hknown
            by_cases hunknown : e.isA .outcomeUnknown = true
            · exact .inl hunknown
            · exact .inr (.inl (by simpa [hunknown] using hknown))

/-- What the loop returns after an attempt: the claim, a verified rejection, a refusal as it
came, or a refusal that asks for cleanup because an earlier attempt was left open. -/
theorem claimVerdict_some {u : Bool} {claim : ClaimResult} {err : Option ClaimError}
    {r : ClaimResult × Option ClaimError} (h : claimVerdict L intent u claim err = some r) :
    err = none ∧ r = (claim,none) ∨ ∃ e, err = some e ∧
      (r = (claim,some e) ∧ (e.isA .signRejected = true ∧ rejectionVerified L intent claim = true ∨
          e.isA .notFound = true ∨
          u = false ∧ (e.isA .alreadyClaimed = true ∨ ¬LeftOpen L intent (claim,some e))) ∨
        u = true ∧ r = (claim,some (needsCleanup e))) := by
  cases err with
  | none => exact .inl ⟨rfl,(Option.some.inj h).symm⟩
  | some e =>
    refine .inr ⟨e,rfl,?_⟩
    by_cases hunverified : (e.isA .signRejected && !rejectionVerified L intent claim) = true
    · have hopen : attemptError L intent claim e =
          ⟨[.outcomeUnknown],ascii "claim outcome unknown"⟩ := if_pos hunverified
      simp [claimVerdict, hopen, ClaimError.isA] at h
    · have hsame : attemptError L intent claim e = e := if_neg hunverified
      simp only [claimVerdict, Option.map_some, hsame] at h
      split at h
      · rename_i hrejected
        exact .inl ⟨(Option.some.inj h).symm,.inl ⟨hrejected,by simpa [hrejected] using hunverified⟩⟩
      · rename_i hrejected
        split at h
        · rename_i hrefused
          obtain rfl := Option.some.inj h
          by_cases hclaimed : e.isA .alreadyClaimed = true
          · cases u with
            | true => exact .inr ⟨rfl,by simp [hclaimed]⟩
            | false => exact .inl ⟨by simp,.inr (.inr ⟨rfl,.inl hclaimed⟩)⟩
          · exact .inl ⟨by simp [hclaimed],.inr (.inl (by simpa [hclaimed] using hrefused))⟩
        · split at h
          · rename_i hknown
            obtain rfl := Option.some.inj h
            cases u with
            | true => exact .inr ⟨rfl,rfl⟩
            | false =>
              refine .inl ⟨rfl,.inr (.inr ⟨rfl,.inr ?_⟩)⟩
              rintro ⟨e',heq,hopen⟩
              obtain rfl := Option.some.inj heq
              simp [hrejected] at hopen hknown
              simp [hknown] at hopen
          · cases h

/-- Every attempt so far has left the outcome open. -/
structure Trying (L : Libraries) (intent : Intent) (uncertain : Bool) (h : List ClaimEvent) :
    Prop where
  started : uncertain = !(h.filterMap attemptAnswer).isEmpty
  retried : ∀ a ∈ h.filterMap attemptAnswer, LeftOpen L intent a

/-- What happened when the loop returns: its context has ended, or the last attempt has decided. -/
def ClaimDecided (L : Libraries) (intent : Intent) (h : List ClaimEvent)
    (r : ClaimResult × Option ClaimError) : Prop :=
  (∃ e : ContextError, r = ({},some (contextClaimError e)) ∧
      ((⟨.ctxErr,some e⟩ : ClaimEvent) ∈ h ∨ (⟨.pause,some e⟩ : ClaimEvent) ∈ h)) ∨
    ∃ answers last, h.filterMap attemptAnswer = answers ++ [last] ∧
      (∀ a ∈ answers, LeftOpen L intent a) ∧
      claimVerdict L intent (!answers.isEmpty) last.1 last.2 = some r

theorem ClaimDecided.accepted {h : List ClaimEvent} {claim : ClaimResult}
    (hd : ClaimDecided L intent h (claim,none)) :
    ∃ answers, h.filterMap attemptAnswer = answers ++ [(claim,none)] ∧
      ∀ a ∈ answers, LeftOpen L intent a := by
  obtain ⟨e,heq,-⟩ | ⟨answers,⟨last,err⟩,hanswers,hopen,hverdict⟩ := hd
  · cases heq
  · obtain ⟨rfl,heq⟩ | ⟨e,-,⟨heq,-⟩ | ⟨-,heq⟩⟩ := claimVerdict_some hverdict
    · cases heq
      exact ⟨answers,hanswers,hopen⟩
    · cases heq
    · cases heq

/-- Only this intent is claimed. -/
def claimPre (intent : Intent) : ClaimOp → List ClaimEvent → Prop
  | .claimIntent intentType intentID,_ => (intentType,intentID) = (intent.type,intent.intentID)
  | _,_ => True

abbrev claimDiscipline (intent : Intent) : Discipline ClaimOp ClaimOp.Ans (List ClaimEvent) :=
  Prog.tracing (fun _ _ => True) (claimPre intent)

theorem Trying.other {u : Bool} {h : List ClaimEvent} (ht : Trying L intent u h) {e : ClaimEvent}
    (he : attemptAnswer e = none) : Trying L intent u (h ++ [e]) := by
  constructor
  · simpa [he] using ht.started
  · simpa [he] using ht.retried

theorem concludeAttempt_meets {t : List ClaimEvent}
    {answers : List (ClaimResult × Option ClaimError)} {claim : ClaimResult}
    {err : Option ClaimError} {next : ClaimProg (ClaimResult × Option ClaimError)}
    (hanswers : t.filterMap attemptAnswer = answers ++ [(claim,err)])
    (hretried : ∀ a ∈ answers, LeftOpen L intent a)
    (hnext : ∀ s, Trying L intent true s →
      next.Meets (claimDiscipline intent) (fun r s => ClaimDecided L intent s r) s) :
    (concludeAttempt L intent (!answers.isEmpty) claim err next).Meets (claimDiscipline intent)
      (fun r s => ClaimDecided L intent s r) t := by
  unfold concludeAttempt
  cases hverdict : claimVerdict L intent (!answers.isEmpty) claim err with
  | some r => exact Prog.meets_pure (.inr ⟨answers,(claim,err),hanswers,hretried,hverdict⟩)
  | none =>
    apply Prog.meets_perform trivial
    intro (ended : Option ContextError) _
    cases ended with
    | some e => exact Prog.meets_pure (.inl ⟨e,rfl,.inr (by simp)⟩)
    | none =>
      have htrying : Trying L intent true t := by
        refine ⟨by simp [hanswers],fun a ha => ?_⟩
        rw [hanswers] at ha
        cases List.mem_append.mp ha with
        | inl ha => exact hretried a ha
        | inr ha =>
          rw [List.mem_singleton.mp ha]
          exact claimVerdict_none hverdict
      exact hnext _ (htrying.other rfl)

theorem claimFrom_meets (turns : Nat) (first : Bool) {uncertain : Bool} {h : List ClaimEvent}
    (ht : Trying L intent uncertain h) :
    (claimFrom L intent turns first uncertain).Meets (claimDiscipline intent)
      (fun r t => ClaimDecided L intent t r) h := by
  induction turns generalizing first uncertain h with
  | zero => trivial
  | succ turns ih =>
    apply Prog.meets_perform trivial
    intro (ended : Option ContextError) _
    cases ended with
    | some e => exact Prog.meets_pure (.inl ⟨e,rfl,.inl (by simp)⟩)
    | none =>
      have ht₁ := ht.other (e := ⟨.ctxErr,none⟩) rfl
      apply Prog.meets_perform rfl
      intro (answer : ClaimResult × Option ClaimError) _
      obtain ⟨claim,err⟩ := answer
      have hanswers : ∀ t : List ClaimEvent,
          (t ++ [(⟨.claimIntent intent.type intent.intentID,(claim,err)⟩ : ClaimEvent)]).filterMap
            attemptAnswer = t.filterMap attemptAnswer ++ [(claim,err)] :=
        fun _ => List.filterMap_append
      dsimp only
      rw [ht₁.started]
      by_cases hnotify : (first && dispatchedBy err) = true
      · rw [if_pos hnotify]
        apply Prog.meets_perform trivial
        intro _ _
        apply concludeAttempt_meets _ ht₁.retried fun _ hs => ih false hs
        rw [List.filterMap_append, hanswers]
        exact List.append_nil _
      · rw [if_neg hnotify]
        exact concludeAttempt_meets (hanswers _) ht₁.retried fun _ hs => ih false hs

/-- Only the intent itself is claimed; a claim is returned only as the last attempt gave it, after
attempts that were left open; and once an attempt has left the outcome open the loop ends with a
claim, with an error that asks for cleanup, with the answer that there is no such intent, with a
rejection of this very intent, or with the end of its context: never with a plain refusal. -/
theorem uncertain_claim_needs_cleanup (turns : Nat) {h : List ClaimEvent}
    {r : ClaimResult × Option ClaimError} (hrun : (claimWithRecovery L intent turns).Ends h r) :
    (∀ intentType intentID answer, (⟨.claimIntent intentType intentID,answer⟩ : ClaimEvent) ∈ h →
        intentType = intent.type ∧ intentID = intent.intentID) ∧
      (r.2 = none → ∃ answers, h.filterMap attemptAnswer = answers ++ [(r.1,none)] ∧
        ∀ a ∈ answers, LeftOpen L intent a) ∧
      ∀ e, r.2 = some e → 2 ≤ (h.filterMap attemptAnswer).length →
        e.isA .cleanup = true ∨ e.isA .notFound = true ∨
          e.isA .signRejected = true ∧ rejectionVerified L intent r.1 = true ∨
          ∃ c, e = contextClaimError c := by
  have hstart : Trying L intent false [] := ⟨rfl,by simp⟩
  have hmeets := claimFrom_meets turns true hstart
  have hdecided : ClaimDecided L intent h r := hmeets.ends hrun fun _ _ => trivial
  refine ⟨?_,?_,?_⟩
  · intro intentType intentID answer hmem
    obtain ⟨h₁,h₂,hsplit⟩ := List.append_of_mem hmem
    have hpre : claimPre intent (.claimIntent intentType intentID) ([] ++ h₁) :=
      (hmeets.after hrun fun _ _ => trivial).2 h₁ _ h₂ hsplit
    exact Prod.mk.inj hpre
  · intro hnone
    obtain ⟨claim,err⟩ := r
    obtain rfl : err = none := hnone
    exact hdecided.accepted
  · intro e herr htwo
    obtain ⟨claim,err⟩ := r
    obtain rfl : err = some e := herr
    obtain ⟨c,heq,-⟩ | ⟨answers,last,hanswers,-,hverdict⟩ := hdecided
    · exact .inr (.inr (.inr ⟨c,Option.some.inj (Prod.mk.inj heq).2⟩))
    · have hsome : answers.isEmpty = false := by
        cases answers with
        | nil => simp [hanswers] at htwo
        | cons a answers => rfl
      rw [hsome] at hverdict
      obtain ⟨-,heq⟩ | ⟨e,-,⟨heq,hrejected | hmissing | ⟨hfirst,-⟩⟩ | ⟨-,heq⟩⟩ :=
        claimVerdict_some hverdict
      · cases heq
      · cases heq
        exact .inr (.inr (.inl hrejected))
      · cases heq
        exact .inr (.inl hmissing)
      · cases hfirst
      · cases heq
        exact .inl (needsCleanup_isA e)

end

/-- A first attempt is left open, a second one is answered with another session's rejection, and
the third is refused. -/
def openedRun : List ClaimEvent :=
  let attempt (claim : ClaimResult) (e : ClaimError) : ClaimEvent :=
    ⟨.claimIntent listedSign.type listedSign.intentID,(claim,some e)⟩
  [⟨.ctxErr,none⟩,attempt {} ⟨[.outcomeUnknown],[]⟩,⟨.notifyDispatch,()⟩,⟨.pause,none⟩,
    ⟨.ctxErr,none⟩,attempt { signClaim with sessionID := ascii "other" } ⟨[.signRejected],[]⟩,
    ⟨.pause,none⟩,⟨.ctxErr,none⟩,attempt {} ⟨[.alreadyClaimed],[]⟩]

theorem openedRun_ends : (claimWithRecovery plainCore listedSign 3).Ends openedRun
    ({},some (needsCleanup ⟨[.alreadyClaimed],[]⟩)) :=
  .call (.call (.call (.call (.call (.call (.call (.call (.call (.start _)))))))))

theorem uncertain_claim_needs_cleanup_sample :
    (openedRun.filterMap attemptAnswer).length = 3 ∧
      (∀ intentType intentID answer,
        (⟨.claimIntent intentType intentID,answer⟩ : ClaimEvent) ∈ openedRun →
          intentType = listedSign.type ∧ intentID = listedSign.intentID) ∧
      ∃ r, (claimWithRecovery plainCore listedSign 3).Ends openedRun r ∧
        ∃ e, r.2 = some e ∧ (e.isA .cleanup = true ∨ e.isA .notFound = true ∨
          e.isA .signRejected = true ∧ rejectionVerified plainCore listedSign r.1 = true ∨
          ∃ c, e = contextClaimError c) := by
  obtain ⟨hclaims,-,hcleanup⟩ := uncertain_claim_needs_cleanup 3 openedRun_ends
  exact ⟨rfl,hclaims,_,openedRun_ends,_,rfl,hcleanup _ rfl (by decide)⟩

end CoSigner.Worker
