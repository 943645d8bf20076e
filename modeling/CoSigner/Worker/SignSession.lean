import CoSigner.Lib.Trace
import CoSigner.Lib.Strings
import CoSigner.Monolith.Results
import CoSigner.Terminal.Publisher

/-! The parts of a SIGN session around Core (`worker/sign_session.go`, `approval_gate.go`,
`session_result.go`): waiting until the session runs, waiting for its authorization, and
delivering its result. -/
namespace CoSigner.Worker
open Monolith Json

/-- `time.Time.Sub`: a difference outside the range of `time.Duration` stops at its end. -/
def timeSub (t u : Time) : Duration :=
  max (-9223372036854775808) (min 9223372036854775807 (t - u))

def signExecutionBudget (expiresAt wall : Time) : Duration :=
  min (300 * Time.second) (timeSub (expiresAt - 2 * Time.second) wall)

theorem signExecutionBudget_le (expiresAt wall : Int) :
    signExecutionBudget expiresAt wall ≤ 300 * Time.second := Int.min_le_left _ _

theorem signExecutionBudget_left {expiresAt wall : Int}
    (h : 0 < signExecutionBudget expiresAt wall) :
    signExecutionBudget expiresAt wall ≤ expiresAt - 2 * Time.second - wall := by
  have hclamped : ∀ a d : Int, 0 < min a (max (-9223372036854775808) (min 9223372036854775807 d)) →
      min a (max (-9223372036854775808) (min 9223372036854775807 d)) ≤ d := by
    intro a d
    omega
  exact hclamped _ _ h

def sessionKind (intent : Intent) : Bytes := Strings.toUpper (Strings.trimSpace intent.type)

/-- The errors of `GetMessages` that the session tells apart. -/
inductive PollFailure where
  | invalidLifecycle (text : Bytes)
  | other
  deriving DecidableEq, Repr

/-- The calls of the parts. A pause ends with the error of its context, or with nothing when its
timer fires. -/
inductive SessionOp where
  | ctxErr
  | getMessages (sessionID : Bytes) (afterSeq : Nat)
  /-- The wall clock and the monotonic clock. -/
  | sample
  /-- `context.WithDeadline` and the new context's error. -/
  | arm (deadline : Time)
  | pause (interval : Duration)
  | authorize (intent : Intent)
  | postSignResult (intentID : Bytes) (request : SignResultRequest)
  | awaitDone
  deriving DecidableEq

def SessionOp.Ans : SessionOp → Type
  | .ctxErr | .arm _ | .pause _ => Option ContextError
  | .getMessages _ _ => Except PollFailure SessionLifecycle
  | .sample => Time × Time
  | .authorize _ => Option Err
  | .postSignResult _ _ => SignReply
  | .awaitDone => Unit

abbrev SessionProg := Prog SessionOp SessionOp.Ans

abbrev SessionEvent := Event SessionOp SessionOp.Ans

def session (o : SessionOp) : SessionProg o.Ans := .perform o

inductive ReadyError where
  | context (e : ContextError)
  | invalidLifecycle (text : Bytes)
  | alreadyExpired
  /-- The dereference of a missing time. -/
  | panics
  deriving DecidableEq, Repr

/-- The lifecycle a session runs with, and when its execution context ends if that was armed. -/
structure Ready where
  lifecycle : SessionLifecycle
  expiry : Option Time
  deriving DecidableEq, Repr

/-- The timer of the loop, and what follows it. -/
def pauseBefore {α : Type} (interval : Duration) (next : SessionProg (Except ReadyError α)) :
    SessionProg (Except ReadyError α) := do
  let ended : Option ContextError ← session (.pause interval)
  match ended with
  | some e => pure (.error (.context e))
  | none => next

/-- The execution context of a running SIGN session. -/
def armExecution (lifecycle : SessionLifecycle) : SessionProg (Except ReadyError Ready) := do
  let (wall,mono) : Time × Time ← session .sample
  match lifecycle.executionExpiresAt with
  | none => pure (.error .panics)
  | some expiresAt =>
    let budget := signExecutionBudget expiresAt wall
    if budget ≤ 0 ∨ lifecycle.deadline ≤ wall then pure (.error .alreadyExpired)
    else do
      let ended : Option ContextError ← session (.arm (mono + budget))
      match ended with
      | some e => pure (.error (.context e))
      | none => pure (.ok ⟨lifecycle,some (mono + budget)⟩)

/-- Whether a running session has the times of its claim, if that had them. `Equal` is called
on the session's own start, which must be there. -/
def sameTimes (claimed lifecycle : SessionLifecycle) : Option Bool :=
  match claimed.startedAt,lifecycle.startedAt with
  | none,_ => some true
  | some _,none => none
  | some claimedAt,some startedAt => some (decide (startedAt = claimedAt ∧
      lifecycle.executionExpiresAt = claimed.executionExpiresAt))

/-- `monolith.ErrInvalidLifecycle`. -/
def ReadyError.lifecycle : ReadyError := .invalidLifecycle (ascii "invalid session lifecycle")

/-- The turn of the loop that has a response. -/
def observeSession (intent : Intent) (lifecycle : SessionLifecycle)
    (again : SessionProg (Except ReadyError Ready)) : SessionProg (Except ReadyError Ready) :=
  if !lifecycle.validate (sessionKind intent) intent.sessionID intent.expiresAt then
    pure (.error .lifecycle)
  else if lifecycle.status = ascii "PENDING" then again
  else if lifecycle.status = ascii "RUNNING" then
    match sameTimes intent.session lifecycle with
    | none => pure (.error .panics)
    | some false => pure (.error .lifecycle)
    | some true =>
      if sessionKind intent = ascii "DKG" then pure (.ok ⟨lifecycle,none⟩)
      else armExecution lifecycle
  else pure (.error .lifecycle)

/-- The loop of `waitForSessionReadiness`, cut off after some turns. -/
def waitForSessionReadiness (intent : Intent) (interval : Duration) :
    Nat → SessionProg (Except ReadyError Ready)
  | 0 => .halt
  | turns + 1 => do
    let again := pauseBefore interval (waitForSessionReadiness intent interval turns)
    let ended : Option ContextError ← session .ctxErr
    match ended with
    | some e => pure (.error (.context e))
    | none => do
      let answer : Except PollFailure SessionLifecycle ← session (.getMessages intent.sessionID 0)
      match answer with
      | .error (.invalidLifecycle text) => pure (.error (.invalidLifecycle text))
      | .error .other => again
      | .ok lifecycle => observeSession intent lifecycle again

/-- What the session of a SIGN intent runs with. -/
structure PinnedSession (intent : Intent) (ready : Ready) (h : List SessionEvent) : Prop where
  polled : (⟨.getMessages intent.sessionID 0,.ok ready.lifecycle⟩ : SessionEvent) ∈ h
  valid : ready.lifecycle.validate (ascii "SIGN") intent.sessionID intent.expiresAt = true
  running : ready.lifecycle.status = ascii "RUNNING"
  pinned : intent.session.startedAt.isSome = true →
    ready.lifecycle.startedAt = intent.session.startedAt ∧
      ready.lifecycle.executionExpiresAt = intent.session.executionExpiresAt
  armed : ∃ (wall mono expiresAt : Int), (⟨.sample,(wall,mono)⟩ : SessionEvent) ∈ h ∧
    ready.lifecycle.executionExpiresAt = some expiresAt ∧ wall < ready.lifecycle.deadline ∧
    0 < signExecutionBudget expiresAt wall ∧
    ready.expiry = some (mono + signExecutionBudget expiresAt wall)

/-- What is known when the wait for a session ends. -/
def Waited (intent : Intent) (h : List SessionEvent) : Except ReadyError Ready → Prop
  | .ok ready => sessionKind intent = ascii "SIGN" → PinnedSession intent ready h
  | .error e => e ≠ .panics

abbrev sessionDiscipline : Discipline SessionOp SessionOp.Ans (List SessionEvent) :=
  Prog.tracing (fun _ _ => True) fun _ _ => True

theorem validate_started {s : SessionLifecycle} {kind sessionID : Bytes} {deadline : Time}
    (h : s.validate kind sessionID deadline = true) (hrunning : s.status = ascii "RUNNING") :
    ∃ started, s.startedAt = some started := by
  simp only [SessionLifecycle.validate, Bool.and_eq_true, Bool.not_eq_true', Bool.or_eq_false_iff,
    Bool.and_eq_false_iff] at h
  obtain ⟨⟨⟨⟨⟨-,hstarted⟩,-⟩,-⟩,-⟩,-⟩ := h
  cases hs : s.startedAt with
  | none => simp [hs, hrunning] at hstarted
  | some started => exact ⟨started,rfl⟩

theorem validate_expires {s : SessionLifecycle} {sessionID : Bytes} {deadline : Time}
    (h : s.validate (ascii "SIGN") sessionID deadline = true) (hrunning : s.status = ascii "RUNNING") :
    ∃ started expires, s.startedAt = some started ∧ s.executionExpiresAt = some expires ∧
      expires = executionEnd started s.deadline := by
  obtain ⟨started,hs⟩ := validate_started h hrunning
  simp only [SessionLifecycle.validate, Bool.and_eq_true, Bool.not_eq_true', Bool.or_eq_false_iff,
    Bool.and_eq_false_iff] at h
  obtain ⟨⟨-,hexpires⟩,hend⟩ := h
  cases he : s.executionExpiresAt with
  | none => simp [hs, he] at hexpires
  | some expires => exact ⟨started,expires,hs,rfl,by simpa [hs, he] using hend⟩

theorem sameTimes_started {claimed lifecycle : SessionLifecycle} {started : Time}
    (h : lifecycle.startedAt = some started) : sameTimes claimed lifecycle ≠ none := by
  cases hc : claimed.startedAt <;> simp [sameTimes, hc, h]

theorem sameTimes_pinned {claimed lifecycle : SessionLifecycle}
    (h : sameTimes claimed lifecycle = some true) (hsome : claimed.startedAt.isSome = true) :
    lifecycle.startedAt = claimed.startedAt ∧
      lifecycle.executionExpiresAt = claimed.executionExpiresAt := by
  obtain ⟨claimedAt,hclaimed⟩ := Option.isSome_iff_exists.mp hsome
  cases hstarted : lifecycle.startedAt with
  | none => simp [sameTimes, hclaimed, hstarted] at h
  | some startedAt => simpa [sameTimes, hclaimed, hstarted] using h

theorem armExecution_meets {intent : Intent} {lifecycle : SessionLifecycle} {h : List SessionEvent}
    (hpolled : (⟨.getMessages intent.sessionID 0,.ok lifecycle⟩ : SessionEvent) ∈ h)
    (hvalid : lifecycle.validate (ascii "SIGN") intent.sessionID intent.expiresAt = true)
    (hrunning : lifecycle.status = ascii "RUNNING")
    (hpinned : intent.session.startedAt.isSome = true →
      lifecycle.startedAt = intent.session.startedAt ∧
        lifecycle.executionExpiresAt = intent.session.executionExpiresAt) :
    (armExecution lifecycle).Meets sessionDiscipline (fun r t => Waited intent t r) h := by
  obtain ⟨started,expires,-,hexpires,-⟩ := validate_expires hvalid hrunning
  apply Prog.meets_perform trivial
  intro (clock : Time × Time) _
  obtain ⟨wall,mono⟩ := clock
  simp only [hexpires]
  by_cases hlate : signExecutionBudget expires wall ≤ 0 ∨ lifecycle.deadline ≤ wall
  · rw [if_pos hlate]
    exact Prog.meets_pure (by simp [Waited])
  · rw [if_neg hlate]
    apply Prog.meets_perform trivial
    intro (ended : Option ContextError) _
    cases ended with
    | some e => exact Prog.meets_pure (by simp [Waited])
    | none =>
      obtain ⟨hbudget,hdeadline⟩ := not_or.mp hlate
      refine Prog.meets_pure fun _ =>
        ⟨by simp [hpolled],hvalid,hrunning,hpinned,wall,mono,expires,?_⟩
      exact ⟨by simp,hexpires,Int.not_le.mp hdeadline,Int.not_le.mp hbudget,rfl⟩

theorem pauseBefore_meets {intent : Intent} (interval : Duration)
    {next : SessionProg (Except ReadyError Ready)} {h : List SessionEvent}
    (hnext : ∀ t, next.Meets sessionDiscipline (fun r t => Waited intent t r) t) :
    (pauseBefore interval next).Meets sessionDiscipline (fun r t => Waited intent t r) h := by
  apply Prog.meets_perform trivial
  intro (ended : Option ContextError) _
  cases ended with
  | some e => exact Prog.meets_pure (by simp [Waited])
  | none => exact hnext _

theorem observeSession_meets {intent : Intent}
    (hkind : sessionKind intent = ascii "SIGN" ∨ sessionKind intent = ascii "DKG")
    {lifecycle : SessionLifecycle} {again : SessionProg (Except ReadyError Ready)}
    {h : List SessionEvent}
    (hpolled : (⟨.getMessages intent.sessionID 0,.ok lifecycle⟩ : SessionEvent) ∈ h)
    (hagain : ∀ t, again.Meets sessionDiscipline (fun r t => Waited intent t r) t) :
    (observeSession intent lifecycle again).Meets sessionDiscipline
      (fun r t => Waited intent t r) h := by
  unfold observeSession
  by_cases hvalid : lifecycle.validate (sessionKind intent) intent.sessionID intent.expiresAt = true
  · simp only [hvalid, Bool.not_true, Bool.false_eq_true, if_false]
    split
    · exact hagain h
    · split
      · rename_i hrunning
        obtain ⟨started,hstarted⟩ := validate_started hvalid hrunning
        cases hsame : sameTimes intent.session lifecycle with
        | none => exact absurd hsame (sameTimes_started hstarted)
        | some same =>
          cases same with
          | false => exact Prog.meets_pure (by simp [Waited, ReadyError.lifecycle])
          | true =>
            dsimp only
            by_cases hdkg : sessionKind intent = ascii "DKG"
            · rw [if_pos hdkg]
              exact Prog.meets_pure fun hsign => absurd (hsign.symm.trans hdkg) (by decide)
            · rw [if_neg hdkg]
              rw [hkind.resolve_right hdkg] at hvalid
              exact armExecution_meets hpolled hvalid hrunning (sameTimes_pinned hsame)
      · exact Prog.meets_pure (by simp [Waited, ReadyError.lifecycle])
  · simp only [hvalid, Bool.not_false, if_true]
    exact Prog.meets_pure (by simp [Waited, ReadyError.lifecycle])

theorem waitForSessionReadiness_meets {intent : Intent}
    (hkind : sessionKind intent = ascii "SIGN" ∨ sessionKind intent = ascii "DKG")
    (interval : Duration) (turns : Nat)
    (h : List SessionEvent) :
    (waitForSessionReadiness intent interval turns).Meets sessionDiscipline
      (fun r t => Waited intent t r) h := by
  induction turns generalizing h with
  | zero => trivial
  | succ turns ih =>
    apply Prog.meets_perform trivial
    intro (ended : Option ContextError) _
    cases ended with
    | some e => exact Prog.meets_pure (by simp [Waited])
    | none =>
      apply Prog.meets_perform trivial
      intro (answer : Except PollFailure SessionLifecycle) _
      cases answer with
      | error failure =>
        cases failure with
        | invalidLifecycle text => exact Prog.meets_pure (by simp [Waited])
        | other => exact pauseBefore_meets interval ih
      | ok lifecycle =>
        exact observeSession_meets hkind (by simp) fun _ => pauseBefore_meets interval ih

def liveSession : SessionLifecycle where
  sessionID := ascii "session-1"
  status := ascii "RUNNING"
  startedAt := some (Time.unixEpoch + Time.second)
  deadline := Time.unixEpoch + 600 * Time.second
  executionExpiresAt := some (Time.unixEpoch + 301 * Time.second)

def liveIntent : Intent where
  intentID := ascii "intent-1"
  sessionID := ascii "session-1"
  type := ascii "SIGN"
  expiresAt := Time.unixEpoch + 600 * Time.second
  session := liveSession

/-- A backend and a gate that put off the first request and grant the later ones. -/
def granting : (o : SessionOp) → Bool → Option (o.Ans × Bool)
  | .ctxErr, asked => some (none,asked)
  | .arm _, asked => some (none,asked)
  | .pause _, asked => some (none,asked)
  | .getMessages _ _, false => some (.error .other,true)
  | .getMessages _ _, true => some (.ok liveSession,true)
  | .sample, asked =>
    some ((Time.unixEpoch + 2 * Time.second,Time.unixEpoch + 2 * Time.second),asked)
  | .authorize _, false => some (some .applicationPending,true)
  | .authorize _, true => some (none,true)
  | .postSignResult _ _, false => some (.failed,true)
  | .postSignResult _ _, true => some (.replied 200 (object [
      (ascii "authoritativeStatus",quote (ascii "COMPLETED")),(ascii "httpStatus",ascii "200"),
      (ascii "outcome",quote (ascii "ACCEPTED"))]),true)
  | .awaitDone, asked => some ((),asked)

theorem granted_run {α : Type} {p : SessionProg α} {a : α}
    (h : p.exec granting false = some (a,true)) : ∃ t, p.Ends t a := by
  obtain ⟨t,hrun⟩ := Prog.through_exec h fun _ _ _ _ hserved => hserved
  exact ⟨t,hrun.after⟩

/-- A SIGN session runs only with a validated RUNNING lifecycle whose times are those of the claim
if that had them, and if both clocks show the same instant its execution ends at least two seconds
before the lifecycle's own end and within 300 seconds. -/
theorem readiness_pins_lifecycle {intent : Intent} (hkind : sessionKind intent = ascii "SIGN")
    (interval : Duration) (turns : Nat) {h : List SessionEvent} {r : Except ReadyError Ready}
    (hrun : (waitForSessionReadiness intent interval turns).Ends h r) :
    r ≠ .error .panics ∧ ∀ ready, r = .ok ready →
      (⟨.getMessages intent.sessionID 0,.ok ready.lifecycle⟩ : SessionEvent) ∈ h ∧
      ready.lifecycle.validate (ascii "SIGN") intent.sessionID intent.expiresAt = true ∧
      ready.lifecycle.status = ascii "RUNNING" ∧
      (intent.session.startedAt.isSome = true →
        ready.lifecycle.startedAt = intent.session.startedAt ∧
          ready.lifecycle.executionExpiresAt = intent.session.executionExpiresAt) ∧
      ∃ (started expires wall mono expiry : Int), ready.lifecycle.startedAt = some started ∧
        ready.lifecycle.executionExpiresAt = some expires ∧
        expires = executionEnd started ready.lifecycle.deadline ∧ ready.expiry = some expiry ∧
        (⟨.sample,(wall,mono)⟩ : SessionEvent) ∈ h ∧ wall < ready.lifecycle.deadline ∧
        mono < expiry ∧ expiry ≤ mono + 300 * Time.second ∧
        (wall = mono → expiry ≤ expires - 2 * Time.second) := by
  have hwaited := (waitForSessionReadiness_meets (.inl hkind) interval turns []).ends hrun
    fun _ _ => trivial
  constructor
  · rintro rfl
    exact hwaited rfl
  · rintro ready rfl
    obtain ⟨hpolled,hvalid,hrunning,hpinned,wall,mono,expires,hsample,hexpires,hdeadline,hbudget,
      hexpiry⟩ := hwaited hkind
    obtain ⟨started,expires',hstarted,hexpires',hend⟩ := validate_expires hvalid hrunning
    obtain rfl : expires = expires' := Option.some.inj (hexpires.symm.trans hexpires')
    refine ⟨hpolled,hvalid,hrunning,hpinned,started,expires,wall,mono,_,hstarted,hexpires,hend,
      hexpiry,hsample,hdeadline,?_,?_,?_⟩
    · exact Int.lt_add_of_pos_right mono hbudget
    · exact Int.add_le_add_left (signExecutionBudget_le expires wall) mono
    · rintro rfl
      have hsum := Int.add_le_add_left (signExecutionBudget_left hbudget) wall
      rwa [add_sub_cancel] at hsum

/-- A claim with its times, and a session that is seen to run on the second poll. -/
theorem readiness_pins_lifecycle_sample : ∃ t ready,
    (waitForSessionReadiness liveIntent Time.second 2).Ends t (.ok ready) ∧
      ready.lifecycle.status = ascii "RUNNING" ∧
      ready.lifecycle.startedAt = some (Time.unixEpoch + Time.second) ∧
      ready.expiry = some (Time.unixEpoch + 299 * Time.second) := by
  have hexec : (waitForSessionReadiness liveIntent Time.second 2).exec granting false =
      some (.ok ⟨liveSession,some (Time.unixEpoch + 299 * Time.second)⟩,true) := by
    rfl
  obtain ⟨t,hrun⟩ := granted_run hexec
  obtain ⟨-,-,hrunning,hpinned,-⟩ :=
    (readiness_pins_lifecycle (by decide) Time.second 2 hrun).2 _ rfl
  exact ⟨t,_,hrun,hrunning,(hpinned rfl).1,rfl⟩

inductive AuthorizeError where
  | gate (e : Err)
  | context (e : ContextError)
  deriving DecidableEq, Repr

/-- The loop of `authorizeSign`, cut off after some turns. -/
def authorizeFrom (intent : Intent) : Nat → SessionProg (Option AuthorizeError)
  | 0 => .halt
  | turns + 1 => do
    let err : Option Err ← session (.authorize intent)
    match err with
    | none => pure none
    | some e =>
      if e.isA .applicationPending then do
        let ended : Option ContextError ← session (.pause Time.second)
        match ended with
        | some e => pure (some (.context e))
        | none => authorizeFrom intent turns
      else pure (some (.gate e))

/-- `authorizeSign`; `gate` says whether there is one. -/
def authorizeSign (gate : Bool) (intent : Intent) (turns : Nat) :
    SessionProg (Option AuthorizeError) :=
  if gate then authorizeFrom intent turns else pure (some (.gate .prepared))

/-- So far the gate was asked about the intent only, and has put it off each time. -/
def PutOff (intent : Intent) (h : List SessionEvent) : Prop :=
  ∀ e ∈ h, (∃ err : Err, e = ⟨.authorize intent,some err⟩ ∧ err.isA .applicationPending = true) ∨
    e = ⟨.pause Time.second,none⟩

theorem PutOff.snoc {intent : Intent} {h : List SessionEvent} (hh : PutOff intent h)
    {e : SessionEvent} (he : PutOff intent [e]) : PutOff intent (h ++ [e]) := by
  intro d hd
  cases List.mem_append.mp hd with
  | inl hd => exact hh d hd
  | inr hd => exact he d hd

/-- What happened when the wait for an authorization ends. -/
def Decided (intent : Intent) (h : List SessionEvent) : Option AuthorizeError → Prop
  | none => ∃ h₁, PutOff intent h₁ ∧ h = h₁ ++ [⟨.authorize intent,none⟩]
  | some (.gate e) => ∃ h₁, PutOff intent h₁ ∧ h = h₁ ++ [⟨.authorize intent,some e⟩] ∧
      e.isA .applicationPending = false
  | some (.context e) => ∃ h₁, PutOff intent h₁ ∧ h = h₁ ++ [⟨.pause Time.second,some e⟩]

theorem authorizeFrom_meets {intent : Intent} (turns : Nat) {h : List SessionEvent}
    (hh : PutOff intent h) :
    (authorizeFrom intent turns).Meets sessionDiscipline (fun r t => Decided intent t r) h := by
  induction turns generalizing h with
  | zero => trivial
  | succ turns ih =>
    apply Prog.meets_perform trivial
    intro (err : Option Err) _
    cases err with
    | none => exact Prog.meets_pure ⟨h,hh,rfl⟩
    | some e =>
      dsimp only
      by_cases hpending : e.isA .applicationPending = true
      · rw [if_pos hpending]
        have hasked := hh.snoc (e := ⟨.authorize intent,some e⟩)
          fun d hd => .inl ⟨e,List.mem_singleton.mp hd,hpending⟩
        apply Prog.meets_perform trivial
        intro (ended : Option ContextError) _
        cases ended with
        | some e => exact Prog.meets_pure ⟨_,hasked,rfl⟩
        | none => exact ih (hasked.snoc fun d hd => .inr (List.mem_singleton.mp hd))
      · rw [if_neg hpending]
        exact Prog.meets_pure ⟨h,hh,rfl,Bool.eq_false_iff.mpr hpending⟩

/-- The gate authorizes a SIGN only by its own last answer about that intent, after nothing but
answers that put it off; without a gate nothing is authorized. -/
theorem authorization_is_the_gates (gate : Bool) (intent : Intent) (turns : Nat)
    {h : List SessionEvent} {r : Option AuthorizeError}
    (hrun : (authorizeSign gate intent turns).Ends h r) :
    if gate then Decided intent h r else h = [] ∧ r = some (.gate .prepared) := by
  cases gate with
  | false =>
    obtain ⟨rfl,rfl⟩ := Prog.ends_ret.mp hrun
    exact ⟨rfl,rfl⟩
  | true =>
    have hnone : PutOff intent [] := by simp [PutOff]
    exact (authorizeFrom_meets turns hnone).ends hrun fun _ _ => trivial

/-- The gate puts the intent off once before it authorizes it. -/
theorem authorization_is_the_gates_sample : ∃ t, (authorizeSign true liveIntent 2).Ends t none ∧
    t.length = 3 ∧ ∃ t₁, PutOff liveIntent t₁ ∧ t = t₁ ++ [⟨.authorize liveIntent,none⟩] := by
  have hrun : (authorizeSign true liveIntent 2).Ends
      [⟨.authorize liveIntent,some .applicationPending⟩,⟨.pause Time.second,none⟩,
        ⟨.authorize liveIntent,none⟩] none :=
    .call (.call (.call (.start _)))
  exact ⟨_,hrun,rfl,authorization_is_the_gates true liveIntent 2 hrun⟩

/-- A lifecycle by which `deliverSignResult` knows that the intent is settled. -/
def terminalObserved (intent : Intent) (observed : SessionLifecycle) : Bool :=
  observed.validate (ascii "SIGN") intent.sessionID intent.expiresAt &&
    (intent.session.startedAt.isNone ||
      observed.startedAt.isSome && observed.executionExpiresAt.isSome &&
        observed.startedAt == intent.session.startedAt &&
        intent.session.executionExpiresAt.isSome &&
        observed.executionExpiresAt == intent.session.executionExpiresAt) &&
    ["COMPLETED","FAILED","TIMED_OUT"].any fun status => observed.status == ascii status

def deliveryRetry : Duration := 25 * Time.millisecond

/-- The loop of `deliverSignResult`, cut off after some turns. -/
def deliverFrom (intent : Intent) (request : SignResultRequest) : Nat → SessionProg Unit
  | 0 => .halt
  | turns + 1 => do
    let reply : SignReply ← session (.postSignResult intent.intentID request)
    if request.resolves reply then pure ()
    else do
      let answer : Except PollFailure SessionLifecycle ← session (.getMessages intent.sessionID 0)
      if answer.toOption.any (terminalObserved intent) then pure ()
      else do
        let ended : Option ContextError ← session (.pause deliveryRetry)
        if ended.isSome then pure () else deliverFrom intent request turns

/-- `deliverSignResult`; once the context has ended the calls of the loop are made with another
one. -/
def deliverSignResult (intent : Intent) (result : IntentResult) (turns : Nat) : SessionProg Unit :=
  match newSignResultRequest result with
  | none => session .awaitDone
  | some request => do
    let _ : Option ContextError ← session .ctxErr
    deliverFrom intent request turns

/-- The result that an event sends. -/
def postedBy : SessionEvent → Option (Bytes × Bytes)
  | ⟨.postSignResult intentID request,_⟩ => some (intentID,request.body)
  | _ => none

/-- A result is only ever sent as the one request. -/
def deliveryPre (intent : Intent) (result : IntentResult) : SessionOp → List SessionEvent → Prop
  | .postSignResult intentID request,h =>
      (intentID = intent.intentID ∧ newSignResultRequest result = some request) ∧
        ∀ sent ∈ h.filterMap postedBy, sent = (intentID,request.body)
  | _,_ => True

/-- Why a delivery has ended: the result is resolved, or its context has ended. -/
def Delivered (intent : Intent) (result : IntentResult) (h : List SessionEvent) : Prop :=
  (∃ request reply, newSignResultRequest result = some request ∧
      (⟨.postSignResult intent.intentID request,reply⟩ : SessionEvent) ∈ h ∧
      request.Confirmed reply) ∨
    (∃ observed, (⟨.getMessages intent.sessionID 0,.ok observed⟩ : SessionEvent) ∈ h ∧
      terminalObserved intent observed = true) ∨
    (∃ e : ContextError, (⟨.pause deliveryRetry,some e⟩ : SessionEvent) ∈ h) ∨
    newSignResultRequest result = none ∧ (⟨.awaitDone,()⟩ : SessionEvent) ∈ h

theorem deliverFrom_meets {intent : Intent} {result : IntentResult} {request : SignResultRequest}
    (hrequest : newSignResultRequest result = some request) (turns : Nat) {h : List SessionEvent}
    (hsame : ∀ sent ∈ h.filterMap postedBy, sent = (intent.intentID,request.body)) :
    (deliverFrom intent request turns).Meets
      (Prog.tracing (fun _ _ => True) (deliveryPre intent result))
      (fun _ t => Delivered intent result t) h := by
  induction turns generalizing h with
  | zero => trivial
  | succ turns ih =>
    apply Prog.meets_perform ⟨⟨rfl,hrequest⟩,hsame⟩
    intro (reply : SignReply) _
    by_cases hresolved : request.resolves reply = true
    · rw [if_pos hresolved]
      exact Prog.meets_pure (.inl ⟨request,reply,hrequest,by simp,
        SignResultRequest.resolves_confirmed hresolved⟩)
    · rw [if_neg hresolved]
      apply Prog.meets_perform trivial
      intro (answer : Except PollFailure SessionLifecycle) _
      by_cases hobserved : answer.toOption.any (terminalObserved intent) = true
      · rw [if_pos hobserved]
        cases answer with
        | error failure => simp [Except.toOption] at hobserved
        | ok observed => exact Prog.meets_pure (.inr (.inl ⟨observed,by simp,hobserved⟩))
      · rw [if_neg hobserved]
        apply Prog.meets_perform trivial
        intro (ended : Option ContextError) _
        cases ended with
        | some e => exact Prog.meets_pure (.inr (.inr (.inl ⟨e,by simp⟩)))
        | none =>
          apply ih
          intro sent hsent
          simp only [List.filterMap_append, List.mem_append] at hsent
          obtain ((hsent | hsent) | hsent) | hsent := hsent
          · exact hsame sent hsent
          · exact List.mem_singleton.mp hsent
          · cases hsent
          · cases hsent

theorem deliverSignResult_meets (intent : Intent) (result : IntentResult) (turns : Nat) :
    (deliverSignResult intent result turns).Meets
      (Prog.tracing (fun _ _ => True) (deliveryPre intent result))
      (fun _ t => Delivered intent result t) [] := by
  unfold deliverSignResult
  cases hrequest : newSignResultRequest result with
  | none =>
    apply Prog.meets_perform trivial
    intro _ _
    exact Prog.meets_pure (.inr (.inr (.inr ⟨hrequest,List.mem_singleton.mpr rfl⟩)))
  | some request =>
    apply Prog.meets_perform trivial
    intro _ _
    exact deliverFrom_meets hrequest turns (by simp [postedBy])

/-- All attempts to deliver a result send the same bytes for the same intent, and the delivery
ends only when the backend has confirmed it or named another, when the session is seen to be
terminal with the times of the claim, or when its context has ended. -/
theorem sign_result_delivered_as_one (intent : Intent) (result : IntentResult) (turns : Nat)
    {h : List SessionEvent} {q : SessionProg Unit}
    (hrun : (deliverSignResult intent result turns).After h q) :
    (∀ intentID request reply, (⟨.postSignResult intentID request,reply⟩ : SessionEvent) ∈ h →
        intentID = intent.intentID ∧ marshalSignResult result = some request.body ∧
          request.status = result.status) ∧
      (q = .ret () → Delivered intent result h) := by
  have hmeets := deliverSignResult_meets intent result turns
  constructor
  · intro intentID request reply hmem
    obtain ⟨h₁,h₂,hsplit⟩ := List.append_of_mem hmem
    have hpre : deliveryPre intent result (.postSignResult intentID request) ([] ++ h₁) :=
      (hmeets.after hrun fun _ _ => trivial).2 h₁ _ h₂ hsplit
    obtain ⟨⟨hintent,hrequest⟩,-⟩ := hpre
    obtain ⟨body,hbody,rfl⟩ := Option.map_eq_some_iff.mp hrequest
    exact ⟨hintent,hbody,rfl⟩
  · rintro rfl
    exact hmeets.ends hrun fun _ _ => trivial

/-- The first attempt is lost, the session is seen to be running still, and the second one is
accepted. -/
theorem sign_result_delivered_as_one_sample : ∃ t,
    (deliverSignResult liveIntent { status := ascii "COMPLETED" } 2).Ends t () ∧
      Delivered liveIntent { status := ascii "COMPLETED" } t := by
  have hexec : (deliverSignResult liveIntent { status := ascii "COMPLETED" } 2).exec granting
      false = some ((),true) := by
    decide +kernel
  obtain ⟨t,hrun⟩ := granted_run hexec
  exact ⟨t,hrun,(sign_result_delivered_as_one _ _ 2 hrun).2 rfl⟩

end CoSigner.Worker
