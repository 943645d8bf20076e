import CoSigner.Worker.Session

/-! What a session keeps its permits for: they are given back when nothing of the intent can be
left with the session, and one result is all it ever sends. -/
namespace CoSigner.Worker
open Monolith

/-- The worker's context has not ended; the contexts made of it end at their deadlines only. -/
def lives : (o : WorkOp) → o.Ans → Bool
  | .claim .ctxErr, (r : Option ContextError) => r != some .canceled
  | .claim .pause, (r : Option ContextError) => r != some .canceled
  | .deliver .ctxErr, (r : Option ContextError) => r.isNone
  | .deliver (.pause _), (r : Option ContextError) => r.isNone
  | .deliver .awaitDone, _ => false
  | .publish .ctxErr, (r : Option ContextError) => r.isNone
  | .publish (.sleep _ _), (r : Option ContextError) => r.isNone
  | .ctxErr, (r : Option ContextError) => r.isNone
  | .ctxDone, _ => false
  | _, _ => true

def claimAnswer : WorkEvent → Option (ClaimResult × Option ClaimError)
  | ⟨.claim (.claimIntent _ _),answer⟩ => some answer
  | _ => none

/-- The result that an event sends. -/
def sentResult : WorkEvent → Option (Bytes × Bytes)
  | ⟨.deliver (.postSignResult intentID request),_⟩ => some (intentID,request.body)
  | ⟨.publish (.post intentID body),_⟩ => some (intentID,body)
  | _ => none

def coreCall : WorkEvent → Option SignSessionRequest
  | ⟨.runSignSession request,_⟩ => some request
  | _ => none

/-- The intent as it was listed, or as a claim gave it with the lifecycle it was seen in. -/
def Works (L : Libraries) (listed : Intent) (h : List WorkEvent) (intent : Intent) : Prop :=
  intent = listed ∨ ∃ answer ∈ h.filterMap claimAnswer, ∃ session,
    intent = { answer.1.intent L with session := session }

/-- Why the permits may be given back: there was no claim, or it was refused with none left open
before, or there is no such intent; or its result is known to have arrived. -/
inductive Resolved (L : Libraries) (listed : Intent) (h : List WorkEvent) : Prop
  | unclaimed (hnone : h.filterMap claimAnswer = [])
  | refused (claim : ClaimResult) (e : ClaimError) (hone : h.filterMap claimAnswer = [(claim,some e)])
      (hrefused : e.isA .alreadyClaimed = true ∨ ¬LeftOpen L listed (claim,some e))
  | notFound (claim : ClaimResult) (e : ClaimError)
      (hlast : (h.filterMap claimAnswer).getLast? = some (claim,some e))
      (hmissing : e.isA .notFound = true)
  | confirmed (intent : Intent) (request : SignResultRequest) (reply : SignReply)
      (hworks : Works L listed h intent)
      (hpost : (⟨.deliver (.postSignResult intent.intentID request),reply⟩ : WorkEvent) ∈ h)
      (hreply : request.Confirmed reply)
  | observed (intent : Intent) (lifecycle : SessionLifecycle) (hworks : Works L listed h intent)
      (hpoll : (⟨.deliver (.getMessages intent.sessionID 0),.ok lifecycle⟩ : WorkEvent) ∈ h)
      (hterminal : terminalObserved intent lifecycle = true)
  | published (job : Terminal.Job) (response : Terminal.TerminalHTTPResponse)
      (outcome : Terminal.Outcome)
      (hpost : (⟨.publish (.post job.intentID job.body),some response⟩ : WorkEvent) ∈ h)
      (hsettles : Terminal.Settles job response outcome)

/-- The calls that neither claim, nor send, nor give back. -/
def quiet : WorkOp → Bool
  | .claim _ | .deliver _ | .publish _ | .release => false
  | _ => true

theorem quiet_event {e : WorkEvent} (he : quiet e.1 = true) :
    claimAnswer e = none ∧ sentResult e = none := by
  obtain ⟨o,r⟩ := e
  cases o <;> first | exact ⟨rfl,rfl⟩ | cases he

/-- Nothing was sent yet, and the intent is one the session works for. -/
structure Owning (L : Libraries) (listed : Intent) (intent : Intent) (h : List WorkEvent) : Prop where
  works : Works L listed h intent
  silent : h.filterMap sentResult = []

section
variable {L : Libraries} {listed intent : Intent} {h h' : List WorkEvent} {α β : Type}

theorem Works.append (hw : Works L listed h intent) : Works L listed (h ++ h') intent := by
  obtain rfl | ⟨answer,hanswer,session,rfl⟩ := hw
  · exact .inl rfl
  · exact .inr ⟨answer,by simp [hanswer],session,rfl⟩

theorem Owning.append (ho : Owning L listed intent h) (hquiet : ∀ e ∈ h', quiet e.1 = true) :
    Owning L listed intent (h ++ h') := by
  refine ⟨ho.works.append,?_⟩
  rw [List.filterMap_append, ho.silent, List.nil_append, List.filterMap_eq_nil_iff]
  exact fun e he => (quiet_event (hquiet e he)).2

theorem Resolved.snoc (hr : Resolved L listed h) {e : WorkEvent} (he : claimAnswer e = none) :
    Resolved L listed (h ++ [e]) := by
  have hsame : (h ++ [e]).filterMap claimAnswer = h.filterMap claimAnswer := by simp [he]
  cases hr with
  | unclaimed hnone => exact .unclaimed (hsame.trans hnone)
  | refused claim e hone hrefused => exact .refused claim e (hsame.trans hone) hrefused
  | notFound claim e hlast hmissing => exact .notFound claim e (hsame ▸ hlast) hmissing
  | confirmed intent request reply hworks hpost hreply =>
    exact .confirmed intent request reply hworks.append (List.mem_append_left _ hpost) hreply
  | observed intent lifecycle hworks hpoll hterminal =>
    exact .observed intent lifecycle hworks.append (List.mem_append_left _ hpoll) hterminal
  | published job response outcome hpost hsettles =>
    exact .published job response outcome (List.mem_append_left _ hpost) hsettles

theorem buildResult_only {c : WorkOp → Bool} (hctx : c (.wait .ctxErr) = true) (err : Option Err) :
    (buildResult err).Only fun o => c o = true := by
  cases err with
  | none => trivial
  | some e =>
    have hended {result : Option ContextError → WorkProg IntentResult}
        (h : ∀ ended, (result ended).Only fun o => c o = true) :
        (work (.wait .ctxErr) >>= result).Only fun o => c o = true :=
      Prog.only_bind (Prog.only_perform hctx) h
    have hresult (result : IntentResult) :
        (pure result : WorkProg IntentResult).Only fun o => c o = true := trivial
    simp only [buildResult]
    split
    · exact hresult _
    · exact Prog.only_ite (hresult _) (hended fun _ => Prog.only_ite (hresult _)
        (hended fun _ => Prog.only_ite (hresult _) (hresult _)))

end

section
variable {W : SessionWorker} {listed intent : Intent} {s : List WorkEvent} {ok : WorkOp → Prop}

theorem deliver_only (hok : ∀ o, ok (.deliver o)) (intent : Intent) (result : IntentResult) :
    (W.deliver intent result).Only ok :=
  (Prog.only_true _).relabel fun o _ => hok o

theorem awaitEnd_only (herr : ok .ctxErr) (hdone : ok .ctxDone) : awaitEnd.Only ok :=
  Prog.only_bind (Prog.only_perform herr) fun _ => Prog.only_ite trivial (Prog.only_perform hdone)

theorem deferred_only (hnotify : ok .notifyDispatch) (hrelease : ok .release) :
    (work .notifyDispatch >>= fun _ => work .release).Only ok :=
  Prog.only_bind (Prog.only_perform hnotify) fun _ => Prog.only_perform hrelease

theorem sessionKind_classified {kind : IntentKind} (h : classifyIntentKind intent.type = some kind) :
    kind = .sign ∧ sessionKind intent = ascii "SIGN" ∨
      kind = .dkg ∧ sessionKind intent = ascii "DKG" := by
  simp only [classifyIntentKind] at h
  split_ifs at h with hdkg hsign
  · exact .inr ⟨(Option.some.inj h).symm,hdkg⟩
  · exact .inl ⟨(Option.some.inj h).symm,hsign⟩

/-- The loop of the claim within the session. -/
def claimEvent (e : ClaimEvent) : WorkEvent := ⟨.claim e.1,e.2⟩

theorem claimEvent_answers (h : List ClaimEvent) :
    (h.map claimEvent).filterMap claimAnswer = h.filterMap attemptAnswer := by
  rw [List.filterMap_map]
  congr 1
  funext e
  obtain ⟨o,r⟩ := e
  cases o <;> rfl

theorem claim_meets {env : (o : WorkOp) → o.Ans → Prop} {pre : WorkOp → List WorkEvent → Prop}
    (hpre : ∀ o t, pre (.claim o) t) :
    ((claimWithRecovery W.libraries listed W.turns).relabel .claim fun _ r => r :
      WorkProg (ClaimResult × Option ClaimError)).Meets (Prog.tracing env pre)
      (fun r t => ∃ h, t = h.map claimEvent ∧ ClaimDecided W.libraries listed h r ∧
        (∀ e ∈ h, env (claimEvent e).1 (claimEvent e).2) ∧
        (r.2 = none → (r.1,none) ∈ t.filterMap claimAnswer)) [] := by
  have hstart : Trying W.libraries listed false [] := ⟨rfl,by simp⟩
  refine (Prog.Meets.relabel (f := WorkOp.claim) claimEvent (fun _ _ => rfl)
    (claimFrom_meets W.turns true hstart) fun o h _ => hpre o _).mono ?_
  rintro ⟨claim,err⟩ _ - ⟨h,rfl,hdecided,henv⟩
  refine ⟨h,List.nil_append _,hdecided,henv,?_⟩
  rintro rfl
  obtain ⟨answers,hanswers,-⟩ := hdecided.accepted
  rw [List.nil_append, claimEvent_answers, hanswers]
  simp

end

/-! A SIGN session that is granted all it asks for. -/

def signWorker : SessionWorker where
  libraries := plainCore
  texts := plainTexts
  localPartyID := primaryPartyID
  framePollInterval := Time.second
  gate := true
  dkgRunner := true
  publisher := true
  publisherReady := true
  turns := 1

def liveListed : Intent := { listedSign with sessionID := liveSession.sessionID }

def liveClaim : ClaimResult where
  session := liveSession
  intentID := liveListed.intentID
  sessionID := liveListed.sessionID
  type := ascii "SIGN"
  payload := claimedSign.payload
  deadline := liveListed.expiresAt

def signAnswer : (o : WorkOp) → Option o.Ans
  | .claim .ctxErr => some (none : Option ContextError)
  | .claim (.claimIntent _ _) => some (liveClaim,none)
  | .claim .notifyDispatch => some ()
  | .wait o => (granting o true).map (·.1)
  | .deliver o => (granting o true).map (·.1)
  | .now => some (Time.unixEpoch : Int)
  | .start _ _ | .close | .notifyDispatch | .release => some ()
  | .runnerErr => some (none : Option ContextError)
  | .dispatch | .runSignSession _ | .transportErr => some (none : Option Err)
  | .select => some Wake.finished
  | _ => none

theorem liveListed_run : ∃ h, (signWorker.runSessionWithClock liveListed).Ends h () ∧
    (∀ e ∈ h, lives e.1 e.2 = true) ∧ (h.filterMap sentResult).length = 1 ∧
    (h.filterMap coreCall).length = 1 := by
  have hplay : ((signWorker.runSessionWithClock liveListed).play signAnswer).any (fun r =>
      r.1.all (fun e => lives e.1 e.2) && (r.1.filterMap sentResult).length == 1 &&
        (r.1.filterMap coreCall).length == 1) = true := by
    decide +kernel
  obtain ⟨⟨h,_⟩,hrun,hfacts⟩ := (Option.any_eq_true _ _).mp hplay
  simp only [Bool.and_eq_true, beq_iff_eq, List.all_eq_true] at hfacts
  exact ⟨h,(Prog.ends_play hrun).1,hfacts.1.1,hfacts.1.2,hfacts.2⟩

end CoSigner.Worker
