import CoSigner.Worker.Ownership

/-! What a session has seen when it calls Core to sign. -/
namespace CoSigner.Worker
open Monolith

/-- The claim that was accepted, the session that was seen to run for it and the answer of the
gate. -/
structure Gated (W : SessionWorker) (listed : Intent) (claim : ClaimResult) (ready : Ready)
    (h : List WorkEvent) : Prop where
  unclaimed : listed.discoveryStatus ≠ ascii "CLAIMED"
  claimed : (claim,none) ∈ h.filterMap claimAnswer
  intentID : (claim.intent W.libraries).intentID = listed.intentID
  sessionID : (claim.intent W.libraries).sessionID = listed.sessionID
  orgID : (claim.intent W.libraries).payload.orgID = listed.payload.orgID
  keyID : (claim.intent W.libraries).payload.keyID = listed.payload.keyID
  deadline : claim.deadline = listed.expiresAt
  valid : validateIntent W.libraries W.texts W.localPartyID (claim.intent W.libraries) = none
  session : ∃ t, PinnedSession (claim.intent W.libraries) ready t ∧
    ∀ e ∈ t, (⟨.wait e.1,e.2⟩ : WorkEvent) ∈ h
  gate : W.gate = true
  authorized : (⟨.wait (.authorize { claim.intent W.libraries with session := ready.lifecycle }),
    (none : Option Err)⟩ : WorkEvent) ∈ h

/-- The request is for this intent, with the fixed parties. -/
structure SignSessionRequest.For (request : SignSessionRequest) (intent : Intent) : Prop where
  sessionID : request.sessionID = intent.sessionID
  orgID : request.orgID = intent.payload.orgID
  keyID : request.keyID = intent.payload.keyID
  digest : request.digest = intent.payload.digest
  derivation : ∃ ctx, intent.payload.derivationContext = some ctx ∧
    request.derivationContext = toCoreDerivationContext ctx
  threshold : request.threshold = 2
  parties : request.parties = [platformPartyID,primaryPartyID]

/-- Core is called once, with all that behind it, and a claim found CLAIMED is not repeated. -/
def gatingPre (W : SessionWorker) (listed : Intent) : WorkOp → List WorkEvent → Prop
  | .runSignSession request, h => h.filterMap coreCall = [] ∧ ∃ claim ready,
      Gated W listed claim ready h ∧ request.For (claim.intent W.libraries)
  | .claim _, _ => listed.discoveryStatus ≠ ascii "CLAIMED"
  | _, _ => True

abbrev gating (W : SessionWorker) (listed : Intent) :
    Discipline WorkOp WorkOp.Ans (List WorkEvent) :=
  Prog.tracing (fun _ _ => True) (gatingPre W listed)

/-- The calls that neither claim nor call Core. -/
def harmless : WorkOp → Bool
  | .claim _ | .runSignSession _ => false
  | _ => true

section
variable {W : SessionWorker} {listed intent : Intent} {claim : ClaimResult} {ready : Ready}
  {h h' s : List WorkEvent} {α β : Type}

theorem Gated.append (hg : Gated W listed claim ready h) :
    Gated W listed claim ready (h ++ h') := by
  obtain ⟨t,hpinned,hseen⟩ := hg.session
  exact { hg with
    claimed := by simp [hg.claimed]
    session := ⟨t,hpinned,fun e he => List.mem_append_left _ (hseen e he)⟩
    authorized := List.mem_append_left _ hg.authorized }

theorem harmlessly {p : WorkProg α} (hp : p.Only fun o => harmless o = true) (s : List WorkEvent) :
    p.Meets (gating W listed) (fun _ _ => True) s := by
  refine hp.meets ?_ s
  intro o h ho
  cases o with
  | claim | runSignSession => cases ho
  | _ => trivial

theorem harmlessly_then {p : WorkProg α} {f : α → WorkProg β}
    (hp : p.Meets (gating W listed) (fun _ _ => True) s)
    (hf : ∀ a, (f a).Only fun o => harmless o = true) :
    (p >>= f).Meets (gating W listed) (fun _ _ => True) s :=
  Prog.meets_bind (hp.mono fun a t _ _ => harmlessly (hf a) t)

theorem work_harmless {o : WorkOp} (ho : harmless o = true) :
    (work o).Only fun o => harmless o = true :=
  Prog.only_perform ho

theorem fail_harmless (intent : Intent) (err : Err) :
    (W.fail .sign intent err).Only fun o => harmless o = true :=
  Prog.only_bind (buildResult_only (c := harmless) rfl _) fun result =>
    deliver_only (fun _ => rfl) intent result

theorem settleClaim_harmless (listed : Intent) (e : ClaimError) :
    (W.settleClaim listed .sign e).Only fun o => harmless o = true := by
  refine Prog.only_ite (Prog.only_bind (work_harmless rfl) fun ended => ?_) trivial
  cases ended with
  | some e => trivial
  | none => exact deliver_only (fun _ => rfl) _ _

theorem buildSignRequest_for {request : SignSessionRequest}
    (hkind : sessionKind intent = ascii "SIGN")
    (hvalid : validateIntent W.libraries W.texts W.localPartyID intent = none)
    {session : SessionLifecycle}
    (h : buildSignRequest { intent with session := session } W.localPartyID = some request) :
    request.For intent := by
  obtain ⟨-,hthreshold,hparties,-,-⟩ := validateIntent_sign hkind hvalid
  obtain ⟨ctx,hctx,rfl⟩ := Option.map_eq_some_iff.mp h
  exact ⟨rfl,rfl,rfl,rfl,⟨ctx,hctx,rfl⟩,hthreshold,hparties⟩

theorem dispatchSign_gated (hg : Gated W listed claim ready s) (hnone : s.filterMap coreCall = [])
    (hfor : ∀ request, buildSignRequest intent W.localPartyID = some request →
      request.For (claim.intent W.libraries)) :
    (W.dispatchSign intent).Meets (gating W listed) (fun _ _ => True) s := by
  apply Prog.meets_perform trivial
  intro (ended : Option ContextError) _
  cases ended with
  | some e => exact Prog.meets_pure trivial
  | none =>
    apply Prog.meets_perform trivial
    intro (refused : Option Err) _
    cases refused with
    | some e => exact Prog.meets_pure trivial
    | none =>
      dsimp only
      split
      · exact fun _ _ _ => ⟨trivial,fun r => r.elim⟩
      · rename_i request hrequest
        exact Prog.meets_last ⟨by simp [hnone, coreCall],claim,ready,hg.append.append,
          hfor request hrequest⟩ fun _ _ => trivial

theorem runSign_gated (hg : Gated W listed claim ready s) (hnone : s.filterMap coreCall = [])
    (hfor : ∀ request, buildSignRequest intent W.localPartyID = some request →
      request.For (claim.intent W.libraries)) (expiry : Option Time) :
    (W.runSign intent expiry).Meets (gating W listed) (fun _ _ => True) s := by
  apply Prog.meets_perform trivial
  intro _ _
  refine harmlessly_then ?_ fun _ => Prog.only_bind (work_harmless rfl) fun _ =>
    Prog.only_bind (work_harmless rfl) fun _ =>
      Prog.only_bind (buildResult_only (c := harmless) rfl _) fun result => deliver_only (fun _ => rfl) _ result
  apply Prog.meets_perform trivial
  intro (ended : Option ContextError) _
  cases ended with
  | some e => exact Prog.meets_pure trivial
  | none =>
    refine harmlessly_then (dispatchSign_gated hg.append.append (by simp [hnone, coreCall]) hfor)
      fun _ => Prog.only_bind (work_harmless rfl) ?_
    intro (woken : Wake)
    cases woken with
    | finished => trivial
    | transportDone => exact Prog.only_bind (work_harmless rfl) fun _ => trivial
    | contextDone => exact Prog.only_bind (work_harmless rfl) fun _ => trivial

theorem authorizeSign_meets (gate : Bool) (intent : Intent) (turns : Nat) :
    (authorizeSign gate intent turns).Meets sessionDiscipline (fun r t => r = none →
      gate = true ∧ (⟨.authorize intent,(none : Option Err)⟩ : SessionEvent) ∈ t) [] := by
  cases gate with
  | false => exact Prog.meets_pure fun h => by cases h
  | true =>
    have hnone : PutOff intent [] := by simp [PutOff]
    refine (authorizeFrom_meets turns hnone).mono ?_
    rintro r t - hdecided rfl
    obtain ⟨h₁,-,rfl⟩ := hdecided
    exact ⟨rfl,by simp⟩

/-- The waits within the session. -/
def waitEvent (e : SessionEvent) : WorkEvent := ⟨.wait e.1,e.2⟩

theorem waitEvent_core (t : List SessionEvent) : (t.map waitEvent).filterMap coreCall = [] := by
  simp only [List.filterMap_map, List.filterMap_eq_nil_iff]
  exact fun e _ => rfl

theorem runReady_gated (hkind : sessionKind (claim.intent W.libraries) = ascii "SIGN")
    (hvalid : validateIntent W.libraries W.texts W.localPartyID (claim.intent W.libraries) = none)
    (hnone : s.filterMap coreCall = []) (r : Except ReadyError Ready)
    (hready : ∀ ready, r = .ok ready → ∀ t, W.gate = true →
      (⟨.wait (.authorize { claim.intent W.libraries with session := ready.lifecycle }),
        (none : Option Err)⟩ : WorkEvent) ∈ t → Gated W listed claim ready (s ++ t)) :
    (W.runReady .sign (claim.intent W.libraries) r).Meets (gating W listed) (fun _ _ => True) s := by
  cases r with
  | error e =>
    cases e with
    | panics =>
      refine harmlessly (Prog.only_bind (work_harmless rfl) fun _ => ?_) s
      exact ⟨rfl,fun r => r.elim⟩
    | _ => exact harmlessly (fail_harmless _ _) s
  | ok ready =>
    refine Prog.meets_bind ((Prog.Meets.relabel (f := WorkOp.wait) waitEvent (fun _ _ => rfl)
      (authorizeSign_meets W.gate _ W.turns) fun _ _ _ => trivial).mono ?_)
    rintro err _ - ⟨t,rfl,hdecided,-⟩
    cases err with
    | some e => exact harmlessly (fail_harmless _ _) _
    | none =>
      obtain ⟨hgate,hasked⟩ := hdecided rfl
      have hg := hready ready rfl (t.map waitEvent) hgate (List.mem_map_of_mem hasked)
      refine runSign_gated hg ?_ (fun _ hrequest => buildSignRequest_for hkind hvalid hrequest) _
      rw [List.filterMap_append, hnone, waitEvent_core, List.nil_append]

theorem runClaimed_gated (hsession : listed.sessionID ≠ []) (horg : listed.payload.orgID ≠ [])
    (hkey : listed.payload.keyID ≠ []) (hexpires : listed.expiresAt ≠ 0)
    (hstatus : listed.discoveryStatus ≠ ascii "CLAIMED")
    (hclaim : (claim,none) ∈ s.filterMap claimAnswer) (hnone : s.filterMap coreCall = []) :
    (W.runClaimed listed .sign claim).Meets (gating W listed) (fun _ _ => True) s := by
  unfold SessionWorker.runClaimed
  dsimp only
  split
  · exact harmlessly (awaitEnd_only rfl rfl) s
  · rename_i hsame
    split
    · exact harmlessly (deliver_only (fun _ => rfl) _ _) s
    · rename_i hidentity
      split
      · exact harmlessly (deliver_only (fun _ => rfl) _ _) s
      · rename_i hvalid
        refine Prog.meets_perform trivial ?_
        intro (now : Time) _
        refine Prog.meets_ite (fun _ => harmlessly (deliver_only (fun _ => rfl) _ _) _) fun _ => ?_
        have hkind : sessionKind (claim.intent W.libraries) = ascii "SIGN" :=
          (sessionKind_classified (not_not.mp hsame)).elim And.right fun hdkg => by cases hdkg.1
        refine Prog.meets_bind ((Prog.Meets.relabel (f := WorkOp.wait) waitEvent (fun _ _ => rfl)
          (waitForSessionReadiness_meets (.inl hkind) W.framePollInterval W.turns [])
            fun _ _ _ => trivial).mono ?_)
        rintro r _ - ⟨t,rfl,hwaited,-⟩
        refine runReady_gated hkind hvalid ?_ r ?_
        · rw [List.filterMap_append, waitEvent_core, List.filterMap_append, hnone]
          rfl
        · rintro ready rfl t' hgate hasked
          obtain ⟨hintent,hdeadline,hsessionID,horgID,hkeyID⟩ :=
            validateClaimIdentity_sign (by simpa using hidentity)
          exact {
            unclaimed := hstatus
            claimed := by simp [hclaim]
            intentID := hintent
            sessionID := hsessionID hsession
            orgID := horgID horg
            keyID := hkeyID hkey
            deadline := hdeadline hexpires
            valid := hvalid
            session := ⟨t,hwaited hkind,fun e he => List.mem_append_left _
              (List.mem_append_right _ (List.mem_map_of_mem he))⟩
            gate := hgate
            authorized := List.mem_append_right _ hasked }

theorem runAdmitted_gated (hsession : listed.sessionID ≠ []) (horg : listed.payload.orgID ≠ [])
    (hkey : listed.payload.keyID ≠ []) (hexpires : listed.expiresAt ≠ 0)
    (hstatus : listed.discoveryStatus ≠ ascii "CLAIMED") :
    (W.runAdmitted listed .sign).Meets (gating W listed) (fun _ _ => True) [] := by
  refine Prog.meets_bind ((claim_meets fun _ _ => hstatus).mono ?_)
  rintro ⟨claim,err⟩ _ - ⟨h,rfl,-,-,hanswered⟩
  cases err with
  | none =>
    refine runClaimed_gated hsession horg hkey hexpires hstatus (hanswered rfl) ?_
    simp only [List.filterMap_map, List.filterMap_eq_nil_iff]
    exact fun e _ => rfl
  | some e =>
    refine harmlessly (Prog.only_ite (deliver_only (fun _ => rfl) _ _)
      (Prog.only_bind (settleClaim_harmless _ _) ?_)) _
    exact fun _ => Prog.only_bind (work_harmless rfl) fun _ => work_harmless rfl

/-- A session calls Core to sign at most once, and only for the claim of the listed intent, after
the session was seen to run with time left and the gate has let the intent through; what it hands
over is that intent's. A SIGN that is listed as claimed is neither claimed nor signed. -/
theorem core_signs_only_gated (W : SessionWorker) (listed : Intent)
    (hkind : classifyIntentKind listed.type = some .sign) (hsession : listed.sessionID ≠ [])
    (horg : listed.payload.orgID ≠ []) (hkey : listed.payload.keyID ≠ [])
    (hexpires : listed.expiresAt ≠ 0) {h : List WorkEvent} :
    (∀ request k, (W.runSessionWithClock listed).After h (.call (.runSignSession request) k) →
      h.filterMap coreCall = [] ∧ ∃ claim ready, Gated W listed claim ready h ∧
        request.For (claim.intent W.libraries)) ∧
    (listed.discoveryStatus = ascii "CLAIMED" → ∀ o k,
      (W.runSessionWithClock listed).After h (.call o k) → harmless o = true) := by
  have hmeets : (W.runSessionWithClock listed).Meets (gating W listed) (fun _ _ => True) [] := by
    refine harmlessly_then ?_ fun _ => deferred_only rfl rfl
    unfold SessionWorker.runBody
    rw [hkind]
    refine Prog.meets_ite (fun _ => ?_) fun hopen => ?_
    · exact harmlessly (Prog.only_bind (work_harmless rfl) fun _ => deliver_only (fun _ => rfl) _ _) []
    · exact runAdmitted_gated hsession horg hkey hexpires fun hstatus => hopen ⟨rfl,hstatus⟩
  refine ⟨fun request k hrun => hmeets.awaits hrun fun _ _ => trivial,?_⟩
  intro hstatus o k hrun
  have hpre : gatingPre W listed o ([] ++ h) := hmeets.awaits hrun fun _ _ => trivial
  cases o with
  | claim o => exact absurd hstatus hpre
  | runSignSession request =>
    obtain ⟨-,_,_,hgated,-⟩ := hpre
    exact absurd hstatus hgated.unclaimed
  | _ => rfl

end
theorem core_signs_only_gated_sample : ∃ h request k claim ready,
    (signWorker.runSessionWithClock liveListed).After h (.call (.runSignSession request) k) ∧
      Gated signWorker liveListed claim ready h ∧ request.For (claim.intent plainCore) := by
  obtain ⟨h,hrun,-,-,hcore⟩ := liveListed_run
  obtain ⟨request,hcore⟩ := List.length_eq_one_iff.mp hcore
  obtain ⟨⟨o,r⟩,h₁,h₂,k,-,hrequest,hcall⟩ :=
    hrun.call_of_filterMap (hcore ▸ List.mem_singleton_self request)
  cases o with
  | runSignSession request' =>
    obtain ⟨-,claim,ready,hgated,hfor⟩ := (core_signs_only_gated signWorker liveListed
      (by decide +kernel) (by decide) (by decide) (by decide) (by decide)).1 request' k hcall
    exact ⟨h₁,request',k,claim,ready,hcall,hgated,hfor⟩
  | _ => cases hrequest

end CoSigner.Worker
