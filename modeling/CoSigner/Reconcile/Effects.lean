import CoSigner.Reconcile.Reconciler

/-! What reconciliation may ask of the backend and the stores, and what it returns, whatever
they answer. -/
namespace CoSigner.Reconcile
open Contract Monolith Sharestore Terminal
variable (L : Libraries)

abbrev History := List (CoSigner.Event ReconcileOp ReconcileOp.Answer)

/-- The listing passes `validateListing`. -/
structure ValidListing (now : Time) (listing : ActionableListing) : Prop where
  status : listing.httpStatus = 200
  own : listing.ownClaimedDKG.length ≤ 1
  intents : listingFault L now listing = none

/-- The whole listing has been validated and the preflight has succeeded. -/
def Checked (listing : ActionableListing) (h : History) : Prop :=
  ∃ now rest, h = ⟨.listActionableIntents,.ok listing⟩ :: ⟨.now,now⟩ :: ⟨.preflight,none⟩ :: rest ∧
    ValidListing L now listing

/-- The listed DKG intents. -/
def dkgs (listing : ActionableListing) : List ActionableIntent := (actionable listing).map (·.1)

/-- An existence check that succeeded. -/
def existence : CoSigner.Event ReconcileOp ReconcileOp.Answer → Option (StorePurpose × Bytes × Bool)
  | ⟨.exists_ store keyID,.ok found⟩ => some (store,keyID,found)
  | _ => none

def ClassifiedIntent.answers (item : ClassifiedIntent) : List (StorePurpose × Bytes × Bool) :=
  [(.primary,item.intent.keyID,item.primaryExists),(.recovery,item.intent.keyID,item.recoveryExists)]

/-- Every existence check has succeeded, with the answers that `items` record. -/
structure Surveyed (listing : ActionableListing) (items : List ClassifiedIntent) (h : History) :
    Prop where
  checked : Checked L listing h
  listed : items.map (fun item => (item.intent,item.claimed)) = actionable listing
  answers : h.filterMap existence = items.flatMap ClassifiedIntent.answers

def isClaim (e : CoSigner.Event ReconcileOp ReconcileOp.Answer) : Prop :=
  ∃ intentType intentID, e.1 = .claimIntent intentType intentID

/-- A valid job, built for the listed intent, session and key. -/
structure JobFor (intent : ActionableIntent) (job : Job) : Prop where
  built : newFailedJob L intent.intentID intent.sessionID intent.keyID = some job ∨
    ∃ input : CompletedInput, input.intentID = intent.intentID ∧
      input.sessionID = intent.sessionID ∧ input.keyID = intent.keyID ∧
      newCompletedJob L input = some job
  intentID : job.intentID = intent.intentID
  named : job.intentID ≠ []
  body : job.body ≠ []

/-- The item is the only candidate, a pending DKG with an artifact, and nothing is claimed. -/
structure Retirable (listing : ActionableListing) (items : List ClassifiedIntent)
    (item : ClassifiedIntent) : Prop where
  single : items.filter ClassifiedIntent.candidate = [item]
  artifact : item.primaryExists = true ∨ item.recoveryExists = true
  pending : item.intent ∈ listing.pending
  dkg : item.intent.type = ascii "DKG"
  unclaimed : listing.ownClaimedDKG = []

/-- When each call is made. -/
def Allowed : ReconcileOp → History → Prop
  | .exists_ _ keyID, h => ∃ listing intent, Checked L listing h ∧ intent ∈ dkgs listing ∧
      keyID = intent.keyID
  | .inspectExisting _ expected, h => ∃ listing intent, Checked L listing h ∧
      intent ∈ listing.ownClaimedDKG ∧ expected.keyID = intent.keyID
  | .claimIntent intentType intentID, h => (∀ e ∈ h, ¬isClaim e) ∧ ∃ listing items item,
      Surveyed L listing items h ∧ Retirable listing items item ∧
        intentType = ascii "DKG" ∧ intentID = item.intent.intentID
  | _, _ => True

/-- How a run goes that returns `r`: it lists, several own claimed intents stop it at once, and
otherwise a listing and a preflight in order are followed by every existence check, up to one that
fails. -/
structure Course (r : Except ReconcileError Result) (h : History) : Prop where
  listed : ∃ answer rest, h = ⟨.listActionableIntents,answer⟩ :: rest
  several : ∀ listing rest, h = ⟨.listActionableIntents,.ok listing⟩ :: rest →
    2 ≤ listing.ownClaimedDKG.length → (∃ reason, r = .ok (protocolIntegrity reason)) ∧ rest = []
  surveyed : ∀ listing, Checked L listing h →
    (∃ store keyID e, ⟨.exists_ store keyID,.error e⟩ ∈ h) ∨ ∃ items, Surveyed L listing items h

/-- What a run has come to when it returns `r`. -/
structure Concluded (r : Except ReconcileError Result) (h : History) : Prop where
  course : Course L r h
  jobs : ∀ result job, r = .ok result → result.job = some job →
    ∃ listing intent, Checked L listing h ∧ intent ∈ dkgs listing ∧ JobFor L intent job
  conflict : ∀ listing items, Surveyed L listing items h →
    2 ≤ items.countP ClassifiedIntent.candidate →
      (∃ reason, r = .ok (protocolIntegrity reason)) ∧ ∀ e ∈ h, ¬isClaim e

variable {L}

theorem validateDKGIntent_job {intent : ActionableIntent} (h : validateDKGIntent L intent = none) :
    intent.intentID ≠ [] ∧
      ∃ job, newFailedJob L intent.intentID intent.sessionID intent.keyID = some job := by
  unfold validateDKGIntent at h
  split at h
  · cases h
  · rename_i hids
    split at h
    · cases h
    · rename_i hjob
      simp only [Bool.or_eq_true, not_or, List.isEmpty_iff] at hids
      exact ⟨hids.1.1.1.1.1,Option.ne_none_iff_exists'.mp (by simpa using hjob)⟩

theorem validateOwnClaimed_ok {intents : List ActionableIntent} {seen seen' : List Bytes}
    (h : validateOwnClaimed L seen intents = .ok seen') :
    ∀ intent ∈ intents, validateDKGIntent L intent = none := by
  induction intents generalizing seen with
  | nil => simp
  | cons intent rest ih =>
    unfold validateOwnClaimed at h
    split at h
    · cases h
    · split at h
      · cases h
      · rename_i hvalid
        split at h
        · cases h
        · exact List.forall_mem_cons.mpr ⟨hvalid,ih h⟩

theorem validatePendingIntent_dkg {now : Time} {intent : ActionableIntent}
    (h : validatePendingIntent L now intent = none) (hd : intent.type = ascii "DKG") :
    validateDKGIntent L intent = none := by
  have hsign : (ascii "DKG" == ascii "SIGN") = false := by decide
  unfold validatePendingIntent at h
  rw [hd, hsign] at h
  split at h
  · cases h
  · simp only [Bool.false_eq_true, if_false, beq_self_eq_true, if_true] at h
    split at h
    · cases h
    · assumption

theorem validatePending_none {now : Time} {intents : List ActionableIntent} {seen : List Bytes}
    (h : validatePending L now seen intents = none) :
    ∀ intent ∈ intents, validatePendingIntent L now intent = none := by
  induction intents generalizing seen with
  | nil => simp
  | cons intent rest ih =>
    unfold validatePending at h
    split at h
    · cases h
    · rename_i hvalid
      split at h
      · cases h
      · exact List.forall_mem_cons.mpr ⟨hvalid,ih h⟩

theorem mem_actionable {listing : ActionableListing} {intent : ActionableIntent} {claimed : Bool} :
    (intent,claimed) ∈ actionable listing ↔
      claimed = true ∧ intent ∈ listing.ownClaimedDKG ∨
      claimed = false ∧ intent ∈ listing.pending ∧ intent.type = ascii "DKG" := by
  cases claimed <;> simp [actionable]

/-- The listing and the constructor of jobs accept the same identities. -/
theorem ValidListing.dkg {now : Time} {listing : ActionableListing} (h : ValidListing L now listing)
    {intent : ActionableIntent} (hi : intent ∈ dkgs listing) : validateDKGIntent L intent = none := by
  have hf := h.intents
  unfold listingFault at hf
  split at hf
  · cases hf
  · rename_i hown
    split at hf
    · cases hf
    · rename_i hpending
      obtain ⟨⟨_,claimed⟩,hmem,rfl⟩ := List.mem_map.mp hi
      obtain ⟨-,hmem⟩ | ⟨-,hmem,hdkg⟩ := mem_actionable.mp hmem
      · exact validateOwnClaimed_ok hown _ hmem
      · exact validatePendingIntent_dkg (validatePending_none hpending _ hmem) hdkg

theorem Checked.dkg {listing : ActionableListing} {h : History} (hc : Checked L listing h)
    {intent : ActionableIntent} (hi : intent ∈ dkgs listing) : validateDKGIntent L intent = none := by
  obtain ⟨now,rest,-,hv⟩ := hc
  exact hv.dkg hi

theorem Checked.append {listing : ActionableListing} {h : History} (hc : Checked L listing h)
    (t : History) : Checked L listing (h ++ t) := by
  obtain ⟨now,rest,rfl,hv⟩ := hc
  exact ⟨now,rest ++ t,rfl,hv⟩

theorem Checked.unique {listing listing' : ActionableListing} {h : History}
    (hc : Checked L listing h) (hc' : Checked L listing' h) : listing = listing' := by
  obtain ⟨now,rest,rfl,-⟩ := hc
  obtain ⟨now',rest',heq,-⟩ := hc'
  simpa using (List.cons.inj heq).1

theorem items_unique {items items' : List ClassifiedIntent}
    (hl : items.map (fun item => (item.intent,item.claimed)) =
      items'.map (fun item => (item.intent,item.claimed)))
    (ha : items.flatMap ClassifiedIntent.answers = items'.flatMap ClassifiedIntent.answers) :
    items = items' := by
  induction items generalizing items' with
  | nil => exact (List.map_eq_nil_iff.mp hl.symm).symm
  | cons item rest ih =>
    cases items' with
    | nil => cases hl
    | cons item' rest' =>
      obtain ⟨hhead,htail⟩ := List.cons.inj hl
      obtain ⟨hfirst,hrest⟩ := List.append_inj ha rfl
      obtain rfl := ih htail hrest
      cases item
      cases item'
      simp_all [ClassifiedIntent.answers]

theorem newJob_named {result : TerminalResultV1} {job : Job} (h : newJob L result = some job) :
    job.intentID = result.intentID ∧ job.body ≠ [] := by
  simp only [newJob, TerminalRequestV1.marshal, Option.bind_eq_bind, Option.bind_eq_some_iff,
    Option.some.injEq] at h
  obtain ⟨raw,-,body,⟨compacted,-,rfl⟩,rfl⟩ := h
  exact ⟨rfl,by simp [Json.object]⟩

theorem jobFor_failed {intent : ActionableIntent} {job : Job} (hn : intent.intentID ≠ [])
    (h : newFailedJob L intent.intentID intent.sessionID intent.keyID = some job) :
    JobFor L intent job := by
  obtain ⟨hid,hbody⟩ := newJob_named h
  exact ⟨.inl h,hid,fun h => hn (hid.symm.trans h),hbody⟩

theorem jobFor_completed {intent : ActionableIntent} {job : Job} {input : CompletedInput}
    (hn : intent.intentID ≠ []) (hi : input.intentID = intent.intentID)
    (hs : input.sessionID = intent.sessionID) (hk : input.keyID = intent.keyID)
    (h : newCompletedJob L input = some job) : JobFor L intent job := by
  obtain ⟨hid,hbody⟩ := newJob_named h
  replace hid : job.intentID = intent.intentID := hid.trans hi
  exact ⟨.inr ⟨input,hi,hs,hk,h⟩,hid,fun h => hn (hid.symm.trans h),hbody⟩

section
variable {listing : ActionableListing} {items : List ClassifiedIntent} {h : History}

theorem Surveyed.mem (hs : Surveyed L listing items h) {item : ClassifiedIntent}
    (hi : item ∈ items) : (item.intent,item.claimed) ∈ actionable listing := by
  rw [← hs.listed]
  exact List.mem_map.mpr ⟨item,hi,rfl⟩

theorem Surveyed.unique {listing' : ActionableListing} {items' : List ClassifiedIntent}
    (hs : Surveyed L listing items h) (hs' : Surveyed L listing' items' h) : items = items' := by
  obtain rfl := hs.checked.unique hs'.checked
  exact items_unique (hs.listed.trans hs'.listed.symm) (hs.answers.symm.trans hs'.answers)

theorem Surveyed.retirable (hs : Surveyed L listing items h) {item : ClassifiedIntent}
    (hone : items.filter ClassifiedIntent.candidate = [item]) (hc : item.claimed = false) :
    Retirable listing items item := by
  obtain ⟨hi,hcand⟩ := List.mem_filter.mp (hone ▸ List.mem_singleton_self item)
  have hmem := hs.mem hi
  rw [hc] at hmem
  obtain ⟨hpending,hdkg⟩ : item.intent ∈ listing.pending ∧ item.intent.type = ascii "DKG" := by
    simpa using mem_actionable.mp hmem
  refine ⟨hone,by simpa [ClassifiedIntent.candidate, hc] using hcand,hpending,hdkg,?_⟩
  refine List.eq_nil_iff_forall_not_mem.mpr fun intent hintent => ?_
  have hlisted : (intent,true) ∈ actionable listing := mem_actionable.mpr (.inl ⟨rfl,hintent⟩)
  rw [← hs.listed] at hlisted
  obtain ⟨other,hother,heq⟩ := List.mem_map.mp hlisted
  obtain ⟨-,hclaimed⟩ := Prod.mk.inj heq
  have hmem := List.mem_filter.mpr ⟨hother,show other.candidate = true by
    simp [ClassifiedIntent.candidate, hclaimed]⟩
  rw [hone, List.mem_singleton] at hmem
  rw [hmem, hc] at hclaimed
  cases hclaimed

theorem Checked.listed (hc : Checked L listing h) :
    ∃ answer rest, h = ⟨.listActionableIntents,answer⟩ :: rest := by
  obtain ⟨_,_,rfl,-⟩ := hc
  exact ⟨_,_,rfl⟩

theorem Checked.single (hc : Checked L listing h) {listing' : ActionableListing} {rest : History}
    (he : h = ⟨.listActionableIntents,.ok listing'⟩ :: rest) :
    ¬2 ≤ listing'.ownClaimedDKG.length := by
  obtain ⟨_,_,rfl,hv⟩ := hc
  cases he
  exact Nat.not_le.mpr (Nat.lt_succ_of_le hv.own)

theorem Surveyed.course (hs : Surveyed L listing items h) (r : Except ReconcileError Result) :
    Course L r h := by
  refine ⟨hs.checked.listed,fun _ _ he htwo => absurd htwo (hs.checked.single he),?_⟩
  intro listing' hc
  obtain rfl := hs.checked.unique hc
  exact .inr ⟨items,hs⟩

theorem Checked.course_failed (hc : Checked L listing h) (r : Except ReconcileError Result)
    {store : StorePurpose} {keyID : Bytes} {e : Err}
    (hfailed : ⟨.exists_ store keyID,.error e⟩ ∈ h) : Course L r h :=
  ⟨hc.listed,fun _ _ he htwo => absurd htwo (hc.single he),fun _ _ => .inl ⟨store,keyID,e,hfailed⟩⟩

theorem concluded_jobless {r : Except ReconcileError Result} (hcourse : Course L r h)
    (hj : ∀ result, r = .ok result → result.job = none)
    (hone : ∀ listing items, Surveyed L listing items h →
      items.countP ClassifiedIntent.candidate ≤ 1) : Concluded L r h := by
  refine ⟨hcourse,fun result job hr hjob => ?_,fun listing items hs htwo => ?_⟩
  · rw [hj result hr] at hjob
    cases hjob
  · have := hone listing items hs
    omega

theorem failedJob_for {intent : ActionableIntent} (hv : validateDKGIntent L intent = none) :
    JobFor L intent (failedJob L intent) := by
  obtain ⟨hn,job,hjob⟩ := validateDKGIntent_job hv
  rw [failedJob, hjob]
  exact jobFor_failed hn hjob

theorem resolveClaim_job {intent : ActionableIntent} {claim : ClaimResult}
    {err : Option ClaimError} {result : Result} {job : Job}
    (hv : validateDKGIntent L intent = none)
    (h : resolveClaim L intent claim err = .ok result) (hj : result.job = some job) :
    JobFor L intent job := by
  unfold resolveClaim at h
  split at h
  · split at h
    · obtain rfl := Except.ok.inj h
      cases hj
    · cases h
  · split at h
    · obtain rfl := Except.ok.inj h
      cases hj
    · rename_i hclaim
      split at h
      · cases h
      · rename_i job' hjob
        obtain rfl := Except.ok.inj h
        obtain rfl := Option.some.inj hj
        unfold validateClaim at hclaim
        split at hclaim
        · cases hclaim
        · split at hclaim
          · cases hclaim
          · rename_i hids
            simp only [Bool.or_eq_true, not_or, bne_iff_ne, ne_eq, not_not] at hids
            rw [hids.1.1.1, hids.1.1.2, hids.1.2] at hjob
            exact jobFor_failed (validateDKGIntent_job hv).1 hjob

end

section
variable {listing : ActionableListing} {items : List ClassifiedIntent} {h : History}

abbrev bounded (L : Libraries) : Discipline ReconcileOp ReconcileOp.Answer History :=
  Prog.tracing (fun _ _ => True) (Allowed L)

theorem reconstructClaimed_meets {intent : ActionableIntent} {primaryExists recoveryExists : Bool}
    (hc : Checked L listing h) (hi : intent ∈ listing.ownClaimedDKG) :
    (reconstructClaimed L intent primaryExists recoveryExists).Meets (bounded L)
      (fun job h' => (∃ t, h' = h ++ t) ∧ h'.filterMap existence = h.filterMap existence ∧
        JobFor L intent job) h := by
  have hmem : intent ∈ dkgs listing :=
    List.mem_map.mpr ⟨(intent,true),mem_actionable.mpr (.inl ⟨rfl,hi⟩),rfl⟩
  have hv := hc.dkg hmem
  have hfailed := failedJob_for hv
  show Prog.Meets _ (if _ then _ else _) _ _
  split
  · exact Prog.meets_pure ⟨⟨[],by simp⟩,rfl,hfailed⟩
  · refine Prog.meets_perform ⟨listing,intent,hc,hi,rfl⟩ ?_
    intro (primary : Except InspectError ArtifactEvidence) _
    cases primary with
    | error e => exact Prog.meets_pure ⟨⟨_,rfl⟩,by simp [existence],hfailed⟩
    | ok primary =>
      refine Prog.meets_perform ⟨listing,intent,hc.append _,hi,rfl⟩ ?_
      intro (recovery : Except InspectError ArtifactEvidence) _
      rw [List.append_assoc]
      cases recovery with
      | error e => exact Prog.meets_pure ⟨⟨_,rfl⟩,by simp [existence],hfailed⟩
      | ok recovery =>
        show Prog.Meets _ (if _ then _ else _) _ _
        split
        · refine Prog.meets_pure ⟨⟨_,rfl⟩,by simp [existence],?_⟩
          cases hjob : newCompletedJob L (completedInput intent primary recovery) with
          | none => exact hfailed
          | some job => exact jobFor_completed (validateDKGIntent_job hv).1 rfl rfl rfl hjob
        · exact Prog.meets_pure ⟨⟨_,rfl⟩,by simp [existence],hfailed⟩

theorem Surveyed.append (hs : Surveyed L listing items h) {t : History}
    (ht : t.filterMap existence = []) : Surveyed L listing items (h ++ t) :=
  ⟨hs.checked.append t,hs.listed,by rw [List.filterMap_append, ht, List.append_nil, hs.answers]⟩

theorem Surveyed.concluded (hs : Surveyed L listing items h)
    (hone : items.countP ClassifiedIntent.candidate ≤ 1) {r : Except ReconcileError Result}
    (hjobs : ∀ result job, r = .ok result → result.job = some job →
      ∃ intent ∈ dkgs listing, JobFor L intent job) : Concluded L r h := by
  refine ⟨hs.course r,fun result job hr hjob => ?_,fun listing' items' hs' htwo => ?_⟩
  · obtain ⟨intent,hi,hfor⟩ := hjobs result job hr hjob
    exact ⟨listing,intent,hs.checked,hi,hfor⟩
  · rw [← hs.unique hs'] at htwo
    omega

theorem resolve_meets (hs : Surveyed L listing items h) (hfresh : ∀ e ∈ h, ¬isClaim e)
    {item : ClassifiedIntent} (hone : items.filter ClassifiedIntent.candidate = [item])
    {rest : List ClassifiedIntent} (hrest : rest.filter ClassifiedIntent.candidate = [item]) :
    (resolve L rest).Meets (bounded L) (Concluded L) h := by
  have hcount : items.countP ClassifiedIntent.candidate ≤ 1 := by
    rw [List.countP_eq_length_filter, hone, List.length_singleton]
  have hitem : item ∈ items := (List.mem_filter.mp (hone ▸ List.mem_singleton_self item)).1
  have hdkg : item.intent ∈ dkgs listing := List.mem_map.mpr ⟨_,hs.mem hitem,rfl⟩
  induction rest with
  | nil => cases hrest
  | cons first rest ih =>
    rw [List.filter_cons] at hrest
    show Prog.Meets _ (if _ then _ else _) _ _
    by_cases hcand : first.candidate = true
    · rw [if_pos hcand] at hrest
      obtain rfl : first = item := (List.cons.inj hrest).1
      by_cases hclaimed : first.claimed = true
      · rw [if_pos hclaimed]
        have hown : first.intent ∈ listing.ownClaimedDKG := by
          have hmem := hs.mem hitem
          rw [hclaimed] at hmem
          simpa using mem_actionable.mp hmem
        refine Prog.meets_bind ((reconstructClaimed_meets hs.checked hown).mono ?_)
        rintro job _ - ⟨⟨t,rfl⟩,hsame,hfor⟩
        have ht : t.filterMap existence = [] := by simpa using hsame
        refine Prog.meets_pure ((hs.append ht).concluded hcount ?_)
        rintro result job' hr hjob
        obtain rfl := Except.ok.inj hr
        obtain rfl := Option.some.inj hjob
        exact ⟨first.intent,hdkg,hfor⟩
      · have hunclaimed := Bool.eq_false_iff.mpr hclaimed
        have hartifact : ¬(!first.primaryExists && !first.recoveryExists) = true := by
          simpa [ClassifiedIntent.candidate, hunclaimed, or_iff_not_imp_left] using hcand
        rw [if_neg hclaimed, if_neg hartifact]
        refine Prog.meets_perform
          ⟨hfresh,listing,items,first,hs,hs.retirable hone hunclaimed,rfl,rfl⟩ ?_
        rintro ⟨claim,err⟩ -
        refine Prog.meets_pure ((hs.append (t := [_]) rfl).concluded hcount ?_)
        intro result job hr hjob
        exact ⟨first.intent,hdkg,resolveClaim_job (hs.checked.dkg hdkg) hr hjob⟩
    · rw [if_neg hcand] at hrest
      have hplain : first.claimed = false ∧ first.primaryExists = false ∧
          first.recoveryExists = false := by
        simpa [ClassifiedIntent.candidate, and_assoc] using hcand
      rw [if_neg (by simp [hplain]), if_pos (by simp [hplain])]
      exact ih hrest

theorem dispose_meets (hs : Surveyed L listing items h) (hfresh : ∀ e ∈ h, ¬isClaim e) :
    (dispose L items).Meets (bounded L) (Concluded L) h := by
  show Prog.Meets _ (if _ then _ else _) _ _
  split
  · refine Prog.meets_pure ⟨hs.course _,fun result job hr hjob => ?_,
      fun _ _ _ _ => ⟨⟨_,rfl⟩,hfresh⟩⟩
    obtain rfl := Except.ok.inj hr
    cases hjob
  · rename_i hmany
    split
    · refine Prog.meets_pure (hs.concluded (by omega) fun result job hr hjob => ?_)
      obtain rfl := Except.ok.inj hr
      cases hjob
    · rename_i hsome
      have hlen : (items.filter ClassifiedIntent.candidate).length = 1 := by
        rw [← List.countP_eq_length_filter]
        omega
      obtain ⟨item,hone⟩ := List.length_eq_one_iff.mp hlen
      exact resolve_meets hs hfresh hone hone

/-- What a survey in progress has found: `done` are the items whose checks have succeeded. -/
structure Surveying (L : Libraries) (listing : ActionableListing) (done : List ClassifiedIntent)
    (rest : List (ActionableIntent × Bool)) (h : History) : Prop where
  checked : Checked L listing h
  listed : done.map (fun item => (item.intent,item.claimed)) ++ rest = actionable listing
  answers : h.filterMap existence = done.flatMap ClassifiedIntent.answers
  fresh : ∀ e ∈ h, ¬isClaim e

theorem answers_length (items : List ClassifiedIntent) :
    (items.flatMap ClassifiedIntent.answers).length = 2 * items.length := by
  simp [List.length_flatMap, ClassifiedIntent.answers, Nat.mul_comm]

theorem Surveying.incomplete {done : List ClassifiedIntent} {item : ActionableIntent × Bool}
    {rest : List (ActionableIntent × Bool)} (hs : Surveying L listing done (item :: rest) h)
    {t : History} (ht : (t.filterMap existence).length ≤ 1) {listing' : ActionableListing}
    {items' : List ClassifiedIntent} : ¬Surveyed L listing' items' (h ++ t) := by
  intro hs'
  obtain rfl := (hs.checked.append t).unique hs'.checked
  have hlisted := congrArg List.length (hs.listed.trans hs'.listed.symm)
  have hanswers := congrArg List.length hs'.answers
  rw [List.filterMap_append, hs.answers, List.length_append, answers_length, answers_length] at hanswers
  simp only [List.length_append, List.length_map, List.length_cons] at hlisted
  omega

theorem Surveying.allowed {done : List ClassifiedIntent} {intent : ActionableIntent}
    {claimed : Bool} {rest : List (ActionableIntent × Bool)} {t : History} {store : StorePurpose}
    (hs : Surveying L listing done ((intent,claimed) :: rest) h) :
    Allowed L (.exists_ store intent.keyID) (h ++ t) := by
  refine ⟨listing,intent,hs.checked.append t,List.mem_map.mpr ⟨(intent,claimed),?_,rfl⟩,rfl⟩
  rw [← hs.listed]
  exact List.mem_append_right _ List.mem_cons_self

theorem survey_meets {done : List ClassifiedIntent} {rest : List (ActionableIntent × Bool)}
    (hs : Surveying L listing done rest h) :
    (survey rest).Meets (bounded L) (fun r h' =>
      (∀ more, r = .ok more → Surveying L listing (done ++ more) [] h') ∧
        ∀ result, r = .error result → result.job = none ∧ Checked L listing h' ∧
          (∃ store keyID e, ⟨.exists_ store keyID,.error e⟩ ∈ h') ∧
          ∀ listing items, ¬Surveyed L listing items h') h := by
  induction rest generalizing done h with
  | nil =>
    refine Prog.meets_pure ⟨fun more hm => ?_,fun result hr => by cases hr⟩
    obtain rfl := Except.ok.inj hm
    simpa using hs
  | cons item rest ih =>
    obtain ⟨intent,claimed⟩ := item
    have hallowed : Allowed L (.exists_ .primary intent.keyID) (h ++ []) := hs.allowed
    rw [List.append_nil] at hallowed
    refine Prog.meets_perform hallowed ?_
    intro (primary : Except Err Bool) _
    cases primary with
    | error e =>
      refine Prog.meets_pure ⟨fun more hm => (nomatch hm),fun result hr => ?_⟩
      obtain rfl := Except.error.inj hr
      refine ⟨rfl,hs.checked.append _,⟨.primary,intent.keyID,e,by simp⟩,
        fun _ _ => hs.incomplete ?_⟩
      exact Nat.zero_le 1
    | ok primaryExists =>
      refine Prog.meets_perform hs.allowed ?_
      intro (recovery : Except Err Bool) _
      rw [List.append_assoc]
      cases recovery with
      | error e =>
        refine Prog.meets_pure ⟨fun more hm => (nomatch hm),fun result hr => ?_⟩
        obtain rfl := Except.error.inj hr
        refine ⟨rfl,hs.checked.append _,⟨.recovery,intent.keyID,e,by simp⟩,
          fun _ _ => hs.incomplete ?_⟩
        exact Nat.le_refl 1
      | ok recoveryExists =>
        have hnext : Surveying L listing
            (done ++ [⟨intent,primaryExists,recoveryExists,claimed⟩]) rest
            (h ++ [⟨.exists_ .primary intent.keyID,.ok primaryExists⟩,
              ⟨.exists_ .recovery intent.keyID,.ok recoveryExists⟩]) := by
          refine ⟨hs.checked.append _,by simpa using hs.listed,?_,?_⟩
          · rw [List.filterMap_append, hs.answers, List.flatMap_append]
            rfl
          · intro e he
            simp only [List.mem_append, List.mem_cons, List.not_mem_nil, or_false] at he
            obtain he | rfl | rfl := he
            · exact hs.fresh e he
            · rintro ⟨_,_,⟨⟩⟩
            · rintro ⟨_,_,⟨⟩⟩
        refine Prog.meets_bind ((ih hnext).mono ?_)
        rintro r h' - ⟨hok,herror⟩
        refine Prog.meets_pure ⟨fun more hm => ?_,fun result hr => ?_⟩
        · cases r with
          | error result => cases hm
          | ok items =>
            obtain rfl := Except.ok.inj hm
            simpa using hok items rfl
        · cases r with
          | error result' =>
            obtain rfl := Except.error.inj hr
            exact herror result' rfl
          | ok items => cases hr

theorem reconcileListed_meets {now : Time} (hv : ValidListing L now listing) :
    (reconcileListed L listing).Meets (bounded L) (Concluded L)
      [⟨.listActionableIntents,.ok listing⟩,⟨.now,now⟩] := by
  refine Prog.meets_perform trivial ?_
  intro (failed : Option Err) _
  cases failed with
  | some e =>
    refine Prog.meets_perform trivial ?_
    intro (stopped : Option Err) _
    have hnone (listing' : ActionableListing) (items : List ClassifiedIntent) :
        ¬Surveyed L listing' items ([⟨.listActionableIntents,.ok listing⟩,⟨.now,now⟩] ++
          [⟨.preflight,some e⟩] ++ [⟨.ctxErr,stopped⟩]) := by
      rintro ⟨⟨_,_,heq,-⟩,-,-⟩
      simp at heq
    have hcourse (r : Except ReconcileError Result) :
        Course L r ([⟨.listActionableIntents,.ok listing⟩,⟨.now,now⟩] ++
          [⟨.preflight,some e⟩] ++ [⟨.ctxErr,stopped⟩]) := by
      refine ⟨⟨_,_,rfl⟩,?_,?_⟩
      · intro listing' rest heq htwo
        cases heq
        exact absurd htwo (Nat.not_le.mpr (Nat.lt_succ_of_le hv.own))
      · rintro listing' ⟨_,_,heq,-⟩
        simp at heq
    cases stopped with
    | some ctxErr =>
      exact Prog.meets_pure (concluded_jobless (hcourse _) (by simp)
        fun _ _ hs => absurd hs (hnone _ _))
    | none =>
      refine Prog.meets_pure (concluded_jobless (hcourse _) ?_
        fun _ _ hs => absurd hs (hnone _ _))
      rintro result hr
      obtain rfl := Except.ok.inj hr
      rfl
  | none =>
    have hstart : Surveying L listing [] (actionable listing)
        ([⟨.listActionableIntents,.ok listing⟩,⟨.now,now⟩] ++ [⟨.preflight,none⟩]) := by
      refine ⟨⟨now,[],rfl,hv⟩,rfl,rfl,?_⟩
      simp [isClaim]
    refine Prog.meets_bind ((survey_meets hstart).mono ?_)
    rintro r h' - ⟨hok,herror⟩
    cases r with
    | error result =>
      obtain ⟨hjob,hc,⟨_,_,_,hfailed⟩,hnone⟩ := herror result rfl
      refine Prog.meets_pure (concluded_jobless (hc.course_failed _ hfailed) ?_
        fun _ _ hs => absurd hs (hnone _ _))
      rintro result' hr
      obtain rfl := Except.ok.inj hr
      exact hjob
    | ok items =>
      have hs := hok items rfl
      exact dispose_meets ⟨hs.checked,by simpa using hs.listed,hs.answers⟩ hs.fresh

end

theorem validateListing_meets (L : Libraries) (listing : ActionableListing) :
    (validateListing L listing).Meets (bounded L) (fun r h =>
      (∀ result, r = some result → (∃ reason, result = protocolIntegrity reason) ∧
        (h = [⟨.listActionableIntents,.ok listing⟩] ∨ listing.ownClaimedDKG.length ≤ 1 ∧
          ∃ now, h = [⟨.listActionableIntents,.ok listing⟩,⟨.now,now⟩])) ∧
        (r = none → ∃ now, h = [⟨.listActionableIntents,.ok listing⟩,⟨.now,now⟩] ∧
          ValidListing L now listing)) [⟨.listActionableIntents,.ok listing⟩] := by
  show Prog.Meets _ (if _ then _ else _) _ _
  split
  · refine Prog.meets_pure ⟨fun result hr => ?_,fun hr => by cases hr⟩
    obtain rfl := Option.some.inj hr
    exact ⟨⟨_,rfl⟩,.inl rfl⟩
  · rename_i hstatus
    split
    · refine Prog.meets_pure ⟨fun result hr => ?_,fun hr => by cases hr⟩
      obtain rfl := Option.some.inj hr
      exact ⟨⟨_,rfl⟩,.inl rfl⟩
    · rename_i hown
      refine Prog.meets_perform trivial ?_
      intro (now : Time) _
      refine Prog.meets_pure ⟨fun result hr => ?_,fun hr => ⟨now,rfl,?_⟩⟩
      · obtain ⟨reason,-,rfl⟩ := Option.map_eq_some_iff.mp hr
        exact ⟨⟨_,rfl⟩,.inr ⟨by omega,now,rfl⟩⟩
      · exact ⟨by simpa using hstatus,by omega,Option.map_eq_none_iff.mp hr⟩

theorem concluded_refused {listing : ActionableListing} {reason : String} {h : History}
    (hh : h = [⟨.listActionableIntents,.ok listing⟩] ∨ listing.ownClaimedDKG.length ≤ 1 ∧
      ∃ now, h = [⟨.listActionableIntents,.ok listing⟩,⟨.now,now⟩]) :
    Concluded L (.ok (protocolIntegrity reason)) h := by
  have hshort : h.length ≤ 2 := by
    obtain rfl | ⟨-,now,rfl⟩ := hh <;> simp
  have hunchecked : ∀ listing', ¬Checked L listing' h := by
    rintro listing' ⟨_,_,rfl,-⟩
    simp at hshort
  refine concluded_jobless ⟨?_,?_,fun _ hc => absurd hc (hunchecked _)⟩ ?_
    fun _ _ hs => absurd hs.checked (hunchecked _)
  · obtain rfl | ⟨-,now,rfl⟩ := hh
    · exact ⟨_,_,rfl⟩
    · exact ⟨_,_,rfl⟩
  · intro listing' rest heq htwo
    refine ⟨⟨reason,rfl⟩,?_⟩
    obtain rfl | ⟨hown,now,rfl⟩ := hh
    · exact (List.cons.inj heq).2.symm
    · cases heq
      omega
  · intro result hr
    obtain rfl := Except.ok.inj hr
    rfl

theorem reconcile_meets (L : Libraries) : (reconcile L).Meets (bounded L) (Concluded L) [] := by
  refine Prog.meets_perform trivial ?_
  intro (listed : Except Err ActionableListing) _
  cases listed with
  | error e =>
    refine Prog.meets_pure (concluded_jobless ⟨⟨_,_,rfl⟩,?_,?_⟩ (by simp) ?_)
    · intro listing rest heq
      cases heq
    · rintro listing ⟨_,_,heq,-⟩
      simp at heq
    · rintro _ _ ⟨⟨_,_,heq,-⟩,-,-⟩
      simp at heq
  | ok listing =>
    refine Prog.meets_bind ((validateListing_meets L listing).mono ?_)
    rintro r h' - ⟨hrefused,hvalid⟩
    cases r with
    | some result =>
      obtain ⟨⟨reason,rfl⟩,hh⟩ := hrefused result rfl
      exact Prog.meets_pure (concluded_refused hh)
    | none =>
      obtain ⟨now,rfl,hv⟩ := hvalid rfl
      exact reconcileListed_meets hv

/-- The effects of a run that has come to `q`. -/
structure EffectsBounded (L : Libraries) (h : History)
    (q : Reconciling (Except ReconcileError Result)) : Prop where
  claims : ∀ h₁ intentType intentID r h₂, h = h₁ ++ ⟨.claimIntent intentType intentID,r⟩ :: h₂ →
    (∀ e ∈ h₁ ++ h₂, ¬isClaim e) ∧ ∃ listing items item, Surveyed L listing items h₁ ∧
      Retirable listing items item ∧ intentType = ascii "DKG" ∧ intentID = item.intent.intentID
  exists_ : ∀ h₁ store keyID r h₂, h = h₁ ++ ⟨.exists_ store keyID,r⟩ :: h₂ →
    ∃ listing intent, Checked L listing h₁ ∧ intent ∈ dkgs listing ∧ keyID = intent.keyID
  inspects : ∀ h₁ store expected r h₂, h = h₁ ++ ⟨.inspectExisting store expected,r⟩ :: h₂ →
    ∃ listing intent, Checked L listing h₁ ∧ intent ∈ listing.ownClaimedDKG ∧
      expected.keyID = intent.keyID
  concluded : ∀ r, q = .ret r → Concluded L r h

/-- Reconciliation claims at most the one pending key with an artifact, touches no store before
the listing and the preflight are in order, refuses two candidates and returns only valid jobs
of listed intents. -/
theorem reconcile_effects_bounded (L : Libraries) {h : History}
    {q : Reconciling (Except ReconcileError Result)} (hrun : (reconcile L).After h q) :
    EffectsBounded L h q := by
  obtain ⟨hmeets,hpre⟩ := (reconcile_meets L).after hrun fun _ _ => trivial
  refine ⟨?_,fun h₁ _ _ _ _ he => hpre h₁ _ _ he,fun h₁ _ _ _ _ he => hpre h₁ _ _ he,?_⟩
  · rintro h₁ intentType intentID r h₂ rfl
    obtain ⟨hfresh,hitem⟩ := hpre h₁ _ h₂ rfl
    refine ⟨?_,hitem⟩
    intro e he hclaim
    obtain he | he := List.mem_append.mp he
    · exact hfresh e he hclaim
    · obtain ⟨a,b,rfl⟩ := List.append_of_mem he
      obtain ⟨type',id',htype⟩ := hclaim
      obtain ⟨o,answer⟩ := e
      subst htype
      have hlater := hpre (h₁ ++ ⟨.claimIntent intentType intentID,r⟩ :: a)
        ⟨.claimIntent type' id',answer⟩ b (by simp)
      exact hlater.1 ⟨.claimIntent intentType intentID,r⟩ (by simp) ⟨_,_,rfl⟩
  · rintro r rfl
    exact hmeets h rfl trivial

/-! One pending key generation whose key has an artifact already. -/

def sampleIntent : ActionableIntent where
  deadline := Time.ofCivil 2030 1 1 0 0 0 0
  deadlineRaw := ascii "2030-01-01T00:00:00Z"
  descriptorBytes := sampleDescriptor.encode
  descriptorFingerprint := digestString (jcsLibraries.sha256 sampleDescriptor.encode)
  intentID := ascii "intent-1"
  keyID := sampleDescriptor.keyID
  orgID := ascii "org-1"
  sessionID := ascii "session-1"
  status := ascii "PENDING"
  type := ascii "DKG"

def lateIntent (intentID : Bytes) : ActionableIntent :=
  { sampleIntent with intentID := intentID, status := ascii "CLAIMED" }

/-- A primary artifact and no recovery one, and the claim comes too late. -/
def lateClaim (listing : ActionableListing) : (o : ReconcileOp) → o.Answer
  | .listActionableIntents => .ok listing
  | .now => Time.unixEpoch
  | .ctxErr | .preflight => none
  | .exists_ .primary _ => .ok true
  | .exists_ .recovery _ => .ok false
  | .inspectExisting _ _ => .error .notFound
  | .claimIntent _ _ => ({},some { is := [.alreadyClaimed] })

/-- The calls of a run, and how it ends. -/
def played (listing : ActionableListing) : Option (List ReconcileOp × Option Disposition) :=
  ((reconcile jcsLibraries).play fun o => some (lateClaim listing o)).map fun r =>
    (r.1.map (·.1),r.2.toOption.map (·.disposition))

theorem played_run {listing : ActionableListing} {ops : List ReconcileOp}
    {disposition : Disposition} (h : played listing = some (ops,some disposition)) :
    ∃ t result, (reconcile jcsLibraries).Ends t (.ok result) ∧ t.map (·.1) = ops ∧
      result.disposition = disposition := by
  obtain ⟨⟨t,r⟩,hrun,hr⟩ := Option.map_eq_some_iff.mp h
  obtain ⟨hends,-⟩ := Prog.ends_play hrun
  obtain ⟨hops,hdisposition⟩ := Prod.mk.inj hr
  cases r with
  | error e => cases hdisposition
  | ok result => exact ⟨t,result,hends,hops,Option.some.inj hdisposition⟩

/-- A pending intent is claimed after all the checks; two own claimed ones are refused at once. -/
theorem late_claim_bounded :
    (∃ h result, (reconcile jcsLibraries).Ends h (.ok result) ∧
      result.disposition = .freshPollRequired ∧
      h.map (·.1) = [.listActionableIntents,.now,.preflight,
        .exists_ .primary sampleDescriptor.keyID,.exists_ .recovery sampleDescriptor.keyID,
        .claimIntent (ascii "DKG") (ascii "intent-1")] ∧
      EffectsBounded jcsLibraries h (.ret (.ok result))) ∧
    ∃ h result, (reconcile jcsLibraries).Ends h (.ok result) ∧
      result.disposition = .protocolIntegrity ∧ h.map (·.1) = [.listActionableIntents] ∧
      EffectsBounded jcsLibraries h (.ret (.ok result)) := by
  constructor
  · have hplayed : played { pending := [sampleIntent] } = some ([.listActionableIntents,.now,
        .preflight,.exists_ .primary sampleDescriptor.keyID,
        .exists_ .recovery sampleDescriptor.keyID,
        .claimIntent (ascii "DKG") (ascii "intent-1")],some .freshPollRequired) := by
      decide +kernel
    obtain ⟨h,result,hends,hops,hdisposition⟩ := played_run hplayed
    exact ⟨h,result,hends,hdisposition,hops,reconcile_effects_bounded jcsLibraries hends⟩
  · have hplayed : played { ownClaimedDKG := [lateIntent (ascii "intent-2"),
        lateIntent (ascii "intent-3")] } = some ([.listActionableIntents],some .protocolIntegrity) := by
      decide +kernel
    obtain ⟨h,result,hends,hops,hdisposition⟩ := played_run hplayed
    exact ⟨h,result,hends,hdisposition,hops,reconcile_effects_bounded jcsLibraries hends⟩

end CoSigner.Reconcile
