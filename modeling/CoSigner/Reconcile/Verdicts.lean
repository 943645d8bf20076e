import CoSigner.Reconcile.Effects

/-! The verdict of a run whose survey is complete: what becomes of an own claimed key generation
with both artifacts, and of a pending one that is claimed to be retired. -/
namespace CoSigner.Reconcile
open Contract Monolith Sharestore Terminal Json
variable {L : Libraries} {listing : ActionableListing} {items : List ClassifiedIntent} {h : History}

def isExistence (e : CoSigner.Event ReconcileOp ReconcileOp.Answer) : Prop :=
  ∃ store keyID, e.1 = .exists_ store keyID

theorem survey_ends {rest : List (ActionableIntent × Bool)}
    {r : Except Result (List ClassifiedIntent)} (hends : (survey rest).Ends h r) :
    (∀ e ∈ h, isExistence e) ∧
      (∀ items, r = .ok items → items.map (fun item => (item.intent,item.claimed)) = rest ∧
        h.filterMap existence = items.flatMap ClassifiedIntent.answers) ∧
      ∀ result, r = .error result → (h.filterMap existence).length < 2 * rest.length := by
  induction rest generalizing h r with
  | nil =>
    obtain ⟨rfl,rfl⟩ := Prog.ends_ret.mp hends
    refine ⟨by simp,fun items hitems => ?_,fun result hr => by cases hr⟩
    obtain rfl := Except.ok.inj hitems
    exact ⟨rfl,rfl⟩
  | cons item rest ih =>
    obtain ⟨intent,claimed⟩ := item
    obtain ⟨(primary : Except Err Bool),t,rfl,ht⟩ := Prog.ends_perform.mp hends
    cases primary with
    | error e =>
      obtain ⟨rfl,rfl⟩ := Prog.ends_ret.mp ht
      refine ⟨by simp [isExistence],fun items hitems => (by cases hitems),fun _ _ => ?_⟩
      have hnone : 0 < 2 * (rest.length + 1) := by omega
      exact hnone
    | ok primaryExists =>
      obtain ⟨(recovery : Except Err Bool),t,rfl,hnext⟩ := Prog.ends_perform.mp ht
      cases recovery with
      | error e =>
        obtain ⟨rfl,rfl⟩ := Prog.ends_ret.mp hnext
        refine ⟨by simp [isExistence],fun items hitems => (by cases hitems),fun _ _ => ?_⟩
        have hone : 1 < 2 * (rest.length + 1) := by omega
        exact hone
      | ok recoveryExists =>
        obtain ⟨h₁,found,h₂,rfl,hsurvey,hpure⟩ := Prog.ends_bind.mp hnext
        obtain ⟨rfl,rfl⟩ := Prog.ends_ret.mp hpure
        obtain ⟨hexistence,hok,herror⟩ := ih hsurvey
        refine ⟨?_,fun items hitems => ?_,fun result hr => ?_⟩
        · simpa [isExistence] using hexistence
        · cases found with
          | error result => cases hitems
          | ok more =>
            obtain rfl := Except.ok.inj hitems
            obtain ⟨hlisted,hanswers⟩ := hok more rfl
            refine ⟨by rw [List.map_cons, hlisted],?_⟩
            simp [existence, hanswers, ClassifiedIntent.answers]
        · cases found with
          | error result' =>
            have hmore : (h₁.filterMap existence).length + 2 < 2 * (rest.length + 1) := by
              have := herror result' rfl
              omega
            rw [List.append_nil]
            exact hmore
          | ok more => cases hr

theorem validateListing_valid {α : Type} {now : Time} (hv : ValidListing L now listing)
    {f : Option Result → Reconciling α} {t : History} {r : α}
    (hends : (validateListing L listing >>= f).Ends (⟨.now,now⟩ :: t) r) : (f none).Ends t r := by
  have hown : ¬1 < listing.ownClaimedDKG.length := by
    have := hv.own
    omega
  rw [validateListing, if_neg (by simp [hv.status]), if_neg hown] at hends
  obtain ⟨now',t',heq,ht⟩ := Prog.ends_call.mp hends
  obtain ⟨heq,rfl⟩ := List.cons.inj heq
  obtain rfl : now = now' := by simpa using heq
  have hnext : (f ((listingFault L now listing).map protocolIntegrity)).Ends t r := ht
  rwa [hv.intents] at hnext

theorem reconcile_disposes {r : Except ReconcileError Result} (hends : (reconcile L).Ends h r)
    (hs : Surveyed L listing items h) : ∃ h₁ h₂, h = h₁ ++ h₂ ∧
      (∀ e ∈ h₁, (∀ store expected, e.1 ≠ .inspectExisting store expected) ∧ ¬isClaim e) ∧
      (dispose L items).Ends h₂ r := by
  obtain ⟨⟨now,rest,rfl,hv⟩,hlisted,hanswers⟩ := hs
  obtain ⟨listed,t,heq,ht⟩ := Prog.ends_perform.mp hends
  obtain ⟨heq,rfl⟩ := List.cons.inj heq
  obtain rfl : listed = .ok listing := by simpa using heq.symm
  have hchecked := validateListing_valid hv ht
  obtain ⟨failed,t,heq,hsurvey⟩ := Prog.ends_perform.mp hchecked
  obtain ⟨heq,rfl⟩ := List.cons.inj heq
  obtain rfl : failed = none := by simpa using heq.symm
  obtain ⟨h₁,found,h₂,rfl,hsurvey,hrest⟩ := Prog.ends_bind.mp hsurvey
  obtain ⟨hexistence,hok,herror⟩ := survey_ends hsurvey
  have hanswered : h₁.filterMap existence ++ h₂.filterMap existence =
      items.flatMap ClassifiedIntent.answers := by
    rw [← List.filterMap_append]
    exact hanswers
  have hlength := congrArg List.length hanswered
  have hsame := congrArg List.length hlisted
  rw [List.length_append, answers_length] at hlength
  rw [List.length_map] at hsame
  cases found with
  | error result =>
    obtain ⟨rfl,-⟩ := Prog.ends_ret.mp hrest
    have := herror result rfl
    simp only [List.filterMap_nil, List.length_nil] at hlength
    omega
  | ok items' =>
    obtain ⟨hlisted',hanswers'⟩ := hok items' rfl
    have hempty : h₂.filterMap existence = [] := by
      have hlen := congrArg List.length hlisted'
      rw [List.length_map] at hlen
      rw [hanswers', answers_length] at hlength
      apply List.eq_nil_of_length_eq_zero
      omega
    rw [hempty, List.append_nil, hanswers'] at hanswered
    obtain rfl := items_unique (hlisted'.trans hlisted.symm) hanswered
    refine ⟨⟨.listActionableIntents,.ok listing⟩ :: ⟨.now,now⟩ :: ⟨.preflight,none⟩ :: h₁,h₂,rfl,
      ?_,hrest⟩
    intro e he
    simp only [List.mem_cons] at he
    obtain rfl | rfl | rfl | he := he
    · simp [isClaim]
    · simp [isClaim]
    · simp [isClaim]
    · obtain ⟨store,keyID,heq⟩ := hexistence e he
      simp [isClaim, heq]

theorem reconcile_surveyed {now : Time} (hv : ValidListing L now listing) {h₁ h₂ : History}
    (hsurvey : (survey (actionable listing)).Ends h₁ (.ok items))
    {r : Except ReconcileError Result} (hdispose : (dispose L items).Ends h₂ r) :
    (reconcile L).Ends (⟨.listActionableIntents,.ok listing⟩ :: ⟨.now,now⟩ :: ⟨.preflight,none⟩ ::
      (h₁ ++ h₂)) r := by
  have hown : ¬1 < listing.ownClaimedDKG.length := by
    have := hv.own
    omega
  have hlisted : (reconcileListed L listing).Ends (⟨.preflight,none⟩ :: (h₁ ++ h₂)) r :=
    Prog.ends_perform.mpr ⟨_,_,rfl,Prog.ends_bind.mpr ⟨h₁,_,h₂,rfl,hsurvey,hdispose⟩⟩
  refine Prog.ends_perform.mpr ⟨_,_,rfl,
    Prog.ends_bind.mpr ⟨[⟨.now,now⟩],none,_,rfl,?_,hlisted⟩⟩
  rw [validateListing, if_neg (by simp [hv.status]), if_neg hown]
  refine Prog.ends_perform.mpr ⟨_,_,rfl,Prog.ends_ret.mpr ⟨rfl,?_⟩⟩
  rw [hv.intents]
  rfl

theorem resolve_single {item : ClassifiedIntent}
    (hone : items.filter ClassifiedIntent.candidate = [item]) :
    ∃ rest, resolve L items = resolve L (item :: rest) := by
  induction items with
  | nil => cases hone
  | cons first rest ih =>
    by_cases hcand : first.candidate = true
    · rw [List.filter_cons_of_pos hcand] at hone
      exact ⟨rest,by rw [(List.cons.inj hone).1]⟩
    · rw [List.filter_cons_of_neg hcand] at hone
      obtain ⟨more,hmore⟩ := ih hone
      have hplain : first.claimed = false ∧ first.primaryExists = false ∧
          first.recoveryExists = false := by
        simpa [ClassifiedIntent.candidate, and_assoc] using hcand
      refine ⟨more,?_⟩
      rw [← hmore, resolve, if_neg (by simp [hplain]), if_pos (by simp [hplain])]

theorem dispose_single {item : ClassifiedIntent}
    (hone : items.filter ClassifiedIntent.candidate = [item]) :
    ∃ rest, dispose L items = resolve L (item :: rest) := by
  have hcount : items.countP ClassifiedIntent.candidate = 1 := by
    rw [List.countP_eq_length_filter, hone, List.length_singleton]
  obtain ⟨rest,hrest⟩ := resolve_single (L := L) hone
  exact ⟨rest,by rw [← hrest, dispose, if_neg (by omega), if_neg (by omega)]⟩

theorem claimed_ends {item : ClassifiedIntent} (hi : item ∈ items) (hclaimed : item.claimed = true)
    {r : Except ReconcileError Result} (hends : (dispose L items).Ends h r) :
    (h = [] ∧ ∃ reason, r = .ok (protocolIntegrity reason)) ∨
      ∃ job, (reconstructClaimed L item.intent item.primaryExists item.recoveryExists).Ends h job ∧
        r = .ok {
          disposition := .terminalPublicationRequired
          job := some job
          deadlineRaw := item.intent.deadlineRaw } := by
  have hcand : item ∈ items.filter ClassifiedIntent.candidate :=
    List.mem_filter.mpr ⟨hi,by simp [ClassifiedIntent.candidate, hclaimed]⟩
  have hpos := List.length_pos_of_mem hcand
  rw [← List.countP_eq_length_filter] at hpos
  by_cases hmany : 1 < items.countP ClassifiedIntent.candidate
  · rw [dispose, if_pos hmany] at hends
    obtain ⟨rfl,rfl⟩ := Prog.ends_ret.mp hends
    exact .inl ⟨rfl,_,rfl⟩
  · have hlen : (items.filter ClassifiedIntent.candidate).length = 1 := by
      rw [← List.countP_eq_length_filter]
      omega
    obtain ⟨other,hone⟩ := List.length_eq_one_iff.mp hlen
    obtain rfl : item = other := by simpa [hone] using hcand
    obtain ⟨rest,hrest⟩ := dispose_single (L := L) hone
    rw [hrest, resolve, if_pos hclaimed] at hends
    obtain ⟨h₁,job,h₂,rfl,hjob,hpure⟩ := Prog.ends_bind.mp hends
    obtain ⟨rfl,rfl⟩ := Prog.ends_ret.mp hpure
    rw [List.append_nil]
    exact .inr ⟨job,hjob,rfl⟩

theorem reconstructClaimed_ends {intent : ActionableIntent} {job : Job}
    (hends : (reconstructClaimed L intent true true).Ends h job) :
    (∃ store e, ⟨.inspectExisting store (expectedContext intent),.error e⟩ ∈ h) ∨
      ∃ primary recovery,
        h = [⟨.inspectExisting .primary (expectedContext intent),.ok primary⟩,
          ⟨.inspectExisting .recovery (expectedContext intent),.ok recovery⟩] ∧
        job = if evidenceMatches intent primary recovery then
          (newCompletedJob L (completedInput intent primary recovery)).getD (failedJob L intent)
          else failedJob L intent := by
  obtain ⟨(primary : Except InspectError ArtifactEvidence),t,rfl,ht⟩ := Prog.ends_perform.mp hends
  cases primary with
  | error e => exact .inl ⟨.primary,e,List.mem_cons_self⟩
  | ok primary =>
    obtain ⟨(recovery : Except InspectError ArtifactEvidence),t,rfl,hrest⟩ :=
      Prog.ends_perform.mp ht
    cases recovery with
    | error e => exact .inl ⟨.recovery,e,List.mem_cons_of_mem _ List.mem_cons_self⟩
    | ok recovery =>
      have hdecided : (if evidenceMatches intent primary recovery then
          pure ((newCompletedJob L (completedInput intent primary recovery)).getD
            (failedJob L intent))
          else pure (failedJob L intent) : Reconciling Job).Ends t job := hrest
      split at hdecided
      · rename_i hmatch
        obtain ⟨rfl,rfl⟩ := Prog.ends_ret.mp hdecided
        exact .inr ⟨primary,recovery,rfl,by rw [if_pos hmatch]⟩
      · rename_i hmatch
        obtain ⟨rfl,rfl⟩ := Prog.ends_ret.mp hdecided
        exact .inr ⟨primary,recovery,rfl,by rw [if_neg hmatch]⟩

theorem validateDKGIntent_descriptor {intent : ActionableIntent}
    (h : validateDKGIntent L intent = none) :
    ∃ d fingerprint, parseCanonicalDescriptor L intent.descriptorBytes = some (d,fingerprint) ∧
      parseSHA256Digest intent.descriptorFingerprint = some fingerprint ∧
      d.keyID = intent.keyID := by
  unfold validateDKGIntent at h
  split at h
  · cases h
  · split at h
    · cases h
    · split at h
      · cases h
      · split at h
        · cases h
        · rename_i d fingerprint hparse
          split at h
          · cases h
          · rename_i hfingerprint
            split at h
            · cases h
            · rename_i hkey
              exact ⟨d,fingerprint,hparse,by simpa using hfingerprint,by simpa using hkey⟩

section
variable {intent : ActionableIntent} {stores : StorePurpose → StoreConfig}
  {primary recovery : ArtifactEvidence}

/-- The evidences of the two stores can differ in the key and in the codec version only. -/
theorem evidenceMatches_iff (hv : validateDKGIntent L intent = none)
    (hpurpose : ∀ purpose, (stores purpose).purpose = purpose)
    (hp : Inspection L (stores .primary) (expectedContext intent) primary)
    (hr : Inspection L (stores .recovery) (expectedContext intent) recovery) :
    evidenceMatches intent primary recovery = true ↔
      primary.accountPublicKey = recovery.accountPublicKey ∧
        primary.codecVersion = recovery.codecVersion := by
  obtain ⟨d,fingerprint,hd,hdigest,-⟩ := validateDKGIntent_descriptor hv
  obtain ⟨dp,hdp,-,hcp⟩ := hp.descriptor
  obtain ⟨dr,hdr,-,hcr⟩ := hr.descriptor
  obtain ⟨rfl,hfp⟩ := Prod.mk.inj (Option.some.inj (hd.symm.trans hdp))
  obtain ⟨rfl,hfr⟩ := Prod.mk.inj (Option.some.inj (hd.symm.trans hdr))
  have hchain := Option.some.inj (hcp.symm.trans hcr)
  simp [evidenceMatches, hdigest, hp.sessionID, hr.sessionID, hp.keyID, hr.keyID, hp.partyID,
    hr.partyID, hp.purpose, hr.purpose, hpurpose, StoreConfig.partyID, StorePurpose.partyID,
    expectedContext, ← hfp, ← hfr, hchain, and_comm]

theorem completed_job (hL : JcsLaw L) (hsha : ∀ raw, (L.sha256 raw).length = 32)
    (hmaterial : CompressedMaterial L) (hv : validateDKGIntent L intent = none)
    (hpurpose : ∀ purpose, (stores purpose).purpose = purpose)
    (hp : Inspection L (stores .primary) (expectedContext intent) primary)
    (hr : Inspection L (stores .recovery) (expectedContext intent) recovery) :
    ∃ job, newCompletedJob L (completedInput intent primary recovery) = some job ∧
      job.status = terminalStatusCompleted := by
  obtain ⟨-,failed,hfailed⟩ := validateDKGIntent_job hv
  obtain ⟨hids,-⟩ := newJob_body hL hfailed
  obtain ⟨_,fingerprint,hd,hdigest,-⟩ := validateDKGIntent_descriptor hv
  obtain ⟨d,hdp,-,hchain⟩ := hp.descriptor
  obtain ⟨-,hfp⟩ := Prod.mk.inj (Option.some.inj (hd.symm.trans hdp))
  obtain ⟨blob,m,hm,hkey,-⟩ := hp.material
  obtain ⟨hlen,hhead,hparse⟩ := hmaterial blob m hm
  obtain ⟨praw,hpraw⟩ := hp.artifact
  obtain ⟨rraw,hrraw⟩ := hr.artifact
  have hpublic : (hexEncode m.accountPublicKey).length = 66 := by rw [hexEncode_length, hlen]
  have hdigests := parseSHA256Digest_digestString (parseSHA256Digest_some hdigest).1
  rw [hfp] at hdigests
  have hchains := parseSHA256Digest_digestString (parseSHA256Digest_some hchain).1
  have hprimary := parseSHA256Digest_digestString (hsha praw)
  have hrecovery := parseSHA256Digest_digestString (hsha rraw)
  rw [← hpraw] at hprimary
  rw [← hrraw] at hrecovery
  have hresult : CompletedResultV1.validate L {
      accountPublicKey := hexEncode primary.accountPublicKey
      artifacts := [(artifactInput primary).result,(artifactInput recovery).result]
      chainCodeHash := digestString primary.chainCodeHash
      descriptorFingerprint := digestString primary.descriptorFingerprint } = true := by
    simp [CompletedResultV1.validate, hdigests, hchains, hprimary, hrecovery, hpublic,
      hexEncode_hexDigits, hexDecode_hexEncode, hkey, hhead, hparse, artifactInput,
      ArtifactInput.result, hp.partyID, hr.partyID, hp.purpose, hr.purpose, hpurpose,
      StoreConfig.partyID, StorePurpose.partyID, StorePurpose.text]
  have hnames : boundedASCII intent.intentID = true ∧ boundedASCII intent.sessionID = true ∧
      keyIDPattern intent.keyID = true := by
    simpa [TerminalResultV1.validate, failedResult, and_assoc] using hids
  have hother : (terminalStatusCompleted == terminalStatusFailed ||
      terminalStatusCompleted == terminalStatusTimedOut) = false := by decide
  have hvalid : (completedInput intent primary recovery).result.validate L true = true := by
    simp only [TerminalResultV1.validate, CompletedInput.result, completedInput, hnames, hother]
    simpa using hresult
  have hstatus : terminalStatusCompleted ≠ terminalStatusTimedOut := by decide
  obtain ⟨job,hjob⟩ := newJob_valid hL hstatus hvalid
  exact ⟨job,hjob,newJob_status hjob⟩

end

/-- The listing has one own claimed key generation, and both stores have its artifact. -/
structure BothExist (L : Libraries) (intent : ActionableIntent) (h : History) : Prop where
  survey : ∃ listing items, Surveyed L listing items h ∧ listing.ownClaimedDKG = [intent] ∧
    ⟨intent,true,true,true⟩ ∈ items

/-- Every inspection of the run answers as the store does, for some context and some result of
reading the file. -/
def StoresAnswer (L : Libraries) (stores : StorePurpose → StoreConfig) (h : History) : Prop :=
  ∀ store expected r, ⟨.inspectExisting store expected,r⟩ ∈ h →
    ∃ ctxErr file, r = inspectExisting L (stores store) ctxErr file expected

/-- An artifact has disappeared, its content or its binding was rejected, or the evidences
disagree. -/
def Blamable (h : History) : Prop :=
  (∃ store expected e, ⟨.inspectExisting store expected,.error e⟩ ∈ h ∧ e.blind = false) ∨
    ∃ expected primary recovery, ⟨.inspectExisting .primary expected,.ok primary⟩ ∈ h ∧
      ⟨.inspectExisting .recovery expected,.ok recovery⟩ ∈ h ∧
      (primary.accountPublicKey ≠ recovery.accountPublicKey ∨
        primary.codecVersion ≠ recovery.codecVersion)

def ReadFailed (h : History) : Prop :=
  ∃ store expected e, ⟨.inspectExisting store expected,.error e⟩ ∈ h ∧ e.blind = true

/-- A failed job has a reason in the artifacts, and a failure to read them makes no job. -/
structure ReadFailureSpares (h : History) (r : Except ReconcileError Result) : Prop where
  failed : ∀ result job, r = .ok result → result.job = some job →
    job.status = terminalStatusFailed → Blamable h
  deferred : ReadFailed h → (∃ e, r = .error e) ∨
    ∃ result, r = .ok result ∧ result.disposition = .capabilityDeferred ∧ result.job = none

/-- A failure to read an artifact retires the key: the run spares it just when there is none. -/
theorem read_failure_retires (hL : JcsLaw L) (hsha : ∀ raw, (L.sha256 raw).length = 32)
    (hmaterial : CompressedMaterial L) {stores : StorePurpose → StoreConfig}
    (hpurpose : ∀ purpose, (stores purpose).purpose = purpose) {intent : ActionableIntent}
    {r : Except ReconcileError Result} (hends : (reconcile L).Ends h r)
    (hboth : BothExist L intent h) (hstores : StoresAnswer L stores h) :
    ReadFailureSpares h r ↔ ¬ReadFailed h := by
  obtain ⟨listing,items,hs,hown,hitem⟩ := hboth.survey
  have hv : validateDKGIntent L intent = none := by
    refine hs.checked.dkg (List.mem_map.mpr ⟨(intent,true),mem_actionable.mpr (.inl ⟨rfl,?_⟩),rfl⟩)
    simp [hown]
  obtain ⟨h₁,h₂,rfl,hbefore,hdispose⟩ := reconcile_disposes hends hs
  have hlater : ∀ {store expected a}, ⟨.inspectExisting store expected,a⟩ ∈ h₁ ++ h₂ →
      ⟨.inspectExisting store expected,a⟩ ∈ h₂ := by
    intro store expected a hmem
    refine (List.mem_append.mp hmem).resolve_left fun hin => ?_
    exact (hbefore _ hin).1 store expected rfl
  constructor
  · rintro hspares ⟨store,expected,e,hmem,hblind⟩
    obtain ⟨rfl,-⟩ | ⟨job,-,rfl⟩ := claimed_ends hitem rfl hdispose
    · cases hlater hmem
    · obtain ⟨e,he⟩ | ⟨result,hr,-,hjob⟩ := hspares.deferred ⟨store,expected,e,hmem,hblind⟩
      · cases he
      · obtain rfl := Except.ok.inj hr
        cases hjob
  · intro hread
    refine ⟨fun result job hr hjob hfailed => ?_,fun hfail => absurd hfail hread⟩
    obtain ⟨-,reason,rfl⟩ | ⟨job',hreconstruct,rfl⟩ := claimed_ends hitem rfl hdispose
    · obtain rfl := Except.ok.inj hr
      cases hjob
    · obtain rfl := Except.ok.inj hr
      obtain rfl := Option.some.inj hjob
      obtain ⟨store,e,hmem⟩ | ⟨primary,recovery,rfl,hdecided⟩ :=
        reconstructClaimed_ends hreconstruct
      · have hall := List.mem_append_right h₁ hmem
        refine .inl ⟨store,_,e,hall,Bool.eq_false_iff.mpr fun hblind => ?_⟩
        exact hread ⟨store,_,e,hall,hblind⟩
      · have hpmem : ⟨.inspectExisting .primary (expectedContext intent),.ok primary⟩ ∈ h₁ ++
            [⟨.inspectExisting .primary (expectedContext intent),.ok primary⟩,
              ⟨.inspectExisting .recovery (expectedContext intent),.ok recovery⟩] := by simp
        have hrmem : ⟨.inspectExisting .recovery (expectedContext intent),.ok recovery⟩ ∈ h₁ ++
            [⟨.inspectExisting .primary (expectedContext intent),.ok primary⟩,
              ⟨.inspectExisting .recovery (expectedContext intent),.ok recovery⟩] := by simp
        obtain ⟨_,_,hp⟩ := hstores _ _ _ hpmem
        obtain ⟨_,_,hr⟩ := hstores _ _ _ hrmem
        have hpi := inspectExisting_ok hp.symm
        have hri := inspectExisting_ok hr.symm
        by_cases hmatch : evidenceMatches intent primary recovery = true
        · obtain ⟨job,hjob,hstatus⟩ := completed_job hL hsha hmaterial hv hpurpose hpi hri
          rw [if_pos hmatch, hjob, Option.getD_some] at hdecided
          rw [hdecided, hstatus] at hfailed
          exact absurd hfailed (by decide)
        · rw [evidenceMatches_iff hv hpurpose hpi hri, not_and_or] at hmatch
          exact .inr ⟨_,primary,recovery,hpmem,hrmem,hmatch⟩

/-! One own claimed key generation whose artifacts exist and then cannot be read. -/

/-- SHA-256 of the sample descriptor's encoding. -/
def sampleDigest : Bytes :=
  Strings.bigEndian 32 0x97c5f1cd4a3546a3da850f591a166bdef40adc3823e91fecb7b13ecb787d92d9

def verdictLibraries : Libraries :=
  { jcsLibraries with
    sha256 := fun raw =>
      if raw = sampleDescriptor.encode then sampleDigest else List.replicate 32 0
    inspectKeyMaterial := fun blob => if blob = goldenBlob then some goldenMaterial else none
    parsePubKey := fun key => if key = goldenMaterial.accountPublicKey then some key else none }

def pendingIntent : ActionableIntent :=
  { sampleIntent with descriptorFingerprint := digestString sampleDigest }

def claimedIntent : ActionableIntent := { pendingIntent with status := ascii "CLAIMED" }

theorem pendingIntent_valid : validateDKGIntent verdictLibraries pendingIntent = none := by
  decide +kernel

theorem claimedListing_valid :
    ValidListing verdictLibraries Time.unixEpoch { ownClaimedDKG := [claimedIntent] } :=
  ⟨rfl,Nat.le_refl 1,by decide +kernel⟩

theorem reading_run {file : FileRead} (hfile : file = .missing ∨ file = .failed {}) :
    ∃ h result job, (reconcile verdictLibraries).Ends h (.ok result) ∧ result.job = some job ∧
      job.status = terminalStatusFailed ∧ BothExist verdictLibraries claimedIntent h ∧
      StoresAnswer verdictLibraries goldenConfig h ∧
      ⟨.inspectExisting .primary (expectedContext claimedIntent),
        inspectExisting verdictLibraries (goldenConfig .primary) none file
          (expectedContext claimedIntent)⟩ ∈ h := by
  obtain ⟨-,job,hjob⟩ := validateDKGIntent_job pendingIntent_valid
  have hfailed : failedJob verdictLibraries claimedIntent = job :=
    congrArg (fun job => job.getD {}) hjob
  obtain ⟨e,he⟩ : ∃ e, inspectExisting verdictLibraries (goldenConfig .primary) none file
      (expectedContext claimedIntent) = .error e := by
    obtain rfl | rfl := hfile <;> simp only [inspectExisting] <;> split <;> exact ⟨_,rfl⟩
  have hdispose : (dispose verdictLibraries [⟨claimedIntent,true,true,true⟩]).Ends
      [⟨.inspectExisting .primary (expectedContext claimedIntent),.error e⟩] (.ok {
        disposition := .terminalPublicationRequired
        job := some job
        deadlineRaw := claimedIntent.deadlineRaw }) := by
    rw [← hfailed]
    exact .call (.start _)
  have hsurvey : (survey (actionable { ownClaimedDKG := [claimedIntent] })).Ends
      [⟨.exists_ .primary claimedIntent.keyID,.ok true⟩,
        ⟨.exists_ .recovery claimedIntent.keyID,.ok true⟩]
      (.ok [⟨claimedIntent,true,true,true⟩]) := .call (.call (.start _))
  refine ⟨_,_,job,reconcile_surveyed claimedListing_valid hsurvey hdispose,rfl,newJob_status hjob,
    ⟨_,_,⟨⟨_,_,rfl,claimedListing_valid⟩,rfl,rfl⟩,rfl,List.mem_singleton_self _⟩,?_,?_⟩
  · intro store expected r hmem
    simp only [List.cons_append, List.nil_append, List.mem_cons, List.not_mem_nil, or_false] at hmem
    obtain hmem | hmem | hmem | hmem | hmem | hmem := hmem
    case inr.inr.inr.inr.inr =>
      obtain ⟨hop,hr⟩ := Sigma.mk.inj hmem
      cases hop
      exact ⟨none,file,(eq_of_heq hr).trans he.symm⟩
    all_goals cases hmem
  · rw [he]
    simp

theorem read_failure_retires_sample : ∃ h result,
    (reconcile verdictLibraries).Ends h (.ok result) ∧ BothExist verdictLibraries claimedIntent h ∧
      (ReadFailureSpares h (.ok result) ↔ ¬ReadFailed h) := by
  obtain ⟨h,result,-,hends,-,-,hboth,hstores,-⟩ := reading_run (.inl rfl)
  refine ⟨h,result,hends,hboth,read_failure_retires (canonical_law _ rfl) ?_ ?_ ?_ hends hboth
    hstores⟩
  · intro raw
    show (if raw = sampleDescriptor.encode then sampleDigest else List.replicate 32 0).length = 32
    split <;> rfl
  · intro blob m hm
    obtain ⟨-,heq⟩ := Option.ite_none_right_eq_some.mp hm
    obtain rfl := Option.some.inj heq
    exact ⟨rfl,.inl rfl,by simp [verdictLibraries]⟩
  · exact fun _ => rfl

/-- A file that cannot be read makes a failed job. -/
theorem unreadable_artifact_retires : ∃ h result job,
    (reconcile verdictLibraries).Ends h (.ok result) ∧ BothExist verdictLibraries claimedIntent h ∧
      StoresAnswer verdictLibraries goldenConfig h ∧ ReadFailed h ∧ result.job = some job ∧
      job.status = terminalStatusFailed ∧ ¬ReadFailureSpares h (.ok result) := by
  obtain ⟨h,result,job,hends,hjob,hfailed,hboth,hstores,hmem⟩ :=
    reading_run (.inr rfl)
  have hkey : keyIDPattern claimedIntent.keyID = true := by decide +kernel
  have hread : ReadFailed h := by
    refine ⟨.primary,expectedContext claimedIntent,.unreadable {},?_,rfl⟩
    simpa [inspectExisting, expectedContext, hkey] using hmem
  refine ⟨h,result,job,hends,hboth,hstores,hread,hjob,hfailed,fun hspares => ?_⟩
  obtain ⟨e,he⟩ | ⟨result',hr,-,hnone⟩ := hspares.deferred hread
  · cases he
  · obtain rfl := Except.ok.inj hr
    rw [hnone] at hjob
    cases hjob

/-! A pending key generation that is claimed to be retired. -/

/-- The members of a DKG claim response. -/
def dkgClaimFields : List String :=
  ["chainCodeBase64", "deadline", "descriptorBytesBase64", "descriptorFingerprint", "httpStatus",
    "intentId", "keyId", "orgId", "session", "sessionId", "status"]

/-- A body of the closed shape of a DKG claim response. -/
def DkgWire (body : Bytes) : Prop :=
  ∃ span ms, parse body = some (.obj span ms) ∧ ∀ m ∈ ms, unquote m.1 ∈ dkgClaimFields.map ascii

theorem claimFields_keep_type :
    ∀ g ∈ ClaimResult.fields, g.name ≠ ascii "type" → g.Keeps (·.type) := by
  intro g hg hname
  simp only [ClaimResult.fields, List.mem_cons, List.not_mem_nil, or_false] at hg
  obtain rfl | rfl | rfl | rfl | rfl | rfl | rfl | rfl | rfl | rfl | rfl | rfl | rfl | rfl | rfl |
    rfl := hg
  case inr.inr.inr.inr.inr.inr.inr.inl => exact absurd rfl hname
  all_goals exact field_keeps fun _ _ => rfl

theorem DkgWire.untyped {body : Bytes} (hwire : DkgWire body) {claim : ClaimResult}
    (h : decodeClosed ClaimResult.decoder {} body = some claim) : claim.type = [] := by
  obtain ⟨span,ms,hparse,hnames⟩ := hwire
  have hsub : ∀ name ∈ dkgClaimFields.map ascii,
      name ∈ (ClaimResult.fields.map fun f => f.name) ∧ name ≠ ascii "type" := by decide +kernel
  simp only [decodeClosed, hparse, Option.bind_eq_bind, Option.bind_some, Option.bind_none,
    Option.ite_none_left_eq_some] at h
  refine @stored_keeps ClaimResult Bytes _ (fun r => r.type) _ ?_ _ _ h.2
  intro m hm
  obtain ⟨hfield,htype⟩ := hsub _ (hnames m hm)
  obtain ⟨g,hg,hname,hfind⟩ := findField_exact hfield
  exact ⟨g,hfind,claimFields_keep_type g hg (hname ▸ htype)⟩

theorem claimIntent_untyped {body intentID : Bytes} (hwire : DkgWire body) {claim : ClaimResult}
    (h : claimIntent L (ascii "DKG") intentID (.replied 200 body) = (claim,none)) :
    claim.type = [] := by
  have hdecoded : ∀ out, decodeClaim false (.replied 200 body) = .ok out → out.type = [] := by
    intro out hout
    simp only [decodeClaim, Bool.false_and, Bool.false_eq_true, if_false, bne_self_eq_false] at hout
    split at hout
    · obtain rfl := Except.ok.inj hout
      rfl
    · split at hout
      · cases hout
      · rename_i r hr
        split at hout
        · cases hout
        · rename_i r' hretain
          obtain rfl := Except.ok.inj hout
          have hsame : r'.type = r.type := by
            simp only [ClaimResult.retainExactResponseFields, Option.bind_eq_bind, Option.bind_none,
              Option.bind_eq_some_iff, Option.ite_none_left_eq_some, Option.some.injEq] at hretain
            obtain ⟨_,-,_,-,-,-,rfl⟩ := hretain
            rfl
          rw [hsame, hwire.untyped hr]
  have hkind : intentTypePath (ascii "DKG") = some false := intentTypePath_kind false
  simp only [claimIntent, hkind] at h
  cases hdecode : decodeClaim false (.replied 200 body) with
  | error failure =>
    obtain ⟨status,e⟩ := failure
    simp only [hdecode] at h
    split at h <;> simp at h
  | ok out =>
    simp only [hdecode] at h
    split at h
    · simp at h
    · split at h
      · simp at h
      · obtain ⟨rfl,-⟩ := Prod.mk.inj h
        exact hdecoded _ hdecode

/-- The claim repeats what was listed. -/
structure ClaimMatches (listed : ActionableIntent) (claim : ClaimResult) : Prop where
  intentID : claim.intentID = listed.intentID
  sessionID : claim.sessionID = listed.sessionID
  orgID : claim.orgID = listed.orgID
  keyID : claim.keyID = listed.keyID
  deadlineRaw : claim.deadlineRaw = listed.deadlineRaw
  descriptorBytes : claim.descriptorBytes = listed.descriptorBytes
  descriptorFingerprint : claim.descriptorFingerprint = listed.descriptorFingerprint

/-- The run asks for the publication of the failed job of the intent. -/
def Retires (L : Libraries) (intent : ActionableIntent) (r : Except ReconcileError Result) : Prop :=
  ∃ job, newFailedJob L intent.intentID intent.sessionID intent.keyID = some job ∧ r = .ok {
    disposition := .terminalPublicationRequired
    job := some job
    deadlineRaw := intent.deadlineRaw }

theorem pending_ends {item : ClassifiedIntent} (hi : Retirable listing items item)
    (hunclaimed : item.claimed = false) {r : Except ReconcileError Result}
    (hends : (dispose L items).Ends h r) : ∃ claim err,
      h = [⟨.claimIntent (ascii "DKG") item.intent.intentID,(claim,err)⟩] ∧
      r = resolveClaim L item.intent claim err := by
  obtain ⟨rest,hrest⟩ := dispose_single (L := L) hi.single
  have hartifact : ¬(!item.primaryExists && !item.recoveryExists) = true := by
    simpa [or_iff_not_imp_left] using hi.artifact
  rw [hrest, resolve, if_neg (by simp [hunclaimed]), if_neg hartifact] at hends
  obtain ⟨⟨claim,err⟩,t,rfl,ht⟩ := Prog.ends_perform.mp hends
  obtain ⟨rfl,rfl⟩ := Prog.ends_ret.mp ht
  exact ⟨claim,err,rfl,rfl⟩

theorem not_retires_fault (intent : ActionableIntent) (reason : String) (deadlineRaw : Bytes) :
    ¬Retires L intent (.ok { protocolIntegrity reason with deadlineRaw := deadlineRaw }) := by
  rintro ⟨job,-,hretired⟩
  cases hretired

section
variable {r : Except ReconcileError Result} {item : ClassifiedIntent} {body : Bytes}
  {claim : ClaimResult}

theorem untyped_claim_faults (hends : (reconcile L).Ends h r) (hs : Surveyed L listing items h)
    (hi : Retirable listing items item) (hwire : DkgWire body)
    (haccepted : claimIntent L (ascii "DKG") item.intent.intentID (.replied 200 body) = (claim,none))
    (hreply : ∀ answer, ⟨.claimIntent (ascii "DKG") item.intent.intentID,answer⟩ ∈ h →
      answer = (claim,none)) :
    r = .ok { protocolIntegrity "claim response is not a typed CLAIMED DKG" with
      deadlineRaw := item.intent.deadlineRaw } := by
  obtain ⟨h₁,h₂,rfl,-,hdispose⟩ := reconcile_disposes hends hs
  have hunclaimed : item.claimed = false := by
    obtain ⟨hitem,-⟩ := List.mem_filter.mp (hi.single ▸ List.mem_singleton_self item)
    obtain ⟨-,hown⟩ | ⟨hclaimed,-⟩ := mem_actionable.mp (hs.mem hitem)
    · rw [hi.unclaimed] at hown
      cases hown
    · exact hclaimed
  obtain ⟨claim',err,rfl,rfl⟩ := pending_ends hi hunclaimed hdispose
  obtain ⟨rfl,rfl⟩ := Prod.mk.inj (hreply (claim',err) (by simp))
  have hfault : validateClaim item.intent claim' =
      some "claim response is not a typed CLAIMED DKG" := by
    have htype : ([] != ascii "DKG") = true := by decide
    simp [validateClaim, claimIntent_untyped hwire haccepted, htype]
  simp only [resolveClaim, hfault]

/-- No claim response of the closed shape retires a key: whatever else it says, the run ends in
a protocol fault. -/
theorem wire_claim_never_retires (hends : (reconcile L).Ends h r)
    (hs : Surveyed L listing items h) (hi : Retirable listing items item) (hwire : DkgWire body)
    (haccepted : claimIntent L (ascii "DKG") item.intent.intentID (.replied 200 body) = (claim,none))
    (hreply : ∀ answer, ⟨.claimIntent (ascii "DKG") item.intent.intentID,answer⟩ ∈ h →
      answer = (claim,none)) :
    r = .ok { protocolIntegrity "claim response is not a typed CLAIMED DKG" with
      deadlineRaw := item.intent.deadlineRaw } ∧ ¬Retires L item.intent r := by
  have hfault := untyped_claim_faults hends hs hi hwire haccepted hreply
  exact ⟨hfault,hfault ▸ not_retires_fault _ _ _⟩

end

/-- The members of a response of the closed shape that repeats the listed intent. -/
def wireMembers (listed : ActionableIntent) : List (Bytes × Doc) := [
  (ascii "chainCodeBase64",.str (Base64.std.encode (List.replicate 32 0))),
  (ascii "deadline",.str listed.deadlineRaw),
  (ascii "descriptorBytesBase64",.str (Base64.std.encode listed.descriptorBytes)),
  (ascii "descriptorFingerprint",.str listed.descriptorFingerprint),
  (ascii "httpStatus",.num (ascii "200")),
  (ascii "intentId",.str listed.intentID),
  (ascii "keyId",.str listed.keyID),
  (ascii "orgId",.str listed.orgID),
  (ascii "session",.obj [
    (ascii "deadline",.str listed.deadlineRaw),
    (ascii "executionExpiresAt",.null),
    (ascii "sessionId",.str listed.sessionID),
    (ascii "startedAt",.null),
    (ascii "status",.str (ascii "PENDING"))]),
  (ascii "sessionId",.str listed.sessionID),
  (ascii "status",.str (ascii "CLAIMED"))]

def wireClaim (listed : ActionableIntent) : Bytes := (Doc.obj (wireMembers listed)).write bare

/-- What the client makes of it. -/
def acceptedClaim : ClaimResult where
  session := {
    sessionID := pendingIntent.sessionID
    status := ascii "PENDING"
    deadline := pendingIntent.deadline }
  httpStatus := 200
  intentID := pendingIntent.intentID
  sessionID := pendingIntent.sessionID
  status := ascii "CLAIMED"
  deadline := pendingIntent.deadline
  deadlineRaw := pendingIntent.deadlineRaw
  orgID := pendingIntent.orgID
  keyID := pendingIntent.keyID
  descriptorBytes := pendingIntent.descriptorBytes
  descriptorFingerprint := pendingIntent.descriptorFingerprint
  chainCode := List.replicate 32 0

theorem wireClaim_accepted : claimIntent verdictLibraries (ascii "DKG") pendingIntent.intentID
    (.replied 200 (wireClaim pendingIntent)) = (acceptedClaim,none) := by
  decide +kernel

/-- Whether these are the only members there can be. -/
def closedObject (names : List Bytes) : Value → Bool
  | .obj _ ms => ms.all fun m => names.contains (unquote m.1)
  | _ => false

theorem wireClaim_wire : DkgWire (wireClaim pendingIntent) := by
  have hclosed : (parse (wireClaim pendingIntent)).any (closedObject (dkgClaimFields.map ascii)) =
      true := by
    decide +kernel
  obtain ⟨v,hparse,hv⟩ := (Option.any_eq_true _ _).mp hclosed
  cases v with
  | obj span ms => exact ⟨span,ms,hparse,by simpa [closedObject] using hv⟩
  | _ => cases hv

theorem pendingListing_valid :
    ValidListing verdictLibraries Time.unixEpoch { pending := [pendingIntent] } :=
  ⟨rfl,Nat.zero_le 1,by decide +kernel⟩

def wireItem : ClassifiedIntent := ⟨pendingIntent,true,false,false⟩

theorem wire_run : ∃ h r, (reconcile verdictLibraries).Ends h r ∧
    Surveyed verdictLibraries { pending := [pendingIntent] } [wireItem] h ∧
    ∀ answer, ⟨.claimIntent (ascii "DKG") pendingIntent.intentID,answer⟩ ∈ h →
      answer = (acceptedClaim,none) := by
  have hdispose : (dispose verdictLibraries [wireItem]).Ends
      [⟨.claimIntent (ascii "DKG") pendingIntent.intentID,(acceptedClaim,none)⟩]
      (resolveClaim verdictLibraries pendingIntent acceptedClaim none) := .call (.start _)
  have hsurvey : (survey (actionable { pending := [pendingIntent] })).Ends
      [⟨.exists_ .primary pendingIntent.keyID,.ok true⟩,
        ⟨.exists_ .recovery pendingIntent.keyID,.ok false⟩]
      (.ok [wireItem]) := .call (.call (.start _))
  refine ⟨_,_,reconcile_surveyed pendingListing_valid hsurvey hdispose,
    ⟨⟨_,_,rfl,pendingListing_valid⟩,rfl,rfl⟩,?_⟩
  intro answer hmem
  simp only [List.cons_append, List.nil_append, List.mem_cons, List.not_mem_nil, or_false] at hmem
  obtain hmem | hmem | hmem | hmem | hmem | hmem := hmem
  case inr.inr.inr.inr.inr =>
    obtain ⟨-,hanswer⟩ := Sigma.mk.inj hmem
    exact eq_of_heq hanswer
  all_goals cases hmem

theorem wire_retirable : Retirable { pending := [pendingIntent] } [wireItem] wireItem :=
  ⟨rfl,.inl rfl,List.mem_singleton_self _,rfl,rfl⟩

/-- The run of a pending key whose claim the client accepts and that repeats what was listed. -/
theorem wire_claim_refused : ∃ h r, (reconcile verdictLibraries).Ends h r ∧
    Surveyed verdictLibraries { pending := [pendingIntent] } [wireItem] h ∧
    Retirable { pending := [pendingIntent] } [wireItem] wireItem ∧
    DkgWire (wireClaim pendingIntent) ∧
    claimIntent verdictLibraries (ascii "DKG") pendingIntent.intentID
      (.replied 200 (wireClaim pendingIntent)) = (acceptedClaim,none) ∧
    ClaimMatches pendingIntent acceptedClaim ∧ ¬Retires verdictLibraries pendingIntent r := by
  obtain ⟨h,r,hends,hs,hreply⟩ := wire_run
  have hmatches : ClaimMatches pendingIntent acceptedClaim := by
    constructor <;> simp only [acceptedClaim]
  refine ⟨h,r,hends,hs,wire_retirable,wireClaim_wire,wireClaim_accepted,hmatches,?_⟩
  rw [untyped_claim_faults hends hs wire_retirable wireClaim_wire wireClaim_accepted hreply]
  exact not_retires_fault _ _ _

theorem wire_claim_never_retires_sample : ∃ h r, (reconcile verdictLibraries).Ends h r ∧
    r = .ok { protocolIntegrity "claim response is not a typed CLAIMED DKG" with
      deadlineRaw := pendingIntent.deadlineRaw } ∧ ¬Retires verdictLibraries pendingIntent r := by
  obtain ⟨h,r,hends,hs,hreply⟩ := wire_run
  exact ⟨h,r,hends,wire_claim_never_retires hends hs wire_retirable wireClaim_wire
    wireClaim_accepted hreply⟩

end CoSigner.Reconcile
