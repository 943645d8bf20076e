import CoSigner.Approval.Dependence
import CoSigner.SigningPolicy.Ethereum
import CoSigner.SigningPolicy.Tron

/-! What a signature rests on: one execution for each approved request, and behind every
intent that the gate lets through the whole chain of evidence. -/
namespace CoSigner.Approval
open Attempt Json Contract SigningPolicy Monolith
variable (L : Libraries)

section Runs
variable {ι : Type} [DecidableEq ι] {w : World}
  {p : Pool ι Call Op Answer World (Except Err Outcome)}

/-- The execution that a call binds. -/
def Call.binding : Call → Option ExecutionBinding
  | .bindExecution x => some x
  | .authorize i => i.approval.map (executionBinding i)
  | _ => none

theorem Recorded.bound {Has : Bytes → Bytes → Prop} {c : Call} {o : Outcome}
    (h : Recorded L Has c o) {x : ExecutionBinding} (hx : c.binding = some x) : Bound L Has x := by
  cases c with
  | bindExecution y =>
    obtain rfl := Option.some.inj hx
    exact h
  | authorize i =>
    obtain ⟨-,a,p,state,now,auth,ha,-,-,-,-,-,-,hbound⟩ := h
    simp only [Call.binding, ha, Option.map_some, Option.some.injEq] at hx
    exact hx ▸ hbound
  | _ => cases hx

theorem Bound.decode {Has : Bytes → Bytes → Prop} {x : ExecutionBinding} (h : Bound L Has x) :
    decodeExecution (executionSchema.marshal x) = some x := by
  obtain ⟨state,hloaded,hvalid,-⟩ := h
  refine decodeExecution_marshal L (s := state) ?_ (validateExecution_valid L hvalid)
  intro a ha
  obtain ⟨-,-,-,-,-,hv⟩ := hloaded.admission a ha
  exact Admission.validate_valid hv

/-- All executions bound for one request are the same. -/
theorem bindings_agree (h : JournalRun L (opened w) p) {c c' : Call}
    {o o' : Outcome} (hc : (c,.ok o) ∈ p.log) (hc' : (c',.ok o') ∈ p.log)
    {x x' : ExecutionBinding} (hx : c.binding = some x) (hx' : c'.binding = some x')
    (horg : x.orgID = x'.orgID) (hrequest : x.requestID = x'.requestID) : x = x' := by
  have hlog := (h.good L).log
  have hb := (hlog _ _ hc o rfl).bound L hx
  have hb' := (hlog _ _ hc' o' rfl).bound L hx'
  obtain ⟨-,-,-,-,hfile⟩ := id hb
  obtain ⟨-,-,-,-,hfile'⟩ := id hb'
  rw [← horg, ← hrequest] at hfile'
  have hsame := hfile.holds.unique hfile'.holds
  exact Option.some.inj (hb.decode.symm.trans ((congrArg decodeExecution hsame).trans hb'.decode))

/-- What an intent rests on that the gate has let through. -/
structure Cleared (Has : Bytes → Bytes → Prop) (i : Intent) (a : ApprovedExecution)
    (prepared : PreparedTransfer) (policy : Context) (admission : Admission)
    (saved : SavedReceipt) (receipt : Receipt) (auth : Object) (raw : Bytes) : Prop where
  version : i.version = 2
  hasApproval : i.approval = some a
  hasPrepared : i.prepared = some prepared
  hasPolicy : i.payload.policyContext = some policy
  outgoing : a.outgoingID = i.intentID
  admitted : HasAdmission L Has i.payload.orgID a.requestID admission
  receipted : HasReceipt L Has i.payload.orgID a.requestID admission saved
  parsed : parseReceipt L saved.bytes = some receipt
  signed : L.ed25519Verify saved.publicKey (decisionDomain ++ receipt.envelopeBytes)
    receipt.signature = true
  approved : str receipt.envelope "decision" = ascii "APPROVED"
  envelope : str receipt.envelope "orgId" = i.payload.orgID ∧
    str receipt.envelope "requestId" = a.requestID ∧
    str receipt.envelope "authorizationHash" = admission.authorizationHash
  acknowledged : ∃ raw ack application, Has (path L i.payload.orgID a.requestID .ack) raw ∧
    decodeAcknowledgement raw = some ack ∧ ack.receiptHash = digest L saved.bytes ∧
    parseDecisionApplication L ack.application = some application ∧
    str application "disposition" = ascii "APPLIED"
  bound : Bound L Has (executionBinding i a)
  hashed : ∃ text, L.jcs a.authorization = some text ∧ parseAuthorization L text = some auth ∧
    hash L text = admission.authorizationHash ∧ hash L text = saved.authorizationHash
  names : str auth "orgId" = i.payload.orgID ∧ str auth "walletId" = i.payload.walletID ∧
    str auth "keyId" = i.payload.keyID ∧
    str auth "derivationContextHash" = i.payload.derivationContextHash
  context : ∃ context, L.jcs (DerivationContext.marshal i.payload.derivationContext) =
    some context ∧ auth.get (ascii "derivationContext") = some context
  bytes : hexDecode prepared.unsignedTransaction = some raw
  transfer : isEthereumChain policy.chain = true ∧ i.payload.digest = L.keccak256 raw ∧
      (isNull auth "tokenStandard" = true → str auth "asset" = ascii "ETH") ∧
      (∃ tx, EthereumBytes policy prepared auth raw tx) ∨
    isTronChain policy.chain = true ∧ i.payload.digest = L.sha256 raw ∧
      ∃ tx c, TronBytes L policy prepared auth raw tx c

/-- The evidence that the gate wants to see for an approval. -/
structure Held (a : ApprovedExecution) (state : State) (admission : Admission)
    (saved : SavedReceipt) (receipt : Receipt) (application : Object) : Prop where
  admitted : state.admission = some admission
  receipted : state.receipt = some saved
  hash : admission.authorizationHash = a.authorizationHash
  same : sameReceipt L saved.bytes a.decisionReceipt = some true
  parsed : parseReceipt L saved.bytes = some receipt
  approved : str receipt.envelope "decision" = ascii "APPROVED"
  acknowledged : state.application ≠ []
  read : parseDecisionApplication L state.application = some application
  disposition : str application "disposition" = ascii "APPLIED"

theorem heldDecision_iff {a : ApprovedExecution} {state : State} :
    heldDecision L a state = none ↔
      ∃ admission saved receipt application, Held L a state admission saved receipt application := by
  constructor
  · intro h
    unfold heldDecision at h
    split at h
    swap
    · cases h
    rename_i admission saved ha hr
    split at h
    · cases h
    rename_i hhash
    split at h
    · cases h
    rename_i hsame
    split at h
    · cases h
    rename_i receipt hparsed
    split at h
    · cases h
    rename_i hdecision
    split at h
    · cases h
    rename_i hsome
    split at h
    · cases h
    rename_i application happlication
    exact ⟨admission,saved,receipt,application,ha,hr,by simpa using hhash,by simpa using hsame,
      hparsed,by simpa using hdecision,by simpa using hsome,happlication,by simpa using h⟩
  · rintro ⟨admission,saved,receipt,application,h⟩
    simp [heldDecision, h.admitted, h.receipted, h.hash, h.same, h.parsed, h.approved,
      h.acknowledged, h.read, h.disposition]

theorem authorizedPayload_names {payload : IntentPayload} {auth : Object}
    (h : authorizedPayload L payload auth = true) :
    (str auth "orgId" = payload.orgID ∧ str auth "walletId" = payload.walletID ∧
      str auth "keyId" = payload.keyID ∧
      str auth "derivationContextHash" = payload.derivationContextHash) ∧
    ∃ context, L.jcs (DerivationContext.marshal payload.derivationContext) = some context ∧
      context = (auth.get (ascii "derivationContext")).getD [] := by
  simp only [authorizedPayload, Bool.and_eq_true, payloadTerms, List.all_cons, List.all_nil,
    beq_iff_eq, and_true] at h
  obtain ⟨hnames,hcontext⟩ := h
  refine ⟨hnames,?_⟩
  split at hcontext
  · cases hcontext
  · rename_i context hjcs
    exact ⟨context,hjcs,eq_of_beq hcontext⟩

/-- An intent that the gate lets through rests on durable evidence for exactly that transfer. -/
theorem authorize_sound (hrlp : ∀ tx, L.rlpEncode tx = some (type2Bytes tx))
    (h : JournalRun L (opened w) p) {i : Intent} {o : Outcome}
    (hlog : (.authorize i,.ok o) ∈ p.log) :
    ∃ a prepared policy admission saved receipt auth raw,
      Cleared L (fun name raw => ∀ q, JournalRun L p q → q.shared.directory.Durable name raw)
        i a prepared policy admission saved receipt auth raw := by
  obtain ⟨hversion,a,prepared,state,now,auth,ha,hp,hout,hloaded,hheld,hverify,hpayload,hbound⟩ :=
    h.recorded L hlog
  obtain ⟨admission,saved,receipt,application,hadm,hrec,hhash,-,hparsed,hdecision,happ,hparsedApp,
    hdisposition⟩ := (heldDecision_iff L).mp hheld
  obtain ⟨admission',hadm',hreceipt⟩ := hloaded.receipt saved hrec
  obtain rfl := Option.some.inj (hadm.symm.trans hadm')
  have hadmission := hloaded.admission admission hadm
  obtain ⟨-,-,-,horg,hrequest,-⟩ := id hadmission
  obtain ⟨-,-,-,hvalid⟩ := id hreceipt
  have hv := validateReceipt_valid L hvalid
  obtain ⟨receipt',hverified,-⟩ := hv.verified
  obtain rfl := Option.some.inj (hparsed.symm.trans hverified.parsed)
  obtain ⟨saved',hrec',rawAck,ack,hack,hdecode,hackApp,hvalidAck,-⟩ := hloaded.application happ
  obtain rfl := Option.some.inj (hrec.symm.trans hrec')
  simp only [validAck, Bool.and_eq_true, beq_iff_eq] at hvalidAck
  obtain ⟨policy,raw,protocol,hpolicy,hchecked⟩ := verifyPrepared_verified hverify
  obtain ⟨text,htext,hauth,htextHash⟩ := hchecked.canonical
  obtain ⟨hnames,context,hjcs,hcontext⟩ := authorizedPayload_names L hpayload
  refine ⟨a,prepared,policy,admission,saved,receipt,auth,raw,?_⟩
  refine
    { version := hversion, hasApproval := ha, hasPrepared := hp, hasPolicy := hpolicy
      outgoing := hout, admitted := hadmission, receipted := hreceipt, parsed := hparsed
      signed := hverified.signed
      approved := hdecision
      envelope := ⟨hverified.orgID.trans horg,hverified.requestID.trans hrequest,
        hverified.authorizationHash⟩
      acknowledged := ⟨rawAck,ack,application,hack,hdecode,hvalidAck.2,hackApp ▸ hparsedApp,
        hdisposition⟩
      bound := hbound
      hashed := ⟨text,htext,hauth,htextHash.trans hhash.symm,
        (htextHash.trans hhash.symm).trans hv.authorizationHash.symm⟩
      names := hnames
      context := ⟨context,hjcs,?_⟩
      bytes := hchecked.bytes
      transfer := ?_ }
  · obtain ⟨v,hget⟩ := parseAuthorization_has L hauth "derivationContext"
      (by simp [authorizationFields])
    rw [hcontext, hget]
    rfl
  · cases protocol with
    | ethereum =>
      exact .inl ⟨hchecked.chain,hchecked.checkedBytes.2.1,hchecked.ethereumTerms.2.native,
        hchecked.ethereumBytes hrlp⟩
    | tron => exact .inr ⟨hchecked.chain,hchecked.checkedTron.1,hchecked.tronBytes⟩

end Runs

theorem succeed_run {calls : List Call} {w t t' : World} {log : List (Call × Except Err Outcome)}
    (hrun : JournalRun L (opened w)
      ({ shared := t, log := log } : Pool Unit Call Op Answer World (Except Err Outcome)))
    (h : succeed L calls t = some t') :
    JournalRun L (opened w) ({ shared := t', log := log ++ calls.map (·,.ok .done) } :
      Pool Unit Call Op Answer World (Except Err Outcome)) := by
  induction calls generalizing t log with
  | nil =>
    obtain rfl := Option.some.inj h
    simpa using hrun
  | cons c calls ih =>
    obtain ⟨u,hexec,hrest⟩ := succeed_cons L h
    have hcall : JournalRun L (opened w) ({ shared := u, log := log ++ [(c,.ok .done)] } :
        Pool Unit Call Op Answer World (Except Err Outcome)) := by
      refine hrun.trans (Pool.Reach.exec ?_ (i := ()) rfl hexec)
      exact fun hs => serve_performs hs
    simpa using ih hcall hrest

/-- The decision of the vector `ethereum:mainnet-native`. -/
def mainnetEnvelope : Bytes :=
  VectorTerms.braces [
    VectorTerms.entry "audience" (VectorTerms.plain (ascii "brosettlement-transfer-approval")),
    VectorTerms.entry "authorizationHash" (VectorTerms.plain mainnetHash),
    VectorTerms.entry "decidedAt" (VectorTerms.plain (ascii "2026-10-19T10:00:00.000Z")),
    VectorTerms.entry "decision" (ascii "\"APPROVED\""),
    VectorTerms.entry "domain"
      (VectorTerms.plain (ascii "brosettlement.co-signer." ++ ascii "approval-decision")),
    VectorTerms.entry "externalDecisionReference" (ascii "null"),
    VectorTerms.entry "orgId" (VectorTerms.plain VectorTerms.orgID),
    VectorTerms.entry "reason" (ascii "null"),
    VectorTerms.entry "requestId" (VectorTerms.plain VectorTerms.requestID),
    VectorTerms.entry "signingKeyId" (VectorTerms.plain (ascii "synthetic-approval-ed25519")),
    VectorTerms.entry "source" (ascii "\"external\""),VectorTerms.entry "version" (ascii "1")]

def mainnetSignature : Bytes :=
  Strings.bigEndian 32 0x35030b566e728475f186c802a25b592fa5fd3336e6dae0a1322118af7e9e9fd6 ++
    Strings.bigEndian 32 0x9381ddd00b55b94f422266ff38a8849b00c6053c8f59ba723b31833f0f831f02

def mainnetDecisionKey : Bytes := Strings.bigEndian 32
  0x2152f8d19b791d24453242e15f2eab6cb7cffa7b6a5ed30097960e069881db12

def mainnetReceipt : SavedReceipt where
  version := 1
  orgID := VectorTerms.orgID
  requestID := VectorTerms.requestID
  authorizationHash := mainnetHash
  signingKeyID := ascii "synthetic-approval-ed25519"
  publicKey := mainnetDecisionKey
  bytes := VectorTerms.braces [VectorTerms.entry "version" (ascii "1"),
    VectorTerms.entry "envelopeBase64" (VectorTerms.plain (Base64.std.encode mainnetEnvelope)),
    VectorTerms.entry "signatureBase64" (VectorTerms.plain (Base64.std.encode mainnetSignature))]

def mainnetAdmission : Admission where
  version := 1
  orgID := VectorTerms.orgID
  requestID := VectorTerms.requestID
  authorizationHash := mainnetHash
  mode := externalMode
  endpoint := some (ascii "https://approval.example/v1")
  admittedAt := ascii "2026-10-19T10:00:00.000Z"

def mainnetApplication : Bytes :=
  VectorTerms.braces [VectorTerms.entry "disposition" (ascii "\"APPLIED\""),
    VectorTerms.entry "outcome" (ascii "\"ACCEPTED\""),
    VectorTerms.entry "requestId" (VectorTerms.plain VectorTerms.requestID),
    VectorTerms.entry "version" (ascii "1")]

def mainnetContext : DerivationContext where
  profileID := ascii "synthetic-bip44-account-0"
  profileTemplateID := mainnetTerms.profileTemplate
  chain := mainnetTerms.chain
  algorithm := ascii "ECDSA"
  curve := ascii "secp256k1"
  scheme := ascii "bip32_secp256k1"
  accountPath := mainnetTerms.accountPath
  childPath := ascii "/0/0"
  fullPath := mainnetTerms.accountPath ++ ascii "/0/0"
  addressEncoding := mainnetTerms.addressEncoding
  expectedAddress := mainnetTerms.sender
  expectedPublicKey := mainnetTerms.publicKey
  publicKeyFormat := ascii "uncompressed_hex"
  descriptorVersion := 1
  profileVersion := 1
  keyVersion := 1

def mainnetApproval : ApprovedExecution :=
  { mainnetTerms.approval mainnetHash with decisionReceipt := mainnetReceipt.bytes }

def mainnetIntent : Intent where
  version := 2
  approval := some mainnetApproval
  prepared := some mainnetPrepared
  intentID := VectorTerms.outgoingID
  payload :=
    { orgID := VectorTerms.orgID
      walletID := VectorTerms.walletID
      keyID := VectorTerms.keyID
      digest := mainnetDigest
      hashAlgorithm := ethereumHashAlgorithm
      signingPayloadType := ethereumPayloadType
      derivationContextHash := mainnetTerms.contextHash
      derivationContext := some mainnetContext
      policyContext := some mainnetPolicy }

def mainnetBinding : ExecutionBinding := executionBinding mainnetIntent mainnetApproval

/-- The libraries at the values of the vector and of its records. -/
def mainnetGate : Libraries :=
  { mainnetLibraries with
    sha256 := tabled [(mainnetTerms.authorization,hexBytes mainnetHash),
      (VectorTerms.orgID ++ 0 :: VectorTerms.requestID,Strings.bigEndian 32
        0xc63ac8d10d965e2d0b7cb7cada87c8db2923d4f688f8ff108342545b9b3d7a7a),
      (mainnetReceipt.bytes,Strings.bigEndian 32
        0xc20fbef020cdd843646b74f458e0907f82782fa42ddd44a5a7c10a69e5ecdcb7),
      (executionSchema.marshal mainnetBinding,Strings.bigEndian 32
        0x38a227c66ada9dc578ddc3a1045a402a484544971f94c259fb9ce3922126df8a)]
    jcs := fun raw => some (if raw == DerivationContext.marshal (some mainnetContext) then
      mainnetTerms.context else raw)
    ed25519Verify := fun key message signature => key == mainnetDecisionKey &&
      message == decisionDomain ++ mainnetEnvelope && signature == mainnetSignature }

/-- The evidence of the vector is recorded and its execution bound, and then the gate lets its
intent through. -/
def mainnetCalls : List Call :=
  [.journalAdmit mainnetAdmission,.saveReceipt mainnetReceipt,
    .acknowledge VectorTerms.orgID VectorTerms.requestID mainnetApplication,
    .bindExecution mainnetBinding,.authorize mainnetIntent]

theorem mainnet_run : ∃ w, JournalRun mainnetGate (opened { directory := fun _ => none })
    ({ shared := w, log := mainnetCalls.map (·,.ok .done) } :
      Pool Unit Call Op Answer World (Except Err Outcome)) := by
  have hmade : (succeed mainnetGate mainnetCalls { directory := fun _ => none }).isSome = true := by
    decide +kernel
  obtain ⟨w,hmade⟩ := Option.isSome_iff_exists.mp hmade
  have hrun := succeed_run mainnetGate (w := { directory := fun _ => none }) .refl hmade
  exact ⟨w,hrun⟩

/-- A binding and an authorization of the vector, both made. -/
theorem bindings_agree_mainnet : ∃ q : Pool Unit Call Op Answer World (Except Err Outcome),
    JournalRun mainnetGate (opened { directory := fun _ => none }) q ∧
    ∃ x x', (.bindExecution x,.ok .done) ∈ q.log ∧ (.authorize mainnetIntent,.ok .done) ∈ q.log ∧
      (Call.authorize mainnetIntent).binding = some x' ∧ x = x' := by
  obtain ⟨w,hrun⟩ := mainnet_run
  have hbound : (Call.bindExecution mainnetBinding,(.ok .done : Except Err Outcome)) ∈
      mainnetCalls.map (·,.ok .done) := by
    simp [mainnetCalls]
  have hauthorized : (Call.authorize mainnetIntent,(.ok .done : Except Err Outcome)) ∈
      mainnetCalls.map (·,.ok .done) := by
    simp [mainnetCalls]
  exact ⟨_,hrun,mainnetBinding,mainnetBinding,hbound,hauthorized,rfl,
    bindings_agree mainnetGate hrun hbound hauthorized rfl rfl rfl rfl⟩

theorem authorize_sound_mainnet : ∃ q : Pool Unit Call Op Answer World (Except Err Outcome),
    JournalRun mainnetGate (opened { directory := fun _ => none }) q ∧
    (.authorize mainnetIntent,.ok .done) ∈ q.log ∧
    ∃ a prepared policy admission saved receipt auth raw,
      Cleared mainnetGate
        (fun name raw => ∀ r, JournalRun mainnetGate q r → r.shared.directory.Durable name raw)
        mainnetIntent a prepared policy admission saved receipt auth raw := by
  obtain ⟨w,hrun⟩ := mainnet_run
  have hauthorized : (Call.authorize mainnetIntent,(.ok .done : Except Err Outcome)) ∈
      mainnetCalls.map (·,.ok .done) := by
    simp [mainnetCalls]
  exact ⟨_,hrun,hauthorized,authorize_sound mainnetGate (fun _ => rfl) hrun hauthorized⟩

end CoSigner.Approval
