import CoSigner.SigningPolicy.Prepared
import CoSigner.Contract.Encodings
import CoSigner.Lib.Url

/-! The records of the approval journal: how they are written, what makes them valid, and
that a valid record is read back as it was written. -/
namespace CoSigner.Approval
open Json Contract SigningPolicy
variable (L : Libraries)

structure Admission where
  version : Int := 0
  orgID : Bytes := []
  requestID : Bytes := []
  authorizationHash : Bytes := []
  mode : Bytes := []
  endpoint : Option Bytes := none
  admittedAt : Bytes := []
  deriving DecidableEq, Repr

structure SavedReceipt where
  version : Int := 0
  orgID : Bytes := []
  requestID : Bytes := []
  authorizationHash : Bytes := []
  signingKeyID : Bytes := []
  publicKey : Bytes := []
  bytes : Bytes := []
  deriving DecidableEq, Repr

structure ExecutionBinding where
  version : Int := 0
  orgID : Bytes := []
  requestID : Bytes := []
  outgoingID : Bytes := []
  authorizationHash : Bytes := []
  executionDigest : Bytes := []
  payloadType : Bytes := []
  hashAlgorithm : Bytes := []
  deriving DecidableEq, Repr

/-- `executionKnown`: the guard against the loss of a single artifact. -/
structure ExecutionKnown where
  version : Int := 0
  orgID : Bytes := []
  requestID : Bytes := []
  authorizationHash : Bytes := []
  bindingHash : Bytes := []
  deriving DecidableEq, Repr

/-- `deliveryAck`. -/
structure DeliveryAck where
  version : Int := 0
  orgID : Bytes := []
  requestID : Bytes := []
  receiptHash : Bytes := []
  application : Bytes := []
  deriving DecidableEq, Repr

def admissionSchema : Schema Admission where
  columns :=
    [column "version" (·.version) (fun r x => { r with version := x }) (.int 64),
      column "orgId" (·.orgID) (fun r x => { r with orgID := x }) .string,
      column "requestId" (·.requestID) (fun r x => { r with requestID := x }) .string,
      column "authorizationHash" (·.authorizationHash)
        (fun r x => { r with authorizationHash := x }) .string,
      column "mode" (·.mode) (fun r x => { r with mode := x }) .string,
      column "endpoint" (·.endpoint) (fun r x => { r with endpoint := x }) .optionalString,
      column "admittedAt" (·.admittedAt) (fun r x => { r with admittedAt := x }) .string]
  nonempty := by simp
  distinct := by decide +kernel
  plain := by decide +kernel

def receiptSchema : Schema SavedReceipt where
  columns :=
    [column "version" (·.version) (fun r x => { r with version := x }) (.int 64),
      column "orgId" (·.orgID) (fun r x => { r with orgID := x }) .string,
      column "requestId" (·.requestID) (fun r x => { r with requestID := x }) .string,
      column "authorizationHash" (·.authorizationHash)
        (fun r x => { r with authorizationHash := x }) .string,
      column "signingKeyId" (·.signingKeyID) (fun r x => { r with signingKeyID := x }) .string,
      column "publicKey" (·.publicKey) (fun r x => { r with publicKey := x }) .bytes,
      column "bytes" (·.bytes) (fun r x => { r with bytes := x }) .bytes]
  nonempty := by simp
  distinct := by decide +kernel
  plain := by decide +kernel

def executionSchema : Schema ExecutionBinding where
  columns :=
    [column "version" (·.version) (fun r x => { r with version := x }) (.int 64),
      column "orgId" (·.orgID) (fun r x => { r with orgID := x }) .string,
      column "requestId" (·.requestID) (fun r x => { r with requestID := x }) .string,
      column "outgoingId" (·.outgoingID) (fun r x => { r with outgoingID := x }) .string,
      column "authorizationHash" (·.authorizationHash)
        (fun r x => { r with authorizationHash := x }) .string,
      column "executionDigest" (·.executionDigest) (fun r x => { r with executionDigest := x })
        .string,
      column "payloadType" (·.payloadType) (fun r x => { r with payloadType := x }) .string,
      column "hashAlgorithm" (·.hashAlgorithm) (fun r x => { r with hashAlgorithm := x }) .string]
  nonempty := by simp
  distinct := by decide +kernel
  plain := by decide +kernel

def executionKnownSchema : Schema ExecutionKnown where
  columns :=
    [column "version" (·.version) (fun r x => { r with version := x }) (.int 64),
      column "orgId" (·.orgID) (fun r x => { r with orgID := x }) .string,
      column "requestId" (·.requestID) (fun r x => { r with requestID := x }) .string,
      column "authorizationHash" (·.authorizationHash)
        (fun r x => { r with authorizationHash := x }) .string,
      column "bindingHash" (·.bindingHash) (fun r x => { r with bindingHash := x }) .string]
  nonempty := by simp
  distinct := by decide +kernel
  plain := by decide +kernel

def acknowledgementSchema : Schema DeliveryAck where
  columns :=
    [column "version" (·.version) (fun r x => { r with version := x }) (.int 64),
      column "orgId" (·.orgID) (fun r x => { r with orgID := x }) .string,
      column "requestId" (·.requestID) (fun r x => { r with requestID := x }) .string,
      column "receiptHash" (·.receiptHash) (fun r x => { r with receiptHash := x }) .string,
      column "application" (·.application) (fun r x => { r with application := x }) .bytes]
  nonempty := by simp
  distinct := by decide +kernel
  plain := by decide +kernel

def admissionFields : List String :=
  ["version", "orgId", "requestId", "authorizationHash", "mode", "endpoint", "admittedAt"]

def receiptFields : List String :=
  ["version", "orgId", "requestId", "authorizationHash", "signingKeyId", "publicKey", "bytes"]

def acknowledgementFields : List String :=
  ["version", "orgId", "requestId", "receiptHash", "application"]

def executionFields : List String :=
  ["version", "orgId", "requestId", "outgoingId", "authorizationHash", "executionDigest",
    "payloadType", "hashAlgorithm"]

def executionKnownFields : List String :=
  ["version", "orgId", "requestId", "authorizationHash", "bindingHash"]

/-- `decodeRecord`. -/
def decodeRecord {σ : Type} (S : Schema σ) (zero : σ) (fields : List String) (raw : Bytes) :
    Option σ := do
  let r ← decodeClosed S.decoder zero raw
  let m ← unmarshal rawObject none raw
  if closed (m.getD []) fields then some r else none

def decodeAdmission : Bytes → Option Admission := decodeRecord admissionSchema {} admissionFields

def decodeReceipt : Bytes → Option SavedReceipt := decodeRecord receiptSchema {} receiptFields

def decodeAcknowledgement : Bytes → Option DeliveryAck :=
  decodeRecord acknowledgementSchema {} acknowledgementFields

def decodeExecution : Bytes → Option ExecutionBinding :=
  decodeRecord executionSchema {} executionFields

def decodeExecutionKnown : Bytes → Option ExecutionKnown :=
  decodeRecord executionKnownSchema {} executionKnownFields

/-- `validEndpoint`. -/
def validEndpoint (value : Bytes) : Bool :=
  match Url.parse value with
  | some u => u.scheme == ascii "https" && u.hostname != [] && !u.user && u.fragment == []
  | none => false

def externalMode : Bytes := ascii "external"

def autoApproveMode : Bytes := ascii "auto_approve"

def Admission.validate (a : Admission) : Bool :=
  a.version == 1 && validReference a.orgID && validReference a.requestID &&
    hex256 a.authorizationHash && validTimestamp a.admittedAt &&
    match a.endpoint with
    | none => a.mode == autoApproveMode
    | some endpoint => a.mode == externalMode && validEndpoint endpoint

/-- `equalJSON` of two admissions. -/
def equalJSON (a b : Admission) : Bool := admissionSchema.marshal a == admissionSchema.marshal b

/-- What a journal knows of one request. -/
structure State where
  admission : Option Admission := none
  receipt : Option SavedReceipt := none
  application : Bytes := []
  execution : Option ExecutionBinding := none
  deriving DecidableEq, Repr

/-- `validateReceipt`. -/
def validateReceipt (a : Admission) (r : SavedReceipt) : Except Err Unit :=
  if r.version != 1 || r.orgID != a.orgID || r.requestID != a.requestID ||
      r.authorizationHash != a.authorizationHash then .error .integrity
  else
    match verifyReceipt L r.bytes ⟨a.orgID,a.requestID,a.authorizationHash,r.signingKeyID,
        r.publicKey,true⟩ with
    | none => .error .contract
    | some v => if str v.envelope "source" != a.mode then .error .integrity else .ok ()

/-- `validateApplication`. -/
def validateApplication (raw request : Bytes) : Except Err Unit :=
  match parseDecisionApplication L raw with
  | none => .error .contract
  | some v => if str v "requestId" != request then .error .integrity else .ok ()

/-- `validateExecution`. -/
def validateExecution (s : State) (x : ExecutionBinding) : Bool :=
  match s.admission, s.receipt with
  | some a, some r =>
    !s.application.isEmpty &&
    (parseDecisionApplication L s.application).any
      (fun v => str v "disposition" == ascii "APPLIED") &&
    (parseReceipt L r.bytes).any (fun v => str v.envelope "decision" == ascii "APPROVED") &&
    x.version == 1 && x.orgID == a.orgID && x.requestID == a.requestID &&
    x.authorizationHash == a.authorizationHash && validReference x.outgoingID &&
    validPayloadHash x.payloadType x.hashAlgorithm && validExecutionDigest x.executionDigest
  | _, _ => false

theorem closed_names {o : Object} {fields : List String}
    (h : o.map Prod.fst = fields.map ascii) : closed o fields = true := by
  have hlen : o.length = fields.length := by simpa using congrArg List.length h
  have hall : ∀ k ∈ fields, o.has (ascii k) = true := by
    intro k hk
    have hmem : ascii k ∈ o.map Prod.fst := h ▸ List.mem_map.mpr ⟨k,hk,rfl⟩
    obtain ⟨m,hm,hkm⟩ := List.mem_map.mp hmem
    exact List.any_eq_true.mpr ⟨m,hm,by simp [hkm]⟩
  simpa [closed, hlen] using hall

theorem decodeRecord_marshal {σ : Type} {S : Schema σ} {zero r : σ} {fields : List String}
    (h : Rebuilds r S.columns zero r) (hf : S.names = fields.map ascii) :
    decodeRecord S zero fields (S.marshal r) = some r := by
  obtain ⟨v,hparse,hdepth,hdistinct,hstore,o,hobject,hnames⟩ := S.parse_marshal h
  have hclosed := closed_names (hnames.trans hf)
  simp [decodeRecord, decodeClosed, unmarshal, hparse, hdepth, hdistinct, hstore, hobject, hclosed,
    maxNestingDepth]

theorem bounded_valid {s : Bytes} {n : Nat} (h : bounded s n = true) : Utf8.valid s = true := by
  simp only [bounded, Bool.and_eq_true] at h
  exact h.1.2

theorem bounded_bytes {s : Bytes} {n : Nat} (h : bounded s n = true) :
    ∀ b ∈ s, 0x20 ≤ b.toNat := by
  simp only [bounded, Bool.and_eq_true, List.all_eq_true] at h
  obtain ⟨⟨-,hvalid⟩,hcontrol⟩ := h
  intro b hb
  rw [← Utf8.chunks_bytes s] at hb
  obtain ⟨c,hc,hb⟩ := List.mem_flatMap.mp hb
  have hchunk := Utf8.isChunk_of_mem hc
  have hgood : c.bad = false := by simpa using List.all_eq_true.mp hvalid c hc
  obtain ⟨x,hx,hlow⟩ | ⟨-,hhigh⟩ := hchunk.good_bytes hgood
  · obtain rfl : b = x := by simpa [hx] using hb
    have hnot := hcontrol c hc
    simp only [hchunk.rune_low hx hlow, isControl, Bool.not_eq_true', Bool.or_eq_false_iff,
      decide_eq_false_iff_not] at hnot
    omega
  · have hge := hhigh b hb
    omega

theorem validReference_valid {s : Bytes} (h : validReference s = true) : Utf8.valid s = true :=
  bounded_valid h

theorem hexDigits_valid {s : Bytes} (h : hexDigits s = true) : Utf8.valid s = true :=
  Utf8.valid_ascii (hexDigits_ascii h)

theorem hex256_valid {s : Bytes} (h : hex256 s = true) : Utf8.valid s = true := by
  simp only [hex256, Bool.and_eq_true] at h
  exact hexDigits_valid h.2

theorem validTimestamp_valid {s : Bytes} (h : validTimestamp s = true) :
    Utf8.valid s = true := by
  unfold validTimestamp at h
  split at h
  · simp only [Bool.and_eq_true, beq_iff_eq] at h
    exact h.2 ▸ Time.formatMillis_valid _
  · cases h

theorem validExecutionDigest_valid {s : Bytes} (h : validExecutionDigest s = true) :
    Utf8.valid s = true := by
  obtain ⟨b,hb⟩ := Option.isSome_iff_exists.mp h
  simp only [standardBase64, Option.bind_eq_bind, Option.bind_eq_some_iff, Option.bind_none,
    Option.ite_none_left_eq_some, Bool.or_eq_true, not_or, bne_iff_ne, ne_eq, not_not] at hb
  obtain ⟨c,-,⟨heq,-⟩,-⟩ := hb
  exact heq ▸ Base64.encode_valid _ _

theorem protocolForPayload_valid {s : Bytes} {p : Protocol} (h : protocolForPayload s = some p) :
    Utf8.valid s = true := by
  unfold protocolForPayload at h
  split at h
  · rename_i hs
    rw [eq_of_beq hs]
    decide +kernel
  · split at h
    · rename_i hs
      rw [eq_of_beq hs]
      decide +kernel
    · cases h

theorem validPayloadHash_valid {payloadType algorithm : Bytes}
    (h : validPayloadHash payloadType algorithm = true) :
    Utf8.valid payloadType = true ∧ Utf8.valid algorithm = true := by
  unfold validPayloadHash at h
  split at h
  · rename_i p hp
    refine ⟨protocolForPayload_valid hp,?_⟩
    rw [← eq_of_beq h]
    cases p <;> decide +kernel
  · cases h

theorem validReference_length {s : Bytes} (h : validReference s = true) : s.length ≤ 128 := by
  simp only [validReference, bounded, Bool.and_eq_true, decide_eq_true_eq] at h
  exact h.1.1.2

theorem hex256_length {s : Bytes} (h : hex256 s = true) : s.length = 64 := by
  simp only [hex256, Bool.and_eq_true, beq_iff_eq] at h
  exact h.1

theorem validExecutionDigest_length {s : Bytes} (h : validExecutionDigest s = true) :
    s.length = 44 := by
  obtain ⟨b,hb⟩ := Option.isSome_iff_exists.mp h
  simp only [standardBase64, Option.bind_eq_bind, Option.bind_eq_some_iff, Option.bind_none,
    Option.ite_none_left_eq_some, Bool.or_eq_true, not_or, bne_iff_ne, ne_eq, not_not,
    Option.any_some] at hb
  obtain ⟨c,-,⟨heq,hlen⟩,-⟩ := hb
  rw [← heq, Base64.encode_length_padded _ rfl, ← hlen]

theorem validPayloadHash_length {payloadType algorithm : Bytes}
    (h : validPayloadHash payloadType algorithm = true) :
    payloadType.length ≤ 64 ∧ algorithm.length ≤ 64 := by
  unfold validPayloadHash at h
  split at h
  · rename_i p hp
    rw [← eq_of_beq h]
    unfold protocolForPayload at hp
    split_ifs at hp with he ht
    · rw [eq_of_beq he]
      cases p <;> decide +kernel
    · rw [eq_of_beq ht]
      cases p <;> decide +kernel
  · cases h

/-- What validation says about an admission. -/
structure Admission.Valid (a : Admission) : Prop where
  version : a.version = 1
  orgID : validReference a.orgID = true
  requestID : validReference a.requestID = true
  authorizationHash : hex256 a.authorizationHash = true
  admittedAt : validTimestamp a.admittedAt = true
  mode : a.mode = externalMode ∧ a.endpoint.isSome = true ∨
    a.mode = autoApproveMode ∧ a.endpoint = none

theorem Admission.validate_valid {a : Admission} (h : a.validate = true) : a.Valid := by
  simp only [Admission.validate, Bool.and_eq_true, beq_iff_eq] at h
  obtain ⟨⟨⟨⟨⟨hv,ho⟩,hr⟩,hh⟩,ht⟩,hm⟩ := h
  refine ⟨hv,ho,hr,hh,ht,?_⟩
  split at hm
  · rename_i he
    exact .inr ⟨eq_of_beq hm,he⟩
  · rename_i e he
    simp only [Bool.and_eq_true, beq_iff_eq] at hm
    exact .inl ⟨hm.1,by simp [he]⟩

theorem decodeAdmission_marshal {a : Admission} (h : a.Valid)
    (he : ∀ e ∈ a.endpoint, Utf8.valid e = true) :
    decodeAdmission (admissionSchema.marshal a) = some a := by
  have hmode : Utf8.valid a.mode = true := by
    rcases h.mode with ⟨hm,-⟩ | ⟨hm,-⟩ <;> rw [hm] <;> decide +kernel
  have horg := Codec.string_keeps (validReference_valid h.orgID)
  have hrequest := Codec.string_keeps (validReference_valid h.requestID)
  have hhash := Codec.string_keeps (hex256_valid h.authorizationHash)
  have htime := Codec.string_keeps (validTimestamp_valid h.admittedAt)
  refine decodeRecord_marshal ?_ rfl
  exact .cons (h.version ▸ Codec.int_keeps_one) (.cons horg (.cons hrequest (.cons hhash
    (.cons (Codec.string_keeps hmode) (.cons (Codec.optionalString_keeps he)
      (.cons htime rfl))))))

theorem parseDecisionEnvelope_signingKeyID {raw : Bytes} {v : Object}
    (h : parseDecisionEnvelope L raw = some v) : validReference (str v "signingKeyId") = true := by
  simp only [parseDecisionEnvelope, Option.bind_eq_bind, Option.bind_eq_some_iff,
    Option.bind_none, Option.ite_none_left_eq_some] at h
  obtain ⟨w,-,-,hrefs,-,hw⟩ := h
  obtain rfl := Option.some.inj hw
  simp only [List.all_cons, List.all_nil, Bool.and_true, Bool.not_eq_true', Bool.not_eq_false,
    Bool.and_eq_true] at hrefs
  exact hrefs.2.2

/-- What `VerifyReceipt` has checked. -/
structure Verified (raw : Bytes) (trusted : TrustedReceipt) (r : Receipt) : Prop where
  parsed : parseReceipt L raw = some r
  orgID : str r.envelope "orgId" = trusted.orgID
  requestID : str r.envelope "requestId" = trusted.requestID
  authorizationHash : str r.envelope "authorizationHash" = trusted.authorizationHash
  signingKeyID : str r.envelope "signingKeyId" = trusted.signingKeyID
  signed : L.ed25519Verify trusted.publicKey (decisionDomain ++ r.envelopeBytes) r.signature = true

theorem verifyReceipt_verified {raw : Bytes} {trusted : TrustedReceipt} {r : Receipt}
    (h : verifyReceipt L raw trusted = some r) : Verified L raw trusted r := by
  simp only [verifyReceipt, Option.bind_eq_bind, Option.bind_eq_some_iff, Option.bind_none,
    Option.ite_none_left_eq_some, Bool.or_eq_true, not_or, bne_iff_ne, ne_eq, not_not,
    Bool.not_eq_true', Bool.not_eq_false] at h
  obtain ⟨v,hv,⟨⟨⟨ho,hr⟩,hh⟩,hk⟩,⟨-,hs⟩,hw⟩ := h
  obtain rfl := Option.some.inj hw
  exact ⟨hv,ho,hr,hh,hk,hs⟩

theorem parseReceipt_envelope {raw : Bytes} {r : Receipt} (h : parseReceipt L raw = some r) :
    parseDecisionEnvelope L r.envelopeBytes = some r.envelope := by
  simp only [parseReceipt, Option.bind_eq_bind, Option.bind_eq_some_iff, Option.bind_none,
    Option.ite_none_left_eq_some] at h
  obtain ⟨-,-,-,e,-,s,-,v,hv,hr⟩ := h
  obtain rfl := Option.some.inj hr
  exact hv

/-- What `validateReceipt` says about a receipt of an admission. -/
structure SavedReceipt.Valid (a : Admission) (r : SavedReceipt) : Prop where
  version : r.version = 1
  orgID : r.orgID = a.orgID
  requestID : r.requestID = a.requestID
  authorizationHash : r.authorizationHash = a.authorizationHash
  verified : ∃ v, Verified L r.bytes ⟨a.orgID,a.requestID,a.authorizationHash,r.signingKeyID,
    r.publicKey,true⟩ v ∧ str v.envelope "source" = a.mode

theorem validateReceipt_valid {a : Admission} {r : SavedReceipt}
    (h : validateReceipt L a r = .ok ()) : SavedReceipt.Valid L a r := by
  unfold validateReceipt at h
  split at h
  · cases h
  · rename_i hfields
    simp only [Bool.or_eq_true, bne_iff_ne, ne_eq, not_or, not_not] at hfields
    obtain ⟨⟨⟨hv,ho⟩,hr⟩,hh⟩ := hfields
    refine ⟨hv,ho,hr,hh,?_⟩
    split at h
    · cases h
    · rename_i v hverify
      split at h
      · cases h
      · rename_i hsource
        exact ⟨v,verifyReceipt_verified L hverify,by simpa using hsource⟩

theorem decodeReceipt_marshal {a : Admission} {r : SavedReceipt} (ha : a.Valid)
    (h : SavedReceipt.Valid L a r) : decodeReceipt (receiptSchema.marshal r) = some r := by
  obtain ⟨v,hv,-⟩ := h.verified
  have horg := Codec.string_keeps (validReference_valid (h.orgID ▸ ha.orgID))
  have hrequest := Codec.string_keeps (validReference_valid (h.requestID ▸ ha.requestID))
  have hhash := Codec.string_keeps (hex256_valid (h.authorizationHash ▸ ha.authorizationHash))
  have hkey := parseDecisionEnvelope_signingKeyID L (parseReceipt_envelope L hv.parsed)
  rw [hv.signingKeyID] at hkey
  refine decodeRecord_marshal ?_ rfl
  exact .cons (h.version ▸ Codec.int_keeps_one) (.cons horg (.cons hrequest (.cons hhash
    (.cons (Codec.string_keeps (validReference_valid hkey)) (.cons (Codec.bytes_keeps _)
      (.cons (Codec.bytes_keeps _) rfl))))))

/-- What `validateExecution` says about a binding. -/
structure ExecutionBinding.Valid (s : State) (x : ExecutionBinding) : Prop where
  evidence : ∃ a r, s.admission = some a ∧ s.receipt = some r ∧ x.orgID = a.orgID ∧
    x.requestID = a.requestID ∧ x.authorizationHash = a.authorizationHash ∧
    ∃ v, parseReceipt L r.bytes = some v ∧ str v.envelope "decision" = ascii "APPROVED"
  applied : ∃ v, parseDecisionApplication L s.application = some v ∧
    str v "disposition" = ascii "APPLIED"
  version : x.version = 1
  outgoingID : validReference x.outgoingID = true
  payloadHash : validPayloadHash x.payloadType x.hashAlgorithm = true
  executionDigest : validExecutionDigest x.executionDigest = true

theorem validateExecution_valid {s : State} {x : ExecutionBinding}
    (h : validateExecution L s x = true) : ExecutionBinding.Valid L s x := by
  unfold validateExecution at h
  split at h
  · rename_i a r ha hr
    simp only [Bool.and_eq_true, beq_iff_eq, Option.any_eq_true] at h
    obtain ⟨⟨⟨⟨⟨⟨⟨⟨⟨-,happ⟩,hrec⟩,hv⟩,ho⟩,hq⟩,hh⟩,hout⟩,hp⟩,hd⟩ := h
    exact ⟨⟨a,r,ha,hr,ho,hq,hh,hrec⟩,happ,hv,hout,hp,hd⟩
  · cases h

theorem decodeExecution_marshal {s : State} {x : ExecutionBinding}
    (hs : ∀ a ∈ s.admission, a.Valid) (h : ExecutionBinding.Valid L s x) :
    decodeExecution (executionSchema.marshal x) = some x := by
  obtain ⟨a,r,ha,-,ho,hq,hh,-⟩ := h.evidence
  have hadm := hs a ha
  have horg := Codec.string_keeps (validReference_valid (ho ▸ hadm.orgID))
  have hrequest := Codec.string_keeps (validReference_valid (hq ▸ hadm.requestID))
  have hhash := Codec.string_keeps (hex256_valid (hh ▸ hadm.authorizationHash))
  have hout := Codec.string_keeps (validReference_valid h.outgoingID)
  have hdigest := Codec.string_keeps (validExecutionDigest_valid h.executionDigest)
  have hpayload := validPayloadHash_valid h.payloadHash
  refine decodeRecord_marshal ?_ rfl
  exact .cons (h.version ▸ Codec.int_keeps_one) (.cons horg (.cons hrequest (.cons hout
    (.cons hhash (.cons hdigest (.cons (Codec.string_keeps hpayload.1)
      (.cons (Codec.string_keeps hpayload.2) rfl)))))))

theorem executionSchema_length {s : State} {x : ExecutionBinding}
    (hs : ∀ a ∈ s.admission, a.Valid) (h : ExecutionBinding.Valid L s x) :
    (executionSchema.marshal x).length ≤ 32768 := by
  obtain ⟨a,r,ha,-,ho,hq,hh,-⟩ := h.evidence
  have hadm := hs a ha
  have horg := validReference_length (ho ▸ hadm.orgID)
  have hrequest := validReference_length (hq ▸ hadm.requestID)
  have hout := validReference_length h.outgoingID
  have hhash := hex256_length (hh ▸ hadm.authorizationHash)
  have hdigest := validExecutionDigest_length h.executionDigest
  have hpayload := validPayloadHash_length h.payloadHash
  have hversion : (intLiteral x.version).length = 1 := by rw [h.version]; decide
  have hobject := object_length (executionSchema.columns.map fun k => (k.name,k.literal x))
  have hnames : (executionSchema.names.map fun name => (quote name).length).sum = 103 := by
    decide +kernel
  have q1 := quote_length x.orgID
  have q2 := quote_length x.requestID
  have q3 := quote_length x.outgoingID
  have q4 := quote_length x.authorizationHash
  have q5 := quote_length x.executionDigest
  have q6 := quote_length x.payloadType
  have q7 := quote_length x.hashAlgorithm
  simp only [executionSchema, Schema.names, List.map_cons, List.map_nil, List.sum_cons,
    List.sum_nil, column, Codec.string, Codec.int, hversion] at hobject hnames
  show (object _).length ≤ 32768
  simp only [executionSchema, List.map_cons, List.map_nil, column, Codec.string, Codec.int]
  omega

theorem hash_valid (raw : Bytes) : Utf8.valid (hash L raw) = true :=
  hexDigits_valid (hexEncode_hexDigits _)

theorem decodeExecutionKnown_marshal {k : ExecutionKnown} (hv : k.version = 1)
    (ho : validReference k.orgID = true) (hr : validReference k.requestID = true)
    (hh : hex256 k.authorizationHash = true) (hb : Utf8.valid k.bindingHash = true) :
    decodeExecutionKnown (executionKnownSchema.marshal k) = some k := by
  refine decodeRecord_marshal ?_ rfl
  exact .cons (hv ▸ Codec.int_keeps_one) (.cons (Codec.string_keeps (validReference_valid ho))
    (.cons (Codec.string_keeps (validReference_valid hr))
      (.cons (Codec.string_keeps (hex256_valid hh)) (.cons (Codec.string_keeps hb) rfl))))

theorem decodeAcknowledgement_marshal {k : DeliveryAck} (hv : k.version = 1)
    (ho : validReference k.orgID = true) (hr : validReference k.requestID = true)
    (hh : Utf8.valid k.receiptHash = true) :
    decodeAcknowledgement (acknowledgementSchema.marshal k) = some k := by
  refine decodeRecord_marshal ?_ rfl
  exact .cons (hv ▸ Codec.int_keeps_one) (.cons (Codec.string_keeps (validReference_valid ho))
    (.cons (Codec.string_keeps (validReference_valid hr))
      (.cons (Codec.string_keeps hh) (.cons (Codec.bytes_keeps _) rfl))))

end CoSigner.Approval
