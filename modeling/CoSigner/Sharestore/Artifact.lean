import CoSigner.Contract.Descriptor
import CoSigner.Errors

/-! Share artifacts (`sharestore`): store configurations, the encrypted envelope around a
share, and the loader that validates it. -/
namespace CoSigner.Sharestore
open Json Contract
variable (L : Libraries)

inductive StorePurpose where
  | primary | recovery
  deriving DecidableEq, Repr

def StorePurpose.text : StorePurpose → Bytes
  | .primary => ascii "primary"
  | .recovery => ascii "recovery"

/-- `partyIDForPurpose`. -/
def StorePurpose.partyID : StorePurpose → Bytes
  | .primary => ascii "co-signer-primary"
  | .recovery => ascii "co-signer-recovery"

def validateBindingIdentifier (value : Bytes) : Bool :=
  !value.isEmpty && value.length ≤ 255 && Strings.trimSpace value == value &&
    value.all fun b => 0x20 ≤ b.toNat && b.toNat ≤ 0x7E

/-- What `NewKeyProvider` can return. -/
structure KeyProvider where
  key : Bytes
  keyRef : Bytes
  keyLength : key.length = 32
  keyRefValid : validateBindingIdentifier keyRef = true

def newKeyProvider (encodedKey keyRef : Bytes) : Option KeyProvider :=
  match Base64.stdStrict.decode encodedKey with
  | none => none
  | some key =>
    if h : Base64.std.encode key = encodedKey ∧ key.length = 32 ∧
        validateBindingIdentifier keyRef = true then
      some ⟨key,keyRef,h.2.1,h.2.2⟩
    else none

structure StoreConfig where
  purpose : StorePurpose
  directory : Bytes
  keyProvider : KeyProvider

def StoreConfig.partyID (c : StoreConfig) : Bytes := c.purpose.partyID

def StoreConfig.keyRef (c : StoreConfig) : Bytes := c.keyProvider.keyRef

structure ArtifactEncryptionV1 where
  algorithm : Bytes := []
  keyRef : Bytes := []
  nonce : Bytes := []
  ciphertext : Bytes := []
  tag : Bytes := []
  deriving DecidableEq, Repr

structure ArtifactEnvelopeV1 where
  version : Int := 0
  encryption : ArtifactEncryptionV1 := {}
  deriving DecidableEq, Repr

structure ArtifactPayloadV1 where
  artifactPayloadVersion : Int := 0
  sessionID : Bytes := []
  partyID : Bytes := []
  descriptorBytesBase64 : Bytes := []
  shareBlob : Bytes := []
  deriving DecidableEq, Repr

def encryptionSchema : Schema ArtifactEncryptionV1 where
  columns := [
    column "algorithm" (·.algorithm) (fun s x => { s with algorithm := x }) .string,
    column "keyRef" (·.keyRef) (fun s x => { s with keyRef := x }) .string,
    column "nonce" (·.nonce) (fun s x => { s with nonce := x }) .string,
    column "ciphertext" (·.ciphertext) (fun s x => { s with ciphertext := x }) .string,
    column "tag" (·.tag) (fun s x => { s with tag := x }) .string]
  nonempty := by simp
  distinct := by decide
  plain := by decide

def payloadSchema : Schema ArtifactPayloadV1 where
  columns := [
    column "artifactPayloadVersion" (·.artifactPayloadVersion)
      (fun s x => { s with artifactPayloadVersion := x }) (.int 64),
    column "sessionId" (·.sessionID) (fun s x => { s with sessionID := x }) .string,
    column "partyId" (·.partyID) (fun s x => { s with partyID := x }) .string,
    column "descriptorBytesBase64" (·.descriptorBytesBase64)
      (fun s x => { s with descriptorBytesBase64 := x }) .string,
    column "shareBlob" (·.shareBlob) (fun s x => { s with shareBlob := x }) .string]
  nonempty := by simp
  distinct := by decide
  plain := by decide

def ArtifactEnvelopeV1.fields : List (Json.Field ArtifactEnvelopeV1) := [
  field "version" (·.version) (fun s x => { s with version := x }) (int 64),
  field "encryption" (·.encryption) (fun s x => { s with encryption := x })
    encryptionSchema.decoder]

def ArtifactEnvelopeV1.marshal (e : ArtifactEnvelopeV1) : Bytes :=
  object [(ascii "version",intLiteral e.version),
    (ascii "encryption",encryptionSchema.marshal e.encryption)]

/-- `strictjson.DecodeCanonical`. -/
def decodeCanonical {α : Type} (d : Decoder α) (marshal : α → Bytes) (zero : α) (raw : Bytes) :
    Option α := do
  let target ← decodeClosed d zero raw
  if marshal target != raw then none
  some target

structure PublishInput where
  sessionID : Bytes := []
  keyID : Bytes := []
  partyID : Bytes := []
  descriptorBytes : Bytes := []
  codecBlob : Bytes := []
  deriving DecidableEq, Repr

structure ExpectedArtifactContext where
  sessionID : Bytes := []
  keyID : Bytes := []
  descriptorBytes : Bytes := []
  deriving DecidableEq, Repr

structure ArtifactEvidence where
  sessionID : Bytes := []
  keyID : Bytes := []
  partyID : Bytes := []
  purpose : StorePurpose := .primary
  descriptorFingerprint : Bytes := []
  accountPublicKey : Bytes := []
  chainCodeHash : Bytes := []
  codecVersion : Nat := 0
  artifactFingerprint : Bytes := []
  deriving DecidableEq, Repr

def artifactEncryption : Bytes := ascii "AES-256-GCM"

def artifactNonceBytes : Nat := 12
def artifactTagBytes : Nat := 16
def maxArtifactEnvelopeBytes : Nat := 16 * 2 ^ 20
def maxArtifactCipherBytes : Nat := 12 * 2 ^ 20
def maxArtifactPayloadBytes : Nat := 8 * 2 ^ 20

def validatePublishInput (config : StoreConfig) (input : PublishInput) : Bool :=
  !input.sessionID.isEmpty && input.partyID == config.partyID &&
    ((parseCanonicalDescriptor L input.descriptorBytes).any fun d => d.1.keyID == input.keyID) &&
    keyIDPattern input.keyID && !input.codecBlob.isEmpty &&
    input.codecBlob.length ≤ maxArtifactPayloadBytes &&
    (L.inspectKeyMaterial input.codecBlob).isSome

def PublishInput.payload (input : PublishInput) : ArtifactPayloadV1 where
  artifactPayloadVersion := 1
  sessionID := input.sessionID
  partyID := input.partyID
  descriptorBytesBase64 := Base64.std.encode input.descriptorBytes
  shareBlob := Base64.std.encode input.codecBlob

def StoreConfig.envelope (config : StoreConfig) (nonce ciphertext tag : Bytes) :
    ArtifactEnvelopeV1 where
  version := 1
  encryption := {
    algorithm := artifactEncryption
    keyRef := config.keyRef
    nonce := Base64.std.encode nonce
    ciphertext := Base64.std.encode ciphertext
    tag := Base64.std.encode tag }

def encodeArtifactV1 (config : StoreConfig) (input : PublishInput) (nonce : Bytes) :
    Option Bytes := do
  if nonce.length != artifactNonceBytes then none
  if !validatePublishInput L config input then none
  let payloadBytes := payloadSchema.marshal input.payload
  if maxArtifactPayloadBytes < payloadBytes.length then none
  let sealed := L.gcmSeal config.keyProvider.key nonce payloadBytes
  let ciphertext := sealed.take (sealed.length - artifactTagBytes)
  let tag := sealed.drop (sealed.length - artifactTagBytes)
  let finalBytes := (config.envelope nonce ciphertext tag).marshal
  if maxArtifactEnvelopeBytes < finalBytes.length then none
  some finalBytes

/-- `EncodedLen` of the standard encoding. -/
def encodedLen (n : Nat) : Nat := (n + 2) / 3 * 4

def strictBase64 (encoded : Bytes) (maximum : Nat) : Option Bytes := do
  if encoded.isEmpty || encodedLen maximum < encoded.length then none
  let decoded ← Base64.stdStrict.decode encoded
  if maximum < decoded.length || Base64.std.encode decoded != encoded then none
  some decoded

/-- `loadValidatedRuntimeShare` up to the decrypted payload. -/
def openEnvelope (config : StoreConfig) (finalBytes : Bytes) : Option Bytes := do
  if finalBytes.isEmpty || maxArtifactEnvelopeBytes < finalBytes.length then none
  let envelope ← decodeCanonical (struct ArtifactEnvelopeV1.fields) ArtifactEnvelopeV1.marshal {}
    finalBytes
  if envelope.version != 1 || envelope.encryption.algorithm != artifactEncryption ||
      envelope.encryption.keyRef != config.keyRef then none
  let nonce ← strictBase64 envelope.encryption.nonce artifactNonceBytes
  if nonce.length != artifactNonceBytes then none
  let ciphertext ← strictBase64 envelope.encryption.ciphertext maxArtifactCipherBytes
  let tag ← strictBase64 envelope.encryption.tag artifactTagBytes
  if tag.length != artifactTagBytes ||
      maxArtifactCipherBytes < ciphertext.length + tag.length then none
  let payloadBytes ← L.gcmOpen config.keyProvider.key nonce (ciphertext ++ tag)
  if payloadBytes.isEmpty || maxArtifactPayloadBytes < payloadBytes.length then none
  some payloadBytes

/-- The rest of `loadValidatedRuntimeShare`. -/
def loadPayload (config : StoreConfig) (expected : Option ExpectedArtifactContext)
    (artifactFingerprint payloadBytes : Bytes) : Option (Bytes × ArtifactEvidence) := do
  let payload ← decodeCanonical payloadSchema.decoder payloadSchema.marshal {} payloadBytes
  if payload.artifactPayloadVersion != 1 || payload.sessionID.isEmpty ||
      payload.partyID != config.partyID then none
  let descriptorBytes ← strictBase64 payload.descriptorBytesBase64 maxArtifactPayloadBytes
  let (descriptor,descriptorFingerprint) ← parseCanonicalDescriptor L descriptorBytes
  if descriptor.keyID.isEmpty || !keyIDPattern descriptor.keyID then none
  if expected.any fun e => e.sessionID.isEmpty || e.keyID != descriptor.keyID ||
      payload.sessionID != e.sessionID || descriptorBytes != e.descriptorBytes then none
  let shareBlob ← strictBase64 payload.shareBlob maxArtifactPayloadBytes
  let inspected ← L.inspectKeyMaterial shareBlob
  if parseSHA256Digest descriptor.chainCodeHash != some inspected.chainCodeHash then none
  if descriptor.algorithm != ascii "ECDSA" || descriptor.curve != ascii "secp256k1" ||
      descriptor.publicKeyFormat != ascii "compressed_sec1" ||
      descriptor.derivationScheme != ascii "bip32_secp256k1" then none
  some (shareBlob,{
    sessionID := payload.sessionID
    keyID := descriptor.keyID
    partyID := payload.partyID
    purpose := config.purpose
    descriptorFingerprint := descriptorFingerprint
    accountPublicKey := inspected.accountPublicKey
    chainCodeHash := inspected.chainCodeHash
    codecVersion := inspected.codecVersion
    artifactFingerprint := artifactFingerprint })

/-- The blob and the evidence; `none` is a rejection of the content or of its binding. -/
def loadValidatedRuntimeShare (config : StoreConfig) (expected : Option ExpectedArtifactContext)
    (finalBytes : Bytes) : Option (Bytes × ArtifactEvidence) := do
  let payloadBytes ← openEnvelope L config finalBytes
  loadPayload L config expected (L.sha256 finalBytes) payloadBytes

/-- AES-GCM: a sealed text is longer by its tag, and opening inverts sealing. -/
structure GcmLaw : Prop where
  sealLength : ∀ k n p, (L.gcmSeal k n p).length = p.length + artifactTagBytes
  openSeal : ∀ k n p, k.length = 32 → n.length = artifactNonceBytes →
    L.gcmOpen k n (L.gcmSeal k n p) = some p

/-- The tag of this artifact does not authenticate under another configuration's key. -/
def ForeignTag (config other : StoreConfig) (nonce payload : Bytes) : Prop :=
  L.gcmOpen other.keyProvider.key nonce (L.gcmSeal config.keyProvider.key nonce payload) = none

variable {L}

theorem partyID_injective : Function.Injective StorePurpose.partyID := by
  intro p q
  cases p <;> cases q <;> decide

theorem KeyProvider.keyRef_valid (p : KeyProvider) : Utf8.valid p.keyRef = true := by
  have h := p.keyRefValid
  simp only [validateBindingIdentifier, Bool.and_eq_true, List.all_eq_true,
    decide_eq_true_eq] at h
  exact Utf8.valid_ascii fun b hb => by have := (h.2 b hb).2; omega

theorem decodeCanonical_marshal {α : Type} {d : Decoder α} {marshal : α → Bytes} {zero x : α}
    (h : decodeClosed d zero (marshal x) = some x) :
    decodeCanonical d marshal zero (marshal x) = some x := by
  simp [decodeCanonical, h]

theorem strictBase64_encode {s : Bytes} {maximum : Nat} (hne : s ≠ [])
    (hlen : s.length ≤ maximum) : strictBase64 (Base64.std.encode s) maximum = some s := by
  have hencoded := Base64.std.encode_length_padded rfl s
  have hpos : 0 < s.length := List.length_pos_iff.mpr hne
  have hnonempty : (Base64.std.encode s).isEmpty = false := by
    rw [List.isEmpty_eq_false_iff, ← List.length_pos_iff]
    omega
  have hfits : (Base64.std.encode s).length ≤ encodedLen maximum := by
    rw [hencoded, encodedLen]
    omega
  have hdecode : Base64.stdStrict.decode (Base64.std.encode s) = some s :=
    (congrArg _ (Base64.encode_strict s)).trans (Base64.stdStrict.decode_encode s)
  simp [strictBase64, hnonempty, Nat.not_lt.mpr hfits, hdecode, Nat.not_lt.mpr hlen]

theorem encryption_rebuilds {e : ArtifactEncryptionV1} (halg : Utf8.valid e.algorithm = true)
    (href : Utf8.valid e.keyRef = true) (hnonce : Utf8.valid e.nonce = true)
    (hcipher : Utf8.valid e.ciphertext = true) (htag : Utf8.valid e.tag = true) :
    Rebuilds e encryptionSchema.columns {} e :=
  .cons (Codec.string_keeps halg) (.cons (Codec.string_keeps href)
    (.cons (Codec.string_keeps hnonce) (.cons (Codec.string_keeps hcipher)
      (.cons (Codec.string_keeps htag) rfl))))

theorem envelope_members : unquote (escape (ascii "version")) = ascii "version" ∧
    unquote (escape (ascii "encryption")) = ascii "encryption" ∧
    ascii "version" ≠ ascii "encryption" := by decide +kernel

theorem ArtifactEnvelopeV1.decodes {e : ArtifactEnvelopeV1} (hversion : e.version = 1)
    (h : Rebuilds e.encryption encryptionSchema.columns {} e.encryption) :
    decodeCanonical (struct fields) marshal {} e.marshal = some e := by
  obtain ⟨version,encryption⟩ := e
  obtain rfl : version = 1 := hversion
  obtain ⟨v,hparses,hdepth,hdistinct,hstore,-⟩ := encryptionSchema.parses_marshal h
  obtain ⟨w,hone,hscalar,hint⟩ := Codec.int_keeps_one
  obtain ⟨hversion,hencryption,hdiff⟩ := envelope_members
  have hmembers : ∀ m ∈ [(ascii "version",intLiteral 1,w),
      (ascii "encryption",encryptionSchema.marshal encryption,v)], Parses m.2.1 m.2.2 := by
    intro m hm
    simp only [List.mem_cons, List.not_mem_nil, or_false] at hm
    rcases hm with rfl | rfl
    · exact hone
    · exact hparses
  have hparse : Parses (marshal ⟨1,encryption⟩) _ := parses_object (List.cons_ne_nil _ _) hmembers
  have hfirst : storeMember fields true {} (escape (ascii "version"),w) =
      some { version := 1 } := by
    have hint' : int 64 true w 0 = some 1 := hint true 0
    simp only [storeMember, hversion]
    exact congrArg (Option.map _) hint'
  have hsecond : storeMember fields true { version := 1 } (escape (ascii "encryption"),v) =
      some { version := 1, encryption := encryption } := by
    simp only [storeMember, hencryption]
    exact congrArg (Option.map _) (hstore true)
  apply decodeCanonical_marshal
  simp [decodeClosed, hparse.parse, Value.depth, membersDepth, Value.distinct, membersDistinct,
    scalar_depth hscalar, scalar_distinct hscalar, hdepth, hdistinct, hversion, hencryption,
    hdiff, struct, hfirst, hsecond, maxNestingDepth]

theorem payload_rebuilds {p : ArtifactPayloadV1} (hversion : p.artifactPayloadVersion = 1)
    (hsession : Utf8.valid p.sessionID = true) (hparty : Utf8.valid p.partyID = true)
    (hdescriptor : Utf8.valid p.descriptorBytesBase64 = true)
    (hshare : Utf8.valid p.shareBlob = true) : Rebuilds p payloadSchema.columns {} p :=
  .cons (hversion ▸ Codec.int_keeps_one) (.cons (Codec.string_keeps hsession)
    (.cons (Codec.string_keeps hparty) (.cons (Codec.string_keeps hdescriptor)
      (.cons (Codec.string_keeps hshare) rfl))))

theorem payload_decodes {p : ArtifactPayloadV1} (h : Rebuilds p payloadSchema.columns {} p) :
    decodeCanonical payloadSchema.decoder payloadSchema.marshal {} (payloadSchema.marshal p) =
      some p := by
  obtain ⟨v,hparse,hdepth,hdistinct,hstore,-⟩ := payloadSchema.parse_marshal h
  apply decodeCanonical_marshal
  simp [decodeClosed, hparse, hdepth, hdistinct, hstore, maxNestingDepth]

theorem StoreConfig.envelope_decodes (config : StoreConfig) (nonce ciphertext tag : Bytes) :
    decodeCanonical (struct ArtifactEnvelopeV1.fields) ArtifactEnvelopeV1.marshal {}
      (config.envelope nonce ciphertext tag).marshal =
        some (config.envelope nonce ciphertext tag) := by
  have halgorithm : Utf8.valid artifactEncryption = true := by decide
  exact ArtifactEnvelopeV1.decodes rfl (encryption_rebuilds halgorithm
    config.keyProvider.keyRef_valid (Base64.encode_valid _ _) (Base64.encode_valid _ _)
    (Base64.encode_valid _ _))

/-- What the writer made of its input. -/
structure Encoded (L : Libraries) (config : StoreConfig) (input : PublishInput)
    (nonce finalBytes : Bytes) : Prop where
  nonceLength : nonce.length = artifactNonceBytes
  valid : validatePublishInput L config input = true
  payloadLength : (payloadSchema.marshal input.payload).length ≤ maxArtifactPayloadBytes
  bytes : ∃ ciphertext tag, finalBytes = (config.envelope nonce ciphertext tag).marshal ∧
    ciphertext ++ tag =
      L.gcmSeal config.keyProvider.key nonce (payloadSchema.marshal input.payload) ∧
    tag.length = min artifactTagBytes (ciphertext ++ tag).length
  length : finalBytes.length ≤ maxArtifactEnvelopeBytes

theorem encodeArtifactV1_some {config : StoreConfig} {input : PublishInput}
    {nonce finalBytes : Bytes} (h : encodeArtifactV1 L config input nonce = some finalBytes) :
    Encoded L config input nonce finalBytes := by
  simp only [encodeArtifactV1, Option.bind_eq_bind, Option.bind_none,
    Option.ite_none_left_eq_some, bne_iff_ne, ne_eq, not_not, Bool.not_eq_true',
    Bool.not_eq_false, not_lt, Option.some.injEq] at h
  obtain ⟨hnonce,hvalid,hpayload,hlen,rfl⟩ := h
  refine ⟨hnonce,hvalid,hpayload,⟨_,_,rfl,List.take_append_drop _ _,?_⟩,hlen⟩
  simp only [List.take_append_drop, List.length_drop]
  omega

section
variable {config : StoreConfig} {input : PublishInput} {nonce finalBytes : Bytes}

/-- Only the key reference and the key decide whether an envelope of the writer opens. -/
theorem openEnvelope_encoded (hL : GcmLaw L) (h : Encoded L config input nonce finalBytes)
    (other : StoreConfig) :
    openEnvelope L other finalBytes =
      if other.keyRef = config.keyRef then
        (L.gcmOpen other.keyProvider.key nonce
          (L.gcmSeal config.keyProvider.key nonce (payloadSchema.marshal input.payload))).bind
            fun q => if q.isEmpty || maxArtifactPayloadBytes < q.length then none else some q
      else none := by
  obtain ⟨ciphertext,tag,rfl,hsealed,htag⟩ := h.bytes
  have hsealLength := hL.sealLength config.keyProvider.key nonce
    (payloadSchema.marshal input.payload)
  have hpos := payloadSchema.marshal_length_pos input.payload
  have hlen := h.payloadLength
  rw [← hsealed] at hsealLength
  rw [hsealLength, Nat.min_eq_left (Nat.le_add_left _ _)] at htag
  rw [List.length_append, htag] at hsealLength
  have hcipher : ciphertext.length = (payloadSchema.marshal input.payload).length := by omega
  have hnonempty : (config.envelope nonce ciphertext tag).marshal.isEmpty = false := rfl
  have hcipherLength : ciphertext.length ≤ maxArtifactCipherBytes := by
    simp only [maxArtifactPayloadBytes, maxArtifactCipherBytes] at *
    omega
  have hsum : ¬maxArtifactCipherBytes < ciphertext.length + artifactTagBytes := by
    simp only [maxArtifactPayloadBytes, maxArtifactCipherBytes, artifactTagBytes] at *
    omega
  have hnonce : strictBase64 (Base64.std.encode nonce) artifactNonceBytes = some nonce :=
    strictBase64_encode (by rw [← List.length_pos_iff, h.nonceLength]; decide) h.nonceLength.le
  have hciphertext : strictBase64 (Base64.std.encode ciphertext) maxArtifactCipherBytes =
      some ciphertext :=
    strictBase64_encode (by rw [← List.length_pos_iff]; omega) hcipherLength
  have htagText : strictBase64 (Base64.std.encode tag) artifactTagBytes = some tag :=
    strictBase64_encode (by rw [← List.length_pos_iff, htag]; decide) htag.le
  simp only [openEnvelope, hnonempty, Nat.not_lt.mpr h.length, config.envelope_decodes,
    Option.bind_eq_bind, Option.bind_some]
  by_cases href : other.keyRef = config.keyRef
  · simp only [StoreConfig.envelope, href, hnonce, hciphertext, htagText, h.nonceLength, htag,
      hsum, hsealed, Option.bind_some, bne_self_eq_false, Bool.or_self, Bool.false_eq_true,
      decide_false, if_true, if_false]
    rfl
  · simp [StoreConfig.envelope, href, Ne.symm href]

theorem openEnvelope_own (hL : GcmLaw L) (h : Encoded L config input nonce finalBytes) :
    openEnvelope L config finalBytes = some (payloadSchema.marshal input.payload) := by
  have hpos := payloadSchema.marshal_length_pos input.payload
  have hnonempty : (payloadSchema.marshal input.payload).isEmpty = false := by
    rw [List.isEmpty_eq_false_iff, ← List.length_pos_iff]
    exact hpos
  rw [openEnvelope_encoded hL h, if_pos rfl,
    hL.openSeal _ _ _ config.keyProvider.keyLength h.nonceLength, Option.bind_some]
  simp [hnonempty, Nat.not_lt.mpr h.payloadLength]

/-- Another configuration opens the envelope under its key reference only, and under the same key
reads the payload. -/
theorem openEnvelope_other (hL : GcmLaw L) (h : Encoded L config input nonce finalBytes)
    {other : StoreConfig} {q : Bytes} (hopen : openEnvelope L other finalBytes = some q) :
    other.keyRef = config.keyRef ∧
      (other.keyProvider.key = config.keyProvider.key ∧
          q = payloadSchema.marshal input.payload ∨
        other.keyProvider.key ≠ config.keyProvider.key ∧
          ¬ForeignTag L config other nonce (payloadSchema.marshal input.payload)) := by
  rw [openEnvelope_encoded hL h] at hopen
  split at hopen
  · rename_i href
    obtain ⟨p,hp,hq⟩ := Option.bind_eq_some_iff.mp hopen
    simp only [Option.ite_none_left_eq_some, Option.some.injEq] at hq
    obtain ⟨-,rfl⟩ := hq
    refine ⟨href,?_⟩
    by_cases hkey : other.keyProvider.key = config.keyProvider.key
    · rw [hkey, hL.openSeal _ _ _ config.keyProvider.keyLength h.nonceLength] at hp
      exact .inl ⟨hkey,(Option.some.inj hp).symm⟩
    · refine .inr ⟨hkey,?_⟩
      rw [ForeignTag, hp]
      simp
  · cases hopen

def PublishInput.context (input : PublishInput) : ExpectedArtifactContext where
  sessionID := input.sessionID
  keyID := input.keyID
  descriptorBytes := input.descriptorBytes

def PublishInput.evidence (input : PublishInput) (config : StoreConfig)
    (inspected : InspectedKeyMaterial) (descriptorFingerprint artifactFingerprint : Bytes) :
    ArtifactEvidence where
  sessionID := input.sessionID
  keyID := input.keyID
  partyID := input.partyID
  purpose := config.purpose
  descriptorFingerprint := descriptorFingerprint
  accountPublicKey := inspected.accountPublicKey
  chainCodeHash := inspected.chainCodeHash
  codecVersion := inspected.codecVersion
  artifactFingerprint := artifactFingerprint

theorem expected_rejected {expected : Option ExpectedArtifactContext}
    (hne : input.sessionID.isEmpty = false) :
    (expected.any fun e => e.sessionID.isEmpty || e.keyID != input.keyID ||
      input.sessionID != e.sessionID || input.descriptorBytes != e.descriptorBytes) = true ↔
      ¬∀ e ∈ expected, e = input.context := by
  cases expected with
  | none => simp
  | some e =>
    obtain ⟨session,key,descriptor⟩ := e
    simp only [Option.any_some, Option.mem_def, Option.some.injEq, forall_eq',
      PublishInput.context, ExpectedArtifactContext.mk.injEq, Bool.or_eq_true, bne_iff_ne]
    by_cases hs : session = input.sessionID
    · subst hs
      simp only [hne, Bool.false_eq_true, ne_eq, not_true_eq_false, or_false, false_or, true_and,
        not_and_or, eq_comm]
    · simp [hs, Ne.symm hs]

theorem loadPayload_payload {d : KeyDescriptorV1} {fingerprint : Bytes}
    {inspected : InspectedKeyMaterial} (hvalid : validatePublishInput L config input = true)
    (hsession : Utf8.valid input.sessionID = true)
    (hd : parseCanonicalDescriptor L input.descriptorBytes = some (d,fingerprint))
    (hinspect : L.inspectKeyMaterial input.codecBlob = some inspected)
    (hchain : parseSHA256Digest d.chainCodeHash = some inspected.chainCodeHash)
    (other : StoreConfig) (expected : Option ExpectedArtifactContext) (artifact : Bytes) :
    loadPayload L other expected artifact (payloadSchema.marshal input.payload) =
      if other.purpose = config.purpose ∧ ∀ e ∈ expected, e = input.context then
        some (input.codecBlob,input.evidence config inspected fingerprint artifact)
      else none := by
  simp only [validatePublishInput, hd, hinspect, Option.any_some, Option.isSome_some,
    Bool.and_eq_true, Bool.not_eq_true', beq_iff_eq, decide_eq_true_eq, and_true] at hvalid
  obtain ⟨⟨⟨⟨⟨hne,hparty⟩,hkey⟩,hpattern⟩,hblob⟩,hblobLength⟩ := hvalid
  obtain ⟨-,-,-,-,-,-,hdescriptor⟩ := parseCanonicalDescriptor_some hd
  obtain ⟨hstandard,-,-⟩ := validate_standard hdescriptor
  obtain ⟨hraw,hrawLength⟩ := parseCanonicalDescriptor_length hd
  have hpartyValid : Utf8.valid input.partyID = true := by
    rw [hparty, StoreConfig.partyID]
    cases config.purpose <;> decide
  have hdecode : decodeCanonical payloadSchema.decoder payloadSchema.marshal {}
      (payloadSchema.marshal input.payload) = some input.payload :=
    payload_decodes (payload_rebuilds rfl hsession hpartyValid (Base64.encode_valid _ _)
      (Base64.encode_valid _ _))
  have hdescriptorText : strictBase64 (Base64.std.encode input.descriptorBytes)
      maxArtifactPayloadBytes = some input.descriptorBytes :=
    strictBase64_encode hraw (hrawLength.trans (by decide))
  have hblobText : strictBase64 (Base64.std.encode input.codecBlob) maxArtifactPayloadBytes =
      some input.codecBlob :=
    strictBase64_encode (List.isEmpty_eq_false_iff.mp hblob) hblobLength
  have hkeyNonempty : input.keyID.isEmpty = false := by
    rw [List.isEmpty_eq_false_iff]
    intro hnil
    rw [hnil] at hpattern
    exact absurd hpattern (by decide)
  simp only [loadPayload, hdecode, Option.bind_eq_bind, Option.bind_some]
  by_cases hpurpose : other.purpose = config.purpose
  · have hsame : input.partyID = other.partyID := by
      rw [hparty, StoreConfig.partyID, StoreConfig.partyID, hpurpose]
    have hproduct : (d.algorithm != ascii "ECDSA" || d.curve != ascii "secp256k1" ||
        d.publicKeyFormat != ascii "compressed_sec1" ||
        d.derivationScheme != ascii "bip32_secp256k1") = false := by
      rw [hstandard]
      simp [standard]
    simp only [PublishInput.payload, hsame, hne, hdescriptorText, hd, hkey, hkeyNonempty, hpattern,
      hblobText, hinspect, hchain, hproduct, hpurpose, Option.bind_some, bne_self_eq_false,
      Bool.or_self, Bool.not_true, Bool.false_eq_true, if_false, true_and]
    by_cases hexpected : ∀ e ∈ expected, e = input.context
    · rw [if_neg ((expected_rejected hne).not.mpr (not_not.mpr hexpected)), if_pos hexpected]
      simp only [PublishInput.evidence, hsame]
    · rw [if_pos ((expected_rejected hne).mpr hexpected), if_neg hexpected]
      rfl
  · have hother : input.partyID ≠ other.partyID := by
      rw [hparty]
      exact fun h => hpurpose (partyID_injective h).symm
    simp [PublishInput.payload, hother, hpurpose]

/-- What the writer accepts the loader reads back, under its own context and configuration
only; a configuration of the other purpose with the same key reference but another key is refused
by the tag. -/
theorem artifact_round_trip (hL : GcmLaw L) {d : KeyDescriptorV1} {fingerprint : Bytes}
    {inspected : InspectedKeyMaterial}
    (henc : encodeArtifactV1 L config input nonce = some finalBytes)
    (hsession : Utf8.valid input.sessionID = true)
    (hd : parseCanonicalDescriptor L input.descriptorBytes = some (d,fingerprint))
    (hinspect : L.inspectKeyMaterial input.codecBlob = some inspected)
    (hchain : parseSHA256Digest d.chainCodeHash = some inspected.chainCodeHash) :
    (∀ expected, expected = none ∨ expected = some input.context →
      loadValidatedRuntimeShare L config expected finalBytes = some (input.codecBlob,
        input.evidence config inspected fingerprint (L.sha256 finalBytes))) ∧
    (∀ e, e ≠ input.context →
      loadValidatedRuntimeShare L config (some e) finalBytes = none) ∧
    (∀ (other : StoreConfig) (expected : Option ExpectedArtifactContext),
      other.keyRef ≠ config.keyRef →
      loadValidatedRuntimeShare L other expected finalBytes = none) ∧
    ∀ (other : StoreConfig) (expected : Option ExpectedArtifactContext),
      other.purpose ≠ config.purpose →
      (other.keyRef = config.keyRef → other.keyProvider.key ≠ config.keyProvider.key →
        ForeignTag L config other nonce (payloadSchema.marshal input.payload)) →
      loadValidatedRuntimeShare L other expected finalBytes = none := by
  have h := encodeArtifactV1_some henc
  have hload := loadPayload_payload h.valid hsession hd hinspect hchain
  have hown (expected : Option ExpectedArtifactContext) :
      loadValidatedRuntimeShare L config expected finalBytes =
        loadPayload L config expected (L.sha256 finalBytes)
          (payloadSchema.marshal input.payload) := by
    simp only [loadValidatedRuntimeShare, openEnvelope_own hL h, Option.bind_eq_bind,
      Option.bind_some]
  refine ⟨?_,?_,?_,?_⟩
  · rintro expected (rfl | rfl)
    · rw [hown, hload, if_pos ⟨rfl,by simp⟩]
    · rw [hown, hload, if_pos ⟨rfl,by simp⟩]
  · intro e he
    rw [hown, hload, if_neg (by simp [he])]
  · intro other expected href
    cases hopen : openEnvelope L other finalBytes with
    | none => simp [loadValidatedRuntimeShare, hopen]
    | some q => exact absurd (openEnvelope_other hL h hopen).1 href
  · intro other expected hpurpose hforeign
    cases hopen : openEnvelope L other finalBytes with
    | none => simp [loadValidatedRuntimeShare, hopen]
    | some q =>
      obtain ⟨href,⟨-,rfl⟩ | ⟨hkey,htag⟩⟩ := openEnvelope_other hL h hopen
      · simp only [loadValidatedRuntimeShare, hopen, Option.bind_eq_bind, Option.bind_some]
        rw [hload, if_neg fun hsame => hpurpose hsame.1]
      · exact absurd (hforeign href hkey) htag

end

/-! An AEAD known at some inputs; the others get a tag of zeros. -/

abbrev GcmTable := List ((Bytes × Bytes × Bytes) × Bytes)

def GcmTable.seal (table : GcmTable) (k n p : Bytes) : Bytes :=
  (table.lookup (k,n,p)).getD (p ++ List.replicate artifactTagBytes 0)

def GcmTable.open (table : GcmTable) (k n s : Bytes) : Option Bytes :=
  match table.find? fun row => row.2 == s with
  | some row => if row.1.1 = k ∧ row.1.2.1 = n then some row.1.2.2 else none
  | none => some (s.take (s.length - artifactTagBytes))

theorem GcmTable.open_seal {table : GcmTable} (hd : (table.map Prod.snd).Nodup)
    (hlast : ∀ input s, (input,s) ∈ table → s.getLast? ≠ some 0) (k n p : Bytes) :
    table.open k n (table.seal k n p) = some p := by
  unfold GcmTable.open
  cases hlookup : table.lookup (k,n,p) with
  | none =>
    have hseal : table.seal k n p = p ++ List.replicate artifactTagBytes 0 := by
      simp [GcmTable.seal, hlookup]
    have hnone : table.find? (fun row => row.2 == table.seal k n p) = none := by
      rw [List.find?_eq_none]
      intro row hrow hsame
      refine hlast row.1 row.2 hrow ?_
      rw [beq_iff_eq.mp hsame, hseal]
      simp [artifactTagBytes]
    rw [hnone, hseal]
    simp
  | some s =>
    have hseal : table.seal k n p = s := by simp [GcmTable.seal, hlookup]
    have hrow : ((k,n,p),s) ∈ table := by
      obtain ⟨l₁,l₂,rfl,-⟩ := List.lookup_eq_some_iff.mp hlookup
      simp
    obtain ⟨r,hr⟩ : ∃ r, table.find? (fun row => row.2 == s) = some r :=
      Option.isSome_iff_exists.mp (List.find?_isSome.mpr ⟨_,hrow,beq_self_eq_true s⟩)
    have hsame : r.2 = s := by simpa using List.find?_some hr
    obtain rfl := List.inj_on_of_nodup_map hd (List.mem_of_find?_eq_some hr) hrow hsame
    rw [hseal, hr]
    exact if_pos ⟨rfl,rfl⟩

theorem GcmTable.law {table : GcmTable} (hseal : L.gcmSeal = table.seal)
    (hopen : L.gcmOpen = table.open) (hd : (table.map Prod.snd).Nodup)
    (hlength : ∀ k n p s, ((k,n,p),s) ∈ table → s.length = p.length + artifactTagBytes)
    (hlast : ∀ input s, (input,s) ∈ table → s.getLast? ≠ some 0) : GcmLaw L where
  sealLength k n p := by
    rw [hseal, GcmTable.seal]
    cases hlookup : table.lookup (k,n,p) with
    | none => simp
    | some s =>
      obtain ⟨l₁,l₂,rfl,-⟩ := List.lookup_eq_some_iff.mp hlookup
      exact hlength k n p s (by simp)
  openSeal k n p _ _ := by
    rw [hseal, hopen]
    exact GcmTable.open_seal hd hlast k n p

/-! The artifact of `testdata/artifact-v1`. -/

def goldenKeyProvider : KeyProvider where
  key := List.replicate 32 1
  keyRef := ascii "customer-co-signer-key-v1"
  keyLength := rfl
  keyRefValid := by decide +kernel

def goldenConfig (purpose : StorePurpose) : StoreConfig :=
  ⟨purpose,ascii "/shares/" ++ purpose.text,goldenKeyProvider⟩

def goldenNonce : Bytes := List.replicate 12 0x11

def goldenDescriptor : KeyDescriptorV1 :=
  standard (ascii "mpc_key_123e4567-e89b-42d3-" ++ ascii "a456-426614174000")
    (ascii "Ql7U5KNrMOohuQ4hxxLGSeghTCm3" ++ ascii "6vaAidEDnG5VOEw")

def goldenBlob : Bytes := [
  0x3b7f0301010d7368617265456e76656c6f706501ff80000103010756657273696f6e0106000105536861726501ff8200,
  0x01044d65746101ff96000000ff97ff81030101124c6f63616c5061727479536176654461746101ff82000109010e4c6f,
  0x63616c507265506172616d7301ff8400010c4c6f63616c5365637265747301ff8c0001024b7301ff8e0001074e54696c,
  0x64656a01ff8e00010348316a01ff8e00010348326a01ff8e000105426967586a01ff9200010b5061696c6c696572504b,
  0x7301ff94000108454344534150756201ff900000006eff830301010e4c6f63616c507265506172616d7301ff84000108,
  0x010a5061696c6c696572534b01ff860001074e54696c64656901ff8a00010348316901ff8a00010348326901ff8a0001,
  0x05416c70686101ff8a0001044265746101ff8a0001015001ff8a0001015101ff8a0000004cff850301010a5072697661,
  0x74654b657901ff8600010501095075626c69634b657901ff880001074c616d6264614e01ff8a0001045068694e01ff8a,
  0x0001015001ff8a0001015101ff8a0000001eff87030101095075626c69634b657901ff8800010101014e01ff8a000000,
  0x0aff89050102ff980000002fff8b0301010c4c6f63616c5365637265747301ff8c0001020102586901ff8a0001075368,
  0x617265494401ff8a00000019ff8d0201010a5b5d2a6269672e496e7401ff8e0001ff8a000020ff91020101115b5d2a63,
  0x727970746f2e4543506f696e7401ff920001ff9000000aff8f050102ff9a00000024ff93020101155b5d2a7061696c6c,
  0x6965722e5075626c69634b657901ff940001ff88000054ff950301010f4b65794d6174657269616c4d65746101ff9600,
  0x01030109436861696e436f6465010a00010f5075626c69634b6579466f726d6174010c00011044657269766174696f6e,
  0x536368656d65010c000000ff9eff8001020101000100074a210000000279be667ef9dcbbac55a06295ce870b07029bfc,
  0xdb2dce28d959f2815b16f817982100000002483ada7726a3c4655da4fbfc0e1108a8fd17b448a68554199c47d08ffb10,
  0xd4b80001012042424242424242424242424242424242424242424242424242424242424242420110756e636f6d707265
  ].flatMap (Strings.bigEndian 48) ++
    Strings.bigEndian 27 0x737365645f686578010f62697033325f736563703235366b310000

def goldenInput : PublishInput where
  sessionID := ascii "dkg-session-123"
  keyID := goldenDescriptor.keyID
  partyID := ascii "co-signer-primary"
  descriptorBytes := goldenDescriptor.encode
  codecBlob := goldenBlob

/-- AES-256-GCM of the payload. -/
def goldenSealed : Bytes := [
  0xf613b1c30aa62ec6b84d21fc5ba7ed4b3160dfaa9ecd542244506c5336acbe716809688920e65d06da23a097fead2362,
  0x17f465c932486c2e37da77abb01d5e0a3dbfedc58d4b40111338b9feaadeba3e9a41d4dc15d0f98d4aef6fb49441108f,
  0x780e5fd4b41184383a9d7a4fa78141e1e4344488d65e05fc3c5ba37ae8a451aa120f5b15b0571b20b184a8a2ad7dca8e,
  0x6b19899fb60d9feed589808e808453c6db9c61e73b7a67ba34346e8c6677f3c9fac006747e25b8de59bb2b7c4ea0df93,
  0x3f7ac24cf11dcc25610a8f3baea81ab407d71f71c003e89b6b219735d9c989658cae579595ff6110e14f7623f568adcf,
  0x3df92d8d1b1e1b5b70bd461a354174d15fa27e093c252ceff7d20ceccce712366820f187f21289dd9481730b39affc15,
  0x2b51b88ae8e1f40366edaad3e5849bd3f67cc8aa93357f0f0061cf3951fb78e3cdf73c20f5f6c8c5ae3282283ce94cb0,
  0x1b5b80467079319a07af489e4ebde901ed327a79d499c4503f2137e3d61af895db0471b018334064dae5f3c729802bc6,
  0x8b1a39f03b266ffa9dafe8a2c1c76ba1590ed6786c2d3387441ac7b84e6b71852e37f97bea07d18908ae4868a229479e,
  0x838a1adadf506aec3401dc33cd42199ea90061d0c982940e24ef35744a4e653d693da37b4c106eb5900c1c0bf7d5fe22,
  0x432d7ed6104bdba9984ff262ea23b1d46fbdcb515c6fd890fa258efbeea54740eb58a451cc818d198509f8889336ff20,
  0x1dda3d8884d8d5583373d44816691524beb76855a72be4f9e71cad212dfd1a8816a23fef9aecf8808b8264fb81d7d930,
  0xc0bceee598852d1e1a24f021961a8a62ff7e73351e26f00e2228262347bfab8ea3120b2e5c4d3264060c746774357c50,
  0xb2c353b33848274855aa256b0de3904fa5abbb2259f35e76f1b28446b501e6d476add7dc8325141ea7a699f2e354ae9f,
  0x44a063f631af3fd7e39ad13d3a6e8f0a449bae8f960f239f292bc8f7698325896ebd8203a573dd8b35fcb8eeb4c6102d,
  0xa119d24c12f27a6a33e1650e1f666633ef01641121fce4bcd55afdaac1d70008a274da2953b4aab91033638e1c4e511e,
  0xeb767bbfc8da20ca4104b52b6c2c7519b71604845325ed50975ca1561b739afff04062d12f77c2303b17a81680053732,
  0x0df51bd154f5ea243360a0bd043c6566df414fef119336bcd5e968928768479cfafd7a3ca421de733de9e92a3a542739,
  0xb89bcb5981b94ff92c515660e960d9fefc7a3d573f0bd4adff9bf7ef818dfb76fcb0128d1cdb10efa2822607967b335e,
  0x61273211e71566eb9aa4e2fd7ba5c74cee46cfc698abb3b815a0a8b3bc6728f1f4fb4d382cea2b36e4dd8b9973c5f97b,
  0xcb16bc2c63bb781519a6e9b4303f1bcfe87feb031baeeb9acb8b4b3046a4207a564b34e51dbc39f4d46e7913e252c349,
  0x0960f95067f3ae469a9cd9dfea60293c3547d5545b08e0dcfebe1d251df3aa5ba2773f39a21533fe5e76a8175edaa431,
  0x0135890c388d6accd2096738f4cde10a0632b571ef960c95c88d16150094590ff4e04fb7ccd62f1dc47e3233c5c88e68,
  0xe87064dcf3476f11fcf266af3b6e54f426b252cb9784b4740e67fa15e15254b7a20832bcd6051e185eddd5b914a10153,
  0xb1e9235180c84daf2e6c348e2445191daccde96290a62f57071aadd2f2d959fa606398513b196d786ed96454293e4bc7,
  0xdac6dd4b999314db123afbff933ca9f92a9b2e79db9071dada720dd24c6f96c25cba5566d3c7c36e2e4541aa2a6f2620,
  0x0378d2eed5bb048ae73eec739791d39b78681979bf3f3e5cba05cc5faf866028b86a4e9ab393d454115c9a44c946d809,
  0x3d5bc5e9590f042aaccd87b46ff943e0d4e3dd0d6ffc4e65e7df142cd453f8f8944945f52c3b13147588ab9f162da688,
  0x72c84f0f73273ef790199acfb58ebf4901a23c4754f7b40b4198f4bdcbc3607860c1042da18e8432f6c068bebe04cb6c,
  0x39202c2e00cc90c2ba6c670cc5cf46177a73df26d1e727203327d14bbb14303227eb3d7ee4d240bd60bbdc3e0a0bb9a3,
  0x966b6394b8c1ee8b641bfd1ea0652a6277c21a84a89b886b138df250249d5581955c206384c15c66140583279aa56e93,
  0x13d4be87c5a3345a7a3d856b09afa50617c3445eafc0e898ac0f8f52b5501857c192c6b6ffe777da221b2811ac3090ce,
  0x070b2b94cca80b43d6cd41b5ffd1b1661d5101d451e75e625627eef0a4ff73a2e6b0cf3f472f2738c924b254ff5114c4,
  0xb1b4299113d23d6b9335d9c581f44445353275a18174e186a54b994fd9c91a3b08d19afbe4c55bb99549573f064cdc5e,
  0xfb25beceac07b53a2f373104f241a2b2e2960f71236b335a5f19cd658dce1f82a9f0a5019831e75fe27a57e780add2b8,
  0xc4158db84c1a059b37ab340b1da4088032adde0fbdeec54299c9261ad4c2d08db3e734ea874ee49413d204f1f306c6ff,
  0x141c2b72337040d18b5436cbf0fe60144c621c747285c4ef9e4af8ba7fa6777ae1cc039d9d70a7d094013bddd8e88dec,
  0xc83d0b32c90c6e0dfaf7155231457b73495c5f0bd8baa7066defa2611b1f8272e5fe92743abe94e7210b29ac7ba67de3,
  0xd81187ff270586cf2e57eb5d2259b438431b1e53e06c59a955a68daab488dc9cb085f91ecadbf67cc521ad48ee5ea306,
  0xe53efa92f0b4ca7a65cc03d38dc7e4a613fbcd19ed88a4ab30185b4d5e531890986b2268b25b13e931b81c4a9190bbe2
  ].flatMap (Strings.bigEndian 48) ++
    Strings.bigEndian 2 0xf36b

def goldenFinalBytes : Bytes :=
  ((goldenConfig .primary).envelope goldenNonce (goldenSealed.take 1906)
    (goldenSealed.drop 1906)).marshal

def goldenTable : GcmTable :=
  [((goldenKeyProvider.key,goldenNonce,payloadSchema.marshal goldenInput.payload),goldenSealed)]

def goldenMaterial : InspectedKeyMaterial where
  accountPublicKey := 0x02 :: Strings.bigEndian 32
    0x79be667ef9dcbbac55a06295ce870b07029bfcdb2dce28d959f2815b16f81798
  chainCodeHash := Strings.bigEndian 32
    0x425ed4e4a36b30ea21b90e21c712c649e8214c29b7eaf68089d1039c6e55384c
  codecVersion := 2

def goldenLibraries : Libraries :=
  { Libraries.inert with
    jcs := fun raw => (parse raw).map Value.canonical
    sha256 := tabled [
      (goldenDescriptor.encode,Strings.bigEndian 32
        0x3957ed3d02d5ece1bcc8a1f8156dff6685bf48552220d3079f17c684894f3f56),
      (goldenFinalBytes,Strings.bigEndian 32
        0xc3a99d85fa3a29e44aa90a2a71630c041d0ec32d569f096e277daa77b5d6b566)]
    inspectKeyMaterial := fun blob => if blob = goldenBlob then some goldenMaterial else none
    gcmSeal := goldenTable.seal
    gcmOpen := goldenTable.open }

theorem golden_lengths : goldenSealed.length =
      (payloadSchema.marshal goldenInput.payload).length + artifactTagBytes ∧
    goldenSealed.getLast? ≠ some 0 := by
  decide +kernel

theorem golden_law : GcmLaw goldenLibraries := by
  refine @GcmTable.law goldenLibraries goldenTable rfl rfl (List.nodup_singleton _) ?_ ?_
  · intro k n p s hrow
    obtain ⟨⟨-,-,rfl⟩,rfl⟩ : (k = goldenKeyProvider.key ∧ n = goldenNonce ∧
        p = payloadSchema.marshal goldenInput.payload) ∧ s = goldenSealed := by
      simpa [goldenTable] using hrow
    exact golden_lengths.1
  · intro input s hrow
    obtain ⟨-,rfl⟩ : input = _ ∧ s = goldenSealed := by simpa [goldenTable] using hrow
    exact golden_lengths.2

theorem golden_descriptor : parseCanonicalDescriptor goldenLibraries goldenDescriptor.encode =
    some (goldenDescriptor,goldenLibraries.sha256 goldenDescriptor.encode) :=
  parseCanonicalDescriptor_encode (canonical_law _ rfl) (by decide +kernel)

theorem golden_inspected :
    goldenLibraries.inspectKeyMaterial goldenBlob = some goldenMaterial := by
  simp [goldenLibraries]

theorem golden_encoded :
    encodeArtifactV1 goldenLibraries (goldenConfig .primary) goldenInput goldenNonce =
      some goldenFinalBytes := by
  decide +kernel

/-- A recovery store that has the key reference of the golden one but another key. -/
def foreignConfig : StoreConfig :=
  { goldenConfig .recovery with
    keyProvider := { goldenKeyProvider with key := List.replicate 32 0x5A, keyLength := rfl } }

theorem golden_foreign : ForeignTag goldenLibraries (goldenConfig .primary) foreignConfig
    goldenNonce (payloadSchema.marshal goldenInput.payload) := by
  simp only [ForeignTag, goldenLibraries, goldenConfig, goldenTable, GcmTable.seal, GcmTable.open,
    foreignConfig, List.lookup_cons_self, Option.getD_some, List.find?_cons, beq_self_eq_true]
  exact if_neg fun h => absurd h.1 (by decide)

/-- The primary store under another key reference. -/
def renamedConfig : StoreConfig :=
  { goldenConfig .primary with
    keyProvider := { goldenKeyProvider with keyRef := ascii "retired", keyRefValid := by decide } }

/-- The recorded artifact, read by its own store, by one with another key reference, and by the
recovery stores with the same key and with another one. -/
theorem artifact_round_trip_golden :
    encodeArtifactV1 goldenLibraries (goldenConfig .primary) goldenInput goldenNonce =
      some goldenFinalBytes ∧
    loadValidatedRuntimeShare goldenLibraries (goldenConfig .primary) (some goldenInput.context)
      goldenFinalBytes = some (goldenBlob,goldenInput.evidence (goldenConfig .primary)
        goldenMaterial (goldenLibraries.sha256 goldenDescriptor.encode)
        (goldenLibraries.sha256 goldenFinalBytes)) ∧
    (∀ expected, loadValidatedRuntimeShare goldenLibraries renamedConfig expected
      goldenFinalBytes = none) ∧
    loadValidatedRuntimeShare goldenLibraries (goldenConfig .recovery) (some goldenInput.context)
      goldenFinalBytes = none ∧
    loadValidatedRuntimeShare goldenLibraries foreignConfig (some goldenInput.context)
      goldenFinalBytes = none := by
  have hsession : Utf8.valid goldenInput.sessionID = true := by decide +kernel
  have hchain : parseSHA256Digest goldenDescriptor.chainCodeHash =
      some goldenMaterial.chainCodeHash := by decide +kernel
  obtain ⟨hown,-,hrenamed,hother⟩ := artifact_round_trip golden_law golden_encoded hsession
    golden_descriptor golden_inspected hchain
  refine ⟨golden_encoded,hown _ (.inr rfl),fun _ => hrenamed _ _ (by decide),
    hother _ _ (by decide) ?_,hother _ _ (by decide) ?_⟩
  · exact fun _ hkey => absurd rfl hkey
  · exact fun _ _ => golden_foreign

end CoSigner.Sharestore
