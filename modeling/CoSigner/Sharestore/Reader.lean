import CoSigner.Sharestore.Artifact

/-! Reading artifacts back (`sharestore/reader.go`): why an inspection fails, and what a
successful one says. -/
namespace CoSigner.Sharestore
open Json Contract
variable (L : Libraries)

/-- What reading a file gives. -/
inductive FileRead where
  | content (raw : Bytes)
  | missing
  | failed (e : Err)
  deriving DecidableEq, Repr

/-- Why `InspectExisting` fails. -/
inductive InspectError where
  | stopped (e : Err)
  | noncanonicalKey
  | notFound
  | unreadable (e : Err)
  | rejected
  deriving DecidableEq, Repr

/-- `Store.InspectExisting`, given the context's error and the result of reading the file. -/
def inspectExisting (config : StoreConfig) (ctxErr : Option Err) (file : FileRead)
    (expected : ExpectedArtifactContext) : Except InspectError ArtifactEvidence :=
  match ctxErr with
  | some e => .error (.stopped e)
  | none =>
    if !keyIDPattern expected.keyID then .error .noncanonicalKey
    else
      match file with
      | .missing => .error .notFound
      | .failed e => .error (.unreadable e)
      | .content finalBytes =>
        match loadValidatedRuntimeShare L config (some expected) finalBytes with
        | none => .error .rejected
        | some (_,evidence) => .ok evidence

/-- The inspection could not look at the content. -/
def InspectError.blind : InspectError → Bool
  | .stopped _ => true
  | .unreadable _ => true
  | _ => false

variable {L}

/-- `InspectEncodedECDSAKeyMaterial` answers with a compressed public key. -/
def CompressedMaterial (L : Libraries) : Prop :=
  ∀ blob m, L.inspectKeyMaterial blob = some m → m.accountPublicKey.length = 33 ∧
    (m.accountPublicKey.head? = some 2 ∨ m.accountPublicKey.head? = some 3) ∧
    (L.parsePubKey m.accountPublicKey).isSome = true

/-- What a successful inspection says: the artifact is of this store and bound to the expected
session, key and descriptor bytes. -/
structure Inspection (L : Libraries) (config : StoreConfig) (expected : ExpectedArtifactContext)
    (evidence : ArtifactEvidence) : Prop where
  sessionID : evidence.sessionID = expected.sessionID
  keyID : evidence.keyID = expected.keyID
  partyID : evidence.partyID = config.partyID
  purpose : evidence.purpose = config.purpose
  descriptor : ∃ d, parseCanonicalDescriptor L expected.descriptorBytes =
    some (d,evidence.descriptorFingerprint) ∧ d.keyID = expected.keyID ∧
    parseSHA256Digest d.chainCodeHash = some evidence.chainCodeHash
  material : ∃ blob m, L.inspectKeyMaterial blob = some m ∧
    evidence.accountPublicKey = m.accountPublicKey ∧ evidence.codecVersion = m.codecVersion
  artifact : ∃ finalBytes, evidence.artifactFingerprint = L.sha256 finalBytes

theorem loadPayload_some {config : StoreConfig} {expected : ExpectedArtifactContext}
    {artifact payloadBytes blob : Bytes} {evidence : ArtifactEvidence}
    (h : loadPayload L config (some expected) artifact payloadBytes = some (blob,evidence))
    (hartifact : ∃ finalBytes, artifact = L.sha256 finalBytes) :
    Inspection L config expected evidence := by
  simp only [loadPayload, Option.bind_eq_bind, Option.bind_none, Option.bind_eq_some_iff,
    Option.ite_none_left_eq_some,
 Option.some.injEq, Prod.mk.injEq, Option.any_some, Bool.or_eq_true, not_or,
    bne_iff_ne, ne_eq, not_not, Prod.exists] at h
  obtain ⟨payload,-,⟨⟨-,-⟩,hparty⟩,descriptorBytes,-,d,fingerprint,hd,-,⟨⟨⟨-,hkey⟩,hsession⟩,hbytes⟩,
    shareBlob,-,m,hm,hchain,-,-,rfl⟩ := h
  exact ⟨hsession,hkey.symm,hparty,rfl,⟨d,hbytes ▸ hd,hkey.symm,hchain⟩,⟨shareBlob,m,hm,rfl,rfl⟩,
    hartifact⟩

theorem inspectExisting_ok {config : StoreConfig} {ctxErr : Option Err} {file : FileRead}
    {expected : ExpectedArtifactContext} {evidence : ArtifactEvidence}
    (h : inspectExisting L config ctxErr file expected = .ok evidence) :
    Inspection L config expected evidence := by
  cases ctxErr with
  | some e => cases h
  | none =>
    simp only [inspectExisting] at h
    split at h
    · cases h
    · cases file with
      | missing | failed => cases h
      | content finalBytes =>
        cases hload : loadValidatedRuntimeShare L config (some expected) finalBytes with
        | none => simp [hload] at h
        | some loaded =>
          simp only [hload, Except.ok.injEq] at h
          obtain ⟨payloadBytes,-,hpayload⟩ := Option.bind_eq_some_iff.mp hload
          exact h ▸ loadPayload_some hpayload ⟨finalBytes,rfl⟩

end CoSigner.Sharestore
