import CoSigner.Contract.Mpc2of3
import CoSigner.Monolith.Claim
import CoSigner.Worker.Intent
import Mathlib.Data.List.Induction

/-! What the worker checks of a claimed intent (`worker/intent_validation.go`) and the request it
makes of an accepted one (`worker/sign_session.go`). -/
namespace CoSigner.Worker
open Monolith Contract SigningPolicy Json

/-- The texts that `fmt` and Core put into the errors, and Core's name of its derivation scheme. -/
structure ErrorTexts where
  quoted : Bytes → Bytes
  normalizeError : CoreContext → Bytes
  hashError : CoreContext → Bytes
  bip32Secp256k1 : Bytes

/-- `validateClaimIdentity`; its only error is that of an invalid lifecycle. -/
def validateClaimIdentity (intent claimedIntent : Intent) (claim : ClaimResult) (kind : IntentKind) :
    Bool :=
  claim.session.validate (Strings.toUpper claimedIntent.type) claimedIntent.sessionID
      claim.deadline &&
    !(isZeroTime claim.deadline ||
      !isZeroTime intent.expiresAt && intent.expiresAt != claim.deadline) &&
    !(intent.sessionID != [] && intent.sessionID != claimedIntent.sessionID) &&
    (kind != .sign ||
      intent.intentID == claimedIntent.intentID &&
        !(intent.payload.orgID != [] && intent.payload.orgID != claimedIntent.payload.orgID) &&
        !(intent.payload.keyID != [] && intent.payload.keyID != claimedIntent.payload.keyID))

def platformPartyID : Bytes := ascii "mpc-signer"

def primaryPartyID : Bytes := ascii "co-signer-primary"

/-- An error that wraps `errInvalidIntent`, unless the check is passed. -/
def require (passed : Bool) (text : Bytes) : Option Bytes :=
  if passed then none else some (ascii "invalid intent: " ++ text)

def present (x : Bytes) : Bool := Strings.trimSpace x != []

/-- `dedupeParties`. -/
def dedupeParties (parties : List Bytes) : List Bytes :=
  parties.foldl (fun unique party =>
    let partyID := Strings.trimSpace party
    if partyID = [] ∨ partyID ∈ unique then unique else unique ++ [partyID]) []

def isLowerHex64 (input : Bytes) : Bool :=
  input.length == 64 && input.all fun b => 0x30 ≤ b && b ≤ 0x39 || 0x61 ≤ b && b ≤ 0x66

def toCoreDerivationContext (ctx : DerivationContext) : CoreContext where
  profileID := ctx.profileID
  profileTemplateID := ctx.profileTemplateID
  chain := ctx.chain
  algorithm := ctx.algorithm
  curve := ctx.curve
  scheme := ctx.scheme
  publicKeyFormat := ctx.publicKeyFormat
  accountPath := ctx.accountPath
  childPath := ctx.childPath
  fullPath := ctx.fullPath
  addressEncoding := ctx.addressEncoding
  expectedAddress := ctx.expectedAddress
  derivedPublicKey := ctx.expectedPublicKey
  descriptorVersion := ctx.descriptorVersion
  profileVersion := ctx.profileVersion
  keyVersion := ctx.keyVersion

section
variable (L : Libraries) (T : ErrorTexts) (payload : IntentPayload) (localPartyID : Bytes)

def validateCommonPayload : Option Bytes :=
  (require (present payload.orgID) (ascii "org id is required")).or
    (require (present payload.keyID) (ascii "key id is required"))

def validatePayloadType (intentType payloadType : Bytes) : Option Bytes :=
  let payloadType := Strings.trimSpace payloadType
  require (payloadType == [] || Strings.toUpper payloadType == intentType)
    (ascii "payload type " ++ T.quoted payloadType ++ ascii " conflicts with intent type " ++
      T.quoted intentType)

def validateProductionSignRoster : Option Bytes :=
  (require (localPartyID == primaryPartyID && payload.partyID == primaryPartyID)
      (ascii "SIGN local party must be " ++ T.quoted primaryPartyID)).or
    (require (payload.threshold == 2 && payload.parties == [platformPartyID,primaryPartyID])
      (ascii "SIGN parties must be exactly [" ++ T.quoted platformPartyID ++ ascii ", " ++
        T.quoted primaryPartyID ++ ascii "] with threshold 2"))

def validateChainCodeHash (chainCodeHex expectedHash : Bytes) : Option Bytes :=
  match hexDecode chainCodeHex with
  | none => require false (ascii "chain code must be 32-byte lowercase hex")
  | some chainCode =>
    require (Strings.trimSpace expectedHash == Base64.rawURL.encode (L.sha256 chainCode))
      (ascii "chain code hash mismatch")

def validateDKGPayload : Option Bytes :=
  (require (!present payload.chain) (ascii "chain is not allowed for DKG")).or <|
  (require payload.derivationContext.isNone (ascii "derivation context is not allowed for DKG")).or <|
  (require payload.digest.isEmpty (ascii "digest is not allowed for DKG")).or <|
  (require (isLowerHex64 payload.chainCode) (ascii "chain code must be 32-byte lowercase hex")).or <|
  (require (present payload.chainCodeHash) (ascii "chain code hash is required for DKG")).or <|
  (validateChainCodeHash L payload.chainCode payload.chainCodeHash).or <|
  (require (present payload.derivationScheme) (ascii "derivation scheme is required for DKG")).or <|
  require (Strings.trimSpace payload.derivationScheme == T.bip32Secp256k1)
    (ascii "unsupported derivation scheme " ++ T.quoted payload.derivationScheme)

/-- The fields that `validateSignMetadata` goes through. -/
def requiredSignFields : List (String × Bytes) := [
  ("wallet id",payload.walletID),("profile id",payload.profileID),
  ("profile template id",payload.profileTemplateID),("digest type",payload.digestType),
  ("hash algorithm",payload.hashAlgorithm),("signing payload type",payload.signingPayloadType),
  ("derivation context hash",payload.derivationContextHash),("party id",payload.partyID),
  ("chain",payload.chain)]

def validateSignMetadata : Option Bytes :=
  ((requiredSignFields payload).findSome? fun f =>
    require (present f.2) (ascii f.1 ++ ascii " is required for SIGN")).or <|
  (require (payload.profileVersion != 0) (ascii "profile version is required for SIGN")).or <|
  require (payload.digest.length == 32) (ascii "digest must be 32 bytes for SIGN")

def validateSignTuple : Option Bytes :=
  match validateTuple {
      algorithm := payload.algorithm
      curve := payload.curve
      chain := payload.chain
      digestType := payload.digestType
      hashAlgorithm := payload.hashAlgorithm
      payloadType := payload.signingPayloadType
      addressEncoding := (payload.derivationContext.map (·.addressEncoding)).getD [] } with
  | .ok _ => none
  | .error e => require false e.text

/-- `validateSignPayload` from the normalized derivation context on. -/
def validateNormalized (normalized : CoreContext) : Option Bytes :=
  (require (Strings.trimSpace payload.chain == normalized.chain)
    (ascii "chain conflicts with derivation context")).or <|
  (require (Strings.toLower (Strings.trimSpace payload.algorithm) == normalized.algorithm)
    (ascii "algorithm conflicts with derivation context")).or <|
  (require (Strings.toLower (Strings.trimSpace payload.curve) == normalized.curve)
    (ascii "curve conflicts with derivation context")).or <|
  (require (Strings.trimSpace payload.profileID == normalized.profileID)
    (ascii "profile id conflicts with derivation context")).or <|
  (require (Strings.trimSpace payload.profileTemplateID == normalized.profileTemplateID)
    (ascii "profile template id conflicts with derivation context")).or <|
  (require (payload.profileVersion == normalized.profileVersion)
    (ascii "profile version conflicts with derivation context")).or <|
  match L.derivationContextHash normalized with
  | none => require false (T.hashError normalized)
  | some want => require (Strings.trimSpace payload.derivationContextHash == want)
      (ascii "derivation context hash mismatch")

/-- `validateSignPayload` on its derivation context. -/
def validateDerivation (ctx : DerivationContext) : Option Bytes :=
  (require (ctx.profileVersion != 0)
    (ascii "derivation context profile version is required for SIGN")).or <|
  (require (ctx.descriptorVersion != 0)
    (ascii "derivation context descriptor version is required for SIGN")).or <|
  (require (ctx.keyVersion != 0) (ascii "derivation context key version is required for SIGN")).or <|
  match L.normalizeDerivationContext (toCoreDerivationContext ctx) with
  | none => require false (T.normalizeError (toCoreDerivationContext ctx))
  | some normalized => validateNormalized L T payload normalized

def validateSignPayload : Option Bytes :=
  (validateSignMetadata payload).or <|
  (validateSignTuple payload).or <|
  (require (!present payload.chainCode) (ascii "chain code is not allowed for SIGN")).or <|
  (require (!present payload.derivationScheme)
    (ascii "derivation scheme is not allowed for SIGN")).or <|
  match payload.derivationContext with
  | none => require false (ascii "derivation context is required for SIGN")
  | some ctx => validateDerivation L T payload ctx

/-- `validateIntent`; the error's text. -/
def validateIntent (intent : Intent) : Option Bytes :=
  let payload := intent.payload
  let intentType := Strings.toUpper (Strings.trimSpace intent.type)
  let uniqueParties := dedupeParties payload.parties
  let curve := Strings.trimSpace payload.curve
  (require (present intent.sessionID) (ascii "session id is required")).or <|
  (require (intentType == ascii "DKG" || intentType == ascii "SIGN")
    (ascii "unsupported intent type " ++ T.quoted intent.type)).or <|
  (validatePayloadType T intentType payload.type).or <|
  (require (2 ≤ uniqueParties.length) (ascii "at least 2 unique parties are required")).or <|
  (require (2 ≤ payload.threshold && payload.threshold ≤ uniqueParties.length)
    (ascii "invalid threshold " ++ intLiteral payload.threshold ++ ascii " for " ++
      intLiteral uniqueParties.length ++ ascii " parties")).or <|
  (require (uniqueParties.contains localPartyID)
    (ascii "local party " ++ T.quoted localPartyID ++ ascii " is not part of intent")).or <|
  (require (Strings.equalFold (Strings.trimSpace payload.algorithm) (ascii "ECDSA"))
    (ascii "unsupported algorithm " ++ T.quoted payload.algorithm)).or <|
  (require (curve != []) (ascii "curve is required")).or <|
  (require (Strings.equalFold curve (ascii "secp256k1"))
    (ascii "unsupported ecdsa curve " ++ T.quoted payload.curve)).or <|
  (validateCommonPayload payload).or <|
  if intentType = ascii "DKG" then validateDKGPayload L T payload
  else (validateProductionSignRoster T payload localPartyID).or (validateSignPayload L T payload)

end

/-- `coretss.SignSessionRequest`; the transport is that of the session. -/
structure SignSessionRequest where
  sessionID : Bytes
  orgID : Bytes
  keyID : Bytes
  parties : List Bytes
  threshold : Nat
  algorithm : Bytes
  curve : Bytes
  chain : Bytes
  localPartyID : Bytes
  digest : Bytes
  derivationContext : CoreContext
  deriving DecidableEq, Repr

/-- `buildSignRequest`; without a derivation context it panics. -/
def buildSignRequest (intent : Intent) (localPartyID : Bytes) : Option SignSessionRequest :=
  intent.payload.derivationContext.map fun ctx => {
    sessionID := intent.sessionID
    orgID := intent.payload.orgID
    keyID := intent.payload.keyID
    parties := intent.payload.parties
    threshold := intent.payload.threshold
    algorithm := intent.payload.algorithm
    curve := intent.payload.curve
    chain := intent.payload.chain
    localPartyID := localPartyID
    digest := intent.payload.digest
    derivationContext := toCoreDerivationContext ctx }

@[simp] theorem require_eq_none {passed : Bool} {text : Bytes} :
    require passed text = none ↔ passed = true := by
  unfold require
  split <;> simp [*]

section
variable {L : Libraries} {T : ErrorTexts} {payload : IntentPayload} {localPartyID : Bytes}

/-- The derivation context of an accepted SIGN payload: the rest of the payload repeats it, and
the hash is that of its normal form. -/
structure DerivationBound (L : Libraries) (payload : IntentPayload) (ctx : DerivationContext)
    (normalized : CoreContext) : Prop where
  normal : L.normalizeDerivationContext (toCoreDerivationContext ctx) = some normalized
  hashed : L.derivationContextHash normalized =
    some (Strings.trimSpace payload.derivationContextHash)
  chain : normalized.chain = Strings.trimSpace payload.chain
  profileID : normalized.profileID = Strings.trimSpace payload.profileID
  profileVersion : normalized.profileVersion = payload.profileVersion

theorem validateDerivation_bound {ctx : DerivationContext}
    (h : validateDerivation L T payload ctx = none) :
    ∃ normalized, DerivationBound L payload ctx normalized := by
  simp only [validateDerivation, Option.or_eq_none_iff] at h
  obtain ⟨-,-,-,h⟩ := h
  cases hnormal : L.normalizeDerivationContext (toCoreDerivationContext ctx) with
  | none => simp [hnormal] at h
  | some normalized =>
    simp only [hnormal, validateNormalized, Option.or_eq_none_iff, require_eq_none, beq_iff_eq] at h
    obtain ⟨hchain,-,-,hprofile,-,hversion,h⟩ := h
    cases hhash : L.derivationContextHash normalized with
    | none => simp [hhash] at h
    | some want =>
      simp only [hhash, require_eq_none, beq_iff_eq] at h
      exact ⟨normalized,hnormal,by rw [hhash, h],hchain.symm,hprofile.symm,hversion.symm⟩

theorem validateSignPayload_some (h : validateSignPayload L T payload = none) :
    payload.digest.length = 32 ∧ ∃ ctx normalized, payload.derivationContext = some ctx ∧
      DerivationBound L payload ctx normalized := by
  simp only [validateSignPayload, validateSignMetadata, Option.or_eq_none_iff, require_eq_none,
    beq_iff_eq] at h
  obtain ⟨⟨-,-,hdigest⟩,-,-,-,h⟩ := h
  cases hctx : payload.derivationContext with
  | none => simp [hctx] at h
  | some ctx =>
    simp only [hctx] at h
    obtain ⟨normalized,hbound⟩ := validateDerivation_bound h
    exact ⟨hdigest,ctx,normalized,rfl,hbound⟩

theorem validateProductionSignRoster_some
    (h : validateProductionSignRoster T payload localPartyID = none) :
    localPartyID = primaryPartyID ∧ payload.threshold = 2 ∧
      payload.parties = [platformPartyID,primaryPartyID] := by
  simp only [validateProductionSignRoster, Option.or_eq_none_iff, require_eq_none,
    Bool.and_eq_true, beq_iff_eq] at h
  exact ⟨h.1.1,h.2⟩

theorem validateIntent_some {intent : Intent} (h : validateIntent L T localPartyID intent = none) :
    (2 ≤ intent.payload.threshold ∧
        intent.payload.threshold ≤ (dedupeParties intent.payload.parties).length) ∧
      localPartyID ∈ dedupeParties intent.payload.parties ∧
      (if Strings.toUpper (Strings.trimSpace intent.type) = ascii "DKG" then
        validateDKGPayload L T intent.payload
      else (validateProductionSignRoster T intent.payload localPartyID).or
        (validateSignPayload L T intent.payload)) = none := by
  simp only [validateIntent, Option.or_eq_none_iff, require_eq_none, Bool.and_eq_true,
    decide_eq_true_eq, List.contains_iff_mem] at h
  obtain ⟨-,-,-,-,hthreshold,hlocal,-,-,-,-,h⟩ := h
  exact ⟨hthreshold,hlocal,h⟩

theorem validateIntent_sign {intent : Intent}
    (hkind : Strings.toUpper (Strings.trimSpace intent.type) = ascii "SIGN")
    (h : validateIntent L T localPartyID intent = none) :
    localPartyID = primaryPartyID ∧ intent.payload.threshold = 2 ∧
      intent.payload.parties = [platformPartyID,primaryPartyID] ∧
      intent.payload.digest.length = 32 ∧ ∃ ctx normalized,
        intent.payload.derivationContext = some ctx ∧
        DerivationBound L intent.payload ctx normalized := by
  obtain ⟨-,-,hpayload⟩ := validateIntent_some h
  have hother : ascii "SIGN" ≠ ascii "DKG" := by decide
  rw [hkind, if_neg hother, Option.or_eq_none_iff] at hpayload
  obtain ⟨hlocal,hthreshold,hparties⟩ := validateProductionSignRoster_some hpayload.1
  exact ⟨hlocal,hthreshold,hparties,validateSignPayload_some hpayload.2⟩

theorem validateClaimIdentity_sign {listed claimed : Intent} {claim : ClaimResult}
    (h : validateClaimIdentity listed claimed claim .sign = true) :
    claimed.intentID = listed.intentID ∧
      (listed.expiresAt ≠ 0 → claim.deadline = listed.expiresAt) ∧
      (listed.sessionID ≠ [] → claimed.sessionID = listed.sessionID) ∧
      (listed.payload.orgID ≠ [] → claimed.payload.orgID = listed.payload.orgID) ∧
      (listed.payload.keyID ≠ [] → claimed.payload.keyID = listed.payload.keyID) := by
  simp [validateClaimIdentity, isZeroTime] at h
  obtain ⟨⟨⟨-,-,hdeadline⟩,hsession⟩,⟨hintent,horg⟩,hkey⟩ := h
  exact ⟨hintent.symm,fun hne => (hdeadline.resolve_left hne).symm,
    fun hne => (hsession.resolve_left hne).symm,fun hne => (horg.resolve_left hne).symm,
    fun hne => (hkey.resolve_left hne).symm⟩

/-- An accepted SIGN claim makes a request to Core that carries the listed session, organization
and key, the two fixed parties with threshold two, and a derivation context whose normal form has
the hash the claim names. -/
theorem accepted_sign_request {listed claimed : Intent} {claim : ClaimResult}
    (hsession : listed.sessionID ≠ []) (horg : listed.payload.orgID ≠ [])
    (hkey : listed.payload.keyID ≠ []) (hexpires : listed.expiresAt ≠ 0)
    (hkind : Strings.toUpper (Strings.trimSpace claimed.type) = ascii "SIGN")
    (hidentity : validateClaimIdentity listed claimed claim .sign = true)
    (hvalid : validateIntent L T localPartyID claimed = none) :
    claimed.intentID = listed.intentID ∧ claim.deadline = listed.expiresAt ∧
      ∃ request ctx normalized, buildSignRequest claimed localPartyID = some request ∧
        request.sessionID = listed.sessionID ∧ request.orgID = listed.payload.orgID ∧
        request.keyID = listed.payload.keyID ∧ request.localPartyID = primaryPartyID ∧
        request.parties = [platformPartyID,primaryPartyID] ∧ request.threshold = 2 ∧
        request.digest = claimed.payload.digest ∧ request.digest.length = 32 ∧
        request.derivationContext = toCoreDerivationContext ctx ∧
        DerivationBound L claimed.payload ctx normalized := by
  obtain ⟨hintent,hdeadline,hsessionID,horgID,hkeyID⟩ := validateClaimIdentity_sign hidentity
  obtain ⟨hlocal,hthreshold,hparties,hdigest,ctx,normalized,hctx,hbound⟩ :=
    validateIntent_sign hkind hvalid
  refine ⟨hintent,hdeadline hexpires,_,ctx,normalized,by rw [buildSignRequest, hctx]; rfl,?_⟩
  exact ⟨hsessionID hsession,horgID horg,hkeyID hkey,hlocal,hparties,hthreshold,rfl,hdigest,rfl,
    hbound⟩

theorem dedupeParties_snoc (parties : List Bytes) (party : Bytes) :
    dedupeParties (parties ++ [party]) =
      if Strings.trimSpace party = [] ∨ Strings.trimSpace party ∈ dedupeParties parties then
        dedupeParties parties
      else dedupeParties parties ++ [Strings.trimSpace party] := by
  rw [dedupeParties, List.foldl_append]
  rfl

theorem dedupeParties_sound (parties : List Bytes) :
    (dedupeParties parties).Nodup ∧ ∀ p, p ∈ dedupeParties parties ↔
      p ≠ [] ∧ ∃ party ∈ parties, p = Strings.trimSpace party := by
  induction parties using List.reverseRecOn with
  | nil => simp [dedupeParties]
  | append_singleton parties party ih =>
    obtain ⟨hnodup,hmem⟩ := ih
    rw [dedupeParties_snoc]
    by_cases hskip : Strings.trimSpace party = [] ∨ Strings.trimSpace party ∈ dedupeParties parties
    · rw [if_pos hskip]
      refine ⟨hnodup,fun p => (hmem p).trans ?_⟩
      constructor
      · intro ⟨hne,q,hq,hp⟩
        exact ⟨hne,q,List.mem_append_left _ hq,hp⟩
      · intro ⟨hne,q,hq,hp⟩
        cases List.mem_append.mp hq with
        | inl hq => exact ⟨hne,q,hq,hp⟩
        | inr hq =>
          obtain rfl := List.mem_singleton.mp hq
          cases hskip with
          | inl hblank => exact absurd (hp.trans hblank) hne
          | inr hseen => exact hp ▸ (hmem _).mp hseen
    · rw [if_neg hskip]
      obtain ⟨hne,hnew⟩ := not_or.mp hskip
      constructor
      · exact List.nodup_append.mpr ⟨hnodup,List.nodup_singleton _,fun a ha b hb => by
          rw [List.mem_singleton.mp hb]
          exact fun hab => hnew (hab ▸ ha)⟩
      · intro p
        rw [List.mem_append, hmem, List.mem_singleton]
        constructor
        · intro hp
          cases hp with
          | inl hp =>
            obtain ⟨hp,q,hq,heq⟩ := hp
            exact ⟨hp,q,List.mem_append_left _ hq,heq⟩
          | inr hp => exact ⟨hp ▸ hne,party,by simp,hp⟩
        · intro ⟨hp,q,hq,heq⟩
          cases List.mem_append.mp hq with
          | inl hq => exact .inl ⟨hp,q,hq,heq⟩
          | inr hq => exact .inr (heq.trans (congrArg _ (List.mem_singleton.mp hq)))

theorem validateDKGPayload_some (h : validateDKGPayload L T payload = none) :
    payload.derivationContext = none ∧ payload.digest = [] ∧ payload.chainCode.length = 64 ∧
      ∃ chainCode, hexDecode payload.chainCode = some chainCode ∧
        Strings.trimSpace payload.chainCodeHash = Base64.rawURL.encode (L.sha256 chainCode) := by
  simp only [validateDKGPayload, Option.or_eq_none_iff, require_eq_none, Option.isNone_iff_eq_none,
    List.isEmpty_iff, isLowerHex64, Bool.and_eq_true, beq_iff_eq] at h
  obtain ⟨-,hctx,hdigest,⟨hlength,-⟩,-,hhash,-,-⟩ := h
  cases hdecode : hexDecode payload.chainCode with
  | none => simp [validateChainCodeHash, hdecode] at hhash
  | some chainCode =>
    simp only [validateChainCodeHash, hdecode, require_eq_none, beq_iff_eq] at hhash
    exact ⟨hctx,hdigest,hlength,chainCode,rfl,hhash⟩

/-- An accepted DKG intent names the local party among distinct parties that its threshold
fits, asks for nothing to be signed, and carries a chain code with the hash it names. -/
theorem accepted_dkg_intent {intent : Intent}
    (hkind : Strings.toUpper (Strings.trimSpace intent.type) = ascii "DKG")
    (hvalid : validateIntent L T localPartyID intent = none) :
    ∃ parties : List Bytes, parties.Nodup ∧
      (∀ p ∈ parties, p ≠ [] ∧ ∃ party ∈ intent.payload.parties, p = Strings.trimSpace party) ∧
      localPartyID ∈ parties ∧ 2 ≤ intent.payload.threshold ∧
      intent.payload.threshold ≤ parties.length ∧ intent.payload.derivationContext = none ∧
      intent.payload.digest = [] ∧ intent.payload.chainCode.length = 64 ∧
      ∃ chainCode, hexDecode intent.payload.chainCode = some chainCode ∧
        Strings.trimSpace intent.payload.chainCodeHash =
          Base64.rawURL.encode (L.sha256 chainCode) := by
  obtain ⟨⟨hlow,hhigh⟩,hlocal,hpayload⟩ := validateIntent_some hvalid
  rw [if_pos hkind] at hpayload
  obtain ⟨hnodup,hmem⟩ := dedupeParties_sound intent.payload.parties
  exact ⟨_,hnodup,fun p hp => (hmem p).mp hp,hlocal,hlow,hhigh,validateDKGPayload_some hpayload⟩

end

/-- Core accepts every context as its own normal form. -/
def plainCore : Libraries :=
  { Libraries.inert with
    normalizeDerivationContext := some
    derivationContextHash := fun _ => some (ascii "hash") }

def plainTexts : ErrorTexts where
  quoted := id
  normalizeError _ := []
  hashError _ := []
  bip32Secp256k1 := ascii "bip32"

def signContext : DerivationContext where
  profileID := ascii "profile"
  profileTemplateID := ascii "template"
  chain := ascii "tron:nile"
  algorithm := ascii "ecdsa"
  curve := ascii "secp256k1"
  addressEncoding := ascii "base58check"
  descriptorVersion := 1
  profileVersion := 1
  keyVersion := 1

def listedSign : Intent where
  intentID := ascii "intent"
  sessionID := ascii "session"
  type := ascii "SIGN"
  expiresAt := Time.unixEpoch + 600 * Time.second
  payload := { orgID := ascii "org", keyID := ascii "key" }

def claimedSign : Intent :=
  { listedSign with
    payload := {
      type := ascii "SIGN"
      orgID := ascii "org"
      walletID := ascii "wallet"
      keyID := ascii "key"
      profileID := ascii "profile"
      profileVersion := 1
      profileTemplateID := ascii "template"
      parties := [platformPartyID,primaryPartyID]
      threshold := 2
      algorithm := ascii "ECDSA"
      curve := ascii "secp256k1"
      chain := ascii "tron:nile"
      digest := List.replicate 32 0
      digestType := ascii "transaction"
      hashAlgorithm := tronHashAlgorithm
      signingPayloadType := tronPayloadType
      derivationContextHash := ascii "hash"
      partyID := primaryPartyID
      derivationContext := some signContext } }

def signClaim : ClaimResult where
  session := {
    sessionID := ascii "session"
    status := ascii "PENDING"
    deadline := Time.unixEpoch + 600 * Time.second }
  deadline := Time.unixEpoch + 600 * Time.second

theorem accepted_sign_request_sample : ∃ request,
    buildSignRequest claimedSign primaryPartyID = some request ∧ request.threshold = 2 ∧
      request.keyID = listedSign.payload.keyID := by
  have hvalid : validateIntent plainCore plainTexts primaryPartyID claimedSign = none := by
    decide +kernel
  have hidentity : validateClaimIdentity listedSign claimedSign signClaim .sign = true := by
    decide +kernel
  have hsession : listedSign.sessionID ≠ [] := by decide
  have horg : listedSign.payload.orgID ≠ [] := by decide
  have hkeyID : listedSign.payload.keyID ≠ [] := by decide
  have hexpires : listedSign.expiresAt ≠ 0 := by decide
  obtain ⟨-,-,request,-,-,hrequest,-,-,hkey,-,-,hthreshold,-⟩ :=
    accepted_sign_request hsession horg hkeyID hexpires (by decide +kernel) hidentity hvalid
  exact ⟨request,hrequest,hthreshold,hkey⟩

def chainCodeDigest : Bytes :=
  Strings.bigEndian 32 0xe0e77a507412b120f6ede61f62295b1a7b2ff19d3dcc8f7253e51663470c888e

def claimedDkg : Intent where
  intentID := ascii "intent"
  sessionID := ascii "session"
  type := ascii "DKG"
  payload := {
    orgID := ascii "org"
    keyID := ascii "key"
    parties := [platformPartyID,primaryPartyID,ascii " "]
    threshold := 2
    algorithm := ascii "ECDSA"
    curve := ascii "secp256k1"
    chainCode := List.replicate 64 0x61
    chainCodeHash := Base64.rawURL.encode chainCodeDigest
    derivationScheme := ascii "bip32" }

theorem accepted_dkg_intent_sample : ∃ parties : List Bytes, primaryPartyID ∈ parties ∧
    claimedDkg.payload.threshold ≤ parties.length := by
  have hvalid : validateIntent
      { plainCore with sha256 := tabled [(List.replicate 32 0xAA,chainCodeDigest)] } plainTexts
      primaryPartyID claimedDkg = none := by
    decide +kernel
  obtain ⟨parties,-,-,hlocal,-,hhigh,-⟩ := accepted_dkg_intent (by decide +kernel) hvalid
  exact ⟨parties,hlocal,hhigh⟩

end CoSigner.Worker
