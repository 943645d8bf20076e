import CoSigner.Contract.Mpc2of3
import CoSigner.Lib.Json.Record
import CoSigner.Lib.Time

/-! The closed approval-v1 wire boundary: authorizations, decision envelopes, receipts,
organization answers, decision applications and discovery pages. A parser that returns
an error in the source returns `none` here. -/
namespace CoSigner.Contract
open Json
variable (L : Libraries)

/-- `parse`: one closed object of at most `maximum` bytes, in JCS form if `canonical`. -/
def parseWire (raw : Bytes) (maximum : Nat) (canonical : Bool) : Option Object := do
  if raw.isEmpty || maximum < raw.length || !Utf8.valid raw then none
  let fields ← decodeClosed rawObject none raw
  if canonical && !requireCanonicalJCS L raw then none
  fields

def closed (v : Object) (keys : List String) : Bool :=
  v.length == keys.length && keys.all fun k => v.has (ascii k)

def str (v : Object) (k : String) : Bytes :=
  ((v.get (ascii k)).bind (unmarshal string [])).getD []

def integer (v : Object) (k : String) : Int :=
  match v.get (ascii k) with
  | some (b :: t) => if isDigit b then (unmarshal (int 64) 0 (b :: t)).getD (-1) else -1
  | _ => -1

def isNull (v : Object) (k : String) : Bool := v.get (ascii k) == some (ascii "null")

def subObject (v : Object) (k : String) : Object :=
  (((v.get (ascii k)).bind (unmarshal rawObject none)).getD none).getD []

def isControl (rune : Nat) : Bool := rune < 0x20 || 0x7F ≤ rune && rune < 0xA0

def bounded (s : Bytes) (maximum : Nat) : Bool :=
  !s.isEmpty && s.length ≤ maximum && Utf8.valid s &&
    (Utf8.chunks s).all fun c => !isControl c.rune

/-- `ValidReference`. -/
def validReference (value : Bytes) : Bool := bounded value 128

/-- `hex256`. -/
def hex256 (s : Bytes) : Bool := s.length == 64 && hexDigits s

/-- `uintPattern`. -/
def uintPattern (s : Bytes) : Bool :=
  s == [0x30] || !s.isEmpty && s.all isDigit && s.head? != some 0x30

/-- `timestamp`. -/
def validTimestamp (s : Bytes) : Bool :=
  match Time.parseMillis s with
  | some t => 0 < (t - Time.unixEpoch) / Time.millisecond && Time.formatMillis t == s
  | none => false

def hexEncode (s : Bytes) : Bytes :=
  s.flatMap fun b => [hexDigit (b.toNat / 16),hexDigit (b.toNat % 16)]

def hexDecode : Bytes → Option Bytes
  | [] => some []
  | [_] => none
  | a :: b :: t => do
    let x ← hexVal a
    let y ← hexVal b
    let r ← hexDecode t
    some ((16 * x + y).toUInt8 :: r)

/-- `hash`: SHA-256 in hexadecimal. -/
def hash (raw : Bytes) : Bytes := hexEncode (L.sha256 raw)

/-- `standardBase64`; a length is only required where one is given. -/
def standardBase64 (s : Bytes) (n : Option Nat) : Option Bytes := do
  let b ← Base64.std.decode s
  if Base64.std.encode b != s || n.any (· != b.length) then none
  some b

/-- `ValidExecutionDigest`. -/
def validExecutionDigest (value : Bytes) : Bool := (standardBase64 value (some 32)).isSome

/-- The pattern `^[A-Z][A-Z0-9_]{0,63}$`. -/
def reasonCode (s : Bytes) : Bool :=
  let upper (b : UInt8) : Bool := 0x41 ≤ b.toNat && b.toNat ≤ 0x5A
  match s with
  | [] => false
  | b :: t => upper b && t.length ≤ 63 && t.all fun c => upper c || isDigit c || c == 0x5F

def validReason (v : Object) (key : String) (rejected : Bool) : Bool :=
  if rejected then
    let r := subObject v key
    closed r ["code", "text"] && reasonCode (str r "code") && bounded (str r "text") 512
  else isNull v key

/-- `evmAddress`. -/
def evmAddress (s : Bytes) : Bool :=
  s.take 2 == ascii "0x" && s.length == 42 && hexDigits (s.drop 2)

def publicKeyAddressBytes (publicKey : Bytes) : Bytes := (L.keccak256 (publicKey.drop 1)).drop 12

def validateTransferAsset (v : Object) (native standard : String) : Bool :=
  let amount := str v "amountAtomic"
  uintPattern amount && amount != ascii "0" && uintPattern (str v "maxNetworkFeeAtomic") &&
    bounded (str v "asset") 128 && str v "networkFeeAsset" == ascii native &&
    digitsValue amount < 2 ^ 256 &&
    if isNull v "tokenStandard" then
      isNull v "tokenContractCanonical" && isNull v "tokenDecimals" &&
        str v "asset" == ascii native
    else
      str v "tokenStandard" == ascii standard &&
        evmAddress (str v "tokenContractCanonical") &&
        0 ≤ integer v "tokenDecimals" && integer v "tokenDecimals" ≤ 255

def validateEthereumAuthorization (v : Object) (publicKey : Bytes) : Bool :=
  let d := subObject v "derivationContext"
  let expected := ascii "0x" ++ hexEncode (publicKeyAddressBytes L publicKey)
  str v "fromAddress" == expected && str d "addressEncoding" == ascii "evm_hex" &&
    evmAddress (str v "toAddress") && evmAddress (str v "fromAddress") &&
    validateTransferAsset v "ETH" "erc20" &&
    (isNull v "requestedChainParams" ||
      let p := subObject v "requestedChainParams"
      let q := subObject p "ethereum"
      closed p ["ethereum"] && closed q ["maxFeePerGas", "maxPriorityFeePerGas"] &&
        uintPattern (str q "maxFeePerGas") && uintPattern (str q "maxPriorityFeePerGas") &&
        digitsValue (str q "maxPriorityFeePerGas") ≤ digitsValue (str q "maxFeePerGas"))

def canonicalTronAddress (s : Bytes) : Bool :=
  match L.base58Decode s with
  | some (payload,version) =>
    version == 0x41 && payload.length == 20 && L.base58Encode payload version == s
  | none => false

def validateTronAuthorization (v : Object) (publicKey : Bytes) : Bool :=
  let d := subObject v "derivationContext"
  let expected := L.base58Encode (publicKeyAddressBytes L publicKey) 0x41
  str v "fromAddress" == expected && str d "addressEncoding" == ascii "tron_base58" &&
    canonicalTronAddress L (str v "toAddress") && canonicalTronAddress L (str v "fromAddress") &&
    validateTransferAsset v "TRX" "trc20" &&
    (!isNull v "tokenStandard" || digitsValue (str v "amountAtomic") ≤ 9007199254740991) &&
    (isNull v "requestedChainParams" ||
      let p := subObject v "requestedChainParams"
      let q := subObject p "tron"
      closed p ["tron"] && closed q ["feeLimitSun"] &&
        (isNull q "feeLimitSun" || uintPattern (str q "feeLimitSun")))

def authorizationValidator (chain : Bytes) : Option (Object → Bytes → Bool) :=
  if chain == ascii "ethereum:mainnet" || chain == ascii "ethereum:sepolia" then
    some (validateEthereumAuthorization L)
  else if chain == ascii "tron:mainnet" || chain == ascii "tron:nile" then
    some (validateTronAuthorization L)
  else none

def authorizationFields : List String :=
  ["version", "orgId", "requestId", "ledgerTransactionId", "clientReference", "accountId",
    "walletId", "keyId", "descriptorFingerprint", "derivationContextHash", "derivationContext",
    "chain", "fromAddress", "toAddress", "asset", "tokenStandard", "tokenContractCanonical",
    "tokenDecimals", "amountAtomic", "transferKind", "internalRecipient", "networkFeeAsset",
    "maxNetworkFeeAtomic", "requestedChainParams"]

def derivationFields : List String :=
  ["profileId", "profileTemplateId", "profileVersion", "chain", "algorithm", "curve", "scheme",
    "accountPath", "childPath", "fullPath", "addressEncoding", "expectedAddress",
    "expectedPublicKey", "publicKeyFormat", "descriptorVersion", "keyVersion"]

def derivationVersions : List String := ["profileVersion", "descriptorVersion", "keyVersion"]

/-- The checks on each member of the derivation context. -/
def validDerivationMember (d : Object) (k : String) : Bool :=
  if derivationVersions.contains k then 1 ≤ integer d k && integer d k ≤ 2147483647
  else bounded (str d k) 1024

/-- The derivation context of an authorization as Core takes it. -/
def coreContext (d : Object) (chain : Bytes) : CoreContext where
  profileID := str d "profileId"
  profileTemplateID := str d "profileTemplateId"
  profileVersion := (integer d "profileVersion").toNat
  chain := chain
  algorithm := str d "algorithm"
  curve := str d "curve"
  scheme := str d "scheme"
  accountPath := str d "accountPath"
  childPath := str d "childPath"
  fullPath := str d "fullPath"
  addressEncoding := str d "addressEncoding"
  expectedAddress := str d "expectedAddress"
  derivedPublicKey := str d "expectedPublicKey"
  publicKeyFormat := str d "publicKeyFormat"
  descriptorVersion := (integer d "descriptorVersion").toNat
  keyVersion := (integer d "keyVersion").toNat

def validTransferKind (v : Object) : Bool :=
  if str v "transferKind" == ascii "INTERNAL_TRANSFER" then
    let r := subObject v "internalRecipient"
    closed r ["accountId", "walletId"] && bounded (str r "accountId") 128 &&
      bounded (str r "walletId") 128
  else str v "transferKind" == ascii "EXTERNAL_WITHDRAWAL" && isNull v "internalRecipient"

/-- `ParseAuthorization`. -/
def parseAuthorization (raw : Bytes) : Option Object := do
  let v ← parseWire L raw 16384 true
  if !closed v authorizationFields || integer v "version" != 1 then none
  if !(["orgId", "requestId", "ledgerTransactionId", "accountId", "walletId", "keyId"].all
      fun k => bounded (str v k) 128) then none
  if !isNull v "clientReference" && !bounded (str v "clientReference") 128 then none
  if (parseSHA256Digest (str v "descriptorFingerprint")).isNone then none
  if !hex256 (str v "derivationContextHash") then none
  let chain := str v "chain"
  let validateChain ← authorizationValidator L chain
  let d := subObject v "derivationContext"
  if !closed d derivationFields || !derivationFields.all (validDerivationMember d) then none
  if str d "algorithm" != ascii "ECDSA" || str d "curve" != ascii "secp256k1" ||
      str d "scheme" != ascii "bip32_secp256k1" ||
      str d "publicKeyFormat" != ascii "uncompressed_hex" || str d "chain" != chain ||
      str d "expectedAddress" != str v "fromAddress" then none
  let got ← L.derivationContextHash (coreContext d chain)
  if got != str v "derivationContextHash" then none
  let pubRaw ← hexDecode (str d "expectedPublicKey")
  if pubRaw.length != 65 || pubRaw.head? != some 4 then none
  let pub ← L.parsePubKey pubRaw
  if !validateChain v pub || !validTransferKind v then none
  some v

def envelopeFields : List String :=
  ["version", "domain", "audience", "orgId", "requestId", "authorizationHash", "decision",
    "reason", "source", "externalDecisionReference", "decidedAt", "signingKeyId"]

/-- `ParseDecisionEnvelope`. -/
def parseDecisionEnvelope (raw : Bytes) : Option Object := do
  let v ← parseWire L raw 4096 true
  if !closed v envelopeFields || integer v "version" != 1 ||
      str v "domain" != ascii "brosettlement.co-signer.approval-decision" ||
      str v "audience" != ascii "brosettlement-transfer-approval" then none
  if !(["orgId", "requestId", "signingKeyId"].all fun k => bounded (str v k) 128) then none
  let decision := str v "decision"
  let source := str v "source"
  let reference := isNull v "externalDecisionReference"
  if !hex256 (str v "authorizationHash") || !validTimestamp (str v "decidedAt") ||
      decision != ascii "APPROVED" && decision != ascii "REJECTED" ||
      !validReason v "reason" (decision == ascii "REJECTED") ||
      source != ascii "external" && source != ascii "auto_approve" ||
      !reference && !bounded (str v "externalDecisionReference") 128 ||
      source == ascii "auto_approve" && (decision != ascii "APPROVED" || !reference) then none
  some v

structure Receipt where
  envelope : Object
  envelopeBytes : Bytes
  signature : Bytes

/-- `ParseReceipt`. -/
def parseReceipt (raw : Bytes) : Option Receipt := do
  let v ← parseWire L raw 8192 false
  if !closed v ["version", "envelopeBase64", "signatureBase64"] || integer v "version" != 1 then
    none
  let envelope ← standardBase64 (str v "envelopeBase64") none
  let signature ← standardBase64 (str v "signatureBase64") (some 64)
  let parsed ← parseDecisionEnvelope L envelope
  some ⟨parsed,envelope,signature⟩

/-- `DecisionDomain`. -/
def decisionDomain : Bytes := ascii "brosettlement.co-signer.approval-decision/v1\n"

structure TrustedReceipt where
  orgID : Bytes
  requestID : Bytes
  authorizationHash : Bytes
  signingKeyID : Bytes
  publicKey : Bytes
  eligible : Bool

/-- `VerifyReceipt`. -/
def verifyReceipt (raw : Bytes) (trusted : TrustedReceipt) : Option Receipt := do
  let r ← parseReceipt L raw
  if str r.envelope "orgId" != trusted.orgID || str r.envelope "requestId" != trusted.requestID ||
      str r.envelope "authorizationHash" != trusted.authorizationHash ||
      str r.envelope "signingKeyId" != trusted.signingKeyID then none
  if !trusted.eligible || trusted.publicKey.length != 32 ||
      !L.ed25519Verify trusted.publicKey (decisionDomain ++ r.envelopeBytes) r.signature then none
  some r

/-- `SameReceipt`. -/
def sameReceipt (left right : Bytes) : Option Bool := do
  let a ← parseReceipt L left
  let b ← parseReceipt L right
  some (a.envelopeBytes == b.envelopeBytes && a.signature == b.signature)

/-- `ParseOrganizationResponse`. -/
def parseOrganizationResponse (raw orgID requestID authorizationHash : Bytes) :
    Option Object := do
  let v ← parseWire L raw 65536 false
  let status := str v "status"
  let reference := isNull v "decisionReference"
  if !closed v ["version", "orgId", "requestId", "authorizationHash", "status", "reason",
        "decisionReference"] || integer v "version" != 1 || str v "orgId" != orgID ||
      str v "requestId" != requestID || str v "authorizationHash" != authorizationHash ||
      status != ascii "PENDING" && status != ascii "APPROVED" && status != ascii "REJECTED" ||
      !validReason v "reason" (status == ascii "REJECTED") ||
      !reference && !bounded (str v "decisionReference") 128 ||
      status == ascii "PENDING" && !reference then none
  some v

/-- `ParseDecisionApplication`. -/
def parseDecisionApplication (raw : Bytes) : Option Object := do
  let v ← parseWire L raw 4096 false
  if !closed v ["version", "requestId", "outcome", "disposition"] || integer v "version" != 1 ||
      !bounded (str v "requestId") 128 then none
  let outcome := str v "outcome"
  let disposition := str v "disposition"
  let cancelled := ascii "NOT_APPLIED_CANCELLED"
  let conflict := ascii "TERMINAL_CONFLICT"
  if outcome == ascii "ACCEPTED" && disposition == ascii "APPLIED" ||
      outcome == ascii "EXACT_REPLAY" &&
        (disposition == ascii "APPLIED" || disposition == cancelled) ||
      outcome == cancelled && disposition == outcome ||
      outcome == conflict && disposition == outcome then some v
  else none

structure PendingItem where
  requestID : Bytes := []
  createdAt : Bytes := []
  authorization : Bytes := []
  authorizationHash : Bytes := []
  deriving DecidableEq, Repr

/-- `PendingItem.OrganizationID`. -/
def PendingItem.organizationID (item : PendingItem) : Option Bytes := do
  let auth ← L.jcs item.authorization
  let a ← parseAuthorization L auth
  if item.requestID != str a "requestId" || hash L auth != item.authorizationHash then none
  some (str a "orgId")

structure PendingPage where
  version : Int := 0
  items : Option (List PendingItem) := none
  nextCursor : Option Bytes := none
  deriving DecidableEq, Repr

def PendingItem.marshal (item : PendingItem) : Option Bytes := do
  let authorization ← compact item.authorization
  some (object [(ascii "requestId",quote item.requestID),(ascii "createdAt",quote item.createdAt),
    (ascii "authorization",authorization),
    (ascii "authorizationHash",quote item.authorizationHash)])

def PendingPage.marshal (page : PendingPage) : Option Bytes := do
  let items ←
    match page.items with
    | none => some (ascii "null")
    | some items => (items.mapM PendingItem.marshal).map array
  some (object [(ascii "version",intLiteral page.version),(ascii "items",items),
    (ascii "nextCursor",Codec.optionalString.literal page.nextCursor)])

/-- Go's order on strings. -/
def lexLess : Bytes → Bytes → Bool
  | _, [] => false
  | [], _ :: _ => true
  | a :: s, b :: t => a.toNat < b.toNat || a == b && lexLess s t

/-- What `ParsePendingPage` remembers of the items before. -/
structure PageScan where
  seen : List Bytes := []
  previousTime : Bytes := []
  previousID : Bytes := []
  pageOrgID : Bytes := []
  deriving DecidableEq, Repr

def scanItem (scan : PageScan) (item : Bytes) : Option PageScan := do
  let row ← parseWire L item 32768 false
  if !closed row ["requestId", "createdAt", "authorization", "authorizationHash"] ||
      !validTimestamp (str row "createdAt") then none
  let id := str row "requestId"
  let created := str row "createdAt"
  if scan.seen.contains id || lexLess created scan.previousTime ||
      created == scan.previousTime && !lexLess scan.previousID id then none
  let orgID ← PendingItem.organizationID L
    ⟨id,[],(row.get (ascii "authorization")).getD [],str row "authorizationHash"⟩
  if !scan.pageOrgID.isEmpty && scan.pageOrgID != orgID then none
  some ⟨id :: scan.seen,created,id,orgID⟩

/-- `ParsePendingPage`. -/
def parsePendingPage (raw : Bytes) : Option Unit := do
  let v ← parseWire L raw (2 * 1024 * 1024) false
  if !closed v ["version", "items", "nextCursor"] || integer v "version" != 1 then none
  let cursor := str v "nextCursor"
  if !isNull v "nextCursor" && (cursor.isEmpty || 4096 < cursor.length ||
      cursor.any fun b => b.toNat < 0x21 || 0x7E < b.toNat) then none
  let raws ← (v.get (ascii "items")).bind (unmarshal (slice [] rawMessage) [])
  if isNull v "items" || 100 < raws.length then none
  let _ ← raws.foldlM (scanItem L) {}
  some ()

end CoSigner.Contract
