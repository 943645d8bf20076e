import CoSigner.SigningPolicy.Policy

/-! Prepared transactions: the exact unsigned bytes, checked against the approved
authorization and the policy context without asking a node. -/
namespace CoSigner.SigningPolicy
open Json Contract
variable (L : Libraries)

/-- `ApprovedExecution`. -/
structure ApprovedExecution where
  version : Int := 0
  requestID : Bytes := []
  outgoingID : Bytes := []
  authorization : Bytes := []
  authorizationHash : Bytes := []
  decisionReceipt : Bytes := []
  deriving DecidableEq, Repr

/-- `PreparedTransfer`. -/
structure PreparedTransfer where
  version : Int := 0
  encoding : Bytes := []
  unsignedTransaction : Bytes := []
  networkFeeAsset : Bytes := []
  networkFeeBudgetAtomic : Bytes := []
  feeEvidence : Bytes := []
  deriving DecidableEq, Repr

/-- `closedStruct`: every field once and none of them null, `feeEvidence` apart. -/
def closedStruct {σ : Type} (fs : List (Json.Field σ)) (old : σ) (raw : Bytes) : Option σ := do
  let value ← decodeClosed (struct fs) old raw
  let m ← unmarshal rawObject none raw
  let m := m.getD []
  if m.length != fs.length || !fs.all (fun f =>
      match m.get f.name with
      | some v => v != ascii "null" || f.name == ascii "feeEvidence"
      | none => false) then none
  some value

def approvedFields : List (Json.Field ApprovedExecution) :=
  [field "version" (·.version) (fun c x => { c with version := x }) (int 64),
    field "requestId" (·.requestID) (fun c x => { c with requestID := x }) string,
    field "outgoingId" (·.outgoingID) (fun c x => { c with outgoingID := x }) string,
    field "authorization" (·.authorization) (fun c x => { c with authorization := x }) rawMessage,
    field "authorizationHash" (·.authorizationHash)
      (fun c x => { c with authorizationHash := x }) string,
    field "decisionReceipt" (·.decisionReceipt) (fun c x => { c with decisionReceipt := x })
      rawMessage]

/-- `ApprovedExecution.UnmarshalJSON`. -/
def ApprovedExecution.decoder : Decoder ApprovedExecution :=
  fun _ v old => closedStruct approvedFields old v.raw

def preparedFields : List (Json.Field PreparedTransfer) :=
  [field "version" (·.version) (fun c x => { c with version := x }) (int 64),
    field "encoding" (·.encoding) (fun c x => { c with encoding := x }) string,
    field "unsignedTransaction" (·.unsignedTransaction)
      (fun c x => { c with unsignedTransaction := x }) string,
    field "networkFeeAsset" (·.networkFeeAsset) (fun c x => { c with networkFeeAsset := x })
      string,
    field "networkFeeBudgetAtomic" (·.networkFeeBudgetAtomic)
      (fun c x => { c with networkFeeBudgetAtomic := x }) string,
    field "feeEvidence" (·.feeEvidence) (fun c x => { c with feeEvidence := x }) rawMessage]

/-- `PreparedTransfer.UnmarshalJSON`. -/
def PreparedTransfer.decoder : Decoder PreparedTransfer :=
  fun _ v old => closedStruct preparedFields old v.raw

structure TronFeeParameters where
  transactionFeeSunPerBandwidth : Bytes := []
  createAccountFeeSun : Bytes := []
  createNewAccountFeeInSystemContractSun : Bytes := []
  createNewAccountBandwidthRate : Bytes := []
  deriving DecidableEq, Repr

structure TronFeeQuote where
  version : Int := 0
  destinationAccountExists : Bool := false
  chainParameters : TronFeeParameters := {}
  amountAtomic : Bytes := []
  signedTransactionBytes : Int := 0
  bandwidthBytes : Int := 0
  deriving DecidableEq, Repr

def tronFeeParameterFields : List (Json.Field TronFeeParameters) :=
  [field "transactionFeeSunPerBandwidth" (·.transactionFeeSunPerBandwidth)
      (fun c x => { c with transactionFeeSunPerBandwidth := x }) string,
    field "createAccountFeeSun" (·.createAccountFeeSun)
      (fun c x => { c with createAccountFeeSun := x }) string,
    field "createNewAccountFeeInSystemContractSun" (·.createNewAccountFeeInSystemContractSun)
      (fun c x => { c with createNewAccountFeeInSystemContractSun := x }) string,
    field "createNewAccountBandwidthRate" (·.createNewAccountBandwidthRate)
      (fun c x => { c with createNewAccountBandwidthRate := x }) string]

def tronFeeQuoteFields : List (Json.Field TronFeeQuote) :=
  [field "version" (·.version) (fun c x => { c with version := x }) (int 64),
    field "destinationAccountExists" (·.destinationAccountExists)
      (fun c x => { c with destinationAccountExists := x }) boolean,
    field "chainParameters" (·.chainParameters) (fun c x => { c with chainParameters := x })
      (fun _ v old => closedStruct tronFeeParameterFields old v.raw),
    field "amountAtomic" (·.amountAtomic) (fun c x => { c with amountAtomic := x }) string,
    field "signedTransactionBytes" (·.signedTransactionBytes)
      (fun c x => { c with signedTransactionBytes := x }) (int 64),
    field "bandwidthBytes" (·.bandwidthBytes) (fun c x => { c with bandwidthBytes := x })
      (int 64)]

/-- `json.Unmarshal` into a `*TronFeeQuote`. -/
def parseFeeQuote (raw : Bytes) : Option TronFeeQuote :=
  (unmarshal (pointer {} fun _ v old => closedStruct tronFeeQuoteFields old v.raw) none raw).join

/-- `nullEqual` of a raw member and a `*string`. -/
def nullEqual (v : Option Bytes) (w : Option Bytes) : Bool :=
  v.getD [] == Codec.optionalString.literal w

/-- `nullEqual` of a raw member and a `*int64`. -/
def nullEqualInt (v : Option Bytes) (w : Option Int) : Bool :=
  v.getD [] == (w.map intLiteral).getD (ascii "null")

/-- `big.Int.FillBytes`: the last `n` bytes, most significant first. -/
def fillBytes : Nat → Nat → Bytes
  | 0, _ => []
  | n + 1, x => fillBytes n (x / 256) ++ [(x % 256).toUInt8]

/-- `transferCall`: the ABI call `transfer(address,uint256)`; empty where it cannot be made. -/
def transferCall (address amount : Bytes) : Bytes :=
  match hexDecode (Strings.trimStart address (ascii "0x")), number amount with
  | some addr, some n =>
    if addr.length != 20 || n < 0 || 2 ^ 256 ≤ n then []
    else [0xA9,0x05,0x9C,0xBB] ++ List.replicate 12 0 ++ addr ++ fillBytes 32 n.toNat
  | _, _ => []

/-- `verifyEthereumBytes`: the network fee budget. -/
def verifyEthereumBytes (raw : Bytes) (p : Context) : Option Bytes := do
  if raw.length < 2 || raw.head? != some 2 then none
  let tx ← L.rlpDecode (raw.drop 1)
  let encoded ← L.rlpEncode tx
  if encoded != raw.drop 1 || !tx.accessList.isEmpty || tx.toBytes.length != 20 ||
      decimal tx.chainID != ethereumChainID p.chain || decimal tx.chainID != p.chainID ||
      decimal tx.nonce != p.nonce || decimal tx.gas != p.gasLimit ||
      decimal tx.maxFee != p.maxFeePerGas || decimal tx.priority != p.maxPriorityFeePerGas ||
      tx.gas == 0 || tx.maxFee == 0 || tx.maxFee < tx.priority || 2 ^ 256 ≤ tx.value ||
      2 ^ 256 ≤ tx.maxFee || 2 ^ 256 ≤ tx.priority || 2 ^ 64 ≤ tx.gas ||
      maxProducerSafeInteger < tx.nonce then none
  let recipient := ascii "0x" ++ hexEncode tx.toBytes
  match p.tokenStandard with
  | none =>
    if p.asset != ascii "ETH" || recipient != p.toAddress ||
        decimal tx.value != p.amountAtomic || !tx.data.isEmpty then none
  | some standard =>
    if standard != ascii "erc20" || p.tokenContractCanonical != some recipient ||
        tx.value != 0 || tx.data != transferCall p.toAddress p.amountAtomic then none
  some (decimal (tx.gas * tx.maxFee : Nat))

/-- What a protocol's verification returns: the digest and the budget. -/
structure PreparedVerification where
  digest : Bytes
  budget : Bytes

def verifyEthereumPrepared (raw : Bytes) (prepared : PreparedTransfer) (policy : Context)
    (auth : Object) : Option PreparedVerification := do
  if prepared.networkFeeAsset != ascii "ETH" || prepared.feeEvidence != ascii "null" ||
      !nullEqual (auth.get (ascii "tokenStandard")) policy.tokenStandard then none
  let budget ← verifyEthereumBytes L raw policy
  let params := subObject auth "requestedChainParams"
  let p := subObject params "ethereum"
  if !params.isEmpty && (str p "maxFeePerGas" != policy.maxFeePerGas ||
      str p "maxPriorityFeePerGas" != policy.maxPriorityFeePerGas) then none
  some ⟨L.keccak256 raw,budget⟩

/-- `strictProto`. -/
def strictProto {μ : Type} (codec : ProtoCodec μ) (unknown : μ → Bytes) (raw : Bytes) :
    Option μ := do
  let m ← codec.unmarshal raw
  if !(unknown m).isEmpty then none
  let b ← codec.marshal m
  if raw != b then none
  some m

def tronAddress (address : Bytes) : Bytes :=
  match L.base58Decode address with
  | some (p,v) => if v != 0x41 || p.length != 20 then [] else v :: p
  | none => []

/-- Arithmetic of `int64`. -/
def wrap64 (x : Int) : Int := Int.bmod x (2 ^ 64)

def unixMilli (t : Time) : Int := (t - Time.unixEpoch) / Time.millisecond

/-- The time conditions of `verifyTronBytes`. -/
def tronTimely (timestamp expiration now : Int) : Bool :=
  !(timestamp ≤ 0 || wrap64 (now + 1000) < timestamp || wrap64 (expiration - now) ≤ 60000 ||
    expiration ≤ timestamp || 86340000 < wrap64 (expiration - timestamp))

def tronTransferType : Int := 1

def tronTriggerType : Int := 31

/-- The checks of `verifyTronBytes` on a native transfer. -/
def verifyTronTransfer (tx : TronRaw) (c : TronContract) (typeURL value : Bytes) (p : Context) :
    Option Unit := do
  if c.type != tronTransferType ||
      typeURL != ascii "type.googleapis.com/protocol.TransferContract" then none
  let v ← strictProto L.tronTransfer (·.unknown) value
  if v.ownerAddress != tronAddress L p.fromAddress || v.toAddress != tronAddress L p.toAddress ||
      v.amount ≤ 0 || maxProducerSafeInteger < v.amount || decimal v.amount != p.amountAtomic ||
      tx.feeLimit != 0 || p.feeLimitSun.isSome || p.asset != ascii "TRX" then none

/-- What `hex.DecodeString` returns with or without an error: the bytes before the first
malformed pair. -/
def hexBytes : Bytes → Bytes
  | a :: b :: t =>
    match hexVal a, hexVal b with
    | some x, some y => (16 * x + y).toUInt8 :: hexBytes t
    | _, _ => []
  | _ => []

/-- The token contract's address as TRON has it. -/
def tronTokenAddress (p : Context) : Bytes :=
  match p.tokenContractCanonical with
  | none => []
  | some token => 0x41 :: hexBytes (Strings.trimStart token (ascii "0x"))

/-- The checks of `verifyTronBytes` on a token transfer. -/
def verifyTronTrigger (tx : TronRaw) (c : TronContract) (typeURL value : Bytes) (p : Context)
    (standard : Bytes) : Option Unit := do
  let addr := tronAddress L p.toAddress
  if standard != ascii "trc20" && standard != ascii "TRC20" || c.type != tronTriggerType ||
      typeURL != ascii "type.googleapis.com/protocol.TriggerSmartContract" then none
  let v ← strictProto L.tronTrigger (·.unknown) value
  if v.ownerAddress != tronAddress L p.fromAddress || v.contractAddress != tronTokenAddress p ||
      addr.length != 21 ||
      v.data != transferCall (ascii "0x" ++ hexEncode (addr.drop 1)) p.amountAtomic ||
      v.callValue != 0 || v.callTokenValue != 0 || v.tokenID != 0 ||
      p.feeLimitSun != some (decimal tx.feeLimit) || tx.feeLimit ≤ 0 then none

def verifyTronBytes (raw : Bytes) (p : Context) (now : Time) : Option Unit := do
  let tx ← strictProto L.tronRaw (·.unknown) raw
  if tx.refBlockBytes.length != 2 || tx.refBlockHash.length != 8 || tx.refBlockNum != 0 ||
      !tx.auths.isEmpty || !tx.data.isEmpty || !tx.scripts.isEmpty ||
      !tronTimely tx.timestamp tx.expiration (unixMilli now) || tx.feeLimit < 0 ||
      maxProducerSafeInteger < tx.feeLimit then none
  match tx.contract with
  | [c] =>
    if !c.unknown.isEmpty || c.permissionID != 0 || !c.provider.isEmpty ||
        !c.contractName.isEmpty || !c.parameterUnknown.isEmpty then none
    let (typeURL,value) ← c.parameter
    match p.tokenStandard with
    | none => verifyTronTransfer L tx c typeURL value p
    | some standard => verifyTronTrigger L tx c typeURL value p standard
  | _ => none

def varintSizeFrom : Nat → Nat → Nat
  | 0, _ => 1
  | fuel + 1, n => if n < 128 then 1 else varintSizeFrom fuel (n / 128) + 1

def varintSize (n : Nat) : Nat := varintSizeFrom n n

/-- The size of a `tron.Transaction` with an empty raw message and one signature of 65 bytes. -/
def emptySignedSize : Nat := 69

/-- `tronBudget`; the empty string is no budget. -/
def tronBudget (raw : Bytes) (p : Context) (q : TronFeeQuote) : Bytes :=
  let params := q.chainParameters
  let signed := emptySignedSize + raw.length + varintSize raw.length - 1
  let bandwidth := signed + 64
  let fees := [params.transactionFeeSunPerBandwidth,params.createAccountFeeSun,
    params.createNewAccountFeeInSystemContractSun,params.createNewAccountBandwidthRate,
    q.amountAtomic]
  if q.version != 1 || !fees.all canonicalUint || q.signedTransactionBytes != signed ||
      q.bandwidthBytes != bandwidth then []
  else
    let base := (bandwidth : Int) * (number params.transactionFeeSunPerBandwidth).getD 0
    let budget :=
      match p.feeLimitSun with
      | none =>
        if q.destinationAccountExists then some base
        else some (base * (number params.createNewAccountBandwidthRate).getD 0 +
          (number params.createAccountFeeSun).getD 0 +
          (number params.createNewAccountFeeInSystemContractSun).getD 0)
      | some limit => if canonicalUint limit then some (base + (number limit).getD 0) else none
    match budget with
    | some budget => if decimal budget == q.amountAtomic then decimal budget else []
    | none => []

/-- `canonicalTronPolicyToken`. -/
def canonicalTronPolicyToken (p : Context) : Option Bytes :=
  if isTronChain p.chain && p.tokenStandard == some (ascii "TRC20") then some (ascii "trc20")
  else p.tokenStandard

def verifyTronPrepared (raw : Bytes) (prepared : PreparedTransfer) (policy : Context)
    (auth : Object) (now : Time) : Option PreparedVerification := do
  if prepared.networkFeeAsset != ascii "TRX" then none
  let quote ← parseFeeQuote prepared.feeEvidence
  if !nullEqual (auth.get (ascii "tokenStandard")) (canonicalTronPolicyToken policy) then none
  verifyTronBytes L raw policy now
  let params := subObject auth "requestedChainParams"
  let limit := (subObject params "tron").get (ascii "feeLimitSun")
  if !params.isEmpty && limit != some (ascii "null") && !nullEqual limit policy.feeLimitSun then
    none
  some ⟨L.sha256 raw,tronBudget raw policy quote⟩

def Protocol.verifyPrepared (protocol : Protocol) (raw : Bytes) (prepared : PreparedTransfer)
    (policy : Context) (auth : Object) (now : Time) : Option PreparedVerification :=
  match protocol with
  | .ethereum => verifyEthereumPrepared L raw prepared policy auth
  | .tron => verifyTronPrepared L raw prepared policy auth now

/-- The members of an authorization that the policy and the prepared transfer repeat. -/
def repeatedTerms (policy : Context) (prepared : PreparedTransfer) : List (String × Bytes) :=
  [("chain",policy.chain),("asset",policy.asset),("fromAddress",policy.fromAddress),
    ("toAddress",policy.toAddress),("amountAtomic",policy.amountAtomic),
    ("networkFeeAsset",prepared.networkFeeAsset)]

/-- `VerifyPrepared`: the authorization, validated against exact transaction bytes. -/
def verifyPrepared (a : ApprovedExecution) (prepared : PreparedTransfer)
    (policy : Option Context) (digest payloadType algorithm : Bytes) (now : Time) :
    Option Object := do
  let policy ← policy
  if a.version != 1 || !validReference a.outgoingID || a.requestID == [] ||
      prepared.version != 1 || prepared.encoding != ascii "hex" ||
      !canonicalUint prepared.networkFeeBudgetAtomic then none
  let canonical ← L.jcs a.authorization
  let auth ← parseAuthorization L canonical
  if hash L canonical != a.authorizationHash || str auth "requestId" != a.requestID then none
  if !(repeatedTerms policy prepared).all fun kw => str auth kw.1 == kw.2 then none
  if !nullEqualInt (auth.get (ascii "tokenDecimals")) policy.tokenDecimals ||
      !nullEqual (auth.get (ascii "tokenContractCanonical")) policy.tokenContractCanonical ||
      exceedsUint prepared.networkFeeBudgetAtomic (str auth "maxNetworkFeeAtomic") then none
  let raw ← hexDecode prepared.unsignedTransaction
  if raw.length == 0 || 16384 < raw.length || hexEncode raw != prepared.unsignedTransaction then
    none
  let protocol ← protocolForPayload payloadType
  if algorithm != protocol.hashAlgorithm || !protocol.supportsChain policy.chain then none
  let verified ← protocol.verifyPrepared L raw prepared policy auth now
  if verified.budget == [] || verified.budget != prepared.networkFeeBudgetAtomic ||
      verified.digest != digest then none
  some auth

end CoSigner.SigningPolicy
