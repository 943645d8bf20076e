import CoSigner.Lib.Run
import CoSigner.SigningPolicy.TronTerms

/-! The verification of a prepared transfer as it runs: pointers may be nil, `SetString` leaves
a nil number behind where it fails, and an index may be out of range. What has none of these is
taken from the total model. -/
namespace CoSigner.SigningPolicy.Runtime
open Json Contract Run
variable (L : Libraries)

/-- `integer`. -/
def integer (v : Object) (k : String) : Run Int := do
  let raw := (v.get (ascii k)).getD []
  if ← pure (raw.length == 0) <||> (do pure (decide ((← index raw 0).toNat < 0x30))) <||>
      (do pure (decide (0x39 < (← index raw 0).toNat))) then pure (-1)
  else pure ((unmarshal (int 64) 0 raw).getD (-1))

def publicKeyAddressBytes (publicKey : Bytes) : Run Bytes := do
  let message ← sliceFrom publicKey 1
  sliceFrom (L.keccak256 message) 12

def validateTransferAsset (v : Object) (native standard : String) : Run Unit := do
  let amount := str v "amountAtomic"
  let cap := str v "maxNetworkFeeAtomic"
  refuseIf (pure (!uintPattern amount || amount == ascii "0" || !uintPattern cap ||
    !bounded (str v "asset") 128 || str v "networkFeeAsset" != ascii native))
  let amountN := number amount
  refuseIf (do pure (decide (2 ^ 256 ≤ (← deref amountN).natAbs)))
  if isNull v "tokenStandard" then
    refuseIf (pure (!isNull v "tokenContractCanonical" || !isNull v "tokenDecimals" ||
      str v "asset" != ascii native))
  else
    refuseIf (pure (str v "tokenStandard" != ascii standard ||
        !evmAddress (str v "tokenContractCanonical")) <||>
      (do pure (decide ((← integer v "tokenDecimals") < 0))) <||>
      (do pure (decide (255 < (← integer v "tokenDecimals")))))

def validateEthereumAuthorization (v : Object) (publicKey : Bytes) : Run Unit := do
  let d := subObject v "derivationContext"
  let address ← publicKeyAddressBytes L publicKey
  refuseIf (pure (str v "fromAddress" != ascii "0x" ++ hexEncode address ||
    str d "addressEncoding" != ascii "evm_hex" || !evmAddress (str v "toAddress") ||
    !evmAddress (str v "fromAddress")))
  validateTransferAsset v "ETH" "erc20"
  if !isNull v "requestedChainParams" then
    let p := subObject v "requestedChainParams"
    let q := subObject p "ethereum"
    refuseIf (pure (!closed p ["ethereum"] || !closed q ["maxFeePerGas", "maxPriorityFeePerGas"] ||
      !uintPattern (str q "maxFeePerGas") || !uintPattern (str q "maxPriorityFeePerGas")))
    let a := number (str q "maxFeePerGas")
    let b := number (str q "maxPriorityFeePerGas")
    refuseIf (do pure (decide ((← deref a) < (← deref b))))

def validateTronAuthorization (v : Object) (publicKey : Bytes) : Run Unit := do
  let d := subObject v "derivationContext"
  let address ← publicKeyAddressBytes L publicKey
  refuseIf (pure (str v "fromAddress" != L.base58Encode address 0x41 ||
    str d "addressEncoding" != ascii "tron_base58" ||
    !canonicalTronAddress L (str v "toAddress") || !canonicalTronAddress L (str v "fromAddress")))
  validateTransferAsset v "TRX" "trc20"
  if isNull v "tokenStandard" then
    let amount := number (str v "amountAtomic")
    refuseIf (do pure (decide (9007199254740991 < (← deref amount))))
  if !isNull v "requestedChainParams" then
    let p := subObject v "requestedChainParams"
    let q := subObject p "tron"
    refuseIf (pure (!closed p ["tron"] || !closed q ["feeLimitSun"] ||
      !isNull q "feeLimitSun" && !uintPattern (str q "feeLimitSun")))

def authorizationValidator (chain : Bytes) : Option (Object → Bytes → Run Unit) :=
  if chain == ascii "ethereum:mainnet" || chain == ascii "ethereum:sepolia" then
    some (validateEthereumAuthorization L)
  else if chain == ascii "tron:mainnet" || chain == ascii "tron:nile" then
    some (validateTronAuthorization L)
  else none

/-- The checks on one member of the derivation context. -/
def checkDerivationMember (d : Object) (k : String) : Run Unit := do
  if derivationVersions.contains k then
    let n ← integer d k
    refuseIf (pure (n < 1 || 2147483647 < n))
  else refuseIf (pure (!bounded (str d k) 1024))

def coreContext (d : Object) (chain : Bytes) : Run CoreContext := do
  let profileVersion ← integer d "profileVersion"
  let descriptorVersion ← integer d "descriptorVersion"
  let keyVersion ← integer d "keyVersion"
  pure { Contract.coreContext d chain with
    profileVersion := profileVersion.toNat
    descriptorVersion := descriptorVersion.toNat
    keyVersion := keyVersion.toNat }

/-- `ParseAuthorization`. -/
def parseAuthorization (raw : Bytes) : Run Object := do
  let v ← ofOption (parseWire L raw 16384 true)
  refuseIf (pure (!closed v authorizationFields) <||> do pure ((← integer v "version") != 1))
  refuseIf (pure !(["orgId", "requestId", "ledgerTransactionId", "accountId", "walletId",
    "keyId"].all fun k => bounded (str v k) 128))
  refuseIf (pure (!isNull v "clientReference" && !bounded (str v "clientReference") 128))
  refuseIf (pure (parseSHA256Digest (str v "descriptorFingerprint")).isNone)
  refuseIf (pure (!hex256 (str v "derivationContextHash")))
  let chain := str v "chain"
  let validateChain ← ofOption (authorizationValidator L chain)
  let d := subObject v "derivationContext"
  refuseIf (pure (!closed d derivationFields))
  derivationFields.forM (checkDerivationMember d)
  refuseIf (pure (str d "algorithm" != ascii "ECDSA" || str d "curve" != ascii "secp256k1" ||
    str d "scheme" != ascii "bip32_secp256k1" ||
    str d "publicKeyFormat" != ascii "uncompressed_hex" || str d "chain" != chain ||
    str d "expectedAddress" != str v "fromAddress"))
  let ctx ← coreContext d chain
  let got ← ofOption (L.derivationContextHash ctx)
  refuseIf (pure (got != str v "derivationContextHash"))
  let pubRaw ← ofOption (hexDecode (str d "expectedPublicKey"))
  refuseIf (pure (pubRaw.length != 65) <||> do pure ((← index pubRaw 0) != 4))
  let pub ← ofOption (L.parsePubKey pubRaw)
  validateChain v pub
  refuseIf (pure (!validTransferKind v))
  pure v

def canonicalUint (value : Bytes) : Run Bool := do
  if value == ascii "0" then pure true
  else if ← pure (value == []) <||> (do pure (decide ((← index value 0).toNat < 0x31))) <||>
      (do pure (decide (0x39 < (← index value 0).toNat))) then pure false
  else (List.range' 1 (value.length - 1)).allM fun i => do pure (isDigit (← index value i))

/-- `n.FillBytes(b[i:])`. -/
def fillFrom (b : Bytes) (i : Nat) (n : Int) : Run Bytes :=
  if i ≤ b.length ∧ n.natAbs < 256 ^ (b.length - i) then
    .ok (b.take i ++ fillBytes (b.length - i) n.natAbs)
  else .error .panicked

def transferCall (address amount : Bytes) : Run Bytes := do
  let decoded := hexDecode (Strings.trimStart address (ascii "0x"))
  let addr := decoded.getD []
  let n := number amount
  if ← pure (decoded.isNone || addr.length != 20 || n.isNone) <||>
      (do pure (decide ((← deref n) < 0))) <||>
      (do pure (decide (2 ^ 256 ≤ (← deref n).natAbs))) then pure []
  else
    let b ← copyAt (List.replicate 68 0) 0 68 [0xA9,0x05,0x9C,0xBB]
    let b ← copyAt b 16 36 addr
    fillFrom b 36 (← deref n)

/-- `verifyEthereumBytes`; the decoder has set every number of the transaction. -/
def verifyEthereumBytes (raw : Bytes) (p : Context) : Run Bytes := do
  refuseIf (pure (decide (raw.length < 2)) <||> do pure ((← index raw 0) != 2))
  let tx ← ofOption (L.rlpDecode (← sliceFrom raw 1))
  let encoded ← ofOption (L.rlpEncode tx)
  refuseIf ((do pure (encoded != (← sliceFrom raw 1))) <||>
    pure (!tx.accessList.isEmpty || tx.toBytes.length != 20 ||
      decimal tx.chainID != ethereumChainID p.chain || decimal tx.chainID != p.chainID ||
      decimal tx.nonce != p.nonce || decimal tx.gas != p.gasLimit ||
      decimal tx.maxFee != p.maxFeePerGas || decimal tx.priority != p.maxPriorityFeePerGas ||
      tx.gas == 0 || tx.maxFee == 0 || tx.maxFee < tx.priority || 2 ^ 256 ≤ tx.value ||
      2 ^ 256 ≤ tx.maxFee || 2 ^ 256 ≤ tx.priority || 2 ^ 64 ≤ tx.gas ||
      maxProducerSafeInteger < tx.nonce))
  let recipient := ascii "0x" ++ hexEncode tx.toBytes
  if p.tokenStandard.isNone then
    refuseIf (pure (p.asset != ascii "ETH" || recipient != p.toAddress ||
      decimal tx.value != p.amountAtomic || !tx.data.isEmpty))
  else
    refuseIf ((do pure ((← deref p.tokenStandard) != ascii "erc20")) <||>
      pure p.tokenContractCanonical.isNone <||>
      (do pure (recipient != (← deref p.tokenContractCanonical))) <||>
      pure (tx.value != 0) <||>
      (do pure (tx.data != (← transferCall p.toAddress p.amountAtomic))))
  pure (decimal (tx.gas * tx.maxFee : Nat))

def verifyEthereumPrepared (raw : Bytes) (prepared : PreparedTransfer) (policy : Context)
    (auth : Object) : Run PreparedVerification := do
  refuseIf (pure (prepared.networkFeeAsset != ascii "ETH" ||
    prepared.feeEvidence != ascii "null" ||
    !nullEqual (auth.get (ascii "tokenStandard")) policy.tokenStandard))
  let budget ← verifyEthereumBytes L raw policy
  let params := subObject auth "requestedChainParams"
  let p := subObject params "ethereum"
  refuseIf (pure (!params.isEmpty && (str p "maxFeePerGas" != policy.maxFeePerGas ||
    str p "maxPriorityFeePerGas" != policy.maxPriorityFeePerGas)))
  pure ⟨L.keccak256 raw,budget⟩

/-- The branch of `verifyTronBytes` for a native transfer. -/
def verifyTronTransfer (tx : TronRaw) (c : TronContract) (typeURL value : Bytes) (p : Context) :
    Run Unit := do
  refuseIf (pure (c.type != tronTransferType ||
    typeURL != ascii "type.googleapis.com/protocol.TransferContract"))
  let v ← ofOption (strictProto L.tronTransfer (·.unknown) value)
  refuseIf (pure (v.ownerAddress != tronAddress L p.fromAddress ||
    v.toAddress != tronAddress L p.toAddress || v.amount ≤ 0 ||
    maxProducerSafeInteger < v.amount || decimal v.amount != p.amountAtomic ||
    tx.feeLimit != 0 || p.feeLimitSun.isSome || p.asset != ascii "TRX"))

/-- The token contract's address in `verifyTronBytes`. -/
def tronTokenAddress (p : Context) : Run Bytes := do
  if p.tokenContractCanonical.isSome then
    let token ← deref p.tokenContractCanonical
    pure (0x41 :: hexBytes (Strings.trimStart token (ascii "0x")))
  else pure []

/-- The branch of `verifyTronBytes` for a token transfer. -/
def verifyTronTrigger (tx : TronRaw) (c : TronContract) (typeURL value : Bytes) (p : Context) :
    Run Unit := do
  let addr := tronAddress L p.toAddress
  let contract ← tronTokenAddress p
  refuseIf ((do
      let standard ← deref p.tokenStandard
      pure (standard != ascii "trc20" && standard != ascii "TRC20")) <||>
    pure (c.type != tronTriggerType ||
      typeURL != ascii "type.googleapis.com/protocol.TriggerSmartContract"))
  let v ← ofOption (strictProto L.tronTrigger (·.unknown) value)
  refuseIf (pure (v.ownerAddress != tronAddress L p.fromAddress ||
      v.contractAddress != contract || addr.length != 21) <||>
    (do
      let recipient ← sliceFrom addr 1
      pure (v.data != (← transferCall (ascii "0x" ++ hexEncode recipient) p.amountAtomic))) <||>
    pure (v.callValue != 0 || v.callTokenValue != 0 || v.tokenID != 0) <||>
    pure p.feeLimitSun.isNone <||>
    (do pure (decimal tx.feeLimit != (← deref p.feeLimitSun))) <||>
    pure (decide (tx.feeLimit ≤ 0)))

def verifyTronBytes (raw : Bytes) (p : Context) (now : Time) : Run Unit := do
  let tx ← ofOption (strictProto L.tronRaw (·.unknown) raw)
  refuseIf (pure (tx.contract.length != 1 || tx.refBlockBytes.length != 2 ||
    tx.refBlockHash.length != 8 || tx.refBlockNum != 0 || !tx.auths.isEmpty ||
    !tx.data.isEmpty || !tx.scripts.isEmpty ||
    !tronTimely tx.timestamp tx.expiration (unixMilli now) || tx.feeLimit < 0 ||
    maxProducerSafeInteger < tx.feeLimit))
  let c ← index tx.contract 0
  refuseIf (pure (!c.unknown.isEmpty || c.permissionID != 0 || !c.provider.isEmpty ||
    !c.contractName.isEmpty || c.parameter.isNone || !c.parameterUnknown.isEmpty))
  let (typeURL,value) ← deref c.parameter
  if p.tokenStandard.isNone then verifyTronTransfer L tx c typeURL value p
  else verifyTronTrigger L tx c typeURL value p

/-- The part of `tronBudget` after its checks. -/
def tronBudgetSum (p : Context) (q : TronFeeQuote) (bandwidth : Int) : Run Bytes := do
  let params := q.chainParameters
  let base := bandwidth * (← deref (number params.transactionFeeSunPerBandwidth))
  let budget ←
    if p.feeLimitSun.isNone && !q.destinationAccountExists then do
      let rate ← deref (number params.createNewAccountBandwidthRate)
      let create ← deref (number params.createAccountFeeSun)
      let system ← deref (number params.createNewAccountFeeInSystemContractSun)
      pure (base * rate + create + system)
    else pure base
  if p.feeLimitSun.isSome then
    let limit ← deref p.feeLimitSun
    if !(← canonicalUint limit) then pure []
    else
      let total := budget + (← deref (number limit))
      pure (if decimal total == q.amountAtomic then decimal total else [])
  else pure (if decimal budget == q.amountAtomic then decimal budget else [])

def tronBudget (raw : Bytes) (p : Context) (q : Option TronFeeQuote) : Run Bytes := do
  if ← pure q.isNone <||> do pure ((← deref q).version != 1) then pure []
  else
    let q ← deref q
    let params := q.chainParameters
    let fees := [params.transactionFeeSunPerBandwidth,params.createAccountFeeSun,
      params.createNewAccountFeeInSystemContractSun,params.createNewAccountBandwidthRate,
      q.amountAtomic]
    if !(← fees.allM canonicalUint) then pure []
    else
      let signed := emptySignedSize + raw.length + varintSize raw.length - 1
      let bandwidth := signed + 64
      if q.signedTransactionBytes != signed || q.bandwidthBytes != bandwidth then pure []
      else tronBudgetSum p q bandwidth

def canonicalTronPolicyToken (p : Context) : Run (Option Bytes) := do
  if isTronChain p.chain then
    if ← pure p.tokenStandard.isSome <&&>
        do pure ((← deref p.tokenStandard) == ascii "TRC20") then pure (some (ascii "trc20"))
    else pure p.tokenStandard
  else pure p.tokenStandard

def verifyTronPrepared (raw : Bytes) (prepared : PreparedTransfer) (policy : Context)
    (auth : Object) (now : Time) : Run PreparedVerification := do
  refuseIf (pure (prepared.networkFeeAsset != ascii "TRX"))
  let quote ← ofOption (unmarshal
    (pointer {} fun _ v old => closedStruct tronFeeQuoteFields old v.raw) none
    prepared.feeEvidence)
  refuseIf (pure quote.isNone <||> do
    pure (!nullEqual (auth.get (ascii "tokenStandard")) (← canonicalTronPolicyToken policy)))
  verifyTronBytes L raw policy now
  let params := subObject auth "requestedChainParams"
  let limit := (subObject params "tron").get (ascii "feeLimitSun")
  refuseIf (pure (!params.isEmpty && limit != some (ascii "null") &&
    !nullEqual limit policy.feeLimitSun))
  let budget ← tronBudget raw policy quote
  pure ⟨L.sha256 raw,budget⟩

def verifyProtocol (protocol : Protocol) (raw : Bytes) (prepared : PreparedTransfer)
    (policy : Context) (auth : Object) (now : Time) : Run PreparedVerification :=
  match protocol with
  | .ethereum => verifyEthereumPrepared L raw prepared policy auth
  | .tron => verifyTronPrepared L raw prepared policy auth now

/-- `VerifyPrepared`. -/
def verifyPrepared (a : Option ApprovedExecution) (prepared : Option PreparedTransfer)
    (policy : Option Context) (digest payloadType algorithm : Bytes) (now : Time) :
    Run Object := do
  refuseIf (pure (a.isNone || prepared.isNone || policy.isNone) <||>
    (do
      let a ← deref a
      pure (a.version != 1 || !validReference a.outgoingID || a.requestID == [])) <||>
    (do
      let prepared ← deref prepared
      pure (prepared.version != 1 || prepared.encoding != ascii "hex")) <||>
    (do pure (!(← canonicalUint (← deref prepared).networkFeeBudgetAtomic))))
  let a ← deref a
  let prepared ← deref prepared
  let policy ← deref policy
  let canonical ← ofOption (L.jcs a.authorization)
  let auth ← parseAuthorization L canonical
  refuseIf (pure (hash L canonical != a.authorizationHash || str auth "requestId" != a.requestID))
  refuseIf (pure (!(repeatedTerms policy prepared).all fun kw => str auth kw.1 == kw.2))
  refuseIf (pure (!nullEqualInt (auth.get (ascii "tokenDecimals")) policy.tokenDecimals ||
      !nullEqual (auth.get (ascii "tokenContractCanonical")) policy.tokenContractCanonical) <||>
    (do
      let budget ← deref (number prepared.networkFeeBudgetAtomic)
      let maximum ← deref (number (str auth "maxNetworkFeeAtomic"))
      pure (decide (maximum < budget))))
  let raw ← ofOption (hexDecode prepared.unsignedTransaction)
  refuseIf (pure (raw.length == 0 || 16384 < raw.length ||
    hexEncode raw != prepared.unsignedTransaction))
  let protocol ← ofOption (protocolForPayload payloadType)
  refuseIf (pure (algorithm != protocol.hashAlgorithm || !protocol.supportsChain policy.chain))
  let verified ← verifyProtocol L protocol raw prepared policy auth now
  refuseIf (pure (verified.budget == [] || verified.budget != prepared.networkFeeBudgetAtomic ||
    verified.digest != digest))
  pure auth

end CoSigner.SigningPolicy.Runtime
