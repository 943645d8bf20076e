import CoSigner.Contract.Approval
import CoSigner.Errors
import CoSigner.Lib.Strings

/-! Supported transaction-signing protocols: payload types, policy contexts and the wire
types of an approved execution. -/
namespace CoSigner.SigningPolicy
open Json Contract

/-- `maxProducerSafeInteger`. -/
def maxProducerSafeInteger : Int := 2 ^ 53 - 1

def canonicalUint (value : Bytes) : Bool :=
  if value == [0x30] then true
  else
    match value with
    | [] => false
    | b :: t => 0x31 ≤ b.toNat && b.toNat ≤ 0x39 && t.all isDigit

def canonicalPositiveUint (value : Bytes) : Bool := value != [0x30] && canonicalUint value

/-- `big.Int.SetString` in base 10. -/
def number (v : Bytes) : Option Int :=
  match v with
  | 0x2D :: t => if t.isEmpty || !t.all isDigit then none else some (-(digitsValue t))
  | 0x2B :: t => if t.isEmpty || !t.all isDigit then none else some (digitsValue t)
  | t => if t.isEmpty || !t.all isDigit then none else some (digitsValue t)

/-- `big.Int.String`. -/
def decimal (n : Int) : Bytes := intLiteral n

def compareUint (left right : Bytes) : Int :=
  match number left, number right with
  | some l, some r => if l < r then -1 else if r < l then 1 else 0
  | _, _ => 1

/-- `compareUint` of two values is positive. -/
def exceedsUint (left right : Bytes) : Bool :=
  match number left, number right with
  | some l, some r => r < l
  | _, _ => true

/-- `Context`. -/
structure Context where
  amountAtomic : Bytes := []
  asset : Bytes := []
  chain : Bytes := []
  chainID : Bytes := []
  feeLimitSun : Option Bytes := none
  fromAddress : Bytes := []
  gasLimit : Bytes := []
  maxFeePerGas : Bytes := []
  maxPriorityFeePerGas : Bytes := []
  nonce : Bytes := []
  toAddress : Bytes := []
  tokenContractCanonical : Option Bytes := none
  tokenDecimals : Option Int := none
  tokenStandard : Option Bytes := none
  transactionType : Nat := 0
  version : Nat := 0
  deriving DecidableEq, Repr

def ethereumPolicyFields : List String :=
  ["amountAtomic", "asset", "chain", "chainId", "fromAddress", "gasLimit", "maxFeePerGas",
    "maxPriorityFeePerGas", "nonce", "toAddress", "tokenContractCanonical", "tokenDecimals",
    "tokenStandard", "transactionType", "version"]

def tronPolicyFields : List String :=
  ["amountAtomic", "asset", "chain", "feeLimitSun", "fromAddress", "toAddress",
    "tokenContractCanonical", "tokenDecimals", "tokenStandard"]

def policyFieldsForContext (fields : Object) : List String :=
  if fields.has (ascii "version") then ethereumPolicyFields else tronPolicyFields

def contextFields : List (Json.Field Context) :=
  [field "amountAtomic" (·.amountAtomic) (fun c x => { c with amountAtomic := x }) string,
    field "asset" (·.asset) (fun c x => { c with asset := x }) string,
    field "chain" (·.chain) (fun c x => { c with chain := x }) string,
    field "chainId" (·.chainID) (fun c x => { c with chainID := x }) string,
    field "feeLimitSun" (·.feeLimitSun) (fun c x => { c with feeLimitSun := x })
      (pointer [] string),
    field "fromAddress" (·.fromAddress) (fun c x => { c with fromAddress := x }) string,
    field "gasLimit" (·.gasLimit) (fun c x => { c with gasLimit := x }) string,
    field "maxFeePerGas" (·.maxFeePerGas) (fun c x => { c with maxFeePerGas := x }) string,
    field "maxPriorityFeePerGas" (·.maxPriorityFeePerGas)
      (fun c x => { c with maxPriorityFeePerGas := x }) string,
    field "nonce" (·.nonce) (fun c x => { c with nonce := x }) string,
    field "toAddress" (·.toAddress) (fun c x => { c with toAddress := x }) string,
    field "tokenContractCanonical" (·.tokenContractCanonical)
      (fun c x => { c with tokenContractCanonical := x }) (pointer [] string),
    field "tokenDecimals" (·.tokenDecimals) (fun c x => { c with tokenDecimals := x })
      (pointer 0 (int 64)),
    field "tokenStandard" (·.tokenStandard) (fun c x => { c with tokenStandard := x })
      (pointer [] string),
    field "transactionType" (·.transactionType) (fun c x => { c with transactionType := x })
      (uint 32),
    field "version" (·.version) (fun c x => { c with version := x }) (uint 32)]

/-- `Context.UnmarshalJSON`. -/
def Context.decoder : Decoder Context := fun _ v _ => do
  let fields ← unmarshal rawObject none v.raw
  let fields := fields.getD []
  if !closed fields (policyFieldsForContext fields) then none
  unmarshal (struct contextFields) {} v.raw

/-- `Tuple`. -/
structure Tuple where
  algorithm : Bytes
  curve : Bytes
  chain : Bytes
  digestType : Bytes
  hashAlgorithm : Bytes
  payloadType : Bytes
  addressEncoding : Bytes
  deriving DecidableEq, Repr

def ethereumPayloadType : Bytes := ascii "ethereum-transaction"

def ethereumHashAlgorithm : Bytes := ascii "keccak256"

def tronPayloadType : Bytes := ascii "tron-transaction"

def tronHashAlgorithm : Bytes := ascii "sha256"

def ethereumChainID (chain : Bytes) : Bytes :=
  if chain == ascii "ethereum:mainnet" then ascii "1"
  else if chain == ascii "ethereum:sepolia" then ascii "11155111"
  else []

def isEthereumChain (chain : Bytes) : Bool := ethereumChainID chain != []

def isTronChain (chain : Bytes) : Bool :=
  chain == ascii "tron:mainnet" || chain == ascii "tron:nile"

/-- The fixed table of the two supported wire protocols. -/
inductive Protocol where
  | ethereum | tron
  deriving DecidableEq, Repr

def protocolForPayload (payloadType : Bytes) : Option Protocol :=
  if payloadType == ethereumPayloadType then some .ethereum
  else if payloadType == tronPayloadType then some .tron
  else none

namespace Protocol

def hashAlgorithm : Protocol → Bytes
  | .ethereum => ethereumHashAlgorithm
  | .tron => tronHashAlgorithm

def supportsChain : Protocol → Bytes → Bool
  | .ethereum => isEthereumChain
  | .tron => isTronChain

def validTuple : Protocol → Tuple → Bool
  | .ethereum, tuple => isEthereumChain tuple.chain && tuple.addressEncoding == ascii "evm_hex"
  | .tron, tuple => isTronChain tuple.chain &&
      (tuple.addressEncoding == ascii "tron_base58" ||
        tuple.addressEncoding == ascii "base58check" ||
        tuple.addressEncoding == ascii "tron_base58check")

end Protocol

/-- `ValidPayloadHash`. -/
def validPayloadHash (payloadType hashAlgorithm : Bytes) : Bool :=
  match protocolForPayload payloadType with
  | some p => p.hashAlgorithm == hashAlgorithm
  | none => false

def failure (text : String) : Err := { text := ascii text }

/-- `AddressValidationError`. -/
def noncanonicalAddress (field : String) : Err :=
  failure ("payload.policyContext." ++ field ++ ": noncanonical_address")

/-- `canonicalEVMAddress`. -/
def canonicalEVMAddress (value : Bytes) : Bool :=
  value.length == 42 && value.take 2 == ascii "0x" && hexDigits (value.drop 2)

def validateEthereumAddresses (policy : Context) : Except Err Unit :=
  if !canonicalEVMAddress policy.fromAddress then .error (noncanonicalAddress "fromAddress")
  else if !canonicalEVMAddress policy.toAddress then .error (noncanonicalAddress "toAddress")
  else
    match policy.tokenStandard, policy.tokenContractCanonical with
    | some _, some token =>
      if canonicalEVMAddress token then .ok ()
      else .error (noncanonicalAddress "tokenContractCanonical")
    | _, _ => .ok ()

def validateEthereumContext (policy : Context) : Except Err Unit := do
  validateEthereumAddresses policy
  let wantChainID := ethereumChainID policy.chain
  if policy.version != 1 || policy.transactionType != 2 || wantChainID == [] ||
      policy.chainID != wantChainID || !canonicalUint policy.amountAtomic ||
      !canonicalUint policy.nonce || !canonicalPositiveUint policy.gasLimit ||
      !canonicalPositiveUint policy.maxFeePerGas || !canonicalUint policy.maxPriorityFeePerGas ||
      exceedsUint policy.maxPriorityFeePerGas policy.maxFeePerGas then
    .error (failure "SIGN claim Ethereum policy context is invalid")
  else
    match policy.tokenStandard with
    | none =>
      if policy.asset != ascii "ETH" || policy.tokenContractCanonical.isSome ||
          policy.tokenDecimals.isSome then
        .error (failure "SIGN claim Ethereum native asset context is invalid")
      else .ok ()
    | some standard =>
      if standard != ascii "erc20" || policy.tokenContractCanonical.isNone ||
          !policy.tokenDecimals.any (fun n => 0 ≤ n && n ≤ 255) || policy.asset == ascii "ETH" then
        .error (failure "SIGN claim Ethereum token context is invalid")
      else .ok ()

def validateTronContext (policy : Context) : Except Err Unit :=
  if !isTronChain policy.chain then .error (failure "SIGN claim TRON network is unsupported")
  else if policy.version != 0 || policy.transactionType != 0 || policy.chainID != [] ||
      policy.nonce != [] || policy.gasLimit != [] || policy.maxFeePerGas != [] ||
      policy.maxPriorityFeePerGas != [] then
    .error (failure "SIGN claim policy context mismatch")
  else .ok ()

def Protocol.validateContext : Protocol → Context → Except Err Unit
  | .ethereum => validateEthereumContext
  | .tron => validateTronContext

/-- `ValidateTuple`. -/
def validateTuple (tuple : Tuple) : Except Err Unit :=
  let tuple : Tuple :=
    { algorithm := Strings.toLower (Strings.trimSpace tuple.algorithm)
      curve := Strings.toLower (Strings.trimSpace tuple.curve)
      chain := Strings.trimSpace tuple.chain
      digestType := Strings.trimSpace tuple.digestType
      hashAlgorithm := Strings.trimSpace tuple.hashAlgorithm
      payloadType := Strings.trimSpace tuple.payloadType
      addressEncoding := Strings.trimSpace tuple.addressEncoding }
  if tuple.algorithm != ascii "ecdsa" || tuple.curve != ascii "secp256k1" ||
      tuple.digestType != ascii "transaction" then
    .error (failure "unsupported signing tuple")
  else if (protocolForPayload tuple.payloadType).any fun p =>
      tuple.hashAlgorithm == p.hashAlgorithm && p.validTuple tuple then .ok ()
  else .error (failure "unsupported signing tuple")

/-- `ValidateContext`. -/
def validateContext (policy : Option Context) (chain payloadType expectedAddress : Bytes) :
    Except Err Unit :=
  match policy with
  | none => .error (failure "SIGN claim policy context is incomplete")
  | some policy =>
    if policy.asset == [] || policy.amountAtomic == [] || policy.fromAddress == [] ||
        policy.toAddress == [] || policy.chain == [] then
      .error (failure "SIGN claim policy context is incomplete")
    else
      match protocolForPayload payloadType with
      | none => .error (failure "SIGN claim signing payload type is unsupported")
      | some p => do
        p.validateContext policy
        if policy.chain != chain || policy.fromAddress != expectedAddress then
          .error (failure "SIGN claim policy context mismatch")

end CoSigner.SigningPolicy
