import CoSigner.Lib.Rlp
import CoSigner.SigningPolicy.Verified

/-! Prepared Ethereum transactions: the bytes are determined by the policy and carry the
authorised transfer. -/
namespace CoSigner.SigningPolicy
open Json Contract
variable (L : Libraries)

/-- `rlp.EncodeToBytes` of an `unsignedType2`; a `RawValue` is written as it is. -/
def type2Bytes (tx : UnsignedType2) : Bytes :=
  Rlp.encodeList (Rlp.encodeAll [Rlp.uint tx.chainID,Rlp.uint tx.nonce,Rlp.uint tx.priority,
    Rlp.uint tx.maxFee,Rlp.uint tx.gas,.string tx.toBytes,Rlp.uint tx.value,.string tx.data] ++
    Rlp.encodeList tx.accessList.flatten)

theorem type2Bytes_item {tx : UnsignedType2} (h : tx.accessList = []) :
    type2Bytes tx = Rlp.encode (.list [Rlp.uint tx.chainID,Rlp.uint tx.nonce,Rlp.uint tx.priority,
      Rlp.uint tx.maxFee,Rlp.uint tx.gas,.string tx.toBytes,Rlp.uint tx.value,.string tx.data,
      .list []]) := by
  simp [type2Bytes, h, Rlp.encode, Rlp.encodeAll]

/-- Destination, value and data of the authorised transfer. -/
def CarriesTransfer (auth : Object) (destination : Bytes) (value : Nat) (data : Bytes) : Prop :=
  if isNull auth "tokenStandard" then
    evmText destination = str auth "toAddress" ∧
      number (str auth "amountAtomic") = some (value : Int) ∧ data = []
  else
    evmText destination = str auth "tokenContractCanonical" ∧ value = 0 ∧
      ∃ (recipient : Bytes) (amount : Nat), evmText recipient = str auth "toAddress" ∧
        recipient.length = 20 ∧
        number (str auth "amountAtomic") = some (amount : Int) ∧ amount < 2 ^ 256 ∧
        data = transferABI recipient amount ∧
        data = transferCall (str auth "toAddress") (str auth "amountAtomic") ∧ data.length = 68

/-- The exact bytes of an approved Ethereum transfer. -/
structure EthereumBytes (policy : Context) (prepared : PreparedTransfer) (auth : Object)
    (raw : Bytes) (tx : UnsignedType2) : Prop where
  bytes : raw = 2 :: Rlp.encode (.list [Rlp.uint tx.chainID,Rlp.uint tx.nonce,
    Rlp.uint tx.priority,Rlp.uint tx.maxFee,Rlp.uint tx.gas,.string tx.toBytes,
    Rlp.uint tx.value,.string tx.data,.list []])
  chain : str auth "chain" = policy.chain
  chainID : number (ethereumChainID policy.chain) = some (tx.chainID : Int)
  nonce : number policy.nonce = some (tx.nonce : Int)
  priority : number policy.maxPriorityFeePerGas = some (tx.priority : Int)
  maxFee : number policy.maxFeePerGas = some (tx.maxFee : Int)
  gas : number policy.gasLimit = some (tx.gas : Int)
  destination : tx.toBytes.length = 20
  transfer : CarriesTransfer auth tx.toBytes tx.value tx.data
  budget : prepared.networkFeeBudgetAtomic = decimal (tx.gas * tx.maxFee : Nat)
  affordable : ∃ maximum, number (str auth "maxNetworkFeeAtomic") = some maximum ∧
    (tx.gas * tx.maxFee : Nat) ≤ maximum

/-- What `verifyEthereumBytes` has checked of the decoded transaction. -/
structure CheckedBytes (raw : Bytes) (p : Context) (tx : UnsignedType2) : Prop where
  encoded : L.rlpEncode tx = some (raw.drop 1)
  typed : raw.head? = some 2
  accessList : tx.accessList = []
  destination : tx.toBytes.length = 20
  chainID : decimal tx.chainID = ethereumChainID p.chain
  nonce : decimal tx.nonce = p.nonce
  gas : decimal tx.gas = p.gasLimit
  maxFee : decimal tx.maxFee = p.maxFeePerGas
  priority : decimal tx.priority = p.maxPriorityFeePerGas
  native : p.tokenStandard = none → evmText tx.toBytes = p.toAddress ∧
    decimal tx.value = p.amountAtomic ∧ tx.data = []
  token : ∀ standard, p.tokenStandard = some standard →
    p.tokenContractCanonical = some (evmText tx.toBytes) ∧ tx.value = 0 ∧
      tx.data = transferCall p.toAddress p.amountAtomic

variable {L}

theorem verifyEthereumBytes_checked {raw budget : Bytes} {p : Context}
    (h : verifyEthereumBytes L raw p = some budget) :
    ∃ tx, CheckedBytes L raw p tx ∧ budget = decimal (tx.gas * tx.maxFee : Nat) := by
  simp only [verifyEthereumBytes, Option.bind_eq_bind, Option.bind_eq_some_iff, Option.bind_none,
    Option.ite_none_left_eq_some, Bool.or_eq_true, not_or, bne_iff_ne, ne_eq, not_not,
    Bool.not_eq_true', Bool.not_eq_false, List.isEmpty_iff] at h
  obtain ⟨⟨-,htyped⟩,tx,-,encoded,hencoded,hfields,hkind⟩ := h
  obtain ⟨⟨⟨⟨⟨⟨⟨⟨⟨⟨⟨⟨⟨⟨⟨⟨heq,haccess⟩,hto⟩,hchain⟩,-⟩,hnonce⟩,hgas⟩,hmax⟩,hpriority⟩,-⟩,-⟩,-⟩,-⟩,-⟩,-⟩,
    -⟩,-⟩ := hfields
  refine ⟨tx,⟨heq ▸ hencoded,htyped,haccess,hto,hchain,hnonce,hgas,hmax,hpriority,?_,?_⟩,?_⟩
  · intro hnone
    rw [hnone] at hkind
    simp only [Option.ite_none_left_eq_some, not_or, not_not, Bool.not_eq_false, List.isEmpty_iff]
      at hkind
    obtain ⟨⟨⟨⟨-,hrecipient⟩,hvalue⟩,hdata⟩,-⟩ := hkind
    exact ⟨hrecipient,hvalue,hdata⟩
  · intro standard hsome
    rw [hsome] at hkind
    simp only [Option.ite_none_left_eq_some, not_or, not_not] at hkind
    obtain ⟨⟨⟨⟨-,hcontract⟩,hvalue⟩,hdata⟩,-⟩ := hkind
    exact ⟨hcontract,hvalue,hdata⟩
  · cases hstandard : p.tokenStandard with
    | none =>
      rw [hstandard] at hkind
      simp only [Option.ite_none_left_eq_some] at hkind
      exact (Option.some.inj hkind.2).symm
    | some standard =>
      rw [hstandard] at hkind
      simp only [Option.ite_none_left_eq_some] at hkind
      exact (Option.some.inj hkind.2).symm

theorem CheckedBytes.bytes (hrlp : ∀ tx, L.rlpEncode tx = some (type2Bytes tx)) {raw : Bytes}
    {p : Context} {tx : UnsignedType2} (h : CheckedBytes L raw p tx) : raw = 2 :: type2Bytes tx := by
  have hdrop : type2Bytes tx = raw.drop 1 := Option.some.inj ((hrlp tx).symm.trans h.encoded)
  have htyped := h.typed
  rw [hdrop]
  cases raw with
  | nil => cases htyped
  | cons b t =>
    obtain rfl : b = 2 := Option.some.inj htyped
    rfl

theorem CheckedBytes.unique {raw raw' : Bytes} {p : Context} {tx tx' : UnsignedType2}
    (h : CheckedBytes L raw p tx) (h' : CheckedBytes L raw' p tx') : tx = tx' := by
  have hnat {m n : Nat} {s : Bytes} (hm : decimal m = s) (hn : decimal n = s) : m = n := by
    have hnumber := congrArg number (hm.trans hn.symm)
    rw [number_decimal, number_decimal] at hnumber
    exact_mod_cast Option.some.inj hnumber
  have hcall : tx.toBytes = tx'.toBytes ∧ tx.value = tx'.value ∧ tx.data = tx'.data := by
    cases hstandard : p.tokenStandard with
    | none =>
      obtain ⟨hto,hvalue,hdata⟩ := h.native hstandard
      obtain ⟨hto',hvalue',hdata'⟩ := h'.native hstandard
      exact ⟨evmText_injective (hto.trans hto'.symm),hnat hvalue hvalue',hdata.trans hdata'.symm⟩
    | some standard =>
      obtain ⟨hto,hvalue,hdata⟩ := h.token standard hstandard
      obtain ⟨hto',hvalue',hdata'⟩ := h'.token standard hstandard
      exact ⟨evmText_injective (Option.some.inj (hto.symm.trans hto')),hvalue.trans hvalue'.symm,
        hdata.trans hdata'.symm⟩
  obtain ⟨hto,hvalue,hdata⟩ := hcall
  have hchain := hnat h.chainID h'.chainID
  have hnonce := hnat h.nonce h'.nonce
  have hpriority := hnat h.priority h'.priority
  have hmaxFee := hnat h.maxFee h'.maxFee
  have hgas := hnat h.gas h'.gas
  have haccess := h.accessList.trans h'.accessList.symm
  cases tx
  cases tx'
  simp only [UnsignedType2.mk.injEq]
  exact ⟨hchain,hnonce,hpriority,hmaxFee,hgas,hto,hvalue,hdata,haccess⟩

section Prepared
variable {a : ApprovedExecution} {prepared : PreparedTransfer} {policy : Context}
  {digest payloadType algorithm : Bytes} {now : Time} {auth : Object} {raw : Bytes}

theorem Verified.ethereumTerms
    (h : Verified L a prepared policy digest payloadType algorithm now auth raw .ethereum) :
    evmAddress (str auth "toAddress") = true ∧ TransferAsset auth "ETH" "erc20" := by
  obtain ⟨validateChain,pub,hvalidator,hvalid⟩ := h.validated
  rw [ethereum_chain L h.chain] at hvalidator
  obtain rfl := Option.some.inj hvalidator
  simp only [validateEthereumAuthorization, Bool.and_eq_true] at hvalid
  exact ⟨hvalid.1.1.1.2,validateTransferAsset_asset hvalid.1.2⟩

theorem Verified.checkedBytes
    (h : Verified L a prepared policy digest payloadType algorithm now auth raw .ethereum) :
    nullEqual (auth.get (ascii "tokenStandard")) policy.tokenStandard = true ∧
    digest = L.keccak256 raw ∧
    ∃ tx, CheckedBytes L raw policy tx ∧
      prepared.networkFeeBudgetAtomic = decimal (tx.gas * tx.maxFee : Nat) := by
  have hverified := h.verified
  simp only [Protocol.verifyPrepared, verifyEthereumPrepared, Option.bind_eq_bind,
    Option.bind_eq_some_iff, Option.bind_none, Option.ite_none_left_eq_some, Bool.or_eq_true,
    not_or, Bool.not_eq_true', Bool.not_eq_false, Option.some.injEq, PreparedVerification.mk.injEq]
    at hverified
  obtain ⟨⟨-,hstandard⟩,budget,hbudget,-,hdigest,hprepared⟩ := hverified
  obtain ⟨tx,hchecked,hfee⟩ := verifyEthereumBytes_checked hbudget
  exact ⟨hstandard,hdigest.symm,tx,hchecked,hprepared.symm.trans hfee⟩

theorem CheckedBytes.transfer {tx : UnsignedType2} (hc : CheckedBytes L raw policy tx)
    (h : Verified L a prepared policy digest payloadType algorithm now auth raw .ethereum) :
    CarriesTransfer auth tx.toBytes tx.value tx.data := by
  obtain ⟨hstandard,-⟩ := h.checkedBytes
  obtain ⟨hto,hasset⟩ := h.ethereumTerms
  obtain ⟨-,-,-,htoAddress,hamount⟩ := h.terms
  unfold CarriesTransfer
  cases hpolicy : policy.tokenStandard with
  | none =>
    rw [hpolicy] at hstandard
    obtain ⟨hrecipient,hvalue,hdata⟩ := hc.native hpolicy
    rw [if_pos (nullEqual_none hstandard), htoAddress, hamount, ← hvalue, number_decimal]
    exact ⟨hrecipient,rfl,hdata⟩
  | some standard =>
    rw [hpolicy] at hstandard
    obtain ⟨hcontract,hvalue,hdata⟩ := hc.token standard hpolicy
    have htoken := h.tokenContract
    rw [hcontract] at htoken
    obtain ⟨recipient,hrecipient,hlen⟩ := evmAddress_bytes hto
    have htext : str auth "tokenContractCanonical" = evmText tx.toBytes := by
      rw [(nullEqual_some htoken).2]
      exact clean_valid (Utf8.valid_ascii (evmText_ascii _))
    have hcall := transferCall_eq hlen hasset.amount hasset.fits
    rw [if_neg (by simp [(nullEqual_some hstandard).1])]
    refine ⟨htext.symm,hvalue,recipient,_,hrecipient,hlen,hasset.amount,
      hasset.fits,?_,?_,?_⟩
    · rw [hdata, ← htoAddress, ← hamount, ← hrecipient, hcall]
    · rw [hdata, htoAddress, hamount]
    · rw [hdata, ← htoAddress, ← hamount, ← hrecipient, hcall]
      exact transferABI_length hlen _

theorem Verified.ethereumBytes (hrlp : ∀ tx, L.rlpEncode tx = some (type2Bytes tx))
    (h : Verified L a prepared policy digest payloadType algorithm now auth raw .ethereum) :
    ∃ tx, EthereumBytes policy prepared auth raw tx := by
  obtain ⟨-,-,tx,hchecked,hbudget⟩ := h.checkedBytes
  have hread {n : Nat} {s : Bytes} (hn : decimal n = s) : number s = some (n : Int) :=
    hn ▸ number_decimal n
  refine ⟨tx,?_,h.terms.1,hread hchecked.chainID,hread hchecked.nonce,hread hchecked.priority,
    hread hchecked.maxFee,hread hchecked.gas,hchecked.destination,hchecked.transfer h,hbudget,
    h.budget (hread hbudget.symm)⟩
  rw [← type2Bytes_item hchecked.accessList]
  exact hchecked.bytes hrlp

end Prepared

/-- Ethereum prepared bytes are fully determined. -/
theorem ethereum_prepared_determined (hrlp : ∀ tx, L.rlpEncode tx = some (type2Bytes tx)) :
    (∀ a prepared policy digest payloadType algorithm now auth,
      verifyPrepared L a prepared (some policy) digest payloadType algorithm now = some auth →
      isEthereumChain policy.chain = true →
      ∃ raw tx, hexDecode prepared.unsignedTransaction = some raw ∧
        EthereumBytes policy prepared auth raw tx) ∧
    (∀ a prepared digest payloadType algorithm now auth
        a' prepared' digest' payloadType' algorithm' now' auth' policy,
      verifyPrepared L a prepared (some policy) digest payloadType algorithm now = some auth →
      verifyPrepared L a' prepared' (some policy) digest' payloadType' algorithm' now' = some auth' →
      isEthereumChain policy.chain = true →
      hexDecode prepared.unsignedTransaction = hexDecode prepared'.unsignedTransaction) := by
  constructor
  · intro a prepared policy digest payloadType algorithm now auth h hchain
    obtain ⟨context,raw,protocol,hcontext,hverified⟩ := verifyPrepared_verified h
    obtain rfl := Option.some.inj hcontext
    obtain rfl := hverified.ethereum hchain
    obtain ⟨tx,htx⟩ := hverified.ethereumBytes hrlp
    exact ⟨raw,tx,hverified.bytes,htx⟩
  · intro a prepared digest payloadType algorithm now auth a' prepared' digest' payloadType'
      algorithm' now' auth' policy h h' hchain
    obtain ⟨context,raw,protocol,hcontext,hverified⟩ := verifyPrepared_verified h
    obtain rfl := Option.some.inj hcontext
    obtain rfl := hverified.ethereum hchain
    obtain ⟨context',raw',protocol',hcontext',hverified'⟩ := verifyPrepared_verified h'
    obtain rfl := Option.some.inj hcontext'
    obtain rfl := hverified'.ethereum hchain
    obtain ⟨-,-,tx,hchecked,-⟩ := hverified.checkedBytes
    obtain ⟨-,-,tx',hchecked',-⟩ := hverified'.checkedBytes
    rw [hverified.bytes, hverified'.bytes, hchecked.bytes hrlp, hchecked'.bytes hrlp,
      hchecked.unique hchecked']

/-- The vector `ethereum:mainnet-native`. -/
def mainnetTerms : VectorTerms where
  chain := ascii "ethereum:mainnet"
  profileTemplate := ascii "ethereum-bip44-account"
  accountPath := ascii "m/44'/60'/0'"
  addressEncoding := ascii "evm_hex"
  sender := ascii "0xb6a0f727d8d6f0fde430" ++ ascii "f7328904774898d95183"
  publicKey := ascii "04656c9dd5473505712a900575" ++ ascii "d376993496e8ea6775a7c1b8d3" ++
    ascii "e8811847ae98007b1e7e824b15" ++ ascii "1a7fc26a9e3cebfa3fb7beb6fa" ++
    ascii "46850a680161c5c4a38bddf91d"
  contextHash := ascii "e32419775ed909e5c91af9fb9cd0a736" ++ ascii "3d02e93c5b0e8f069c84e3dec30e3e66"
  recipient := ascii "0x" ++ List.replicate 40 0x32
  asset := ascii "ETH"
  feeAsset := ascii "ETH"
  maximumFee := ascii "1000000000000000"

def mainnetHash : Bytes :=
  ascii "21c6f5721e5e32205f00dd09aa392f01" ++ ascii "5909b766f666ceb1d70e8d21797c18d8"

def mainnetTransaction : UnsignedType2 where
  chainID := 1
  nonce := 3
  priority := 1000000000
  maxFee := 2000000000
  gas := 21000
  toBytes := List.replicate 20 0x22
  value := 1000000

def mainnetUnsigned : Bytes :=
  ascii "02ea0103843b9aca00847735940082520894" ++ List.replicate 40 0x32 ++ ascii "830f424080c0"

def mainnetDigest : Bytes :=
  hexBytes (ascii "19e3d3e992afecbe8178a39fe08403e8" ++ ascii "4f75365fbf045df4727af053fd03df93")

def mainnetLibraries : Libraries :=
  { mainnetTerms.libraries [(mainnetTerms.authorization,hexBytes mainnetHash)]
      [(mainnetTerms.publicKeyBytes.drop 1,
          hexBytes (ascii "9f5c60fa03ca90bee9e6b513b6a0f727" ++
            ascii "d8d6f0fde430f7328904774898d95183")),
        (hexBytes mainnetUnsigned,mainnetDigest)] with
    rlpDecode := fun raw =>
      if raw == type2Bytes mainnetTransaction then some mainnetTransaction else none
    rlpEncode := fun tx => some (type2Bytes tx) }

def mainnetPrepared : PreparedTransfer where
  version := 1
  encoding := ascii "hex"
  unsignedTransaction := mainnetUnsigned
  networkFeeAsset := ascii "ETH"
  networkFeeBudgetAtomic := ascii "42000000000000"
  feeEvidence := ascii "null"

def mainnetPolicy : Context where
  version := 1
  chain := ascii "ethereum:mainnet"
  chainID := ascii "1"
  asset := ascii "ETH"
  amountAtomic := ascii "1000000"
  fromAddress := mainnetTerms.sender
  toAddress := mainnetTerms.recipient
  nonce := ascii "3"
  gasLimit := ascii "21000"
  maxFeePerGas := ascii "2000000000"
  maxPriorityFeePerGas := ascii "1000000000"
  transactionType := 2

theorem mainnet_verified : (verifyPrepared mainnetLibraries (mainnetTerms.approval mainnetHash)
    mainnetPrepared (some mainnetPolicy) mainnetDigest ethereumPayloadType ethereumHashAlgorithm
    0).isSome = true := by
  decide +kernel

theorem ethereum_prepared_determined_mainnet :
    ∃ auth raw tx, verifyPrepared mainnetLibraries (mainnetTerms.approval mainnetHash)
        mainnetPrepared (some mainnetPolicy) mainnetDigest ethereumPayloadType
        ethereumHashAlgorithm 0 = some auth ∧ hexDecode mainnetUnsigned = some raw ∧
      EthereumBytes mainnetPolicy mainnetPrepared auth raw tx := by
  obtain ⟨auth,hauth⟩ := Option.isSome_iff_exists.mp mainnet_verified
  obtain ⟨raw,tx,hraw,htx⟩ :=
    (ethereum_prepared_determined (L := mainnetLibraries) fun _ => rfl).1 _ _ _ _ _ _ _ _ hauth
      (by decide +kernel)
  exact ⟨auth,raw,tx,hauth,hraw,htx⟩

end CoSigner.SigningPolicy
