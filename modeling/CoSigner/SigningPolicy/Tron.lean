import CoSigner.SigningPolicy.Verified

/-! Prepared TRON transactions: one contract, and it is the authorised transfer. -/
namespace CoSigner.SigningPolicy
open Json Contract
variable (L : Libraries)

/-- A 21-byte address that a canonical text names. -/
def TronNamed (text address : Bytes) : Prop :=
  ∃ payload, address = 0x41 :: payload ∧ payload.length = 20 ∧
    L.base58Decode text = some (payload,0x41) ∧ L.base58Encode payload 0x41 = text

/-- A `TransferContract` of the authorised amount. -/
def CarriesTransferContract (auth : Object) (tx : TronRaw) (c : TronContract) : Prop :=
  ∃ value v, c.type = tronTransferType ∧
    c.parameter = some (ascii "type.googleapis.com/protocol.TransferContract",value) ∧
    L.tronTransfer.marshal v = some value ∧ v.unknown = [] ∧
    TronNamed L (str auth "fromAddress") v.ownerAddress ∧
    TronNamed L (str auth "toAddress") v.toAddress ∧
    number (str auth "amountAtomic") = some v.amount ∧ 0 < v.amount ∧ tx.feeLimit = 0

/-- A `TriggerSmartContract` that calls the authorised token with the authorised transfer. -/
def CarriesTokenCall (policy : Context) (auth : Object) (tx : TronRaw) (c : TronContract) : Prop :=
  ∃ (value : Bytes) (v : TronTrigger) (contract recipient : Bytes) (amount : Nat),
    c.type = tronTriggerType ∧
    c.parameter = some (ascii "type.googleapis.com/protocol.TriggerSmartContract",value) ∧
    L.tronTrigger.marshal v = some value ∧ v.unknown = [] ∧
    TronNamed L (str auth "fromAddress") v.ownerAddress ∧
    v.contractAddress = 0x41 :: contract ∧ contract.length = 20 ∧
    evmText contract = str auth "tokenContractCanonical" ∧
    TronNamed L (str auth "toAddress") (0x41 :: recipient) ∧
    number (str auth "amountAtomic") = some (amount : Int) ∧ amount < 2 ^ 256 ∧
    v.data = transferABI recipient amount ∧ v.data.length = 68 ∧
    v.callValue = 0 ∧ v.callTokenValue = 0 ∧ v.tokenID = 0 ∧
    0 < tx.feeLimit ∧ policy.feeLimitSun = some (decimal tx.feeLimit)

/-- The TRON parameters that an authorization asks for. -/
def tronParams (auth : Object) : Object := subObject (subObject auth "requestedChainParams") "tron"

/-- The exact bytes of an approved TRON transfer. -/
structure TronBytes (policy : Context) (prepared : PreparedTransfer) (auth : Object) (raw : Bytes)
    (tx : TronRaw) (c : TronContract) : Prop where
  encoded : L.tronRaw.marshal tx = some raw
  contract : tx.contract = [c]
  plain : tx.unknown = [] ∧ tx.auths = [] ∧ tx.data = [] ∧ tx.scripts = [] ∧ tx.refBlockNum = 0
  contractPlain : c.unknown = [] ∧ c.parameterUnknown = [] ∧ c.permissionID = 0 ∧
    c.provider = [] ∧ c.contractName = []
  chain : str auth "chain" = policy.chain
  transfer : if isNull auth "tokenStandard" then
    str auth "asset" = ascii "TRX" ∧ CarriesTransferContract L auth tx c
    else CarriesTokenCall L policy auth tx c
  limit : isNull auth "requestedChainParams" = false →
    isNull (tronParams auth) "feeLimitSun" = false →
    str (tronParams auth) "feeLimitSun" = decimal tx.feeLimit
  budget : ∃ quote, parseFeeQuote prepared.feeEvidence = some quote ∧
    tronBudget raw policy quote = prepared.networkFeeBudgetAtomic ∧
    quote.amountAtomic = prepared.networkFeeBudgetAtomic
  affordable : ∃ budget maximum, number prepared.networkFeeBudgetAtomic = some budget ∧
    number (str auth "maxNetworkFeeAtomic") = some maximum ∧ budget ≤ maximum

variable {L}

theorem strictProto_some {μ : Type} {codec : ProtoCodec μ} {unknown : μ → Bytes} {raw : Bytes}
    {m : μ} (h : strictProto codec unknown raw = some m) :
    codec.marshal m = some raw ∧ unknown m = [] := by
  simp only [strictProto, Option.bind_eq_bind, Option.bind_eq_some_iff, Option.bind_none,
    Option.ite_none_left_eq_some, Bool.not_eq_true', Bool.not_eq_false, bne_iff_ne, ne_eq, not_not,
    List.isEmpty_iff] at h
  obtain ⟨n,-,hunknown,b,hb,rfl,hn⟩ := h
  obtain rfl := Option.some.inj hn
  exact ⟨hb,hunknown⟩

theorem canonicalTronAddress_named {text : Bytes} (h : canonicalTronAddress L text = true) :
    TronNamed L text (tronAddress L text) := by
  unfold canonicalTronAddress at h
  split at h
  · rename_i payload version hdecode
    simp only [Bool.and_eq_true, beq_iff_eq] at h
    obtain ⟨⟨rfl,hlen⟩,hencode⟩ := h
    exact ⟨payload,by simp [tronAddress, hdecode, hlen],hlen,hdecode,hencode⟩
  · cases h

theorem hexBytes_decoded {s b : Bytes} (h : hexDecode s = some b) : hexBytes s = b := by
  fun_induction hexDecode s generalizing b with
  | case1 => exact (Option.some.inj h)
  | case2 => cases h
  | case3 x y t ih =>
    simp only [Option.bind_eq_bind, Option.bind_eq_some_iff, Option.some.injEq] at h
    obtain ⟨u,hu,v,hv,r,hr,rfl⟩ := h
    simp only [hexBytes, hu, hv, ih hr]

section Prepared
variable {a : ApprovedExecution} {prepared : PreparedTransfer} {policy : Context}
  {digest payloadType algorithm : Bytes} {now : Time} {auth : Object} {raw : Bytes}

/-- What a TRON authorization gives. -/
structure TronTerms (L : Libraries) (auth : Object) : Prop where
  sender : canonicalTronAddress L (str auth "fromAddress") = true
  recipient : canonicalTronAddress L (str auth "toAddress") = true
  asset : TransferAsset auth "TRX" "trc20"
  params : isNull auth "requestedChainParams" = false →
    closed (subObject auth "requestedChainParams") ["tron"] = true

theorem Verified.tronTerms
    (h : Verified L a prepared policy digest payloadType algorithm now auth raw .tron) :
    TronTerms L auth := by
  obtain ⟨validateChain,pub,hvalidator,hvalid⟩ := h.validated
  rw [tron_chain L h.chain] at hvalidator
  obtain rfl := Option.some.inj hvalidator
  simp only [validateTronAuthorization, Bool.and_eq_true, Bool.or_eq_true] at hvalid
  obtain ⟨⟨⟨⟨⟨-,hto⟩,hfrom⟩,hasset⟩,-⟩,hparams⟩ := hvalid
  refine ⟨hfrom,hto,validateTransferAsset_asset hasset,fun hnull => ?_⟩
  rw [hnull] at hparams
  rcases hparams with hno | ⟨⟨hclosed,-⟩,-⟩
  · cases hno
  · exact hclosed

/-- What `verifyTronBytes` has checked around the contract. -/
structure CheckedTron (L : Libraries) (raw : Bytes) (p : Context) (tx : TronRaw)
    (c : TronContract) : Prop where
  encoded : L.tronRaw.marshal tx = some raw
  contract : tx.contract = [c]
  plain : tx.unknown = [] ∧ tx.auths = [] ∧ tx.data = [] ∧ tx.scripts = [] ∧ tx.refBlockNum = 0
  contractPlain : c.unknown = [] ∧ c.parameterUnknown = [] ∧ c.permissionID = 0 ∧
    c.provider = [] ∧ c.contractName = []
  native : p.tokenStandard = none → ∃ typeURL value, c.parameter = some (typeURL,value) ∧
    verifyTronTransfer L tx c typeURL value p = some ()
  token : ∀ standard, p.tokenStandard = some standard → ∃ typeURL value,
    c.parameter = some (typeURL,value) ∧
    verifyTronTrigger L tx c typeURL value p standard = some ()

theorem verifyTronBytes_checked {p : Context} (h : verifyTronBytes L raw p now = some ()) :
    ∃ tx c, CheckedTron L raw p tx c := by
  simp only [verifyTronBytes, Option.bind_eq_bind, Option.bind_eq_some_iff, Option.bind_none,
    Option.ite_none_left_eq_some, Bool.or_eq_true, not_or, bne_iff_ne, ne_eq, not_not,
    Bool.not_eq_true', Bool.not_eq_false, List.isEmpty_iff] at h
  obtain ⟨tx,htx,⟨⟨⟨⟨⟨⟨⟨⟨-,-⟩,hnum⟩,hauths⟩,hdata⟩,hscripts⟩,-⟩,-⟩,-⟩,hcontract⟩ := h
  obtain ⟨hencoded,hunknown⟩ := strictProto_some htx
  split at hcontract
  · rename_i c hc
    simp only [Option.ite_none_left_eq_some, not_or, not_not, Bool.not_eq_false,
      List.isEmpty_iff, Option.bind_eq_some_iff] at hcontract
    obtain ⟨⟨⟨⟨⟨hcu,hperm⟩,hprov⟩,hname⟩,hpu⟩,⟨typeURL,value⟩,hparam,hkind⟩ := hcontract
    refine ⟨tx,c,hencoded,hc,⟨hunknown,hauths,hdata,hscripts,hnum⟩,⟨hcu,hpu,hperm,hprov,hname⟩,
      fun hnone => ⟨typeURL,value,hparam,?_⟩,fun standard hsome => ⟨typeURL,value,hparam,?_⟩⟩
    · rwa [hnone] at hkind
    · rwa [hsome] at hkind
  · cases hcontract

theorem CheckedTron.transfer {tx : TronRaw} {c : TronContract} (hc : CheckedTron L raw policy tx c)
    (h : Verified L a prepared policy digest payloadType algorithm now auth raw .tron)
    (hnative : policy.tokenStandard = none) :
    CarriesTransferContract L auth tx c ∧ policy.feeLimitSun = none := by
  obtain ⟨typeURL,value,hparam,hcheck⟩ := hc.native hnative
  obtain ⟨-,-,hfrom,hto,hamount⟩ := h.terms
  have hterms := h.tronTerms
  simp only [verifyTronTransfer, Option.bind_eq_bind, Option.bind_eq_some_iff, Option.bind_none,
    Option.ite_none_left_eq_some, Bool.or_eq_true, not_or, bne_iff_ne, ne_eq, not_not,
    decide_eq_true_eq, Int.not_le, Bool.not_eq_true, Option.isSome_eq_false_iff,
    Option.isNone_iff_eq_none] at hcheck
  obtain ⟨⟨htype,rfl⟩,v,hv,⟨⟨⟨⟨⟨⟨⟨howner,hrecipient⟩,hpos⟩,-⟩,hvalue⟩,hfee⟩,hlimit⟩,-⟩,-⟩ := hcheck
  obtain ⟨hmarshal,hunknown⟩ := strictProto_some hv
  refine ⟨⟨value,v,htype,hparam,hmarshal,hunknown,?_,?_,?_,hpos,hfee⟩,hlimit⟩
  · rw [howner, ← hfrom]
    exact canonicalTronAddress_named hterms.sender
  · rw [hrecipient, ← hto]
    exact canonicalTronAddress_named hterms.recipient
  · rw [hamount, ← hvalue, number_decimal]

theorem Verified.tokenName {protocol : Protocol}
    (h : Verified L a prepared policy digest payloadType algorithm now auth raw protocol)
    {contract : Bytes} (htext : evmText contract = str auth "tokenContractCanonical") :
    policy.tokenContractCanonical = some (evmText contract) := by
  have htoken := h.tokenContract
  cases hpolicy : policy.tokenContractCanonical with
  | none =>
    rw [hpolicy] at htoken
    rw [isNull_str (nullEqual_none htoken)] at htext
    cases htext
  | some s =>
    rw [hpolicy] at htoken
    have hclean : evmText contract = clean s := htext.trans (nullEqual_some htoken).2
    have hsame : clean s = s := clean_ascii (hclean ▸ evmText_ascii contract)
    rw [hclean, hsame]

theorem CheckedTron.tokenCall {tx : TronRaw} {c : TronContract} (hc : CheckedTron L raw policy tx c)
    (h : Verified L a prepared policy digest payloadType algorithm now auth raw .tron)
    {standard : Bytes} (htoken : policy.tokenStandard = some standard)
    (hstandard : isNull auth "tokenStandard" = false) : CarriesTokenCall L policy auth tx c := by
  obtain ⟨typeURL,value,hparam,hcheck⟩ := hc.token standard htoken
  obtain ⟨-,-,hfrom,hto,hamount⟩ := h.terms
  have hterms := h.tronTerms
  simp only [verifyTronTrigger, Option.bind_eq_bind, Option.bind_eq_some_iff, Option.bind_none,
    Option.ite_none_left_eq_some, Bool.or_eq_true, not_or, bne_iff_ne, ne_eq, not_not,
    decide_eq_true_eq, Int.not_le] at hcheck
  obtain ⟨⟨⟨-,htype⟩,rfl⟩,v,hv,⟨⟨⟨⟨⟨⟨⟨⟨howner,hcontract⟩,-⟩,hdata⟩,hcall⟩,htokenValue⟩,hid⟩,hlimit⟩,
    hpos⟩,-⟩ := hcheck
  obtain ⟨hmarshal,hunknown⟩ := strictProto_some hv
  obtain ⟨contract,htext,hlen⟩ := evmAddress_bytes (hterms.asset.token hstandard).2
  obtain ⟨recipient,haddress,hrecipient,hdecode,hencode⟩ :=
    canonicalTronAddress_named hterms.recipient
  have hname := h.tokenName htext
  have habi : v.data = transferABI recipient (digitsValue (str auth "amountAtomic")) := by
    rw [hdata, ← hto, haddress, ← hamount]
    exact transferCall_eq hrecipient hterms.asset.amount hterms.asset.fits
  refine ⟨value,v,contract,recipient,_,htype,hparam,hmarshal,hunknown,?_,?_,hlen,htext,
    ⟨recipient,rfl,hrecipient,hdecode,hencode⟩,hterms.asset.amount,hterms.asset.fits,habi,?_,
    hcall,htokenValue,hid,hpos,hlimit⟩
  · rw [howner, ← hfrom]
    exact canonicalTronAddress_named hterms.sender
  · rw [hcontract, tronTokenAddress, hname]
    simp only [trimStart_evmText, hexBytes_decoded (hexDecode_hexEncode contract)]
  · rw [habi]
    exact transferABI_length hrecipient _

theorem tronBudget_quoted {raw : Bytes} {p : Context} {q : TronFeeQuote}
    (h : tronBudget raw p q ≠ []) : q.amountAtomic = tronBudget raw p q ∧
      ∃ n, number (tronBudget raw p q) = some n := by
  unfold tronBudget at h ⊢
  simp only at h ⊢
  split at h
  · exact absurd rfl h
  · rename_i hchecks
    rw [if_neg hchecks]
    split at h
    · rename_i budget hbudget
      split at h
      · rename_i heq
        rw [if_pos heq]
        exact ⟨(eq_of_beq heq).symm,budget,number_decimal budget⟩
      · exact absurd rfl h
    · exact absurd rfl h

theorem Verified.checkedTron
    (h : Verified L a prepared policy digest payloadType algorithm now auth raw .tron) :
    digest = L.sha256 raw ∧
    nullEqual (auth.get (ascii "tokenStandard")) (canonicalTronPolicyToken policy) = true ∧
    (subObject auth "requestedChainParams" ≠ [] →
      (tronParams auth).get (ascii "feeLimitSun") ≠ some (ascii "null") →
      nullEqual ((tronParams auth).get (ascii "feeLimitSun")) policy.feeLimitSun = true) ∧
    (∃ quote, parseFeeQuote prepared.feeEvidence = some quote ∧
      tronBudget raw policy quote = prepared.networkFeeBudgetAtomic) ∧
    ∃ tx c, CheckedTron L raw policy tx c := by
  have hverified := h.verified
  simp only [Protocol.verifyPrepared, verifyTronPrepared, Option.bind_eq_bind,
    Option.bind_eq_some_iff, Option.bind_none, Option.ite_none_left_eq_some,
    Bool.not_eq_true', Bool.not_eq_false, Option.some.injEq, PreparedVerification.mk.injEq]
    at hverified
  obtain ⟨-,quote,hquote,hstandard,⟨⟩,hbytes,hlimit,hdigest,hbudget⟩ := hverified
  refine ⟨hdigest.symm,hstandard,fun hparams => ?_,⟨quote,hquote,hbudget⟩,
    verifyTronBytes_checked hbytes⟩
  simpa [hparams, tronParams] using hlimit

theorem CheckedTron.carries {tx : TronRaw} {c : TronContract} (hc : CheckedTron L raw policy tx c)
    (h : Verified L a prepared policy digest payloadType algorithm now auth raw .tron) :
    isNull auth "tokenStandard" = true ∧ policy.feeLimitSun = none ∧
        CarriesTransferContract L auth tx c ∨
      isNull auth "tokenStandard" = false ∧ CarriesTokenCall L policy auth tx c := by
  obtain ⟨-,hstandard,-⟩ := h.checkedTron
  cases hpolicy : policy.tokenStandard with
  | none =>
    have hnone : canonicalTronPolicyToken policy = none := by
      simp [canonicalTronPolicyToken, hpolicy]
    rw [hnone] at hstandard
    obtain ⟨htransfer,hlimit⟩ := hc.transfer h hpolicy
    exact .inl ⟨nullEqual_none hstandard,hlimit,htransfer⟩
  | some standard =>
    obtain ⟨s,hs⟩ : ∃ s, canonicalTronPolicyToken policy = some s := by
      unfold canonicalTronPolicyToken
      split
      · exact ⟨_,rfl⟩
      · exact ⟨_,hpolicy⟩
    rw [hs] at hstandard
    have hnull := (nullEqual_some hstandard).1
    exact .inr ⟨hnull,hc.tokenCall h hpolicy hnull⟩

theorem CheckedTron.limit {tx : TronRaw} {c : TronContract} (hc : CheckedTron L raw policy tx c)
    (h : Verified L a prepared policy digest payloadType algorithm now auth raw .tron)
    (hparams : isNull auth "requestedChainParams" = false)
    (hgiven : isNull (tronParams auth) "feeLimitSun" = false) :
    str (tronParams auth) "feeLimitSun" = decimal tx.feeLimit := by
  obtain ⟨-,-,hlimit,-⟩ := h.checkedTron
  have hclosed := h.tronTerms.params hparams
  have hsome : subObject auth "requestedChainParams" ≠ [] := by
    intro hnil
    rw [hnil] at hclosed
    cases hclosed
  have hequal := hlimit hsome (by simpa [isNull] using hgiven)
  rcases hc.carries h with ⟨-,hnone,-⟩ | ⟨-,_,_,_,_,_,-,-,-,-,-,-,-,-,-,-,-,-,-,-,-,-,-,hpolicy⟩
  · rw [hnone] at hequal
    rw [nullEqual_none hequal] at hgiven
    cases hgiven
  · rw [hpolicy] at hequal
    rw [(nullEqual_some hequal).2]
    exact clean_valid (Utf8.valid_ascii (decimal_ascii _))

theorem Verified.tronBytes
    (h : Verified L a prepared policy digest payloadType algorithm now auth raw .tron) :
    ∃ tx c, TronBytes L policy prepared auth raw tx c := by
  obtain ⟨-,-,-,⟨quote,hquote,hbudget⟩,tx,c,hc⟩ := h.checkedTron
  obtain ⟨hquoted,n,hn⟩ := tronBudget_quoted (hbudget ▸ h.budgeted)
  rw [hbudget] at hquoted hn
  obtain ⟨maximum,hmaximum,hle⟩ := h.budget hn
  refine ⟨tx,c,hc.encoded,hc.contract,hc.plain,hc.contractPlain,h.terms.1,?_,hc.limit h,
    ⟨quote,hquote,hbudget,hquoted⟩,n,maximum,hn,hmaximum,hle⟩
  rcases hc.carries h with ⟨hnull,-,htransfer⟩ | ⟨hnull,htoken⟩
  · rw [if_pos hnull]
    exact ⟨h.tronTerms.asset.native hnull,htransfer⟩
  · rw [if_neg (by simp [hnull])]
    exact htoken

end Prepared

/-- TRON prepared bytes are exactly the approved transfer. -/
theorem tron_prepared_exact {a : ApprovedExecution} {prepared : PreparedTransfer}
    {policy : Context} {digest payloadType algorithm : Bytes} {now : Time} {auth : Object}
    (h : verifyPrepared L a prepared (some policy) digest payloadType algorithm now = some auth)
    (hchain : isTronChain policy.chain = true) :
    ∃ raw tx c, hexDecode prepared.unsignedTransaction = some raw ∧
      TronBytes L policy prepared auth raw tx c := by
  obtain ⟨context,raw,protocol,hcontext,hverified⟩ := verifyPrepared_verified h
  obtain rfl := Option.some.inj hcontext
  obtain rfl := hverified.tron hchain
  obtain ⟨tx,c,htx⟩ := hverified.tronBytes
  exact ⟨raw,tx,c,hverified.bytes,htx⟩

/-- The vector `tron:mainnet-token`. -/
def tokenTerms : VectorTerms where
  chain := ascii "tron:mainnet"
  profileTemplate := ascii "tron-bip44-account"
  accountPath := ascii "m/44'/195'/0'"
  addressEncoding := ascii "tron_base58"
  sender := ascii "TL6V2Nbszm3XqHJK7zf1Gy2qPzPiZExwYh"
  publicKey := ascii "047c067d9216d7bdc7a07cf5e4" ++ ascii "01603aaf9c3252153969988ec8" ++
    ascii "44a9e2a0f7195d37ea2cab7272" ++ ascii "c2afc0dd120953d32fcd672e7a" ++
    ascii "8345f82051677ce46495d7361f"
  contextHash := ascii "2907ebc9fde6e31046981f21610f1610" ++ ascii "c1210d1d812c26850bfba60f337527f1"
  recipient := ascii "TD5gsCwxykWsLN9aPrq2TAfNjByuZKYp4E"
  asset := ascii "SYNTHETIC_USD"
  feeAsset := ascii "TRX"
  maximumFee := ascii "100000000"
  tokenStandard := ascii "\"trc20\""
  tokenContract := VectorTerms.plain (ascii "0x" ++ List.replicate 40 0x33)
  tokenDecimals := ascii "6"
  chainParams := ascii "\x7b\"tron\":\x7b\"feeLimitSun\":null\x7d\x7d"

def tokenHash : Bytes :=
  ascii "90bf7cf5358be407a2b63d90d7ba8bff" ++ ascii "65a71e73a12e354333b6246fae0329d3"

def tokenSender : Bytes := hexBytes (ascii "6f118b6bc0f375e1d66d874a5f7e71c8be721667")

def tokenTrigger : TronTrigger where
  ownerAddress := 0x41 :: tokenSender
  contractAddress := 0x41 :: List.replicate 20 0x33
  data := transferABI (List.replicate 20 0x22) 1000000

def tokenTriggerBytes : Bytes :=
  [0x0A,0x15] ++ tokenTrigger.ownerAddress ++ [0x12,0x15] ++ tokenTrigger.contractAddress ++
    [0x22,0x44] ++ tokenTrigger.data

def tokenTriggerType : Bytes := ascii "type.googleapis.com/" ++ ascii "protocol.TriggerSmartContract"

def tokenRaw : TronRaw where
  refBlockBytes := [0x12,0x34]
  refBlockHash := [0x11,0x22,0x33,0x44,0x55,0x66,0x77,0x88]
  expiration := 1792490340000
  contract := [{ type := tronTriggerType, parameter := some (tokenTriggerType,tokenTriggerBytes) }]
  timestamp := 1792404000000
  feeLimit := 30000000

def tokenRawBytes : Bytes :=
  hexBytes (ascii "0a0212342208112233445566778840a0fdffc59534") ++
    hexBytes (ascii "5aae01081f12a9010a31") ++ tokenTriggerType ++ [0x12,0x74] ++
    tokenTriggerBytes ++ hexBytes (ascii "70809aea9c953490018087a70e")

def tokenDigest : Bytes :=
  hexBytes (ascii "3ebc312271e2c16e8f9a67c1c4261633" ++ ascii "cae44909aae27e97adda1442b49406ec")

def tokenLibraries : Libraries :=
  { tokenTerms.libraries [(tokenTerms.authorization,hexBytes tokenHash),(tokenRawBytes,tokenDigest)]
      [(tokenTerms.publicKeyBytes.drop 1,
        hexBytes (ascii "6ee5140f1ced35a51c851389") ++ tokenSender)] with
    base58Decode := fun text =>
      if text == tokenTerms.sender then some (tokenSender,0x41)
      else if text == tokenTerms.recipient then some (List.replicate 20 0x22,0x41)
      else none
    base58Encode := fun payload _ =>
      if payload == tokenSender then tokenTerms.sender else tokenTerms.recipient
    tronRaw := ⟨fun raw => if raw == tokenRawBytes then some tokenRaw else none,
      fun tx => if tx = tokenRaw then some tokenRawBytes else none⟩
    tronTrigger := ⟨fun raw => if raw == tokenTriggerBytes then some tokenTrigger else none,
      fun v => if v = tokenTrigger then some tokenTriggerBytes else none⟩ }

/-- The quote of the vector. -/
def tokenEvidence : Bytes :=
  VectorTerms.braces [VectorTerms.entry "version" (ascii "1"),
    VectorTerms.entry "destinationAccountExists" (ascii "true"),
    VectorTerms.entry "chainParameters" (VectorTerms.braces [
      VectorTerms.entry "transactionFeeSunPerBandwidth" (ascii "\"1000\""),
      VectorTerms.entry "createAccountFeeSun" (ascii "\"100000\""),
      VectorTerms.entry "createNewAccountFeeInSystemContractSun" (ascii "\"1000000\""),
      VectorTerms.entry "createNewAccountBandwidthRate" (ascii "\"1\"")]),
    VectorTerms.entry "amountAtomic" (ascii "\"30345000\""),
    VectorTerms.entry "signedTransactionBytes" (ascii "281"),
    VectorTerms.entry "bandwidthBytes" (ascii "345")]

def tokenPrepared : PreparedTransfer where
  version := 1
  encoding := ascii "hex"
  unsignedTransaction := hexEncode tokenRawBytes
  networkFeeAsset := ascii "TRX"
  networkFeeBudgetAtomic := ascii "30345000"
  feeEvidence := tokenEvidence

def tokenPolicy : Context where
  chain := ascii "tron:mainnet"
  asset := ascii "SYNTHETIC_USD"
  amountAtomic := ascii "1000000"
  fromAddress := tokenTerms.sender
  toAddress := tokenTerms.recipient
  feeLimitSun := some (ascii "30000000")
  tokenStandard := some (ascii "TRC20")
  tokenContractCanonical := some (ascii "0x" ++ List.replicate 40 0x33)
  tokenDecimals := some 6

theorem token_verified : (verifyPrepared tokenLibraries (tokenTerms.approval tokenHash)
    tokenPrepared (some tokenPolicy) tokenDigest tronPayloadType tronHashAlgorithm
    (Time.unixEpoch + 1792404000000 * Time.millisecond)).isSome = true := by
  decide +kernel

theorem tron_prepared_exact_token :
    ∃ auth, verifyPrepared tokenLibraries (tokenTerms.approval tokenHash) tokenPrepared
        (some tokenPolicy) tokenDigest tronPayloadType tronHashAlgorithm
        (Time.unixEpoch + 1792404000000 * Time.millisecond) = some auth ∧
      ∃ raw tx c, hexDecode tokenPrepared.unsignedTransaction = some raw ∧
        TronBytes tokenLibraries tokenPolicy tokenPrepared auth raw tx c := by
  obtain ⟨auth,hauth⟩ := Option.isSome_iff_exists.mp token_verified
  exact ⟨auth,hauth,tron_prepared_exact hauth (by decide +kernel)⟩

end CoSigner.SigningPolicy
