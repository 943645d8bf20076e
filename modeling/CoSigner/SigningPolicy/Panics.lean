import CoSigner.SigningPolicy.Ethereum
import CoSigner.SigningPolicy.Runtime

/-! The verification of a prepared transfer runs as the total model says, hence without a
panic: each pointer, number and index is used only after the check that makes it valid. -/
namespace CoSigner.SigningPolicy.Runtime
open Json Contract Run
variable (L : Libraries)

/-- What the libraries return has the size that they document. -/
structure Sizes : Prop where
  digest : ∀ raw, (L.keccak256 raw).length = 32
  key : ∀ raw pub, L.parsePubKey raw = some pub → pub.length = 65

theorem integer_eq (v : Object) (k : String) : integer v k = .ok (Contract.integer v k) := by
  unfold integer Contract.integer
  cases hv : v.get (ascii k) with
  | none => rfl
  | some raw =>
    cases raw with
    | nil => rfl
    | cons b t =>
      by_cases hlow : b.toNat < 0x30
      · simp [isDigit, hlow, show ¬0x30 ≤ b.toNat by omega]
      · by_cases hhigh : 0x39 < b.toNat
        · simp [isDigit, hlow, hhigh, show ¬b.toNat ≤ 0x39 by omega]
        · simp [isDigit, hlow, hhigh, show 0x30 ≤ b.toNat by omega, show b.toNat ≤ 0x39 by omega]

variable {L}

theorem publicKeyAddressBytes_eq (hL : Sizes L) {publicKey : Bytes} (h : publicKey.length = 65) :
    publicKeyAddressBytes L publicKey = .ok (Contract.publicKeyAddressBytes L publicKey) := by
  have hsize := hL.digest (publicKey.drop 1)
  rw [publicKeyAddressBytes, sliceFrom_of (by omega), ok_bind, sliceFrom_of (by omega)]
  rfl

theorem validateTransferAsset_eq (v : Object) (native standard : String) :
    validateTransferAsset v native standard =
      passes (Contract.validateTransferAsset v native standard) := by
  let token := if isNull v "tokenStandard" then
      isNull v "tokenContractCanonical" && isNull v "tokenDecimals" &&
        str v "asset" == ascii native
    else
      str v "tokenStandard" == ascii standard &&
        evmAddress (str v "tokenContractCanonical") &&
        0 ≤ Contract.integer v "tokenDecimals" && Contract.integer v "tokenDecimals" ≤ 255
  have htoken : (if isNull v "tokenStandard" then
      refuseIf (pure (!isNull v "tokenContractCanonical" || !isNull v "tokenDecimals" ||
        str v "asset" != ascii native))
      else refuseIf (pure (str v "tokenStandard" != ascii standard ||
          !evmAddress (str v "tokenContractCanonical")) <||>
        (do pure (decide ((← integer v "tokenDecimals") < 0))) <||>
        (do pure (decide (255 < (← integer v "tokenDecimals")))))) = passes token := by
    by_cases hnull : isNull v "tokenStandard" = true
    · simp only [if_pos hnull, token]
      exact refuseIf_passes rfl (by simp [bne])
    · simp only [if_neg hnull, token, integer_eq]
      refine refuseIf_passes (orM_ok rfl fun _ => orM_ok rfl fun _ => rfl) ?_
      simp [bne, Bool.and_assoc, ← decide_not]
  have hchecks : Contract.validateTransferAsset v native standard =
      ((uintPattern (str v "amountAtomic") && str v "amountAtomic" != ascii "0" &&
        uintPattern (str v "maxNetworkFeeAtomic") && bounded (str v "asset") 128 &&
        str v "networkFeeAsset" == ascii native) &&
      (decide (digitsValue (str v "amountAtomic") < 2 ^ 256) && token)) := by
    simp only [Contract.validateTransferAsset, Bool.and_assoc, token]
  rw [hchecks]
  refine passes_seq (refuseIf_passes rfl (by simp [bne])) fun hfirst =>
    passes_seq (refuseIf_passes (b := decide (2 ^ 256 ≤ digitsValue (str v "amountAtomic"))) ?_ ?_)
      fun _ => htoken
  · simp only [Bool.and_eq_true] at hfirst
    rw [deref_of (uintPattern_number hfirst.1.1.1.1)]
    rfl
  · simp [← decide_not]

theorem validateEthereumAuthorization_eq (hL : Sizes L) (v : Object) {publicKey : Bytes}
    (h : publicKey.length = 65) : validateEthereumAuthorization L v publicKey =
      passes (Contract.validateEthereumAuthorization L v publicKey) := by
  unfold validateEthereumAuthorization Contract.validateEthereumAuthorization
  rw [publicKeyAddressBytes_eq hL h, ok_bind, Bool.and_assoc (_ && _ && _)]
  refine passes_seq (refuseIf_passes rfl (by simp [bne])) fun _ =>
    passes_seq (validateTransferAsset_eq v _ _) fun _ => ?_
  refine passes_unless fun _ => passes_seq (refuseIf_passes rfl (by simp)) fun hpattern =>
    refuseIf_passes
      (b := decide (digitsValue (str (subObject (subObject v "requestedChainParams") "ethereum")
        "maxFeePerGas") < digitsValue (str (subObject (subObject v "requestedChainParams")
          "ethereum") "maxPriorityFeePerGas"))) ?_ (by simp [← decide_not])
  simp only [Bool.and_eq_true] at hpattern
  rw [deref_of (uintPattern_number hpattern.1.2), deref_of (uintPattern_number hpattern.2)]
  simp

theorem validateTronAuthorization_eq (hL : Sizes L) (v : Object) {publicKey : Bytes}
    (h : publicKey.length = 65) : validateTronAuthorization L v publicKey =
      passes (Contract.validateTronAuthorization L v publicKey) := by
  unfold validateTronAuthorization Contract.validateTronAuthorization
  rw [publicKeyAddressBytes_eq hL h, ok_bind]
  simp only [Bool.and_assoc]
  rw [← Bool.and_assoc, ← Bool.and_assoc, ← Bool.and_assoc]
  refine passes_seq (refuseIf_passes rfl (by simp [bne])) fun _ =>
    passes_seq (validateTransferAsset_eq v _ _) fun hasset => ?_
  refine passes_when (fun _ => refuseIf_passes
      (b := decide (9007199254740991 < digitsValue (str v "amountAtomic"))) ?_
      (by simp [← decide_not]))
    (passes_unless fun _ => refuseIf_passes rfl (by simp [Bool.and_assoc]))
  rw [deref_of (validateTransferAsset_asset hasset).amount, ok_bind, pure_eq]
  exact congrArg _ (decide_eq_decide.mpr (by omega))

theorem authorizationValidator_rel (hL : Sizes L) (chain : Bytes) :
    Option.Rel (fun f g => ∀ v publicKey, publicKey.length = 65 → f v publicKey =
      passes (g v publicKey)) (authorizationValidator L chain)
        (Contract.authorizationValidator L chain) := by
  unfold authorizationValidator Contract.authorizationValidator
  split
  · exact .some fun v publicKey h => validateEthereumAuthorization_eq hL v h
  · split
    · exact .some fun v publicKey h => validateTronAuthorization_eq hL v h
    · exact .none

theorem checkDerivationMember_eq (d : Object) (k : String) :
    checkDerivationMember d k = passes (validDerivationMember d k) := by
  unfold checkDerivationMember validDerivationMember
  split
  · rw [integer_eq, ok_bind]
    exact refuseIf_passes rfl (by simp [← decide_not])
  · exact refuseIf_passes rfl (by simp)

theorem coreContext_eq (d : Object) (chain : Bytes) :
    coreContext d chain = .ok (Contract.coreContext d chain) := by
  simp only [coreContext, integer_eq]
  rfl

theorem parseAuthorization_eq (hL : Sizes L) (raw : Bytes) :
    parseAuthorization L raw = ofOption (Contract.parseAuthorization L raw) := by
  unfold parseAuthorization Contract.parseAuthorization
  simp only [Option.bind_eq_bind, Option.bind_none]
  refine ofOption_bind fun v _ => refuseIf_bind ?_ fun _ => refuseIf_bind rfl fun _ =>
    refuseIf_bind rfl fun _ => refuseIf_bind rfl fun _ => refuseIf_bind rfl fun _ => ?_
  · exact orM_ok rfl fun _ => by rw [integer_eq]; rfl
  refine ofOption_bind_rel (authorizationValidator_rel hL _) fun validateChain valid hvalid => ?_
  rw [none_or]
  refine refuseIf_bind rfl fun _ => passes_bind (forM_passes fun k _ =>
    checkDerivationMember_eq _ k) fun _ => refuseIf_bind rfl fun _ => ?_
  rw [coreContext_eq, ok_bind]
  refine ofOption_bind fun got _ => refuseIf_bind rfl fun _ => ofOption_bind fun pubRaw _ =>
    refuseIf_bind (orM_ok rfl fun hlength => index_zero_bne ?_ 4) fun _ =>
      ofOption_bind fun pub hpub => ?_
  · simp only [bne_eq_false_iff_eq] at hlength
    omega
  · rw [none_or]
    exact passes_bind (hvalid v pub (hL.key pubRaw pub hpub)) fun _ =>
      refuseIf_bind rfl fun _ => rfl

theorem allM_index {s : Bytes} (p : UInt8 → Bool) {b : UInt8} :
    (List.range' 1 s.length).allM (fun i => (do pure (p (← index (b :: s) i)) : Run Bool)) =
      .ok (s.all p) := by
  have hindex : ∀ i ∈ List.range' 1 s.length,
      (do pure (p (← index (b :: s) i)) : Run Bool) = .ok (((b :: s)[i]?.map p).getD false) := by
    intro i hi
    have hlt : i < (b :: s).length := by
      have := (List.mem_range'_1.mp hi).2
      simp only [List.length_cons]
      omega
    rw [index_of hlt, List.getElem?_eq_getElem hlt]
    rfl
  rw [allM_ok hindex]
  refine congrArg _ (Bool.eq_iff_iff.mpr ?_)
  simp only [List.all_eq_true]
  constructor
  · intro h x hx
    obtain ⟨i,hi,rfl⟩ := List.getElem_of_mem hx
    have hp := h (i + 1) (List.mem_range'_1.mpr ⟨by omega,by omega⟩)
    rwa [List.getElem?_cons_succ, List.getElem?_eq_getElem hi] at hp
  · intro h i hi
    obtain ⟨hone,hlt⟩ := List.mem_range'_1.mp hi
    obtain ⟨j,rfl⟩ : ∃ j, i = j + 1 := ⟨i - 1,by omega⟩
    rw [List.getElem?_cons_succ, List.getElem?_eq_getElem (by omega)]
    exact h _ (List.getElem_mem _)

theorem canonicalUint_eq (value : Bytes) :
    canonicalUint value = .ok (SigningPolicy.canonicalUint value) := by
  unfold canonicalUint SigningPolicy.canonicalUint
  rw [show ascii "0" = [0x30] from rfl]
  split
  · rfl
  · cases value with
    | nil => rfl
    | cons b t =>
      refine ite_ok (orM_ok rfl fun _ => orM_ok rfl fun _ => rfl) (fun hout => ?_) fun hin => ?_
      · simp only [Bool.or_eq_true, decide_eq_true_eq, reduceCtorEq, beq_iff_eq, false_or] at hout
        have hrange : ¬(0x31 ≤ b.toNat ∧ b.toNat ≤ 0x39) := by omega
        simp [hrange]
      · simp only [Bool.or_eq_false_iff, decide_eq_false_iff_not] at hin
        simp only [show 0x31 ≤ b.toNat by omega, show b.toNat ≤ 0x39 by omega, decide_true,
          Bool.and_self, Bool.true_and]
        exact allM_index isDigit

theorem callBytes_eq {addr : Bytes} {n : Int} (hlen : addr.length = 20) (hsign : ¬n < 0)
    (hbits : ¬2 ^ 256 ≤ n.natAbs) :
    (do
      let b ← copyAt (List.replicate 68 0) 0 68 [0xA9,0x05,0x9C,0xBB]
      let b ← copyAt b 16 36 addr
      fillFrom b 36 n) =
    .ok ([0xA9,0x05,0x9C,0xBB] ++ List.replicate 12 0 ++ addr ++ fillBytes 32 n.toNat) := by
  have hselector : copyAt (List.replicate 68 (0 : UInt8)) 0 68 [0xA9,0x05,0x9C,0xBB] =
      .ok ([0xA9,0x05,0x9C,0xBB] ++ List.replicate 64 0) := rfl
  have haddr : copyAt ([0xA9,0x05,0x9C,0xBB] ++ List.replicate 64 (0 : UInt8)) 16 36 addr =
      .ok ([0xA9,0x05,0x9C,0xBB] ++ List.replicate 12 0 ++ addr ++ List.replicate 32 0) :=
    copyAt_of (by decide) (by decide) hlen
  have hfront : ([0xA9,0x05,0x9C,0xBB] ++ List.replicate 12 0 ++ addr : Bytes).length = 36 := by
    simp [hlen]
  have hsize : ([0xA9,0x05,0x9C,0xBB] ++ List.replicate 12 0 ++ addr ++
      List.replicate 32 0 : Bytes).length = 68 := by
    simp [hlen]
  have hfits : n.natAbs < 256 ^ 32 := by
    rw [show (256 : Nat) ^ 32 = 2 ^ 256 by decide]
    omega
  rw [hselector, ok_bind, haddr, ok_bind, fillFrom, hsize, if_pos ⟨by decide,hfits⟩,
    List.take_left' hfront, show n.natAbs = n.toNat by omega]

theorem transferCall_eq (address amount : Bytes) :
    transferCall address amount = .ok (SigningPolicy.transferCall address amount) := by
  unfold transferCall SigningPolicy.transferCall
  cases hexDecode (Strings.trimStart address (ascii "0x")) with
  | none => rfl
  | some addr =>
    cases number amount with
    | none =>
      refine ite_ok (b := true) ?_ (fun _ => rfl) (nomatch ·)
      simp
    | some n =>
      refine ite_ok (orM_ok rfl fun _ => orM_ok rfl fun _ => rfl) (fun hout => ?_) fun hin => ?_
      · simp only [Option.isNone_some, Option.getD_some, Bool.false_or, Bool.or_false,
          Bool.or_eq_true, bne_iff_ne, decide_eq_true_eq] at hout
        have hrefused : (addr.length != 20 || decide (n < 0) || decide (2 ^ 256 ≤ n)) = true := by
          simp only [Bool.or_eq_true, bne_iff_ne, decide_eq_true_eq]
          omega
        exact (congrArg Except.ok (if_pos hrefused)).symm
      · simp only [Option.isNone_some, Option.getD_some, Bool.false_or, Bool.or_false,
          Bool.or_eq_false_iff, bne_eq_false_iff_eq, decide_eq_false_iff_not] at hin
        obtain ⟨hlen,hsign,hbits⟩ := hin
        have haccepted : ¬(addr.length != 20 || decide (n < 0) || decide (2 ^ 256 ≤ n)) = true := by
          simp only [Bool.or_eq_true, bne_iff_ne, decide_eq_true_eq]
          omega
        exact (callBytes_eq hlen hsign hbits).trans (congrArg Except.ok (if_neg haccepted)).symm

theorem verifyEthereumBytes_eq (raw : Bytes) (p : Context) :
    verifyEthereumBytes L raw p = ofOption (SigningPolicy.verifyEthereumBytes L raw p) := by
  unfold verifyEthereumBytes SigningPolicy.verifyEthereumBytes
  simp only [Option.bind_eq_bind, Option.bind_none]
  refine refuseIf_bind (orM_ok rfl fun hlength => index_zero_bne ?_ 2) fun htyped => ?_
  · simp only [decide_eq_false_iff_not] at hlength
    omega
  have hone : 1 ≤ raw.length := by
    simp only [Bool.or_eq_false_iff, decide_eq_false_iff_not] at htyped
    omega
  simp only [sliceFrom_of hone, ok_bind]
  refine ofOption_bind fun tx _ => ofOption_bind fun encoded _ => ?_
  refine refuseIf_bind
    ((orM_ok rfl fun _ => rfl).trans (congrArg _ (by simp only [Bool.or_assoc]))) fun _ => ?_
  cases p.tokenStandard with
  | none => exact refuseIf_bind rfl fun _ => rfl
  | some standard =>
    refine refuseIf_bind ?_ fun _ => rfl
    rw [transferCall_eq]
    refine (orM_ok rfl fun _ => orM_named (orM_ok rfl fun _ => rfl)).trans (congrArg _ ?_)
    simp only [Bool.or_assoc]

theorem verifyEthereumPrepared_eq (raw : Bytes) (prepared : PreparedTransfer) (policy : Context)
    (auth : Object) : verifyEthereumPrepared L raw prepared policy auth =
      ofOption (SigningPolicy.verifyEthereumPrepared L raw prepared policy auth) := by
  unfold verifyEthereumPrepared SigningPolicy.verifyEthereumPrepared
  simp only [Option.bind_eq_bind, Option.bind_none, verifyEthereumBytes_eq]
  exact refuseIf_bind rfl fun _ => ofOption_bind fun budget _ => refuseIf_bind rfl fun _ => rfl

theorem verifyTronTransfer_eq (tx : TronRaw) (c : TronContract) (typeURL value : Bytes)
    (p : Context) : verifyTronTransfer L tx c typeURL value p =
      ofOption (SigningPolicy.verifyTronTransfer L tx c typeURL value p) := by
  unfold verifyTronTransfer SigningPolicy.verifyTronTransfer
  simp only [Option.bind_eq_bind, Option.bind_none]
  exact refuseIf_bind rfl fun _ => ofOption_bind fun v _ => refuseIf_last rfl

theorem tronTokenAddress_eq (p : Context) :
    tronTokenAddress p = .ok (SigningPolicy.tronTokenAddress p) := by
  unfold tronTokenAddress SigningPolicy.tronTokenAddress
  cases p.tokenContractCanonical <;> rfl

theorem verifyTronTrigger_eq (tx : TronRaw) (c : TronContract) (typeURL value : Bytes)
    (p : Context) {standard : Bytes} (h : p.tokenStandard = some standard) :
    verifyTronTrigger L tx c typeURL value p =
      ofOption (SigningPolicy.verifyTronTrigger L tx c typeURL value p standard) := by
  unfold verifyTronTrigger SigningPolicy.verifyTronTrigger
  simp only [Option.bind_eq_bind, Option.bind_none, h, deref_some, ok_bind, tronTokenAddress_eq]
  refine refuseIf_bind ((orM_ok rfl fun _ => rfl).trans (congrArg _ (by simp only [Bool.or_assoc])))
    fun _ => ofOption_bind fun v _ => refuseIf_last ?_
  have hcall (hlength : (tronAddress L p.toAddress).length = 21) : (do
      let recipient ← sliceFrom (tronAddress L p.toAddress) 1
      pure (v.data != (← transferCall (ascii "0x" ++ hexEncode recipient) p.amountAtomic)) :
        Run Bool) = .ok (v.data != SigningPolicy.transferCall
          (ascii "0x" ++ hexEncode ((tronAddress L p.toAddress).drop 1)) p.amountAtomic) := by
    rw [sliceFrom_of (by omega), ok_bind, transferCall_eq]
    rfl
  refine (orM_ok rfl fun hlength => orM_ok (hcall ?_) fun _ => orM_ok rfl fun _ =>
    orM_named rfl).trans (congrArg _ (by simp only [Bool.or_assoc]))
  simp only [Bool.or_eq_false_iff, bne_eq_false_iff_eq] at hlength
  exact hlength.2

theorem verifyTronBytes_eq (raw : Bytes) (p : Context) (now : Time) :
    verifyTronBytes L raw p now = ofOption (SigningPolicy.verifyTronBytes L raw p now) := by
  unfold verifyTronBytes SigningPolicy.verifyTronBytes
  simp only [Option.bind_eq_bind, Option.bind_none]
  refine ofOption_bind fun tx _ => ?_
  match tx.contract with
  | [] => simp
  | _ :: _ :: _ => simp
  | [c] =>
    refine refuseIf_bind (by simp) fun _ => ?_
    rw [index_zero, ok_bind]
    cases hparameter : c.parameter with
    | none => simp [hparameter]
    | some parameter =>
      refine refuseIf_bind (by simp) fun _ => ?_
      rw [deref_some, ok_bind, hparameter, Option.bind_some]
      cases hstandard : p.tokenStandard with
      | none => exact verifyTronTransfer_eq ..
      | some standard => exact verifyTronTrigger_eq _ _ _ _ _ hstandard

theorem deref_canonical {v : Bytes} (h : SigningPolicy.canonicalUint v = true) :
    deref (number v) = .ok ((number v).getD 0) := by
  rw [canonicalUint_number h]
  rfl

theorem tronBudget_eq (raw : Bytes) (p : Context) (q : TronFeeQuote) :
    tronBudget raw p (some q) = .ok (SigningPolicy.tronBudget raw p q) := by
  unfold tronBudget SigningPolicy.tronBudget
  refine ite_ok (orM_ok rfl fun _ => rfl) (fun hversion => ?_) fun hversion => ?_
  · have hversion : (q.version != 1) = true := hversion
    simp [hversion]
  have hversion : (q.version != 1) = false := hversion
  simp only [deref_some, ok_bind, allM_ok fun v _ => canonicalUint_eq v, hversion, Bool.false_or]
  by_cases hfees : [q.chainParameters.transactionFeeSunPerBandwidth,
      q.chainParameters.createAccountFeeSun,
      q.chainParameters.createNewAccountFeeInSystemContractSun,
      q.chainParameters.createNewAccountBandwidthRate,q.amountAtomic].all
        SigningPolicy.canonicalUint = true
  · simp only [hfees, Bool.not_true, Bool.false_eq_true, if_false, Bool.false_or]
    split
    · rfl
    · simp only [List.all_cons, Bool.and_eq_true] at hfees
      obtain ⟨hbase,hcreate,hsystem,hrate,-⟩ := hfees
      simp only [tronBudgetSum, deref_canonical hbase, deref_canonical hcreate,
        deref_canonical hsystem, deref_canonical hrate, ok_bind, canonicalUint_eq]
      cases p.feeLimitSun with
      | none => cases q.destinationAccountExists <;> rfl
      | some limit =>
        cases hlimit : SigningPolicy.canonicalUint limit with
        | false => simp [hlimit]
        | true => simp [hlimit, deref_canonical hlimit]
  · simp [hfees]

theorem canonicalTronPolicyToken_eq (p : Context) :
    canonicalTronPolicyToken p = .ok (SigningPolicy.canonicalTronPolicyToken p) := by
  unfold canonicalTronPolicyToken SigningPolicy.canonicalTronPolicyToken
  cases isTronChain p.chain with
  | false => rfl
  | true =>
    cases p.tokenStandard with
    | none => rfl
    | some standard =>
      cases hstandard : standard == ascii "TRC20" with
      | false => simp [hstandard]
      | true => simp [hstandard]

theorem verifyTronPrepared_eq (raw : Bytes) (prepared : PreparedTransfer) (policy : Context)
    (auth : Object) (now : Time) : verifyTronPrepared L raw prepared policy auth now =
      ofOption (SigningPolicy.verifyTronPrepared L raw prepared policy auth now) := by
  unfold verifyTronPrepared SigningPolicy.verifyTronPrepared parseFeeQuote
  simp only [Option.bind_eq_bind, Option.bind_none]
  refine refuseIf_bind rfl fun _ => ?_
  generalize unmarshal (pointer {} fun _ v old => closedStruct tronFeeQuoteFields old v.raw) none
    prepared.feeEvidence = decoded
  match decoded with
  | none => rfl
  | some none => rfl
  | some (some quote) =>
    simp only [canonicalTronPolicyToken_eq, ok_bind]
    refine refuseIf_bind (orM_ok rfl fun _ => rfl) fun _ => ?_
    rw [verifyTronBytes_eq]
    refine ofOption_bind fun _ _ => refuseIf_bind rfl fun _ => ?_
    rw [tronBudget_eq]
    rfl

theorem verifyProtocol_eq (protocol : Protocol) (raw : Bytes) (prepared : PreparedTransfer)
    (policy : Context) (auth : Object) (now : Time) :
    verifyProtocol L protocol raw prepared policy auth now =
      ofOption (protocol.verifyPrepared L raw prepared policy auth now) := by
  cases protocol with
  | ethereum => exact verifyEthereumPrepared_eq ..
  | tron => exact verifyTronPrepared_eq ..

theorem parseAuthorization_maximum {raw : Bytes} {v : Object}
    (h : Contract.parseAuthorization L raw = some v) :
    uintPattern (str v "maxNetworkFeeAtomic") = true := by
  obtain ⟨validateChain,pub,hchain,hvalid⟩ := parseAuthorization_chain L h
  simp only [Contract.authorizationValidator] at hchain
  split at hchain
  · obtain rfl := Option.some.inj hchain
    simp only [Contract.validateEthereumAuthorization, Bool.and_eq_true] at hvalid
    exact (validateTransferAsset_asset hvalid.1.2).maximum
  · split at hchain
    · obtain rfl := Option.some.inj hchain
      simp only [Contract.validateTronAuthorization, Bool.and_eq_true] at hvalid
      exact (validateTransferAsset_asset hvalid.1.1.2).maximum
    · cases hchain

theorem exceeds_eq {budget maximum : Bytes} (hbudget : SigningPolicy.canonicalUint budget = true)
    (hmaximum : uintPattern maximum = true) : (do
      let x ← deref (number budget)
      let y ← deref (number maximum)
      pure (decide (y < x)) : Run Bool) = .ok (exceedsUint budget maximum) := by
  rw [exceedsUint, canonicalUint_number hbudget, uintPattern_number hmaximum]
  rfl

theorem verifyPrepared_eq (hL : Sizes L) (a : ApprovedExecution) (prepared : PreparedTransfer)
    (policy : Context) (digest payloadType algorithm : Bytes) (now : Time) :
    verifyPrepared L (some a) (some prepared) (some policy) digest payloadType algorithm now =
      ofOption (SigningPolicy.verifyPrepared L a prepared (some policy) digest payloadType
        algorithm now) := by
  unfold verifyPrepared SigningPolicy.verifyPrepared
  simp only [Option.bind_eq_bind, Option.bind_none, Option.bind_some, deref_some, ok_bind,
    canonicalUint_eq, parseAuthorization_eq hL, verifyProtocol_eq]
  refine refuseIf_bind ((orM_ok rfl fun _ => orM_ok rfl fun _ => orM_ok rfl fun _ => rfl).trans
    (congrArg _ (by simp [Bool.or_assoc]))) fun hwell => ofOption_bind fun canonical _ =>
      ofOption_bind fun auth hauth => refuseIf_bind rfl fun _ => refuseIf_bind rfl fun _ =>
        refuseIf_bind (orM_ok rfl fun _ => exceeds_eq ?_ (parseAuthorization_maximum hauth))
          fun _ => ?_
  · simp only [Bool.or_eq_false_iff, Bool.not_eq_false'] at hwell
    exact hwell.2
  · exact ofOption_bind fun raw _ => refuseIf_bind rfl fun _ => ofOption_bind fun protocol _ =>
      refuseIf_bind rfl fun _ => ofOption_bind fun verified _ => refuseIf_bind rfl fun _ => rfl

theorem verifyPrepared_nil {a : Option ApprovedExecution} {prepared : Option PreparedTransfer}
    {policy : Option Context} (h : (a.isNone || prepared.isNone || policy.isNone) = true)
    (digest payloadType algorithm : Bytes) (now : Time) :
    verifyPrepared L a prepared policy digest payloadType algorithm now = refuse := by
  unfold verifyPrepared
  rw [h]
  rfl

/-- Whatever is asked for, both checks return: a value or an error, never a panic. -/
theorem verification_never_panics (hL : Sizes L) (a : Option ApprovedExecution)
    (prepared : Option PreparedTransfer) (policy : Option Context)
    (digest payloadType algorithm : Bytes) (now : Time) (raw : Bytes) :
    verifyPrepared L a prepared policy digest payloadType algorithm now ≠ .error .panicked ∧
      parseAuthorization L raw ≠ .error .panicked := by
  constructor
  · match a, prepared, policy with
    | some a, some prepared, some policy =>
      rw [verifyPrepared_eq hL]
      exact ofOption_ne_panicked _
    | none, _, _ => rw [verifyPrepared_nil rfl]; nofun
    | some _, none, _ => rw [verifyPrepared_nil rfl]; nofun
    | some _, some _, none => rw [verifyPrepared_nil rfl]; nofun
  · rw [parseAuthorization_eq hL]
    exact ofOption_ne_panicked _

/-- The libraries of the vector `ethereum:mainnet-native`, with every digest of 32 bytes. -/
def sizedLibraries : Libraries :=
  { mainnetLibraries with
    keccak256 := fun raw => (mainnetLibraries.keccak256 raw ++ List.replicate 32 0).take 32 }

theorem sizedLibraries_sizes : Sizes sizedLibraries := by
  refine ⟨fun raw => ?_,fun raw pub h => ?_⟩
  · simp [sizedLibraries]
  · simp only [sizedLibraries, mainnetLibraries, VectorTerms.libraries,
      Option.ite_none_right_eq_some, beq_iff_eq] at h
    rw [← Option.some.inj h.2, h.1]
    decide +kernel

theorem mainnet_never_panics :
    (verifyPrepared sizedLibraries (some (mainnetTerms.approval mainnetHash))
      (some mainnetPrepared) (some mainnetPolicy) mainnetDigest ethereumPayloadType
      ethereumHashAlgorithm 0).isOk = true ∧
    verifyPrepared sizedLibraries (some (mainnetTerms.approval mainnetHash))
      (some mainnetPrepared) none mainnetDigest ethereumPayloadType
      ethereumHashAlgorithm 0 ≠ .error .panicked ∧
    parseAuthorization sizedLibraries mainnetTerms.authorization ≠ .error .panicked :=
  ⟨by decide +kernel,verification_never_panics sizedLibraries_sizes _ _ _ _ _ _ _ _⟩

end CoSigner.SigningPolicy.Runtime
