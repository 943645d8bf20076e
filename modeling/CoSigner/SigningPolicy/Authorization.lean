import CoSigner.Contract.Encodings
import CoSigner.Lib.Json.Number
import CoSigner.SigningPolicy.Prepared

/-! What an accepted authorization says about its transfer: addresses, amounts and tokens. -/
namespace CoSigner.SigningPolicy
open Json Contract
variable (L : Libraries)

/-- The text of an Ethereum address. -/
def evmText (address : Bytes) : Bytes := ascii "0x" ++ hexEncode address

theorem number_digits {s : Bytes} (hne : s ≠ []) (hs : s.all isDigit = true) :
    number s = some (digitsValue s : Int) := by
  unfold number
  split
  · simp [isDigit] at hs
  · simp [isDigit] at hs
  · simp [hne, hs]

theorem number_decimal_nat (n : Nat) : number (decimal n) = some (n : Int) := by
  have htext : decimal n = ascii (toString n) := by
    simp [decimal, intLiteral, show ¬((n : Int) < 0) by omega]
  rw [htext, number_digits (toString_ne_nil n) (toString_digits n), digitsValue_toString]

theorem number_decimal (n : Int) : number (decimal n) = some n := by
  by_cases h : n < 0
  · have hvalue : -(n.natAbs : Int) = n := by omega
    have hne : (ascii (toString n.natAbs)).isEmpty = false := by
      simpa using toString_ne_nil n.natAbs
    simp only [decimal, intLiteral, h, if_true, number, hne, toString_digits,
      digitsValue_toString, hvalue]
    rfl
  · have hvalue : (n.toNat : Int) = n := by omega
    rw [← hvalue]
    exact number_decimal_nat _

theorem decimal_ascii (n : Int) : ∀ b ∈ decimal n, b.toNat < 0x80 := by
  have hdigits : ∀ b ∈ ascii (toString n.natAbs), b.toNat < 0x80 := by
    intro b hb
    have hdigit := List.all_eq_true.mp (toString_digits n.natAbs) b hb
    simp only [isDigit, Bool.and_eq_true, decide_eq_true_eq] at hdigit
    omega
  intro b hb
  unfold decimal intLiteral at hb
  split at hb
  · rcases List.mem_cons.mp hb with rfl | hb
    · decide
    · exact hdigits b hb
  · exact hdigits b hb

theorem uintPattern_digits {s : Bytes} (h : uintPattern s = true) :
    s ≠ [] ∧ s.all isDigit = true := by
  simp only [uintPattern, Bool.or_eq_true, Bool.and_eq_true, beq_iff_eq, Bool.not_eq_true',
    List.isEmpty_eq_false_iff] at h
  rcases h with rfl | ⟨⟨hne,hs⟩,-⟩
  · exact ⟨by decide,by decide⟩
  · exact ⟨hne,hs⟩

theorem uintPattern_number {s : Bytes} (h : uintPattern s = true) :
    number s = some (digitsValue s : Int) :=
  number_digits (uintPattern_digits h).1 (uintPattern_digits h).2

theorem number_exceeds {l r : Bytes} (h : exceedsUint l r = false) :
    ∃ x y, number l = some x ∧ number r = some y ∧ x ≤ y := by
  unfold exceedsUint at h
  split at h
  · rename_i x y hx hy
    exact ⟨x,y,hx,hy,by simpa using h⟩
  · cases h

theorem hexVal_digits : ∀ n < 256, hexDigits [n.toUInt8] = true →
    (hexVal n.toUInt8).any (fun v => v < 16 && hexDigit v == n.toUInt8) = true := by
  decide +kernel

theorem hexDigit_hexVal {b : UInt8} (h : hexDigits [b] = true) :
    ∃ n, hexVal b = some n ∧ n < 16 ∧ hexDigit n = b := by
  have hb : b.toNat.toUInt8 = b := by simp
  have hany := hexVal_digits b.toNat b.toNat_lt
  rw [hb] at hany
  simpa [Option.any_eq_true] using hany h

theorem hexDecode_digits : ∀ (n : Nat) {s : Bytes}, s.length = 2 * n → hexDigits s = true →
    ∃ b, hexDecode s = some b ∧ b.length = n ∧ hexEncode b = s
  | 0, s, hlen, _ => by
    obtain rfl := List.eq_nil_of_length_eq_zero hlen
    exact ⟨[],rfl,rfl,rfl⟩
  | n + 1, s, hlen, hs => by
    match s, hlen with
    | x :: y :: t, hlen =>
      simp only [hexDigits, List.all_cons, Bool.and_eq_true] at hs
      obtain ⟨u,hu,hu',rfl⟩ := hexDigit_hexVal (b := x) (by simpa [hexDigits] using hs.1)
      obtain ⟨v,hv,hv',rfl⟩ := hexDigit_hexVal (b := y) (by simpa [hexDigits] using hs.2.1)
      obtain ⟨b,hb,hlen',henc⟩ := hexDecode_digits n (s := t)
        (by simp only [List.length_cons] at hlen; omega) hs.2.2
      refine ⟨(16 * u + v).toUInt8 :: b,by simp [hexDecode, hu, hv, hb],by simp [hlen'],?_⟩
      have hvalue : (16 * u + v).toUInt8.toNat = 16 * u + v := by
        simp only [Nat.toUInt8_eq, UInt8.toNat_ofNat']
        omega
      have hcons : hexEncode ((16 * u + v).toUInt8 :: b) =
          hexDigit ((16 * u + v).toUInt8.toNat / 16) ::
            hexDigit ((16 * u + v).toUInt8.toNat % 16) :: hexEncode b := rfl
      rw [hcons, hvalue, henc, show (16 * u + v) / 16 = u by omega,
        show (16 * u + v) % 16 = v by omega]

theorem evmAddress_bytes {s : Bytes} (h : evmAddress s = true) :
    ∃ b, evmText b = s ∧ b.length = 20 := by
  simp only [evmAddress, Bool.and_eq_true, beq_iff_eq] at h
  obtain ⟨⟨hlead,hlen⟩,hdigits⟩ := h
  obtain ⟨b,-,hb,henc⟩ := hexDecode_digits 20 (by simp [hlen]) hdigits
  refine ⟨b,?_,hb⟩
  rw [evmText, henc, ← hlead, List.take_append_drop]

theorem evmText_injective {b c : Bytes} (h : evmText b = evmText c) : b = c :=
  hexEncode_injective (List.append_cancel_left h)

theorem evmText_ascii (b : Bytes) : ∀ c ∈ evmText b, c.toNat < 0x80 := by
  intro c hc
  rcases List.mem_append.mp hc with hlead | hdigits
  · have hall : ((ascii "0x").all fun c => c.toNat < 0x80) = true := by decide
    exact of_decide_eq_true (List.all_eq_true.mp hall c hlead)
  · exact hexDigits_ascii (hexEncode_hexDigits b) c hdigits

theorem trimStart_evmText (b : Bytes) : Strings.trimStart (evmText b) (ascii "0x") = hexEncode b := by
  simp [Strings.trimStart, evmText]

theorem fillBytes_length (n x : Nat) : (fillBytes n x).length = n := by
  induction n generalizing x with
  | zero => rfl
  | succ n ih => simp [fillBytes, ih]

/-- The ABI call `transfer(address,uint256)`. -/
def transferABI (recipient : Bytes) (amount : Nat) : Bytes :=
  [0xA9,0x05,0x9C,0xBB] ++ List.replicate 12 0 ++ recipient ++ fillBytes 32 amount

theorem transferABI_length {recipient : Bytes} (h : recipient.length = 20) (amount : Nat) :
    (transferABI recipient amount).length = 68 := by
  simp [transferABI, h, fillBytes_length]

theorem transferCall_eq {recipient amount : Bytes} {n : Nat} (hlen : recipient.length = 20)
    (hamount : number amount = some (n : Int)) (hn : n < 2 ^ 256) :
    transferCall (evmText recipient) amount = transferABI recipient n := by
  have hfits : ¬(2 ^ 256 : Int) ≤ n := by exact_mod_cast Nat.not_le.mpr hn
  have hsign : ¬(n : Int) < 0 := by omega
  simp only [transferCall, trimStart_evmText, hexDecode_hexEncode, hamount, hlen, hfits, hsign,
    decide_false, bne_self_eq_false, Bool.or_self, Bool.false_eq_true, if_false, Int.toNat_natCast,
    transferABI]

/-- The amounts and the asset that `validateTransferAsset` has checked. -/
structure TransferAsset (v : Object) (native standard : String) : Prop where
  amount : number (str v "amountAtomic") = some (digitsValue (str v "amountAtomic") : Int)
  fits : digitsValue (str v "amountAtomic") < 2 ^ 256
  maximum : uintPattern (str v "maxNetworkFeeAtomic") = true
  native : isNull v "tokenStandard" = true → str v "asset" = ascii native
  token : isNull v "tokenStandard" = false →
    str v "tokenStandard" = ascii standard ∧ evmAddress (str v "tokenContractCanonical") = true

theorem validateTransferAsset_asset {v : Object} {native standard : String}
    (h : validateTransferAsset v native standard = true) : TransferAsset v native standard := by
  simp only [validateTransferAsset, Bool.and_eq_true, decide_eq_true_eq] at h
  obtain ⟨⟨⟨⟨⟨⟨hamount,-⟩,hmax⟩,-⟩,-⟩,hfits⟩,htoken⟩ := h
  refine ⟨uintPattern_number hamount,hfits,hmax,fun hnull => ?_,fun hnull => ?_⟩
  · rw [hnull] at htoken
    simp only [if_true, Bool.and_eq_true, beq_iff_eq] at htoken
    exact htoken.2
  · rw [hnull] at htoken
    simp only [Bool.false_eq_true, if_false, Bool.and_eq_true, beq_iff_eq] at htoken
    exact ⟨htoken.1.1.1,htoken.1.1.2⟩

theorem parseAuthorization_chain {raw : Bytes} {v : Object} (h : parseAuthorization L raw = some v) :
    ∃ validateChain pub, authorizationValidator L (str v "chain") = some validateChain ∧
      validateChain v pub = true := by
  simp only [parseAuthorization, Option.bind_eq_bind, Option.bind_eq_some_iff, Option.bind_none,
    Option.ite_none_left_eq_some, Bool.or_eq_true, not_or, Bool.not_eq_true', Bool.not_eq_false]
    at h
  obtain ⟨w,-,-,-,-,-,-,validateChain,hchain,-,-,-,-,-,-,-,-,pub,-,⟨hvalid,-⟩,hw⟩ := h
  obtain rfl := Option.some.inj hw
  exact ⟨validateChain,pub,hchain,hvalid⟩

theorem parseAuthorization_has {raw : Bytes} {v : Object} (h : parseAuthorization L raw = some v)
    (k : String) (hk : k ∈ authorizationFields) : ∃ x, v.get (ascii k) = some x := by
  simp only [parseAuthorization, Option.bind_eq_bind, Option.bind_eq_some_iff, Option.bind_none,
    Option.ite_none_left_eq_some, Bool.or_eq_true, not_or, Bool.not_eq_true', Bool.not_eq_false]
    at h
  obtain ⟨w,-,⟨hclosed,-⟩,-,-,-,-,_,-,-,-,-,-,-,-,-,-,_,-,-,hw⟩ := h
  obtain rfl := Option.some.inj hw
  simp only [closed, Bool.and_eq_true, List.all_eq_true] at hclosed
  obtain ⟨m,hm,hkey⟩ := List.any_eq_true.mp (hclosed.2 k hk)
  have hfound : (w.find? fun m => m.1 == ascii k).isSome = true :=
    List.find?_isSome.mpr ⟨m,hm,hkey⟩
  obtain ⟨x,hx⟩ := Option.isSome_iff_exists.mp hfound
  exact ⟨x.2,by simp [Object.get, hx]⟩

theorem ethereum_chain {chain : Bytes} (h : isEthereumChain chain = true) :
    authorizationValidator L chain = some (validateEthereumAuthorization L) := by
  have hchain : (chain == ascii "ethereum:mainnet" || chain == ascii "ethereum:sepolia") = true := by
    by_contra hno
    simp only [Bool.or_eq_true, not_or, Bool.not_eq_true] at hno
    simp [isEthereumChain, ethereumChainID, hno.1, hno.2] at h
  simp only [authorizationValidator, hchain, if_true]

theorem tron_not_ethereum {chain : Bytes} (h : isTronChain chain = true) :
    isEthereumChain chain = false := by
  simp only [isTronChain, Bool.or_eq_true, beq_iff_eq] at h
  rcases h with rfl | rfl <;> decide +kernel

theorem tron_chain {chain : Bytes} (h : isTronChain chain = true) :
    authorizationValidator L chain = some (validateTronAuthorization L) := by
  simp only [isTronChain, Bool.or_eq_true, beq_iff_eq] at h
  unfold authorizationValidator
  rw [if_neg, if_pos]
  · simpa using h
  · rcases h with rfl | rfl <;> decide +kernel

/-- What the transfers of `testdata/approval-prepared-v1` differ in. -/
structure VectorTerms where
  chain : Bytes
  profileTemplate : Bytes
  accountPath : Bytes
  addressEncoding : Bytes
  sender : Bytes
  publicKey : Bytes
  contextHash : Bytes
  recipient : Bytes
  asset : Bytes
  feeAsset : Bytes
  maximumFee : Bytes
  tokenStandard : Bytes := ascii "null"
  tokenContract : Bytes := ascii "null"
  tokenDecimals : Bytes := ascii "null"
  chainParams : Bytes := ascii "null"

namespace VectorTerms

/-- A string without anything to escape. -/
def plain (s : Bytes) : Bytes := 0x22 :: (s ++ [0x22])

def entry (k : String) (v : Bytes) : Bytes := plain (ascii k) ++ 0x3A :: v

def braces (entries : List Bytes) : Bytes := 0x7B :: (commaJoin entries ++ [0x7D])

def numbered (lead : String) : Bytes :=
  ascii lead ++ ascii "0000000-0000-4000-" ++ ascii "8000-000000000001"

def orgID : Bytes := numbered "1"

def requestID : Bytes := numbered "2"

def outgoingID : Bytes := numbered "7"

def walletID : Bytes := numbered "5"

def keyID : Bytes := ascii "mpc_key_" ++ numbered "6"

/-- The derivation context in JCS form. -/
def context (t : VectorTerms) : Bytes :=
  braces [entry "accountPath" (plain t.accountPath),
    entry "addressEncoding" (plain t.addressEncoding),entry "algorithm" (plain (ascii "ECDSA")),
    entry "chain" (plain t.chain),entry "childPath" (plain (ascii "/0/0")),
    entry "curve" (plain (ascii "secp256k1")),entry "descriptorVersion" (ascii "1"),
    entry "expectedAddress" (plain t.sender),entry "expectedPublicKey" (plain t.publicKey),
    entry "fullPath" (plain (t.accountPath ++ ascii "/0/0")),entry "keyVersion" (ascii "1"),
    entry "profileId" (plain (ascii "synthetic-bip44-account-0")),
    entry "profileTemplateId" (plain t.profileTemplate),entry "profileVersion" (ascii "1"),
    entry "publicKeyFormat" (plain (ascii "uncompressed_hex")),
    entry "scheme" (plain (ascii "bip32_secp256k1"))]

/-- The authorization of a request in JCS form. -/
def authorizationOf (t : VectorTerms) (request : Bytes) : Bytes :=
  braces [entry "accountId" (plain (numbered "4")),entry "amountAtomic" (plain (ascii "1000000")),
    entry "asset" (plain t.asset),entry "chain" (plain t.chain),
    entry "clientReference" (ascii "null"),entry "derivationContext" t.context,
    entry "derivationContextHash" (plain t.contextHash),
    entry "descriptorFingerprint"
      (plain (ascii "OZpUUgtMpqOPdF3Ma7uVqQ" ++ ascii "KvrOSrsWkAEi3SjNP_Qqo")),
    entry "fromAddress" (plain t.sender),entry "internalRecipient" (ascii "null"),
    entry "keyId" (plain keyID),entry "ledgerTransactionId" (plain (numbered "3")),
    entry "maxNetworkFeeAtomic" (plain t.maximumFee),entry "networkFeeAsset" (plain t.feeAsset),
    entry "orgId" (plain orgID),entry "requestId" (plain request),
    entry "requestedChainParams" t.chainParams,entry "toAddress" (plain t.recipient),
    entry "tokenContractCanonical" t.tokenContract,entry "tokenDecimals" t.tokenDecimals,
    entry "tokenStandard" t.tokenStandard,
    entry "transferKind" (plain (ascii "EXTERNAL_WITHDRAWAL")),entry "version" (ascii "1"),
    entry "walletId" (plain walletID)]

def authorization (t : VectorTerms) : Bytes := t.authorizationOf requestID

def publicKeyBytes (t : VectorTerms) : Bytes := hexBytes t.publicKey

/-- The libraries at the values that the verification of these terms asks for. -/
def libraries (t : VectorTerms) (sha256 keccak256 : List (Bytes × Bytes)) : Libraries :=
  { Libraries.inert with
    sha256 := tabled sha256
    keccak256 := tabled keccak256
    jcs := some
    derivationContextHash := fun c =>
      if c.fullPath == t.accountPath ++ ascii "/0/0" then some t.contextHash else none
    parsePubKey := fun raw => if raw == t.publicKeyBytes then some raw else none }

def approval (t : VectorTerms) (authorizationHash : Bytes) : ApprovedExecution where
  version := 1
  requestID := requestID
  outgoingID := outgoingID
  authorization := t.authorization
  authorizationHash := authorizationHash

end VectorTerms
end CoSigner.SigningPolicy
