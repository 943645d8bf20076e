import CoSigner.SigningPolicy.Authorization

/-! What `VerifyPrepared` has checked before and after the chain's own verification. -/
namespace CoSigner.SigningPolicy
open Json Contract
variable (L : Libraries)

structure Verified (a : ApprovedExecution) (prepared : PreparedTransfer) (policy : Context)
    (digest payloadType algorithm : Bytes) (now : Time) (auth : Object) (raw : Bytes)
    (protocol : Protocol) : Prop where
  canonical : ∃ text, L.jcs a.authorization = some text ∧ parseAuthorization L text = some auth ∧
    hash L text = a.authorizationHash
  requestID : str auth "requestId" = a.requestID
  repeated : ∀ kw ∈ repeatedTerms policy prepared, str auth kw.1 = kw.2
  tokenContract : nullEqual (auth.get (ascii "tokenContractCanonical"))
    policy.tokenContractCanonical = true
  affordable : exceedsUint prepared.networkFeeBudgetAtomic (str auth "maxNetworkFeeAtomic") = false
  bytes : hexDecode prepared.unsignedTransaction = some raw
  payload : protocolForPayload payloadType = some protocol
  algorithm : algorithm = protocol.hashAlgorithm
  chain : protocol.supportsChain policy.chain = true
  verified : protocol.verifyPrepared L raw prepared policy auth now =
    some ⟨digest,prepared.networkFeeBudgetAtomic⟩
  budgeted : prepared.networkFeeBudgetAtomic ≠ []

variable {L} {a : ApprovedExecution} {prepared : PreparedTransfer} {policy : Context}
  {digest payloadType algorithm : Bytes} {now : Time} {auth : Object} {raw : Bytes}
  {protocol : Protocol}

theorem verifyPrepared_verified {policy : Option Context}
    (h : verifyPrepared L a prepared policy digest payloadType algorithm now = some auth) :
    ∃ context raw protocol, policy = some context ∧
      Verified L a prepared context digest payloadType algorithm now auth raw protocol := by
  simp only [verifyPrepared, Option.bind_eq_bind, Option.bind_eq_some_iff, Option.bind_none,
    Option.ite_none_left_eq_some, Bool.or_eq_true, not_or, bne_iff_ne, ne_eq, not_not,
    Bool.not_eq_true', Bool.not_eq_false, Bool.not_eq_true] at h
  obtain ⟨context,hcontext,-,text,htext,parsed,hparsed,⟨hhash,hrequest⟩,hrepeated,
    ⟨⟨-,htoken⟩,hafford⟩,raw,hraw,-,protocol,hpayload,⟨halgorithm,hchain⟩,verified,hverified,
    ⟨⟨hsome,hbudget⟩,hdigest⟩,hparsed'⟩ := h
  obtain rfl := Option.some.inj hparsed'
  subst hdigest
  refine ⟨context,raw,protocol,hcontext,⟨text,htext,hparsed,hhash⟩,hrequest,fun kw hkw => ?_,htoken,
    hafford,hraw,hpayload,halgorithm,hchain,?_,?_⟩
  · exact eq_of_beq (List.all_eq_true.mp hrepeated kw hkw)
  · rw [hverified, ← hbudget]
  · rw [← hbudget]
    exact fun hnil => by simp [hnil] at hsome

namespace Verified

theorem terms (h : Verified L a prepared policy digest payloadType algorithm now auth raw protocol) :
    str auth "chain" = policy.chain ∧ str auth "asset" = policy.asset ∧
      str auth "fromAddress" = policy.fromAddress ∧ str auth "toAddress" = policy.toAddress ∧
      str auth "amountAtomic" = policy.amountAtomic := by
  have hterm : ∀ k w, (k,w) ∈ repeatedTerms policy prepared → str auth k = w := fun k w hkw =>
    h.repeated (k,w) hkw
  refine ⟨hterm _ _ ?_,hterm _ _ ?_,hterm _ _ ?_,hterm _ _ ?_,hterm _ _ ?_⟩ <;> simp [repeatedTerms]

theorem ethereum (h : Verified L a prepared policy digest payloadType algorithm now auth raw protocol)
    (hchain : isEthereumChain policy.chain = true) : protocol = .ethereum := by
  cases protocol with
  | ethereum => rfl
  | tron =>
    have hnot := tron_not_ethereum h.chain
    rw [hchain] at hnot
    cases hnot

theorem tron (h : Verified L a prepared policy digest payloadType algorithm now auth raw protocol)
    (hchain : isTronChain policy.chain = true) : protocol = .tron := by
  cases protocol with
  | tron => rfl
  | ethereum =>
    have hnot := tron_not_ethereum hchain
    rw [show isEthereumChain policy.chain = true from h.chain] at hnot
    cases hnot

theorem budget (h : Verified L a prepared policy digest payloadType algorithm now auth raw protocol)
    {n : Int} (hn : number prepared.networkFeeBudgetAtomic = some n) :
    ∃ maximum, number (str auth "maxNetworkFeeAtomic") = some maximum ∧ n ≤ maximum := by
  obtain ⟨x,y,hx,hy,hle⟩ := number_exceeds h.affordable
  obtain rfl := Option.some.inj (hn.symm.trans hx)
  exact ⟨y,hy,hle⟩

theorem validated
    (h : Verified L a prepared policy digest payloadType algorithm now auth raw protocol) :
    ∃ validateChain pub, authorizationValidator L policy.chain = some validateChain ∧
      validateChain auth pub = true := by
  obtain ⟨text,-,hparsed,-⟩ := h.canonical
  have hvalid := parseAuthorization_chain L hparsed
  rwa [h.terms.1] at hvalid

end Verified

theorem nullEqual_none {k : String} (h : nullEqual (auth.get (ascii k)) none = true) :
    isNull auth k = true := by
  simp only [nullEqual, Codec.optionalString, beq_iff_eq] at h
  cases hget : auth.get (ascii k) with
  | none =>
    rw [hget] at h
    exact absurd h (by decide)
  | some v =>
    rw [hget] at h
    simp only [Option.getD_some] at h
    simp [isNull, hget, h]

theorem quote_ne_null (s : Bytes) : quote s ≠ ascii "null" := by
  intro h
  have hhead := congrArg List.head? h
  simp [quote, ascii] at hhead

theorem nullEqual_some {k : String} {s : Bytes}
    (h : nullEqual (auth.get (ascii k)) (some s) = true) :
    isNull auth k = false ∧ str auth k = clean s := by
  simp only [nullEqual, Codec.optionalString, beq_iff_eq] at h
  cases hget : auth.get (ascii k) with
  | none =>
    rw [hget] at h
    have hhead := congrArg List.head? h
    simp [quote] at hhead
  | some v =>
    rw [hget] at h
    simp only [Option.getD_some] at h
    refine ⟨by simpa [isNull, hget, h] using quote_ne_null s,?_⟩
    simp [str, hget, h, unmarshal, (parses_quote s).parse, string, unquote_escape, Value.depth]

theorem isNull_str {k : String} (h : isNull auth k = true) : str auth k = [] := by
  simp only [isNull, beq_iff_eq] at h
  simp [str, h, unmarshal, parses_null.parse, string, Value.depth]

end CoSigner.SigningPolicy
