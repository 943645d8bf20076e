import CoSigner.Lib.Protobuf
import CoSigner.SigningPolicy.Numbers

/-! The numbers of a TRON transfer: the window its times must lie in, and the fee its quote
must come to. -/
namespace CoSigner.SigningPolicy
open Json Contract

theorem wrap64_fits {x : Int} (hl : -2 ^ 63 ≤ x) (hu : x < 2 ^ 63) : wrap64 x = x := by
  simp only [wrap64, Int.bmod]
  omega

/-- The conditions of `verifyTronBytes` on times, over the integers. -/
structure Timely (timestamp expiration now : Int) : Prop where
  stamped : 0 < timestamp
  notAhead : timestamp ≤ now + 1000
  lasts : 60000 < expiration - now
  ends : timestamp < expiration
  short : expiration - timestamp ≤ 86340000

/-- A subtraction that wraps has an expiration below zero, and that is refused anyway. -/
theorem tronTimely_exact {timestamp expiration now : Int}
    (ht : -2 ^ 63 ≤ timestamp ∧ timestamp < 2 ^ 63)
    (he : -2 ^ 63 ≤ expiration ∧ expiration < 2 ^ 63) (hn : 0 ≤ now ∧ now ≤ 2 ^ 62) :
    tronTimely timestamp expiration now = true ↔ Timely timestamp expiration now := by
  have hahead : wrap64 (now + 1000) = now + 1000 := wrap64_fits (by omega) (by omega)
  simp only [tronTimely, hahead, Bool.not_eq_true', Bool.or_eq_false_iff, decide_eq_false_iff_not,
    Int.not_le, Int.not_lt]
  constructor
  · rintro ⟨⟨⟨⟨hs,ha⟩,hl⟩,hends⟩,hshort⟩
    rw [wrap64_fits (by omega) (by omega)] at hl hshort
    exact ⟨hs,ha,hl,hends,hshort⟩
  · rintro ⟨hs,ha,hl,hends,hshort⟩
    rw [wrap64_fits (by omega) (by omega), wrap64_fits (by omega) (by omega)]
    exact ⟨⟨⟨⟨hs,ha⟩,hl⟩,hends⟩,hshort⟩

theorem tronTimely_exact_window : tronTimely 1700000000000 1700000090000 1700000000500 = true ∧
    Timely 1700000000000 1700000090000 1700000000500 :=
  have htimely : tronTimely 1700000000000 1700000090000 1700000000500 = true := by decide
  ⟨htimely,(tronTimely_exact (by decide) (by decide) (by decide)).mp htimely⟩

/-- `tron.Transaction`: its raw message is field 1, its signatures are field 2. -/
def transaction (raw signature : Bytes) : Bytes :=
  Protobuf.lengthDelimited 1 raw ++ Protobuf.lengthDelimited 2 signature

theorem varintSizeFrom_length {fuel n : Nat} (h : n ≤ fuel) :
    varintSizeFrom fuel n = (Protobuf.varint n).length := by
  induction fuel generalizing n with
  | zero =>
    obtain rfl := Nat.le_zero.mp h
    rw [Protobuf.varint_small (by decide)]
    rfl
  | succ fuel ih =>
    rw [varintSizeFrom]
    split
    case isTrue hn =>
      rw [Protobuf.varint_small hn]
      rfl
    case isFalse hn =>
      rw [Protobuf.varint_large (Nat.not_lt.mp hn), ih (by omega), List.length_cons]

theorem varintSize_length (n : Nat) : varintSize n = (Protobuf.varint n).length :=
  varintSizeFrom_length (Nat.le_refl n)

theorem length_transaction (raw : Bytes) {signature : Bytes} (hs : signature.length = 65) :
    (transaction raw signature).length = 68 + (varintSize raw.length + raw.length) := by
  have hvarint : (Protobuf.varint 65).length = 1 := by
    rw [Protobuf.varint_small (by decide), List.length_singleton]
  rw [transaction, List.length_append, Protobuf.length_lengthDelimited (by decide),
    Protobuf.length_lengthDelimited (by decide), hs, hvarint, varintSize_length]
  omega

theorem decimal_ne_nil (n : Int) : decimal n ≠ [] := by
  unfold decimal intLiteral
  split
  · exact List.cons_ne_nil _ _
  · exact toString_ne_nil _

/-- The number strings of a quote. -/
def TronFeeQuote.numbers (q : TronFeeQuote) : List Bytes :=
  [q.chainParameters.transactionFeeSunPerBandwidth,q.chainParameters.createAccountFeeSun,
    q.chainParameters.createNewAccountFeeInSystemContractSun,
    q.chainParameters.createNewAccountBandwidthRate,q.amountAtomic]

/-- The fee of a transfer: its bandwidth at the price of the quote; with the rate and the fees
of a new account where the transfer creates one; and the limit where it calls a contract. -/
def tronFee (p : Context) (q : TronFeeQuote) : Int :=
  let params := q.chainParameters
  let bandwidth := q.bandwidthBytes * digitsValue params.transactionFeeSunPerBandwidth
  match p.feeLimitSun with
  | some limit => bandwidth + digitsValue limit
  | none =>
    if q.destinationAccountExists then bandwidth
    else bandwidth * digitsValue params.createNewAccountBandwidthRate +
      digitsValue params.createAccountFeeSun +
      digitsValue params.createNewAccountFeeInSystemContractSun

/-- The quote is right for the transaction, and in the only form it may have. -/
structure FeeQuoted (raw : Bytes) (p : Context) (q : TronFeeQuote) : Prop where
  version : q.version = 1
  numbers : ∀ v ∈ q.numbers, CanonicalDecimal v
  limit : ∀ limit, p.feeLimitSun = some limit → CanonicalDecimal limit
  signed : ∀ signature : Bytes, signature.length = 65 →
    q.signedTransactionBytes = (transaction raw signature).length
  bandwidth : q.bandwidthBytes = q.signedTransactionBytes + 64
  amount : q.amountAtomic = decimal (tronFee p q)

theorem signedSize_length (raw : Bytes) {signature : Bytes} (hs : signature.length = 65) :
    emptySignedSize + raw.length + varintSize raw.length - 1 =
      (transaction raw signature).length := by
  rw [length_transaction raw hs, emptySignedSize]
  omega

/-- What `tronBudget` checks before it computes anything. -/
structure Quotable (raw : Bytes) (p : Context) (q : TronFeeQuote) : Prop where
  version : q.version = 1
  numbers : ∀ v ∈ q.numbers, canonicalUint v = true
  limit : ∀ limit, p.feeLimitSun = some limit → canonicalUint limit = true
  signed : q.signedTransactionBytes =
    (emptySignedSize + raw.length + varintSize raw.length - 1 : Nat)
  bandwidth : q.bandwidthBytes = q.signedTransactionBytes + 64

theorem FeeQuoted.quotable {raw : Bytes} {p : Context} {q : TronFeeQuote}
    (h : FeeQuoted raw p q) : Quotable raw p q where
  version := h.version
  numbers v hv := canonicalUint_iff.mpr (h.numbers v hv)
  limit limit hl := canonicalUint_iff.mpr (h.limit limit hl)
  signed := by
    have hs : (List.replicate 65 (0 : UInt8)).length = 65 := List.length_replicate
    rw [signedSize_length raw hs]
    exact h.signed _ hs
  bandwidth := h.bandwidth

theorem Quotable.feeQuoted {raw : Bytes} {p : Context} {q : TronFeeQuote} (h : Quotable raw p q)
    (hamount : q.amountAtomic = decimal (tronFee p q)) : FeeQuoted raw p q where
  version := h.version
  numbers v hv := canonicalUint_iff.mp (h.numbers v hv)
  limit limit hl := canonicalUint_iff.mp (h.limit limit hl)
  signed signature hs := by
    rw [h.signed, signedSize_length raw hs]
  bandwidth := h.bandwidth
  amount := hamount

theorem tronBudget_quotable {raw : Bytes} {p : Context} {q : TronFeeQuote}
    (h : Quotable raw p q) : tronBudget raw p q =
      if decimal (tronFee p q) == q.amountAtomic then decimal (tronFee p q) else [] := by
  have hall : q.numbers.all canonicalUint = true := List.all_eq_true.mpr h.numbers
  have hbandwidth : q.bandwidthBytes =
      (emptySignedSize + raw.length + varintSize raw.length - 1 + 64 : Nat) := by
    rw [h.bandwidth, h.signed]
    simp
  have hnumber : ∀ v ∈ q.numbers, number v = some (digitsValue v : Int) :=
    fun v hv => canonicalUint_number (h.numbers v hv)
  have hlimit := h.limit
  simp only [TronFeeQuote.numbers, List.forall_mem_cons] at hall hnumber
  obtain ⟨hprice,hcreate,hsystem,hrate,-,-⟩ := hnumber
  have hchecks : (q.version != 1 || !q.numbers.all canonicalUint ||
      q.signedTransactionBytes != (emptySignedSize + raw.length + varintSize raw.length - 1 : Nat) ||
      q.bandwidthBytes !=
        (emptySignedSize + raw.length + varintSize raw.length - 1 + 64 : Nat)) = false := by
    simp only [h.version, h.signed, hbandwidth, bne_self_eq_false, Bool.or_false]
    simp [TronFeeQuote.numbers, hall]
  unfold tronBudget tronFee
  simp only
  rw [if_neg (by rw [Bool.not_eq_true]; exact hchecks), ← hbandwidth]
  simp only [hprice, hcreate, hsystem, hrate, Option.getD_some]
  cases hl : p.feeLimitSun with
  | none => cases q.destinationAccountExists <;> rfl
  | some limit =>
    rw [hl] at hlimit
    simp only [hlimit limit rfl, canonicalUint_number (hlimit limit rfl), if_true,
      Option.getD_some]

theorem quotable_of_tronBudget {raw : Bytes} {p : Context} {q : TronFeeQuote}
    (h : tronBudget raw p q ≠ []) : Quotable raw p q := by
  unfold tronBudget at h
  simp only at h
  split at h
  case isTrue => exact absurd rfl h
  case isFalse hchecks =>
    simp only [Bool.or_eq_true, bne_iff_ne, Bool.not_eq_true', not_or, not_not, Bool.not_eq_false,
      List.all_eq_true] at hchecks
    obtain ⟨⟨⟨hversion,hnumbers⟩,hsigned⟩,hbandwidth⟩ := hchecks
    refine ⟨hversion,hnumbers,?_,hsigned,?_⟩
    · intro limit hlimit
      rw [hlimit] at h
      by_contra hcanonical
      simp [hcanonical] at h
    · rw [hbandwidth, hsigned]
      simp

theorem tronBudget_exact (raw : Bytes) (p : Context) (q : TronFeeQuote) :
    (tronBudget raw p q ≠ [] ↔ FeeQuoted raw p q) ∧
      (tronBudget raw p q ≠ [] → tronBudget raw p q = decimal (tronFee p q)) := by
  have hbudget (h : tronBudget raw p q ≠ []) :
      decimal (tronFee p q) = q.amountAtomic ∧ tronBudget raw p q = decimal (tronFee p q) := by
    have heq := tronBudget_quotable (quotable_of_tronBudget h)
    split at heq
    case isTrue hamount => exact ⟨beq_iff_eq.mp hamount,heq⟩
    case isFalse => exact absurd heq h
  refine ⟨⟨fun h => (quotable_of_tronBudget h).feeQuoted (hbudget h).1.symm,?_⟩,
    fun h => (hbudget h).2⟩
  intro h
  rw [tronBudget_quotable h.quotable, if_pos (beq_iff_eq.mpr h.amount.symm)]
  exact decimal_ne_nil _

end CoSigner.SigningPolicy
