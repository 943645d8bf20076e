import CoSigner.SigningPolicy.Authorization
import Mathlib.Computability.RegularExpressions

/-! Decimal strings (`signingpolicy/numbers.go`, `uintPattern`): the scanner, the regular
expression, printing and comparing, for numbers of any size. -/
namespace CoSigner.SigningPolicy
open Json Contract

/-- The decimal text of a natural number, without leading zeros. -/
def CanonicalDecimal (v : Bytes) : Prop := ∃ n : Nat, v = decimal n

theorem decimal_nat (n : Nat) : decimal n = ascii (toString n) := by
  simp [decimal, intLiteral, show ¬((n : Int) < 0) by omega]

theorem canonicalUint_decimal {v : Bytes} : canonicalUint v = true ↔ Decimal v := by
  by_cases hzero : v = [0x30]
  · subst hzero
    have htext : ascii (toString 0) = [0x30] := by decide
    exact iff_of_true (by decide) (htext ▸ decimal_toString 0)
  · cases v with
    | nil => exact iff_of_false (by decide) fun h => h.nonempty rfl
    | cons b t =>
      simp only [canonicalUint, beq_iff_eq, hzero, if_false, Bool.and_eq_true, decide_eq_true_eq,
        List.all_eq_true]
      constructor
      · rintro ⟨⟨hlow,hhigh⟩,ht⟩
        refine ⟨by simp,?_,?_⟩
        · intro c hc
          cases hc with
          | head =>
            simp only [isDigit, Bool.and_eq_true, decide_eq_true_eq]
            omega
          | tail _ hc => exact ht c hc
        · intro hb
          simp only [List.head?_cons, Option.some.injEq] at hb
          subst hb
          exact absurd hlow (by decide)
      · intro h
        have hb := h.digits b List.mem_cons_self
        simp only [isDigit, Bool.and_eq_true, decide_eq_true_eq] at hb
        have hlead : b.toNat ≠ 0x30 := by
          intro heq
          have hb0 : b = 0x30 := UInt8.toNat_inj.mp heq
          exact hzero (h.leading (by rw [hb0]; rfl))
        exact ⟨⟨by omega,hb.2⟩,fun c hc => h.digits c (List.mem_cons_of_mem _ hc)⟩

theorem canonicalUint_iff {v : Bytes} : canonicalUint v = true ↔ CanonicalDecimal v := by
  rw [canonicalUint_decimal]
  constructor
  · intro h
    exact ⟨digitsValue v,by rw [decimal_nat, h.toString]⟩
  · rintro ⟨n,rfl⟩
    rw [decimal_nat]
    exact decimal_toString n

theorem canonicalUint_number {v : Bytes} (h : canonicalUint v = true) :
    number v = some (digitsValue v : Int) := by
  have hv := canonicalUint_decimal.mp h
  exact number_digits hv.nonempty (List.all_eq_true.mpr hv.digits)

/-! The regular expression. -/

/-- A character class. -/
def oneOf (bytes : List UInt8) : RegularExpression UInt8 :=
  bytes.foldr (fun b e => .char b + e) 0

theorem mem_oneOf {bytes s : List UInt8} : s ∈ (oneOf bytes).matches' ↔ ∃ b ∈ bytes, s = [b] := by
  induction bytes with
  | nil => exact iff_of_false (Language.notMem_zero _) (by simp)
  | cons b bytes ih =>
    rw [oneOf, List.foldr_cons, ← oneOf, RegularExpression.matches'_add,
      RegularExpression.matches'_char, Language.mem_add, ih, List.exists_mem_cons_iff]
    exact or_congr Iff.rfl Iff.rfl

theorem mem_star_oneOf {bytes s : List UInt8} :
    s ∈ (oneOf bytes).star.matches' ↔ ∀ b ∈ s, b ∈ bytes := by
  rw [RegularExpression.matches'_star, Language.mem_kstar]
  constructor
  · rintro ⟨parts,rfl,hparts⟩ b hb
    obtain ⟨part,hpart,hb⟩ := List.mem_flatten.mp hb
    obtain ⟨c,hc,rfl⟩ := mem_oneOf.mp (hparts part hpart)
    exact List.mem_singleton.mp hb ▸ hc
  · intro h
    refine ⟨s.map fun b => [b],?_,fun part hpart => ?_⟩
    · rw [← List.flatMap_def, List.flatMap_singleton']
    · obtain ⟨b,hb,rfl⟩ := List.mem_map.mp hpart
      exact mem_oneOf.mpr ⟨b,h b hb,rfl⟩

/-- `[1-9]`. -/
def nonzeroDigits : List UInt8 := ascii "123456789"

/-- `0|[1-9][0-9]*`. -/
def uintExpression : RegularExpression UInt8 :=
  .char 0x30 + oneOf nonzeroDigits * (oneOf (0x30 :: nonzeroDigits)).star

theorem mem_digits {b : UInt8} : b ∈ 0x30 :: nonzeroDigits ↔ isDigit b = true := by
  have hall : ∀ n < 256, UInt8.ofNat n ∈ 0x30 :: nonzeroDigits ↔ isDigit (UInt8.ofNat n) = true := by
    decide +kernel
  simpa using hall b.toNat b.toNat_lt

theorem mem_nonzeroDigits {b : UInt8} :
    b ∈ nonzeroDigits ↔ 0x31 ≤ b.toNat ∧ b.toNat ≤ 0x39 := by
  have hall : ∀ n < 256, UInt8.ofNat n ∈ nonzeroDigits ↔
      0x31 ≤ (UInt8.ofNat n).toNat ∧ (UInt8.ofNat n).toNat ≤ 0x39 := by
    decide +kernel
  simpa using hall b.toNat b.toNat_lt

theorem canonicalUint_matches {v : Bytes} :
    canonicalUint v = true ↔ v ∈ uintExpression.matches' := by
  rw [uintExpression, RegularExpression.matches'_add, RegularExpression.matches'_char,
    RegularExpression.matches'_mul, Language.mem_add, Language.mem_mul]
  constructor
  · intro h
    by_cases hzero : v = [0x30]
    · exact .inl hzero
    · cases v with
      | nil => cases h
      | cons b t =>
        simp only [canonicalUint, beq_iff_eq, hzero, if_false, Bool.and_eq_true,
          decide_eq_true_eq, List.all_eq_true] at h
        refine .inr ⟨[b],mem_oneOf.mpr ⟨b,mem_nonzeroDigits.mpr h.1,rfl⟩,t,?_,rfl⟩
        exact mem_star_oneOf.mpr fun c hc => mem_digits.mpr (h.2 c hc)
  · rintro (hzero | ⟨_,hb,t,ht,rfl⟩)
    · rw [show v = [0x30] from hzero]
      rfl
    · obtain ⟨b,hdigit,rfl⟩ := mem_oneOf.mp hb
      obtain ⟨hlow,hhigh⟩ := mem_nonzeroDigits.mp hdigit
      have hzero : b :: t ≠ [0x30] := by
        intro heq
        rw [(List.cons.inj heq).1] at hlow
        exact absurd hlow (by decide)
      simp only [List.singleton_append, canonicalUint, beq_iff_eq, hzero, if_false,
        Bool.and_eq_true, decide_eq_true_eq, List.all_eq_true]
      exact ⟨⟨hlow,hhigh⟩,fun c hc => mem_digits.mp (mem_star_oneOf.mp ht c hc)⟩

theorem decimal_inj {m n : Nat} : decimal m = decimal n ↔ m = n := by
  constructor
  · intro h
    have hnumber := congrArg number h
    rw [number_decimal_nat, number_decimal_nat] at hnumber
    exact Int.ofNat_inj.mp (Option.some.inj hnumber)
  · intro h
    rw [h]

theorem compareUint_decimal (m n : Nat) : compareUint (decimal m) (decimal n) =
    if m < n then -1 else if n < m then 1 else 0 := by
  rw [compareUint, number_decimal_nat, number_decimal_nat]
  simp only [Int.ofNat_lt]

/-- The strings that the scanner and the regular expression accept are the texts of the natural
numbers; reading and comparing them is reading and comparing the numbers. -/
theorem decimal_strings_are_numbers :
    (∀ v : Bytes, (canonicalUint v = true ↔ v ∈ uintExpression.matches') ∧
      (uintPattern v = true ↔ v ∈ uintExpression.matches') ∧
      (v ∈ uintExpression.matches' ↔ ∃ n : Nat, v = decimal n)) ∧
    (∀ n : Nat, number (decimal n) = some (n : Int)) ∧
    ∀ m n : Nat, (decimal m = decimal n ↔ m = n) ∧
      (compareUint (decimal m) (decimal n) < 0 ↔ m < n) ∧
      (compareUint (decimal m) (decimal n) = 0 ↔ m = n) ∧
      (0 < compareUint (decimal m) (decimal n) ↔ n < m) := by
  refine ⟨fun v => ⟨canonicalUint_matches,?_,?_⟩,number_decimal_nat,
    fun m n => ⟨decimal_inj,?_⟩⟩
  · rw [uintPattern_decimal, ← canonicalUint_matches, canonicalUint_decimal]
  · rw [← canonicalUint_matches, canonicalUint_iff]
    rfl
  · rw [compareUint_decimal]
    split_ifs <;> simp <;> omega

end CoSigner.SigningPolicy
