import CoSigner.Contract.Approval
import Mathlib.Data.List.Basic

/-! Hexadecimal and decimal texts: what they consist of, and that they are read back. -/
namespace CoSigner.Contract
open Json

theorem hexDigit_hex : ∀ n < 16, hexDigits [hexDigit n] = true := by decide

theorem hexEncode_hexDigits (s : Bytes) : hexDigits (hexEncode s) = true := by
  induction s with
  | nil => rfl
  | cons b t ih =>
    have hb := b.toNat_lt
    have hhigh := hexDigit_hex (b.toNat / 16) (by omega)
    have hlow := hexDigit_hex (b.toNat % 16) (by omega)
    simp only [hexDigits, List.all_cons, List.all_nil, Bool.and_true] at hhigh hlow ih
    simp only [hexDigits, hexEncode, List.flatMap_cons, List.cons_append, List.nil_append,
      List.all_cons, hhigh, hlow, Bool.true_and]
    exact ih

theorem hexEncode_length (s : Bytes) : (hexEncode s).length = 2 * s.length := by
  induction s with
  | nil => rfl
  | cons b t ih =>
    have hcons : hexEncode (b :: t) =
        hexDigit (b.toNat / 16) :: hexDigit (b.toNat % 16) :: hexEncode t := rfl
    simp only [hcons, List.length_cons, ih]
    omega

theorem hexDecode_hexEncode (s : Bytes) : hexDecode (hexEncode s) = some s := by
  induction s with
  | nil => rfl
  | cons b t ih =>
    have hb := b.toNat_lt
    have hcons : hexEncode (b :: t) =
        hexDigit (b.toNat / 16) :: hexDigit (b.toNat % 16) :: hexEncode t := rfl
    have hsplit : 16 * (b.toNat / 16) + b.toNat % 16 = b.toNat := Nat.div_add_mod _ _
    simp only [hcons, hexDecode, hexVal_hexDigit _ (show b.toNat / 16 < 16 by omega),
      hexVal_hexDigit _ (show b.toNat % 16 < 16 by omega), ih, Option.bind_eq_bind,
      Option.bind_some, hsplit]
    simp

theorem hexEncode_injective {s t : Bytes} (h : hexEncode s = hexEncode t) : s = t := by
  have hdecode := congrArg hexDecode h
  simpa [hexDecode_hexEncode] using hdecode

theorem hexDigits_ascii {s : Bytes} (h : hexDigits s = true) : ∀ b ∈ s, b.toNat < 0x80 := by
  intro b hb
  have hdigit := List.all_eq_true.mp h b hb
  simp only [isDigit, Bool.or_eq_true, Bool.and_eq_true, decide_eq_true_eq] at hdigit
  omega

theorem notMem_hexEncode {b : UInt8} (hb : hexDigits [b] = false) (s : Bytes) :
    b ∉ hexEncode s := by
  intro hmem
  have hall := List.all_eq_true.mp (hexEncode_hexDigits s) b hmem
  simp only [hexDigits, List.all_cons, List.all_nil, Bool.and_true] at hb
  rw [hall] at hb
  cases hb

theorem uintPattern_decimal {v : Bytes} : uintPattern v = true ↔ Decimal v := by
  simp only [uintPattern, Bool.or_eq_true, Bool.and_eq_true, beq_iff_eq, Bool.not_eq_true',
    List.isEmpty_eq_false_iff, List.all_eq_true, bne_iff_ne]
  constructor
  · rintro (rfl | ⟨⟨hne,hdigits⟩,hhead⟩)
    · exact .single rfl
    · exact ⟨hne,hdigits,fun h => absurd h hhead⟩
  · intro h
    by_cases hhead : v.head? = some 0x30
    · exact .inl (h.leading hhead)
    · exact .inr ⟨⟨h.nonempty,h.digits⟩,hhead⟩

end CoSigner.Contract
