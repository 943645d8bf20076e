import CoSigner.Lib.Json.Record

/-! Decimal texts of natural numbers: their digits, and that they are read back. -/
namespace CoSigner.Json

theorem digit_isDigit {c : Char} (h : c.isDigit = true) : isDigit c.toNat.toUInt8 = true := by
  simp only [Char.isDigit, Bool.and_eq_true, decide_eq_true_eq, ge_iff_le, UInt32.le_iff_toNat_le]
    at h
  have hlow : 48 ≤ c.toNat := h.1
  have hhigh : c.toNat ≤ 57 := h.2
  simp only [isDigit, Nat.toUInt8_eq, UInt8.toNat_ofNat', Bool.and_eq_true, decide_eq_true_eq]
  omega

theorem digit_toNat {c : Char} (h : c.isDigit = true) : c.toNat.toUInt8.toNat = c.toNat := by
  simp only [Char.isDigit, Bool.and_eq_true, decide_eq_true_eq, ge_iff_le, UInt32.le_iff_toNat_le]
    at h
  have hhigh : c.toNat ≤ 57 := h.2
  simp only [Nat.toUInt8_eq, UInt8.toNat_ofNat']
  omega

theorem toString_toList (n : Nat) : (toString n).toList = Nat.toDigits 10 n := Nat.toList_repr

theorem toString_digits (n : Nat) : (ascii (toString n)).all isDigit = true := by
  simp only [ascii, toString_toList, List.all_map, List.all_eq_true]
  intro c hc
  exact digit_isDigit (Nat.isDigit_of_mem_toDigits (by decide) (by decide) hc)

theorem toString_ne_nil (n : Nat) : ascii (toString n) ≠ [] := by
  simp [ascii]

theorem digitsValue_map {cs : List Char} (h : ∀ c ∈ cs, c.isDigit = true) (n : Nat) :
    (cs.map fun c => c.toNat.toUInt8).foldl (fun n b => 10 * n + (b.toNat - 0x30)) n =
      Nat.ofDigitChars 10 cs n := by
  induction cs generalizing n with
  | nil => rfl
  | cons c cs ih =>
    have hc : c.toNat.toUInt8.toNat = c.toNat := digit_toNat (h c List.mem_cons_self)
    simp only [List.map_cons, List.foldl_cons, hc]
    exact ih (fun d hd => h d (List.mem_cons_of_mem _ hd)) _

theorem digitsValue_toString (n : Nat) : digitsValue (ascii (toString n)) = n := by
  have hdigits : ∀ c ∈ Nat.toDigits 10 n, c.isDigit = true := fun c hc =>
    Nat.isDigit_of_mem_toDigits (by decide) (by decide) hc
  simp only [digitsValue, ascii, toString_toList, digitsValue_map hdigits]
  exact Nat.ofDigitChars_toDigits (by decide) (by decide)

theorem digitChar_byte : ∀ d < 10, d.digitChar.toNat.toUInt8 = (0x30 + d).toUInt8 := by
  decide

theorem toString_digit {d : Nat} (h : d < 10) : ascii (toString d) = [(0x30 + d).toUInt8] := by
  rw [ascii, toString_toList, Nat.toDigits_of_lt_base h, List.map_singleton, digitChar_byte d h]

theorem toString_append {n d : Nat} (hn : 0 < n) (hd : d < 10) :
    ascii (toString (10 * n + d)) = ascii (toString n) ++ [(0x30 + d).toUInt8] := by
  rw [← toString_digit hd]
  simp only [ascii, toString_toList, ← List.map_append]
  rw [Nat.toDigits_append_toDigits (by decide) hn hd]

theorem digit_byte {b : UInt8} (h : isDigit b = true) :
    (0x30 + (b.toNat - 0x30)).toUInt8 = b ∧ b.toNat - 0x30 < 10 := by
  simp only [isDigit, Bool.and_eq_true, decide_eq_true_eq] at h
  refine ⟨?_,by omega⟩
  rw [Nat.add_sub_cancel' h.1]
  simp

theorem toString_foldl {s : Bytes} (hs : ∀ b ∈ s, isDigit b = true) {n : Nat} (hn : 0 < n) :
    ascii (toString (s.foldl (fun n b => 10 * n + (b.toNat - 0x30)) n)) =
      ascii (toString n) ++ s := by
  induction s generalizing n with
  | nil => simp
  | cons b s ih =>
    obtain ⟨hbyte,hdigit⟩ := digit_byte (hs b List.mem_cons_self)
    rw [List.foldl_cons, ih (fun c hc => hs c (List.mem_cons_of_mem _ hc)) (by omega),
      toString_append hn hdigit, hbyte, List.append_assoc, List.singleton_append]

theorem Decimal.toString {s : Bytes} (h : Decimal s) : ascii (toString (digitsValue s)) = s := by
  cases s with
  | nil => exact absurd rfl h.nonempty
  | cons b t =>
    obtain ⟨hbyte,hdigit⟩ := digit_byte (h.digits b List.mem_cons_self)
    by_cases hzero : b.toNat - 0x30 = 0
    · rw [hzero] at hbyte
      rw [h.leading (congrArg some hbyte.symm)]
      decide
    · rw [digitsValue, List.foldl_cons,
        toString_foldl (fun c hc => h.digits c (List.mem_cons_of_mem _ hc)) (by omega),
        Nat.mul_zero, Nat.zero_add, toString_digit hdigit, hbyte, List.singleton_append]

theorem decimal_toString (n : Nat) : Decimal (ascii (ToString.toString n)) := by
  refine ⟨toString_ne_nil n,List.all_eq_true.mp (toString_digits n),?_⟩
  induction n using Nat.strongRecOn with
  | ind n ih =>
    by_cases hn : n < 10
    · rw [toString_digit hn]
      simp
    · have hdiv : 10 * (n / 10) + n % 10 = n := Nat.div_add_mod n 10
      have hrest := ih (n / 10) (by omega)
      rw [← hdiv, toString_append (by omega) (Nat.mod_lt _ (by decide)),
        List.head?_append_of_ne_nil _ (toString_ne_nil _)]
      intro hhead
      have hvalue := digitsValue_toString (n / 10)
      rw [hrest hhead] at hvalue
      have : digitsValue [0x30] = 0 := by decide
      omega

end CoSigner.Json
