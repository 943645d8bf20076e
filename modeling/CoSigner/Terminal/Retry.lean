import Mathlib.Algebra.Order.Ring.Int
import Mathlib.Algebra.Order.Ring.Pow
import Mathlib.Order.Iterate
import Mathlib.Tactic.NormNum

/-! The retry delays of terminal results (`terminal/retry.go`): doubling up to a maximum in
64-bit durations, and the attempt counter that stops at its largest value. -/
namespace CoSigner.Terminal

/-- `cappedExponential`; durations are counted in nanoseconds. -/
def cappedExponential (initial maximum : Int64) (attempt : UInt64) : Int64 :=
  if attempt ≤ 1 then initial
  else
    let shift := attempt - 1
    if 63 ≤ shift ∨ maximum / ((1 : UInt64) <<< shift).toInt64 < initial then maximum
    else
      let delay := initial * ((1 : UInt64) <<< shift).toInt64
      if maximum < delay then maximum else delay

def nextAttempt (attempt : UInt64) : UInt64 :=
  if attempt = UInt64.ofNat (2 ^ 64 - 1) then attempt else attempt + 1

/-- The counter of the publisher's loop. -/
def attempts (k : Nat) : UInt64 := nextAttempt^[k] 1

/-- An `int64` result, if it is one. -/
def int64 (x : Int) : Option Int := if -2 ^ 63 ≤ x ∧ x < 2 ^ 63 then some x else none

/-- `cappedExponential` over the integers, without a result where an operation of the source
leaves its type. -/
def cappedExponentialChecked (initial maximum : Int) (attempt : Nat) : Option Int :=
  if attempt ≤ 1 then some initial
  else
    let shift := attempt - 1
    if 63 ≤ shift then some maximum
    else do
      let power ← int64 (2 ^ shift)
      let quotient ← int64 (maximum.tdiv power)
      if quotient < initial then some maximum
      else do
        let delay ← int64 (initial * power)
        some (if maximum < delay then maximum else delay)

/-- The capped doubling. -/
def doubled (initial maximum : Int) (attempt : Nat) : Int :=
  min maximum (initial * 2 ^ (max attempt 1 - 1))

theorem doubled_mono {initial : Int} (h : 0 < initial) (maximum : Int) {m n : Nat} (hmn : m ≤ n) :
    doubled initial maximum m ≤ doubled initial maximum n := by
  apply min_le_min_left
  apply mul_le_mul_of_nonneg_left _ (Int.le_of_lt h)
  exact pow_le_pow_right₀ (by decide) (by omega)

theorem int64_fits {x : Int} (h : -2 ^ 63 ≤ x ∧ x < 2 ^ 63) : int64 x = some x := if_pos h

theorem int64_some {x y : Int} (h : int64 x = some y) : y = x ∧ x.bmod (2 ^ 64) = x := by
  unfold int64 at h
  split at h
  · rename_i hx
    refine ⟨(Option.some.inj h).symm,?_⟩
    simp only [Int.bmod]
    omega
  · cases h

theorem toInt_power {shift : UInt64} (h : shift.toNat < 63) :
    ((1 : UInt64) <<< shift).toInt64.toInt = 2 ^ shift.toNat := by
  have hpow : 2 ^ shift.toNat < 2 ^ 63 := Nat.pow_lt_pow_right (by decide) h
  have hnat : ((1 : UInt64) <<< shift).toNat = 2 ^ shift.toNat := by
    rw [UInt64.toNat_shiftLeft, Nat.mod_eq_of_lt (show shift.toNat < 64 by omega),
      UInt64.toNat_one, Nat.one_shiftLeft, Nat.mod_eq_of_lt (by omega)]
  have hsmall : 2 * ((1 : UInt64) <<< shift).toInt64.toBitVec.toNat < 2 ^ 64 := by
    rw [show ((1 : UInt64) <<< shift).toInt64.toBitVec.toNat = 2 ^ shift.toNat from hnat]
    omega
  calc ((1 : UInt64) <<< shift).toInt64.toInt
      = (((1 : UInt64) <<< shift).toNat : Int) := BitVec.toInt_eq_toNat_of_lt hsmall
    _ = 2 ^ shift.toNat := by rw [hnat, Nat.cast_pow, Nat.cast_ofNat]

theorem cappedExponential_checked {initial maximum : Int64} {attempt : UInt64} {x : Int}
    (h : cappedExponentialChecked initial.toInt maximum.toInt attempt.toNat = some x) :
    (cappedExponential initial maximum attempt).toInt = x := by
  have hone : attempt ≤ 1 ↔ attempt.toNat ≤ 1 := UInt64.le_iff_toNat_le
  unfold cappedExponentialChecked at h
  unfold cappedExponential
  by_cases hattempt : attempt.toNat ≤ 1
  · rw [if_pos hattempt] at h
    rw [if_pos (hone.mpr hattempt)]
    exact Option.some.inj h
  have hshift : (attempt - 1).toNat = attempt.toNat - 1 :=
    UInt64.toNat_sub_of_le _ _ (UInt64.le_iff_toNat_le.mpr (by simp; omega))
  have hlarge : (63 : UInt64) ≤ attempt - 1 ↔ 63 ≤ attempt.toNat - 1 := by
    rw [UInt64.le_iff_toNat_le, hshift]
    rfl
  rw [if_neg hattempt] at h
  rw [if_neg (mt hone.mp hattempt)]
  dsimp only at h ⊢
  by_cases hbound : 63 ≤ attempt.toNat - 1
  · rw [if_pos hbound] at h
    rw [if_pos (.inl (hlarge.mpr hbound))]
    exact Option.some.inj h
  · rw [if_neg hbound] at h
    have hpower := toInt_power (show (attempt - 1).toNat < 63 by omega)
    rw [hshift] at hpower
    obtain ⟨power,hp,h⟩ := Option.bind_eq_some_iff.mp h
    obtain ⟨quotient,hq,h⟩ := Option.bind_eq_some_iff.mp h
    obtain ⟨rfl,-⟩ := int64_some hp
    obtain ⟨rfl,hwrap⟩ := int64_some hq
    have hless : maximum / ((1 : UInt64) <<< (attempt - 1)).toInt64 < initial ↔
        maximum.toInt.tdiv (2 ^ (attempt.toNat - 1)) < initial.toInt := by
      rw [Int64.lt_iff_toInt_lt, Int64.toInt_div, hpower, hwrap]
    by_cases hover : maximum.toInt.tdiv (2 ^ (attempt.toNat - 1)) < initial.toInt
    · rw [if_pos hover] at h
      rw [if_pos (.inr (hless.mpr hover))]
      exact Option.some.inj h
    · rw [if_neg hover] at h
      rw [if_neg (not_or.mpr ⟨mt hlarge.mp hbound,mt hless.mp hover⟩)]
      obtain ⟨delay,hd,h⟩ := Option.bind_eq_some_iff.mp h
      obtain ⟨rfl,hwrap⟩ := int64_some hd
      have hdelay : (initial * ((1 : UInt64) <<< (attempt - 1)).toInt64).toInt =
          initial.toInt * 2 ^ (attempt.toNat - 1) := by
        rw [Int64.toInt_mul, hpower, hwrap]
      rw [← Option.some.inj h, ← hdelay]
      simp only [← Int64.lt_iff_toInt_lt]
      split <;> rfl

theorem cappedExponentialChecked_doubled {initial maximum : Int} (hpos : 0 < initial)
    (hle : initial ≤ maximum) (hmax : maximum < 2 ^ 63) (attempt : Nat) :
    cappedExponentialChecked initial maximum attempt = some (doubled initial maximum attempt) := by
  unfold cappedExponentialChecked doubled
  by_cases hattempt : attempt ≤ 1
  · rw [if_pos hattempt, show max attempt 1 - 1 = 0 by omega, pow_zero, mul_one, min_eq_right hle]
  rw [if_neg hattempt, show max attempt 1 - 1 = attempt - 1 by omega]
  dsimp only
  generalize attempt - 1 = shift
  have hpower : (0 : Int) < 2 ^ shift := by positivity
  by_cases hbound : 63 ≤ shift
  · rw [if_pos hbound, min_eq_left]
    have hbig : (2 : Int) ^ 63 ≤ 2 ^ shift := pow_le_pow_right₀ (by decide) hbound
    calc maximum ≤ 1 * 2 ^ shift := by omega
      _ ≤ initial * 2 ^ shift := Int.mul_le_mul_of_nonneg_right hpos (Int.le_of_lt hpower)
  · rw [if_neg hbound]
    have hsmall : (2 : Int) ^ shift < 2 ^ 63 := pow_lt_pow_right₀ (by decide) (by omega)
    have hquotient : maximum.tdiv (2 ^ shift) = maximum / 2 ^ shift :=
      Int.tdiv_eq_ediv_of_nonneg (by omega)
    have hnonneg : 0 ≤ maximum / 2 ^ shift := Int.ediv_nonneg (by omega) (Int.le_of_lt hpower)
    have hself : maximum / 2 ^ shift ≤ maximum := Int.ediv_le_self _ (by omega)
    rw [int64_fits ⟨by omega,hsmall⟩, Option.bind_eq_bind, Option.bind_some, hquotient,
      int64_fits ⟨by omega,by omega⟩, Option.bind_some]
    by_cases hover : maximum / 2 ^ shift < initial
    · rw [if_pos hover, min_eq_left (Int.le_of_lt ((Int.ediv_lt_iff_lt_mul hpower).mp hover))]
    · have hdelay : initial * 2 ^ shift ≤ maximum :=
        (Int.le_ediv_iff_mul_le hpower).mp (Int.not_lt.mp hover)
      have hpositive : 0 < initial * 2 ^ shift := Int.mul_pos hpos hpower
      rw [if_neg hover, int64_fits ⟨by omega,by omega⟩, Option.bind_some,
        if_neg (Int.not_lt.mpr hdelay), min_eq_right hdelay]

theorem nextAttempt_le (attempt : UInt64) : attempt.toNat ≤ (nextAttempt attempt).toNat := by
  unfold nextAttempt
  split
  · exact Nat.le_refl _
  · rename_i hmax
    have hlt := attempt.toNat_lt
    have hne : attempt.toNat ≠ 2 ^ 64 - 1 := by
      intro heq
      exact hmax (UInt64.toNat_inj.mp (by rw [heq]; rfl))
    rw [UInt64.toNat_add, UInt64.toNat_one, Nat.mod_eq_of_lt (by omega)]
    exact Nat.le_succ _

theorem attempts_mono : Monotone fun k => (attempts k).toNat := by
  refine monotone_nat_of_le_succ fun k => ?_
  rw [attempts, attempts, Function.iterate_succ_apply']
  exact nextAttempt_le _

section
variable {initial maximum : Int64} (hpos : 0 < initial) (hle : initial ≤ maximum)
include hpos hle

theorem cappedExponential_toInt (attempt : UInt64) :
    cappedExponentialChecked initial.toInt maximum.toInt attempt.toNat =
        some (doubled initial.toInt maximum.toInt attempt.toNat) ∧
      (cappedExponential initial maximum attempt).toInt =
        doubled initial.toInt maximum.toInt attempt.toNat := by
  have hchecked := cappedExponentialChecked_doubled (Int64.lt_iff_toInt_lt.mp hpos)
    (Int64.le_iff_toInt_le.mp hle) maximum.toInt_lt attempt.toNat
  exact ⟨hchecked,cappedExponential_checked hchecked⟩

/-- The delay is the doubling up to the maximum, no operation overflows, and along the counter
of the publisher it never falls and stays at the maximum. -/
theorem retry_delay_doubles :
    (∀ attempt : UInt64,
      cappedExponentialChecked initial.toInt maximum.toInt attempt.toNat =
        some (min maximum.toInt (initial.toInt * 2 ^ (max attempt.toNat 1 - 1))) ∧
      (cappedExponential initial maximum attempt).toInt =
        min maximum.toInt (initial.toInt * 2 ^ (max attempt.toNat 1 - 1))) ∧
    (∀ a b : UInt64, a ≤ b →
      cappedExponential initial maximum a ≤ cappedExponential initial maximum b) ∧
    ∀ k, cappedExponential initial maximum (attempts k) = maximum →
      ∀ j, k ≤ j → cappedExponential initial maximum (attempts j) = maximum := by
  have hmono (a b : UInt64) (hab : a.toNat ≤ b.toNat) :
      cappedExponential initial maximum a ≤ cappedExponential initial maximum b := by
    rw [Int64.le_iff_toInt_le, (cappedExponential_toInt hpos hle a).2,
      (cappedExponential_toInt hpos hle b).2]
    exact doubled_mono (Int64.lt_iff_toInt_lt.mp hpos) _ hab
  refine ⟨cappedExponential_toInt hpos hle,fun a b hab => hmono a b (UInt64.le_iff_toNat_le.mp hab),
    fun k hk j hj => Int64.le_antisymm ?_ ?_⟩
  · rw [Int64.le_iff_toInt_le, (cappedExponential_toInt hpos hle _).2]
    exact min_le_left _ _
  · have hdelay := hmono (attempts k) (attempts j) (attempts_mono hj)
    rwa [hk] at hdelay

end

/-- The transient delays of `DefaultRetryPolicy`. -/
def transientInitial : Int64 := 250000000

def transientMaximum : Int64 := 30000000000

theorem transient_delay_doubles :
    cappedExponential transientInitial transientMaximum 7 = 16000000000 ∧
    (∀ a b : UInt64, a ≤ b → cappedExponential transientInitial transientMaximum a ≤
      cappedExponential transientInitial transientMaximum b) ∧
    ∀ j, 7 ≤ j → cappedExponential transientInitial transientMaximum (attempts j) =
      transientMaximum := by
  have hpos : 0 < transientInitial := by decide
  have hle : transientInitial ≤ transientMaximum := by decide
  have hseventh : cappedExponential transientInitial transientMaximum (attempts 7) =
    transientMaximum := by decide +kernel
  obtain ⟨-,hmono,hstays⟩ := retry_delay_doubles hpos hle
  exact ⟨by decide +kernel,hmono,hstays 7 hseventh⟩

end CoSigner.Terminal
