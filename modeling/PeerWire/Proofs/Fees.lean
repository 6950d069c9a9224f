import Mathlib.Order.MinMax
import PeerWire.Amount

/-! # Fees

A product of two numbers stops at the largest number (`toNat_saturatingMul`). A fee is a thousandth
of such a product, and dividing keeps the order, so that the fee is the exact one, rounded down, as
long as that is not more than a thousandth of the largest number. There it stops, although larger
fees can be said (`FeeRate.fee_exact_until_product_stops`). -/

namespace PeerWire

/-- A product that stops at the largest number is the exact one, `a.toNat * b.toNat`, or that number
if it is less. -/
theorem toNat_saturatingMul (a b : UInt64) :
    (saturatingMul a b).toNat = min (a.toNat * b.toNat) (UInt64.size - 1) := by
  unfold saturatingMul
  by_cases fits : a.toNat * b.toNat < UInt64.size
  · rw [if_pos fits, UInt64.toNat_mul, Nat.min_eq_left (Nat.le_sub_one_of_lt fits)]
    exact Nat.mod_eq_of_lt fits
  · have large : UInt64.size - 1 ≤ a.toNat * b.toNat :=
      Nat.le_trans (Nat.sub_le _ 1) (Nat.le_of_not_lt fits)
    rw [if_neg fits, Nat.min_eq_right large]
    rfl

namespace FeeRate

variable {rate : FeeRate} {weight : UInt64}

/-- The fee for a weight among all numbers, rounded down: `rate.value.toNat * weight.toNat /
1000`. -/
def exactFee (rate : FeeRate) (weight : UInt64) : Nat := rate.value.toNat * weight.toNat / 1000

/-- The exact fee if 64 bits can say it, and otherwise the largest number that they can. -/
def exactFeeOrLargest (rate : FeeRate) (weight : UInt64) : Nat :=
  if rate.exactFee weight < UInt64.size then rate.exactFee weight else UInt64.size - 1

/-- A fee is the exact one, or `(UInt64.size - 1) / 1000` if that is less. -/
theorem toNat_fee (rate : FeeRate) (weight : UInt64) :
    (rate.fee weight).value.toNat = min (rate.exactFee weight) ((UInt64.size - 1) / 1000) := by
  have rounding : Monotone fun product : Nat => product / 1000 :=
    fun _ _ le => Nat.div_le_div_right le
  show (saturatingMul rate.value.toUInt64 weight / 1000).toNat = _
  rw [UInt64.toNat_div, toNat_saturatingMul, UInt32.toNat_toUInt64, exactFee]
  exact Monotone.map_min rounding

/-- A fee is `rate.exactFee weight` where that is not too large. -/
theorem toNat_fee_eq_exactFee_iff :
    (rate.fee weight).value.toNat = rate.exactFee weight ↔
      rate.exactFee weight ≤ 18446744073709551 := by
  rw [toNat_fee]
  exact min_eq_left_iff

/-- A fee is `rate.exactFeeOrLargest weight` where the exact one is not too large: it never is the
largest number, which should stand for fees that 64 bits cannot say. -/
theorem toNat_fee_eq_exactFeeOrLargest_iff :
    (rate.fee weight).value.toNat = rate.exactFeeOrLargest weight ↔
      rate.exactFee weight ≤ 18446744073709551 := by
  rw [exactFeeOrLargest]
  split
  · exact toNat_fee_eq_exactFee_iff
  · rename_i large
    rw [toNat_fee]
    unfold UInt64.size at large ⊢
    omega

/-- **A fee is exact until its product stops.** It is `rate.exactFee weight`, rounded down, or the
largest number divided by 1000 if that is less. So it is the exact fee as long as this is at most
`18446744073709551`, and from there on it is neither the exact fee, although 64 bits could say it up
to a thousand times as much, nor the largest number. -/
theorem fee_exact_until_product_stops (rate : FeeRate) (weight : UInt64) :
    (rate.fee weight).value.toNat = min (rate.exactFee weight) 18446744073709551 ∧
      ((rate.fee weight).value.toNat = rate.exactFee weight ↔
        rate.exactFee weight ≤ 18446744073709551) ∧
      ((rate.fee weight).value.toNat = rate.exactFeeOrLargest weight ↔
        rate.exactFee weight ≤ 18446744073709551) :=
  ⟨toNat_fee rate weight, toNat_fee_eq_exactFee_iff, toNat_fee_eq_exactFeeOrLargest_iff⟩

/-- At a rate of one satoshi for each unit, the fee for the weight at which the product first stops
is one less than the weight. At the greatest rate and weight, where the exact fee has no 64 bits to
be said in, it is the same number, and not the largest one. -/
theorem fee_below_exact_fee :
    (⟨1000⟩ : FeeRate).exactFeeOrLargest 18446744073709552 = 18446744073709552 ∧
      ((⟨1000⟩ : FeeRate).fee 18446744073709552).value.toNat = 18446744073709551 ∧
      (⟨4294967295⟩ : FeeRate).exactFeeOrLargest 18446744073709551615 = 18446744073709551615 ∧
      ((⟨4294967295⟩ : FeeRate).fee 18446744073709551615).value.toNat = 18446744073709551 ∧
      ¬∀ (rate : FeeRate) (weight : UInt64),
        (rate.fee weight).value.toNat = rate.exactFeeOrLargest weight := by
  refine ⟨by decide, by decide, by decide, by decide, fun exact => ?_⟩
  exact absurd (exact ⟨1000⟩ 18446744073709552) (by decide)

end FeeRate

end PeerWire
