import PeerWire.Codec.Decoder

/-! # Amounts and fee rates

Amounts are counted in satoshis or in thousandths of them, fee rates in satoshis for a thousand
units of weight. They travel as they are; results that would not fit in 64 bits stop at the
largest number. -/

namespace PeerWire

/-- An amount in thousandths of a satoshi. -/
structure MilliSatoshi where
  /-- The number of thousandths. -/
  value : UInt64
  deriving DecidableEq, Repr

/-- An amount in satoshis. -/
structure Satoshi where
  /-- The number of satoshis. -/
  value : UInt64
  deriving DecidableEq, Repr

/-- A fee rate in satoshis for a thousand units of weight. -/
structure FeeRate where
  /-- The number of satoshis. -/
  value : UInt32
  deriving DecidableEq, Repr

/-- The largest 64-bit number: `UInt64.size - 1`. -/
def maxUInt64 : UInt64 := UInt64.ofNat (UInt64.size - 1)

/-- The product of two numbers, or `maxUInt64` if it would not fit. -/
def saturatingMul (a b : UInt64) : UInt64 :=
  if a.toNat * b.toNat < UInt64.size then a * b else maxUInt64

namespace MilliSatoshi

/-- The whole satoshis in an amount: `amount.value / 1000`. -/
def toSatoshi (amount : MilliSatoshi) : Satoshi := ⟨amount.value / 1000⟩

/-- An amount with its unit. -/
def toText (amount : MilliSatoshi) : String := s!"{amount.value.toNat} msat"

end MilliSatoshi

namespace Satoshi

/-- The same amount in thousandths: `amount.value * 1000`, or `maxUInt64` if that would not fit. -/
def toMilliSatoshi (amount : Satoshi) : MilliSatoshi := ⟨saturatingMul amount.value 1000⟩

/-- An amount with its unit. -/
def toText (amount : Satoshi) : String := s!"{amount.value.toNat} sat"

end Satoshi

namespace FeeRate

/-- The fee for a weight, rounded down: `rate * weight / 1000`, where the product stops at the
largest number. -/
def fee (rate : FeeRate) (weight : UInt64) : Satoshi :=
  ⟨saturatingMul rate.value.toUInt64 weight / 1000⟩

/-- A fee rate with its unit. -/
def toText (rate : FeeRate) : String := s!"{rate.value.toNat} sat/kw"

end FeeRate

end PeerWire
