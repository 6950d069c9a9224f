import PeerWire.Proofs.FeatureSets
import PeerWire.Sample.Messages

/-! # What is drawn

A draw *gives* a property if its value has it for every generator, so nothing is asked of the words
that come out of it. A number drawn from a range is in the range, also when the attempts are used
up; hence locations have room in ids, keys start with 2 or 3, and offsets do not wrap. -/

namespace PeerWire

namespace Randomness.Draw

variable {α β : Type} {draw : Draw α} {next : α → Draw β} {holds : α → Prop}
  {result : β → Prop}

/-! ## Properties of draws -/

/-- The value has a property, whatever the generator: `holds (draw.value generator)`. -/
def Gives (draw : Draw α) (holds : α → Prop) : Prop := ∀ generator, holds (draw.value generator)

/-- What is drawn after a value is drawn from the generator that its draw leaves behind. -/
theorem bind_apply (draw : Draw α) (next : α → Draw β) (generator : Generator) :
    (draw >>= next) generator = next (draw generator).1 (draw generator).2 := rfl

/-- A value that is not drawn. -/
theorem Gives.pure {value : α} (holding : holds value) : Gives (pure value) holds :=
  fun _ => holding

/-- What is drawn after a value, `draw >>= next`, may count on what the value has. -/
theorem Gives.bind (first : Gives draw holds)
    (later : ∀ value, holds value → Gives (next value) result) : Gives (draw >>= next) result :=
  fun generator => later _ (first generator) _

/-- What is drawn after any value. -/
theorem Gives.after (later : ∀ value, Gives (next value) result) : Gives (draw >>= next) result :=
  fun _ => later _ _

/-! ## Ranges -/

/-- A number below `range`, from draws of `width` bits: a product with the range loses as many. -/
theorem gives_below {draw : Draw Nat} {width range : Nat} (positive : 0 < range)
    (short : Gives draw (· < 2 ^ width)) (zone attempts : Nat) :
    Gives (below draw width range zone attempts) (· < range) := by
  induction attempts with
  | zero => exact Gives.pure positive
  | succ attempts ih =>
      rw [below]
      refine short.bind fun word small => ?_
      -- A word that is taken is scaled down to the range; any other is drawn again.
      have high : (word * range) >>> width < range := by
        rw [Nat.shiftRight_eq_div_pow]
        exact Nat.div_lt_of_lt_mul (Nat.mul_lt_mul_of_pos_right small positive)
      show Gives (if _ then _ else _) _
      split
      · exact Gives.pure high
      · exact ih

/-- The number of a word is below `2 ^ 32`. -/
theorem gives_toNat_u32 : Gives (do return (← u32).toNat) (· < 2 ^ 32) :=
  Gives.after fun word => Gives.pure word.toNat_lt

variable {low high : Nat}

/-- A 32-bit number is in its range: `low ≤ value.toNat < high`. -/
theorem gives_u32In (some : low < high) (room : high ≤ 2 ^ 32) :
    Gives (u32In low high) fun value => low ≤ value.toNat ∧ value.toNat < high := by
  refine (gives_below (by omega) gives_toNat_u32 _ _).bind fun value small => Gives.pure ?_
  rw [UInt32.toNat_ofNat', Nat.mod_eq_of_lt (by omega)]
  omega

/-- A 16-bit number is in its range: `low ≤ value.toNat < high`. -/
theorem gives_u16In (some : low < high) (room : high ≤ 2 ^ 16) :
    Gives (u16In low high) fun value => low ≤ value.toNat ∧ value.toNat < high := by
  refine (gives_below (by omega) gives_toNat_u32 _ _).bind fun value small => Gives.pure ?_
  rw [UInt16.toNat_ofNat', Nat.mod_eq_of_lt (by omega)]
  omega

end Randomness.Draw

/-! ## Values of fields -/

/-- Bytes that start as a compressed point does: with `2` or `3`. -/
def StartsAsPoint (bytes : Bytes) : Prop := bytes.head? = some 2 ∨ bytes.head? = some 3

namespace Sample

open Randomness (Draw)
open Randomness.Draw

/-- A location of recent years. -/
structure Location.Recent (place : Location) : Prop where
  /-- The height is in its range. -/
  height : 500000 ≤ place.height.toNat ∧ place.height.toNat < 900000
  /-- So is the index of the transaction. -/
  index : place.index.toNat < 4000
  /-- So is the index of the output. -/
  output : place.output.toNat < 8

/-- A location that is drawn is of recent years. -/
theorem gives_location : Gives location Location.Recent := by
  refine (gives_u32In (by decide) (by decide)).bind fun height recent => ?_
  refine (gives_u32In (by decide) (by decide)).bind fun index early => ?_
  refine (gives_u16In (by decide) (by decide)).bind fun output small => Gives.pure ?_
  exact ⟨recent, early.2, small.2⟩

end Sample

end PeerWire
