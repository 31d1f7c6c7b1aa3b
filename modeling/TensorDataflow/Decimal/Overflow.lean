import TensorDataflow.Decimal.Binary
/-!
# Decimals beyond a format

A decimal that is read into a binary format goes to the nearest float, and to infinity from the
point on that lies halfway between the largest finite value and the next power of two; that point
itself goes to infinity, because the largest mantissa is odd.
-/

namespace TensorDataflow

namespace FloatFormat

/-- The least value that is read as an infinity. -/
def overflowBound (format : FloatFormat) : Nat :=
  (Nat.pow 2 (format.fractionBits + 2) - 1) *
    Nat.pow 2 (format.bias - format.fractionBits - 1).toNat

/-- Whether `digits` times ten to `power` is read as an infinity. The places in front of the point
decide unless the bound has as many, so no large power is formed for a large exponent. -/
def overflows (format : FloatFormat) (digits : Nat) (power : Int) : Bool :=
  let bound := format.overflowBound
  let places : Int := (toString digits).length + power
  let boundPlaces : Int := (toString bound).length
  digits ≠ 0 && (boundPlaces < places ||
    (places = boundPlaces && bound * Nat.pow 10 (-power).toNat ≤ digits * Nat.pow 10 power.toNat))

end FloatFormat

end TensorDataflow
