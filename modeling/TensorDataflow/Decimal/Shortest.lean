import TensorDataflow.Decimal.Fixed
/-!
# The fewest digits that read back

A decimal reads back as a float when it lies between the halfway points to the neighbouring floats,
which count themselves when the mantissa is even. The text takes the coarsest power of ten with a
multiple in that interval, of two such multiples the one nearer to the value and the larger of two
equally near, and writes it in positional notation.
-/

namespace TensorDataflow

/-- The multiple of `den` chosen for `value`, all in units of the same fraction: the nearer of the
two neighbours, if it lies between the bounds. -/
def nearestMultiple? (low value high den : Nat) (closed : Bool) : Option Nat :=
  let inside (j : Nat) : Bool :=
    0 < j && (if closed then low ≤ j * den && j * den ≤ high else low < j * den && j * den < high)
  let below := value / den
  let above := below + 1
  match inside below, inside above with
  | true, true => if 2 * (value % den) < den then some below else some above
  | true, false => some below
  | false, true => some above
  | false, false => none

/-- Searches downwards for the coarsest power of ten that has a multiple between the bounds, which
are given in units of two to `exponent`. -/
def coarsestMultiple (low value high : Nat) (exponent : Int) (closed : Bool) : Nat → Int → Nat × Int
  | 0, power => (value, power)
  | fuel + 1, power =>
      let up := Nat.pow 2 exponent.toNat * Nat.pow 10 (-power).toNat
      let den := Nat.pow 2 (-exponent).toNat * Nat.pow 10 power.toNat
      match nearestMultiple? (low * up) (value * up) (high * up) den closed with
      | some j => (j, power)
      | none => coarsestMultiple low value high exponent closed fuel (power - 1)

/-- `digits` times ten to `power` in positional notation. -/
def positionalText (digits : Nat) (power : Int) : String :=
  if 0 ≤ power then toString (digits * Nat.pow 10 power.toNat)
  else pointedText (-power).toNat digits

/-- The shortest positional decimal that reads back as the same bit pattern of the format. -/
def FloatFormat.shortest (format : FloatFormat) (bits : Nat) : String :=
  match format.decode bits with
  | .nan => "NaN"
  | .infinite negative => signText negative ++ "inf"
  | .finite negative 0 _ => signText negative ++ "0"
  | .finite negative mantissa exponent =>
      let atBoundary : Bool := format.fractionOf bits == 0 && 1 < format.exponentOf bits
      let low := 4 * mantissa - (if atBoundary then 1 else 2)
      let reach := format.fractionBits + Nat.pow 2 format.exponentBits
      let (digits, power) := coarsestMultiple low (4 * mantissa) (4 * mantissa + 2) (exponent - 2)
        (mantissa % 2 == 0) (2 * reach) (reach / 3 : Nat)
      signText negative ++ positionalText digits power

end TensorDataflow
