import TensorDataflow.Decimal.Binary
/-!
# Decimals with a fixed number of places

The exact value is scaled, rounded once to a natural number with a half going to the even neighbour,
and written with that many digits behind the point. A negative value keeps its sign even where every
digit is zero.
-/

namespace TensorDataflow

/-- The quotient rounded to the nearest natural number, a half to the even neighbour. -/
def roundQuotient (num den : Nat) : Nat :=
  let q := num / den
  let twice := 2 * (num % den)
  if twice < den then q else if den < twice then q + 1 else if q % 2 = 0 then q else q + 1

/-- The decimal digits of `n`, with zeros in front up to the given width. -/
def padDigits (width n : Nat) : String :=
  let digits := toString n
  String.ofList (List.replicate (width - digits.length) '0') ++ digits

/-- The digits of a number below ten to the `width`, written by halves while they are long: the
parts of a long number are written in much less time than the whole. -/
def digitsByHalves : (halvings : Nat) → (width n : Nat) → String
  | 0, width, n => padDigits width n
  | halvings + 1, width, n =>
      if width ≤ 64 then padDigits width n
      else
        let low := width / 2
        digitsByHalves halvings (width - low) (n / Nat.pow 10 low) ++
          digitsByHalves halvings low (n % Nat.pow 10 low)

/-- A natural number of units of ten to the minus `places`. -/
def pointedText (places units : Nat) : String :=
  if places = 0 then toString units
  else toString (units / Nat.pow 10 places) ++ "." ++
    digitsByHalves 16 places (units % Nat.pow 10 places)

/-- The mantissa times two to the exponent, as a fraction. -/
def powerFraction (mantissa : Nat) (exponent : Int) : Nat × Nat :=
  (mantissa * Nat.pow 2 exponent.toNat, Nat.pow 2 (-exponent).toNat)

def signText (negative : Bool) : String := if negative then "-" else ""

/-- The value with the given number of decimal places. -/
def FloatValue.fixed (places : Nat) : FloatValue → String
  | nan => "NaN"
  | infinite negative => signText negative ++ "inf"
  | finite negative mantissa exponent =>
      let (num, den) := powerFraction mantissa exponent
      signText negative ++ pointedText places (roundQuotient (num * Nat.pow 10 places) den)

end TensorDataflow
