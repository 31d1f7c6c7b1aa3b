/-!
# Binary interchange formats

A format is given by the widths of its exponent and fraction fields, and `FloatFormat.decode` reads
a bit pattern of it as an exact value: a sign with a natural mantissa times a power of two, or an
infinity, or no number at all. Everything that writes floating-point numbers works on these exact
values.
-/

namespace TensorDataflow

/-- The exact value of a bit pattern; a finite one is the mantissa times two to the exponent. -/
inductive FloatValue where
  | nan
  | infinite (negative : Bool)
  | finite (negative : Bool) (mantissa : Nat) (exponent : Int)
  deriving DecidableEq, Repr

/-- The field widths of a binary format with a sign bit in front. -/
structure FloatFormat where
  exponentBits : Nat
  fractionBits : Nat
  deriving DecidableEq, Repr

namespace FloatFormat

def half : FloatFormat := ⟨5, 10⟩

/-- The upper half of a single. -/
def brain : FloatFormat := ⟨8, 7⟩

def single : FloatFormat := ⟨8, 23⟩

def double : FloatFormat := ⟨11, 52⟩

/-- The fraction field of a bit pattern. -/
def fractionOf (format : FloatFormat) (bits : Nat) : Nat := bits % Nat.pow 2 format.fractionBits

/-- The exponent field of a bit pattern. -/
def exponentOf (format : FloatFormat) (bits : Nat) : Nat :=
  bits / Nat.pow 2 format.fractionBits % Nat.pow 2 format.exponentBits

/-- Whether the sign bit is set. -/
def isNegative (format : FloatFormat) (bits : Nat) : Bool :=
  bits / Nat.pow 2 (format.fractionBits + format.exponentBits) % 2 == 1

/-- What is added to an exponent in its field. -/
def bias (format : FloatFormat) : Int := Nat.pow 2 (format.exponentBits - 1) - 1

/-- The value of a bit pattern. -/
def decode (format : FloatFormat) (bits : Nat) : FloatValue :=
  let fraction := format.fractionOf bits
  let biased := format.exponentOf bits
  let negative := format.isNegative bits
  if biased = Nat.pow 2 format.exponentBits - 1 then
    if fraction = 0 then .infinite negative else .nan
  else if biased = 0 then .finite negative fraction (1 - format.bias - format.fractionBits)
  else .finite negative (Nat.pow 2 format.fractionBits + fraction)
    (biased - format.bias - format.fractionBits)

/-- The magnitude of an infinity: every exponent bit and no fraction bit. -/
def infinityBits (format : FloatFormat) : Nat :=
  (1 <<< format.exponentBits - 1) <<< format.fractionBits

/-- The pattern of the sign bit alone. -/
def signBit (format : FloatFormat) : Nat := 1 <<< (format.fractionBits + format.exponentBits)

/-- Whether a bit pattern is not a number, which is to say that its magnitude lies above that of an
infinity. -/
@[inline] def isNan (format : FloatFormat) (bits : Nat) : Bool :=
  format.infinityBits < bits % format.signBit

end FloatFormat

end TensorDataflow
