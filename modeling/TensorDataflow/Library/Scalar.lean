import TensorDataflow.Decimal.Binary
/-!
# Scalars

The kernels compute on words of a fixed number of bytes and take their arithmetic as a parameter, so
that nothing they do depends on what the operations compute. The two arithmetics that the library
offers are the IEEE singles and doubles. Where an operand is not a number the result is that operand
made quiet, the first before the second, and an operation without a result gives the negative quiet
word.
-/

namespace TensorDataflow

/-- A word of `width` bytes. -/
abbrev Word (width : Nat) := BitVec (8 * width)

/-- Arithmetic on words of `width` bytes; a single-precision word and a count can be turned into
such words. -/
structure Arithmetic (width : Nat) where
  zero : Word width
  one : Word width
  add : Word width → Word width → Word width
  sub : Word width → Word width → Word width
  mul : Word width → Word width → Word width
  div : Word width → Word width → Word width
  sqrt : Word width → Word width
  isZero : Word width → Bool
  ofSingle : Word 4 → Word width
  ofCount : Nat → Word width

namespace FloatFormat

/-- The leading fraction bit, which marks a quiet pattern. -/
def quietBit (format : FloatFormat) : Nat := Nat.pow 2 (format.fractionBits - 1)

/-- The pattern with the quiet mark set. -/
@[inline] def quiet (format : FloatFormat) (bits : Nat) : Nat :=
  if bits / format.quietBit % 2 = 1 then bits else bits + format.quietBit

/-- The negative quiet pattern. -/
def invalid (format : FloatFormat) : Nat :=
  Nat.pow 2 (format.fractionBits + format.exponentBits + 1) - format.quietBit

/-- Settles the patterns that are not numbers around an operation on two operands. -/
@[inline] def settle {width : Nat} (format : FloatFormat)
    (operation : Word width → Word width → Word width) (a b : Word width) : Word width :=
  if format.isNan a.toNat then BitVec.ofNat _ (format.quiet a.toNat)
  else if format.isNan b.toNat then BitVec.ofNat _ (format.quiet b.toNat)
  else
    let r := operation a b
    if format.isNan r.toNat then BitVec.ofNat _ format.invalid else r

end FloatFormat

/-! ### Singles -/

@[inline] def singleOperation (f : Float32 → Float32 → Float32) (a b : Word 4) : Word 4 :=
  FloatFormat.single.settle (fun a b => (f (.ofBits ⟨a⟩) (.ofBits ⟨b⟩)).toBits.toBitVec) a b

def singleOfNat (n : Nat) : Word 4 := BitVec.ofNat _ (UInt64.ofNat n).toFloat32.toBits.toNat

/-- Arithmetic on singles. -/
def singleArithmetic : Arithmetic 4 where
  zero := 0#_
  one := singleOfNat 1
  add := singleOperation (· + ·)
  sub := singleOperation (· - ·)
  mul := singleOperation (· * ·)
  div := singleOperation (· / ·)
  sqrt a := singleOperation (fun x _ => x.sqrt) a 0#_
  isZero a := a.toNat % 0x80000000 == 0
  ofSingle a := a
  ofCount := singleOfNat

/-! ### Doubles -/

@[inline] def doubleOperation (f : Float → Float → Float) (a b : Word 8) : Word 8 :=
  FloatFormat.double.settle (fun a b => (f (.ofBits ⟨a⟩) (.ofBits ⟨b⟩)).toBits.toBitVec) a b

def doubleOfNat (n : Nat) : Word 8 := BitVec.ofNat _ (UInt64.ofNat n).toFloat.toBits.toNat

/-- The double of the same value as a single; a pattern that is not a number keeps its sign and
payload, and a zero its sign. -/
def doubleOfSingle (a : Word 4) : Word 8 :=
  let bits := a.toNat
  BitVec.ofNat _ <|
    if FloatFormat.single.isNan bits then
      FloatFormat.double.quiet
        (bits / 0x80000000 * 0x8000000000000000 + 0x7ff0000000000000 + bits % 0x800000 * 0x20000000)
    else if bits % 0x80000000 = 0 then bits * 0x100000000
    else (Float32.ofBits (.ofNat bits)).toFloat.toBits.toNat

/-- Arithmetic on doubles. -/
def doubleArithmetic : Arithmetic 8 where
  zero := 0#_
  one := doubleOfNat 1
  add := doubleOperation (· + ·)
  sub := doubleOperation (· - ·)
  mul := doubleOperation (· * ·)
  div := doubleOperation (· / ·)
  sqrt a := doubleOperation (fun x _ => x.sqrt) a 0#_
  isZero a := a.toNat % 0x8000000000000000 == 0
  ofSingle := doubleOfSingle
  ofCount := doubleOfNat

end TensorDataflow
