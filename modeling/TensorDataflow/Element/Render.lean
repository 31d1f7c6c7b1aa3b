import TensorDataflow.Decimal.Fixed
import TensorDataflow.Element.Kind
/-!
# Elements as bytes and as text

Bytes are in memory order, the least significant first. An element of a kind without numbers of its
own is written in hexadecimal, most significant byte first, and a byte string of the wrong length is
written as a question mark.
-/

namespace TensorDataflow

/-- The number that bytes in memory order stand for. -/
def ofBytes : List UInt8 → Nat
  | [] => 0
  | b :: rest => b.toNat + 256 * ofBytes rest

/-- Bytes stand for a number below two to the number of their bits. -/
theorem ofBytes_lt (bytes : List UInt8) : ofBytes bytes < Nat.pow 2 (8 * bytes.length) := by
  induction bytes with
  | nil => exact Nat.one_pos
  | cons b rest ih =>
      have hpow : Nat.pow 2 (8 * (b :: rest).length) = Nat.pow 2 (8 * rest.length) * 256 := by
        rw [List.length_cons, Nat.mul_succ]
        exact Nat.pow_add 2 (8 * rest.length) 8
      have hb : b.toNat < 256 := b.toNat_lt
      rw [ofBytes, hpow]
      omega

/-- The low `width` bytes of a number in memory order. -/
def toBytes : (width : Nat) → Nat → List UInt8
  | 0, _ => []
  | width + 1, n => UInt8.ofNat n :: toBytes width (n / 256)

/-- The two's complement reading of a number of `width` bytes. -/
def signedValue (width n : Nat) : Int :=
  let span := Nat.pow 256 width
  if 2 * n < span then n else (n : Int) - span

def hexDigit (n : Nat) : Char := if n < 10 then Char.ofNat (48 + n) else Char.ofNat (87 + n)

/-- Two lower-case digits per byte. -/
def hexText (bytes : List UInt8) : String :=
  String.ofList (bytes.flatMap fun b => [hexDigit (b.toNat / 16), hexDigit (b.toNat % 16)])

namespace ElementKind

/-- One element with the given number of decimal places where it is a float. -/
def render (kind : ElementKind) (bytes : List UInt8) (places : Nat) : String :=
  if bytes.length = kind.size then
    let n := ofBytes bytes
    match kind with
    | bool => if n = 0 then "false" else "true"
    | byte | u8 | u16 | u32 | u64 => toString n
    | i8 | i16 | i32 | i64 => toString (signedValue kind.size n)
    | f16 => (FloatFormat.half.decode n).fixed places
    | bf16 => (FloatFormat.brain.decode n).fixed places
    | f32 => (FloatFormat.single.decode n).fixed places
    | f64 => (FloatFormat.double.decode n).fixed places
    | f8 | c16 | c32 | c64 | c128 => "0x" ++ hexText bytes.reverse
  else "?"

end ElementKind

end TensorDataflow
