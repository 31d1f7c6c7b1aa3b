import TensorDataflow.Text.Blank
import TensorDataflow.Text.Scan
/-!
# Byte sizes

A size is a count of bytes, written in the largest of the units K, M and G that divides it, and read
from a number with an optional unit in either case and an optional B behind it. What can go wrong
with a configuration is collected here, since the size is its only part with a grammar of its own.
-/

namespace TensorDataflow

/-- Why a configuration cannot be used. -/
inductive ConfigError where
  | invalidSize (text : String)
  | sizeOverflow (text : String)
  | zeroSize (text : String)
  | unreadableFile (path : String)
  | malformed
  deriving DecidableEq, Repr

def ConfigError.message : ConfigError → String
  | invalidSize text =>
      "configuration error: invalid size '" ++ text ++
        "': expected a number with an optional K, M or G suffix"
  | sizeOverflow text => "configuration error: size overflow: '" ++ text ++ "'"
  | zeroSize text => "configuration error: size must be non-zero: '" ++ text ++ "'"
  | unreadableFile path => "configuration error: cannot read config '" ++ path ++ "'"
  | malformed => "configuration error: TOML parse error"

/-- A count of bytes. -/
structure ByteSize where
  bytes : Nat
  deriving DecidableEq, Repr

namespace ByteSize

def kib : Nat := 1024

def mib : Nat := 1024 * kib

def gib : Nat := 1024 * mib

/-- The sizes that a machine word can count. -/
def limit : Nat := 0x10000000000000000

def ofMib (n : Nat) : ByteSize := ⟨n * mib⟩

def ofGib (n : Nat) : ByteSize := ⟨n * gib⟩

/-- The spellings of the units, a longer one before its own ending. -/
def units : List (List Char × Nat) :=
  [(['G', 'B'], gib), (['G'], gib), (['M', 'B'], mib), (['M'], mib), (['K', 'B'], kib),
    (['K'], kib), (['B'], 1)]

/-- Whether the text ends in the unit, in either case. -/
def endsIn (unit cs : List Char) : Bool := unit.reverse.isPrefixOf (cs.map Char.toUpper).reverse

/-- What stands before the unit, and how many bytes the unit counts. -/
def splitUnit (cs : List Char) : List Char × Nat :=
  match units.find? fun u => endsIn u.1 cs with
  | some (unit, bytes) => (cs.take (cs.length - unit.length), bytes)
  | none => (cs, 1)

/-- An unsigned number in a machine word, with an optional plus sign in front. -/
def number? (cs : List Char) : Option Nat :=
  let digits := if cs.head? = some '+' then cs.drop 1 else cs
  if digits.isEmpty || !digits.all isDigit then none
  else
    let n := digitsValue 10 digits
    if n < limit then some n else none

def parse (text : String) : Except ConfigError ByteSize :=
  let cs := trimBlanks text.toList
  let (digits, unit) := splitUnit cs
  match number? (trimBlanks digits) with
  | none => .error (.invalidSize (String.ofList cs))
  | some n =>
      if limit ≤ n * unit then .error (.sizeOverflow (String.ofList cs))
      else if n * unit = 0 then .error (.zeroSize (String.ofList cs))
      else .ok ⟨n * unit⟩

/-- The size in the largest unit that divides it. -/
def text (size : ByteSize) : String :=
  let b := size.bytes
  if gib ≤ b ∧ b % gib = 0 then toString (b / gib) ++ "G"
  else if mib ≤ b ∧ b % mib = 0 then toString (b / mib) ++ "M"
  else if kib ≤ b ∧ b % kib = 0 then toString (b / kib) ++ "K"
  else toString b

end ByteSize

end TensorDataflow
