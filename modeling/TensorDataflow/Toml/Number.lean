import TensorDataflow.Decimal.Overflow
import TensorDataflow.Text.Scan
import TensorDataflow.Toml.Value
/-!
# Unquoted TOML values

A value without quotes or brackets is one run of letters, digits and signs, and is classified as a
whole: truth values, integers in four bases within 64 bits, floats, dates and times.
-/

namespace TensorDataflow

namespace TomlValue

/-- Digits with single underscores between them, without the underscores. -/
def groupedDigits? (isMember : Char → Bool) : List Char → Option (List Char)
  | [] => none
  | [c] => if isMember c then some [c] else none
  | c :: '_' :: rest => if isMember c then (groupedDigits? isMember rest).map (c :: ·) else none
  | c :: rest => if isMember c then (groupedDigits? isMember rest).map (c :: ·) else none

/-- A decimal number without superfluous zeros in front. -/
def decimal? (cs : List Char) : Option Nat := do
  let ds ← groupedDigits? isDigit cs
  if ds.head? = some '0' && 1 < ds.length then none else some (digitsValue 10 ds)

def isOctal (c : Char) : Bool := '0' ≤ c && c ≤ '7'

def isBinary (c : Char) : Bool := c == '0' || c == '1'

def isHex (c : Char) : Bool := (hexValue? c).isSome

/-- The sign in front, if any, and what follows it. -/
def splitSign : List Char → Option Char × List Char
  | '+' :: cs => (some '+', cs)
  | '-' :: cs => (some '-', cs)
  | cs => (none, cs)

/-- An integer of any base. -/
def integerText? (cs : List Char) : Option Int := do
  let n ← match cs with
    | '0' :: 'x' :: ds => do pure (digitsValue 16 (← groupedDigits? isHex ds) : Int)
    | '0' :: 'o' :: ds => do pure (digitsValue 8 (← groupedDigits? isOctal ds) : Int)
    | '0' :: 'b' :: ds => do pure (digitsValue 2 (← groupedDigits? isBinary ds) : Int)
    | _ => do
        let (sign, ds) := splitSign cs
        let n ← decimal? ds
        pure (if sign = some '-' then -(n : Int) else n)
  if -0x8000000000000000 ≤ n ∧ n < 0x8000000000000000 then some n else none

def isExponentMark (c : Char) : Bool := c == 'e' || c == 'E'

/-- The exponent of a float, from its mark on; without one it is zero. -/
def exponent? : List Char → Option Int
  | [] => some 0
  | mark :: cs => do
      let (sign, ds) := splitSign cs
      let n := digitsValue 10 (← groupedDigits? isDigit ds)
      if isExponentMark mark then some (if sign = some '-' then -(n : Int) else n) else none

/-- The digits of an unsigned float as one number and the power of ten that they count; a fraction
or an exponent must be there. -/
def scientific? (cs : List Char) : Option (Nat × Int) := do
  let (whole, rest) := cs.span fun c => isDigit c || c == '_'
  let n ← decimal? whole
  match rest with
  | [] => none
  | '.' :: behind =>
      let (fraction, tail) := behind.span fun c => isDigit c || c == '_'
      let ds ← groupedDigits? isDigit fraction
      return (n * Nat.pow 10 ds.length + digitsValue 10 ds, (← exponent? tail) - ds.length)
  | tail => return (n, ← exponent? tail)

/-- Whether the text is a float; infinities have their own word, and only below zero may digits
stand for one. -/
def isFloat (cs : List Char) : Bool :=
  let (sign, unsigned) := splitSign cs
  if unsigned = ['i', 'n', 'f'] || unsigned = ['n', 'a', 'n'] then true
  else match scientific? unsigned with
    | some (digits, power) => sign = some '-' || !FloatFormat.double.overflows digits power
    | none => false

/-- The value of exactly `width` digits in front, and what follows them. -/
def fixedDigits? (width : Nat) (cs : List Char) : Option (Nat × List Char) :=
  let ds := cs.take width
  if ds.length = width && ds.all isDigit then some (digitsValue 10 ds, cs.drop width) else none

def daysInMonth (year month : Nat) : Nat :=
  if month = 2 then if year % 4 = 0 && (year % 100 ≠ 0 || year % 400 = 0) then 29 else 28
  else if month = 4 || month = 6 || month = 9 || month = 11 then 30 else 31

/-- What follows a date. -/
def dateRest? (cs : List Char) : Option (List Char) := do
  let (year, cs) ← fixedDigits? 4 cs
  let '-' :: cs := cs | none
  let (month, cs) ← fixedDigits? 2 cs
  let '-' :: cs := cs | none
  let (day, cs) ← fixedDigits? 2 cs
  if 1 ≤ month && month ≤ 12 && 1 ≤ day && day ≤ daysInMonth year month then some cs else none

/-- What follows a time of day. -/
def timeRest? (cs : List Char) : Option (List Char) := do
  let (hour, cs) ← fixedDigits? 2 cs
  let ':' :: cs := cs | none
  let (minute, cs) ← fixedDigits? 2 cs
  let ':' :: cs := cs | none
  let (second, cs) ← fixedDigits? 2 cs
  if hour ≤ 23 && minute ≤ 59 && second ≤ 60 then
    match cs with
    | '.' :: behind =>
        if (behind.takeWhile isDigit).isEmpty then none else some (behind.dropWhile isDigit)
    | _ => some cs
  else none

/-- Whether the text is nothing or the offset of a zone. -/
def isOffset : List Char → Bool
  | [] => true
  | ['Z'] | ['z'] => true
  | sign :: cs => (sign == '+' || sign == '-') &&
      match fixedDigits? 2 cs with
      | some (hour, ':' :: cs) =>
          (match fixedDigits? 2 cs
              with | some (minute, []) => hour ≤ 23 && minute ≤ 59 | _ => false)
      | _ => false

/-- Whether the text is a date, a time or both; a blank or a T stands between them. -/
def isDate (cs : List Char) : Bool :=
  match dateRest? cs with
  | some [] => true
  | some (mark :: rest) =>
      (mark == 'T' || mark == 't' || mark == ' ') && (timeRest? rest).any isOffset
  | none => timeRest? cs == some []

/-- The value that an unquoted text stands for. -/
def ofBare? (cs : List Char) : Option TomlValue :=
  if cs = "true".toList then some (boolean true)
  else if cs = "false".toList then some (boolean false)
  else match integerText? cs with
    | some n => some (integer n)
    | none => if isFloat cs || isDate cs then some other else none

end TomlValue

end TensorDataflow
