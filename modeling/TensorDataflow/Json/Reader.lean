import TensorDataflow.Json.Value
import TensorDataflow.Text.Scan
/-!
# Reading JSON

One value with white space around it and nothing behind it, nested to any depth. A string whose
escapes name a surrogate without its partner is read, but has no text.
-/

namespace TensorDataflow

namespace JsonValue

open Scan

def isJsonBlank (c : Char) : Bool := c == ' ' || c == '\n' || c == '\t' || c == '\r'

def skipBlanks : Scan Unit := skipWhile isJsonBlank

/-- The character that a one-letter escape stands for. -/
def shortEscape? : Char → Option Char
  | '"' => some '"'
  | '\\' => some '\\'
  | '/' => some '/'
  | 'b' => some '\x08'
  | 'f' => some '\x0c'
  | 'n' => some '\n'
  | 'r' => some '\r'
  | 't' => some '\t'
  | _ => none

/-- The character of an escaped code unit, which may need the unit behind it; nothing for a
surrogate without its partner. -/
def unitChar (unit : Nat) : Scan (Option Char) := do
  if unit < 0xd800 || 0xdfff < unit then return some (Char.ofNat unit)
  else if 0xdc00 ≤ unit then return none
  else
    let rest ← get
    if ← accept ['\\', 'u'] then
      let low ← hex 4 0
      if 0xdc00 ≤ low && low ≤ 0xdfff
        then return some (Char.ofNat (0x10000 + (unit - 0xd800) * 0x400 + (low - 0xdc00)))
      else
        set rest
        return none
    else return none

/-- The rest of a string behind its opening quote. -/
def stringRest : Nat → Scan (Option (List Char))
  | 0 => fail
  | fuel + 1 => do
      match ← next with
      | '"' => return some []
      | '\\' =>
          let e ← next
          let c ← if e = 'u' then unitChar (← hex 4 0)
              else (match shortEscape? e with | some c => pure (some c) | none => fail)
          let rest ← stringRest fuel
          return do (← c) :: (← rest)
      | c => if c.toNat < 0x20 then fail else return (← stringRest fuel).map (c :: ·)

/-- A string behind its opening quote. -/
def stringBody : Scan (Option String) := do return (← stringRest (← bound)).map String.ofList

/-- One or more digits. -/
def someDigits : Scan (List Char) := do
  let ds ← takeWhile isDigit
  if ds.isEmpty then fail else return ds

/-- A number; it counts as an integer when it has neither a fraction nor an exponent and is not a
negative zero. -/
def number : Scan JsonValue := do
  let negative ← accept ['-']
  let digits ← someDigits
  if digits.head? = some '0' && 1 < digits.length then fail
  else
    let point ← accept ['.']
    if point then let _ ← someDigits
    let e ← peek?
    let hasExponent := e = some 'e' || e = some 'E'
    if hasExponent then
      let _ ← next
      let sign ← peek?
      if sign = some '+' || sign = some '-' then let _ ← next
      let _ ← someDigits
    let n := digitsValue 10 digits
    if point || hasExponent || (negative && n = 0) then return fraction
    else return integer (if negative then -(n : Int) else n)

/-- Takes a word that stands for a value. -/
def keyword (word : String) (value : JsonValue) : Scan JsonValue := do
  if ← accept word.toList then return value else fail

mutual

/-- One value without white space in front. -/
def value : Nat → Scan JsonValue
  | 0 => fail
  | fuel + 1 => do
      match ← peek? with
      | some 'n' => keyword "null" null
      | some 't' => keyword "true" (bool true)
      | some 'f' => keyword "false" (bool false)
      | some '"' => do
          let _ ← next
          return text (← stringBody)
      | some '[' => do
          let _ ← next
          skipBlanks
          if ← accept [']'] then return array [] else return array (← items fuel)
      | some '\x7b' => do
          let _ ← next
          skipBlanks
          if ← accept ['\x7d'] then return object [] else return object (← members fuel)
      | _ => number

/-- The items of an array from the next one on, with the closing bracket. -/
def items : Nat → Scan (List JsonValue)
  | 0 => fail
  | fuel + 1 => do
      skipBlanks
      let v ← value fuel
      skipBlanks
      if ← accept [','] then return v :: (← items fuel)
      else
        expect ']'
        return [v]

/-- The fields of an object from the next one on, with the closing brace. -/
def members : Nat → Scan (List (Option String × JsonValue))
  | 0 => fail
  | fuel + 1 => do
      skipBlanks
      expect '"'
      let key ← stringBody
      skipBlanks
      expect ':'
      skipBlanks
      let v ← value fuel
      skipBlanks
      if ← accept [','] then return (key, v) :: (← members fuel)
      else
        expect '\x7d'
        return [(key, v)]

end

/-- The value that a text stands for. -/
def read? (source : String) : Option JsonValue :=
  let scan : Scan JsonValue := do
    skipBlanks
    let v ← value ((← bound) + 1)
    skipBlanks
    return v
  whole? scan source

end JsonValue

end TensorDataflow
