/-!
# Reading from the front

A scan takes characters from the front of a list and either fails or gives a result with what is
left. It knows how long the whole text is, which bounds its loops. The readers of interchange texts
are written with these few steps.
-/

namespace TensorDataflow

/-- A reader of characters from the front of a text of a known length. -/
abbrev Scan := ReaderT Nat (StateT (List Char) Option)

namespace Scan

def fail {α : Type} : Scan α := fun _ _ => none

/-- The next character, which stays in front. -/
def peek? : Scan (Option Char) := fun _ cs => some (cs.head?, cs)

/-- Takes the next character. -/
def next : Scan Char
  | _, [] => none
  | _, c :: cs => some (c, cs)

/-- Takes the next character, which must be the given one. -/
def expect (c : Char) : Scan Unit := do
  if (← next) = c then return () else fail

/-- Takes the given characters, if they stand in front, and says whether they did. -/
def accept (word : List Char) : Scan Bool := fun _ cs =>
  if word.isPrefixOf cs then some (true, cs.drop word.length) else some (false, cs)

/-- Takes characters as long as they belong to the class. -/
def takeWhile (p : Char → Bool) : Scan (List Char) :=
  fun _ cs => some (cs.takeWhile p, cs.dropWhile p)

def skipWhile (p : Char → Bool) : Scan Unit := fun _ cs => some ((), cs.dropWhile p)

/-- How many characters the whole text has, a bound for every loop that takes at least one at a
time. -/
def bound : Scan Nat := read

/-- The result, if the whole text is taken. -/
def whole? {α : Type} (scan : Scan α) (text : String) : Option α :=
  match scan text.length text.toList with
  | some (a, []) => some a
  | _ => none

end Scan

def isDigit (c : Char) : Bool := '0' ≤ c && c ≤ '9'

/-- The value of a hexadecimal digit of either case. -/
def hexValue? (c : Char) : Option Nat :=
  if isDigit c then some (c.toNat - 48)
  else if 'a' ≤ c && c ≤ 'f' then some (c.toNat - 87)
  else if 'A' ≤ c && c ≤ 'F' then some (c.toNat - 55)
  else none

/-- The value of digits of the given base. -/
def digitsValue (base : Nat) (cs : List Char) : Nat :=
  cs.foldl (fun n c => n * base + (hexValue? c).getD 0) 0

/-- Takes exactly `count` hexadecimal digits. -/
def Scan.hex : (count : Nat) → (value : Nat) → Scan Nat
  | 0, value => pure value
  | count + 1, value => do
      match hexValue? (← next) with
      | some d => Scan.hex count (value * 16 + d)
      | none => Scan.fail

end TensorDataflow
