import TensorDataflow.Toml.Number
/-!
# Reading TOML

A document is a sequence of lines, each empty, a comment, a header or an assignment. The reader
turns it into statements, and the statements into the table of the whole document; a text that does
not follow the grammar, that nests too deep or that defines something twice has no table.
-/

namespace TensorDataflow

namespace TomlValue

open Scan

def isSpace (c : Char) : Bool := c == ' ' || c == '\t'

def skipSpaces : Scan Unit := skipWhile isSpace

/-- Characters that may stand in comments and in quotes. -/
def isPlain (c : Char) : Bool := c == '\t' || (0x20 ≤ c.toNat && c.toNat ≠ 0x7f)

/-- Takes a line end, if one stands in front. -/
def acceptLineEnd : Scan Bool := do
  if ← accept ['\n'] then return true else accept ['\r', '\n']

/-- Takes a comment up to the end of its line, if one stands in front. -/
def skipComment : Scan Unit := do
  if ← accept ['#'] then skipWhile isPlain

/-- What follows the spaces, comments and line ends in front, from outside a comment or from inside
one. -/
def afterFiller : (inComment : Bool) → List Char → List Char
  | _, [] => []
  | _, '\n' :: cs => afterFiller false cs
  | _, '\r' :: '\n' :: cs => afterFiller false cs
  | true, c :: cs => if isPlain c then afterFiller true cs else c :: cs
  | false, '#' :: cs => afterFiller true cs
  | false, c :: cs => if isSpace c then afterFiller false cs else c :: cs

/-- Takes what may stand between the parts of a list. -/
def skipFiller : Scan Unit := modify (afterFiller false)

/-- What follows the spaces and line ends in front. -/
def afterBlankLines : List Char → List Char
  | [] => []
  | '\n' :: cs => afterBlankLines cs
  | '\r' :: '\n' :: cs => afterBlankLines cs
  | c :: cs => if isSpace c then afterBlankLines cs else c :: cs

/-- The character of an escape, behind its backslash. -/
def escape : Scan Char := do
  let scalar (n : Nat) : Scan Char :=
    if n < 0xd800 || (0xdfff < n && n < 0x110000) then pure (Char.ofNat n) else fail
  match ← next with
  | 'b' => return '\x08'
  | 't' => return '\t'
  | 'n' => return '\n'
  | 'f' => return '\x0c'
  | 'r' => return '\r'
  | '"' => return '"'
  | '\\' => return '\\'
  | 'u' => scalar (← hex 4 0)
  | 'U' => scalar (← hex 8 0)
  | _ => fail

/-- The rest of a text in double quotes on one line. -/
def basicRest : Nat → Scan (List Char)
  | 0 => fail
  | fuel + 1 => do
      match ← next with
      | '"' => return []
      | '\\' => return (← escape) :: (← basicRest fuel)
      | c => if isPlain c then return c :: (← basicRest fuel) else fail

/-- The rest of a text in single quotes on one line. -/
def literalRest : Nat → Scan (List Char)
  | 0 => fail
  | fuel + 1 => do
      let c ← next
      if c = '\'' then return []
      else if isPlain c then return c :: (← literalRest fuel)
      else fail

/-- The rest of a text over several lines between triple quotes, with escapes when it is in double
quotes; up to two further quotes may stand before the closing ones. -/
def linesRest (quote : Char) : Nat → Scan (List Char)
  | 0 => fail
  | fuel + 1 => do
      if ← acceptLineEnd then return '\n' :: (← linesRest quote fuel)
      else
        let quotes ← takeWhile (· == quote)
        if 6 ≤ quotes.length then fail
        else if 3 ≤ quotes.length then return quotes.drop 3
        else if 0 < quotes.length then return quotes ++ (← linesRest quote fuel)
        else
          let c ← next
          if c = '\\' && quote = '"' then
            let rest ← get
            skipSpaces
            if ← acceptLineEnd then
              modify afterBlankLines
              linesRest quote fuel
            else
              set rest
              return (← escape) :: (← linesRest quote fuel)
          else if isPlain c then return c :: (← linesRest quote fuel)
          else fail

/-- A text in quotes of the given kind, on one line or over several. -/
def quoted (quote : Char) : Scan (List Char) := do
  expect quote
  if ← accept [quote, quote] then
    let _ ← acceptLineEnd
    linesRest quote (← bound)
  else if quote = '"' then basicRest (← bound)
  else literalRest (← bound)

def isBareKeyChar (c : Char) : Bool :=
  isDigit c || ('a' ≤ c && c ≤ 'z') || ('A' ≤ c && c ≤ 'Z') || c == '_' || c == '-'

/-- One part of a dotted key. -/
def simpleKey : Scan String := do
  match ← peek? with
  | some '"' => do
      expect '"'
      return String.ofList (← basicRest (← bound))
  | some '\'' => do
      expect '\''
      return String.ofList (← literalRest (← bound))
  | _ => do
      let cs ← takeWhile isBareKeyChar
      if cs.isEmpty then fail else return String.ofList cs

/-- How many lists and inline tables may enclose each other, and how many parts a dotted key may
have. -/
def nestingLimit : Nat := 79

/-- The parts of a dotted key, at most as many as given, the last one apart. -/
def dottedKey : Nat → Scan (List String × String)
  | 0 => fail
  | parts + 1 => do
      let key ← simpleKey
      skipSpaces
      if ← accept ['.'] then
        skipSpaces
        let (path, last) ← dottedKey parts
        return (key :: path, last)
      else return ([], key)

def isBareChar (c : Char) : Bool := isBareKeyChar c || c == '+' || c == '.' || c == ':'

/-- Whether a date is followed by a blank and a digit, so that a time may belong to it. -/
def continuesDate (cs rest : List Char) : Bool :=
  dateRest? cs == some [] && rest.head? == some ' ' && (rest.drop 1).head?.any isDigit

/-- A value without quotes or brackets; a date takes the time behind the next blank with it. -/
def bare : Scan TomlValue := do
  let mut cs ← takeWhile isBareChar
  if continuesDate cs (← get) then
    let blank ← next
    cs := cs ++ blank :: (← takeWhile isBareChar)
  match ofBare? cs with
  | some v => return v
  | none => fail

mutual

/-- One value, in which at most `depth` lists and inline tables enclose each other. -/
def value (depth : Nat) : Nat → Scan TomlValue
  | 0 => fail
  | fuel + 1 => do
      match ← peek?, depth with
      | some '"', _ => return text (String.ofList (← quoted '"'))
      | some '\'', _ => return text (String.ofList (← quoted '\''))
      | some '[', depth + 1 => do
          let _ ← next
          return array (← items depth fuel)
      | some '\x7b', depth + 1 => do
          let _ ← next
          skipSpaces
          let pairs ← if ← accept ['\x7d'] then pure [] else pairs depth fuel
          match TomlTable.ofAssignments pairs with
          | some t => return table .closed t
          | none => fail
      | _, _ => bare

/-- The items of a list from the next one on, with the closing bracket; a comma may stand behind the
last. -/
def items (depth : Nat) : Nat → Scan (List TomlValue)
  | 0 => fail
  | fuel + 1 => do
      skipFiller
      if ← accept [']'] then return []
      else
        let v ← value depth fuel
        skipFiller
        if ← accept [','] then return v :: (← items depth fuel)
        else
          expect ']'
          return [v]

/-- The assignments of an inline table from the next one on, with the closing brace. -/
def pairs (depth : Nat) : Nat → Scan (List (List String × String × TomlValue))
  | 0 => fail
  | fuel + 1 => do
      skipSpaces
      let (path, key) ← dottedKey nestingLimit
      skipSpaces
      expect '='
      skipSpaces
      let v ← value depth fuel
      skipSpaces
      if ← accept [','] then return (path, key, v) :: (← pairs depth fuel)
      else
        expect '\x7d'
        return [(path, key, v)]

end

/-- A header between the given brackets. -/
def headerKey (closing : List Char) : Scan (List String × String) := do
  skipSpaces
  let key ← dottedKey nestingLimit
  skipSpaces
  if ← accept closing then return key else fail

/-- A header or an assignment. -/
def statement : Scan TomlStatement := do
  if ← accept ['[', '['] then
    let (path, key) ← headerKey [']', ']']
    return .furtherHeader path key
  else if ← accept ['['] then
    let (path, key) ← headerKey [']']
    return .header path key
  else
    let (path, key) ← dottedKey nestingLimit
    skipSpaces
    expect '='
    skipSpaces
    let v ← value nestingLimit ((← bound) + 1)
    return .assignment path key v

/-- The statements of the remaining lines. -/
def statements : Nat → Scan (List TomlStatement)
  | 0 => fail
  | fuel + 1 => do
      skipSpaces
      let first ← peek?
      let here ←
        if first = none || first = some '#' || first = some '\n' || first = some '\r' then
          pure []
        else do pure [← statement]
      skipSpaces
      skipComment
      if (← peek?).isNone then return here
      else if ← acceptLineEnd then return here ++ (← statements fuel)
      else fail

end TomlValue

/-- The table of a document. -/
def TomlTable.read? (source : String) : Option TomlTable := do
  let scan : Scan (List TomlStatement) := do
    let _ ← Scan.accept ['\ufeff']
    TomlValue.statements ((← Scan.bound) + 1)
  TomlTable.build [] [] (← scan.whole? source)

end TensorDataflow
