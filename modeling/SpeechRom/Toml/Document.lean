import SpeechRom.Toml.Scalar

/-!
# TOML documents

Arrays and inline tables hold values in turn, to a bounded depth.  A document
is a row of lines: a comment, a header that opens a table, or a key with a
value that goes into the table opened last.
-/

namespace SpeechRom.Toml

open Text Text.Scan

/-! ## Keys -/

/-- A character of a bare key. -/
def isBareChar (c : Char) : Bool := c.isAlphanum || c == '-' || c == '_'

/-- A key without dots. -/
def simpleKey : Scan String :=
  basicString <|> literalString <|> (return String.ofList (← run1 isBareChar))

/-- A key without dots and the blanks around it. -/
def spacedKey : Scan String := do
  let _ ← run isBlank
  let key ← simpleKey
  let _ ← run isBlank
  return key

/-- The depth from which on keys and values are refused. -/
def depthLimit : Nat := 80

/-- A key: its parts between dots. -/
def keyPath : Scan (List String) := do
  let first ← spacedKey
  let rest ← many (do exactly ['.']; spacedKey)
  if rest.length + 1 < depthLimit then return first :: rest else failure

/-! ## Values -/

/-- An array of values of a form, over any number of lines. -/
def arrayOf (value : Scan Value) : Scan Value := do
  let element : Scan Value := do
    filler
    let item ← value
    filler
    return item
  exactly ['[']
  let first ← optional element
  match first with
  | none =>
    filler
    exactly [']']
    return .array []
  | some first =>
    let rest ← many (do exactly [',']; element)
    let _ ← optional (exactly [','])
    filler
    exactly [']']
    return .array (first :: rest)

/-- A key with a value of a form, inside a line. -/
def pairOf (value : Scan Value) : Scan (List String × Value) := do
  let path ← keyPath
  exactly ['=']
  let _ ← run isBlank
  let item ← value
  return (path, item)

/-- An inline table of values of a form, on one line. -/
def inlineTableOf (value : Scan Value) : Scan Value := do
  let pair : Scan (List String × Value) := do
    let pair ← pairOf value
    let _ ← run isBlank
    return pair
  exactly ['\x7b']
  let first ← optional pair
  let rest ← match first with
    | some _ => many (do exactly [',']; pair)
    | none => pure []
  let _ ← run isBlank
  exactly ['\x7d']
  match (first.toList ++ rest).foldlM (fun table (path, item) => Table.assign? path item table)
      [] with
  | some entries => return .table .inline entries
  | none => failure

/-- A value that nests arrays and tables no deeper than `depth`. -/
def value : (depth : Nat) → Scan Value
  | 0, input => scalar input
  | depth + 1, input => (arrayOf (value depth) <|> inlineTableOf (value depth) <|> scalar) input

/-! ## Lines -/

/-- A document while it is read: its table, and the path of the header opened last. -/
structure Reading where
  document : Table
  header : List String

/-- The effect of a line on the document, if the rules of tables allow it. -/
inductive Line where
  | nothing
  | openTable (path : List String)
  | openElement (path : List String)
  | assign (path : List String) (value : Value)

/-- A header in double brackets. -/
def elementHeader : Scan Line := do
  exactly ['[', '[']
  let path ← keyPath
  exactly [']', ']']
  lineRest
  return .openElement path

/-- A header in single brackets. -/
def tableHeader : Scan Line := do
  exactly ['[']
  let path ← keyPath
  exactly [']']
  lineRest
  return .openTable path

/-- Read one line, or a key with a value that takes several. -/
def line : Scan Line := do
  let _ ← run isBlank
  match ← ahead with
  | some '#' =>
    comment
    newline <|> ended
    return .nothing
  | some '[' => elementHeader <|> tableHeader
  | some '\n' | some '\r' =>
    newline
    return .nothing
  | some _ =>
    let (path, item) ← pairOf (value (depthLimit - 1))
    lineRest
    return .assign path item
  | none => failure

/-- Enter a line into the document. -/
def Reading.enter? (reading : Reading) : Line → Option Reading
  | .nothing => some reading
  | .openTable path => do
    return ⟨← reading.document.openTable? path, path⟩
  | .openElement path => do
    return ⟨← reading.document.openElement? path, path⟩
  | .assign path item => do
    let document ← reading.document.within? reading.header (Table.assign? path item)
    return { reading with document }

/-- The table that a text describes. -/
def parse? (text : String) : Option Table := do
  let letters := text.toList
  let letters := if letters.head? = some '\ufeff' then letters.drop 1 else letters
  let (lines, rest) ← many line letters
  if rest.all isBlank then
    let reading ← lines.foldlM Reading.enter? ⟨[], []⟩
    return reading.document
  else none

end SpeechRom.Toml
