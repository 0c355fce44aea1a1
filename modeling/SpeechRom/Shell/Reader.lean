import SpeechRom.Shell.Script

/-!
# Reading scripts

A reader goes through the letters of a script and counts its lines.  A line
that ends in a backslash is joined to the next one.  What has been read too far
is put back as a token, and documents that were announced wait for the line to
end.
-/

namespace SpeechRom.Shell

/-- The signs that a script is made of. -/
inductive Sign where
  | endOfText
  | newline
  | redirection
  | word
  | semicolon
  | ampersand
  | andThen
  | orElse
  | bar
  | openParen
  | closeParen
  /-- Two semicolons, which end an arm of a choice. -/
  | endOfArm
  | keyword (name : String)
  deriving DecidableEq, Repr, Inhabited

/-- How complaints name a sign. -/
def Sign.describe : Sign → String
  | .endOfText => "end of file"
  | .newline => "newline"
  | .redirection => "redirection"
  | .word => "word"
  | .semicolon => "\";\""
  | .ampersand => "\"&\""
  | .andThen => "\"&&\""
  | .orElse => "\"||\""
  | .bar => "\"|\""
  | .openParen => "\"(\""
  | .closeParen => "\")\""
  | .endOfArm => "\";;\""
  | .keyword name => "\"" ++ name ++ "\""

/-- Why a text is no script. -/
inductive SyntaxFault where
  | unexpected (found : Sign) (expected : Option Sign)
  | openQuote
  | openBackquote
  | openBrace
  | openArithmetic
  | badLoopVariable
  | badFunctionName
  /-- The text nests deeper than the reader goes. -/
  | tooDeep
  deriving DecidableEq, Repr

/-- The wording of a fault. -/
def SyntaxFault.message : SyntaxFault → String
  | .unexpected found none => found.describe ++ " unexpected"
  | .unexpected found (some expected) =>
    found.describe ++ " unexpected (expecting " ++ expected.describe ++ ")"
  | .openQuote => "Unterminated quoted string"
  | .openBackquote => "EOF in backquote substitution"
  | .openBrace => "Missing '\x7d'"
  | .openArithmetic => "Missing '))'"
  | .badLoopVariable => "Bad for loop variable"
  | .badFunctionName => "Bad function name"
  | .tooDeep => "nesting too deep"

/-- The sign of a redirection, without what it leads to. -/
inductive RedirectionSign where
  | file (stream : Nat) (use : FileUse)
  | duplicate (stream : Nat)
  /-- A document; `strip` removes tabs at the start of its lines. -/
  | document (stream : Nat) (strip : Bool)
  deriving DecidableEq, Repr

/-- A token of a script. -/
inductive Token where
  | sign (sign : Sign)
  | word (word : Word)
  | redirection (sign : RedirectionSign)

/-- The sign of a token. -/
def Token.toSign : Token → Sign
  | .sign given => given
  | .word _ => .word
  | .redirection _ => .redirection

/-- A document that was announced and follows the line. -/
structure AwaitedDocument where
  number : Nat
  delimiter : List Char
  strip : Bool
  /-- Whether its text stands for itself. -/
  quoted : Bool

/-- The text of an alias that stands in the script instead of its name. -/
structure AliasText where
  name : String
  /-- The number of letters that follow the text. -/
  behind : Nat
  /-- Whether the text ends in a blank: the next word is looked up too then. -/
  blankAtEnd : Bool

/-- The state of a reader. -/
structure Reader where
  rest : List Char
  line : Nat
  /-- The token that was put back. -/
  pushed : Option Token
  /-- The documents by number. -/
  documents : Array Word
  awaited : List AwaitedDocument
  /-- The document whose text is being read, if one is. -/
  document : Option AwaitedDocument
  /-- The names that stand for other text. -/
  aliases : List (String × List Char)
  /-- The aliases whose text was put into the script. -/
  replacements : List AliasText
  /-- The numbers of letters that were left at the end of the last token, and at the start of the
  last word. -/
  leftAtEnd : Nat
  leftAtWord : Nat

/-- Why a text is refused, in which line that was seen, and how many letters were not read then. -/
structure Rejection where
  line : Nat
  left : Nat
  fault : SyntaxFault

/-- A step of a reader. -/
abbrev Read (α : Type) := StateT Reader (Except Rejection) α

namespace Reader

/-- A reader at the start of a script. -/
def ofLetters (letters : List Char) (documents : Array Word)
    (aliases : List (String × List Char)) : Reader :=
  ⟨letters, 1, none, documents, [], none, aliases, [], 0, 0⟩

/-- The number of letters of the script that were not read; the texts of aliases do not count. -/
def lettersLeft (reader : Reader) : Nat :=
  reader.replacements.foldl (fun left text => min left text.behind) reader.rest.length

end Reader

namespace Read

/-- Refuse the text. -/
def refuse {α : Type} (fault : SyntaxFault) : Read α := do
  let reader ← get
  throw ⟨reader.line, reader.lettersLeft, fault⟩

/-- Refuse a sign where it stands. -/
def unexpected {α : Type} (found : Token) (expected : Option Sign) : Read α :=
  refuse (.unexpected found.toSign expected)

/-! ## Letters -/

/-- Join lines at the front of a text, and count them. -/
def joined : List Char → Nat → List Char × Nat
  | '\\' :: '\n' :: rest, line => joined rest (line + 1)
  | rest, line => (rest, line)

/-- The next letter, which stays. -/
def ahead : Read (Option Char) := do
  let reader ← get
  let (rest, line) := joined reader.rest reader.line
  set { reader with rest, line }
  return rest.head?

/-- Take the next letter as it stands. -/
def takeRaw : Read (Option Char) := do
  let reader ← get
  match reader.rest with
  | [] => return none
  | c :: rest =>
    set { reader with rest, line := if c == '\n' then reader.line + 1 else reader.line }
    return some c

/-- Take the next letter. -/
def next : Read (Option Char) := do
  let _ ← ahead
  takeRaw

/-- Take the next letter without counting it as the end of a line. -/
def nextUncounted : Read (Option Char) := do
  let _ ← ahead
  let line := (← get).line
  let c ← takeRaw
  modify fun reader => { reader with line }
  return c

/-- Put a letter back that is no line end. -/
def putBack (c : Char) : Read Unit := modify fun reader => { reader with rest := c :: reader.rest }

/-- Take the next letter if it is the given one. -/
def takeIf (c : Char) : Read Bool := do
  if (← ahead) = some c then
    let _ ← takeRaw
    return true
  else return false

/-- Take the letters of a class from the front; `fuel` bounds their number. -/
def takeWhile (belongs : Char → Bool) : (fuel : Nat) → List Char → Read (List Char)
  | 0, found => return found.reverse
  | fuel + 1, found => do
    match ← ahead with
    | some c =>
      if belongs c then
        let _ ← takeRaw
        takeWhile belongs fuel (c :: found)
      else return found.reverse
    | none => return found.reverse

/-- Read something as the text of a document, or not as that. -/
def withinDocument {α : Type} (document : Option AwaitedDocument) (action : Read α) : Read α := do
  let before := (← get).document
  modify fun reader => { reader with document }
  let result ← action
  modify fun reader => { reader with document := before }
  return result

/-- A number of steps that is enough to go through what is left. -/
def enough : Read Nat := return (← get).rest.length + 2

/-- The letters of a class at the front. -/
def run (belongs : Char → Bool) : Read (List Char) := do takeWhile belongs (← enough) []

end Read

end SpeechRom.Shell
