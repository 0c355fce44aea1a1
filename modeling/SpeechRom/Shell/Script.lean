import SpeechRom.Shell.Bytes

/-!
# Scripts

The commands of a shell.  Words are kept in parts with the quotation marks
still in them, since quoting decides which results are split into fields and
which characters of a pattern stand for themselves.  A command knows its line,
for complaints.
-/

namespace SpeechRom.Shell

/-- How an expansion treats the value of a parameter.  Where it asks for a value that is missing,
an empty one may count as missing too. -/
inductive Expansion where
  | value
  | length
  /-- `-`: a word instead of a missing value. -/
  | orElse
  /-- `=`: a word that becomes the value if it is missing. -/
  | orAssign
  /-- `?`: a complaint if the value is missing. -/
  | orFail
  /-- `+`: a word if the value is not missing. -/
  | ifPresent
  /-- `#` and `%`: remove what a pattern matches at the front or the end. -/
  | remove (front longest : Bool)
  /-- An expansion of no known form, which fails when it is reached. -/
  | malformed
  deriving DecidableEq, Repr

/-- What a redirection does with the file that it names. -/
inductive FileUse where
  | read
  /-- Write from an empty file; `force` even where files must not be replaced. -/
  | write (force : Bool)
  | append
  | update
  deriving DecidableEq, Repr

mutual

/-- A part of a word. -/
inductive WordPart where
  /-- Bytes that stand for themselves, perhaps protected by a quote. -/
  | literal (bytes : Bytes) (quoted : Bool)
  /-- A quotation mark, which opens or closes. -/
  | quote
  | parameter (name : String) (expansion : Expansion) (emptyToo : Bool) (operand : List WordPart)
  | substitution (script : List Command)
  | arithmetic (text : List WordPart)

/-- Where a stream of a command leads to. -/
inductive Redirection where
  | file (stream : Nat) (use : FileUse) (path : List WordPart)
  /-- The same as another stream, or closed. -/
  | duplicate (stream : Nat) (target : List WordPart)
  /-- The text of a document that stands in the script, by its number. -/
  | document (stream : Nat) (number : Nat)

/-- A command of a script. -/
inductive Command where
  | simple (line : Nat) (assignments : List (String × List WordPart))
      (words : List (List WordPart)) (redirections : List Redirection)
  | pipeline (stages : List Command)
  | negation (command : Command)
  | both (first second : Command)
  | either (first second : Command)
  /-- Start a command and go on without waiting for it. -/
  | background (line : Nat) (body : Command)
  | sequence (commands : List Command)
  | subshell (line : Nat) (body : Command) (redirections : List Redirection)
  | redirected (line : Nat) (body : Command) (redirections : List Redirection)
  | branch (condition yes no : Command)
  /-- Repeat the body as long as the condition succeeds, or as long as it fails. -/
  | loop (untilSuccess : Bool) (condition body : Command)
  | each (line : Nat) (name : String) (words : List (List WordPart)) (body : Command)
  | choice (line : Nat) (subject : List WordPart) (arms : List (List (List WordPart) × Command))
  | definition (name : String) (body : Command)

end

/-- A word of a script. -/
abbrev Word := List WordPart

/-- Commands that run one after another. -/
abbrev Script := List Command

instance : Inhabited WordPart := ⟨.quote⟩
instance : Inhabited Command := ⟨.sequence []⟩

namespace WordPart

/-- Whether the part comes from a quote. -/
def isQuoting : WordPart → Bool
  | .literal _ quoted => quoted
  | .quote => true
  | _ => false

/-- The bytes of a part that stands for itself outside of quotes. -/
def bare? : WordPart → Option Bytes
  | .literal bytes false => some bytes
  | _ => none

end WordPart

/-- The text of a word in which nothing is quoted or expanded. -/
def Word.bare? (word : Word) : Option Bytes := (word.mapM WordPart.bare?).map List.flatten

/-- The text of a word whose expansions count for nothing. -/
def Word.plain (word : Word) : Bytes :=
  word.flatMap fun
    | .literal bytes _ => bytes
    | _ => []

end SpeechRom.Shell
