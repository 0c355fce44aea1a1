import SpeechRom.BuildError
import SpeechRom.Identifier
import SpeechRom.Text.Pieces

/-!
# The grammar of phrase files

A phrase file belongs to one bank and holds one phrase a line.  The fields of a
line are its tokens: an identifier is a word, an identifier in braces asks for
another bank.  Lines without tokens say nothing.

All bank names are read before any text, so a reference may point forward; a
name may occur in several sources, whose phrases then join in one bank.  The
first violation in reading order is the one reported.
-/

namespace SpeechRom

/-- The text of phrases for a bank. -/
structure Source where
  bank : String
  text : String
  deriving DecidableEq, Repr, Inhabited

namespace Pack

/-- A pack while its sources are read, and the number of the next phrase. -/
structure Draft where
  pack : Pack
  nextPhrase : Nat

/-- The text between an opening brace at the start and a closing one at the end. -/
def unbrace? : List Char → Option (List Char)
  | '\x7b' :: rest => if rest.getLast? = some '\x7d' then some rest.dropLast else none
  | _ => none

/-- Read one token of a line of a bank; a new word joins the pack. -/
def readToken (bank : String) (line : Nat) (pack : Pack) (token : List Char) :
    Except BuildError (Token × Pack) :=
  if isName token then
    let (id, pack) := pack.enterWord (String.ofList token)
    .ok (.word id, pack)
  else
    match (unbrace? token).filter isName with
    | some reference =>
      match pack.findBank? (String.ofList reference) with
      | some target => .ok (.bank target.id, pack)
      | none => .error (.noSuchBank bank line (String.ofList reference))
    | none => .error (.badToken bank line (String.ofList token))

/-- Read the tokens of a line, left to right. -/
def readTokens (bank : String) (line : Nat) (pack : Pack) (tokens : List (List Char)) :
    Except BuildError (Array Token × Pack) :=
  tokens.foldlM (fun (read, pack) token => do
    let (token, pack) ← readToken bank line pack token
    return (read.push token, pack)) (#[], pack)

/-- Read a line of a bank; a line with tokens becomes the bank's next phrase. -/
def readLine (bank : String) (id : BankId) (draft : Draft) (line : List Char × Nat) :
    Except BuildError Draft := do
  let (tokens, pack) ← readTokens bank line.2 draft.pack (Text.fields line.1)
  if tokens.isEmpty then return { draft with pack }
  else
    let phrase : Phrase := ⟨⟨draft.nextPhrase⟩, tokens.toList⟩
    return ⟨pack.addPhrase id phrase, draft.nextPhrase + 1⟩

/-- Read a source; its bank must have a phrase by then. -/
def readSource (draft : Draft) (source : Source) : Except BuildError Draft := do
  let (id, pack) := draft.pack.enterBank source.bank
  let lines := (Text.lines source.text.toList).zipIdx 1
  let draft ← lines.foldlM (readLine source.bank id) { draft with pack }
  match draft.pack.bank? id with
  | some bank => if bank.phrases.isEmpty then .error (.emptyBank source.bank) else .ok draft
  | none => .error (.emptyBank source.bank)

/-- Declare the bank of a source, if its name is an identifier. -/
def declareSource (pack : Pack) (source : Source) : Except BuildError Pack :=
  if isName source.bank.toList then .ok (pack.enterBank source.bank).2
  else .error (.badToken source.bank 0 source.bank)

/-- The pack that a list of sources describes. -/
def ofSources (sources : List Source) : Except BuildError Pack := do
  let declared ← sources.foldlM declareSource Pack.empty
  let draft ← sources.foldlM readSource ⟨declared, 0⟩
  return draft.pack

end Pack

end SpeechRom
