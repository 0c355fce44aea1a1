import SpeechRom.Shell.Reader

/-!
# Words

A word goes on up to a letter that ends it outside of quotes.  Quotes, braces,
parentheses and documents nest, and each place has its own rules on what ends
it, what a backslash protects and which letters introduce something.
-/

namespace SpeechRom.Shell

open Read

/-- Where letters of a word stand. -/
inductive Place where
  | plain
  /-- The word that names the end of a document, in which nothing is expanded. -/
  | delimiter
  /-- Behind the operator in braces, outside of quotes. -/
  | operand
  /-- Between double quotes, perhaps within an operand. -/
  | quoted (inOperand : Bool)
  /-- Behind the operator in braces between double quotes; `inner` between further quotes. -/
  | quotedOperand (inner : Bool)
  /-- In the text of a document. -/
  | document
  /-- In an arithmetic expression, within a number of parentheses. -/
  | arithmetic (depth : Nat)
  deriving DecidableEq

namespace Place

/-- Whether the rules of double quotes hold. -/
def isQuoted : Place → Bool
  | .plain | .delimiter | .operand => false
  | _ => true

/-- A letter that ends a word. -/
def endsWord (c : Char) : Bool :=
  c == ' ' || c == '\t' || c == '\n' || c == ';' || c == '&' || c == '|' || c == '<' ||
    c == '>' || c == '(' || c == ')'

/-- Whether a place ends in front of a letter. -/
def endsBefore (place : Place) (c : Char) : Bool :=
  match place with
  | .plain | .delimiter => endsWord c
  | _ => false

/-- Whether a backslash protects a letter and vanishes; elsewhere it stands for itself. -/
def protects (place : Place) (c : Char) : Bool :=
  let always := c == '\\' || c == '\x60' || c == '$'
  match place with
  | .plain | .delimiter | .operand => true
  | .quoted inOperand => always || c == '"' || (c == '\x7d' && inOperand)
  | .quotedOperand _ => always || c == '"' || c == '\x7d'
  | .document => always
  | .arithmetic _ => always || c == '"'

/-- The fault of a text that ends in a place, if it must not end there; in a document a quote can
only stand within braces, which count first. -/
def openFault? (inDocument : Bool) : Place → Option SyntaxFault
  | .plain | .delimiter | .document => none
  | .operand => some .openBrace
  | .quoted _ | .quotedOperand _ => some (if inDocument then .openBrace else .openQuote)
  | .arithmetic _ => some .openArithmetic

end Place

/-! ## Documents -/

/-- What follows a delimiter that makes up the whole line at the front of a text. -/
def afterDelimiter? (delimiter : List Char) (strip : Bool) (text : List Char) :
    Option (List Char) :=
  let text := if strip then text.dropWhile (· == '\t') else text
  if delimiter.isPrefixOf text then
    match text.drop delimiter.length with
    | [] => some []
    | '\n' :: rest => some rest
    | _ => none
  else none

/-- End a document if its delimiter stands here; else go to the first letter of the line. -/
def endOfDocument (delimiter : List Char) (strip : Bool) : Read Bool := do
  let reader ← get
  match afterDelimiter? delimiter strip reader.rest with
  | some rest =>
    set { reader with rest, line := reader.line + 1 }
    return true
  | none =>
    if strip then set { reader with rest := reader.rest.dropWhile (· == '\t') }
    return reader.rest.isEmpty

/-- The lines of a document that stands for itself. -/
def rawDocument (delimiter : List Char) (strip : Bool) : (fuel : Nat) → List Char →
    Read (List Char)
  | 0, found => return found
  | fuel + 1, found => do
    if ← endOfDocument delimiter strip then return found
    let reader ← get
    let line := reader.rest.takeWhile (· != '\n')
    let ended := reader.rest.drop line.length
    set { reader with rest := ended.drop 1, line := reader.line + ended.head?.toList.length }
    rawDocument delimiter strip fuel (found ++ line ++ ended.take 1)

/-! ## Parts of a word -/

/-- One letter that stands for itself. -/
def letter (c : Char) (quoted : Bool) : WordPart := .literal [byteOf c] quoted

/-- Parts in their order, with neighbouring letters put together; they come last first. -/
def gathered (parts : List WordPart) : List WordPart :=
  parts.foldl (fun later part =>
    match part, later with
    | .literal bytes quoted, .literal others alike :: rest =>
      if quoted = alike then .literal (bytes ++ others) quoted :: rest else part :: later
    | _, _ => part :: later) []

/-- What a script within a word is read by: in parentheses, or up to the end of the text. -/
abbrev InnerScript := (inParentheses : Bool) → Read Script

/-- Read a script in a text of its own. -/
def readApart (text : List Char) (script : Read Script) : Read Script := do
  let outer ← get
  set (Reader.ofLetters text outer.documents outer.aliases)
  let commands ← script
  let inner ← get
  set { outer with documents := inner.documents }
  return commands

/-- The text up to the closing back quote; a backslash protects some letters. -/
def backquotedText (quoted : Bool) : (fuel : Nat) → List Char → Read (List Char)
  | 0, _ => refuse .tooDeep
  | fuel + 1, found => do
    match ← next with
    | none => refuse .openBackquote
    | some '\x60' => return found.reverse
    | some '\\' =>
      match ← takeRaw with
      | none => refuse .openBackquote
      | some c =>
        let protects := c == '\\' || c == '\x60' || c == '$' || (quoted && c == '"')
        backquotedText quoted fuel (if protects then c :: found else c :: '\\' :: found)
    | some c => backquotedText quoted fuel (c :: found)

/-- The operator that follows the name of a parameter in braces, if one does. -/
def operator : Read (Option (Expansion × Bool)) := do
  match ← nextUncounted with
  | some '\x7d' => return none
  | some ':' =>
    match ← nextUncounted with
    | some '-' => return some (.orElse, true)
    | some '=' => return some (.orAssign, true)
    | some '?' => return some (.orFail, true)
    | some '+' => return some (.ifPresent, true)
    | some '\x7d' => return some (.value, true)
    | _ => return some (.malformed, false)
  | some '-' => return some (.orElse, false)
  | some '=' => return some (.orAssign, false)
  | some '?' => return some (.orFail, false)
  | some '+' => return some (.ifPresent, false)
  | some '#' => return some (.remove true (← takeIf '#'), false)
  | some '%' => return some (.remove false (← takeIf '%'), false)
  | _ => return some (.malformed, false)

/-- The name of a parameter in braces: a variable, a position, or a special sign. -/
def bracedName : Read (Option String) := do
  match ← ahead with
  | none => return none
  | some c =>
    if startsName c then return some (String.ofList (← run continuesName))
    else if c.isDigit then return some (String.ofList (← run Char.isDigit))
    else if c == '\x7d' then return none
    else
      let _ ← nextUncounted
      return if isSpecialName c then some (String.singleton c) else none

/-- What stands after a number sign in braces: the length of a parameter, or the number of
arguments with an operator. -/
def afterNumberSign : Read (String × Option (Expansion × Bool)) := do
  match ← ahead with
  | none => return ("#", ← operator)
  | some c =>
    if c == '_' || c.isAlphanum then
      let name := (← bracedName).getD ""
      let closed := (← ahead) = some '\x7d'
      return (name, some (if closed then .length else .malformed, false))
    else
      let _ ← next
      if c != '\x7d' && (← ahead) = some '\x7d' then
        return (String.singleton c, some (if isSpecialName c then .length else .malformed, false))
      else
        putBack c
        return ("#", ← operator)

/-- The name of a parameter in braces and its operator. -/
def bracedHead : Read (String × Option (Expansion × Bool)) := do
  if ← takeIf '#' then afterNumberSign
  else
    match ← bracedName with
    | none => return ("", some (.malformed, false))
    | some name => return (name, ← operator)

/-- What a dollar sign introduces in a place. -/
def expansionAt (inner : InnerScript) (nested : Place → Read (List WordPart)) (place : Place) :
    Read WordPart := do
  if place = .delimiter then return letter '$' false
  match ← ahead with
  | none => return letter '$' place.isQuoted
  | some c =>
    if c == '(' then
      let _ ← next
      if ← takeIf '(' then return .arithmetic (gathered (← nested (.arithmetic 0)))
      else
        let awaited := (← get).awaited
        modify fun reader => { reader with awaited := [] }
        let commands ← withinDocument none (inner true)
        modify fun reader => { reader with awaited }
        return .substitution commands
    else if c == '\x7b' then
      let _ ← next
      let (name, operator) ← bracedHead
      match operator with
      | none => return .parameter name .value false []
      | some (expansion, emptyToo) =>
        let operandPlace := match expansion with
          | .remove _ _ => .operand
          | _ => if place.isQuoted then .quotedOperand false else .operand
        return .parameter name expansion emptyToo (gathered (← nested operandPlace))
    else if startsName c then
      return .parameter (String.ofList (← run continuesName)) .value false []
    else if isSpecialName c then
      let _ ← next
      return .parameter (String.singleton c) .value false []
    else return letter '$' place.isQuoted

/-- The parts of a word in a place, last first, up to what ends the place. -/
def partsAt (inner : InnerScript) : (fuel : Nat) → Place → List WordPart → Read (List WordPart)
  | 0, _, _ => refuse .tooDeep
  | fuel + 1, place, found => do
    let nested := fun place => partsAt inner fuel place []
    let goOn := partsAt inner fuel place
    let ordinary := fun (c : Char) => goOn (letter c place.isQuoted :: found)
    match ← ahead with
    | none =>
      match place.openFault? (← get).document.isSome with
      | some fault => refuse fault
      | none => return found
    | some c =>
      if place.endsBefore c then return found
      let _ ← takeRaw
      match c, place with
      | '\\', _ =>
        match ← takeRaw with
        | none => goOn (letter '\\' true :: found)
        | some c =>
          goOn (if place.protects c then letter c true :: found
            else letter c true :: letter '\\' true :: found)
      | '$', _ => goOn ((← expansionAt inner nested place) :: found)
      | '\x60', .delimiter => ordinary c
      | '\x60', _ =>
        let text ← backquotedText place.isQuoted (← enough) []
        goOn (.substitution (← readApart text (inner false)) :: found)
      | '\'', .plain | '\'', .delimiter | '\'', .operand =>
        let reader ← get
        let text := reader.rest.takeWhile (· != '\'')
        match reader.rest.drop text.length with
        | [] =>
          set { reader with rest := [], line := reader.line + text.count '\n' }
          refuse .openQuote
        | _ :: rest =>
          set { reader with rest, line := reader.line + text.count '\n' }
          goOn (.quote :: .literal (bytesOf text) true :: .quote :: found)
      | '"', .plain | '"', .delimiter | '"', .operand =>
        let text ← nested (.quoted (place = .operand))
        goOn (.quote :: text ++ .quote :: found)
      | '"', .quoted _ => return found
      | '"', .quotedOperand within =>
        partsAt inner fuel (.quotedOperand !within) (.quote :: found)
      | '\x7d', .operand | '\x7d', .quotedOperand false => return found
      | '\n', place =>
        let found := letter c place.isQuoted :: found
        match (← get).document with
        | none => goOn found
        | some document =>
          if ← endOfDocument document.delimiter document.strip then
            match place.openFault? true with
            | some fault => refuse fault
            | none => return found
          else goOn found
      | '(', .arithmetic depth =>
        partsAt inner fuel (.arithmetic (depth + 1)) (letter c true :: found)
      | ')', .arithmetic 0 => if ← takeIf ')' then return found else ordinary c
      | ')', .arithmetic (depth + 1) =>
        partsAt inner fuel (.arithmetic depth) (letter c true :: found)
      | c, _ => ordinary c

/-- The word that starts here. -/
def wordAt (inner : InnerScript) (place : Place) : Read Word := do
  return gathered (← partsAt inner (2 * (← enough)) place [])

/-- The text of a document that starts here. -/
def documentText (inner : InnerScript) (document : AwaitedDocument) : Read Word := do
  if document.quoted then
    let text ← rawDocument document.delimiter document.strip (← enough) []
    return [.literal (bytesOf text) true]
  else if ← endOfDocument document.delimiter document.strip then return []
  else withinDocument (some document) (wordAt inner .document)

/-- Read the documents that were announced. -/
def readDocuments (inner : InnerScript) : Read Unit := do
  let awaited := (← get).awaited
  modify fun reader => { reader with awaited := [] }
  awaited.forM fun document => do
    let text ← documentText inner document
    modify fun reader =>
      { reader with documents := reader.documents.setIfInBounds document.number text }

end SpeechRom.Shell
