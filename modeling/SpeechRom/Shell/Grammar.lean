import SpeechRom.Shell.Word

/-!
# The grammar of scripts

A script is read line by line: as many lines as its commands take up.  What a
word means depends on where it stands, so the reader is told at each token
whether reserved words count and whether line ends do.

The grammar nests through `script`, whose first argument bounds how deep.
-/

namespace SpeechRom.Shell

open Read

/-! ## Tokens -/

/-- The words that open, divide or close a compound command. -/
def reservedWords : List String :=
  ["!", "case", "do", "done", "elif", "else", "esac", "fi", "for", "if", "in", "then", "until",
   "while", "\x7b", "\x7d"]

/-- The commands that belong to the language itself: an error in one of them ends the script, and
no function takes their names. -/
def specialCommands : List String :=
  [".", ":", "break", "continue", "eval", "exec", "exit", "export", "local", "readonly", "return",
   "set", "shift", "times", "trap", "unset"]

/-- The sign of a redirection; the stream may be given in front of it. -/
def redirectionSign (stream : Option Nat) : Read Token := do
  let sign ← (do
    if (← next) = some '>' then
      let output := stream.getD 1
      if ← takeIf '>' then return RedirectionSign.file output .append
      else if ← takeIf '|' then return .file output (.write true)
      else if ← takeIf '&' then return .duplicate output
      else return .file output (.write false)
    else
      let input := stream.getD 0
      if ← takeIf '<' then return .document input (← takeIf '-')
      else if ← takeIf '&' then return .duplicate input
      else if ← takeIf '>' then return .file input .update
      else return .file input .read)
  return .redirection sign

/-- A token that starts with a word: the word, or the redirection of a stream by its number. -/
def wordToken (inner : InnerScript) (place : Place) : Read Token := do
  let word ← wordAt inner place
  let redirects := (← ahead) = some '<' || (← ahead) = some '>'
  match redirects, word with
  | true, [] => redirectionSign none
  | true, [.literal [digit] false] =>
    let letter := Char.ofNat digit.toNat
    if letter.isDigit then redirectionSign (some (letter.toNat - 48)) else return .word word
  | _, _ => return .word word

/-- One sign or two of the same letter. -/
def doubled (c : Char) (once twice : Sign) : Read Token := do
  let _ ← next
  return .sign (if ← takeIf c then twice else once)

/-- The next token of the text, where reserved words are words. -/
def freshToken (inner : InnerScript) (place : Place) : (fuel : Nat) → Read Token
  | 0 => refuse .tooDeep
  | fuel + 1 => do
    match ← ahead with
    | none => return .sign .endOfText
    | some ' ' | some '\t' =>
      let _ ← next
      freshToken inner place fuel
    | some '#' =>
      modify fun reader => { reader with rest := reader.rest.dropWhile (· != '\n') }
      freshToken inner place fuel
    | some '\n' =>
      let _ ← next
      return .sign .newline
    | some '&' => doubled '&' .ampersand .andThen
    | some '|' => doubled '|' .bar .orElse
    | some ';' => doubled ';' .semicolon .endOfArm
    | some '(' =>
      let _ ← next
      return .sign .openParen
    | some ')' =>
      let _ ← next
      return .sign .closeParen
    | some _ =>
      modify fun reader => { reader with leftAtWord := reader.rest.length }
      wordToken inner place

/-- Put a token back. -/
def push (token : Token) : Read Unit := modify fun reader => { reader with pushed := some token }

/-- The token that was put back, or else the next one of the text. -/
def pushedOrFresh (inner : InnerScript) (place : Place) : Read Token := do
  match (← get).pushed with
  | some token =>
    modify fun reader => { reader with pushed := none }
    return token
  | none =>
    modify fun reader => { reader with leftAtEnd := reader.rest.length }
    freshToken inner place (← enough)

/-- Pass over line ends; the documents that were announced come after the first. -/
def passLines (inner : InnerScript) : (fuel : Nat) → Token → Read Token
  | 0, token => return token
  | fuel + 1, token => do
    match token with
    | .sign .newline =>
      readDocuments inner
      passLines inner fuel (← pushedOrFresh inner .plain)
    | token => return token

/-- A word as the reserved word that it is. -/
def Token.asReserved : Token → Token
  | .word given =>
    match given.bare? with
    | some bytes =>
      let text := asciiText bytes
      if reservedWords.contains text then .sign (.keyword text) else .word given
    | none => .word given
  | token => token

/-- Whether the last word follows the text of an alias that ends in a blank. -/
def Reader.followsBlank (reader : Reader) : Bool :=
  reader.replacements.any fun text =>
    text.blankAtEnd && text.behind < reader.leftAtEnd && reader.leftAtWord ≤ text.behind

/-- Put the text of an alias into the script instead of the last word, unless that is itself of the
text of the alias; the answer is whether there is one. -/
def replaceAlias (word : Word) : Read Bool := do
  let reader ← get
  let name := (word.bare?.map asciiText).getD ""
  let inUse := reader.replacements.any fun text =>
    text.name = name && text.behind < reader.leftAtWord
  match if inUse then none else reader.aliases.lookup name with
  | none => return false
  | some value =>
    let left := reader.rest.length
    let blankAtEnd := value.getLast?.any fun c => c == ' ' || c == '\t'
    set { reader with
      rest := value ++ reader.rest
      replacements := ⟨name, left, blankAtEnd⟩ ::
        reader.replacements.filter fun text => text.behind ≤ left }
    return true

/-- The next token; `lines` passes over line ends, `reserved` heeds reserved words, `replaces` puts
in the text of aliases.  `fuel` bounds the number of these. -/
def tokenFrom (inner : InnerScript) (lines reserved replaces : Bool) : (fuel : Nat) → Read Token
  | 0 => refuse .tooDeep
  | fuel + 1 => do
    let first ← pushedOrFresh inner .plain
    let token ← if lines then passLines inner (← enough) first else pure first
    match if reserved then token.asReserved else token with
    | .word word =>
      let replaced ← if replaces || (← get).followsBlank then replaceAlias word else pure false
      if replaced then tokenFrom inner lines reserved replaces fuel else return .word word
    | token => return token

/-- The number of aliases that may stand for each other in one place. -/
def maxAliases : Nat := 10000

/-- The next token; `lines` passes over line ends, `reserved` heeds reserved words. -/
def token (inner : InnerScript) (lines reserved : Bool) : Read Token :=
  tokenFrom inner lines reserved false maxAliases

/-- The next token where a command starts, in which aliases count. -/
def commandToken (inner : InnerScript) (lines reserved : Bool) : Read Token :=
  tokenFrom inner lines reserved true maxAliases

/-- Look at the next token, with which a command starts. -/
def lookAhead (inner : InnerScript) (lines reserved : Bool) : Read Token := do
  let token ← commandToken inner lines reserved
  push token
  return token

/-- Take a sign that must stand here. -/
def expect (inner : InnerScript) (lines reserved : Bool) (sign : Sign) : Read Unit := do
  let token ← token inner lines reserved
  if token.toSign ≠ sign then unexpected token (some sign)

/-! ## Redirections and simple commands -/

/-- What a redirection leads to. -/
def redirectionAfter (inner : InnerScript) (sign : RedirectionSign) : Read Redirection := do
  let place := match sign with
    | .document _ _ => .delimiter
    | _ => .plain
  match ← pushedOrFresh inner place with
  | .word word =>
    match sign with
    | .file stream use => return .file stream use word
    | .duplicate stream => return .duplicate stream word
    | .document stream strip =>
      let reader ← get
      let number := reader.documents.size
      let document := ⟨number, lettersOf word.plain, strip, word.any WordPart.isQuoting⟩
      set { reader with documents := reader.documents.push []
                        awaited := reader.awaited ++ [document] }
      return .document stream number
  | token => unexpected token none

/-- The redirections that follow a compound command. -/
def redirections (inner : InnerScript) : (fuel : Nat) → (reserved : Bool) →
    Read (List Redirection)
  | 0, _ => return []
  | fuel + 1, reserved => do
    match ← token inner false reserved with
    | .redirection sign =>
      let first ← redirectionAfter inner sign
      return first :: (← redirections inner fuel false)
    | token =>
      push token
      return []

/-- The parts of a simple command while they are read, last first. -/
structure SimpleParts where
  assignments : List (String × Word)
  words : List Word
  redirections : List Redirection

/-- The name and value of a word that is an assignment. -/
def assignment? : Word → Option (String × Word)
  | .literal bytes false :: rest =>
    let letters := lettersOf bytes
    let name := letters.takeWhile continuesName
    match letters.drop name.length with
    | '=' :: value =>
      if isVariableName name then
        some (String.ofList name,
          if value.isEmpty then rest else .literal (bytesOf value) false :: rest)
      else none
    | _ => none
  | _ => none

/-- The name that a word gives to a function. -/
def functionName (word : Word) : Read String := do
  match word.bare? with
  | some bytes =>
    let letters := lettersOf bytes
    let name := String.ofList letters
    if isVariableName letters && !specialCommands.contains name then return name
    else refuse .badFunctionName
  | none => refuse .badFunctionName

/-- A simple command from its first token on, or the definition of a function. -/
def simpleFrom (inner : InnerScript) (body : Read Command) (line : Nat) :
    (fuel : Nat) → SimpleParts → Read Command
  | 0, _ => refuse .tooDeep
  | fuel + 1, parts => do
    match ← tokenFrom inner false false parts.words.isEmpty maxAliases, parts.words with
    | .word word, words =>
      match words, assignment? word with
      | [], some assignment =>
        simpleFrom inner body line fuel
          { parts with assignments := assignment :: parts.assignments }
      | _, _ => simpleFrom inner body line fuel { parts with words := word :: words }
    | .redirection sign, _ =>
      let redirection ← redirectionAfter inner sign
      simpleFrom inner body line fuel
        { parts with redirections := redirection :: parts.redirections }
    | .sign .openParen, [word] =>
      if parts.assignments.isEmpty && parts.redirections.isEmpty then
        expect inner false false .closeParen
        let name ← functionName word
        let _ ← lookAhead inner true true
        return .definition name (← body)
      else
        push (.sign .openParen)
        return .simple line parts.assignments.reverse [word] parts.redirections.reverse
    | token, words =>
      push token
      return .simple line parts.assignments.reverse words.reverse parts.redirections.reverse

/-! ## Compound commands -/

/-- How far a script reaches. -/
inductive Extent where
  /-- To the end of a line. -/
  | line
  /-- To the word that closes it; there is at least one command. -/
  | body
  /-- To the word that closes it. -/
  | optional
  /-- One command. -/
  | single
  deriving DecidableEq

/-- The sign of a reserved word. -/
def reservedSign (word : String) : Sign := .keyword word

/-- A conditional after its opening word. -/
def branchesFrom (inner : InnerScript) (body : Read Command) : (fuel : Nat) → Read Command
  | 0 => refuse .tooDeep
  | fuel + 1 => do
    let condition ← body
    expect inner false false (reservedSign "then")
    let yes ← body
    let next ← token inner false false
    if next.toSign = reservedSign "elif" then
      return .branch condition yes (← branchesFrom inner body fuel)
    else if next.toSign = reservedSign "else" then
      return .branch condition yes (← body)
    else
      push next
      return .branch condition yes (.sequence [])

/-- The words of a loop, up to the end of the line or a semicolon. -/
def loopWords (inner : InnerScript) : (fuel : Nat) → List Word → Read (List Word)
  | 0, _ => refuse .tooDeep
  | fuel + 1, found => do
    match ← token inner false false with
    | .word word => loopWords inner fuel (word :: found)
    | .sign .newline | .sign .semicolon => return found.reverse
    | token => unexpected token none

/-- All arguments, each by itself. -/
def allArguments : Word := [.quote, .parameter "@" .value false [], .quote]

/-- A loop over words after its opening word. -/
def eachFrom (inner : InnerScript) (body : Read Command) (line : Nat) : Read Command := do
  let name ← (do
    match ← token inner false false with
    | .word word =>
      let letters := (word.bare?.map lettersOf).getD []
      if isVariableName letters then return String.ofList letters else refuse .badLoopVariable
    | _ => refuse .badLoopVariable)
  let words ← (do
    let next ← token inner true true
    if next.toSign = reservedSign "in" then loopWords inner (← enough) []
    else
      if next.toSign ≠ .semicolon then push next
      return [allArguments])
  expect inner true true (reservedSign "do")
  return .each line name words (← body)

/-- The patterns of an arm, up to the parenthesis that closes them. -/
def armPatterns (inner : InnerScript) : (fuel : Nat) → Token → List Word → Read (List Word)
  | 0, _, _ => refuse .tooDeep
  | fuel + 1, pattern, found => do
    let word := match pattern with
      | .word word => word
      | _ => []
    match pattern, ← token inner false false with
    | .sign .endOfText, _ => unexpected pattern (some .closeParen)
    | _, .sign .bar => armPatterns inner fuel (← token inner false false) (word :: found)
    | _, .sign .closeParen => return (word :: found).reverse
    | _, token => unexpected token (some .closeParen)

/-- The arms of a choice up to its closing word. -/
def arms (inner : InnerScript) (script : Read Command) : (fuel : Nat) →
    List (List Word × Command) → Read (List (List Word × Command))
  | 0, _ => refuse .tooDeep
  | fuel + 1, found => do
    let first ← token inner true true
    if first.toSign = reservedSign "esac" then return found.reverse
    let first ← match first with
      | .sign .openParen => token inner false false
      | token => pure token
    let patterns ← armPatterns inner (← enough) first []
    let found := (patterns, ← script) :: found
    let next ← token inner true true
    if next.toSign = reservedSign "esac" then return found.reverse
    else if next.toSign = .endOfArm then arms inner script fuel found
    else unexpected next (some .endOfArm)

/-- A choice after its opening word. -/
def choiceFrom (inner : InnerScript) (script : Read Command) (line : Nat) : Read Command := do
  match ← token inner false false with
  | .word subject =>
    expect inner true true (reservedSign "in")
    return .choice line subject (← arms inner script (← enough) [])
  | token => unexpected token (some .word)

/-- A command with the redirections that follow it. -/
def withRedirections (inner : InnerScript) (line : Nat) (command : Command) : Read Command := do
  match command, ← redirections inner (← enough) true with
  | command, [] => return command
  | .subshell line body _, redirections => return .subshell line body redirections
  | command, redirections => return .redirected line command redirections

/-- A compound command after its opening word, up to the word that closes it. -/
def closedBy (inner : InnerScript) (line : Nat) (command : Read Command) (closing : Sign) :
    Read Command := do
  let command ← command
  expect inner false false closing
  withRedirections inner line command

/-- A command of any form, given the scripts that it holds. -/
def commandOf (script : Extent → Read Command) (inner : InnerScript) : Read Command := do
  let line := (← get).line
  let body := script .body
  let opening ← token inner false false
  match opening with
  | .word _ | .redirection _ =>
    push opening
    simpleFrom inner (script .single) line (← enough) ⟨[], [], []⟩
  | .sign .openParen =>
    closedBy inner line (return .subshell line (← body) []) .closeParen
  | .sign (.keyword word) =>
    match word with
    | "if" => do closedBy inner line (branchesFrom inner body (← enough)) (reservedSign "fi")
    | "while" | "until" =>
      closedBy inner line (do
        let condition ← body
        expect inner false false (reservedSign "do")
        return .loop (word = "until") condition (← body)) (reservedSign "done")
    | "for" => closedBy inner line (eachFrom inner body line) (reservedSign "done")
    | "case" => do
      withRedirections inner line (← choiceFrom inner (script .optional) line)
    | "\x7b" => closedBy inner line body (reservedSign "\x7d")
    | _ => unexpected opening none
  | _ => unexpected opening none

/-! ## Lists of commands -/

/-- Further commands that a pipe leads to. -/
def stagesFrom (inner : InnerScript) (command : Read Command) : (fuel : Nat) → Read (List Command)
  | 0 => refuse .tooDeep
  | fuel + 1 => do
    match ← token inner false false with
    | .sign .bar =>
      let _ ← lookAhead inner true true
      let stage ← command
      return stage :: (← stagesFrom inner command fuel)
    | token =>
      push token
      return []

/-- Commands joined by pipes, perhaps negated. -/
def pipelineOf (inner : InnerScript) (command : Read Command) : Read Command := do
  let first ← token inner false false
  let negated := first.toSign = reservedSign "!"
  if negated then
    let _ ← lookAhead inner false true
  else push first
  let stage ← command
  let stages ← stagesFrom inner command (← enough)
  let whole := if stages.isEmpty then stage else .pipeline (stage :: stages)
  return if negated then .negation whole else whole

/-- Further pipelines, joined by the signs that look at the success of what is before. -/
def alternativesFrom (inner : InnerScript) (pipeline : Read Command) : (fuel : Nat) → Command →
    Read Command
  | 0, _ => refuse .tooDeep
  | fuel + 1, whole => do
    match ← token inner false false with
    | .sign .andThen =>
      let _ ← lookAhead inner true true
      alternativesFrom inner pipeline fuel (.both whole (← pipeline))
    | .sign .orElse =>
      let _ ← lookAhead inner true true
      alternativesFrom inner pipeline fuel (.either whole (← pipeline))
    | token =>
      push token
      return whole

/-- Whether a sign ends a list of commands. -/
def Sign.endsList : Sign → Bool
  | .endOfText | .closeParen | .endOfArm => true
  | .keyword name => ["do", "done", "elif", "else", "esac", "fi", "then", "\x7d"].contains name
  | _ => false

/-- The commands of a list; the answer is nothing if the text has ended before the first. -/
def commandsFrom (inner : InnerScript) (pipeline : Read Command) (extent : Extent) :
    (fuel : Nat) → (mayEnd : Bool) → Script → Read (Option Script)
  | 0, _, _ => refuse .tooDeep
  | fuel + 1, mayEnd, found => do
    let first ← commandToken inner (extent ≠ .line) true
    match first with
    | .sign .newline =>
      readDocuments inner
      return some found.reverse
    | .sign .endOfText =>
      readDocuments inner
      push first
      return if found.isEmpty && extent = .line then none else some found.reverse
    | _ =>
      push first
      if mayEnd && extent ≠ .line && first.toSign.endsList then return some found.reverse
      let line := (← get).line
      let command ← alternativesFrom inner pipeline (← enough) (← pipeline)
      let next ← token inner false false
      match next with
      | .sign .ampersand =>
        commandsFrom inner pipeline extent fuel true (.background line command :: found)
      | .sign .semicolon => commandsFrom inner pipeline extent fuel true (command :: found)
      | .sign .newline =>
        push next
        commandsFrom inner pipeline extent fuel true (command :: found)
      | .sign .endOfText =>
        readDocuments inner
        push next
        return some (command :: found).reverse
      | _ =>
        if extent = .line then unexpected next none
        push next
        return some (command :: found).reverse

/-- Commands as one command. -/
def Command.ofScript : Script → Command
  | [command] => command
  | commands => .sequence commands

/-- A script between parentheses or backquotes, whose commands are read as told. -/
def innerBy (script : Read (Option Script)) : InnerScript := fun inParentheses => do
  let commands ← script
  if inParentheses then
    let next ← pushedOrFresh (fun _ => refuse .tooDeep) .plain
    if next.toSign ≠ .closeParen then unexpected next (some .closeParen)
  return commands.getD []

/-- A script that reaches as far as told and nests no deeper than `depth`. -/
def script : (depth : Nat) → Extent → Read (Option Script)
  | 0, _ => refuse .tooDeep
  | depth + 1, extent => do
    let whole := fun (extent : Extent) => do
      return Command.ofScript ((← script depth extent).getD [])
    let inner := innerBy (script depth .optional)
    let command := commandOf whole inner
    match extent with
    | .single => return some [← command]
    | _ =>
      commandsFrom inner (pipelineOf inner command) extent (← enough) (extent = .optional) []

/-! ## Reading line by line -/

/-- What the next lines of a script hold. -/
inductive NextCommands where
  | commands (script : Script)
  | ended
  | rejected (rejection : Rejection)

/-- Read the commands of the next line, or of as many lines as they take up. -/
def Reader.nextCommands (reader : Reader) : NextCommands × Reader :=
  match script (reader.rest.length + 2) .line { reader with pushed := none } with
  | .ok (some commands, reader) => (.commands commands, reader)
  | .ok (none, reader) => (.ended, reader)
  | .error rejection => (.rejected rejection, reader)

/-- Read a text that stands by itself and is expanded like a document; the answer holds the
documents with those of the scripts in it. -/
def templateOf (letters : List Char) (documents : Array Word) :
    Except Rejection (Word × Array Word) := do
  let inner := innerBy (script (letters.length + 2) .optional)
  let (word, reader) ← wordAt inner .document (.ofLetters letters documents [])
  return (word, reader.documents)

end SpeechRom.Shell
