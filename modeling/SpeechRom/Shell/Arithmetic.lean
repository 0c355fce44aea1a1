import SpeechRom.Shell.Numeral

/-!
# Arithmetic

Expressions on integers of 64 bits, which wrap around.  The operators and their
ranks are those of most languages; a name stands for the number that a variable
spells, and an assignment gives the variable a new one.
-/

namespace SpeechRom.Shell

/-- An operator between two numbers. -/
inductive Operator where
  | times
  | over
  | modulo
  | plus
  | minus
  | shiftLeft
  | shiftRight
  | less
  | atMost
  | greater
  | atLeast
  | equal
  | different
  | bitAnd
  | bitXor
  | bitOr
  deriving DecidableEq, Repr

/-- An operator on one number. -/
inductive SignOperator where
  | negative
  | not
  | complement
  deriving DecidableEq, Repr

/-- Why an expression has no value. -/
inductive ArithmeticFault where
  | noPrimary
  | noClosing
  | noColon
  | noEnd
  | divisionByZero
  deriving DecidableEq, Repr

/-- An arithmetic expression. -/
inductive Arithmetic where
  | number (value : Int64)
  | name (name : String)
  | prefixed (operator : SignOperator) (operand : Arithmetic)
  | infixed (operator : Operator) (left right : Arithmetic)
  | and (left right : Arithmetic)
  | or (left right : Arithmetic)
  | choice (condition yes no : Arithmetic)
  /-- An assignment; with an operator, of the old number and the given one. -/
  | assign (name : String) (operator : Option Operator) (value : Arithmetic)
  /-- An expression after which the text does not go on as it should. -/
  | unfinished (before : Arithmetic) (fault : ArithmeticFault)
  deriving Repr

/-- The wording of a fault of an expression. -/
def ArithmeticFault.message (fault : ArithmeticFault) (text : Bytes) : Bytes :=
  let reason := match fault with
    | .noPrimary => "expecting primary"
    | .noClosing => "expecting ')'"
    | .noColon => "expecting ':'"
    | .noEnd => "expecting EOF"
    | .divisionByZero => "division by zero"
  utf8 ("arithmetic expression: " ++ reason ++ ": \"") ++ text ++ utf8 "\""

namespace Operator

/-- The operators by their signs. -/
def signs : List (String × Operator) :=
  [("*", .times), ("/", .over), ("%", .modulo), ("+", .plus), ("-", .minus), ("<<", .shiftLeft),
   (">>", .shiftRight), ("<", .less), ("<=", .atMost), (">", .greater), (">=", .atLeast),
   ("==", .equal), ("!=", .different), ("&", .bitAnd), ("^", .bitXor), ("|", .bitOr)]

/-- The rank of an operator; the lower one binds more tightly. -/
def rank : Operator → Nat
  | .times | .over | .modulo => 1
  | .plus | .minus => 2
  | .shiftLeft | .shiftRight => 3
  | .less | .atMost | .greater | .atLeast => 4
  | .equal | .different => 5
  | .bitAnd => 6
  | .bitXor => 7
  | .bitOr => 8

/-- The number for a truth. -/
def ofTruth (truth : Bool) : Int64 := if truth then 1 else 0

/-- Apply an operator. -/
def apply (left : Int64) (operator : Operator) (right : Int64) : Except ArithmeticFault Int64 :=
  match operator with
  | .times => .ok (left * right)
  | .over => if right = 0 then .error .divisionByZero else .ok (left / right)
  | .modulo => if right = 0 then .error .divisionByZero else .ok (left % right)
  | .plus => .ok (left + right)
  | .minus => .ok (left - right)
  | .shiftLeft => .ok (left <<< right)
  | .shiftRight => .ok (left >>> right)
  | .less => .ok (ofTruth (left < right))
  | .atMost => .ok (ofTruth (left ≤ right))
  | .greater => .ok (ofTruth (right < left))
  | .atLeast => .ok (ofTruth (right ≤ left))
  | .equal => .ok (ofTruth (left = right))
  | .different => .ok (ofTruth (left ≠ right))
  | .bitAnd => .ok (left &&& right)
  | .bitXor => .ok (left ^^^ right)
  | .bitOr => .ok (left ||| right)

end Operator

/-- Apply an operator to one number. -/
def SignOperator.apply : SignOperator → Int64 → Int64
  | .negative, n => -n
  | .not, n => Operator.ofTruth (n = 0)
  | .complement, n => ~~~n

namespace Arithmetic

/-! ## Tokens -/

/-- A token of an expression. -/
inductive Token where
  | number (value : Int64)
  | name (name : String)
  | sign (text : String)
  /-- A letter of no expression. -/
  | stray
  deriving DecidableEq, Repr

/-- The signs of expressions; of two that fit the longer one counts. -/
def signs : List String :=
  ["<<=", ">>=", "<<", ">>", "<=", ">=", "==", "!=", "&&", "||", "*=", "/=", "%=", "+=", "-=",
   "&=", "^=", "|=", "<", ">", "*", "/", "%", "+", "-", "&", "^", "|", "!", "~", "?", ":", "=",
   "(", ")"]

/-- The tokens of an expression. -/
def tokens : (fuel : Nat) → List Char → List Token
  | 0, _ => []
  | _, [] => []
  | fuel + 1, c :: rest =>
    if c == ' ' || c == '\t' || c == '\n' then tokens fuel rest
    else if c.isDigit then
      let numeral := Numeral.read true true (c :: rest)
      if numeral.present then .number (Int64.ofInt numeral.value) :: tokens fuel numeral.rest
      else [.stray]
    else if startsName c then
      let name := c :: rest.takeWhile continuesName
      .name (String.ofList name) :: tokens fuel (rest.drop (name.length - 1))
    else
      match signs.find? fun sign => sign.toList.isPrefixOf (c :: rest) with
      | some sign => .sign sign :: tokens fuel ((c :: rest).drop sign.length)
      | none => [.stray]

/-! ## Reading expressions -/

/-- The state of a reader: the tokens that are left, and the first fault that was found. -/
structure Reading where
  tokens : List Token
  fault : Option ArithmeticFault

/-- A step that takes tokens from the front. -/
abbrev Parse (α : Type) := StateM Reading α

/-- The tokens that are left. -/
def left : Parse (List Token) := return (← get).tokens

/-- Go on with other tokens. -/
def goOn (tokens : List Token) : Parse Unit := modify fun reading => { reading with tokens }

/-- Read no further.  What was read is worked out all the same: a number that cannot be had is
complained about before the text that follows it. -/
def giveUp (before : Arithmetic) (fault : ArithmeticFault) : Parse Arithmetic := do
  let first := (← get).fault.getD fault
  set (⟨[], some first⟩ : Reading)
  return .unfinished before first

/-- Give up where an operand should stand. -/
def noOperand : Parse Arithmetic := giveUp (.number 0) .noPrimary

/-- The operator that stands at the front, if it binds more tightly than a rank. -/
def operatorBelow (rank : Nat) : List Token → Option (Operator × List Token)
  | .sign text :: rest =>
    match Operator.signs.lookup text with
    | some operator => if operator.rank < rank then some (operator, rest) else none
    | none => none
  | _ => none

/-- Take a sign if it stands at the front. -/
def takeSign (text : String) : Parse Bool := do
  match ← left with
  | .sign other :: rest =>
    if other = text then
      goOn rest
      return true
    else return false
  | _ => return false

/-- A number, a name, a sign before an operand, or an expression in parentheses. -/
def primary (whole : Parse Arithmetic) : (fuel : Nat) → Parse Arithmetic
  | 0 => noOperand
  | fuel + 1 => do
    match ← left with
    | .number value :: rest =>
      goOn rest
      return .number value
    | .name called :: rest =>
      goOn rest
      return .name called
    | .sign text :: rest =>
      goOn rest
      match text with
      | "(" =>
        let inside ← whole
        if ← takeSign ")" then return inside else giveUp inside .noClosing
      | "+" => primary whole fuel
      | "-" => return .prefixed .negative (← primary whole fuel)
      | "!" => return .prefixed .not (← primary whole fuel)
      | "~" => return .prefixed .complement (← primary whole fuel)
      | _ => noOperand
    | _ => noOperand

/-- Go on with the operators that bind more tightly than a rank. -/
def binaryFrom (operand : Parse Arithmetic) : (fuel : Nat) → (rank : Nat) → Arithmetic →
    Parse Arithmetic
  | 0, _, _ => noOperand
  | fuel + 1, rank, first => do
    match operatorBelow rank (← left) with
    | none => return first
    | some (operator, rest) =>
      goOn rest
      let second ← binaryFrom operand fuel operator.rank (← operand)
      binaryFrom operand fuel rank (.infixed operator first second)

/-- Operands joined by a sign that looks at the truth of what is before. -/
def joinedBy (sign : String) (join : Arithmetic → Arithmetic → Arithmetic)
    (operand : Parse Arithmetic) : (fuel : Nat) → Parse Arithmetic
  | 0 => noOperand
  | fuel + 1 => do
    let first ← operand
    if ← takeSign sign then return join first (← joinedBy sign join operand fuel) else return first

/-- The operator of a sign that assigns. -/
def assigns? (text : String) : Option (Option Operator) :=
  if text = "=" then some none
  else
    match text.toList.reverse with
    | '=' :: front =>
      match Operator.signs.lookup (String.ofList front.reverse) with
      | some operator =>
        if operator.rank ≤ 3 || operator.rank ≥ 6 then some (some operator) else none
      | none => none
    | _ => none

/-- An expression that is no assignment. -/
def conditional (whole : Parse Arithmetic) : (fuel : Nat) → Parse Arithmetic
  | 0 => noOperand
  | fuel + 1 => do
    let operand := primary whole fuel
    let binary := do binaryFrom operand fuel 9 (← operand)
    let condition ← joinedBy "||" .or (joinedBy "&&" .and binary fuel) fuel
    if ← takeSign "?" then
      let yes ← whole
      if ← takeSign ":" then return .choice condition yes (← conditional whole fuel)
      else giveUp (.choice condition yes (.number 0)) .noColon
    else return condition

/-- An expression. -/
def expression : (fuel : Nat) → Parse Arithmetic
  | 0 => noOperand
  | fuel + 1 => do
    match ← left with
    | .name called :: .sign text :: rest =>
      match assigns? text with
      | some operator =>
        goOn rest
        return .assign called operator (← expression fuel)
      | none => conditional (expression fuel) (fuel + 1)
    | _ => conditional (expression fuel) (fuel + 1)

/-- Read a text as an expression; the answer holds what is wrong with the text, too. -/
def parse (text : Bytes) : Arithmetic × Option ArithmeticFault :=
  let tokens := tokens (text.length + 1) (lettersOf text)
  let (whole, reading) := (expression (tokens.length + 2)).run ⟨tokens, none⟩
  (whole, if reading.tokens.isEmpty then reading.fault else some .noEnd)

/-! ## Evaluation -/

/-- How an evaluation reads and sets variables, and fails. -/
structure Environment (m : Type → Type) where
  lookUp : String → m Int64
  store : String → Int64 → m Unit
  fail : ArithmeticFault → m Int64

/-- The value of an expression.  The right side of `&&` and `||` and the branches of a choice
are evaluated only where they count. -/
def evaluate {m : Type → Type} [Monad m] (environment : Environment m) : Arithmetic → m Int64
  | .number value => return value
  | .name called => environment.lookUp called
  | .prefixed operator operand => do return operator.apply (← evaluate environment operand)
  | .infixed operator left right => do
    let a ← evaluate environment left
    let b ← evaluate environment right
    match operator.apply a b with
    | .ok value => return value
    | .error fault => environment.fail fault
  | .and left right => do
    if (← evaluate environment left) = 0 then return 0
    else return Operator.ofTruth ((← evaluate environment right) ≠ 0)
  | .or left right => do
    if (← evaluate environment left) ≠ 0 then return 1
    else return Operator.ofTruth ((← evaluate environment right) ≠ 0)
  | .choice condition yes no => do
    if (← evaluate environment condition) ≠ 0 then evaluate environment yes
    else evaluate environment no
  | .assign called operator value => do
    let given ← evaluate environment value
    let result ← match operator with
      | none => pure given
      | some operator => do
        match operator.apply (← environment.lookUp called) given with
        | .ok value => pure value
        | .error fault => environment.fail fault
    environment.store called result
    return result
  | .unfinished before fault => do
    let _ ← evaluate environment before
    environment.fail fault

end Arithmetic

end SpeechRom.Shell
