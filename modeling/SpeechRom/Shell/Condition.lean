import SpeechRom.Shell.Machine
import SpeechRom.Shell.Numeral

/-!
# Conditions

The expressions of the command `test`: operators on words, numbers and files,
joined by `-a`, `-o`, `!` and parentheses.  Short expressions are read by the
number of their words, so that a word that looks like an operator can still be
an operand.
-/

namespace SpeechRom.Shell.Condition

open Files

/-- The kinds of operators. -/
inductive Kind where
  /-- Before a word. -/
  | unary
  /-- Between two words. -/
  | binary
  | not
  | and
  | or
  | openParen
  | closeParen
  deriving DecidableEq, Repr

/-- The operators before a word. -/
def unaryOperators : List String :=
  ["-r", "-w", "-x", "-e", "-f", "-d", "-c", "-b", "-p", "-u", "-g", "-k", "-s", "-t", "-z",
   "-n", "-h", "-O", "-G", "-L", "-S"]

/-- The operators between words. -/
def binaryOperators : List String :=
  ["=", "!=", "<", ">", "-eq", "-ne", "-ge", "-gt", "-le", "-lt", "-nt", "-ot", "-ef"]

/-- The kind of a word that is an operator. -/
def kind? (word : Bytes) : Option Kind :=
  let text := asciiText word
  if unaryOperators.contains text then some .unary
  else if binaryOperators.contains text then some .binary
  else
    match text with
    | "!" => some .not
    | "-a" => some .and
    | "-o" => some .or
    | "(" => some .openParen
    | ")" => some .closeParen
    | _ => none

/-- What a word counts as. -/
inductive Lexeme where
  | ended
  | operand
  | operator (kind : Kind)
  deriving DecidableEq, Repr

/-- Whether a word that looks like an operator before a word is followed as an operand is. -/
def followedAsOperand (words : Array Bytes) (index : Nat) : Bool :=
  match words[index + 1]?, words[index + 2]? with
  | none, _ => true
  | some _, none => false
  | some next, some _ => kind? next = some .binary

/-- What the word at an index counts as. -/
def lexeme (words : Array Bytes) (index : Nat) : Lexeme :=
  match words[index]? with
  | none => .ended
  | some word =>
    match kind? word with
    | none => .operand
    | some .unary => if followedAsOperand words index then .operand else .operator .unary
    | some .openParen =>
      if (words[index + 1]?).isNone then .operand else .operator .openParen
    | some kind => .operator kind

/-! ## Truth -/

/-- The truth of an operator before a word. -/
def unaryTruth (machine : Machine) (operator operand : Bytes) : Bool :=
  match asciiText operator with
  | "-z" => operand.isEmpty
  | "-n" => !operand.isEmpty
  | "-h" | "-L" => (machine.files.streamAt? (pathOf operand)).isSome
  | operator =>
    match machine.look (pathOf operand) with
    | .error _ => false
    | .ok .pipe => ["-e", "-r", "-w", "-O", "-G", "-p"].contains operator
    | .ok (.node node) =>
      match operator with
      | "-e" | "-r" | "-w" | "-O" | "-G" => true
      | "-f" => node.isFile
      | "-d" => node.isDirectory
      | "-x" => node.isDirectory || node.isProgram
      | "-c" => node.isDevice
      | "-s" => node.isDirectory || node.isProgram || !(node.content?.getD []).isEmpty
      | _ => false

/-- The integer that a word spells. -/
def integer (word : Bytes) : Except Bytes Int :=
  match integerOf? false word with
  | some n => .ok n
  | none => .error (utf8 "Illegal number: " ++ word)

/-- Compare two words as integers. -/
def compare (holds : Int → Int → Bool) (left right : Bytes) : Except Bytes Bool := do
  return holds (← integer left) (← integer right)

/-- Whether a word comes before another in the order of bytes. -/
def isBefore : Bytes → Bytes → Bool
  | _, [] => false
  | [], _ :: _ => true
  | a :: first, b :: second => if a = b then isBefore first second else a < b

/-- The truth of an operator between two words. -/
def binaryTruth (machine : Machine) (left operator right : Bytes) : Except Bytes Bool :=
  match asciiText operator with
  | "=" => .ok (left = right)
  | "!=" => .ok (left ≠ right)
  | "<" => .ok (isBefore left right)
  | ">" => .ok (isBefore right left)
  | "-eq" => compare (· == ·) left right
  | "-ne" => compare (· != ·) left right
  | "-lt" => compare (fun a b => a < b) left right
  | "-le" => compare (fun a b => a ≤ b) left right
  | "-gt" => compare (fun a b => b < a) left right
  | "-ge" => compare (fun a b => b ≤ a) left right
  | "-ef" =>
    match machine.files.locate (pathOf left), machine.files.locate (pathOf right) with
    | .ok first, .ok second => .ok (first = second)
    | _, _ => .ok false
  | _ => .ok false

/-! ## Expressions -/

/-- A truth and the index of the last word that it was read from. -/
abbrev Answer := Except Bytes (Bool × Nat)

/-- The complaint that an operator lacks an operand. -/
def lacksArgument (operator : Bytes) : Answer :=
  .error (operator ++ utf8 ": argument expected")

/-- A word, an operator with its words, or an expression in parentheses. -/
def primary (machine : Machine) (words : Array Bytes) (whole : Lexeme → Nat → Answer)
    (lexeme : Lexeme) (index : Nat) : Answer :=
  let here := words[index]?.getD []
  match lexeme with
  | .ended => .ok (false, index)
  | .operator .openParen =>
    match Condition.lexeme words (index + 1) with
    | .operator .closeParen => .ok (false, index + 1)
    | inside => do
      let (truth, last) ← whole inside (index + 1)
      if Condition.lexeme words (last + 1) = .operator .closeParen then return (truth, last + 1)
      else .error (utf8 "closing paren expected")
  | .operator .unary =>
    match words[index + 1]? with
    | some operand => do
      if here = utf8 "-t" then
        let _ ← integer operand
      return (unaryTruth machine here operand, index + 1)
    | none => lacksArgument here
  | _ =>
    match Condition.lexeme words (index + 1) with
    | .operator .binary => do
      let operator := words[index + 1]?.getD []
      match words[index + 2]? with
      | some right => return (← binaryTruth machine here operator right, index + 2)
      | none => lacksArgument operator
    | _ => .ok (!here.isEmpty, index)

/-- A primary expression, perhaps negated. -/
def negation (primary : Lexeme → Nat → Answer) (words : Array Bytes) :
    (fuel : Nat) → Lexeme → Nat → Answer
  | 0, _, index => .ok (false, index)
  | fuel + 1, .operator .not, index => do
    let next := lexeme words (index + 1)
    let (truth, last) ← negation primary words fuel next
      (if next = .ended then index else index + 1)
    return (!truth, last)
  | _ + 1, first, index => primary first index

/-- Expressions joined by an operator, from what the first ones give. -/
def joined (operand : Lexeme → Nat → Answer) (words : Array Bytes) (kind : Kind)
    (join : Bool → Bool → Bool) : (fuel : Nat) → (truth : Bool) → Lexeme → Nat → Answer
  | 0, truth, _, index => .ok (truth, index)
  | fuel + 1, truth, first, index => do
    let (next, last) ← operand first index
    let truth := join truth next
    if lexeme words (last + 1) = .operator kind then
      joined operand words kind join fuel truth (lexeme words (last + 2)) (last + 2)
    else return (truth, last)

/-- An expression. -/
def expression (machine : Machine) (words : Array Bytes) : (fuel : Nat) → Lexeme → Nat → Answer
  | 0, _, index => .ok (false, index)
  | fuel + 1, first, index =>
    let primary := primary machine words (expression machine words fuel)
    let negation := negation primary words (words.size + 1)
    let all := joined negation words .and (· && ·) (words.size + 1) true
    joined all words .or (· || ·) (words.size + 1) false first index

/-- The truth of words that are an expression as a whole. -/
def whole (machine : Machine) (words : List Bytes) (first : Option Lexeme) : Except Bytes Bool := do
  let words := words.toArray
  let (truth, last) ← expression machine words (words.size + 1) (first.getD (lexeme words 0)) 0
  if (words[last]?).isSome && (words[last + 1]?).isSome then
    let word := words[last]?.getD []
    .error (if word.isEmpty then utf8 "unexpected operator"
      else word ++ utf8 ": unexpected operator")
  else return truth

/-- The truth of words; the number of them tells how they are read.  A sign of negation in front of
three or four of them negates the whole, and no second one does. -/
def truthFrom (machine : Machine) (negated : Bool) (words : List Bytes) : Except Bytes Bool := do
  let settle := fun (truth : Bool) => truth != negated
  match words with
  | [] => return settle false
  | [left, operator, right] =>
    if kind? operator = some .binary then
      return settle (← whole machine [left, operator, right] (some .operand))
    else if left = utf8 "(" && right = utf8 ")" then return settle (← whole machine [operator] none)
    else if left = utf8 "!" then truthFrom machine true [operator, right]
    else return settle (← whole machine [left, operator, right] none)
  | [first, second, third, last] =>
    if first = utf8 "(" && last = utf8 ")" then return settle (← whole machine [second, third] none)
    else if first = utf8 "!" then truthFrom machine true [second, third, last]
    else return settle (← whole machine [first, second, third, last] none)
  | words => return settle (← whole machine words none)

/-- The truth of words. -/
def truth (machine : Machine) (words : List Bytes) : Except Bytes Bool :=
  truthFrom machine false words

end SpeechRom.Shell.Condition
