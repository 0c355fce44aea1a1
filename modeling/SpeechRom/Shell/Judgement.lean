import SpeechRom.Shell.Complaint
import SpeechRom.Shell.Condition

/-!
# Conditions of programs

The expressions of the programs `test` and `[`.  They mean what the expressions
of the shell mean, but a word counts as an operator by its place alone, numbers
may be of any size, and complaints are worded in another way.
-/

namespace SpeechRom.Shell.Judgement

open Files

/-- A truth, and the words after those that it was read from. -/
abbrev Answer := Except Bytes (Bool × List Bytes)

/-- What judgements are about: the files and streams, and the last of all words. -/
structure Matter where
  machine : Machine
  last : Bytes

/-- Refuse words that end too early. -/
def Matter.endsEarly (matter : Matter) : Answer :=
  .error (utf8 "missing argument after " ++ quote matter.last)

/-- Whether a word is a letter behind a hyphen. -/
def isSwitch (word : Bytes) : Bool := word.length = 2 && word.head? = some 0x2d

/-- The switches that look at a file or a word. -/
def switches : List String :=
  ["-e", "-r", "-w", "-x", "-N", "-O", "-G", "-f", "-d", "-s", "-S", "-c", "-b", "-p", "-u", "-g",
   "-k", "-L", "-h", "-t", "-n", "-z"]

/-- The comparisons of numbers. -/
def comparisons : List (String × (Int → Int → Bool)) :=
  [("-eq", (· == ·)), ("-ne", (· != ·)), ("-lt", (fun a b => a < b)), ("-le", (fun a b => a ≤ b)),
   ("-gt", (fun a b => b < a)), ("-ge", (fun a b => b ≤ a))]

/-- Whether a word is an operator between two words. -/
def isOperator (word : Bytes) : Bool :=
  let text := asciiText word
  ["=", "==", "!=", "-nt", "-ot", "-ef"].contains text || (comparisons.lookup text).isSome

/-- The integer that a word spells, with blanks around it. -/
def integer (word : Bytes) : Except Bytes Int :=
  let isBlank := fun c => c == ' ' || c == '\t'
  let (negative, digits) := signOf ((lettersOf word).dropWhile isBlank)
  let front := digits.takeWhile Char.isDigit
  if front.isEmpty || !(digits.drop front.length).all isBlank then
    .error (utf8 "invalid integer " ++ quote word)
  else
    let n := Int.ofNat (digitsValue 10 front)
    .ok (if negative then -n else n)

/-! ## Words, switches and operators -/

/-- The truth of a word: whether it holds anything. -/
def oneWord (matter : Matter) : List Bytes → Answer
  | [] => matter.endsEarly
  | word :: rest => .ok (!word.isEmpty, rest)

/-- The truth of a switch. -/
def switch (matter : Matter) : List Bytes → Answer
  | [] => matter.endsEarly
  | word :: rest =>
    if !switches.contains (asciiText word) then
      .error (quote word ++ utf8 ": unary operator expected")
    else
      match rest with
      | [] => matter.endsEarly
      | operand :: rest => do
        if asciiText word = "-t" then
          let _ ← integer operand
        return (Condition.unaryTruth matter.machine word operand, rest)

/-- The number that an operand stands for: its own, or the length of a word. -/
def number (measured : Bool) (word : Bytes) : Except Bytes Int :=
  if measured then .ok (Int.ofNat word.length) else integer word

/-- The truth of an operator and its operands, of which the lengths are compared if `-l` stands in
front of them. -/
def comparison (matter : Matter) (leftMeasured : Bool) : List Bytes → Answer
  | left :: operator :: rest => do
    let (rightMeasured, rest) := match rest with
      | [0x2d, 0x6c] :: right :: rest => (true, right :: rest)
      | rest => (false, rest)
    match rest with
    | [] => matter.endsEarly
    | right :: rest =>
      let text := asciiText operator
      match comparisons.lookup text with
      | some holds =>
        return (holds (← number leftMeasured left) (← number rightMeasured right), rest)
      | none =>
        if text = "==" then return (left = right, rest)
        else if operator.head? = some 0x2d && (leftMeasured || rightMeasured) then
          .error (operator ++ utf8 " does not accept -l")
        else
          let isThere := fun word => pathExists matter.machine.files (pathOf word)
          match text with
          | "-nt" => return (isThere left && !isThere right, rest)
          | "-ot" => return (!isThere left && isThere right, rest)
          | _ => return (← Condition.binaryTruth matter.machine left operator right, rest)
  | _ => matter.endsEarly

/-! ## Expressions -/

/-- Two words: a negated word, or a switch. -/
def twoWords (matter : Matter) : List Bytes → Answer
  | [0x21] :: rest => do
    let (truth, rest) ← oneWord matter rest
    return (!truth, rest)
  | words => if words.head?.any isSwitch then switch matter words else matter.endsEarly

/-- Three words: a comparison, a negation, a word in parentheses, or an expression. -/
def threeWords (matter : Matter) (expression : List Bytes → Answer) (words : List Bytes) :
    Answer := do
  let middle := words[1]?.getD []
  if isOperator middle then comparison matter false words
  else if words.head? = some [0x21] then
    let (truth, rest) ← twoWords matter (words.drop 1)
    return (!truth, rest)
  else if words.head? = some [0x28] && words[2]? = some [0x29] then
    let (truth, rest) ← oneWord matter (words.drop 1)
    return (truth, rest.drop 1)
  else if middle = utf8 "-a" || middle = utf8 "-o" then expression words
  else .error (quote middle ++ utf8 ": binary operator expected")

/-- Words that are read by their number. -/
def counted (matter : Matter) (expression : List Bytes → Answer) (count : Nat)
    (words : List Bytes) : Answer := do
  match count with
  | 1 => oneWord matter words
  | 2 => twoWords matter words
  | 3 => threeWords matter expression words
  | 4 =>
    if words.head? = some [0x21] then
      let (truth, rest) ← threeWords matter expression (words.drop 1)
      return (!truth, rest)
    else if words.head? = some [0x28] && words[3]? = some [0x29] then
      let (truth, rest) ← twoWords matter (words.drop 1)
      return (truth, rest.drop 1)
    else expression words
  | _ => expression words

/-- The number of words up to a closing parenthesis, if they are at most four, or else of all. -/
def enclosed (words : List Bytes) : Nat :=
  let inside := 1 + ((words.drop 1).takeWhile (· ≠ [0x29])).length
  if 4 ≤ inside then words.length else inside

/-- A word, a switch, a comparison or an expression in parentheses, perhaps negated. -/
def term (matter : Matter) (expression : List Bytes → Answer) (words : List Bytes) : Answer := do
  let signs := words.takeWhile (· = [0x21])
  let words := words.drop signs.length
  let (truth, rest) ← (match words with
    | [] => matter.endsEarly
    | [0x28] :: inner => do
      if inner.isEmpty then matter.endsEarly
      else
        match ← counted matter expression (enclosed inner) inner with
        | (truth, [0x29] :: rest) => return (truth, rest)
        | (_, []) => .error (quote [0x29] ++ utf8 " expected")
        | (_, word :: _) =>
          .error (quote [0x29] ++ utf8 " expected, found " ++ quote word)
    | word :: rest =>
      if 4 ≤ words.length && word = utf8 "-l" && isOperator (words[2]?.getD []) then
        comparison matter true rest
      else if 3 ≤ words.length && isOperator (words[1]?.getD []) then
        comparison matter false words
      else if isSwitch word then switch matter words
      else oneWord matter words)
  return (truth != (signs.length % 2 = 1), rest)

/-- Operands joined by an operator, from what the first ones give. -/
def joined (operand : List Bytes → Answer) (operator : Bytes) (join : Bool → Bool → Bool) :
    (fuel : Nat) → (truth : Bool) → List Bytes → Answer
  | 0, truth, words => .ok (truth, words)
  | fuel + 1, truth, words => do
    let (next, rest) ← operand words
    let truth := join truth next
    match rest with
    | word :: rest =>
      if word = operator then joined operand operator join fuel truth rest
      else return (truth, word :: rest)
    | [] => return (truth, [])

/-- An expression. -/
def expression (matter : Matter) : (fuel : Nat) → List Bytes → Answer
  | 0, words => .ok (false, words)
  | fuel + 1, words =>
    let bound := words.length + 1
    let all := joined (term matter (expression matter fuel)) (utf8 "-a") (· && ·) bound true
    joined all (utf8 "-o") (· || ·) bound false words

/-- The truth of words. -/
def truth (machine : Machine) (words : List Bytes) : Except Bytes Bool := do
  match words.getLast? with
  | none => return false
  | some last =>
    let matter : Matter := ⟨machine, last⟩
    let (truth, rest) ← counted matter (expression matter (words.length + 1)) words.length words
    match rest with
    | [] => return truth
    | word :: _ => .error (utf8 "extra argument " ++ quote word)

end SpeechRom.Shell.Judgement
