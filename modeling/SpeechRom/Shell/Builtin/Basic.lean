import SpeechRom.Shell.Session

/-!
# Commands of the shell itself

How these commands read their arguments: options in front, numbers that are
decimal and not negative.
-/

namespace SpeechRom.Shell

/-- A command of the shell: from its arguments to its status. -/
abbrev Builtin := List Bytes → Step Nat

/-- The number that an argument spells. -/
def operand (text : Bytes) : Step Nat :=
  match operandOf? text with
  | some n => return n
  | none => fail (utf8 "Illegal number: " ++ text)

/-- An option of a command with the text that belongs to it. -/
abbrev GivenOption := Char × Bytes

/-- The options of a group of letters; `allowed` tells which letters are options, and whether a
text belongs to them.  The answer holds the arguments that are left. -/
def groupOptions (allowed : List (Char × Bool)) : Bytes → List Bytes →
    Step (List GivenOption × List Bytes)
  | [], rest => return ([], rest)
  | letter :: letters, rest => do
    let option := Char.ofNat letter.toNat
    match allowed.lookup option, letters, rest with
    | none, _, _ => fail (utf8 "Illegal option -" ++ [letter])
    | some true, [], [] => fail (utf8 "No arg for -" ++ [letter] ++ utf8 " option")
    | some true, [], text :: rest => return ([(option, text)], rest)
    | some true, letters, rest => return ([(option, letters)], rest)
    | some false, letters, rest =>
      let (others, rest) ← groupOptions allowed letters rest
      return ((option, []) :: others, rest)

/-- The options in front of arguments, and the arguments after them; `fuel` bounds the number of
groups. -/
def optionsFrom (allowed : List (Char × Bool)) : (fuel : Nat) → List Bytes →
    Step (List GivenOption × List Bytes)
  | fuel + 1, (0x2d :: letter :: letters) :: rest => do
    if letter = 0x2d && letters.isEmpty then return ([], rest)
    else
      let (first, rest) ← groupOptions allowed (letter :: letters) rest
      let (others, rest) ← optionsFrom allowed fuel rest
      return (first ++ others, rest)
  | _, rest => return ([], rest)

/-- The options in front of arguments, and the arguments after them. -/
def readOptions (allowed : List (Char × Bool)) (arguments : List Bytes) :
    Step (List GivenOption × List Bytes) :=
  optionsFrom allowed (arguments.length + 1) arguments

/-- The arguments of a command that has no options. -/
def withoutOptions (arguments : List Bytes) : Step (List Bytes) := do
  return (← readOptions [] arguments).2

/-- The last of some options that was given. -/
def lastOption (options : List GivenOption) : Option Char := (options.getLast?).map (·.1)

end SpeechRom.Shell
