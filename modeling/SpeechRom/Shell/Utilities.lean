import SpeechRom.Shell.Cat
import SpeechRom.Shell.Judgement
import SpeechRom.Shell.PrintfProgram

/-!
# Programs

The small programs that scripts are made of, as processes see them: they work
on the streams and files of a process and end with a status.
-/

namespace SpeechRom.Shell

/-- Write the output of a program; the answer is its end. -/
def writeOutput (name output : Bytes) : Work Status := do
  if output.isEmpty then return .exited 0
  else
    match ← Machine.write 1 output with
    | .ok () => return .exited 0
    | .error reason => endUnwritten name reason

/-! ## Writing arguments -/

/-- Whether an argument is a group of options of `echo`. -/
def isEchoOption (argument : Bytes) : Bool :=
  argument.head? = some 0x2d && argument.length > 1 &&
    (argument.drop 1).all fun letter => letter == 0x6e || letter == 0x65 || letter == 0x45

/-- What stands behind a backslash, and what follows it.  Escapes of quotes and characters are none,
and so is one that would be refused. -/
def echoEscape (text : Bytes) : PrintfProgram.Escape × Bytes :=
  if text.head?.any (utf8 "uU\"").contains then (.bytes [0x5c], text)
  else
    match PrintfProgram.escape true text with
    | (.refused _, _) => (.bytes [0x5c], text)
    | found => found

/-- Replace the escapes of a text; the answer says whether one of them stopped all output. -/
def echoEscapes : (fuel : Nat) → Bytes → Bytes × Bool
  | 0, _ => ([], false)
  | _, [] => ([], false)
  | fuel + 1, 0x5c :: rest =>
    match echoEscape rest with
    | (.bytes bytes, rest) =>
      let (out, stopped) := echoEscapes fuel rest
      (bytes ++ out, stopped)
    | _ => ([], true)
  | fuel + 1, byte :: rest =>
    let (out, stopped) := echoEscapes fuel rest
    (byte :: out, stopped)

/-- What `echo` writes, with escapes only on request. -/
def echoText (arguments : List Bytes) : Bytes :=
  let options := arguments.takeWhile isEchoOption
  let letters := options.flatMap (·.drop 1)
  let text := joinWords (arguments.drop options.length)
  let escapes := (letters.filter (· != 0x6e)).getLast? == some 0x65
  let (text, stopped) := if escapes then echoEscapes (text.length + 1) text else (text, false)
  if letters.contains 0x6e || stopped then text else text ++ [0x0a]

/-- Run `echo` under a name. -/
def echo (name : Bytes) (arguments : List Bytes) : Work Status :=
  writeOutput name (echoText arguments)

/-! ## Conditions -/

/-- The words of a condition, without the bracket that closes it if one must. -/
def conditionWords (bracketed : Bool) (arguments : List Bytes) : Option (List Bytes) :=
  if !bracketed then some arguments
  else if arguments.getLast? = some (utf8 "]") then some arguments.dropLast
  else none

/-- Run `test` under a name, or `[` with a closing bracket. -/
def test (bracketed : Bool) (name : Bytes) (arguments : List Bytes) : Work Status := do
  let refused := fun (complaint : Bytes) => do
    complainAs name complaint
    return .exited 2
  match conditionWords bracketed arguments with
  | none => refused (utf8 "missing ']'")
  | some words =>
    match Judgement.truth (← get) words with
    | .ok truth => return .exited (if truth then 0 else 1)
    | .error complaint => refused complaint

/-! ## Programs by name -/

/-- A program that is no shell, under a name and with arguments. -/
def utility (program : String) (name : Bytes) (arguments : List Bytes) : Work Status :=
  match program with
  | "cat" => cat name arguments
  | "echo" => echo name arguments
  | "printf" => printf name arguments
  | "test" => test false name arguments
  | "[" => test true name arguments
  | "true" => return .exited 0
  | _ => return .exited 1

end SpeechRom.Shell
