import SpeechRom.Build
import SpeechRom.Commands.Outcome
import SpeechRom.Pack.Speech
import SpeechRom.Random.Seeded

/-!
# Previewing a pack

The command says phrases of a pack.  With a seed it says the same phrases every
time; without one the choices come from entropy that is handed in.
-/

namespace SpeechRom.Commands.Preview

open Files

/-- How the command is used. -/
def usage (program : String) : String :=
  s!"Usage: {program} [options] <phrase_pack_directory>\n" ++
  "\n" ++
  "Options:\n" ++
  "  -n, --count <n>    Number of phrases (default: preview_count from config, 10)\n" ++
  "  --seed <n>         Seed the generator for repeatable output\n" ++
  "  -h, --help         Show this help message\n"

/-- What the arguments say. -/
structure Request where
  phrases : Option String
  count : Option Nat
  seed : Option Nat
  deriving DecidableEq, Repr

/-- Why the arguments ask for no preview. -/
inductive Refusal where
  | help
  | noValue (option : String)
  | badValue (value option : String)
  | unknownOption (option : String)
  | severalDirectories
  | noDirectory
  deriving DecidableEq, Repr

/-- The wording of a refusal. -/
def Refusal.message : Refusal → String
  | .help => ""
  | .noValue option => s!"Error: {option} requires a value\n"
  | .badValue value option => s!"Error: Invalid value '{value}' for {option}\n"
  | .unknownOption option => s!"Error: Unknown option '{option}'\n"
  | .severalDirectories => "Error: Multiple phrase pack directories specified\n"
  | .noDirectory => "Error: No phrase pack directory specified\n"

/-- The numbers that options take are below this. -/
def valueLimit : Nat := UInt64.size

/-- The number that digits spell, perhaps after a plus sign, if it is not too large. -/
def number? (text : String) : Option Nat :=
  let digits := match text.toList with
    | '+' :: rest => rest
    | letters => letters
  if digits.isEmpty || !digits.all Char.isDigit then none
  else
    let n := digits.foldl (fun n c => n * 10 + (c.toNat - '0'.toNat)) 0
    if n < valueLimit then some n else none

/-- Read the arguments from left to right. -/
def readArguments (request : Request) : List String → Except Refusal Request
  | [] => .ok request
  | "-n" :: rest | "--count" :: rest =>
    match rest with
    | [] => .error (.noValue "-n")
    | value :: rest =>
      match number? value with
      | some n => readArguments { request with count := some n } rest
      | none => .error (.badValue value "-n")
  | "--seed" :: rest =>
    match rest with
    | [] => .error (.noValue "--seed")
    | value :: rest =>
      match number? value with
      | some n => readArguments { request with seed := some n } rest
      | none => .error (.badValue value "--seed")
  | "-h" :: _ | "--help" :: _ => .error .help
  | argument :: rest =>
    if argument.startsWith "-" then .error (.unknownOption argument)
    else if request.phrases.isSome then .error .severalDirectories
    else readArguments { request with phrases := some argument } rest

/-- Say phrases of a bank one after another; the answer keeps those said before a failure. -/
def sayMany {σ : Type} (pack : Pack) (source : ChoiceSource σ) (bank : String) :
    (count : Nat) → (said : Array String) → σ → Array String × Option BuildError
  | 0, said, _ => (said, none)
  | count + 1, said, state =>
    match (pack.say source bank).runFrom state with
    | (.ok phrase, state) => sayMany pack source bank count (said.push phrase) state
    | (.error failure, _) => (said, some failure)

variable {φ : Type} [FileSystem φ]

/-- Say phrases of the pack in a directory. -/
def fulfil (files : φ) (request : Request) (entropy : UInt64) (phrases : String) : Outcome φ :=
  match Settings.ofDirectory files phrases with
  | .error fault => .failure files "" s!"Error: {fault.message}\n"
  | .ok settings =>
    match readPack files settings phrases with
    | .error failure => .failure files "" s!"Error: {failure.message}\n"
    | .ok pack =>
      let source := match request.seed with
        | some seed => Random.Seeded.predictable (UInt64.ofNat seed)
        | none => Random.Seeded.uniform entropy
      let count := request.count.getD settings.previewCount
      let (said, failed) :=
        sayMany pack Random.streamSource settings.primaryBank count #[] source.stream
      match failed with
      | none => .success files (lines said.toList)
      | some failure => .failure files (lines said.toList) s!"Error: {failure.message}\n"

/-- Run the command. -/
def run (files : φ) (entropy : UInt64) (program : String) (arguments : List String) :
    Outcome φ :=
  if arguments.isEmpty then .failure files (usage program) ""
  else
    match readArguments ⟨none, none, none⟩ arguments with
    | .error .help => .success files (usage program)
    | .error refusal => .failure files "" refusal.message
    | .ok request =>
      match request.phrases with
      | none => .failure files "" Refusal.noDirectory.message
      | some phrases => fulfil files request entropy phrases

end SpeechRom.Commands.Preview
