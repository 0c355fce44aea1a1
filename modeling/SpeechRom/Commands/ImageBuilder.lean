import SpeechRom.Build
import SpeechRom.Commands.Outcome
import SpeechRom.Rom.Listing

/-!
# Building an image from the command line

The command builds an image from a directory of recordings and a pack directory
and prints its listing, or writes the bytes to a file.  The output file is
written last, so a build that fails leaves every file as it was.
-/

namespace SpeechRom.Commands.ImageBuilder

open Files Encoding

/-- How the command is used. -/
def usage (program : String) : String :=
  s!"Usage: {program} [options] <word_bank_directory> <phrase_pack_directory>\n" ++
  "\n" ++
  "Options:\n" ++
  "  -o, --output <file>    Write the raw ROM image instead of a hex dump\n" ++
  "  -c, --config <file>    Config file (default: <phrase_pack_directory>/phrasepack.toml)\n" ++
  "  -v, --verbose          Verbose output\n" ++
  "  -h, --help             Show this help message\n" ++
  "\n" ++
  "Word recordings are <word>.wav files, phrase banks are <bank>.txt files.\n" ++
  "The [encoder] section of the config names the program that encodes each .wav.\n"

/-- What the arguments say. -/
structure Request where
  /-- The directories, in order. -/
  inputs : List String
  /-- The file to write, of several the last. -/
  outputFile : Option String
  /-- The settings file, of several the last. -/
  settingsFile : Option String
  verbose : Bool
  deriving DecidableEq, Repr

/-- Why the arguments ask for no build. -/
inductive Refusal where
  | help
  | noOutputFile
  | noSettingsFile
  | unknownOption (option : String)
  deriving DecidableEq, Repr

/-- Read the arguments from left to right; the value of an option is no argument of its own. -/
def readArguments (request : Request) : List String → Except Refusal Request
  | [] => .ok request
  | "-o" :: rest | "--output" :: rest =>
    match rest with
    | file :: rest => readArguments { request with outputFile := some file } rest
    | [] => .error .noOutputFile
  | "-c" :: rest | "--config" :: rest =>
    match rest with
    | file :: rest => readArguments { request with settingsFile := some file } rest
    | [] => .error .noSettingsFile
  | "-v" :: rest | "--verbose" :: rest => readArguments { request with verbose := true } rest
  | "-h" :: _ | "--help" :: _ => .error .help
  | argument :: rest =>
    if argument.startsWith "-" then .error (.unknownOption argument)
    else readArguments { request with inputs := request.inputs ++ [argument] } rest

variable {φ : Type} [FileSystem φ]

/-- The end of a command that is refused. -/
def refuse (files : φ) (program : String) : Refusal → Outcome φ
  | .help => .success files (usage program)
  | .noOutputFile => .failure files "" "Error: -o requires a filename\n"
  | .noSettingsFile => .failure files "" "Error: -c requires a filename\n"
  | .unknownOption option =>
    .failure files (usage program) s!"Error: Unknown option '{option}'\n"

/-- The settings of a request: those of its settings file, or those of the pack directory. -/
def settingsOf (files : φ) (request : Request) (phrases : String) :
    Except Settings.Fault Settings :=
  match request.settingsFile with
  | some path => Settings.ofFile files path
  | none => Settings.ofDirectory files phrases

/-- Hand over a finished image: write it to the output file, or print its listing.  The output file
may be the name of a stream of the command itself. -/
def deliver (files : φ) (request : Request) (settings : Settings) (opening : String)
    (pack : Pack) (image : Rom.Image) : Outcome φ :=
  match request.outputFile with
  | none =>
    .success files (opening ++ "============= START ROM DATA =============\n" ++
      image.listing pack settings.bytesPerLine ++ "\n")
  | some path =>
    match (FileSystem.write path image.bytes).runFrom files with
    | (.error reason, after) =>
      .failure after opening s!"Error writing '{path}': {reason.message}\n"
    | (.ok (), after) =>
      let closing := if request.verbose then
        s!"Successfully compiled {image.bytes.length} bytes to {path}\n" else ""
      match FileSystem.streamAt? files path with
      | some 1 => ⟨0, Text.utf8 opening ++ image.bytes ++ Text.utf8 closing, [], after⟩
      | some 2 => ⟨0, Text.utf8 (opening ++ closing), image.bytes, after⟩
      | _ => .success after (opening ++ closing)

/-- Build what a request asks for, with the encoder program that the settings name. -/
def fulfil (launch : Launcher φ) (files : φ) (request : Request) (recordings phrases : String) :
    Outcome φ :=
  match settingsOf files request phrases with
  | .error fault => .failure files "" s!"Error: {fault.message}\n"
  | .ok settings =>
    match settings.encoderCommand with
    | .error fault => .failure files "" s!"Error: {fault.message}\n"
    | .ok (encoderProgram, encoderArguments) =>
      let opening := if request.verbose then
        s!"Compiling {recordings} + {phrases} (primary bank \"{settings.primaryBank}\")\n" else ""
      let encoder := Encoder.command launch encoderProgram encoderArguments
      match (build files settings encoder recordings phrases).runFrom files with
      | (.error failure, after) =>
        .failure after opening s!"Compilation error: {failure.message}\n"
      | (.ok (pack, image), after) => deliver after request settings opening pack image

/-- Run the command. -/
def run (launch : Launcher φ) (files : φ) (program : String) (arguments : List String) :
    Outcome φ :=
  if arguments.length < 2 then .failure files (usage program) ""
  else
    match readArguments ⟨[], none, none, false⟩ arguments with
    | .error refusal => refuse files program refusal
    | .ok request =>
      match request.inputs with
      | [recordings, phrases] => fulfil launch files request recordings phrases
      | _ =>
        .failure files (usage program)
          "Error: Expected a word bank directory and a phrase pack directory\n"

end SpeechRom.Commands.ImageBuilder
