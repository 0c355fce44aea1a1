import SpeechRom.Commands.Program
import SpeechRom.Proofs.Commands.Arguments
import SpeechRom.Proofs.Files.Enumeration
import SpeechRom.Proofs.Files.Writing
import SpeechRom.Proofs.Stages

/-!
# What a build writes

A build goes through stages: it reads its arguments and the settings, looks for the encoder, and
builds the image.  `run_writes_only_images` says that the contents of files change only after all of
them succeeded, and then by one write: the bytes of the image go to the last output file that the
arguments name.  A build that fails before leaves all files as they are and prints no image.

This holds on every system of files that writes in place (`Files.WritesInPlace`), and for every way
to run encoder programs.  An encoder could change files by itself; it is assumed that it does not
(`EncoderKeepsFiles`).

## Strategy

A run ends in one of three ways (`Ended`): help was asked for, a stage failed, or an image was
handed over.  Building leaves the contents alone since encoding does (`keeps_build`), so only handing
over is left to change them, by the one write that is its first step.
-/

namespace SpeechRom

open Files

/-! ## Building changes no file -/

section Build

variable {φ σ : Type} {P : σ → Prop} {encoder : Encoder σ}

theorem keeps_addRecording {file : NamedFile} (hencoder : (encoder.encode file.path).Keeps P)
    (vocabulary : Vocabulary) : (addRecording encoder vocabulary file).Keeps P := by
  refine hencoder.bind fun data => ?_
  split
  · exact .throw _
  · exact .pure _

/-- What an encoder keeps when it encodes, a build keeps. -/
theorem keeps_build [FileSystem φ] {files : φ} {recordings : String} (settings : Settings)
    (phrases : String)
    (hencoder : ∀ found, namedFiles files recordings recordingExtension = .ok found →
      ∀ file ∈ found, (encoder.encode file.path).Keeps P) :
    (build files settings encoder recordings phrases).Keeps P := by
  have hencode : (encodeRecordings files encoder recordings).Keeps P := by
    unfold encodeRecordings
    cases hfound : namedFiles files recordings recordingExtension with
    | error fault => exact .throw _
    | ok found =>
        exact .foldlM (fun file hfile => keeps_addRecording (hencoder found hfound file hfile)) ∅
  refine (Attempt.Keeps.ofExcept _).bind fun pack => hencode.bind fun vocabulary => ?_
  exact (Attempt.Keeps.ofExcept _).bind fun image => .pure _

/-- An encoder program keeps what it keeps when it is run. -/
theorem keeps_command {P : φ → Prop} {launch : Encoding.Launcher φ} {program path : String}
    {arguments : List String} (hlaunch : (launch program (arguments ++ [path])).Keeps P) :
    ((Encoder.command launch program arguments).encode path).Keeps P := by
  refine hlaunch.caught.bind fun answer => ?_
  split
  · exact .throw _
  · split
    · exact .pure _
    · exact .throw _

end Build

namespace Commands.ImageBuilder

/-! ## The stages of a run -/

/-- The last output file that the items name. -/
def outputFile (items : List Item) : Option String := (items.filterMap Item.outputFile?).getLast?

section Stages

variable {φ : Type} [FileSystem φ]

/-- The arguments, the settings and the encoder are there. -/
structure Prepared (files : φ) (arguments : List String) (items : List Item)
    (recordings phrases : String) (settings : Settings) (encoder : String × List String) :
    Prop where
  spells : Spells items arguments
  inputs : items.filterMap Item.input? = [recordings, phrases]
  settings_eq : settingsOf files (Request.ofItems items) phrases = .ok settings
  encoder_eq : settings.encoderCommand = .ok encoder

/-- All stages succeed, and the image is there in a state of the system that they lead to. -/
def Builds (launch : Encoding.Launcher φ) (files : φ) (arguments : List String)
    (items : List Item) (settings : Settings) (pack : Pack) (image : Rom.Image) (built : φ) : Prop :=
  ∃ recordings phrases encoder,
    Prepared files arguments items recordings phrases settings encoder ∧
      (build files settings (Encoder.command launch encoder.1 encoder.2) recordings phrases).runFrom
        files = (.ok (pack, image), built)

/-- Some image is built. -/
def Succeeds (launch : Encoding.Launcher φ) (files : φ) (arguments : List String) : Prop :=
  ∃ items settings pack image built, Builds launch files arguments items settings pack image built

/-- Help is asked for, behind some items. -/
def AsksHelp (arguments : List String) : Prop :=
  2 ≤ arguments.length ∧ ∃ items spelled rest, Spells items spelled ∧
    arguments = spelled ++ rest ∧ Stops .help rest

/-- The encoder program leaves the contents of the files as they are, on every recording that it may
be started for. -/
def EncoderKeepsFiles (launch : Encoding.Launcher φ) (files : φ) (arguments : List String) : Prop :=
  ∀ items recordings phrases settings encoder found file,
    Prepared files arguments items recordings phrases settings encoder →
    namedFiles files recordings recordingExtension = .ok found → file ∈ found →
    (launch encoder.1 (encoder.2 ++ [file.path])).Keeps (SameContents files)

/-- The line that a verbose build starts with. -/
def openingLine (recordings phrases : String) (settings : Settings) : String :=
  s!"Compiling {recordings} + {phrases} (primary bank \"{settings.primaryBank}\")\n"

/-- What a run prints that hands over no image: the usage, nothing, or the opening line. -/
def Quiet (files : φ) (program : String) (arguments : List String) (output : List UInt8) : Prop :=
  output = Text.utf8 (usage program) ∨ output = [] ∨
    ∃ items recordings phrases settings encoder,
      Prepared files arguments items recordings phrases settings encoder ∧
        output = Text.utf8 (openingLine recordings phrases settings)

variable {launch : Encoding.Launcher φ} {files built otherBuilt : φ} {program : String}
  {arguments : List String} {items others : List Item} {recordings phrases : String}
  {settings otherSettings : Settings} {encoder : String × List String} {pack otherPack : Pack}
  {image otherImage : Rom.Image}

theorem readArguments_of_spells (hspells : Spells items arguments) :
    readArguments ⟨[], none, none, false⟩ arguments = .ok (Request.ofItems items) :=
  readArguments_eq_ok_iff.mpr ⟨items, hspells, rfl⟩

/-- Arguments that are spelled in two ways ask for the same. -/
theorem ofItems_eq (hspells : Spells items arguments) (hothers : Spells others arguments) :
    Request.ofItems items = Request.ofItems others :=
  Except.ok.inj ((readArguments_of_spells hspells).symm.trans (readArguments_of_spells hothers))

theorem Builds.spells (hbuilds : Builds launch files arguments items settings pack image built) :
    Spells items arguments := by
  obtain ⟨_, _, _, hprepared, _⟩ := hbuilds
  exact hprepared.spells

/-- The stages of a build that succeeds, for the items at hand. -/
theorem Builds.stages (hbuilds : Builds launch files arguments others settings pack image built)
    (hspells : Spells items arguments)
    (hinputs : items.filterMap Item.input? = [recordings, phrases]) :
    settingsOf files (Request.ofItems items) phrases = .ok settings ∧
      ∃ encoder, settings.encoderCommand = .ok encoder ∧
        (build files settings (Encoder.command launch encoder.1 encoder.2) recordings
          phrases).runFrom files = (.ok (pack, image), built) := by
  obtain ⟨_, _, encoder, hother, hbuilt⟩ := hbuilds
  have heq := ofItems_eq hspells hother.spells
  cases hinputs.symm.trans ((congrArg Request.inputs heq).trans hother.inputs)
  exact ⟨heq ▸ hother.settings_eq, encoder, hother.encoder_eq, hbuilt⟩

/-- The stages lead to one image. -/
theorem Builds.unique (hbuilds : Builds launch files arguments items settings pack image built)
    (hothers :
      Builds launch files arguments others otherSettings otherPack otherImage otherBuilt) :
    outputFile items = outputFile others ∧ image = otherImage ∧ built = otherBuilt := by
  obtain ⟨_, _, encoder, hprepared, hbuilt⟩ := hbuilds
  obtain ⟨hsettings, _, hencoder, hbuiltOther⟩ :=
    hothers.stages hprepared.spells hprepared.inputs
  -- each stage is a function of what the stages before it have found
  cases hprepared.settings_eq.symm.trans hsettings
  cases hprepared.encoder_eq.symm.trans hencoder
  cases hbuilt.symm.trans hbuiltOther
  exact ⟨congrArg Request.outputFile (ofItems_eq hprepared.spells hothers.spells), rfl, rfl⟩

theorem asksHelp_iff : AsksHelp arguments ↔
    2 ≤ arguments.length ∧ readArguments ⟨[], none, none, false⟩ arguments = .error .help := by
  rw [AsksHelp, readArguments_eq_error_iff]

theorem Spells.not_asksHelp (hspells : Spells items arguments) : ¬ AsksHelp arguments := by
  intro hhelp
  cases (readArguments_of_spells hspells).symm.trans (asksHelp_iff.mp hhelp).2

theorem Spells.length_inputs_le (hspells : Spells items arguments) :
    (items.filterMap Item.input?).length ≤ arguments.length := by
  obtain ⟨-, rfl⟩ := hspells
  induction items with
  | nil => simp
  | cons item items ih =>
      have hcons : (item :: items).filterMap Item.input? =
          item.input?.toList ++ items.filterMap Item.input? := by
        cases item <;> rfl
      have hitem : item.input?.toList.length ≤ item.arguments.length := by
        cases item <;> simp [Item.input?, Item.arguments]
      rw [hcons, List.flatMap_cons, List.length_append, List.length_append]
      omega

theorem Prepared.keeps_build
    (hprepared : Prepared files arguments items recordings phrases settings encoder)
    (hkeeps : EncoderKeepsFiles launch files arguments) :
    (build files settings (Encoder.command launch encoder.1 encoder.2) recordings phrases).Keeps
      (SameContents files) := by
  refine SpeechRom.keeps_build settings phrases fun found hfound file hfile => keeps_command ?_
  exact hkeeps _ _ _ _ _ found file hprepared hfound hfile

/-! ## Handing over -/

/-- A stream of the command gets the content, if the path leads to one. -/
def Streamed (files : φ) (path : String) (content : List UInt8) (outcome : Outcome φ) : Prop :=
  (FileSystem.streamAt? files path = some 1 → ∃ opening closing,
    outcome.output = Text.utf8 opening ++ content ++ Text.utf8 closing) ∧
  (FileSystem.streamAt? files path = some 2 → outcome.errors = content)

/-- The ways in which an image is handed over: on a page, or by one write to an output file, which
the system may refuse. -/
inductive Delivered (files : φ) (file : Option String) (content : List UInt8) : Outcome φ → Prop
  | printed {page : String} (hfile : file = none) :
      Delivered files file content (.success files page)
  | refused {path opening errors : String} {reason : SystemError} {after : φ}
      (hfile : file = some path)
      (hwrite : (FileSystem.write path content).runFrom files = (.error reason, after)) :
      Delivered files file content (.failure after opening errors)
  | written {path : String} {outcome : Outcome φ} (hfile : file = some path)
      (hwrite : (FileSystem.write path content).runFrom files = (.ok (), outcome.files))
      (hcode : outcome.code = 0) (hstreamed : Streamed files path content outcome) :
      Delivered files file content outcome

theorem delivered_deliver (files : φ) (request : Request) (settings : Settings)
    (opening : String) (pack : Pack) (image : Rom.Image) :
    Delivered files request.outputFile image.bytes
      (deliver files request settings opening pack image) := by
  unfold deliver
  cases hfile : request.outputFile with
  | none => exact .printed rfl
  | some path =>
      dsimp only
      rcases hwrite : (FileSystem.write path image.bytes).runFrom files with ⟨reason | ⟨⟩, after⟩
      · exact .refused rfl hwrite
      · dsimp only
        split
        · rename_i hstream
          refine .written rfl hwrite rfl ⟨fun _ => ⟨_, _, rfl⟩, fun hother => ?_⟩
          cases hstream.symm.trans hother
        · rename_i hstream
          refine .written rfl hwrite rfl ⟨fun hother => ?_, fun _ => rfl⟩
          cases hstream.symm.trans hother
        · rename_i hout herr
          exact .written rfl hwrite rfl
            ⟨fun hstream => absurd hstream hout, fun hstream => absurd hstream herr⟩

/-! ## How a run ends -/

/-- The ways in which a run ends: help, a stage that fails, an image that is handed over. -/
inductive Ended (launch : Encoding.Launcher φ) (files : φ) (program : String)
    (arguments : List String) : Outcome φ → Prop
  | helped (hhelp : AsksHelp arguments) :
      Ended launch files program arguments (.success files (usage program))
  | failed {after : φ} {output errors : String} (hhelp : ¬ AsksHelp arguments)
      (hfails : ¬ Succeeds launch files arguments) (hsame : SameContents files after)
      (hquiet : Quiet files program arguments (Text.utf8 output)) :
      Ended launch files program arguments (.failure after output errors)
  | finished {items : List Item} {settings : Settings} {pack : Pack} {image : Rom.Image} {built : φ}
      {outcome : Outcome φ}
      (hbuilds : Builds launch files arguments items settings pack image built)
      (hsame : SameContents files built)
      (hdelivered : Delivered built (outputFile items) image.bytes outcome) :
      Ended launch files program arguments outcome

theorem quiet_usage : Quiet files program arguments (Text.utf8 (usage program)) := .inl rfl

theorem quiet_nothing : Quiet files program arguments (Text.utf8 "") := .inr (.inl rfl)

theorem Prepared.quiet_opening
    (hprepared : Prepared files arguments items recordings phrases settings encoder)
    (verbose : Bool) :
    Quiet files program arguments
      (Text.utf8 (if verbose then openingLine recordings phrases settings else "")) := by
  cases verbose with
  | false => exact quiet_nothing
  | true => exact .inr (.inr ⟨_, _, _, _, _, hprepared, rfl⟩)

/-- Fulfilling a request fails at one of its stages or hands over an image. -/
theorem ended_fulfil (hkeeps : EncoderKeepsFiles launch files arguments)
    (hspells : Spells items arguments)
    (hinputs : items.filterMap Item.input? = [recordings, phrases]) :
    Ended launch files program arguments
      (fulfil launch files (Request.ofItems items) recordings phrases) := by
  have hhelp : ¬ AsksHelp arguments := hspells.not_asksHelp
  unfold fulfil
  cases hsettings : settingsOf files (Request.ofItems items) phrases with
  | error fault =>
      refine .failed hhelp ?_ (.refl files) quiet_nothing
      rintro ⟨_, _, _, _, _, hbuilds⟩
      cases hsettings.symm.trans (hbuilds.stages hspells hinputs).1
  | ok settings =>
      dsimp only
      cases hencoder : settings.encoderCommand with
      | error fault =>
          refine .failed hhelp ?_ (.refl files) quiet_nothing
          rintro ⟨_, _, _, _, _, hbuilds⟩
          obtain ⟨hother, _, hfound, _⟩ := hbuilds.stages hspells hinputs
          cases hsettings.symm.trans hother
          cases hencoder.symm.trans hfound
      | ok encoder =>
          have hprepared : Prepared files arguments items recordings phrases settings encoder :=
            ⟨hspells, hinputs, hsettings, hencoder⟩
          have hsame := hprepared.keeps_build hkeeps files (.refl files)
          dsimp only
          rcases hbuilt : (build files settings (Encoder.command launch encoder.1 encoder.2)
            recordings phrases).runFrom files with ⟨failure | ⟨pack, image⟩, after⟩
          · rw [hbuilt] at hsame
            refine .failed hhelp ?_ hsame (hprepared.quiet_opening _)
            rintro ⟨_, _, _, _, _, hbuilds⟩
            obtain ⟨hother, _, hfound, hbuiltOther⟩ := hbuilds.stages hspells hinputs
            cases hsettings.symm.trans hother
            cases hencoder.symm.trans hfound
            cases hbuilt.symm.trans hbuiltOther
          · rw [hbuilt] at hsame
            exact .finished ⟨recordings, phrases, encoder, hprepared, hbuilt⟩ hsame
              (delivered_deliver after (Request.ofItems items) settings _ pack image)

theorem ended_run (program : String) (hkeeps : EncoderKeepsFiles launch files arguments) :
    Ended launch files program arguments (run launch files program arguments) := by
  unfold run
  by_cases hshort : arguments.length < 2
  · rw [if_pos hshort]
    refine .failed (fun hhelp => ?_) ?_ (.refl files) quiet_usage
    · have := hhelp.1
      omega
    · rintro ⟨_, _, _, _, _, _, _, _, hprepared, _⟩
      have hlength := hprepared.spells.length_inputs_le
      rw [hprepared.inputs] at hlength
      exact absurd hshort (Nat.not_lt.mpr hlength)
  rw [if_neg hshort]
  cases hread : readArguments ⟨[], none, none, false⟩ arguments with
  | error refusal =>
      have hfails : ¬ Succeeds launch files arguments := by
        rintro ⟨_, _, _, _, _, hbuilds⟩
        cases hread.symm.trans (readArguments_of_spells hbuilds.spells)
      have hhelp : refusal ≠ .help → ¬ AsksHelp arguments := by
        intro hne hhelp
        cases hread.symm.trans (asksHelp_iff.mp hhelp).2
        exact hne rfl
      cases refusal with
      | help => exact .helped (asksHelp_iff.mpr ⟨Nat.le_of_not_lt hshort, hread⟩)
      | noOutputFile => exact .failed (hhelp (by simp)) hfails (.refl files) quiet_nothing
      | noSettingsFile => exact .failed (hhelp (by simp)) hfails (.refl files) quiet_nothing
      | unknownOption option => exact .failed (hhelp (by simp)) hfails (.refl files) quiet_usage
  | ok request =>
      obtain ⟨items, hspells, rfl⟩ := readArguments_eq_ok_iff.mp hread
      dsimp only
      split
      · rename_i recordings phrases hinputs
        exact ended_fulfil hkeeps hspells hinputs
      · rename_i hinputs
        refine .failed hspells.not_asksHelp ?_ (.refl files) quiet_usage
        rintro ⟨_, _, _, _, _, _, _, _, hprepared, _⟩
        have heq := ofItems_eq hspells hprepared.spells
        exact hinputs _ _ ((congrArg Request.inputs heq).trans hprepared.inputs)

/-! ## What a run changes -/

/-- An output file gets an image by one write, and nothing else is touched; or the system refuses
the write. -/
inductive Handed (same : φ → String → String → Prop) (built : φ) (path : String)
    (content : List UInt8) (outcome : Outcome φ) : Prop
  | written (hwrite : (FileSystem.write path content).runFrom built = (.ok (), outcome.files))
      (hcode : outcome.code = 0) (hwritten : Written same path content built outcome.files)
      (hstreamed : Streamed built path content outcome) : Handed same built path content outcome
  | refused {reason : SystemError}
      (hwrite : (FileSystem.write path content).runFrom built = (.error reason, outcome.files))
      (hcode : outcome.code = 1) (helsewhere : SameElsewhere same path built outcome.files) :
      Handed same built path content outcome

/-- Only finished images are written. -/
structure WritesOnlyImages (same : φ → String → String → Prop) (launch : Encoding.Launcher φ)
    (files : φ) (program : String) (arguments : List String) (outcome : Outcome φ) : Prop where
  /-- Files change only after all stages have succeeded, with an output file. -/
  changed : ¬SameContents files outcome.files → ∃ items settings pack image built path,
    Builds launch files arguments items settings pack image built ∧ outputFile items = some path
  /-- An image is written to the last output file and nowhere else, unless the system refuses. -/
  written : ∀ items settings pack image built path,
    Builds launch files arguments items settings pack image built → outputFile items = some path →
      SameContents files built ∧ Handed same built path image.bytes outcome
  /-- Without an output file nothing is written. -/
  printed : ∀ items settings pack image built,
    Builds launch files arguments items settings pack image built → outputFile items = none →
      outcome.code = 0 ∧ SameContents files outcome.files
  /-- A run that fails at a stage changes nothing and prints no image. -/
  failed : ¬Succeeds launch files arguments → ¬AsksHelp arguments →
    outcome.code = 1 ∧ SameContents files outcome.files ∧
      Quiet files program arguments outcome.output
  helped : AsksHelp arguments →
    outcome.code = 0 ∧ outcome.files = files ∧ outcome.output = Text.utf8 (usage program)

variable {same : φ → String → String → Prop}

namespace Delivered

variable {file : Option String} {path : String} {content : List UInt8} {outcome : Outcome φ}

theorem handed (hdelivered : Delivered built (some path) content outcome)
    (hwrites : WritesInPlace same) : Handed same built path content outcome := by
  cases hdelivered with
  | printed hfile => cases hfile
  | refused hfile hwrite =>
      cases hfile
      exact .refused hwrite rfl (hwrites.refused hwrite)
  | written hfile hwrite hcode hstreamed =>
      cases hfile
      exact .written hwrite hcode (hwrites.written hwrite) hstreamed

theorem files_eq (hdelivered : Delivered built none content outcome) :
    outcome.code = 0 ∧ outcome.files = built := by
  cases hdelivered with
  | printed hfile => exact ⟨rfl, rfl⟩
  | refused hfile hwrite => cases hfile
  | written hfile hwrite hcode hstreamed => cases hfile

end Delivered

theorem Ended.writesOnlyImages {outcome : Outcome φ}
    (hended : Ended launch files program arguments outcome) (hwrites : WritesInPlace same) :
    WritesOnlyImages same launch files program arguments outcome := by
  cases hended with
  | helped hhelp =>
      have hnone : ∀ items settings pack image built,
          ¬ Builds launch files arguments items settings pack image built :=
        fun _ _ _ _ _ hbuilds => hbuilds.spells.not_asksHelp hhelp
      exact {
        changed := fun hne => absurd (.refl files) hne
        written := fun _ _ _ _ _ _ hbuilds => absurd hbuilds (hnone _ _ _ _ _)
        printed := fun _ _ _ _ _ hbuilds => absurd hbuilds (hnone _ _ _ _ _)
        failed := fun _ hnot => absurd hhelp hnot
        helped := fun _ => ⟨rfl, rfl, rfl⟩ }
  | failed hhelp hfails hsame hquiet =>
      exact {
        changed := fun hne => absurd hsame hne
        written := fun _ _ _ _ _ _ hbuilds => absurd ⟨_, _, _, _, _, hbuilds⟩ hfails
        printed := fun _ _ _ _ _ hbuilds => absurd ⟨_, _, _, _, _, hbuilds⟩ hfails
        failed := fun _ _ => ⟨rfl, hsame, hquiet⟩
        helped := fun hnot => absurd hnot hhelp }
  | @finished items settings pack image built _ hbuilds hsame hdelivered =>
      exact {
        changed := by
          intro hne
          cases hfile : outputFile items with
          | none =>
              rw [hfile] at hdelivered
              exact absurd (hdelivered.files_eq.2 ▸ hsame) hne
          | some path => exact ⟨_, _, _, _, _, path, hbuilds, hfile⟩
        written := by
          intro _ _ _ _ _ path hother hpath
          obtain ⟨hfile, rfl, rfl⟩ := hbuilds.unique hother
          rw [hfile, hpath] at hdelivered
          exact ⟨hsame, hdelivered.handed hwrites⟩
        printed := by
          intro _ _ _ _ _ hother hnone
          obtain ⟨hfile, rfl, rfl⟩ := hbuilds.unique hother
          rw [hfile, hnone] at hdelivered
          obtain ⟨hcode, hfiles⟩ := hdelivered.files_eq
          exact ⟨hcode, hfiles ▸ hsame⟩
        failed := fun hnot => absurd ⟨_, _, _, _, _, hbuilds⟩ hnot
        helped := fun hhelp => absurd hhelp hbuilds.spells.not_asksHelp }

end Stages

/-! ### A run that writes its image -/

/-- A recording, a pack of one phrase, and settings that name `cat` as the encoder. -/
def catTree : FileTree where
  nodes := ⟨[(["w"], .directory), (["w", "hi.wav"], .file [1, 2]), (["p"], .directory),
    (["p", "primary.txt"], .file [104, 105]),
    (["c"], .file [101, 110, 99, 111, 100, 101, 114, 46, 112, 114, 111, 103, 114, 97, 109, 61, 39,
      99, 97, 116, 39])], by decide⟩
  workingDirectory := []

/-- Programs that write out the file that their last argument names, whatever they are called. -/
def reciting : Encoding.Launcher FileTree := fun _ arguments => do
  match FileSystem.read (← get) (arguments.getLast?.getD "") with
  | .ok content => return ⟨.exited 0, content, []⟩
  | .error _ => return ⟨.exited 1, [], []⟩

/-- The settings in the file of the tree. -/
def catSettings : Settings := { Settings.default with encoder := ⟨some "cat", []⟩ }

/-- The arguments that ask for an image of the tree. -/
def catItems : List Item :=
  [.settings "-c" "c", .input "w", .input "p", .output "-o" "out"]

section Toml

open Text.Scan Toml

theorem line_catSettings : line "encoder.program='cat'".toList =
    some (.assign ["encoder", "program"] (.string "cat"), []) := by
  have hfirst : spacedKey "encoder.program='cat'".toList =
      some ("encoder", ".program='cat'".toList) := rfl
  have hmore : many (do exactly ['.']; spacedKey) ".program='cat'".toList =
      some (["program"], "='cat'".toList) := many_eq_singleton rfl (by decide) rfl
  have hkey : keyPath "encoder.program='cat'".toList =
      some (["encoder", "program"], "='cat'".toList) := by
    rw [keyPath, bind_of_eq_some hfirst, bind_of_eq_some hmore]
    rfl
  have hpair : pairOf (value (depthLimit - 1)) "encoder.program='cat'".toList =
      some ((["encoder", "program"], .string "cat"), []) := by
    rw [pairOf, bind_of_eq_some hkey]
    rfl
  have hassign : line "encoder.program='cat'".toList =
      (do
        let pair ← pairOf (value (depthLimit - 1))
        lineRest
        return Line.assign pair.1 pair.2 : Text.Scan Line) "encoder.program='cat'".toList := rfl
  rw [hassign, bind_of_eq_some hpair]
  rfl

theorem parse_catSettings : Settings.parse "encoder.program='cat'" = .ok catSettings := by
  have hlines : many line "encoder.program='cat'".toList =
      some ([.assign ["encoder", "program"] (.string "cat")], []) :=
    many_eq_singleton line_catSettings (by decide) rfl
  have htable : parse? "encoder.program='cat'" =
      some [("encoder", .table .dotted [("program", .string "cat")])] := by
    unfold parse?
    dsimp only
    rw [if_neg (by decide), hlines]
    rfl
  rw [Settings.parse, htable]
  rfl

end Toml

theorem prepared_catTree : Prepared catTree ["-c", "c", "w", "p", "-o", "out"] catItems "w" "p"
    catSettings ("cat", []) := by
  have htext : readText catTree "c" = .ok "encoder.program='cat'" := rfl
  have hsettings : Settings.ofFile catTree "c" = .ok catSettings := by
    rw [Settings.ofFile, htext]
    dsimp only
    rw [parse_catSettings]
  refine ⟨⟨?_, rfl⟩, rfl, hsettings, rfl⟩
  simp [catItems, Item.Proper]

theorem keeps_reciting (P : FileTree → Prop) (program : String) (arguments : List String) :
    (reciting program arguments).Keeps P := by
  have hget : (get : Attempt SystemError FileTree FileTree).Keeps P := fun _ htree => htree
  refine hget.bind fun tree => ?_
  split
  · exact .pure _
  · exact .pure _

theorem builds_catTree : ∃ pack image,
    Builds reciting catTree ["-c", "c", "w", "p", "-o", "out"] catItems catSettings pack image
      catTree := by
  have hphrases : namedFiles catTree "p" phraseExtension =
      .ok [⟨"primary", "p/primary.txt"⟩] :=
    namedFiles_of_sorted (by decide) rfl rfl (by decide) (by decide)
  have hrecordings : namedFiles catTree "w" recordingExtension = .ok [⟨"hi", "w/hi.wav"⟩] :=
    namedFiles_of_sorted (by decide) rfl rfl (by decide) (by decide)
  have hencode :
      (encodeRecordings catTree (Encoder.command reciting "cat" []) "w").runFrom catTree =
        (.ok (OrderedMap.insert ∅ "hi" [1, 2]), catTree) := by
    rw [encodeRecordings, hrecordings]
    rfl
  obtain ⟨pack, hread, image, hlink⟩ : ∃ pack, readPack catTree catSettings "p" = .ok pack ∧
      ∃ image, Rom.Image.ofPack pack (OrderedMap.insert ∅ "hi" [1, 2]) "primary" = .ok image := by
    rw [readPack, Pack.ofDirectory, readSources, hphrases]
    exact ⟨_, rfl, _, rfl⟩
  exact ⟨pack, image, "w", "p", ("cat", []), prepared_catTree,
    build_eq_ok_iff.mpr ⟨hread, _, hencode, hlink⟩⟩

end Commands.ImageBuilder

end SpeechRom
