import SpeechRom.Commands.WordList
import SpeechRom.Proofs.Files.LongPaths
import SpeechRom.Proofs.Pack.Rings
import SpeechRom.Proofs.Pack.Violations
import SpeechRom.Proofs.Rom.Linking
import SpeechRom.Proofs.Stages

/-!
# Which words are missing

The list of missing words and a build come to their answers on different ways: the one compares the
words of the sources with the names of files, the other links the words against what an encoder
has made of these files, and may fail for many other reasons before it comes to a word.  They agree
(`missing_words_agree`): what the list prints are the words of the sources without a recording; if
it prints nothing, no build of these directories fails for want of a recording; and if a build
fails so, the word that it names is the first one on the list.

## Strategy

No stage of a build but the last one names a missing word, and the last one names the first word
in the order of the pack that the vocabulary has not (`Rom.find?_of_image_ofPack`).  What the
vocabulary has is what was scanned, and both scan the same directory.  So both also pass over the
same files without a word: those that the system does not report by their paths.
-/

namespace SpeechRom

open Files Commands

/-! ## What a command prints -/

/-- The command ends well and prints texts, each on a line of its own, and nothing else. -/
structure Commands.Outcome.Prints {φ : Type} (outcome : Outcome φ) (texts : List String) :
    Prop where
  code : outcome.code = 0
  output : outcome.output = Text.utf8 (lines texts)
  errors : outcome.errors = []

/-- A command that prints a text puts something out. -/
theorem Commands.Outcome.Prints.output_ne_nil {φ : Type} {outcome : Outcome φ} {text : String}
    {rest : List String} (hprints : outcome.Prints (text :: rest)) : outcome.output ≠ [] := by
  intro hnone
  have hempty : Text.utf8 (lines (text :: rest)) = Text.utf8 "" := hprints.output.symm.trans hnone
  have hletters := congrArg String.toList (Text.utf8_inj.mp hempty)
  rw [lines, List.map_cons, String.join_cons, String.toList_append,
    String.toList_append] at hletters
  simp at hletters

/-! ## Stages that miss no word -/

variable {φ : Type} [FileSystem φ] {word : String}

theorem Pack.ofSources_ne_notRecorded (sources : List Source) :
    ofSources sources ≠ .error (.notRecorded word) := by
  intro hfailed
  have hviolation := sourcesFault_eq_some_iff.mp
    ((decided_ofSources sources).eq_error_iff.mp hfailed)
  cases hviolation with
  | token _ _ _ _ _ htoken => cases htoken

theorem Pack.check_ne_notRecorded (pack : Pack) (primary : String) :
    pack.check primary ≠ .error (.notRecorded word) := by
  intro hfailed
  unfold check at hfailed
  split at hfailed
  · cases hfailed
  · split at hfailed
    · cases hfailed
    · rcases bind_eq_error_iff.mp hfailed with hexplore | ⟨_, _, hdone⟩
      · obtain ⟨_, _, _, hring⟩ := round_of_exploreAll hexplore
        cases hring
      · cases hdone

theorem readPack_ne_notRecorded (files : φ) (settings : Settings) (directory : String) :
    readPack files settings directory ≠ .error (.notRecorded word) := by
  intro hfailed
  rcases bind_eq_error_iff.mp hfailed with hread | ⟨pack, _, hchecked⟩
  · unfold Pack.ofDirectory at hread
    split at hread
    · exact Pack.ofSources_ne_notRecorded _ hread
    · cases hread
  · rcases bind_eq_error_iff.mp hchecked with hcheck | ⟨_, _, hdone⟩
    · exact pack.check_ne_notRecorded _ hcheck
    · cases hdone

/-! ## The word that linking misses -/

namespace Rom

theorem find?_of_findSome?_refusal {vocabulary : Vocabulary} {words : List Word} {position : Nat}
    (hrefused : (stack position (words.map (wordPart vocabulary))).findSome? refusal =
      some (.notRecorded word)) :
    (words.map (·.text)).find? (fun text => !vocabulary.contains text) = some word := by
  induction words generalizing position with
  | nil => cases hrefused
  | cons first rest ih =>
      rw [List.map_cons, stack, List.findSome?_cons] at hrefused
      rw [List.map_cons]
      cases hcontains : vocabulary.contains first.text with
      | false =>
          have hrefusal : refusal (wordPart vocabulary first, position) =
              some (.notRecorded first.text) := by
            rw [refusal, wordPart, hcontains]
            rfl
          rw [hrefusal] at hrefused
          cases hrefused
          exact List.find?_cons_of_pos (by rw [hcontains]; rfl)
      | true =>
          rw [List.find?_cons_of_neg (by rw [hcontains]; simp)]
          cases hrefusal : refusal (wordPart vocabulary first, position) with
          | none =>
              rw [hrefusal] at hrefused
              exact ih hrefused
          | some failure =>
              rw [hrefusal] at hrefused
              cases hrefused
              -- a recorded word is refused only for standing too far behind
              rcases objection_or_too_far hrefusal with hobjection | ⟨_, _, hfar⟩
              · rw [wordPart, hcontains] at hobjection
                cases hobjection
              · cases hfar

theorem refusal_ne_notRecorded_of_region {pack : Pack} {part : Part} {offset : Nat}
    (hpart : part ∈ regionParts pack) : refusal (part, offset) ≠ some (.notRecorded word) := by
  intro hrefusal
  rcases objection_or_too_far hrefusal with hobjection | ⟨_, _, hfar⟩
  · obtain ⟨bank, _, rfl | ⟨index, phrase, _, rfl⟩⟩ := mem_regionParts_iff.mp hpart
    · rw [directoryPart, Option.ite_none_right_eq_some] at hobjection
      cases hobjection.2
    · rw [phrasePart, Option.ite_none_right_eq_some] at hobjection
      cases hobjection.2
  · cases hfar

/-- **The word that linking misses is the first one that the vocabulary has not.** -/
theorem find?_of_image_ofPack {pack : Pack} (hwell : pack.WellFormed) {vocabulary : Vocabulary}
    {primary : String}
    (hfailed : Image.ofPack pack vocabulary primary = .error (.notRecorded word)) :
    pack.words.keys.find? (fun text => !vocabulary.contains text) = some word := by
  have hrefused : (imageStack pack vocabulary).findSome? refusal = some (.notRecorded word) := by
    rw [image_ofPack_eq hwell, ofPack_eq] at hfailed
    cases hfind : pack.findBank? primary with
    | none =>
        rw [hfind] at hfailed
        cases hfailed
    | some start =>
        rw [hfind] at hfailed
        cases hfirst : (imageStack pack vocabulary).findSome? refusal with
        | some failure =>
            rw [hfirst] at hfailed
            cases hfailed
            rfl
        | none =>
            rw [hfirst] at hfailed
            by_cases hsize : imageSize pack vocabulary > addressSpace
            · simp [hsize] at hfailed
            · simp [hsize] at hfailed
  rw [imageStack_eq, List.findSome?_append, Option.or_eq_some_iff] at hrefused
  rcases hrefused with hregion | ⟨_, hwords⟩
  · obtain ⟨⟨part, offset⟩, hmem, hrefusal⟩ := List.exists_of_findSome?_eq_some hregion
    rcases List.mem_cons.mp hmem with heq | hmem
    · cases heq
      cases hrefusal
    · exact absurd hrefusal (refusal_ne_notRecorded_of_region (mem_of_mem_stack hmem))
  · rw [List.findSome?_cons] at hwords
    cases hmark : refusal (speechStartPart, regionEnd pack) with
    | none =>
        rw [hmark] at hwords
        rw [← hwell.indexed.map_text_words]
        exact find?_of_findSome?_refusal hwords
    | some failure =>
        rw [hmark] at hwords
        cases hwords
        rcases objection_or_too_far hmark with hobjection | ⟨_, _, hfar⟩
        · cases hobjection
        · cases hfar

end Rom

/-! ## The main statement -/

/-- The words of sources that have no recording in a directory, each once, in the order of
discovery.  A recording that the directory does not hold (`holdsFile`), since the system does not
report a regular file behind its path, is none. -/
def unrecordedWords (files : φ) (recordings : String) (sources : List Source) :
    List String :=
  (wordsAmong ((spokenLines sources).flatMap (·.tokens))).filter fun word =>
    !holdsFile files recordings (word ++ "." ++ recordingExtension)

section Words

variable {files : φ} {phrases recordings : String} {sources : List Source} {pack : Pack}
  {found : List NamedFile}

/-- A word of the pack is among the scanned ones exactly if there is a recording of it. -/
theorem contains_stems_eq (hread : Pack.ofSources sources = .ok pack)
    (hfound : namedFiles files recordings recordingExtension = .ok found)
    (hword : word ∈ pack.words.keys) :
    (found.map (·.stem)).contains word =
      holdsFile files recordings (word ++ "." ++ recordingExtension) := by
  rw [Pack.keys_words_of_ofSources hread] at hword
  obtain ⟨token, _, hidentifier, rfl⟩ := Pack.mem_wordsAmong_iff.mp hword
  have hisName : isName (String.ofList token).toList = true := by
    rw [String.toList_ofList]
    exact isName_iff_identifier.mpr hidentifier
  rw [Bool.eq_iff_iff, List.contains_iff_mem, mem_stems_namedFiles_iff hfound]
  exact and_iff_right hisName

theorem missingWords_eq (hread : Pack.ofSources sources = .ok pack)
    (hfound : namedFiles files recordings recordingExtension = .ok found) :
    WordList.missingWords pack (found.map (·.stem)) = unrecordedWords files recordings sources := by
  rw [unrecordedWords, ← Pack.keys_words_of_ofSources hread]
  refine List.filter_congr fun word hword => ?_
  rw [contains_stems_eq hread hfound hword]

/-- The list of missing words, once the directories have been read. -/
theorem prints_of_run (hsources : readSources files phrases = .ok sources)
    (hread : Pack.ofSources sources = .ok pack)
    (hfound : namedFiles files recordings recordingExtension = .ok found) (program : String) :
    (WordList.run files program [phrases, "--missing", recordings]).Prints
      (unrecordedWords files recordings sources) := by
  have hpack : Pack.ofDirectory files phrases = .ok pack :=
    ofDirectory_eq_ok_iff.mpr ⟨sources, hsources, hread⟩
  have hrecorded : WordList.recordedWords files (some recordings) = .ok (found.map (·.stem)) := by
    rw [WordList.recordedWords, hfound]
    rfl
  have hrun : WordList.run files program [phrases, "--missing", recordings] =
      .success files (lines (WordList.missingWords pack (found.map (·.stem)))) := by
    rw [WordList.run, WordList.request?]
    dsimp only
    rw [hpack, hrecorded]
  rw [hrun, missingWords_eq hread hfound]
  exact ⟨rfl, rfl, rfl⟩

theorem nodup_unrecordedWords (hread : Pack.ofSources sources = .ok pack) :
    (unrecordedWords files recordings sources).Nodup := by
  have hkeys : (wordsAmong ((spokenLines sources).flatMap (·.tokens))).Nodup :=
    Pack.keys_words_of_ofSources hread ▸ pack.words.distinct
  exact hkeys.filter _

/-- If the list of missing words succeeds, both directories can be read. -/
theorem stages_of_run {program : String}
    (hcode : (WordList.run files program [phrases, "--missing", recordings]).code = 0) :
    ∃ sources pack found, readSources files phrases = .ok sources ∧
      Pack.ofSources sources = .ok pack ∧
      namedFiles files recordings recordingExtension = .ok found := by
  rw [WordList.run, WordList.request?] at hcode
  dsimp only at hcode
  cases hpack : Pack.ofDirectory files phrases with
  | error failure =>
      rw [hpack] at hcode
      cases hcode
  | ok pack =>
      obtain ⟨sources, hsources, hread⟩ := ofDirectory_eq_ok_iff.mp hpack
      cases hfound : namedFiles files recordings recordingExtension with
      | error fault =>
          rw [hpack, WordList.recordedWords, hfound] at hcode
          cases hcode
      | ok found => exact ⟨sources, pack, found, hsources, hread, rfl⟩

/-- A build that misses a word has read both directories and encoded all recordings. -/
theorem stages_of_build {σ : Type} {encoder : Encoder σ} {settings : Settings} {state after : σ}
    (hencoder : ∀ path, (encoder.encode path).FailsOnly fun failure =>
      ∃ file fault, failure = .encoding file fault)
    (hfailed : (build files settings encoder recordings phrases).runFrom state =
      (.error (.notRecorded word), after)) :
    ∃ sources pack found vocabulary, readSources files phrases = .ok sources ∧
      Pack.ofSources sources = .ok pack ∧
      namedFiles files recordings recordingExtension = .ok found ∧
      (encodeRecordings files encoder recordings).runFrom state = (.ok vocabulary, after) ∧
      Rom.Image.ofPack pack vocabulary settings.primaryBank = .error (.notRecorded word) := by
  rcases build_eq_error_iff.mp hfailed with
    ⟨hread, _⟩ | ⟨pack, hpack, hencode | ⟨vocabulary, hencode, hlink⟩⟩
  · exact absurd hread (readPack_ne_notRecorded files settings phrases)
  · rcases encodeRecordings_failsOnly hencoder _ _ _ hencode with ⟨_, hfault⟩ | ⟨_, _, hfault⟩
    · cases hfault
    · cases hfault
  · obtain ⟨sources, hsources, hread⟩ :=
      ofDirectory_eq_ok_iff.mp (readPack_eq_ok_iff.mp hpack).1
    obtain ⟨found, hfound⟩ := exists_namedFiles_of_encodeRecordings hencode
    exact ⟨sources, pack, found, vocabulary, hsources, hread, hfound, hencode, hlink⟩

/-- The word that a build misses is the first one without a recording. -/
theorem head?_unrecordedWords_of_build {σ : Type} {encoder : Encoder σ} {vocabulary : Vocabulary}
    {state after : σ} {primary : String} (hread : Pack.ofSources sources = .ok pack)
    (hfound : namedFiles files recordings recordingExtension = .ok found)
    (hencode : (encodeRecordings files encoder recordings).runFrom state = (.ok vocabulary, after))
    (hfailed : Rom.Image.ofPack pack vocabulary primary = .error (.notRecorded word)) :
    (unrecordedWords files recordings sources).head? = some word := by
  have hfirst := Rom.find?_of_image_ofPack (Pack.wellFormed_of_ofSources hread) hfailed
  have hsame : ∀ text, (found.map (·.stem)).contains text = vocabulary.contains text := by
    intro text
    rw [Bool.eq_iff_iff, List.contains_iff_mem, OrderedMap.contains_iff_mem_keys,
      mem_keys_encodeRecordings hfound hencode]
  have hmissing : unrecordedWords files recordings sources =
      pack.words.keys.filter fun text => !vocabulary.contains text := by
    rw [← missingWords_eq hread hfound, WordList.missingWords]
    exact List.filter_congr fun text _ => congrArg not (hsame text)
  rw [hmissing, List.head?_filter]
  exact hfirst

end Words

/-- **The list of missing words and the build agree.**  Whatever the directories, the settings and
the encoder, if that fails for recordings only: what the list prints are the words of the sources
that have no recording, each once, in the order of discovery; if it prints nothing, no build fails
for want of a recording; and if a build does, the list prints the word that it names first.  A
regular file in the directory is no recording for either of them if the system does not report it
behind the path of the directory with its name, as happens if that path is too long
(`prints_recorded_word`). -/
theorem missing_words_agree {files : φ} {program phrases recordings : String}
    {outcome : Outcome φ}
    (hrun : WordList.run files program [phrases, "--missing", recordings] = outcome)
    {σ : Type} {encoder : Encoder σ}
    (hencoder : ∀ path, (encoder.encode path).FailsOnly fun failure =>
      ∃ file fault, failure = .encoding file fault) (settings : Settings) :
    (outcome.code = 0 → ∃ sources pack, readSources files phrases = .ok sources ∧
        Pack.ofSources sources = .ok pack ∧
        outcome.Prints (unrecordedWords files recordings sources) ∧
        (unrecordedWords files recordings sources).Nodup) ∧
      (outcome.code = 0 → outcome.output = [] → ∀ state word,
        ((build files settings encoder recordings phrases).runFrom state).1 ≠
          .error (.notRecorded word)) ∧
      ∀ state word, ((build files settings encoder recordings phrases).runFrom state).1 =
          .error (.notRecorded word) → ∃ rest, outcome.Prints (word :: rest) := by
  subst hrun
  have hfirst : ∀ state word, ((build files settings encoder recordings phrases).runFrom state).1 =
      .error (.notRecorded word) →
        ∃ rest, (WordList.run files program [phrases, "--missing", recordings]).Prints
          (word :: rest) := by
    intro state word hfailed
    obtain ⟨sources, pack, found, vocabulary, hsources, hread, hfound, hencode, hlink⟩ :=
      stages_of_build hencoder (Prod.ext hfailed rfl)
    obtain ⟨rest, hwords⟩ := List.head?_eq_some_iff.mp
      (head?_unrecordedWords_of_build hread hfound hencode hlink)
    exact ⟨rest, hwords ▸ prints_of_run hsources hread hfound program⟩
  refine ⟨fun hcode => ?_, fun _ hsilent state word hfailed => ?_, hfirst⟩
  · obtain ⟨sources, pack, found, hsources, hread, hfound⟩ := stages_of_run hcode
    exact ⟨sources, pack, hsources, hread, prints_of_run hsources hread hfound program,
      nodup_unrecordedWords hread⟩
  · obtain ⟨rest, hprints⟩ := hfirst state word hfailed
    exact hprints.output_ne_nil hsilent

/-- Three words, of which only the second one is recorded. -/
def halfRecordedTree : FileTree where
  nodes := ⟨[(["p"], .directory), (["p", "a.txt"], .file [104, 111, 32, 104, 105, 32, 121, 111, 10]),
    (["w"], .directory), (["w", "hi.wav"], .file [1, 2])], by decide⟩
  workingDirectory := []

/-- An encoder that gives the same data for every recording. -/
def constantEncoder : Encoder Unit where
  encode _ := pure [7]

theorem missing_words_agree_ho :
    ((build halfRecordedTree { Settings.default with primaryBank := "a" } constantEncoder "w"
        "p").runFrom ()).1 = .error (.notRecorded "ho") ∧
      (WordList.run halfRecordedTree "words" ["p", "--missing", "w"]).Prints ["ho", "yo"] := by
  have hphrases : namedFiles halfRecordedTree "p" phraseExtension = .ok [⟨"a", "p/a.txt"⟩] :=
    namedFiles_of_sorted (by decide) rfl rfl (by decide) (by decide)
  have hsources : readSources halfRecordedTree "p" = .ok [⟨"a", "ho hi yo\n"⟩] := by
    rw [readSources, hphrases]
    rfl
  have hfound : namedFiles halfRecordedTree "w" recordingExtension = .ok [⟨"hi", "w/hi.wav"⟩] :=
    namedFiles_of_sorted (by decide) rfl rfl (by decide) (by decide)
  have hencoder : ∀ path, (constantEncoder.encode path).FailsOnly fun failure =>
      ∃ file fault, failure = .encoding file fault := fun _ => .pure _
  have hfailed : ((build halfRecordedTree { Settings.default with primaryBank := "a" }
      constantEncoder "w" "p").runFrom ()).1 = .error (.notRecorded "ho") := by
    rw [build, readPack, Pack.ofDirectory, hsources, encodeRecordings, hfound]
    rfl
  obtain ⟨pack, hpack, hmissing⟩ : ∃ pack, Pack.ofSources [⟨"a", "ho hi yo\n"⟩] = .ok pack ∧
      WordList.missingWords pack ["hi"] = ["ho", "yo"] := ⟨_, rfl, rfl⟩
  have hunrecorded : unrecordedWords halfRecordedTree "w" [⟨"a", "ho hi yo\n"⟩] = ["ho", "yo"] :=
    (missingWords_eq hpack hfound).symm.trans hmissing
  obtain ⟨hwords, _, hfirst⟩ := missing_words_agree
    (rfl : WordList.run halfRecordedTree "words" ["p", "--missing", "w"] = _) hencoder
    { Settings.default with primaryBank := "a" }
  obtain ⟨_, hprints⟩ := hfirst () "ho" hfailed
  obtain ⟨sources, _, hread, _, hlisted, _⟩ := hwords hprints.code
  cases hsources.symm.trans hread
  rw [hunrecorded] at hlisted
  exact ⟨hfailed, hlisted⟩

/-- A word and the recording of it, each in a directory of its own. -/
def recordedTree : FileTree where
  nodes := ⟨[(["p"], .directory), (["p", "a.txt"], .file [119, 10]), (["d"], .directory),
    (["d", "w.wav"], .file [120])], by decide⟩
  workingDirectory := []

/-- If the path of the directory is too long for its files, a word with a recording is printed as
missing. -/
theorem prints_recorded_word :
    recordedTree.locate (FileTree.dotted 2046 "d") = .ok ["d"] ∧
      recordedTree.node? ["d", "w" ++ "." ++ recordingExtension] = some (.file [120]) ∧
      (WordList.run recordedTree "words" ["p", "--missing", FileTree.dotted 2046 "d"]).Prints
        ["w"] := by
  have hphrases : namedFiles recordedTree "p" phraseExtension = .ok [⟨"a", "p/a.txt"⟩] :=
    namedFiles_of_sorted (by decide) rfl rfl (by decide) (by decide)
  have hsources : readSources recordedTree "p" = .ok [⟨"a", "w\n"⟩] := by
    rw [readSources, hphrases]
    rfl
  obtain ⟨pack, hpack, hmissing⟩ : ∃ pack, Pack.ofSources [⟨"a", "w\n"⟩] = .ok pack ∧
      WordList.missingWords pack [] = ["w"] := ⟨_, rfl, rfl⟩
  obtain ⟨hplace, hfound⟩ := FileTree.namedFiles_dotted (by decide)
    (rfl : recordedTree.locate "d" = .ok ["d"]) rfl (by decide)
    (by decide : 2 * 2046 + "d".utf8ByteSize ≤ maxPathSize)
    (by decide : maxPathSize < 2 * 2046 + "d".utf8ByteSize + recordingExtension.utf8ByteSize + 2)
  have hlisted : unrecordedWords recordedTree (FileTree.dotted 2046 "d") [⟨"a", "w\n"⟩] = ["w"] :=
    (missingWords_eq hpack hfound).symm.trans hmissing
  exact ⟨hplace, by decide, hlisted ▸ prints_of_run hsources hpack hfound "words"⟩

end SpeechRom
