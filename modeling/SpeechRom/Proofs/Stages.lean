import SpeechRom.Build
import SpeechRom.Proofs.Choices
import SpeechRom.Proofs.OrderedMap

/-!
# The stages of a build

A build reads and checks a pack, encodes the recordings and links.  `build_eq_ok_iff` and
`build_eq_error_iff` say what the stages have done when it succeeds, and which stage it was that
failed; the lemmas before them say the same for each stage.
-/

namespace SpeechRom

open Files

variable {φ : Type} [FileSystem φ] {files : φ} {settings : Settings} {directory : String}
  {pack : Pack}

/-! ## Reading -/

theorem ofDirectory_eq_ok_iff :
    Pack.ofDirectory files directory = .ok pack ↔
      ∃ sources, readSources files directory = .ok sources ∧ Pack.ofSources sources = .ok pack := by
  unfold Pack.ofDirectory
  cases hsources : readSources files directory with
  | ok sources => simp
  | error fault => simp

theorem readPack_eq_ok_iff :
    readPack files settings directory = .ok pack ↔
      Pack.ofDirectory files directory = .ok pack ∧
        ∃ start, pack.check settings.primaryBank = .ok start := by
  unfold readPack
  constructor
  · intro hread
    obtain ⟨found, hfound, hrest⟩ := bind_eq_ok_iff.mp hread
    obtain ⟨start, hcheck, heq⟩ := bind_eq_ok_iff.mp hrest
    cases heq
    exact ⟨hfound, start, hcheck⟩
  · rintro ⟨hfound, start, hcheck⟩
    exact bind_eq_ok_iff.mpr ⟨pack, hfound, bind_eq_ok_iff.mpr ⟨start, hcheck, rfl⟩⟩

/-! ## Encoding -/

section Recordings

variable {σ : Type} {encoder : Encoder σ} {state after : σ} {vocabulary final : Vocabulary}
  {found : List NamedFile} {word : String}

/-- A recording that is added had data. -/
theorem addRecording_eq_ok_iff {file : NamedFile} :
    (addRecording encoder vocabulary file).runFrom state = (.ok final, after) ↔
      ∃ data, (encoder.encode file.path).runFrom state = (.ok data, after) ∧ data ≠ [] ∧
        vocabulary.insert file.stem data = final := by
  rw [addRecording, Attempt.runFrom_bind_eq_ok_iff]
  constructor
  · rintro ⟨data, middle, hencode, hrest⟩
    split at hrest
    · cases hrest
    · rename_i hdata
      cases hrest
      exact ⟨data, hencode, by simpa using hdata, rfl⟩
  · rintro ⟨data, hencode, hdata, rfl⟩
    refine ⟨data, after, hencode, ?_⟩
    rw [if_neg (by simpa using hdata)]
    rfl

/-- Encoding leaves no word without data, whatever the encoder gives. -/
theorem ne_nil_of_encodeRecordings
    (hencode : (encodeRecordings files encoder directory).runFrom state =
      (.ok vocabulary, after)) :
    ∀ data ∈ vocabulary.values, data ≠ [] := by
  unfold encodeRecordings at hencode
  split at hencode
  · cases hencode
  · refine Attempt.foldlM_ok_induction
      (P := fun vocabulary : Vocabulary => ∀ data ∈ vocabulary.values, data ≠ [])
      hencode (fun data hdata => absurd hdata List.not_mem_nil) ?_
    intro before file next middle last hbefore hadd
    obtain ⟨data, _, hdata, rfl⟩ := addRecording_eq_ok_iff.mp hadd
    exact OrderedMap.forall_mem_values_insert hbefore hdata

theorem mem_keys_foldlM_addRecording
    (hadd : (found.foldlM (addRecording encoder) vocabulary).runFrom state = (.ok final, after)) :
    word ∈ final.keys ↔ word ∈ vocabulary.keys ∨ word ∈ found.map (·.stem) := by
  induction found generalizing vocabulary state with
  | nil =>
      cases hadd
      simp
  | cons file rest ih =>
      rw [List.foldlM_cons] at hadd
      obtain ⟨next, middle, hfile, hrest⟩ := Attempt.runFrom_bind_eq_ok_iff.mp hadd
      obtain ⟨data, _, _, rfl⟩ := addRecording_eq_ok_iff.mp hfile
      rw [ih hrest, OrderedMap.mem_keys_insert_iff, List.map_cons, List.mem_cons, or_assoc]

/-- The vocabulary of a directory has the words that were scanned. -/
theorem mem_keys_encodeRecordings
    (hfound : namedFiles files directory recordingExtension = .ok found)
    (hencode : (encodeRecordings files encoder directory).runFrom state =
      (.ok vocabulary, after)) :
    word ∈ vocabulary.keys ↔ word ∈ found.map (·.stem) := by
  rw [encodeRecordings, hfound] at hencode
  rw [mem_keys_foldlM_addRecording hencode]
  exact or_iff_right List.not_mem_nil

theorem exists_namedFiles_of_encodeRecordings
    (hencode : (encodeRecordings files encoder directory).runFrom state =
      (.ok vocabulary, after)) :
    ∃ found, namedFiles files directory recordingExtension = .ok found := by
  unfold encodeRecordings at hencode
  cases hfound : namedFiles files directory recordingExtension with
  | ok found => exact ⟨found, rfl⟩
  | error fault =>
      rw [hfound] at hencode
      cases hencode

/-- Encoding the recordings of a directory fails for the directory or for a recording. -/
theorem encodeRecordings_failsOnly
    (hencoder : ∀ path, (encoder.encode path).FailsOnly fun failure =>
      ∃ file fault, failure = .encoding file fault) :
    (encodeRecordings files encoder directory).FailsOnly fun failure =>
      (∃ fault, failure = .files fault) ∨ ∃ file fault, failure = .encoding file fault := by
  unfold encodeRecordings
  split
  · rename_i fault _
    exact .throw (.inl ⟨fault, rfl⟩)
  · refine .foldlM fun vocabulary file _ => ?_
    have hencode : (encoder.encode file.path).FailsOnly fun failure =>
        (∃ fault, failure = .files fault) ∨ ∃ file fault, failure = .encoding file fault :=
      fun state failure after hrun => .inr (hencoder file.path state failure after hrun)
    refine hencode.bind fun data => ?_
    split
    · exact .throw (.inr ⟨_, _, rfl⟩)
    · exact .pure _

end Recordings

/-! ## The whole build -/

section Build

variable {σ : Type} {encoder : Encoder σ} {state after : σ} {recordings phrases : String}
  {image : Rom.Image} {failure : BuildError}

/-- A build that succeeds has gone through all its stages. -/
theorem build_eq_ok_iff :
    (build files settings encoder recordings phrases).runFrom state = (.ok (pack, image), after) ↔
      readPack files settings phrases = .ok pack ∧
        ∃ vocabulary, (encodeRecordings files encoder recordings).runFrom state =
            (.ok vocabulary, after) ∧
          Rom.Image.ofPack pack vocabulary settings.primaryBank = .ok image := by
  unfold build
  constructor
  · intro hbuild
    obtain ⟨found, _, hfound, hbuild⟩ := Attempt.runFrom_bind_eq_ok_iff.mp hbuild
    obtain ⟨vocabulary, _, hencode, hbuild⟩ := Attempt.runFrom_bind_eq_ok_iff.mp hbuild
    obtain ⟨linked, _, hlink, hbuild⟩ := Attempt.runFrom_bind_eq_ok_iff.mp hbuild
    cases hbuild
    obtain ⟨hread, rfl⟩ := Prod.mk.inj hfound
    obtain ⟨hlinked, rfl⟩ := Prod.mk.inj hlink
    exact ⟨hread, vocabulary, hencode, hlinked⟩
  · rintro ⟨hread, vocabulary, hencode, hlinked⟩
    rw [hread, Attempt.ofExcept_ok_bind, Attempt.runFrom_bind, hencode]
    dsimp only
    rw [hlinked]
    rfl

/-- A build that fails has failed at one of its stages, and gone through those before it. -/
theorem build_eq_error_iff :
    (build files settings encoder recordings phrases).runFrom state = (.error failure, after) ↔
      (readPack files settings phrases = .error failure ∧ state = after) ∨
        ∃ pack, readPack files settings phrases = .ok pack ∧
          ((encodeRecordings files encoder recordings).runFrom state = (.error failure, after) ∨
            ∃ vocabulary, (encodeRecordings files encoder recordings).runFrom state =
                (.ok vocabulary, after) ∧
              Rom.Image.ofPack pack vocabulary settings.primaryBank = .error failure) := by
  unfold build
  cases hread : readPack files settings phrases with
  | error fault => simp [Attempt.runFrom_bind_eq_error_iff]
  | ok pack =>
      rw [Attempt.ofExcept_ok_bind, Attempt.runFrom_bind_eq_error_iff]
      constructor
      · rintro (hencode | ⟨vocabulary, middle, hencode, hrest⟩)
        · exact .inr ⟨pack, rfl, .inl hencode⟩
        · rcases Attempt.runFrom_bind_eq_error_iff.mp hrest with hlink | ⟨_, _, _, hdone⟩
          · obtain ⟨hlinked, rfl⟩ := Prod.mk.inj hlink
            exact .inr ⟨pack, rfl, .inr ⟨vocabulary, hencode, hlinked⟩⟩
          · cases hdone
      · rintro (⟨hfault, _⟩ | ⟨_, heq, hencode | ⟨vocabulary, hencode, hlinked⟩⟩)
        · cases hfault
        · exact .inl hencode
        · cases heq
          refine .inr ⟨vocabulary, after, hencode, ?_⟩
          rw [hlinked]
          rfl

end Build

end SpeechRom
