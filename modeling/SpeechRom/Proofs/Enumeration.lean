import SpeechRom.Proofs.Files.Enumeration
import SpeechRom.Proofs.Stages

/-!
# Builds do not depend on the order of enumeration

What is read from a directory goes through a scan of it, and a scan gives the same files in whatever
order the directory is enumerated.  So packs and vocabularies are those of the contents
(`enumeration_invisible`): the encoder is called once for each recording, in the order of the
stems, and the first recording that is refused decides how a build fails (`Recorded`).

An encoder may look at the files itself.  It then has to give the same data from states that differ
in the order of enumeration only, which is what `Attempt.Respects` says; started from one and the
same state, every encoder does (`Attempt.Respects.eq`).
-/

namespace SpeechRom

open Files

/-! ## Attempts that cannot tell states apart -/

namespace Attempt

variable {ε σ α β : Type} {R : σ → σ → Prop}

/-- From related states the attempt ends with the same outcome, and in related states. -/
def Respects (R : σ → σ → Prop) (attempt : Attempt ε σ α) : Prop :=
  ∀ state other, R state other →
    (attempt.runFrom state).1 = (attempt.runFrom other).1 ∧
      R (attempt.runFrom state).2 (attempt.runFrom other).2

namespace Respects

/-- No attempt can tell equal states apart. -/
theorem eq (attempt : Attempt ε σ α) : attempt.Respects Eq := by
  rintro state _ rfl
  exact ⟨rfl, rfl⟩

theorem pure (a : α) : (Pure.pure a : Attempt ε σ α).Respects R :=
  fun _ _ hstate => ⟨rfl, hstate⟩

theorem throw (failure : ε) : (MonadExcept.throw failure : Attempt ε σ α).Respects R :=
  fun _ _ hstate => ⟨rfl, hstate⟩

theorem bind {attempt : Attempt ε σ α} {next : α → Attempt ε σ β} (hattempt : attempt.Respects R)
    (hnext : ∀ a, (next a).Respects R) : (attempt >>= next).Respects R := by
  intro state other hstate
  obtain ⟨houtcome, hafter⟩ := hattempt state other hstate
  rw [runFrom_bind, runFrom_bind]
  generalize attempt.runFrom state = left at houtcome hafter
  generalize attempt.runFrom other = right at houtcome hafter
  obtain ⟨outcome, after⟩ := left
  obtain ⟨_, last⟩ := right
  obtain rfl := houtcome
  cases outcome with
  | ok a => exact hnext a after last hafter
  | error failure => exact ⟨rfl, hafter⟩

theorem foldlM {f : β → α → Attempt ε σ β} (hstep : ∀ before input, (f before input).Respects R)
    (inputs : List α) (start : β) : (inputs.foldlM f start).Respects R := by
  induction inputs generalizing start with
  | nil => exact pure start
  | cons input rest ih =>
      rw [List.foldlM_cons]
      exact (hstep start input).bind ih

end Respects

end Attempt

/-! ## Recordings one after another -/

section Recordings

variable {φ σ : Type} [FileSystem φ] {files : φ} {encoder : Encoder σ} {state after : σ}
  {found : List NamedFile} {directory : String}

/-- The encoder is called once for every file, in the order of the files, and gives data for it. -/
inductive Encodes (encoder : Encoder σ) : σ → List NamedFile → List (List UInt8) → σ → Prop
  | nil (state : σ) : Encodes encoder state [] [] state
  | cons {state middle after : σ} {file : NamedFile} {data : List UInt8} {rest : List NamedFile}
      {others : List (List UInt8)}
      (hfile : (encoder.encode file.path).runFrom state = (.ok data, middle)) (hdata : data ≠ [])
      (hrest : Encodes encoder middle rest others after) :
      Encodes encoder state (file :: rest) (data :: others) after

/-- The encoder fails for a file, or it gives no data. -/
inductive Refuses (encoder : Encoder σ) (state : σ) (file : NamedFile) : BuildError → σ → Prop
  | failed {failure : BuildError} {after : σ}
      (hfile : (encoder.encode file.path).runFrom state = (.error failure, after)) :
      Refuses encoder state file failure after
  | silent {after : σ} (hfile : (encoder.encode file.path).runFrom state = (.ok [], after)) :
      Refuses encoder state file (.encoding file.path .noData) after

/-- What comes of the files: a vocabulary with the data of all of them by their stems, or the
failure for the first one that is refused, after which the encoder is not called any more. -/
inductive Recorded (encoder : Encoder σ) (state : σ) (found : List NamedFile) :
    Except BuildError Vocabulary × σ → Prop
  | complete {blobs : List (List UInt8)} {vocabulary : Vocabulary} {after : σ}
      (hfound : Encodes encoder state found blobs after)
      (hentries : vocabulary.entries = (found.map (·.stem)).zip blobs) :
      Recorded encoder state found (.ok vocabulary, after)
  | broken {front rest : List NamedFile} {file : NamedFile} {blobs : List (List UInt8)}
      {failure : BuildError} {middle after : σ} (hfound : found = front ++ file :: rest)
      (hfront : Encodes encoder state front blobs middle)
      (hfile : Refuses encoder middle file failure after) :
      Recorded encoder state found (.error failure, after)

theorem Encodes.length_eq {blobs : List (List UInt8)}
    (hfound : Encodes encoder state found blobs after) : blobs.length = found.length := by
  induction hfound with
  | nil => rfl
  | cons _ _ _ ih => rw [List.length_cons, List.length_cons, ih]

/-- A recording is added with its data, or it is refused. -/
theorem addRecording_cases (encoder : Encoder σ) (state : σ) (vocabulary : Vocabulary)
    (file : NamedFile) :
    (∃ data middle, (encoder.encode file.path).runFrom state = (.ok data, middle) ∧ data ≠ [] ∧
      (addRecording encoder vocabulary file).runFrom state =
        (.ok (vocabulary.insert file.stem data), middle)) ∨
    ∃ failure after, Refuses encoder state file failure after ∧
      (addRecording encoder vocabulary file).runFrom state = (.error failure, after) := by
  rw [addRecording, Attempt.runFrom_bind]
  rcases hencode : (encoder.encode file.path).runFrom state with ⟨failure | data, middle⟩
  · exact .inr ⟨failure, middle, .failed hencode, rfl⟩
  cases data with
  | nil => exact .inr ⟨_, middle, .silent hencode, rfl⟩
  | cons byte rest => exact .inl ⟨byte :: rest, middle, rfl, List.cons_ne_nil _ _, rfl⟩

/-- Recordings are added to a vocabulary in their order, up to the first one that is refused. -/
theorem foldlM_addRecording_cases (encoder : Encoder σ) (state : σ) (found : List NamedFile)
    (vocabulary : Vocabulary) :
    (∃ blobs after, Encodes encoder state found blobs after ∧
      (found.foldlM (addRecording encoder) vocabulary).runFrom state =
        (.ok (((found.map (·.stem)).zip blobs).foldl (fun m pair => m.insert pair.1 pair.2)
          vocabulary), after)) ∨
    ∃ front file rest blobs failure middle after, found = front ++ file :: rest ∧
      Encodes encoder state front blobs middle ∧ Refuses encoder middle file failure after ∧
        (found.foldlM (addRecording encoder) vocabulary).runFrom state =
          (.error failure, after) := by
  -- over the files: every recording that is added hands its state and vocabulary to the rest
  induction found generalizing state vocabulary with
  | nil => exact .inl ⟨[], state, .nil state, rfl⟩
  | cons file rest ih =>
      rw [List.foldlM_cons, Attempt.runFrom_bind]
      rcases addRecording_cases encoder state vocabulary file with
        ⟨data, middle, hfile, hdata, hadd⟩ | ⟨failure, after, hrefused, hadd⟩
      · rw [hadd]
        rcases ih middle (vocabulary.insert file.stem data) with
          ⟨blobs, after, hrest, hrun⟩ | ⟨front, next, others, blobs, failure, last, after, rfl, hfront,
            hrefused, hrun⟩
        · exact .inl ⟨data :: blobs, after, .cons hfile hdata hrest, hrun⟩
        · exact .inr ⟨file :: front, next, others, data :: blobs, failure, last, after, rfl,
            .cons hfile hdata hfront, hrefused, hrun⟩
      · rw [hadd]
        exact .inr ⟨[], file, rest, [], failure, state, after, rfl, .nil state, hrefused, rfl⟩

/-- **The recordings of a directory are encoded in the order in which they are scanned.** -/
theorem recorded_encodeRecordings
    (hfound : namedFiles files directory recordingExtension = .ok found) (encoder : Encoder σ)
    (state : σ) :
    Recorded encoder state found ((encodeRecordings files encoder directory).runFrom state) := by
  rw [encodeRecordings, hfound]
  dsimp only
  rcases foldlM_addRecording_cases encoder state found ∅ with
    ⟨blobs, after, hencodes, hrun⟩ | ⟨front, file, rest, blobs, failure, middle, after, hsplit,
      hfront, hrefused, hrun⟩
  · rw [hrun]
    -- stems are different, so no recording takes the place of another one
    refine .complete hencodes (OrderedMap.entries_ofList ?_)
    rw [List.map_fst_zip (by rw [List.length_map, hencodes.length_eq])]
    exact (scanned_of_namedFiles hfound).nodup_stems
  · rw [hrun]
    exact .broken hsplit hfront hrefused

theorem respects_encodeRecordings {R : σ → σ → Prop}
    (hencoder : ∀ path, (encoder.encode path).Respects R) (files : φ) (directory : String) :
    (encodeRecordings files encoder directory).Respects R := by
  unfold encodeRecordings
  split
  · exact .throw _
  · refine .foldlM (fun vocabulary (file : NamedFile) => (hencoder file.path).bind fun data => ?_) _ _
    split
    · exact .throw _
    · exact .pure _

/-- The encoder that takes recordings for speech data does not see the order of enumeration. -/
theorem respects_verbatim (ending : List UInt8) (path : String) :
    ((Encoder.verbatim ending).encode path).Respects (@SameContents φ _) := by
  intro first second hsame
  have hget (files : φ) : Attempt.runFrom files (get : Attempt BuildError φ φ) =
      (.ok files, files) := rfl
  rw [Encoder.verbatim, Attempt.runFrom_bind, Attempt.runFrom_bind, hget, hget]
  dsimp only
  rw [hsame.read]
  cases FileSystem.read second path with
  | ok content => exact ⟨rfl, hsame⟩
  | error reason => exact ⟨rfl, hsame⟩

end Recordings

/-! ## Packs -/

section Systems

variable {φ : Type} [FileSystem φ] {first second : φ}

theorem ofDirectory_congr (hsame : SameContents first second) (directory : String) :
    Pack.ofDirectory first directory = Pack.ofDirectory second directory := by
  unfold Pack.ofDirectory readSources
  rw [namedFiles_congr hsame]
  simp only [hsame.readText]

/-! ## Both together -/

/-- **The order of enumeration is invisible.**  Of two states with the same contents scans give the
same files.  If the directory can be read, these are the files that it holds (`holdsFile`), in the
order of their stems; a regular file in the directory is left out, without a word, only if the
system does not report it behind the path of the directory with its name.  If the directory cannot
be read, the scan fails.  The packs are the same or fail alike, and so do the vocabularies, if the
encoder does not tell the states apart from which it is started: it is called for the files of the
scan, one after another. -/
theorem enumeration_invisible (hsame : SameContents first second) (directory extension : String)
    {σ : Type} {R : σ → σ → Prop} {encoder : Encoder σ}
    (hencoder : ∀ path, (encoder.encode path).Respects R) {state other : σ}
    (hstate : R state other) :
    namedFiles first directory extension = namedFiles second directory extension ∧
      (Readable first directory → ∃ found, namedFiles first directory extension = .ok found ∧
        Scanned first directory extension found) ∧
      (¬Readable first directory → ∃ fault, namedFiles first directory extension = .error fault) ∧
      Pack.ofDirectory first directory = Pack.ofDirectory second directory ∧
      ((encodeRecordings first encoder directory).runFrom state).1 =
        ((encodeRecordings second encoder directory).runFrom other).1 ∧
      R ((encodeRecordings first encoder directory).runFrom state).2
        ((encodeRecordings second encoder directory).runFrom other).2 ∧
      ∀ found, namedFiles first directory recordingExtension = .ok found →
        Recorded encoder state found
          ((encodeRecordings first encoder directory).runFrom state) := by
  -- the files matter to encoding through the scan alone, so both runs are of one attempt
  have hrecordings : encodeRecordings first encoder directory =
      encodeRecordings second encoder directory := by
    rw [encodeRecordings, encodeRecordings, namedFiles_congr hsame]
  obtain ⟨houtcome, hafter⟩ := respects_encodeRecordings hencoder first directory state other hstate
  refine ⟨namedFiles_congr hsame directory extension, fun hreadable => ?_, fun hunread => ?_,
    ofDirectory_congr hsame directory, hrecordings ▸ houtcome, hrecordings ▸ hafter,
    fun found hfound => recorded_encodeRecordings hfound encoder state⟩
  · obtain ⟨found, hfound⟩ := exists_namedFiles_iff.mpr hreadable
    exact ⟨found, hfound, scanned_of_namedFiles hfound⟩
  · cases hfound : namedFiles first directory extension with
    | error fault => exact ⟨fault, rfl⟩
    | ok found => exact absurd (exists_namedFiles_iff.mp ⟨found, hfound⟩) hunread

end Systems

/-- Two recordings, of which one goes on where the other one ends. -/
def shelf : FileTree where
  nodes := ⟨[(["d"], .directory), (["d", "a.wav"], .file [1]),
    (["d", "a_b.wav"], .file [2])], by decide⟩
  workingDirectory := []

/-- The same files, enumerated the other way round. -/
def turnedShelf : FileTree where
  nodes := ⟨[(["d", "a_b.wav"], .file [2]), (["d", "a.wav"], .file [1]),
    (["d"], .directory)], by decide⟩
  workingDirectory := []

theorem enumeration_invisible_shelf :
    SameContents shelf turnedShelf ∧ shelf.listing ["d"] ≠ turnedShelf.listing ["d"] ∧
      namedFiles turnedShelf "d" "wav" = .ok [⟨"a", "d/a.wav"⟩, ⟨"a_b", "d/a_b.wav"⟩] ∧
      (∃ found, namedFiles shelf "d" "wav" = .ok found ∧ Scanned shelf "d" "wav" found) ∧
      Pack.ofDirectory shelf "d" = Pack.ofDirectory turnedShelf "d" ∧
      ((encodeRecordings shelf (Encoder.verbatim [0]) "d").runFrom shelf).1 =
        ((encodeRecordings turnedShelf (Encoder.verbatim [0]) "d").runFrom turnedShelf).1 ∧
      Recorded (Encoder.verbatim [0]) shelf [⟨"a", "d/a.wav"⟩, ⟨"a_b", "d/a_b.wav"⟩]
        ((encodeRecordings shelf (Encoder.verbatim [0]) "d").runFrom shelf) := by
  have hsame : SameContents shelf turnedShelf :=
    FileTree.sameContents_of_perm (by decide) rfl rfl
  have hfound : namedFiles shelf "d" "wav" = .ok [⟨"a", "d/a.wav"⟩, ⟨"a_b", "d/a_b.wav"⟩] :=
    namedFiles_of_sorted (by decide) rfl rfl (by decide) (by decide)
  obtain ⟨hscan, hscanned, _, hpack, houtcome, _, hrecorded⟩ :=
    enumeration_invisible hsame "d" "wav" (respects_verbatim [0]) hsame
  have hreadable : Readable shelf "d" := exists_namedFiles_iff.mp ⟨_, hfound⟩
  refine ⟨hsame, fun heq => ?_, hscan ▸ hfound, hscanned hreadable, hpack, houtcome,
    hrecorded _ hfound⟩
  exact absurd (congrArg Listing.names heq) (by decide)

end SpeechRom
