import SpeechRom.Proofs.Stages

/-!
# Building at once and stage by stage

A build that is run at once checks its pack when it reads it; the stages, run one by one, check it
again before they link.  Both agree (`build_iff_staged`): a build ends the way the stages end, with
the same pack and image or with the failure of the first stage that fails, and leaves the encoder
in the same state.

What an encoder was asked for shows in its state, if it takes notes (`Encoder.noting`).  Taking
notes changes nothing else, so the theorem says of the notes as well that they are the same.

## Strategy

A pack that was read has been accepted, and the check is a function of the pack and the name of the
primary bank, so the second check is accepted too and linking is all that is left of the last stage
(`linkChecked_of_readPack`).
-/

namespace SpeechRom

open Files

variable {σ φ : Type} [FileSystem φ] {files : φ} {settings : Settings} {encoder : Encoder σ}
  {recordings phrases : String} {state : σ} {pack : Pack}

/-! ## The second check -/

/-- The check that a pack passed when it was read is not the one that fails before linking. -/
theorem linkChecked_of_readPack (hread : readPack files settings phrases = .ok pack)
    (vocabulary : Vocabulary) :
    linkChecked settings pack vocabulary =
      Rom.Image.ofPack pack vocabulary settings.primaryBank := by
  obtain ⟨_, start, hcheck⟩ := readPack_eq_ok_iff.mp hread
  unfold linkChecked
  rw [hcheck]
  rfl

theorem buildStaged_eq (files : φ) (settings : Settings) (encoder : Encoder σ)
    (recordings phrases : String) :
    buildStaged files settings encoder recordings phrases =
      build files settings encoder recordings phrases := by
  unfold buildStaged build
  cases hread : readPack files settings phrases with
  | error failure => rfl
  | ok pack => simp only [Attempt.ofExcept_ok_bind, linkChecked_of_readPack hread]

/-! ## The stages one by one -/

/-- What comes of running the stages one after another, up to the first one that fails: the outcome
and the state in which the encoder is left. -/
inductive Staged (files : φ) (settings : Settings) (encoder : Encoder σ)
    (recordings phrases : String) (state : σ) : Except BuildError (Pack × Rom.Image) → σ → Prop
  | unread {failure : BuildError} (hread : readPack files settings phrases = .error failure) :
      Staged files settings encoder recordings phrases state (.error failure) state
  | unencoded {pack : Pack} {failure : BuildError} {after : σ}
      (hread : readPack files settings phrases = .ok pack)
      (hencode : (encodeRecordings files encoder recordings).runFrom state =
        (.error failure, after)) :
      Staged files settings encoder recordings phrases state (.error failure) after
  | unlinked {pack : Pack} {vocabulary : Vocabulary} {failure : BuildError} {after : σ}
      (hread : readPack files settings phrases = .ok pack)
      (hencode : (encodeRecordings files encoder recordings).runFrom state =
        (.ok vocabulary, after))
      (hlink : linkChecked settings pack vocabulary = .error failure) :
      Staged files settings encoder recordings phrases state (.error failure) after
  | linked {pack : Pack} {vocabulary : Vocabulary} {image : Rom.Image} {after : σ}
      (hread : readPack files settings phrases = .ok pack)
      (hencode : (encodeRecordings files encoder recordings).runFrom state =
        (.ok vocabulary, after))
      (hlink : linkChecked settings pack vocabulary = .ok image) :
      Staged files settings encoder recordings phrases state (.ok (pack, image)) after

theorem runFrom_build_eq_iff {outcome : Except BuildError (Pack × Rom.Image)} {after : σ} :
    (build files settings encoder recordings phrases).runFrom state = (outcome, after) ↔
      Staged files settings encoder recordings phrases state outcome after := by
  constructor
  · intro hbuild
    cases outcome with
    | ok result =>
        obtain ⟨pack, image⟩ := result
        obtain ⟨hread, vocabulary, hencode, himage⟩ := build_eq_ok_iff.mp hbuild
        exact .linked hread hencode ((linkChecked_of_readPack hread vocabulary).trans himage)
    | error failure =>
        rcases build_eq_error_iff.mp hbuild with
          ⟨hread, rfl⟩ | ⟨pack, hread, hencode | ⟨vocabulary, hencode, himage⟩⟩
        · exact .unread hread
        · exact .unencoded hread hencode
        · exact .unlinked hread hencode ((linkChecked_of_readPack hread vocabulary).trans himage)
  · intro hstaged
    cases hstaged with
    | unread hread => exact build_eq_error_iff.mpr (.inl ⟨hread, rfl⟩)
    | unencoded hread hencode => exact build_eq_error_iff.mpr (.inr ⟨_, hread, .inl hencode⟩)
    | unlinked hread hencode hlink =>
        rw [linkChecked_of_readPack hread] at hlink
        exact build_eq_error_iff.mpr (.inr ⟨_, hread, .inr ⟨_, hencode, hlink⟩⟩)
    | linked hread hencode hlink =>
        rw [linkChecked_of_readPack hread] at hlink
        exact build_eq_ok_iff.mpr ⟨hread, _, hencode, hlink⟩

/-! ## What the encoder is asked for -/

/-- The encoder, with a note of every recording that it was asked for. -/
def Encoder.noting (encoder : Encoder σ) : Encoder (σ × List String) where
  encode path := do
    let (state, asked) ← get
    let (result, after) := (encoder.encode path).runFrom state
    set (after, asked ++ [path])
    Attempt.ofExcept result

namespace Attempt

/-- The attempt ends like another one and adds some notes. -/
def Notes {ε α : Type} (attempt : Attempt ε (σ × List String) α) (plain : Attempt ε σ α)
    (state : σ) (notes : List String) : Prop :=
  ∀ asked, attempt.runFrom (state, asked) =
    ((plain.runFrom state).1, (plain.runFrom state).2, asked ++ notes)

namespace Notes

variable {ε α β : Type} {attempt : Attempt ε (σ × List String) α} {plain : Attempt ε σ α}
  {next : α → Attempt ε (σ × List String) β} {other : α → Attempt ε σ β} {after : σ}
  {notes rest : List String}

theorem ofExcept (result : Except ε α) :
    (Attempt.ofExcept result).Notes (Attempt.ofExcept result) state [] := by
  intro asked
  simp

theorem bind_ok {a : α} (hfirst : attempt.Notes plain state notes)
    (hrun : plain.runFrom state = (.ok a, after)) (hnext : (next a).Notes (other a) after rest) :
    (attempt >>= next).Notes (plain >>= other) state (notes ++ rest) := by
  intro asked
  rw [runFrom_bind, runFrom_bind, hfirst asked, hrun]
  dsimp only
  rw [hnext, List.append_assoc]

theorem bind_error {failure : ε} (hfirst : attempt.Notes plain state notes)
    (hrun : plain.runFrom state = (.error failure, after)) :
    (attempt >>= next).Notes (plain >>= other) state notes := by
  intro asked
  rw [runFrom_bind, runFrom_bind, hfirst asked, hrun]

/-- What comes after the notes and adds none. -/
theorem bind (hfirst : attempt.Notes plain state notes)
    (hnext : ∀ a after, (next a).Notes (other a) after []) :
    (attempt >>= next).Notes (plain >>= other) state notes := by
  rcases hrun : plain.runFrom state with ⟨failure | a, after⟩
  · exact hfirst.bind_error hrun
  · simpa using hfirst.bind_ok hrun (hnext a after)

end Notes

end Attempt

/-- The notes are the recordings in a directory, in their order: the first ones of them, and all if
the attempt succeeds. -/
def InOrder {α : Type} (files : φ) (recordings : String) (attempt : Attempt BuildError σ α)
    (state : σ) (notes : List String) : Prop :=
  ∀ found, namedFiles files recordings recordingExtension = .ok found →
    notes <+: found.map (·.path) ∧
      ∀ answer after, attempt.runFrom state = (.ok answer, after) → notes = found.map (·.path)

theorem notes_addRecording (encoder : Encoder σ) (vocabulary : Vocabulary) (file : NamedFile)
    (state : σ) :
    (addRecording encoder.noting vocabulary file).Notes (addRecording encoder vocabulary file)
      state [file.path] := by
  have hencode : (encoder.noting.encode file.path).Notes (encoder.encode file.path) state
      [file.path] := fun _ => rfl
  refine hencode.bind fun data after asked => ?_
  split <;> simp [Encoder.fail]

/-- Of a row of recordings the encoder is asked for the first ones, in their order, and for all of
them if none is refused. -/
theorem notes_foldlM_addRecording (encoder : Encoder σ) (found : List NamedFile)
    (vocabulary : Vocabulary) (state : σ) :
    ∃ front, front <+: found ∧
      (found.foldlM (addRecording encoder.noting) vocabulary).Notes
        (found.foldlM (addRecording encoder) vocabulary) state (front.map (·.path)) ∧
      ∀ final after, (found.foldlM (addRecording encoder) vocabulary).runFrom state =
        (.ok final, after) → front = found := by
  -- a recording that is added hands its state on to the rest; one that is refused is the last
  induction found generalizing vocabulary state with
  | nil => exact ⟨[], List.nil_prefix, fun asked => by simp, fun _ _ _ => rfl⟩
  | cons file others ih =>
      have hfirst := notes_addRecording encoder vocabulary file state
      simp only [List.foldlM_cons]
      rcases hadd : (addRecording encoder vocabulary file).runFrom state with
        ⟨failure | next, after⟩
      · refine ⟨[file], by simp, hfirst.bind_error hadd, fun final last hfold => ?_⟩
        rw [Attempt.runFrom_bind, hadd] at hfold
        cases hfold
      · obtain ⟨front, hfront, hrest, hall⟩ := ih next after
        refine ⟨file :: front, List.cons_prefix_cons.mpr ⟨rfl, hfront⟩,
          hfirst.bind_ok hadd hrest, fun final last hfold => ?_⟩
        rw [Attempt.runFrom_bind, hadd] at hfold
        rw [hall final last hfold]

theorem notes_encodeRecordings (files : φ) (encoder : Encoder σ) (recordings : String)
    (state : σ) :
    ∃ notes, (encodeRecordings files encoder.noting recordings).Notes
        (encodeRecordings files encoder recordings) state notes ∧
      InOrder files recordings (encodeRecordings files encoder recordings) state notes := by
  unfold InOrder encodeRecordings
  cases namedFiles files recordings recordingExtension with
  | error fault => exact ⟨[], fun asked => by simp, by simp⟩
  | ok found =>
      obtain ⟨front, hfront, hnotes, hall⟩ := notes_foldlM_addRecording encoder found ∅ state
      refine ⟨front.map (·.path), hnotes, ?_⟩
      rintro _ ⟨rfl⟩
      refine ⟨hfront.map _, fun vocabulary after hencode => ?_⟩
      rw [hall vocabulary after hencode]

theorem notes_build (files : φ) (settings : Settings) (encoder : Encoder σ)
    (recordings phrases : String) (state : σ) :
    ∃ notes, (build files settings encoder.noting recordings phrases).Notes
        (build files settings encoder recordings phrases) state notes ∧
      InOrder files recordings (build files settings encoder recordings phrases) state notes := by
  cases hread : readPack files settings phrases with
  | error failure =>
      have hbuild : ∀ {τ : Type} (encoder : Encoder τ),
          build files settings encoder recordings phrases = Attempt.ofExcept (.error failure) := by
        intro τ encoder
        unfold build
        rw [hread]
        rfl
      rw [hbuild, hbuild]
      exact ⟨[], .ofExcept _, fun found _ => by simp⟩
  | ok pack =>
      obtain ⟨notes, hencode, hscan⟩ := notes_encodeRecordings files encoder recordings state
      refine ⟨notes, ?_, fun found hfound => ⟨(hscan found hfound).1, fun built after hbuilt => ?_⟩⟩
      · unfold build
        rw [hread]
        refine hencode.bind fun vocabulary middle => ?_
        refine (Attempt.Notes.ofExcept _).bind fun image after => ?_
        exact .ofExcept (.ok (pack, image))
      · obtain ⟨_, vocabulary, hrun, _⟩ := build_eq_ok_iff.mp hbuilt
        exact (hscan found hfound).2 vocabulary after hrun

/-! ## Both ways to build -/

/-- Building at once and running the stages one by one come to the same: the same pack and image
or the failure of the first stage that fails, the same state of the encoder, and the same
recordings asked for in the same order. -/
theorem build_iff_staged (files : φ) (settings : Settings) (encoder : Encoder σ)
    (recordings phrases : String) (state : σ) :
    buildStaged files settings encoder recordings phrases =
      build files settings encoder recordings phrases ∧
    (∀ outcome after,
      (build files settings encoder recordings phrases).runFrom state = (outcome, after) ↔
        Staged files settings encoder recordings phrases state outcome after) ∧
    ∃ asked,
      (build files settings encoder.noting recordings phrases).Notes
        (build files settings encoder recordings phrases) state asked ∧
      (∀ outcome after notes,
        Staged files settings encoder.noting recordings phrases (state, []) outcome (after, notes) ↔
          Staged files settings encoder recordings phrases state outcome after ∧ notes = asked) ∧
      InOrder files recordings (build files settings encoder recordings phrases) state asked := by
  refine ⟨buildStaged_eq files settings encoder recordings phrases,
    fun outcome after => runFrom_build_eq_iff, ?_⟩
  obtain ⟨asked, hnotes, horder⟩ := notes_build files settings encoder recordings phrases state
  refine ⟨asked, hnotes, fun outcome after notes => ?_, horder⟩
  rw [← runFrom_build_eq_iff, ← runFrom_build_eq_iff, hnotes []]
  rcases (build files settings encoder recordings phrases).runFrom state with ⟨result, last⟩
  constructor
  · rintro ⟨⟩
    simp
  · rintro ⟨⟨⟩, rfl⟩
    simp

end SpeechRom
