import SpeechRom.Files.Tree
import SpeechRom.Proofs.Files.Scan
import SpeechRom.Proofs.Pack.Acyclic
import SpeechRom.Proofs.Rom.PlaybackEquivalence
import SpeechRom.Proofs.Stages

/-!
# Built images can be played

Whatever directories, settings and encoder a build starts from, an image that
comes out of it opens, decodes, and plays to the end from every state of every
source (`playable_of_build`).  Each stage gives its part: sources make a
well-formed pack, the check puts its banks in order, encoding leaves no word
without data, and linking makes the walk through the image the walk through the
pack.
-/

namespace SpeechRom

open Files

/-! ## The main statement -/

/-- **Every image that is built can be played.**  It opens and decodes, and from every state of
every source it plays to the end, giving some pointers, each the address of a word of the pack. -/
theorem playable_of_build {φ τ : Type} [FileSystem φ] {files : φ} {settings : Settings}
    {encoder : Encoder τ} {recordings phrases : String} {state after : τ} {pack : Pack}
    {image : Rom.Image}
    (hbuild : (build files settings encoder recordings phrases).runFrom state =
      (.ok (pack, image), after)) :
    ∃ reader decoded, Rom.Reader.open? image.bytes = .ok reader ∧ reader.decode = .ok decoded ∧
      ∀ (σ : Type) (source : ChoiceSource σ) (start : σ), ∃ pointers last,
        (reader.play source).runFrom start = (.ok pointers, last) ∧ pointers ≠ [] ∧
          ∀ pointer ∈ pointers, ∃ word ∈ pack.words.values,
            image.addresses.offset? (.word word.id) = some pointer.toNat := by
  obtain ⟨hread, vocabulary, hencode, hlinked⟩ := build_eq_ok_iff.mp hbuild
  obtain ⟨hfound, checked, hcheck⟩ := readPack_eq_ok_iff.mp hread
  obtain ⟨sources, _, hsources⟩ := ofDirectory_eq_ok_iff.mp hfound
  obtain ⟨hfits, bank, hbank, hstart, rfl⟩ :=
    Rom.fits_of_linked hsources (ne_nil_of_encodeRecordings hencode) hlinked
  obtain ⟨reader, hopen, hshows⟩ := hfits.exists_reader hbank
  refine ⟨reader, _, hopen, hfits.decode_eq hshows hbank, fun σ source start => ?_⟩
  obtain ⟨pointers, last, hplay, words, hwords, hspoken⟩ :=
    (hfits.inStep_sayWords_play hshows hbank).succeeds
      (Pack.succeeds_sayWords_of_check hfits.well hcheck source hbank) start
  refine ⟨pointers, last, hplay, ?_, fun pointer hpointer => ?_⟩
  · rintro rfl
    exact hwords (List.forall₂_nil_right_iff.mp hspoken)
  · obtain ⟨text, _, word, hword, _, haddress⟩ := exists_left_of_forall₂ hspoken hpointer
    exact ⟨word, hword, haddress⟩

/-- Two phrase files and two recordings; the phrases of the first file ask for the second one. -/
def greetingTree : FileTree where
  nodes := ⟨[(["p"], .directory), (["p", "a.txt"], .file [104, 105, 32, 123, 98, 125, 10]),
    (["p", "b.txt"], .file [104, 105, 10, 104, 111, 10]), (["w"], .directory),
    (["w", "hi.wav"], .file [1, 2]), (["w", "ho.wav"], .file [3])], by decide⟩
  workingDirectory := []

/-- An encoder that numbers the recordings. -/
def numbering : Encoder Nat where
  encode _ := do
    let count ← get
    set (count + 1)
    return [UInt8.ofNat count]

theorem playable_of_build_greeting :
    ∃ pack image reader decoded,
      (build greetingTree { Settings.default with primaryBank := "a" } numbering "w" "p").runFrom
        0 = (.ok (pack, image), 2) ∧
      Rom.Reader.open? image.bytes = .ok reader ∧ reader.decode = .ok decoded ∧
      ∀ (σ : Type) (source : ChoiceSource σ) (start : σ), ∃ pointers last,
        (reader.play source).runFrom start = (.ok pointers, last) ∧ pointers ≠ [] := by
  have hphrases : namedFiles greetingTree "p" phraseExtension =
      .ok [⟨"a", "p/a.txt"⟩, ⟨"b", "p/b.txt"⟩] :=
    namedFiles_of_sorted (by decide) rfl rfl (by decide) (by decide)
  have hrecordings : namedFiles greetingTree "w" recordingExtension =
      .ok [⟨"hi", "w/hi.wav"⟩, ⟨"ho", "w/ho.wav"⟩] :=
    namedFiles_of_sorted (by decide) rfl rfl (by decide) (by decide)
  obtain ⟨pack, image, hbuild⟩ : ∃ pack image, (build greetingTree
      { Settings.default with primaryBank := "a" } numbering "w" "p").runFrom 0 =
        (.ok (pack, image), 2) := by
    rw [build, readPack, Pack.ofDirectory, readSources, hphrases, encodeRecordings, hrecordings]
    exact ⟨_, _, rfl⟩
  obtain ⟨reader, decoded, hopen, hdecode, hplay⟩ := playable_of_build hbuild
  refine ⟨pack, image, reader, decoded, hbuild, hopen, hdecode, fun σ source start => ?_⟩
  obtain ⟨pointers, last, hrun, hpointers, _⟩ := hplay σ source start
  exact ⟨pointers, last, hrun, hpointers⟩

end SpeechRom
