import SpeechRom.Proofs.OrderedMap
import SpeechRom.Proofs.Rom.Linking

/-!
# Images read only the words that they use

Linking looks up the words of the pack, one after another, and reads a vocabulary in no other way.
So vocabularies that know the same of these words give the same image or fail alike
(`image_of_usedAlike`): what else they hold, and the order in which it was added, is not seen.

## Strategy

`placeWords` is the one place where a vocabulary is read.  `placeWords_congr` follows its
recursion, and the later stages get the same layout.
-/

namespace SpeechRom.Rom

/-- Two vocabularies know the same data for every word of the pack. -/
def UsedAlike (pack : Pack) (first second : Vocabulary) : Prop :=
  ∀ word ∈ pack.words.values, first.get? word.text = second.get? word.text

variable {pack : Pack} {first second : Vocabulary}

theorem placeWords_congr {words : List Word}
    (hsame : ∀ word ∈ words, first.get? word.text = second.get? word.text) (offset : Nat) :
    placeWords first offset words = placeWords second offset words := by
  induction words generalizing offset with
  | nil => rfl
  | cons word rest ih =>
      have hword : first.get? word.text = second.get? word.text :=
        hsame word List.mem_cons_self
      have hrest : ∀ next, placeWords first next rest = placeWords second next rest :=
        ih fun other hother => hsame other (List.mem_cons_of_mem _ hother)
      unfold placeWords
      rw [hword]
      cases second.get? word.text with
      | none => rfl
      | some data => simp only [hrest]

theorem layout_ofPack_congr (hused : UsedAlike pack first second) :
    Layout.ofPack pack first = Layout.ofPack pack second := by
  have hwords : ∀ start, placeWords first start pack.words.values =
      placeWords second start pack.words.values := placeWords_congr hused
  have hall : placeAll pack first = placeAll pack second := by
    unfold placeAll
    simp only [hwords]
  unfold Layout.ofPack
  rw [hall]

/-- What was stored last for a word is what a vocabulary knows of it. -/
theorem usedAlike_ofList {recorded other : List (String × List UInt8)}
    (hlast : ∀ word ∈ pack.words.values,
      recorded.reverse.lookup word.text = other.reverse.lookup word.text) :
    UsedAlike pack (.ofList recorded) (.ofList other) := by
  intro word hword
  rw [OrderedMap.get?_ofList, OrderedMap.get?_ofList]
  exact hlast word hword

/-- **An image depends on the data of the words that its pack uses, and on nothing else in the
vocabulary.**  The pack may be any: handles and keys need not fit. -/
theorem image_of_usedAlike (hused : UsedAlike pack first second) (primary : String) :
    Image.ofPack pack first primary = Image.ofPack pack second primary := by
  unfold Image.ofPack
  cases pack.findBank? primary with
  | none => rfl
  | some start => simp only [layout_ofPack_congr hused]

/-- The second vocabulary was filled in another order, with a word more, and `hello` in one go. -/
theorem image_of_usedAlike_refilled :
    UsedAlike greetingPack (.ofList [("world", [7]), ("hello", [1]), ("hello", [8, 9])])
        (.ofList [("spare", [5]), ("hello", [8, 9]), ("world", [7])]) ∧
      Image.ofPack greetingPack (.ofList [("world", [7]), ("hello", [1]), ("hello", [8, 9])])
          "primary" =
        Image.ofPack greetingPack (.ofList [("spare", [5]), ("hello", [8, 9]), ("world", [7])])
          "primary" := by
  have hused : UsedAlike greetingPack (.ofList [("world", [7]), ("hello", [1]), ("hello", [8, 9])])
      (.ofList [("spare", [5]), ("hello", [8, 9]), ("world", [7])]) :=
    usedAlike_ofList (by decide)
  exact ⟨hused, image_of_usedAlike hused "primary"⟩

end SpeechRom.Rom
