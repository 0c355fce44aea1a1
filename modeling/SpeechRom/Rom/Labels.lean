import SpeechRom.Pack.Printer
import SpeechRom.Rom.AddressTable
import Std.Data.TreeMap

/-!
# Labels for addresses

The address table read backwards: what stands at each offset.  Entities that
share an offset share its label, in the order of the table.
-/

namespace SpeechRom.Rom

/-- Comments by offset, in ascending order. -/
abbrev Labels := Std.TreeMap Nat String

/-- Add a label at an offset, behind those that are there. -/
def Labels.add (labels : Labels) (offset : Nat) (label : String) : Labels :=
  match labels[offset]? with
  | some present => labels.insert offset (present ++ " / " ++ label)
  | none => labels.insert offset label

/-- The label of each phrase of a bank, by the phrase's number. -/
def bankPhraseLabels (pack : Pack) (bank : Bank) : List (PhraseId × String) :=
  bank.phrases.zipIdx.map fun (phrase, index) =>
    (phrase.id, s!"Phrase {index} of [{bank.name}]: {pack.phraseText phrase}")

/-- The labels of all phrases; of two phrases with one number the later counts. -/
def phraseLabels (pack : Pack) : OrderedMap PhraseId String :=
  OrderedMap.ofList (pack.banks.values.flatMap (bankPhraseLabels pack))

/-- The label of an entity. -/
def entityLabel (pack : Pack) (phrases : OrderedMap PhraseId String) : Entity → String
  | .header => "ROM Header, word bank start pointer and the primary bank pointer."
  | .bank id => "PhraseBank [" ++ ((pack.bank? id).map (·.name)).getD "" ++ "]"
  | .phrase id => (phrases.get? id).getD s!"Phrase #{id.index}"
  | .wordData => "Word bank"
  | .word id => "Word [" ++ ((pack.word? id).map (·.text)).getD "" ++ "]"

/-- The labels of all entities of a table. -/
def AddressTable.labels (table : AddressTable) (pack : Pack) : Labels :=
  let phrases := phraseLabels pack
  table.offsets.entries.foldl
    (fun labels (entity, offset) => labels.add offset (entityLabel pack phrases entity)) ∅

end SpeechRom.Rom
