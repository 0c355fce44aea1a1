import SpeechRom.OrderedMap

/-!
# Phrase packs

A pack holds words and phrase banks.  A phrase is a row of tokens; a token says
a word or asks for a phrase of another bank, so the banks form a graph.  Tokens
refer to words and banks by handle: the position of the entry in its map.

Interning a word and declaring a bank hand out the next free position, and the
maps never reorder, so a handle names the same entry for as long as the pack
grows.
-/

namespace SpeechRom

/-- The handle of a word: its position among the pack's words. -/
structure WordId where
  /-- The position. -/
  index : Nat
  deriving DecidableEq, Repr, Inhabited

/-- The handle of a phrase bank: its position among the pack's banks. -/
structure BankId where
  /-- The position. -/
  index : Nat
  deriving DecidableEq, Repr, Inhabited

/-- The number of a phrase, counted through the whole pack in reading order. -/
structure PhraseId where
  /-- The number. -/
  index : Nat
  deriving DecidableEq, Repr, Inhabited

/-- One step of a phrase: say a word, or say a phrase of another bank. -/
inductive Token where
  | word (id : WordId)
  | bank (id : BankId)
  deriving DecidableEq, Repr, Inhabited

/-- A word of the pack. -/
structure Word where
  id : WordId
  text : String
  deriving DecidableEq, Repr, Inhabited

/-- A phrase: its number and what it says. -/
structure Phrase where
  id : PhraseId
  tokens : List Token
  deriving DecidableEq, Repr, Inhabited

/-- A named choice of phrases. -/
structure Bank where
  id : BankId
  name : String
  phrases : List Phrase
  deriving DecidableEq, Repr, Inhabited

/-- The banks a bank's phrases ask for, in reading order. -/
def Bank.references (bank : Bank) : List BankId :=
  bank.phrases.flatMap fun phrase => phrase.tokens.filterMap fun
    | .word _ => none
    | .bank id => some id

/-- The words and banks of a pack, each in order of discovery. -/
structure Pack where
  words : OrderedMap String Word
  banks : OrderedMap String Bank
  deriving DecidableEq, Inhabited

namespace Pack

/-- The pack without words and banks. -/
def empty : Pack := ⟨∅, ∅⟩

/-- The word a handle stands for. -/
def word? (pack : Pack) (id : WordId) : Option Word := pack.words.at? id.index

/-- The bank a handle stands for. -/
def bank? (pack : Pack) (id : BankId) : Option Bank := pack.banks.at? id.index

/-- The bank filed under a name. -/
def findBank? (pack : Pack) (name : String) : Option Bank := pack.banks.get? name

/-! ## Growing a pack -/

/-- The handle of a word, which joins the pack if it is new. -/
def enterWord (pack : Pack) (text : String) : WordId × Pack :=
  match pack.words.get? text with
  | some word => (word.id, pack)
  | none =>
    let id : WordId := ⟨pack.words.size⟩
    (id, { pack with words := pack.words.insert text ⟨id, text⟩ })

/-- The handle of a bank, which joins the pack without phrases if it is new. -/
def enterBank (pack : Pack) (name : String) : BankId × Pack :=
  match pack.banks.get? name with
  | some bank => (bank.id, pack)
  | none =>
    let id : BankId := ⟨pack.banks.size⟩
    (id, { pack with banks := pack.banks.insert name ⟨id, name, []⟩ })

/-- Put a phrase at the end of a bank; a handle without bank changes nothing. -/
def addPhrase (pack : Pack) (id : BankId) (phrase : Phrase) : Pack :=
  { pack with
    banks := pack.banks.modifyAt id.index fun bank =>
      { bank with phrases := bank.phrases ++ [phrase] } }

/-! ## Views -/

/-- The phrases of the pack with their banks, bank by bank. -/
def phrases (pack : Pack) : List (Bank × Phrase) :=
  pack.banks.values.flatMap fun bank => bank.phrases.map (bank, ·)

/-- The number of phrases in all banks. -/
def phraseTotal (pack : Pack) : Nat := pack.phrases.length

end Pack

end SpeechRom
