import SpeechRom.Pack.Basic

/-!
# What has an address

A speech image holds five kinds of things that a 16-bit address can name: the
header, the phrase banks, the phrases, the start of the speech data and the
words in it.
-/

namespace SpeechRom.Rom

/-- A thing that has an address in a speech image. -/
inductive Entity where
  | header
  | bank (id : BankId)
  | phrase (id : PhraseId)
  | wordData
  | word (id : WordId)
  deriving DecidableEq, Repr, Inhabited

namespace Entity

/-- How messages name an entity. -/
def describe : Entity → String
  | .header => "Header"
  | .bank id => s!"Bank(BankId({id.index}))"
  | .phrase id => s!"Phrase(PhraseId({id.index}))"
  | .wordData => "WordBankStart"
  | .word id => s!"Word(WordId({id.index}))"

/-- The entity a token points at. -/
def ofToken : Token → Entity
  | .word id => .word id
  | .bank id => .bank id

end Entity

end SpeechRom.Rom
