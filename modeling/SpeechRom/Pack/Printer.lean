import SpeechRom.Pack.Basic

/-!
# The printed form of a pack

A summary line, then a section for every bank with one line for every phrase.
Words print as themselves and bank references in braces, which is how phrase
files spell them.
-/

namespace SpeechRom.Pack

/-- A token as a phrase file spells it; a handle without entry has no spelling. -/
def spell (pack : Pack) : Token → String
  | .word id => ((pack.word? id).map (·.text)).getD ""
  | .bank id => ((pack.bank? id).map fun bank => "\x7b" ++ bank.name ++ "\x7d").getD ""

/-- The tokens of a phrase, separated by single spaces. -/
def phraseText (pack : Pack) (phrase : Phrase) : String :=
  " ".intercalate (phrase.tokens.map pack.spell)

/-- The section of a bank: its name in brackets, then its phrases. -/
def bankSection (pack : Pack) (bank : Bank) : String :=
  "  [" ++ bank.name ++ "]\n" ++
    String.join (bank.phrases.map fun phrase => "    " ++ pack.phraseText phrase ++ "\n")

/-- The printed form of the pack. -/
def render (pack : Pack) : String :=
  "Phrase pack: " ++ toString pack.words.size ++ " words, " ++ toString pack.banks.size ++
    " banks, " ++ toString pack.phraseTotal ++ " phrases\n" ++
    String.join (pack.banks.values.map pack.bankSection)

end SpeechRom.Pack
