/-!
# Identifiers

Words, phrase banks and recordings share one spelling rule: a non-empty run of
lower-case ASCII letters and underscores.
-/

namespace SpeechRom

/-- The characters of an identifier: `a` to `z` and the underscore. -/
def isNameLetter (c : Char) : Bool := ('a' ≤ c && c ≤ 'z') || c == '_'

/-- Whether a text is an identifier. -/
def isName (text : List Char) : Bool := !text.isEmpty && text.all isNameLetter

end SpeechRom
