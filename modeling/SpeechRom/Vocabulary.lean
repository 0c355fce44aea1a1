import SpeechRom.OrderedMap

/-!
# Vocabularies

The speech data at hand: for every recorded word the bytes that say it, in the
order in which the words were added.
-/

namespace SpeechRom

/-- Speech data by word. -/
abbrev Vocabulary := OrderedMap String (List UInt8)

end SpeechRom
