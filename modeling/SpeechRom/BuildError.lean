import SpeechRom.Encoding.Fault
import SpeechRom.Rom.Entity

/-!
# Why a build fails

Every cause for which a pack cannot be read, checked, spoken or linked, and the
one function that words them.
-/

namespace SpeechRom

/-- The causes of failure. -/
inductive BuildError where
  /-- A token is no word and no reference; line 0 stands for the bank's own name. -/
  | badToken (bank : String) (line : Nat) (token : String)
  /-- A reference names no bank. -/
  | noSuchBank (bank : String) (line : Nat) (reference : String)
  | emptyBank (bank : String)
  | missingPrimary (bank : String)
  | unknownBank (bank : String)
  /-- A word of the pack has no speech data. -/
  | notRecorded (word : String)
  /-- Banks that ask for one another in a ring. -/
  | ring (chain : List String)
  | tooManyPhrases (bank : String) (count : Nat)
  | tooManyTokens (bank : String) (phrase : Nat) (count : Nat)
  /-- The image outgrows what 16 bits can address. -/
  | imageTooLarge (size : Nat)
  /-- Planned and written positions differ. -/
  | positionMismatch (expected : Nat) (actual : Nat)
  /-- An entity has no address. -/
  | noAddress (entity : Rom.Entity)
  /-- A handle names no entry of the pack. -/
  | danglingHandle (entity : Rom.Entity)
  | encoding (file : String) (fault : Encoding.Fault)
  | files (fault : Files.Fault)
  deriving DecidableEq, Repr

/-- The wording of a failure. -/
def BuildError.message : BuildError → String
  | .badToken bank line token =>
    s!"Parse error in bank \"{bank}\" line {line}: token \"{token}\" did not parse"
  | .noSuchBank bank line reference =>
    s!"Parse error in bank \"{bank}\" line {line}: phrase bank \"{reference}\" did not exist"
  | .emptyBank bank =>
    s!"All phrase banks must be populated. Phrase bank \"{bank}\" was empty"
  | .missingPrimary bank => s!"No \"{bank}\" phrase bank found"
  | .unknownBank bank => s!"Unknown phrase bank \"{bank}\""
  | .notRecorded word => s!"Word \"{word}\" was not found in word bank"
  | .ring chain => "Phrase bank cycle detected: " ++ " -> ".intercalate chain
  | .tooManyPhrases bank count =>
    s!"Limit exceeded: phrase bank \"{bank}\" has {count} phrases, at most 255 are supported"
  | .tooManyTokens bank phrase count =>
    s!"Limit exceeded: phrase {phrase} of bank \"{bank}\" has {count} tokens, " ++
      "at most 255 are supported"
  | .imageTooLarge size =>
    s!"Limit exceeded: ROM needs {size} bytes, 16-bit pointers address at most 65536"
  | .positionMismatch expected actual =>
    s!"Layout mismatch: expected {expected} bytes but emitted {actual}"
  | .noAddress entity => s!"Could not find pointer for {entity.describe}"
  | .danglingHandle entity => s!"Nothing stands behind {entity.describe}"
  | .encoding file fault => s!"Encoding error for \"{file}\": {fault.message}"
  | .files fault => fault.message

end SpeechRom
