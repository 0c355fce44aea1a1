import SpeechRom.Attempt
import SpeechRom.BuildError
import SpeechRom.Files.Basic

/-!
# Encoders

An encoder turns the path of a recording into speech data.  It may keep a state
from one recording to the next, and what it has done to the state stays done
when it fails.
-/

namespace SpeechRom

/-- A way to encode recordings, with a state in `σ`. -/
structure Encoder (σ : Type) where
  /-- The speech data of the recording at a path. -/
  encode : String → Attempt BuildError σ (List UInt8)

namespace Encoder

/-- Fail for a recording. -/
def fail {σ α : Type} (file : String) (fault : Encoding.Fault) : Attempt BuildError σ α :=
  throw (.encoding file fault)

section Systems

variable {φ : Type}

/-- The encoder that takes the recording itself for speech data and adds an ending. -/
def verbatim [Files.FileSystem φ] (ending : List UInt8) : Encoder φ where
  encode path := do
    match Files.FileSystem.read (← get) path with
    | .ok content => return content ++ ending
    | .error reason => throw (.files (.refused path reason))

/-- The encoder that runs a program: its arguments are followed by the path, and what it writes
is the speech data. -/
def command (launch : Encoding.Launcher φ) (program : String) (arguments : List String) :
    Encoder φ where
  encode path := do
    match ← (launch program (arguments ++ [path])).caught with
    | .error reason => fail path (.notStarted program reason)
    | .ok completion =>
      if completion.status.isSuccess then return completion.output
      else
        fail path
          (.unsuccessful program completion.status (Text.trimmedText completion.errorOutput))

end Systems

/-- The encoder that analyses a recording into frames and packs them. -/
def framed {σ : Type} (analyse : String → Attempt String σ (List Lpc.Frame)) : Encoder σ where
  encode path := do
    match ← (analyse path).run with
    | .error message => fail path (.analysis message)
    | .ok frames =>
      match Lpc.encodeFrames frames with
      | .error fault => fail path (.frames fault)
      | .ok data => return data

end Encoder

end SpeechRom
