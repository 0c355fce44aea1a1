import SpeechRom.Encoding.Program
import SpeechRom.Lpc.Packing

/-!
# Why a recording has no speech data
-/

namespace SpeechRom.Encoding

/-- Why encoding a recording failed. -/
inductive Fault where
  /-- The encoder succeeded without output. -/
  | noData
  /-- The encoder program could not be started. -/
  | notStarted (program : String) (reason : Files.SystemError)
  /-- The encoder program ended without success; its error output is trimmed. -/
  | unsuccessful (program : String) (status : ExitStatus) (errorOutput : String)
  /-- The frames of the recording cannot be written. -/
  | frames (fault : Lpc.FrameFault)
  /-- The analysis of the recording failed, in its own words. -/
  | analysis (message : String)
  deriving DecidableEq, Repr

/-- The wording of the reasons for which a program cannot be started. -/
private def startRefusal : Files.SystemError → String
  | .nulInPath => "nul byte found in provided data"
  | reason => reason.message

/-- The wording of a fault. -/
def Fault.message : Fault → String
  | .noData => "encoder produced no data"
  | .notStarted program reason => s!"could not run {program}: {startRefusal reason}"
  | .unsuccessful program status errorOutput =>
    s!"{program} exited with {status.describe}: {errorOutput}"
  | .frames fault => fault.message
  | .analysis message => message

end SpeechRom.Encoding
