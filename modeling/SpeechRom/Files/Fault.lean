/-!
# Why a file cannot be used

The system refuses a path for a reason, which messages give in its words and by
its number.  On top of that, a directory can be missing or no directory, and a
file that should hold text can hold something else.
-/

namespace SpeechRom.Files

/-- The reasons for which the system refuses a path. -/
inductive SystemError where
  | notFound
  | permissionDenied
  | notADirectory
  | isADirectory
  | nameTooLong
  /-- A stream is not open, or not for this use. -/
  | badStream
  /-- The arguments of a program take up too much room. -/
  | argumentsTooLong
  /-- There is nothing behind the name of a device. -/
  | noDevice
  | noSpace
  /-- Nobody reads what is written. -/
  | brokenPipe
  /-- There is no room in memory for what is read. -/
  | outOfMemory
  /-- The path holds the character NUL. -/
  | nulInPath
  /-- Any other reason, in the words of the system. -/
  | other (words : String)
  deriving DecidableEq, Repr

/-- The wording of a refusal. -/
def SystemError.message : SystemError → String
  | .notFound => "No such file or directory (os error 2)"
  | .permissionDenied => "Permission denied (os error 13)"
  | .notADirectory => "Not a directory (os error 20)"
  | .isADirectory => "Is a directory (os error 21)"
  | .nameTooLong => "File name too long (os error 36)"
  | .badStream => "Bad file descriptor (os error 9)"
  | .argumentsTooLong => "Argument list too long (os error 7)"
  | .noDevice => "No such device or address (os error 6)"
  | .noSpace => "No space left on device (os error 28)"
  | .brokenPipe => "Broken pipe (os error 32)"
  | .outOfMemory => "out of memory"
  | .nulInPath => "file name contained an unexpected NUL byte"
  | .other words => words

/-- Why a file or directory cannot be used. -/
inductive Fault where
  | missing (path : String)
  | notDirectory (path : String)
  | refused (path : String) (reason : SystemError)
  /-- The bytes of the file are not UTF-8. -/
  | notText (path : String)
  deriving DecidableEq, Repr

/-- The wording of a fault. -/
def Fault.message : Fault → String
  | .missing path => s!"IO error: Path \"{path}\" did not exist"
  | .notDirectory path => s!"IO error: Path \"{path}\" was not a directory"
  | .refused path reason => s!"IO error: {path}: {reason.message}"
  | .notText path => s!"IO error: {path}: stream did not contain valid UTF-8"

end SpeechRom.Files
