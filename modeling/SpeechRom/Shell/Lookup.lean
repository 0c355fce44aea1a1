import SpeechRom.Shell.Redirect

/-!
# What command names mean

A name is a function, a command of the shell, or a program, which is looked for
in the directories of a path.
-/

namespace SpeechRom.Shell

open Files

/-- The commands of the shell that are no part of its language. -/
def regularCommands : List String :=
  ["[", "alias", "bg", "cd", "chdir", "command", "echo", "false", "fg", "getopts", "hash", "jobs",
   "kill", "printf", "pwd", "read", "test", "true", "type", "ulimit", "umask", "unalias", "wait"]

/-- What a command name means. -/
inductive Meaning where
  | function (body : Command)
  | builtin (special : Bool) (name : String)
  | program

/-- The meaning of a name; `direct` passes over functions. -/
def Session.meaningOf (session : Session) (direct : Bool) (word : Bytes) : Meaning :=
  let name := asciiText word
  match if direct then none else session.functions.lookup name with
  | some body => .function body
  | none =>
    if specialCommands.contains name then .builtin true name
    else if regularCommands.contains name then .builtin false name
    else .program

/-! ## Programs -/

/-- Whether a word is a path, and no name that is looked for. -/
def isPath (word : Bytes) : Bool := word.contains 0x2f

/-- The paths under which a name is looked for in the directories of a path. -/
def candidates (path word : Bytes) : List Bytes :=
  (Text.pieces (· == 0x3a) path).map fun directory =>
    if directory.isEmpty then word else directory ++ 0x2f :: word

/-- The program that a path leads to. -/
def programAt (files : FileTree) (path : Bytes) : Except SystemError String :=
  match files.look (pathOf path) with
  | .ok (.program name) => .ok name
  | .ok _ => .error .permissionDenied
  | .error reason => .error reason

/-- The program of a name with the path where it was found.  A path on which there is nothing is no
reason to complain as long as something else was found. -/
def searchProgram (files : FileTree) (path word : Bytes) : Except SystemError (String × Bytes) :=
  (candidates path word).foldl (fun found candidate =>
    match found with
    | .ok _ => found
    | .error _ =>
      match programAt files candidate with
      | .ok name => .ok (name, candidate)
      | .error .notFound | .error .notADirectory => found
      | .error reason => .error reason) (.error .notFound)

/-- The directories in which programs are looked for by default. -/
def standardPath : Bytes := utf8 "/usr/local/sbin:/usr/local/bin:/usr/sbin:/usr/bin:/sbin:/bin"

/-- The directories in which a session looks for programs. -/
def Session.searchPath (session : Session) : Bytes := (session.contentOf? "PATH").getD []

/-- The program that a word means, with its path. -/
def Session.findProgram (session : Session) (path word : Bytes) :
    Except SystemError (String × Bytes) :=
  let files := session.machine.files
  if isPath word then (programAt files word).map (·, word) else searchProgram files path word

/-- The longest argument or variable that a program is given, in bytes. -/
def maxArgumentSize : Nat := 131071

/-- The room for all arguments and variables of a program, in bytes. -/
def maxArgumentRoom : Nat := 2097152

/-- Refuse arguments and variables that are too long for a program, one by one or together.  Each
has an end mark and a pointer of eight bytes. -/
def checkArguments (words : List Bytes) (environment : List (String × Bytes)) :
    Except SystemError Unit :=
  let settings := environment.map fun (name, value) => utf8 (name ++ "=") ++ value
  let sizes := (words ++ settings).map List.length
  if sizes.any (maxArgumentSize < ·) || maxArgumentRoom < sizes.foldl (· + · + 9) 0 then
    .error .argumentsTooLong
  else .ok ()

/-- The program that words run, if they are not too long. -/
def Session.findRunnable (session : Session) (path : Bytes) (words : List Bytes) :
    Except SystemError String := do
  let (program, _) ← session.findProgram path (words.headD [])
  checkArguments words session.environment
  return program

/-- Why a program cannot be run. -/
def programFault : SystemError → String
  | .notFound | .notADirectory => "not found"
  | reason => refusal reason

/-- The status for a program that cannot be run. -/
def programFaultStatus : SystemError → Nat
  | .notFound | .notADirectory | .nameTooLong => 127
  | _ => 126

/-- Note that a program was found by its name. -/
def trackProgram (word : Bytes) : Step Unit :=
  modify fun session =>
    let name := asciiText word
    if isPath word || session.tracked.contains name then session
    else { session with tracked := session.tracked ++ [name] }

end SpeechRom.Shell
