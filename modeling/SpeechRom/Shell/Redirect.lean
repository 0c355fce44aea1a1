import SpeechRom.Shell.Process
import SpeechRom.Shell.Utilities

/-!
# Redirections

The targets of all redirections of a command are expanded first; then they are
opened in their order, and the first that fails keeps the command from being
run.  After the command the streams lead to where they led before.
-/

namespace SpeechRom.Shell

open Files

/-- A redirection whose target is known. -/
inductive Target where
  | file (stream : Nat) (use : FileUse) (path : Bytes)
  | duplicate (stream : Nat) (source : Option Nat)
  | document (stream : Nat) (text : Word)

/-- The stream that a target changes. -/
def Target.stream : Target → Nat
  | .file stream _ _ | .duplicate stream _ | .document stream _ => stream

/-- The target of a redirection. -/
def targetOf (engine : Engine) : Redirection → Step Target
  | .file stream use path => do
    return .file stream use (← expandText engine.substitute engine.fuel .text path)
  | .duplicate stream target => do
    let text ← expandText engine.substitute engine.fuel .text target
    match lettersOf text with
    | ['-'] => return .duplicate stream none
    | [digit] =>
      if digit.isDigit then return .duplicate stream (some (digit.toNat - 48))
      else fail (utf8 "Syntax error: Bad fd number")
    | _ => fail (utf8 "Syntax error: Bad fd number")
  | .document stream number => do
    return .document stream ((← get).documents[number]?.getD [])

/-- Why a file cannot be opened or made. -/
def openFault (creates : Bool) (reason : SystemError) : String :=
  match creates, reason with
  | false, .notFound | false, .notADirectory => "No such file"
  | true, .notFound | true, .notADirectory => "Directory nonexistent"
  | _, reason => refusal reason

/-- Let a stream lead to the file at a path. -/
def openStream (stream : Nat) (use : FileUse) (path : Bytes) : Step Unit := do
  let session ← get
  let careful := use = .write false && session.has 'C'
  let existing := pathExists session.machine.files (pathOf path)
  let creates := use ≠ .read && !(careful && existing)
  let refused := fun (verb reason : String) =>
    (fail (utf8 (verb ++ " ") ++ path ++ utf8 (": " ++ reason)) : Step Unit)
  if careful && isFile session.machine.files (pathOf path) then
    refused "cannot create" "File exists"
  else
    let opening := match use with
      | .read => Machine.Opening.reading
      | .write _ => .writing
      | .append => .appending
      | .update => .updating
    match ← work (Machine.openPath (pathOf path) opening) with
    | .error reason =>
      refused (if creates then "cannot create" else "cannot open") (openFault creates reason)
    | .ok channel => modify (Session.withStream stream (some channel))

/-- Let a stream lead to its target.  Where streams are put aside to lead back later, a stream is
closed before it becomes the same as another one, so that it cannot be complained to. -/
def openTarget (engine : Engine) (putAside : Bool) : Target → Step Unit
  | .file stream use path => openStream stream use path
  | .duplicate stream none => modify (Session.withStream stream none)
  | .duplicate stream (some source) => do
    match (← get).machine.streams.lookup source with
    | some channel => modify (Session.withStream stream (some channel))
    | none =>
      if putAside then modify (Session.withStream stream none)
      fail (decimalText source ++ utf8 ": Bad file descriptor")
  | .document stream text => do
    let bytes ← expandText engine.substitute engine.fuel .document text
    let channel ← newChannel (.pipe bytes [] none)
    modify (Session.withStream stream (some channel))

/-- Let the streams of targets lead to where they led in an earlier session. -/
def restoreStreams (before : Session) (targets : List Target) : Step Unit :=
  targets.forM fun target =>
    modify (Session.withStream target.stream (before.machine.streams.lookup target.stream))

/-- Do something with targets opened; the answer is whether they could be opened.  Unless they are
kept, the streams lead back afterwards. -/
def withTargets (engine : Engine) (targets : List Target) (keep : Bool) (action : Step Unit) :
    Step Bool := do
  if targets.isEmpty then
    action
    return true
  let before ← get
  match ← (targets.forM (openTarget engine true)).caught with
  | .error .fault =>
    restoreStreams before targets
    return false
  | .error other =>
    restoreStreams before targets
    throw other
  | .ok () =>
    if keep then action
    else action.ensuring (restoreStreams before targets)
    return true

end SpeechRom.Shell
