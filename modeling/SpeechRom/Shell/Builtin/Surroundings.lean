import SpeechRom.Shell.Builtin.Basic
import SpeechRom.Shell.Glob

/-!
# Commands on what surrounds a process

The working directory, the bits that new files go without, and limits.
-/

namespace SpeechRom.Shell

open Files

/-! ## Working directory -/

/-- The path of the working directory. -/
def Session.workingPath (session : Session) : Bytes :=
  utf8 (absolutePath session.machine.files.workingDirectory)

/-- Go to a location, and note the path of it and of the one that is left. -/
def moveTo (place : Location) : Step Unit := do
  let before := (← get).workingPath
  modify fun session =>
    let files := { session.machine.files with workingDirectory := place }
    { session with machine := { session.machine with files } }
  let exporting := fun (value : Bytes) (_ : Option Binding) =>
    some (⟨some value, true, false⟩ : Binding)
  changeBinding "OLDPWD" (exporting before)
  changeBinding "PWD" (exporting (← get).workingPath)

/-- Whether a path is not looked for in other directories: it starts at the root, or at the
directory itself or the one above. -/
def isAnchored (path : Bytes) : Bool :=
  match (Text.pieces (· == 0x2f) path).head? with
  | some [] => path.head? = some 0x2f
  | some first => first = [0x2e] || first = [0x2e, 0x2e]
  | none => false

/-- The paths under which a directory is looked for, and whether its path is shown. -/
def directoryPaths (session : Session) (path : Bytes) : List (Bytes × Bool) :=
  if isAnchored path then [(path, false)]
  else
    let path := if path.isEmpty then [0x2e] else path
    let searched := match session.contentOf? "CDPATH" with
      | none => []
      | some text => (Text.pieces (· == 0x3a) text).map fun directory =>
        if directory.isEmpty then (path, false) else (directory ++ 0x2f :: path, true)
    searched ++ [(path, false)]

/-- Change the working directory. -/
def cdCommand : Builtin := fun arguments => do
  let (_, words) ← readOptions [('L', false), ('P', false)] arguments
  let session ← get
  let home := (session.contentOf? "HOME").getD []
  let (path, back) := match words.head? with
    | none => (home, false)
    | some [0x2d] => ((session.contentOf? "OLDPWD").getD [], true)
    | some path => (path, false)
  let files := session.machine.files
  match (directoryPaths session path).find? fun entry => isDirectory files (pathOf entry.1) with
  | none => fail (utf8 "can't cd to " ++ path)
  | some (found, shown) =>
    match files.locate (pathOf found) with
    | .error _ => fail (utf8 "can't cd to " ++ path)
    | .ok place =>
      moveTo place
      if back || shown then say ((← get).workingPath ++ [0x0a])
      return 0

/-- Write the working directory. -/
def pwdCommand : Builtin := fun arguments => do
  let _ ← readOptions [('L', false), ('P', false)] arguments
  say ((← get).workingPath ++ [0x0a])
  return 0

/-! ## Bits and limits -/

/-- The permissions that three bits leave. -/
def permissionLetters (mask : Nat) : String :=
  String.ofList ((if mask / 4 % 2 = 0 then ['r'] else []) ++
    (if mask / 2 % 2 = 0 then ['w'] else []) ++ (if mask % 2 = 0 then ['x'] else []))

/-- All bits. -/
def allBits : Nat := 0x1ff

/-- The lowest bit of each class of users that a letter stands for. -/
def classBits : Char → Nat
  | 'u' => 0x40
  | 'g' => 0x8
  | 'o' => 0x1
  | _ => 0x49

/-- The three bits that a letter stands for, where `allowed` are the bits that are left so far. -/
def permissionBits (allowed : Nat) : Char → Nat
  | 'r' => 4
  | 'w' => 2
  | 'x' => 1
  | 'u' => allowed / 64
  | 'g' => allowed / 8 % 8
  | 'o' => allowed % 8
  | 'X' => if allowed &&& 0x49 = 0 then 0 else 1
  | _ => 0

/-- The letters in front of the first sign, and each sign with the letters after it. -/
def signedLetters (letters : List Char) : List Char × List (Char × List Char) :=
  letters.foldr (fun c (front, signed) =>
    if "=+-".contains c then ([], (c, front) :: signed) else (c :: front, signed)) ([], [])

/-- The bits after a sign with the permissions that it adds, takes away or leaves alone. -/
def changedBits (sign : Char) (classes permissions bits : Nat) : Nat :=
  let chosen := permissions * classes
  match sign with
  | '+' => bits ||| chosen
  | '-' => bits &&& (allBits ^^^ chosen)
  | _ => (bits &&& (allBits ^^^ 7 * classes)) ||| chosen

/-- The bits after a clause, which has a sign unless it is the last one. -/
def clauseBits? (allowed bits : Nat) (last : Bool) (clause : List Char) : Option Nat :=
  let (users, signed) := signedLetters clause
  let readable := users.all "augo".toList.contains &&
    signed.all fun entry => entry.2.all "rwxugoXs".toList.contains
  if !readable || (signed.isEmpty && !last) then none
  else
    let classes :=
      if users.isEmpty then classBits 'a' else users.foldl (fun bits c => bits ||| classBits c) 0
    some (signed.foldl (fun bits (sign, letters) =>
      let permissions := letters.foldl (fun bits c => bits ||| permissionBits allowed c) 0
      changedBits sign classes permissions bits) bits)

/-- The bits that are left after clauses between commas. -/
def bitsOfClauses? (allowed : Nat) : (bits : Nat) → List (List Char) → Option Nat
  | bits, [] => some bits
  | bits, clause :: rest => do
    bitsOfClauses? allowed (← clauseBits? allowed bits rest.isEmpty clause) rest

/-- The bits that new files go without. -/
def umaskCommand : Builtin := fun arguments => do
  let (options, words) ← readOptions [('S', false)] arguments
  let mask := (← get).mask
  match words.head? with
  | none =>
    if options.isEmpty then
      say (bytesOf ((Nat.toDigits 8 mask).leftpad 4 '0') ++ [0x0a])
    else
      say (utf8 ("u=" ++ permissionLetters (mask / 64) ++ ",g=" ++
        permissionLetters (mask / 8 % 8) ++ ",o=" ++ permissionLetters (mask % 8) ++ "\n"))
    return 0
  | some text =>
    let letters := lettersOf text
    if letters.head?.any Char.isDigit then
      if !letters.all (isDigitOf 8) then fail (utf8 "Illegal number: " ++ text)
      modify fun session => { session with mask := digitsValue 8 letters % 512 }
    else
      let allowed := allBits ^^^ mask
      match bitsOfClauses? allowed allowed (Text.pieces (· == ',') letters) with
      | some bits => modify fun session => { session with mask := allBits ^^^ bits }
      | none => fail (utf8 "Illegal mode: " ++ text)
    return 0

/-- The limits of the process: there are none. -/
def ulimitCommand : Builtin := fun arguments => do
  let (_, words) ← readOptions ("HSatfdscmlpnvwr".toList.map (·, false)) arguments
  if words.isEmpty then say (utf8 "unlimited\n")
  return 0

end SpeechRom.Shell
