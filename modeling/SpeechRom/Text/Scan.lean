/-!
# Scanning text

A scan takes characters from the front of a text or fails.  `many` repeats a
scan for as long as it makes progress, so every repetition ends.
-/

namespace SpeechRom.Text

/-- A computation that takes characters from the front of a text, or fails. -/
abbrev Scan (α : Type) := StateT (List Char) Option α

namespace Scan

/-- A character of a class. -/
def one (belongs : Char → Bool) : Scan Char
  | c :: rest => if belongs c then some (c, rest) else none
  | [] => none

/-- The given characters. -/
def exactly (text : List Char) : Scan Unit := fun input =>
  if text.isPrefixOf input then some ((), input.drop text.length) else none

/-- The longest run of characters of a class, which may be empty. -/
def run (belongs : Char → Bool) : Scan (List Char) := fun input =>
  some (input.takeWhile belongs, input.dropWhile belongs)

/-- The longest run of characters of a class, which must not be empty. -/
def run1 (belongs : Char → Bool) : Scan (List Char) := do
  let first ← one belongs
  let rest ← run belongs
  return first :: rest

/-- A given number of characters of a class. -/
def count (n : Nat) (belongs : Char → Bool) : Scan (List Char) := fun input =>
  let taken := input.take n
  if taken.length = n ∧ taken.all belongs then some (taken, input.drop n) else none

/-- The end of the text. -/
def ended : Scan Unit := fun input => if input.isEmpty then some ((), []) else none

/-- The next character, which stays. -/
def ahead : Scan (Option Char) := fun input => some (input.head?, input)

/-- Repeat a scan from an input while it succeeds and takes something. -/
def manyFrom {α : Type} (scan : Scan α) (input : List Char) (found : Array α) :
    Array α × List Char :=
  match scan input with
  | none => (found, input)
  | some (item, rest) =>
    if rest.length < input.length then manyFrom scan rest (found.push item)
    else (found.push item, rest)
termination_by input.length

/-- Repeat a scan as often as it succeeds. -/
def many {α : Type} (scan : Scan α) : Scan (List α) := fun input =>
  let (found, rest) := manyFrom scan input #[]
  some (found.toList, rest)

/-- The text that a scan takes. -/
def taken {α : Type} (scan : Scan α) : Scan String := fun input =>
  match scan input with
  | some (_, rest) => some (String.ofList (input.take (input.length - rest.length)), rest)
  | none => none

/-! ## The equations of scans -/

/-- A scan that succeeds hands the rest of the text to the next one. -/
theorem bind_of_eq_some {α β : Type} {scan : Scan α} {next : α → Scan β} {input rest : List Char}
    {a : α} (hscan : scan input = some (a, rest)) : (scan >>= next) input = next a rest := by
  change (scan input).bind (fun taken => next taken.1 taken.2) = _
  rw [hscan]
  rfl

theorem many_eq_singleton {α : Type} {scan : Scan α} {input rest : List Char} {a : α}
    (hscan : scan input = some (a, rest)) (hshorter : rest.length < input.length)
    (hrest : scan rest = none) : many scan input = some ([a], rest) := by
  rw [many, manyFrom, hscan]
  dsimp only
  rw [if_pos hshorter, manyFrom, hrest]
  rfl

end Scan

end SpeechRom.Text
