/-!
# Cutting text into pieces

`pieces` cuts a list at every separator and keeps the empty pieces, so `n`
separators always give `n + 1` pieces.  Lines are the pieces between line
feeds; fields are the non-empty pieces between blanks.
-/

namespace SpeechRom.Text

variable {α : Type}

/-- Put an element in front of the first piece. -/
def extendFirst (a : α) : List (List α) → List (List α)
  | [] => [[a]]
  | piece :: rest => (a :: piece) :: rest

/-- The stretches between separators, empty ones included. -/
def pieces (separates : α → Bool) (input : List α) : List (List α) :=
  input.foldr (fun a rest => if separates a then [] :: rest else extendFirst a rest) [[]]

/-- The lines of a text: what stands between line feeds. -/
def lines (text : List Char) : List (List Char) := pieces (· == '\n') text

/-- The characters that separate fields: tab, line feed, form feed, carriage return, space. -/
def isBlank (c : Char) : Bool :=
  c == ' ' || c == '\t' || c == '\n' || c == '\x0c' || c == '\r'

/-- The fields of a text: its maximal runs of characters that are not blank. -/
def fields (text : List Char) : List (List Char) :=
  (pieces isBlank text).filter fun piece => !piece.isEmpty

/-! ## The equations of `pieces` -/

@[simp]
theorem pieces_nil (separates : α → Bool) : pieces separates [] = [[]] := rfl

theorem pieces_cons (separates : α → Bool) (a : α) (rest : List α) :
    pieces separates (a :: rest) =
      if separates a then [] :: pieces separates rest
      else extendFirst a (pieces separates rest) := rfl

/-- There is always a first piece. -/
theorem pieces_ne_nil (separates : α → Bool) (input : List α) : pieces separates input ≠ [] := by
  cases input with
  | nil => simp
  | cons a rest =>
    rw [pieces_cons]
    split
    · simp
    · cases pieces separates rest <;> simp [extendFirst]

end SpeechRom.Text
