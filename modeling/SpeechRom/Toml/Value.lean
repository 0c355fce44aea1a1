/-!
# TOML values and tables

A document is a table of keys and values.  Tables come into being in four ways,
and the way decides what may still be added: an inline table is complete, a
table made by a dotted key grows by dotted keys only, a table that a header
merely passes through may get its own header later, and a table with a header
has it once.
-/

namespace SpeechRom.Toml

/-- How a table came into being. -/
inductive TableKind where
  /-- Written as a value in braces. -/
  | inline
  /-- Made by a dotted key. -/
  | dotted
  /-- Passed through by a header. -/
  | implied
  /-- Named by a header, or the document itself. -/
  | named
  deriving DecidableEq, Repr

/-- A value.  Floats and date-times are kept as written. -/
inductive Value where
  | string (text : String)
  | integer (number : Int)
  | float (text : String)
  | boolean (flag : Bool)
  | dateTime (text : String)
  | array (items : List Value)
  | table (kind : TableKind) (entries : List (String × Value))
  /-- An array of tables made by double headers, oldest first. -/
  | tables (entries : List (List (String × Value)))
  deriving Inhabited

/-- The entries of a table, in order of first mention. -/
abbrev Table := List (String × Value)

namespace Table

/-- Replace the value of a key. -/
def replace (table : Table) (key : String) (value : Value) : Table :=
  table.map fun entry => if entry.1 = key then (key, value) else entry

/-- Add a key that is not there yet. -/
def add? (table : Table) (key : String) (value : Value) : Option Table :=
  match table.lookup key with
  | some _ => none
  | none => some (table ++ [(key, value)])

/-! ## Dotted keys -/

/-- Give a dotted key its value.  The tables on the way are made as needed; a table with a
header or in braces is closed to dotted keys, and the innermost must be made by one. -/
def assign? : List String → Value → Table → Option Table
  | [], _, _ => none
  | [key], value, table => table.add? key value
  | key :: inner :: rest, value, table =>
    match table.lookup key with
    | none => do
      let entries ← assign? (inner :: rest) value []
      return table ++ [(key, .table .dotted entries)]
    | some (.table kind entries) =>
      if kind = .dotted ∨ (kind = .implied ∧ rest ≠ []) then do
        let entries ← assign? (inner :: rest) value entries
        return table.replace key (.table kind entries)
      else none
    | some (.tables elements) =>
      if rest = [] then none
      else do
        let last ← elements.getLast?
        let last ← assign? (inner :: rest) value last
        return table.replace key (.tables (elements.dropLast ++ [last]))
    | some _ => none

/-! ## Headers -/

/-- Change the table that a header's path leads to; tables on the way are made as needed, and
an array of tables stands for its last element. -/
def within? : List String → (Table → Option Table) → Table → Option Table
  | [], change, table => change table
  | key :: rest, change, table =>
    match table.lookup key with
    | none => do
      let entries ← within? rest change []
      return table ++ [(key, .table .implied entries)]
    | some (.table kind entries) =>
      if kind = .inline then none
      else do
        let entries ← within? rest change entries
        return table.replace key (.table kind entries)
    | some (.tables elements) => do
      let last ← elements.getLast?
      let last ← within? rest change last
      return table.replace key (.tables (elements.dropLast ++ [last]))
    | some _ => none

/-- Open the table of a header, which must be new or only passed through so far. -/
def openTable? (path : List String) (document : Table) : Option Table := do
  let key ← path.getLast?
  document.within? path.dropLast fun parent =>
    match parent.lookup key with
    | none => some (parent ++ [(key, .table .named [])])
    | some (.table .implied entries) => some (parent.replace key (.table .named entries))
    | some _ => none

/-- Open another element of the array of tables of a double header. -/
def openElement? (path : List String) (document : Table) : Option Table := do
  let key ← path.getLast?
  document.within? path.dropLast fun parent =>
    match parent.lookup key with
    | none => some (parent ++ [(key, .tables [[]])])
    | some (.tables elements) => some (parent.replace key (.tables (elements ++ [[]])))
    | some _ => none

end Table

end SpeechRom.Toml
