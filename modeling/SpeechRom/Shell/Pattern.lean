import SpeechRom.Shell.Numeral

/-!
# Patterns

What texts and file names are matched with: `*` stands for any text, `?` for
any byte, brackets for a byte of a set.  A byte that was quoted stands for
itself, and so does one after a backslash.
-/

namespace SpeechRom.Shell

/-- A byte, and whether quotes protect it. -/
abbrev MarkedByte := UInt8 × Bool

/-- A member of a set of bytes. -/
inductive SetMember where
  /-- The bytes between two bounds, all taken as signed numbers. -/
  | range (low high : UInt8)
  | ofClass (name : String)
  deriving DecidableEq, Repr

/-- An item of a pattern. -/
inductive PatternItem where
  | anyText
  | anyByte
  | oneOf (complement : Bool) (members : List SetMember)
  | exactly (byte : UInt8)
  deriving DecidableEq, Repr

namespace Pattern

/-! ## Sets of bytes -/

/-- Whether a letter has a visible form. -/
def isGraphic (c : Char) : Bool := '!' ≤ c && c ≤ '~'

/-- The classes of letters by name. -/
def classes : List (String × (Char → Bool)) :=
  [("alnum", Char.isAlphanum), ("alpha", Char.isAlpha), ("blank", fun c => c == ' ' || c == '\t'),
   ("cntrl", fun c => c < ' ' || c == '\x7f'), ("digit", Char.isDigit), ("graph", isGraphic),
   ("lower", Char.isLower), ("print", fun c => isGraphic c || c == ' '),
   ("punct", fun c => isGraphic c && !c.isAlphanum), ("space", isSpaceLetter),
   ("upper", Char.isUpper), ("xdigit", isDigitOf 16)]

/-- The place of a byte among the signed numbers. -/
def signedRank (byte : UInt8) : Nat := (byte.toNat + 128) % 256

/-- Whether a byte is meant by a member of a set. -/
def SetMember.admits (byte : UInt8) : SetMember → Bool
  | .range low high => signedRank low ≤ signedRank byte && signedRank byte ≤ signedRank high
  | .ofClass name => ((classes.lookup name).getD fun _ => false) (Char.ofNat byte.toNat)

/-- Whether a byte is of a set. -/
def inSet (complement : Bool) (members : List SetMember) (byte : UInt8) : Bool :=
  members.any (SetMember.admits byte) != complement

/-- The name of the class that a text in brackets and colons opens with, and what follows. -/
def className? (text : List MarkedByte) : Option (String × List MarkedByte) :=
  classes.findSome? fun (name, _) =>
    let spelled := (utf8 (":" ++ name ++ ":]")).map (·, false)
    if spelled.isPrefixOf text then some (name, text.drop spelled.length) else none

/-- The members of a set up to its closing bracket, and what follows that. -/
def members (fuel : Nat) (found : List SetMember) (text : List MarkedByte) :
    Option (List SetMember × List MarkedByte) :=
  match fuel, text with
  | 0, _ => none
  | _, [] => none
  | fuel + 1, (low, marked) :: rest =>
    if low = 0x5d && !marked && !found.isEmpty then some (found, rest)
    else
      let byClass := if low = 0x5b && !marked then className? rest else none
      match byClass, rest with
      | some (name, rest), _ => members fuel (found ++ [.ofClass name]) rest
      | none, (0x2d, false) :: (high, highMarked) :: after =>
        if high = 0x5d && !highMarked then members fuel (found ++ [.range low low]) rest
        else members fuel (found ++ [.range low high]) after
      | none, _ => members fuel (found ++ [.range low low]) rest

/-! ## Reading patterns -/

/-- A backslash that no quotes protect protects the byte after it. -/
def settled : List MarkedByte → List MarkedByte
  | (0x5c, false) :: (byte, _) :: rest => (byte, true) :: settled rest
  | (0x5c, false) :: [] => [(0x5c, true)]
  | marked :: rest => marked :: settled rest
  | [] => []

/-- The items of a pattern. -/
def items : (fuel : Nat) → List MarkedByte → List PatternItem
  | 0, _ => []
  | _, [] => []
  | fuel + 1, (0x2a, false) :: rest => .anyText :: items fuel rest
  | fuel + 1, (0x3f, false) :: rest => .anyByte :: items fuel rest
  | fuel + 1, (0x5b, false) :: rest =>
    let (complement, inside) := match rest with
      | (0x21, false) :: inside => (true, inside)
      | inside => (false, inside)
    match members (inside.length + 1) [] inside with
    | some (members, rest) => .oneOf complement members :: items fuel rest
    | none => .exactly 0x5b :: items fuel rest
  | fuel + 1, (byte, _) :: rest => .exactly byte :: items fuel rest

/-- The pattern that marked bytes spell. -/
def ofMarked (text : List MarkedByte) : List PatternItem :=
  let text := settled text
  items text.length text

/-- Whether an item stands for itself alone. -/
def isLiteral : PatternItem → Bool
  | .exactly _ => true
  | _ => false

/-! ## Matching -/

/-- Whether a pattern matches a whole text. -/
def accepts : List PatternItem → Bytes → Bool
  | [], text => text.isEmpty
  | .anyText :: rest, text =>
    accepts rest text || match text with
      | [] => false
      | _ :: shorter => accepts (.anyText :: rest) shorter
  | .anyByte :: rest, _ :: text => accepts rest text
  | .oneOf complement members :: rest, byte :: text =>
    inSet complement members byte && accepts rest text
  | .exactly expected :: rest, byte :: text => expected == byte && accepts rest text
  | _ :: _, [] => false
termination_by items text => items.length + text.length

/-- Remove what a pattern matches at one end of a text: the longest match or the shortest. -/
def remove {α : Type} (matched : List α → Bool) (front longest : Bool) (text : List α) : List α :=
  let sizes := List.range (text.length + 1)
  let sizes := if longest then sizes.reverse else sizes
  let split := fun size => if front then text.splitAt size
    else ((text.splitAt (text.length - size)).2, (text.splitAt (text.length - size)).1)
  match sizes.find? fun size => matched (split size).1 with
  | some size => (split size).2
  | none => text

end Pattern

end SpeechRom.Shell
