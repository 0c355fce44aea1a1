import SpeechRom.BuildError

/-!
# Address tables

The addresses of the entities of an image, in the order in which they were
first assigned.  Assigning again moves the entity and keeps its place.  An
offset that 16 bits cannot hold is refused, so an address read back is the
offset that was assigned.
-/

namespace SpeechRom.Rom

/-- The number of bytes that 16-bit addresses can tell apart. -/
def addressSpace : Nat := 65536

/-- The offsets of entities, in order of first assignment. -/
structure AddressTable where
  offsets : OrderedMap Entity Nat
  deriving DecidableEq, Inhabited

namespace AddressTable

/-- The table without entities. -/
def empty : AddressTable := ⟨∅⟩

/-- Give an entity an offset, which must be addressable. -/
def put (table : AddressTable) (entity : Entity) (offset : Nat) :
    Except BuildError AddressTable :=
  if offset < addressSpace then .ok ⟨table.offsets.insert entity offset⟩
  else .error (.imageTooLarge (offset + 1))

/-- The offset of an entity. -/
def offset? (table : AddressTable) (entity : Entity) : Option Nat := table.offsets.get? entity

/-- The offset of an entity that must have one. -/
def offset (table : AddressTable) (entity : Entity) : Except BuildError Nat :=
  match table.offset? entity with
  | some offset => .ok offset
  | none => .error (.noAddress entity)

/-- The address of an entity that must have one. -/
def address (table : AddressTable) (entity : Entity) : Except BuildError UInt16 :=
  UInt16.ofNat <$> table.offset entity

/-- The address that a token points at. -/
def targetAddress (table : AddressTable) (token : Token) : Except BuildError UInt16 :=
  table.address (.ofToken token)

/-! ## Reading back what was assigned -/

theorem offset?_put {table next : AddressTable} {entity : Entity} {offset : Nat}
    (hput : table.put entity offset = .ok next) (other : Entity) :
    next.offset? other = if other = entity then some offset else table.offset? other := by
  unfold put at hput
  split at hput
  · cases hput
    exact OrderedMap.get?_insert _ _ _ _
  · cases hput

end AddressTable

end SpeechRom.Rom
