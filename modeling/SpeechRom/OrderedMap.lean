/-!
# Ordered maps

A map that keeps its keys in the order in which they first arrived.  Inserting
under a known key replaces the value and keeps the place, so a position, once
handed out, names the same key for good.  Phrase packs, speech data and address
tables are all of this shape: position is identity, and the key is for look-up.

The keys are distinct by construction (`OrderedMap.distinct`).
-/

namespace SpeechRom

/-- A finite map whose entries stand in order of first insertion. -/
structure OrderedMap (κ ν : Type) where
  /-- The entries, oldest key first. -/
  entries : List (κ × ν)
  /-- No key occurs twice. -/
  distinct : (entries.map Prod.fst).Nodup

namespace OrderedMap

variable {κ ν : Type}

/-- Two maps with the same entries are equal. -/
@[ext]
theorem ext_entries {first second : OrderedMap κ ν} (hentries : first.entries = second.entries) :
    first = second := by
  cases first
  cases second
  cases hentries
  rfl

instance [DecidableEq κ] [DecidableEq ν] : DecidableEq (OrderedMap κ ν) := fun first second =>
  decidable_of_iff (first.entries = second.entries) ⟨ext_entries, fun h => h ▸ rfl⟩

/-- The map without entries. -/
def empty : OrderedMap κ ν := ⟨[], List.nodup_nil⟩

instance : EmptyCollection (OrderedMap κ ν) := ⟨empty⟩
instance : Inhabited (OrderedMap κ ν) := ⟨empty⟩

/-- The keys, oldest first. -/
def keys (m : OrderedMap κ ν) : List κ := m.entries.map Prod.fst

/-- The values, in the order of their keys. -/
def values (m : OrderedMap κ ν) : List ν := m.entries.map Prod.snd

/-- The number of keys. -/
def size (m : OrderedMap κ ν) : Nat := m.entries.length

/-- The value at a position, counted from the oldest key. -/
def at? (m : OrderedMap κ ν) (position : Nat) : Option ν := m.entries[position]?.map Prod.snd

/-- Whether the map has no key. -/
def isEmpty (m : OrderedMap κ ν) : Bool := m.entries.isEmpty

/-! ## Changing a value where it stands -/

private theorem map_fst_modify (f : ν → ν) (entries : List (κ × ν)) (position : Nat) :
    (entries.modify position fun entry => (entry.1, f entry.2)).map Prod.fst =
      entries.map Prod.fst := by
  induction entries generalizing position with
  | nil => simp
  | cons entry rest ih =>
    cases position with
    | zero => simp
    | succ position => simp [ih]

/-- Replace the value at a position; keys and places stay as they are. -/
def modifyAt (m : OrderedMap κ ν) (position : Nat) (f : ν → ν) : OrderedMap κ ν :=
  ⟨m.entries.modify position fun entry => (entry.1, f entry.2),
    (map_fst_modify f m.entries position).symm ▸ m.distinct⟩

theorem keys_modifyAt (m : OrderedMap κ ν) (position : Nat) (f : ν → ν) :
    (m.modifyAt position f).keys = m.keys :=
  map_fst_modify f m.entries position

/-- At the changed position stands the changed value, elsewhere what stood there. -/
theorem at?_modifyAt (m : OrderedMap κ ν) (position other : Nat) (f : ν → ν) :
    (m.modifyAt position f).at? other =
      if other = position then (m.at? other).map f else m.at? other := by
  simp only [at?, modifyAt, List.getElem?_modify]
  by_cases h : position = other
  · subst h
    cases m.entries[position]? <;> simp
  · simp [h, Ne.symm h]

/-! ## Look-up by key -/

variable [DecidableEq κ]

/-- The value stored under a key. -/
def get? (m : OrderedMap κ ν) (key : κ) : Option ν := m.entries.lookup key

/-- Whether a key is present. -/
def contains (m : OrderedMap κ ν) (key : κ) : Bool := (m.get? key).isSome

/-! ## Insertion replaces in place or appends -/

/-- The entries after storing `value` under `key`. -/
def store (key : κ) (value : ν) : List (κ × ν) → List (κ × ν)
  | [] => [(key, value)]
  | entry :: rest =>
    if entry.1 = key then (key, value) :: rest else entry :: store key value rest

/-- Storing under a known key keeps the keys; a new key joins at the end. -/
theorem map_fst_store (key : κ) (value : ν) (entries : List (κ × ν)) :
    (store key value entries).map Prod.fst =
      if key ∈ entries.map Prod.fst then entries.map Prod.fst
      else entries.map Prod.fst ++ [key] := by
  induction entries with
  | nil => simp [store]
  | cons entry rest ih =>
    by_cases hkey : entry.1 = key
    · simp [store, hkey]
    · have hne : key ≠ entry.1 := fun h => hkey h.symm
      simp only [store, hkey, if_false, List.map_cons, ih, List.mem_cons, hne, false_or]
      split <;> simp

private theorem nodup_map_fst_store (key : κ) (value : ν) {entries : List (κ × ν)}
    (hdistinct : (entries.map Prod.fst).Nodup) :
    ((store key value entries).map Prod.fst).Nodup := by
  rw [map_fst_store]
  split
  · exact hdistinct
  · rename_i hnew
    refine List.nodup_append.mpr ⟨hdistinct, by simp, ?_⟩
    intro other hother last hlast
    rw [List.mem_singleton] at hlast
    exact fun h => hnew (hlast ▸ h ▸ hother)

/-- Store a value: a known key keeps its place, a new key goes last. -/
def insert (m : OrderedMap κ ν) (key : κ) (value : ν) : OrderedMap κ ν :=
  ⟨store key value m.entries, nodup_map_fst_store key value m.distinct⟩

/-- The map that results from storing the pairs one after another. -/
def ofList (pairs : List (κ × ν)) : OrderedMap κ ν :=
  pairs.foldl (fun m pair => m.insert pair.1 pair.2) empty

/-! ## What is stored is what is found -/

private theorem lookup_store (key other : κ) (value : ν) (entries : List (κ × ν)) :
    (store key value entries).lookup other =
      if other = key then some value else entries.lookup other := by
  induction entries with
  | nil =>
    by_cases hother : other = key
    · simp [store, hother]
    · simp [store, List.lookup_cons, hother, beq_eq_false_iff_ne.mpr hother]
  | cons entry rest ih =>
    obtain ⟨first, stored⟩ := entry
    by_cases hfirst : first = key
    · subst hfirst
      by_cases hother : other = first
      · simp [store, hother]
      · simp [store, List.lookup_cons, hother, beq_eq_false_iff_ne.mpr hother]
    · by_cases hother : other = first
      · subst hother
        simp [store, hfirst]
      · simp [store, List.lookup_cons, hfirst, ih, beq_eq_false_iff_ne.mpr hother]

/-- The key just stored holds the new value, every other key what it held. -/
theorem get?_insert (m : OrderedMap κ ν) (key other : κ) (value : ν) :
    (m.insert key value).get? other = if other = key then some value else m.get? other :=
  lookup_store key other value m.entries

/-- Keys after an insertion: unchanged if the key was known, else with the key last. -/
theorem keys_insert (m : OrderedMap κ ν) (key : κ) (value : ν) :
    (m.insert key value).keys = if key ∈ m.keys then m.keys else m.keys ++ [key] :=
  map_fst_store key value m.entries

end OrderedMap

end SpeechRom
