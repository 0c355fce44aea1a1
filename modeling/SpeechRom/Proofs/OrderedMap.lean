import Mathlib.Data.List.Basic
import Mathlib.Data.List.Induction
import SpeechRom.OrderedMap
import SpeechRom.Proofs.Lists

/-!
# Ordered maps by position

What the other developments need to know about ordered maps: looking up a key
finds its entry, a new key goes to the end, and changing a value changes no
other place.  A map is *filed* under a rule when every entry agrees with its
position and its key; packs are filed so, since handles are positions.
-/

namespace SpeechRom

namespace OrderedMap

variable {κ ν : Type}

/-! ## Positions -/

theorem at?_eq_getElem?_values (m : OrderedMap κ ν) (position : Nat) :
    m.at? position = m.values[position]? := by
  simp [at?, values]

theorem length_values (m : OrderedMap κ ν) : m.values.length = m.size := by
  simp [values, size]

theorem exists_at?_of_lt {m : OrderedMap κ ν} {position : Nat} (hlt : position < m.size) :
    ∃ value, m.at? position = some value := by
  rw [← length_values] at hlt
  exact ⟨m.values[position], by rw [at?_eq_getElem?_values, List.getElem?_eq_getElem hlt]⟩

theorem lt_size_of_at? {m : OrderedMap κ ν} {position : Nat} {value : ν}
    (hat : m.at? position = some value) : position < m.size := by
  rw [at?_eq_getElem?_values] at hat
  rw [← length_values]
  exact (List.getElem?_eq_some_iff.mp hat).1

theorem mem_values_of_at? {m : OrderedMap κ ν} {position : Nat} {value : ν}
    (hat : m.at? position = some value) : value ∈ m.values := by
  rw [at?_eq_getElem?_values] at hat
  exact List.mem_of_getElem? hat

theorem values_modifyAt (m : OrderedMap κ ν) (position : Nat) (f : ν → ν) :
    (m.modifyAt position f).values = m.values.modify position f := by
  simp only [values, modifyAt]
  induction m.entries generalizing position with
  | nil => simp
  | cons entry rest ih => cases position <;> simp [ih]

/-! ## Look-up -/

section LookUp

variable [DecidableEq κ]

private theorem lookup_eq_some_iff_mem {entries : List (κ × ν)}
    (hdistinct : (entries.map Prod.fst).Nodup) {key : κ} {value : ν} :
    entries.lookup key = some value ↔ (key, value) ∈ entries := by
  induction entries with
  | nil => simp
  | cons entry rest ih =>
      obtain ⟨first, stored⟩ := entry
      rw [List.map_cons, List.nodup_cons] at hdistinct
      by_cases hfirst : key = first
      · subst hfirst
        have hnot : (key, value) ∉ rest := fun hmem =>
          hdistinct.1 (List.mem_map.mpr ⟨(key, value), hmem, rfl⟩)
        simp [hnot, eq_comm]
      · rw [List.lookup_cons, beq_eq_false_iff_ne.mpr hfirst]
        simp [ih hdistinct.2, hfirst]

/-- Looking up a key finds the one entry with this key. -/
theorem get?_eq_some_iff {m : OrderedMap κ ν} {key : κ} {value : ν} :
    m.get? key = some value ↔ (key, value) ∈ m.entries :=
  lookup_eq_some_iff_mem m.distinct

theorem get?_eq_none_iff {m : OrderedMap κ ν} {key : κ} :
    m.get? key = none ↔ key ∉ m.keys := by
  rw [get?, List.lookup_eq_none_iff, keys, List.mem_map]
  constructor
  · rintro hall ⟨entry, hmem, rfl⟩
    simpa using hall entry hmem
  · intro hnot entry hmem
    simp only [bne_iff_ne, ne_eq]
    exact fun hkey => hnot ⟨entry, hmem, hkey.symm⟩

theorem contains_iff_mem_keys {m : OrderedMap κ ν} {key : κ} :
    m.contains key = true ↔ key ∈ m.keys := by
  rw [contains, Option.isSome_iff_ne_none, ne_eq, get?_eq_none_iff, not_not]

theorem mem_values_of_get? {m : OrderedMap κ ν} {key : κ} {value : ν}
    (hget : m.get? key = some value) : value ∈ m.values :=
  List.mem_map.mpr ⟨(key, value), get?_eq_some_iff.mp hget, rfl⟩

theorem mem_keys_of_get? {m : OrderedMap κ ν} {key : κ} {value : ν}
    (hget : m.get? key = some value) : key ∈ m.keys :=
  List.mem_map.mpr ⟨(key, value), get?_eq_some_iff.mp hget, rfl⟩

/-- Storing under a key adds this key, if it is not known, and no other. -/
theorem mem_keys_insert_iff {m : OrderedMap κ ν} {key other : κ} {value : ν} :
    other ∈ (m.insert key value).keys ↔ other ∈ m.keys ∨ other = key := by
  rw [keys_insert]
  split
  · rename_i hknown
    constructor
    · exact .inl
    · rintro (hmem | rfl)
      · exact hmem
      · exact hknown
  · rw [List.mem_append, List.mem_singleton]

private theorem store_eq_append {key : κ} {value : ν} {entries : List (κ × ν)}
    (hnew : key ∉ entries.map Prod.fst) : store key value entries = entries ++ [(key, value)] := by
  induction entries with
  | nil => rfl
  | cons entry rest ih =>
      rw [List.map_cons, List.mem_cons, not_or] at hnew
      rw [store, if_neg (Ne.symm hnew.1), ih hnew.2, List.cons_append]

/-- A new key goes to the end. -/
theorem entries_insert_of_not_mem {m : OrderedMap κ ν} {key : κ} (hnew : key ∉ m.keys)
    (value : ν) : (m.insert key value).entries = m.entries ++ [(key, value)] :=
  store_eq_append hnew

theorem values_insert_of_not_mem {m : OrderedMap κ ν} {key : κ} (hnew : key ∉ m.keys)
    (value : ν) : (m.insert key value).values = m.values ++ [value] := by
  simp [values, entries_insert_of_not_mem hnew]

/-- A new key takes the position behind all others, and no other position changes. -/
theorem at?_insert_of_not_mem {m : OrderedMap κ ν} {key : κ} (hnew : key ∉ m.keys) (value : ν)
    (position : Nat) :
    (m.insert key value).at? position =
      if position = m.size then some value else m.at? position := by
  rw [at?_eq_getElem?_values, at?_eq_getElem?_values, values_insert_of_not_mem hnew,
    ← length_values]
  split
  · rename_i hlast
    rw [hlast, List.getElem?_concat_length]
  · rename_i hother
    rcases Nat.lt_or_ge position m.values.length with hlt | hge
    · exact List.getElem?_append_left hlt
    · rw [List.getElem?_eq_none hge, List.getElem?_eq_none]
      rw [List.length_append, List.length_singleton]
      omega

private theorem entries_foldl_insert {pairs : List (κ × ν)} {m : OrderedMap κ ν}
    (hnodup : (pairs.map Prod.fst).Nodup) (hfresh : ∀ pair ∈ pairs, pair.1 ∉ m.keys) :
    (pairs.foldl (fun m pair => m.insert pair.1 pair.2) m).entries = m.entries ++ pairs := by
  induction pairs generalizing m with
  | nil => exact (List.append_nil _).symm
  | cons pair rest ih =>
      rw [List.map_cons, List.nodup_cons] at hnodup
      have hentries := entries_insert_of_not_mem (hfresh pair List.mem_cons_self) pair.2
      rw [List.foldl_cons, ih hnodup.2, hentries, List.append_assoc]
      · rfl
      · intro other hother hmem
        rcases mem_keys_insert_iff.mp hmem with hmem | heq
        · exact hfresh other (List.mem_cons_of_mem _ hother) hmem
        · exact hnodup.1 (heq ▸ List.mem_map_of_mem hother)

/-- Pairs with different keys are stored as they stand. -/
theorem entries_ofList {pairs : List (κ × ν)} (hnodup : (pairs.map Prod.fst).Nodup) :
    (ofList pairs).entries = pairs :=
  entries_foldl_insert hnodup fun _ _ => List.not_mem_nil

/-- A map whose keys are renamed without clashes is looked up under the renamed key. -/
theorem get?_of_entries_eq_map {κ' ν' : Type} [DecidableEq κ'] {m : OrderedMap κ ν}
    {renamed : OrderedMap κ' ν'} {f : κ → κ'} {g : ν → ν'}
    (hentries : renamed.entries = m.entries.map (Prod.map f g)) {key : κ}
    (hkey : ∀ other ∈ m.keys, f other = f key → other = key) :
    renamed.get? (f key) = (m.get? key).map g := by
  cases hget : m.get? key with
  | none =>
      rw [get?_eq_none_iff] at hget
      rw [Option.map_none, get?_eq_none_iff, keys, hentries, List.map_map]
      intro hmem
      obtain ⟨entry, hentry, heq⟩ := List.mem_map.mp hmem
      have hother : entry.1 ∈ m.keys := List.mem_map_of_mem hentry
      exact hget (hkey entry.1 hother heq ▸ hother)
  | some value =>
      rw [get?_eq_some_iff] at hget
      rw [Option.map_some, get?_eq_some_iff, hentries]
      exact List.mem_map_of_mem (f := Prod.map f g) hget

/-- A property of all values survives an insertion if the new value has it. -/
theorem forall_mem_values_insert {P : ν → Prop} {m : OrderedMap κ ν} {key : κ} {value : ν}
    (hall : ∀ stored ∈ m.values, P stored) (hvalue : P value) :
    ∀ stored ∈ (m.insert key value).values, P stored := by
  intro stored hstored
  obtain ⟨⟨other, found⟩, hmem, rfl⟩ := List.mem_map.mp hstored
  rw [← get?_eq_some_iff, get?_insert] at hmem
  split at hmem
  · cases hmem
    exact hvalue
  · exact hall _ (mem_values_of_get? hmem)

/-! ### Pairs stored one after another -/

/-- A key holds what was stored under it last. -/
theorem get?_foldl_insert (pairs : List (κ × ν)) (m : OrderedMap κ ν) (key : κ) :
    (pairs.foldl (fun m pair => m.insert pair.1 pair.2) m).get? key =
      (pairs.reverse.lookup key).or (m.get? key) := by
  induction pairs generalizing m with
  | nil => simp
  | cons pair rest ih =>
      obtain ⟨stored, value⟩ := pair
      rw [List.foldl_cons, ih, get?_insert, List.reverse_cons, List.lookup_append]
      by_cases hkey : key = stored
      · simp [hkey]
      · simp [hkey, List.lookup_cons, beq_eq_false_iff_ne.mpr hkey]

theorem get?_ofList (pairs : List (κ × ν)) (key : κ) :
    (ofList pairs).get? key = pairs.reverse.lookup key :=
  (get?_foldl_insert pairs empty key).trans (Option.or_none)

/-- The keys stand in the order in which they were stored first. -/
theorem keys_ofList (pairs : List (κ × ν)) :
    (ofList pairs).keys = (pairs.map Prod.fst).eraseDups := by
  induction pairs using List.reverseRecOn with
  | nil => rfl
  | append_singleton pairs pair ih =>
      have hlast : ofList (pairs ++ [pair]) = (ofList pairs).insert pair.1 pair.2 := by
        simp [ofList, List.foldl_append]
      rw [hlast, keys_insert, ih, List.map_append, List.map_singleton, eraseDups_concat]

end LookUp

/-! ## Maps filed by position and key -/

/-- Every entry agrees with its position and its key, in the way that `rule` says. -/
def Filed (rule : Nat → κ → ν → Prop) (m : OrderedMap κ ν) : Prop :=
  ∀ position key value, m.entries[position]? = some (key, value) → rule position key value

namespace Filed

variable {rule : Nat → κ → ν → Prop} {m : OrderedMap κ ν}

theorem empty : Filed rule (∅ : OrderedMap κ ν) := by
  intro position key value hentry
  simp [EmptyCollection.emptyCollection, OrderedMap.empty] at hentry

theorem modifyAt (hfiled : m.Filed rule) (position : Nat) {f : ν → ν}
    (hkeep : ∀ key value, rule position key value → rule position key (f value)) :
    (m.modifyAt position f).Filed rule := by
  intro other key value hentry
  simp only [OrderedMap.modifyAt, List.getElem?_modify] at hentry
  split at hentry
  · rename_i hother
    subst hother
    obtain ⟨⟨stored, before⟩, hbefore, heq⟩ := Option.map_eq_some_iff.mp hentry
    cases heq
    exact hkeep _ _ (hfiled _ _ _ hbefore)
  · exact hfiled other key value (by simpa using hentry)

theorem exists_key (hfiled : m.Filed rule) {position : Nat} {value : ν}
    (hat : m.at? position = some value) : ∃ key, rule position key value := by
  obtain ⟨⟨key, stored⟩, hentry, heq⟩ := Option.map_eq_some_iff.mp hat
  cases heq
  exact ⟨key, hfiled position key _ hentry⟩

theorem exists_position_of_mem (hfiled : m.Filed rule) {value : ν} (hmem : value ∈ m.values) :
    ∃ position key, rule position key value ∧ m.at? position = some value := by
  obtain ⟨position, hlt, rfl⟩ := List.mem_iff_getElem.mp hmem
  have hat : m.at? position = some m.values[position] := by
    rw [at?_eq_getElem?_values, List.getElem?_eq_getElem hlt]
  obtain ⟨key, hrule⟩ := hfiled.exists_key hat
  exact ⟨position, key, hrule, hat⟩

/-- What the rule fixes by position alone, the values spell out in order. -/
theorem map_values {β : Type} (hfiled : m.Filed rule) {f : ν → β} {g : Nat → β}
    (hfg : ∀ position key value, rule position key value → f value = g position) :
    m.values.map f = (List.range m.size).map g := by
  refine List.ext_getElem (by simp [length_values]) fun position hleft hright => ?_
  rw [List.length_map] at hleft
  have hat : m.at? position = some m.values[position] := by
    rw [at?_eq_getElem?_values, List.getElem?_eq_getElem hleft]
  obtain ⟨key, hrule⟩ := hfiled.exists_key hat
  simp [hfg _ _ _ hrule]

/-- What the rule fixes by key alone, the values spell out as the keys. -/
theorem map_values_eq_keys (hfiled : m.Filed rule) {f : ν → κ}
    (hf : ∀ position key value, rule position key value → f value = key) :
    m.values.map f = m.keys := by
  rw [values, keys, List.map_map]
  refine List.map_congr_left fun entry hentry => ?_
  obtain ⟨position, hposition⟩ := List.mem_iff_getElem?.mp hentry
  exact hf position entry.1 entry.2 (hfiled position entry.1 entry.2 hposition)

variable [DecidableEq κ]

/-- A new entry has to agree with the position behind all others. -/
theorem insert (hfiled : m.Filed rule) {key : κ} (hnew : key ∉ m.keys) {value : ν}
    (hvalue : rule m.size key value) : (m.insert key value).Filed rule := by
  intro position other stored hentry
  rw [entries_insert_of_not_mem hnew, List.getElem?_append] at hentry
  split at hentry
  · exact hfiled position other stored hentry
  · rename_i hlast
    obtain ⟨hzero, heq⟩ := List.getElem?_eq_some_iff.mp hentry
    simp only [List.length_cons, List.length_nil] at hzero
    have hposition : position = m.size := by
      unfold size
      omega
    subst hposition
    simp only [List.getElem_singleton] at heq
    cases heq
    exact hvalue

theorem exists_position_of_get? (hfiled : m.Filed rule) {key : κ} {value : ν}
    (hget : m.get? key = some value) :
    ∃ position, rule position key value ∧ m.at? position = some value := by
  obtain ⟨position, hlt, hentry⟩ := List.mem_iff_getElem.mp (get?_eq_some_iff.mp hget)
  have hentry? : m.entries[position]? = some (key, value) := by
    rw [List.getElem?_eq_getElem hlt, hentry]
  exact ⟨position, hfiled position key value hentry?, by simp [at?, hentry?]⟩

end Filed

end OrderedMap

end SpeechRom
