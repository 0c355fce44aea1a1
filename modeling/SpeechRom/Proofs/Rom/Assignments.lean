import SpeechRom.Proofs.Rom.Stack

/-!
# Address tables over a run

An address table is filled by single assignments and by two passes that assign many addresses in a
row, the one over the banks and phrases of a pack and the one over its words.  All of them can fail,
the passes halfway, and what was assigned before a failure stays.

`addresses_of_calls` says what a table holds after any number of such calls: for every entity the
offset of its last assignment that succeeded, in the order of the first ones, and no offset that 16
bits cannot hold, so an address that is read back is the offset that was assigned.

## Strategy

A call is settled part by part (`Settled`), and a part either is entered with `AddressTable.put` or
ends the call.  A table that holds a history of assignments (`AddressTable.Holds`) holds a longer
one after each part that was entered; the run lemmas add this up, first over the parts of a call and
then over the calls.
-/

namespace SpeechRom.Rom

/-! ## Histories -/

/-- A table that results from some assignments, one after another. -/
structure AddressTable.Holds (table : AddressTable) (history : List (Entity × Nat)) : Prop where
  offsets_eq : table.offsets = OrderedMap.ofList history
  addressable : ∀ assignment ∈ history, assignment.2 < addressSpace

namespace AddressTable.Holds

variable {table next : AddressTable} {history : List (Entity × Nat)} {entity : Entity}
  {offset : Nat}

theorem empty : AddressTable.empty.Holds [] := ⟨rfl, by simp⟩

theorem put (hholds : table.Holds history) (hput : table.put entity offset = .ok next) :
    next.Holds (history ++ [(entity, offset)]) := by
  unfold AddressTable.put at hput
  split at hput
  · rename_i hoffset
    cases hput
    constructor
    · rw [hholds.offsets_eq]
      simp [OrderedMap.ofList, List.foldl_append]
    · intro assignment hmem
      rcases List.mem_append.mp hmem with hmem | hmem
      · exact hholds.addressable assignment hmem
      · rw [List.mem_singleton] at hmem
        subst hmem
        exact hoffset
  · cases hput

theorem keys_eq (hholds : table.Holds history) :
    table.offsets.keys = (history.map Prod.fst).eraseDups := by
  rw [hholds.offsets_eq, OrderedMap.keys_ofList]

/-- An entity is where its last assignment put it. -/
theorem offset?_eq_some_iff (hholds : table.Holds history) :
    table.offset? entity = some offset ↔
      ∃ earlier later, history = earlier ++ (entity, offset) :: later ∧
        ∀ other ∈ later, other.1 ≠ entity := by
  rw [AddressTable.offset?, hholds.offsets_eq, OrderedMap.get?_ofList, List.lookup_eq_some_iff]
  constructor
  · rintro ⟨later, earlier, heq, hlater⟩
    refine ⟨earlier.reverse, later.reverse, ?_, fun other hmem => ?_⟩
    · simpa using congrArg List.reverse heq
    · have hne := hlater other (List.mem_reverse.mp hmem)
      exact fun heq => bne_iff_ne.mp hne heq.symm
  · rintro ⟨earlier, later, rfl, hlater⟩
    refine ⟨later.reverse, earlier.reverse, by simp, fun other hmem => ?_⟩
    exact bne_iff_ne.mpr (hlater other (List.mem_reverse.mp hmem)).symm

theorem lt_addressSpace (hholds : table.Holds history)
    (hoffset : table.offset? entity = some offset) : offset < addressSpace := by
  obtain ⟨earlier, later, rfl, _⟩ := hholds.offset?_eq_some_iff.mp hoffset
  exact hholds.addressable (entity, offset) (by simp)

/-- Reading an address cuts nothing off. -/
theorem exists_address (hholds : table.Holds history)
    (hoffset : table.offset? entity = some offset) :
    ∃ address, table.address entity = .ok address ∧ address.toNat = offset := by
  have hlt : offset < 65536 := hholds.lt_addressSpace hoffset
  refine ⟨UInt16.ofNat offset, ?_, ?_⟩
  · simp only [AddressTable.address, AddressTable.offset, hoffset]
    rfl
  · rw [UInt16.toNat_ofNat']
    omega

theorem address_of_not_mem (hholds : table.Holds history) (hnot : entity ∉ history.map Prod.fst) :
    table.address entity = .error (.noAddress entity) := by
  have hnone : table.offset? entity = none := by
    rw [AddressTable.offset?, OrderedMap.get?_eq_none_iff, hholds.keys_eq, List.mem_eraseDups]
    exact hnot
  simp only [AddressTable.address, AddressTable.offset, hnone]
  rfl

end AddressTable.Holds

/-! ## Calls -/

/-- A call that gives out addresses. -/
inductive Call where
  | one (entity : Entity) (offset : Nat)
  | banks (pack : Pack) (offset : Nat)
  | words (pack : Pack) (vocabulary : Vocabulary) (offset : Nat)

namespace Call

/-- What the call does to a table; what else it answers is dropped. -/
def perform : Call → Placing Unit
  | .one entity offset => place entity offset
  | .banks pack offset => do
    let _ ← placeBanks offset pack.banks.values
  | .words pack vocabulary offset => do
    let _ ← placeWords vocabulary offset pack.words.values

/-- What the call is about to give an address, with the offsets. -/
def parts : Call → List (Part × Nat)
  | .one entity offset => [(⟨entity, 0, none⟩, offset)]
  | .banks pack offset => stack offset (regionParts pack)
  | .words pack vocabulary offset => stack offset (pack.words.values.map (wordPart vocabulary))

theorem perform_eq (call : Call) : call.perform = settle call.parts := by
  cases call with
  | one entity offset => simp [perform, parts, settle, Part.settle]
  | banks pack offset => simp [perform, parts, placeBanks_eq, regionParts]
  | words pack vocabulary offset => simp [perform, parts, placeWords_eq]

end Call

/-- The assignments that are made before a part is refused. -/
def assigned (placed : List (Part × Nat)) : List (Entity × Nat) :=
  (placed.takeWhile fun entry => (refusal entry).isNone).map fun entry => (entry.1.entity, entry.2)

/-- Parts are given their offsets one after another: the table, the parts, how it ends, the
assignments that were made and the table that is left. -/
inductive Settled : AddressTable → List (Part × Nat) → Except BuildError Unit →
    List (Entity × Nat) → AddressTable → Prop
  | done {table : AddressTable} : Settled table [] (.ok ()) [] table
  | objected {table : AddressTable} {part : Part} {offset : Nat} {rest : List (Part × Nat)}
      {failure : BuildError} (hobjection : part.objection = some failure) :
      Settled table ((part, offset) :: rest) (.error failure) [] table
  | unaddressable {table : AddressTable} {part : Part} {offset : Nat} {rest : List (Part × Nat)}
      {failure : BuildError} (hobjection : part.objection = none)
      (hput : table.put part.entity offset = .error failure) :
      Settled table ((part, offset) :: rest) (.error failure) [] table
  | entered {table next after : AddressTable} {part : Part} {offset : Nat}
      {rest : List (Part × Nat)} {result : Except BuildError Unit} {made : List (Entity × Nat)}
      (hobjection : part.objection = none) (hput : table.put part.entity offset = .ok next)
      (hrest : Settled next rest result made after) :
      Settled table ((part, offset) :: rest) result ((part.entity, offset) :: made) after

/-- Settling enters the parts before the first one that is refused. -/
theorem settled_settle (placed : List (Part × Nat)) (table : AddressTable) :
    Settled table placed ((settle placed).runFrom table).1 (assigned placed)
      ((settle placed).runFrom table).2 := by
  induction placed generalizing table with
  | nil => exact .done
  | cons entry rest ih =>
      obtain ⟨part, offset⟩ := entry
      rw [settle, Attempt.runFrom_bind, runFrom_settle_one]
      -- what a part is stands against it before the offset does
      cases hobjection : part.objection with
      | some failure =>
          have hrefusal : refusal (part, offset) = some failure := by
            simp [refusal, hobjection]
          simp only [hrefusal, assigned, List.takeWhile_cons, Option.isNone_some]
          exact .objected hobjection
      | none =>
          by_cases hoffset : offset < addressSpace
          · have hrefusal : refusal (part, offset) = none :=
              refusal_eq_none_iff.mpr ⟨hobjection, hoffset⟩
            have hput : table.put part.entity offset = .ok (table.enter (part, offset)) :=
              if_pos hoffset
            simp only [hrefusal, assigned, List.takeWhile_cons, Option.isNone_none, if_true,
              List.map_cons]
            exact .entered hobjection hput (ih _)
          · have hrefusal : refusal (part, offset) = some (.imageTooLarge (offset + 1)) := by
              simp [refusal, hobjection, hoffset]
            have hput : table.put part.entity offset = .error (.imageTooLarge (offset + 1)) :=
              if_neg hoffset
            simp only [hrefusal, assigned, List.takeWhile_cons, Option.isNone_some]
            exact .unaddressable hobjection hput

theorem Settled.holds {table after : AddressTable} {placed : List (Part × Nat)}
    {result : Except BuildError Unit} {made history : List (Entity × Nat)}
    (hsettled : Settled table placed result made after) (hholds : table.Holds history) :
    after.Holds (history ++ made) := by
  induction hsettled generalizing history with
  | done => simpa using hholds
  | objected _ => simpa using hholds
  | unaddressable _ _ => simpa using hholds
  | entered _ hput _ ih => simpa using ih (hholds.put hput)

/-! ## Runs -/

/-- The assignments that a call makes. -/
def Call.assigned (call : Call) : List (Entity × Nat) := Rom.assigned call.parts

theorem Call.settled (call : Call) (table : AddressTable) :
    Settled table call.parts (call.perform.runFrom table).1 call.assigned
      (call.perform.runFrom table).2 := by
  rw [Call.perform_eq]
  exact settled_settle call.parts table

/-- The table after some calls, whether they failed or not. -/
def tableAfter (calls : List Call) : AddressTable :=
  calls.foldl (fun table call => (call.perform.runFrom table).2) AddressTable.empty

theorem holds_tableAfter (calls : List Call) :
    (tableAfter calls).Holds (calls.flatMap Call.assigned) := by
  induction calls using List.reverseRecOn with
  | nil => exact .empty
  | append_singleton calls call ih =>
      have hlast : tableAfter (calls ++ [call]) =
          (call.perform.runFrom (tableAfter calls)).2 := by
        simp [tableAfter, List.foldl_append]
      rw [hlast, List.flatMap_append, List.flatMap_singleton]
      exact (call.settled (tableAfter calls)).holds ih

/-- What can be read from a table that was filled by some assignments. -/
structure AddressTable.Reflects (table : AddressTable) (history : List (Entity × Nat)) : Prop where
  /-- There is one entry for each entity, in the order of their first assignments. -/
  keys : table.offsets.keys = (history.map Prod.fst).eraseDups
  once : table.offsets.keys.Nodup
  /-- It holds the offset of the last assignment. -/
  last : ∀ entity offset, table.offset? entity = some offset ↔
    ∃ earlier later, history = earlier ++ (entity, offset) :: later ∧
      ∀ other ∈ later, other.1 ≠ entity
  addressable : ∀ entity offset, table.offset? entity = some offset → offset < 65536
  address : ∀ entity offset, table.offset? entity = some offset →
    ∃ address, table.address entity = .ok address ∧ address.toNat = offset
  targetAddress : ∀ token offset, table.offset? (.ofToken token) = some offset →
    ∃ address, table.targetAddress token = .ok address ∧ address.toNat = offset
  noAddress : ∀ entity, entity ∉ history.map Prod.fst →
    table.address entity = .error (.noAddress entity)

theorem AddressTable.Holds.reflects {table : AddressTable} {history : List (Entity × Nat)}
    (hholds : table.Holds history) : table.Reflects history where
  keys := hholds.keys_eq
  once := table.offsets.distinct
  last _ _ := hholds.offset?_eq_some_iff
  addressable _ _ := hholds.lt_addressSpace
  address _ _ := hholds.exists_address
  targetAddress _ _ := hholds.exists_address
  noAddress _ := hholds.address_of_not_mem

/-- **A table holds what the calls have assigned.**  Whatever is called on it, one assignment or a
pass, and whether it fails or not, the table reflects all assignments that were made; a call makes
those before the first part that is refused, and a single assignment that is refused makes none. -/
theorem addresses_of_calls (calls : List Call) :
    (tableAfter calls).Reflects (calls.flatMap Call.assigned) ∧
    (∀ call : Call, Settled (tableAfter calls) call.parts
      (call.perform.runFrom (tableAfter calls)).1 call.assigned
      (call.perform.runFrom (tableAfter calls)).2) ∧
    ∀ entity offset failure after,
      (place entity offset).runFrom (tableAfter calls) = (.error failure, after) →
        after = tableAfter calls := by
  refine ⟨(holds_tableAfter calls).reflects, fun call => call.settled _, ?_⟩
  intro entity offset failure after hplace
  rw [runFrom_place] at hplace
  split at hplace
  · cases hplace
  · cases hplace
    rfl

end SpeechRom.Rom
