import SpeechRom.Proofs.Pack.Rings

/-!
# What the check of a pack answers

A pack is refused for the bank to start from, for its first empty bank, or for a ring among
its references; the rings are looked for among all banks, not only those that can be reached
from the start.  `Verdict` says which answer a pack is to get by the references alone, and
`verdict_check` that the check gives it.

## Strategy

If there is a ring, no list of banks is ordered that holds all of them, since the banks
behind a bank of such a list are all that can be reached from it (`Ordered.mem_of_reaches`).
So the search fails, and what it reports is a round (`round_of_exploreAll`).  If there is none,
a failure would report one.

A report names banks, and a bank is known by its handle.  No bank is met twice on the way
round; that no name is met twice either takes banks of different names, as all packs have that
are read from sources, but not those where banks are filed under other keys (`twins`).
-/

namespace SpeechRom.Pack

variable {pack : Pack}

/-! ## Names along a round -/

theorem bankName_eq {id : BankId} {bank : Bank} (hbank : pack.bank? id = some bank) :
    pack.bankName id = bank.name := by
  rw [bankName, hbank]
  rfl

theorem eq_of_bankName_eq (hnames : (pack.banks.values.map (·.name)).Nodup) {id other : BankId}
    {bank second : Bank} (hbank : pack.bank? id = some bank)
    (hsecond : pack.bank? other = some second) (hname : pack.bankName id = pack.bankName other) :
    id = other := by
  rw [bankName_eq hbank, bankName_eq hsecond] at hname
  rw [bank?, OrderedMap.at?_eq_getElem?_values] at hbank hsecond
  have hfirst : (pack.banks.values.map (·.name))[id.index]? = some bank.name := by
    rw [List.getElem?_map, hbank]
    rfl
  have hother : (pack.banks.values.map (·.name))[other.index]? = some bank.name := by
    rw [List.getElem?_map, hsecond, hname]
    rfl
  have hlt := (List.getElem?_eq_some_iff.mp hfirst).1
  have hindex := (List.getElem?_inj hlt hnames).mp (hfirst.trans hother.symm)
  cases id
  cases other
  exact congrArg _ hindex

/-- Every bank on the way round asks for the next one, so it is there. -/
theorem IsRound.present {place : BankId} {between : List BankId}
    (hround : pack.IsRound place between) {id : BankId} (hmem : id ∈ place :: between) :
    ∃ bank, pack.bank? id = some bank := by
  obtain ⟨before, after, hsplit⟩ := List.append_of_mem hmem
  have hasks := hround.asks
  rw [← List.cons_append, hsplit, List.append_assoc, List.cons_append] at hasks
  obtain ⟨next, hnext⟩ : ∃ next, (after ++ [place]).head? = some next :=
    ⟨_, List.head?_eq_some_head (List.append_ne_nil_of_right_ne_nil _ (List.cons_ne_nil _ _))⟩
  obtain ⟨bank, hbank, _⟩ := (List.isChain_cons.mp hasks.right_of_append).1 next hnext
  exact ⟨bank, hbank⟩

/-- If all banks have different names, different banks do. -/
theorem nodup_map_bankName (hnames : (pack.banks.values.map (·.name)).Nodup) {ids : List BankId}
    (hnodup : ids.Nodup) (hpresent : ∀ id ∈ ids, ∃ bank, pack.bank? id = some bank) :
    (ids.map pack.bankName).Nodup := by
  refine hnodup.map_on fun id hid other hother hname => ?_
  obtain ⟨bank, hbank⟩ := hpresent id hid
  obtain ⟨second, hsecond⟩ := hpresent other hother
  exact eq_of_bankName_eq hnames hbank hsecond hname

theorem IsRound.nodup_names {place : BankId} {between : List BankId}
    (hround : pack.IsRound place between) (hnames : (pack.banks.values.map (·.name)).Nodup) :
    ((place :: between).map pack.bankName).Nodup :=
  nodup_map_bankName hnames hround.nodup fun _ => hround.present

/-! ## No rings in an ordered list -/

theorem Ordered.mem_of_asks {order : List BankId} {id target : BankId}
    (hordered : pack.Ordered order) (hmem : id ∈ order) (hasks : pack.Asks id target) :
    target ∈ order := by
  induction order with
  | nil => cases hmem
  | cons first rest ih =>
      obtain ⟨_, ⟨bank, hbank, hreferences⟩, hrest⟩ := hordered
      refine List.mem_cons_of_mem _ ?_
      rcases List.mem_cons.mp hmem with rfl | hmem
      · obtain ⟨same, hsame, htarget⟩ := hasks
        cases hbank.symm.trans hsame
        exact hreferences target htarget
      · exact ih hrest hmem

theorem Ordered.mem_of_reaches {order : List BankId} {id target : BankId}
    (hordered : pack.Ordered order) (hmem : id ∈ order)
    (hreaches : Relation.ReflTransGen pack.Asks id target) : target ∈ order := by
  induction hreaches with
  | refl => exact hmem
  | tail _ hasks ih => exact hordered.mem_of_asks ih hasks

/-- No bank of an ordered list leads back to itself: the banks it leads to stand behind it. -/
theorem Ordered.not_transGen_self {order : List BankId} {id : BankId}
    (hordered : pack.Ordered order) (hmem : id ∈ order) : ¬ Relation.TransGen pack.Asks id id := by
  induction order with
  | nil => cases hmem
  | cons first rest ih =>
      obtain ⟨hnew, ⟨bank, hbank, hreferences⟩, hrest⟩ := hordered
      rcases List.mem_cons.mp hmem with rfl | hmem
      · intro hround
        obtain ⟨next, ⟨same, hsame, hnext⟩, hback⟩ := Relation.TransGen.head'_iff.mp hround
        cases hbank.symm.trans hsame
        exact hnew (hrest.mem_of_reaches (hreferences next hnext) hback)
      · exact ih hrest hmem

/-- The search succeeds exactly if no bank leads back to itself. -/
theorem exploreAll_succeeds_iff (hclosed : pack.Closed) :
    (∃ done, pack.exploreAll = .ok done) ↔ ∀ id, ¬ Relation.TransGen pack.Asks id id := by
  constructor
  · rintro ⟨done, hdone⟩ id hround
    obtain ⟨hordered, hall⟩ := ordered_of_exploreAll hclosed hdone
    obtain ⟨_, ⟨bank, hbank, _⟩, _⟩ := Relation.TransGen.head'_iff.mp hround
    exact hordered.not_transGen_self (hall id (OrderedMap.lt_size_of_at? hbank)) hround
  · intro hacyclic
    cases hexplore : pack.exploreAll with
    | ok done => exact ⟨done, rfl⟩
    | error failure =>
        obtain ⟨place, hround⟩ := ring_of_exploreAll hexplore
        exact absurd hround (hacyclic place)

/-! ## The main statement -/

/-- The answer that the check of a pack is to give. -/
structure Verdict (pack : Pack) (primary : String) (answer : Except BuildError BankId) :
    Prop where
  /-- No bank is filed under the name. -/
  missing : primary ∉ pack.banks.keys → answer = .error (.missingPrimary primary)
  /-- The first empty bank, wherever it stands. -/
  empty : primary ∈ pack.banks.keys → ∀ before bank after,
    pack.banks.values = before ++ bank :: after → (∀ other ∈ before, other.phrases ≠ []) →
      bank.phrases = [] → answer = .error (.emptyBank bank.name)
  passes : ∀ start, (primary, start) ∈ pack.banks.entries →
    (∀ bank ∈ pack.banks.values, bank.phrases ≠ []) →
      (∀ id, ¬ Relation.TransGen pack.Asks id id) → answer = .ok start.id
  /-- A round is reported by the names of its banks, with the first one again at the end; if all
  banks have different names, no other name is met twice. -/
  ring : primary ∈ pack.banks.keys → (∀ bank ∈ pack.banks.values, bank.phrases ≠ []) →
    (∃ id, Relation.TransGen pack.Asks id id) →
      ∃ place between, pack.IsRound place between ∧
        answer = .error (.ring ((place :: (between ++ [place])).map pack.bankName)) ∧
        ((pack.banks.values.map (·.name)).Nodup → ((place :: between).map pack.bankName).Nodup)

theorem exists_findBank?_of_mem_keys {primary : String} (hkey : primary ∈ pack.banks.keys) :
    ∃ start, pack.findBank? primary = some start := by
  cases hfind : pack.findBank? primary with
  | none => exact absurd hkey (OrderedMap.get?_eq_none_iff.mp hfind)
  | some start => exact ⟨start, rfl⟩

/-- **The check of a pack is a sound and complete search for rings with a true witness.**  For every
pack whose references stay within the pack, however it was made, and every name. -/
theorem verdict_check (hclosed : pack.Closed) (primary : String) :
    pack.Verdict primary (pack.check primary) where
  missing hkey := by
    have hfind : pack.findBank? primary = none := OrderedMap.get?_eq_none_iff.mpr hkey
    rw [check, hfind]
  empty hkey before bank after hbanks hbefore hempty := by
    obtain ⟨start, hfind⟩ := exists_findBank?_of_mem_keys hkey
    have hfirst : (pack.banks.values.find? fun bank => bank.phrases.isEmpty) = some bank := by
      rw [List.find?_eq_some_iff_append]
      refine ⟨List.isEmpty_iff.mpr hempty, before, after, hbanks, fun other hother => ?_⟩
      rw [Bool.not_eq_true', List.isEmpty_eq_false_iff]
      exact hbefore other hother
    rw [check, hfind]
    dsimp only
    rw [hfirst]
  passes start hentry hpopulated hacyclic := by
    obtain ⟨done, hdone⟩ := (exploreAll_succeeds_iff hclosed).mpr hacyclic
    rw [check_eq_of_populated hpopulated (OrderedMap.get?_eq_some_iff.mpr hentry), hdone]
    rfl
  ring hkey hpopulated hcycle := by
    obtain ⟨start, hfind⟩ := exists_findBank?_of_mem_keys hkey
    obtain ⟨id, hcycle⟩ := hcycle
    cases hexplore : pack.exploreAll with
    | ok done => exact absurd hcycle ((exploreAll_succeeds_iff hclosed).mp ⟨done, hexplore⟩ id)
    | error failure =>
        obtain ⟨place, between, hround, rfl⟩ := round_of_exploreAll hexplore
        refine ⟨place, between, hround, ?_, hround.nodup_names⟩
        rw [check_eq_of_populated hpopulated hfind, hexplore]
        rfl

/-- The ring of two banks is found and reported, though the start does not lead to it. -/
theorem verdict_check_aside :
    ∃ pack, ofSources asideSources = .ok pack ∧
      pack.Verdict "start" (.error (.ring ["left", "right", "left"])) := by
  obtain ⟨pack, hread, hcheck⟩ : ∃ pack, ofSources asideSources = .ok pack ∧
      pack.check "start" = .error (.ring ["left", "right", "left"]) := ⟨_, rfl, rfl⟩
  have hverdict := verdict_check (wellFormed_of_ofSources hread).closed "start"
  rw [hcheck] at hverdict
  exact ⟨pack, hread, hverdict⟩

/-- Two banks that ask for each other and have the same name, though they are filed under
different ones. -/
def twins : Pack where
  words := ∅
  banks := ((∅ : OrderedMap String Bank).insert "twin"
    ⟨⟨0⟩, "twin", [⟨⟨0⟩, [.bank ⟨1⟩]⟩]⟩).insert "double" ⟨⟨1⟩, "twin", [⟨⟨1⟩, [.bank ⟨0⟩]⟩]⟩

/-- Handles are positions and tokens stay within the pack, and yet the ring that is reported meets
a name twice on its way. -/
theorem check_twins :
    twins.banks.values.map (·.id) = (List.range twins.banks.size).map BankId.mk ∧
      (∀ bank ∈ twins.banks.values, ∀ target ∈ bank.references,
        target.index < twins.banks.size) ∧
      twins.check "twin" = .error (.ring ["twin", "twin", "twin"]) ∧
      ¬ (["twin", "twin", "twin"] : List String).tail.Nodup :=
  ⟨rfl, by decide, rfl, by decide⟩

end SpeechRom.Pack
