import Mathlib.Data.List.Perm.Basic
import SpeechRom.Pack.Grammar
import SpeechRom.Proofs.Attempt
import SpeechRom.Proofs.Pack.Handles

/-!
# Handles of a pack that grows

A pack grows by entering words, entering banks and adding phrases to banks that are there, in any
order.  `before.GrowsBy events after` says that these events, oldest first, lead from one pack to
another; the events tell which handles were given out.

`handles_stay_valid` says what a handle is worth when the pack has grown from nothing: it leads to
the text or name that it was given out for, no other one has it, and asking again gives it again and
changes nothing; and the phrases of a bank are those that were added to it.  All this holds as well
when the pack has grown further.  Packs that are read have grown so
(`exists_growsBy_of_ofSources`).

## Strategy

Handles are positions and nothing checks them, so a handle is right because the pack remembers what
it was given out for.  `pack.Remembers events` is this invariant: it ties every event to what stands
in the pack now.  Each way to grow keeps it, and a run does by induction (`GrowsBy.remembers`); what
`Honours` says about the handles follows from the invariant, without looking at the run again.
-/

namespace SpeechRom.Pack

/-! ## Events -/

/-- What is done to a pack, with the handle that it gives out or that it is given. -/
inductive Event where
  | word (text : String) (id : WordId)
  | bank (name : String) (id : BankId)
  | phrase (id : BankId) (phrase : Phrase)
  deriving DecidableEq, Repr

/-- These events, oldest first, lead from the first pack to the second.  A phrase is added to a bank
that is there. -/
inductive GrowsBy (before : Pack) : List Event → Pack → Prop
  | nothing : GrowsBy before [] before
  | enterWord {events : List Event} {pack : Pack} (hgrows : GrowsBy before events pack)
      (text : String) :
      GrowsBy before (events ++ [.word text (pack.enterWord text).1]) (pack.enterWord text).2
  | enterBank {events : List Event} {pack : Pack} (hgrows : GrowsBy before events pack)
      (name : String) :
      GrowsBy before (events ++ [.bank name (pack.enterBank name).1]) (pack.enterBank name).2
  | addPhrase {events : List Event} {pack : Pack} (hgrows : GrowsBy before events pack)
      {id : BankId} {bank : Bank} (hbank : pack.bank? id = some bank) (phrase : Phrase) :
      GrowsBy before (events ++ [.phrase id phrase]) (pack.addPhrase id phrase)

theorem GrowsBy.append {first second third : Pack} {events later : List Event}
    (hfirst : first.GrowsBy events second) (hsecond : second.GrowsBy later third) :
    first.GrowsBy (events ++ later) third := by
  induction hsecond with
  | nothing =>
      rw [List.append_nil]
      exact hfirst
  | enterWord _ text ih =>
      rw [← List.append_assoc]
      exact ih.enterWord text
  | enterBank _ name ih =>
      rw [← List.append_assoc]
      exact ih.enterBank name
  | addPhrase _ hbank phrase ih =>
      rw [← List.append_assoc]
      exact ih.addPhrase hbank phrase

theorem GrowsBy.extends {before after : Pack} {events : List Event}
    (hgrows : before.GrowsBy events after) : before.Extends after := by
  induction hgrows with
  | nothing => exact .refl before
  | enterWord _ text ih => exact ih.trans (extends_enterWord _ text)
  | enterBank _ name ih => exact ih.trans (extends_enterBank _ name)
  | addPhrase _ _ phrase ih => exact ih.trans (extends_addPhrase _ _ phrase)

/-! ## What the events ask for -/

/-- The texts that words were entered for. -/
def textsOf (events : List Event) : List String :=
  events.filterMap fun
    | .word text _ => some text
    | _ => none

/-- The names that banks were entered for. -/
def namesOf (events : List Event) : List String :=
  events.filterMap fun
    | .bank name _ => some name
    | _ => none

/-- The phrases that were added, each with the handle of its bank. -/
def additions (events : List Event) : List (BankId × Phrase) :=
  events.filterMap fun
    | .phrase id phrase => some (id, phrase)
    | _ => none

/-- The phrases that were added to one bank. -/
def addedTo (events : List Event) (id : BankId) : List Phrase :=
  ((additions events).filter (·.1 = id)).map (·.2)

section Views

variable {events : List Event} {id : BankId} {phrase : Phrase}

theorem mem_namesOf_iff {name : String} : name ∈ namesOf events ↔ ∃ id, .bank name id ∈ events := by
  rw [namesOf, List.mem_filterMap]
  constructor
  · rintro ⟨event, hevent, hname⟩
    cases event <;> cases hname
    exact ⟨_, hevent⟩
  · rintro ⟨id, hevent⟩
    exact ⟨_, hevent, rfl⟩

theorem mem_additions_iff : (id, phrase) ∈ additions events ↔ .phrase id phrase ∈ events := by
  rw [additions, List.mem_filterMap]
  constructor
  · rintro ⟨event, hevent, haddition⟩
    cases event <;> cases haddition
    exact hevent
  · intro hevent
    exact ⟨_, hevent, rfl⟩

theorem mem_addedTo_iff : phrase ∈ addedTo events id ↔ .phrase id phrase ∈ events := by
  rw [addedTo, List.mem_map, ← mem_additions_iff]
  constructor
  · rintro ⟨⟨other, added⟩, hmem, rfl⟩
    obtain ⟨haddition, hsame⟩ := List.mem_filter.mp hmem
    rw [← of_decide_eq_true hsame]
    exact haddition
  · intro haddition
    exact ⟨(id, phrase), List.mem_filter.mpr ⟨haddition, decide_eq_true rfl⟩, rfl⟩

theorem addedTo_word (events : List Event) (text : String) (word : WordId) (id : BankId) :
    addedTo (events ++ [.word text word]) id = addedTo events id := by
  simp [addedTo, additions]

theorem addedTo_bank (events : List Event) (name : String) (bank id : BankId) :
    addedTo (events ++ [.bank name bank]) id = addedTo events id := by
  simp [addedTo, additions]

theorem addedTo_phrase (events : List Event) (bank : BankId) (phrase : Phrase) (id : BankId) :
    addedTo (events ++ [.phrase bank phrase]) id =
      addedTo events id ++ if bank = id then [phrase] else [] := by
  by_cases hbank : bank = id <;> simp [addedTo, additions, hbank]

end Views

/-- With the handle of their bank, the phrases that were added to it are its additions again. -/
theorem map_addedTo (events : List Event) (bank : BankId) :
    (addedTo events bank).map (bank, ·) = (additions events).filter (·.1 = bank) :=
  calc (addedTo events bank).map (bank, ·)
    _ = ((additions events).filter (·.1 = bank)).map id := by
        rw [addedTo, List.map_map]
        refine List.map_congr_left fun addition hmem => ?_
        have hsame : addition.1 = bank := of_decide_eq_true (List.mem_filter.mp hmem).2
        exact Prod.ext hsame.symm rfl
    _ = (additions events).filter (·.1 = bank) := List.map_id _

/-! ## What the pack remembers -/

/-- What was given out for the events leads back to them, and all that stands in the pack is there
because of an event. -/
structure Remembers (pack : Pack) (events : List Event) : Prop where
  indexed : pack.Indexed
  /-- There is one word for each text and one bank for each name, in the order of their first
  events; a text may be a name too. -/
  word_texts : pack.words.keys = (textsOf events).eraseDups
  bank_names : pack.banks.keys = (namesOf events).eraseDups
  /-- A handle leads to what it was given out for, and a bank has the phrases that were added to
  it, in this order. -/
  word : ∀ text id, .word text id ∈ events → pack.word? id = some ⟨id, text⟩
  bank : ∀ name id, .bank name id ∈ events → pack.bank? id = some ⟨id, name, addedTo events id⟩
  /-- Phrases were added to banks that had been entered. -/
  entered : ∀ id phrase, .phrase id phrase ∈ events → ∃ name, .bank name id ∈ events

namespace Remembers

variable {pack : Pack} {events : List Event}

theorem empty : Pack.empty.Remembers [] where
  indexed := indexed_empty
  word_texts := rfl
  bank_names := rfl
  word _ _ hevent := absurd hevent List.not_mem_nil
  bank _ _ hevent := absurd hevent List.not_mem_nil
  entered _ _ hevent := absurd hevent List.not_mem_nil

theorem enterWord (hremembers : pack.Remembers events) (text : String) :
    (pack.enterWord text).2.Remembers (events ++ [.word text (pack.enterWord text).1]) where
  indexed := hremembers.indexed.enterWord text
  word_texts := by
    rw [keys_enterWord, hremembers.word_texts, ← eraseDups_concat]
    simp [textsOf]
  bank_names := by
    rw [enterWord_banks, hremembers.bank_names]
    simp [namesOf]
  word other id hevent := by
    rcases List.mem_append.mp hevent with hbefore | hnow
    · exact (extends_enterWord pack text).word? (hremembers.word other id hbefore)
    · cases List.mem_singleton.mp hnow
      exact word?_enterWord hremembers.indexed text
  bank name id hevent := by
    have hbefore : .bank name id ∈ events := by simpa using hevent
    rw [addedTo_word, bank?, enterWord_banks]
    exact hremembers.bank name id hbefore
  entered id phrase hevent := by
    have hbefore : .phrase id phrase ∈ events := by simpa using hevent
    obtain ⟨name, hname⟩ := hremembers.entered id phrase hbefore
    exact ⟨name, List.mem_append_left _ hname⟩

/-- A bank that stands in the pack was entered, and has the phrases that were added to it. -/
theorem bank_of_mem (hremembers : pack.Remembers events) {bank : Bank}
    (hmem : bank ∈ pack.banks.values) :
    .bank bank.name bank.id ∈ events ∧ bank.phrases = addedTo events bank.id := by
  have hfind := hremembers.indexed.findBank?_of_mem hmem
  have hname := OrderedMap.mem_keys_of_get? hfind
  rw [hremembers.bank_names, List.mem_eraseDups, mem_namesOf_iff] at hname
  obtain ⟨id, hevent⟩ := hname
  -- the bank that was entered under this name is filed under it too
  have hentered := mem_banks_of_bank? (hremembers.bank bank.name id hevent)
  have hsame := hremembers.indexed.findBank?_of_mem hentered
  rw [hfind, Option.some.injEq] at hsame
  rw [hsame]
  exact ⟨hevent, rfl⟩

/-- Nothing was added to a bank that is not there. -/
theorem addedTo_eq_nil (hremembers : pack.Remembers events) {id : BankId}
    (hnone : pack.bank? id = none) : addedTo events id = [] := by
  refine List.eq_nil_iff_forall_not_mem.mpr fun phrase hadded => ?_
  obtain ⟨name, hevent⟩ := hremembers.entered id phrase (mem_addedTo_iff.mp hadded)
  rw [hremembers.bank name id hevent] at hnone
  cases hnone

/-- The bank that is entered leads to its name, with the phrases that were added to it. -/
theorem bank?_enterBank (hremembers : pack.Remembers events) (name : String) :
    (pack.enterBank name).2.bank? (pack.enterBank name).1 =
      some ⟨(pack.enterBank name).1, name, addedTo events (pack.enterBank name).1⟩ := by
  cases hfind : pack.findBank? name with
  | some bank =>
      rw [enterBank_of_findBank? hfind]
      have hentered := (hremembers.bank_of_mem (OrderedMap.mem_values_of_get? hfind)).1
      rw [hremembers.indexed.name_of_findBank? hfind] at hentered
      exact hremembers.bank name bank.id hentered
  | none =>
      rw [Pack.bank?_enterBank hfind, if_pos rfl,
        hremembers.addedTo_eq_nil (bank?_fst_enterBank hfind)]

theorem enterBank (hremembers : pack.Remembers events) (name : String) :
    (pack.enterBank name).2.Remembers (events ++ [.bank name (pack.enterBank name).1]) where
  indexed := hremembers.indexed.enterBank name
  word_texts := by
    rw [enterBank_words, hremembers.word_texts]
    simp [textsOf]
  bank_names := by
    rw [keys_enterBank, hremembers.bank_names, ← eraseDups_concat]
    simp [namesOf]
  word text id hevent := by
    have hbefore : .word text id ∈ events := by simpa using hevent
    exact (extends_enterBank pack name).word? (hremembers.word text id hbefore)
  bank other id hevent := by
    rw [addedTo_bank]
    rcases List.mem_append.mp hevent with hbefore | hnow
    · exact bank?_enterBank_of_bank? (hremembers.bank other id hbefore) name
    · cases List.mem_singleton.mp hnow
      exact hremembers.bank?_enterBank name
  entered id phrase hevent := by
    have hbefore : .phrase id phrase ∈ events := by simpa using hevent
    obtain ⟨other, hother⟩ := hremembers.entered id phrase hbefore
    exact ⟨other, List.mem_append_left _ hother⟩

theorem addPhrase (hremembers : pack.Remembers events) {id : BankId} {bank : Bank}
    (hbank : pack.bank? id = some bank) (phrase : Phrase) :
    (pack.addPhrase id phrase).Remembers (events ++ [.phrase id phrase]) where
  indexed := hremembers.indexed.addPhrase id phrase
  word_texts := by
    have hwords : (pack.addPhrase id phrase).words = pack.words := rfl
    rw [hwords, hremembers.word_texts]
    simp [textsOf]
  bank_names := by
    have hkeys : (pack.addPhrase id phrase).banks.keys = pack.banks.keys :=
      OrderedMap.keys_modifyAt _ _ _
    rw [hkeys, hremembers.bank_names]
    simp [namesOf]
  word text other hevent := by
    have hbefore : .word text other ∈ events := by simpa using hevent
    exact hremembers.word text other hbefore
  bank name other hevent := by
    have hbefore : .bank name other ∈ events := by simpa using hevent
    rw [bank?_addPhrase, hremembers.bank name other hbefore, addedTo_phrase]
    by_cases hsame : other = id
    · rw [if_pos hsame, if_pos hsame.symm, Option.map_some]
    · rw [if_neg hsame, if_neg (Ne.symm hsame), List.append_nil]
  entered other added hevent := by
    rcases List.mem_append.mp hevent with hbefore | hnow
    · obtain ⟨name, hname⟩ := hremembers.entered other added hbefore
      exact ⟨name, List.mem_append_left _ hname⟩
    · cases List.mem_singleton.mp hnow
      have hentered := (hremembers.bank_of_mem (mem_banks_of_bank? hbank)).1
      rw [hremembers.indexed.id_of_bank? hbank] at hentered
      exact ⟨bank.name, List.mem_append_left _ hentered⟩

end Remembers

/-- **A pack that has grown from nothing remembers how.** -/
theorem GrowsBy.remembers {events : List Event} {pack : Pack}
    (hgrows : Pack.empty.GrowsBy events pack) : pack.Remembers events := by
  induction hgrows with
  | nothing => exact .empty
  | enterWord _ text ih => exact ih.enterWord text
  | enterBank _ name ih => exact ih.enterBank name
  | addPhrase _ hbank phrase ih => exact ih.addPhrase hbank phrase

/-! ## What handles are worth -/

/-- What can be relied on when handles were given out for some events. -/
structure Honours (pack : Pack) (events : List Event) : Prop extends pack.Remembers events where
  /-- The same handle was given out for the same, and different ones for different ones. -/
  word_handles : ∀ text id other id', .word text id ∈ events → .word other id' ∈ events →
    (id = id' ↔ text = other)
  bank_handles : ∀ name id other id', .bank name id ∈ events → .bank other id' ∈ events →
    (id = id' ↔ name = other)
  /-- It is given out again, and what is known changes nothing. -/
  word_again : ∀ text id, .word text id ∈ events → pack.enterWord text = (id, pack)
  bank_again : ∀ name id, .bank name id ∈ events → pack.enterBank name = (id, pack)
  /-- The phrases of the pack are those that were added, each in the bank that it was added to. -/
  phrases : (pack.phrases.map fun entry => (entry.1.id, entry.2)).Perm (additions events)

namespace Remembers

variable {pack : Pack} {events : List Event}

theorem word_again (hremembers : pack.Remembers events) {text : String} {id : WordId}
    (hevent : .word text id ∈ events) : pack.enterWord text = (id, pack) := by
  have hmem := mem_words_of_word? (hremembers.word text id hevent)
  exact enterWord_of_getWord (hremembers.indexed.getWord_of_mem hmem)

theorem bank_again (hremembers : pack.Remembers events) {name : String} {id : BankId}
    (hevent : .bank name id ∈ events) : pack.enterBank name = (id, pack) := by
  have hmem := mem_banks_of_bank? (hremembers.bank name id hevent)
  exact enterBank_of_findBank? (hremembers.indexed.findBank?_of_mem hmem)

theorem word_handles (hremembers : pack.Remembers events) {text other : String} {id id' : WordId}
    (hevent : .word text id ∈ events) (hother : .word other id' ∈ events) :
    id = id' ↔ text = other := by
  constructor
  · rintro rfl
    have hsame := (hremembers.word text id hevent).symm.trans (hremembers.word other id hother)
    exact congrArg Word.text (Option.some.inj hsame)
  · rintro rfl
    have hsame := (hremembers.word_again hevent).symm.trans (hremembers.word_again hother)
    exact congrArg Prod.fst hsame

theorem bank_handles (hremembers : pack.Remembers events) {name other : String} {id id' : BankId}
    (hevent : .bank name id ∈ events) (hother : .bank other id' ∈ events) :
    id = id' ↔ name = other := by
  constructor
  · rintro rfl
    have hsame := (hremembers.bank name id hevent).symm.trans (hremembers.bank other id hother)
    exact congrArg Bank.name (Option.some.inj hsame)
  · rintro rfl
    have hsame := (hremembers.bank_again hevent).symm.trans (hremembers.bank_again hother)
    exact congrArg Prod.fst hsame

/-- The banks part the additions among them. -/
theorem perm_phrases (hremembers : pack.Remembers events) :
    (pack.phrases.map fun entry => (entry.1.id, entry.2)).Perm (additions events) := by
  have hbanks : ∀ addition ∈ additions events, addition.1 ∈ pack.banks.values.map (·.id) := by
    rintro ⟨id, phrase⟩ hmem
    obtain ⟨name, hevent⟩ := hremembers.entered id phrase (mem_additions_iff.mp hmem)
    exact List.mem_map.mpr ⟨_, mem_banks_of_bank? (hremembers.bank name id hevent), rfl⟩
  have hphrases := calc pack.phrases.map (fun entry => (entry.1.id, entry.2))
    _ = pack.banks.values.flatMap fun bank => bank.phrases.map (bank.id, ·) := by
        rw [phrases, List.map_flatMap]
        simp only [List.map_map, Function.comp_def]
    _ = pack.banks.values.flatMap fun bank => (additions events).filter (·.1 = bank.id) := by
        refine List.flatMap_congr fun bank hmem => ?_
        rw [(hremembers.bank_of_mem hmem).2, map_addedTo]
    _ = (pack.banks.values.map (·.id)).flatMap fun id => (additions events).filter (·.1 = id) := by
        rw [List.flatMap_map]
  rw [hphrases]
  exact perm_flatMap_filter hremembers.indexed.nodup_map_id_banks hbanks

theorem honours (hremembers : pack.Remembers events) : pack.Honours events where
  toRemembers := hremembers
  word_handles _ _ _ _ := hremembers.word_handles
  bank_handles _ _ _ _ := hremembers.bank_handles
  word_again _ _ := hremembers.word_again
  bank_again _ _ := hremembers.bank_again
  phrases := hremembers.perm_phrases

end Remembers

/-- **Handles stay valid.**  However words and banks are entered and phrases are added, every handle
that was given out leads to what it was given out for, then and ever after, and no phrase is lost or
gets into another bank. -/
theorem handles_stay_valid {events : List Event} {pack : Pack}
    (hgrows : Pack.empty.GrowsBy events pack) :
    pack.Honours events ∧
      ∀ later after, pack.GrowsBy later after →
        after.Honours (events ++ later) ∧ pack.Extends after := by
  refine ⟨hgrows.remembers.honours, fun later after hlater => ⟨?_, hlater.extends⟩⟩
  exact (hgrows.append hlater).remembers.honours

/-- A bank and a word of one spelling, and a phrase for the bank. -/
def encoreEvents : List Event :=
  [.bank "go" ⟨0⟩, .word "go" ⟨0⟩, .phrase ⟨0⟩ ⟨⟨0⟩, [.word ⟨0⟩]⟩]

/-- The pack of these events. -/
def encorePack : Pack where
  words := ⟨[("go", ⟨⟨0⟩, "go"⟩)], by decide⟩
  banks := ⟨[("go", ⟨⟨0⟩, "go", [⟨⟨0⟩, [.word ⟨0⟩]⟩]⟩)], by decide⟩

/-- Both are entered again, among new ones, and both banks get a phrase. -/
def encoreLater : List Event :=
  [.bank "on" ⟨1⟩, .word "on" ⟨1⟩, .word "go" ⟨0⟩, .bank "go" ⟨0⟩,
    .phrase ⟨1⟩ ⟨⟨1⟩, [.word ⟨1⟩, .bank ⟨0⟩]⟩, .phrase ⟨0⟩ ⟨⟨2⟩, [.word ⟨1⟩, .word ⟨0⟩]⟩]

/-- The pack after that. -/
def encoreAfter : Pack where
  words := ⟨[("go", ⟨⟨0⟩, "go"⟩), ("on", ⟨⟨1⟩, "on"⟩)], by decide⟩
  banks := ⟨[("go", ⟨⟨0⟩, "go", [⟨⟨0⟩, [.word ⟨0⟩]⟩, ⟨⟨2⟩, [.word ⟨1⟩, .word ⟨0⟩]⟩]⟩),
    ("on", ⟨⟨1⟩, "on", [⟨⟨1⟩, [.word ⟨1⟩, .bank ⟨0⟩]⟩]⟩)], by decide⟩

theorem growsBy_encore : Pack.empty.GrowsBy encoreEvents encorePack :=
  ((GrowsBy.nothing.enterBank "go").enterWord "go").addPhrase rfl _

theorem growsBy_encoreLater : encorePack.GrowsBy encoreLater encoreAfter :=
  (((((GrowsBy.nothing.enterBank "on").enterWord "on").enterWord "go").enterBank "go").addPhrase
    rfl _).addPhrase rfl _

theorem handles_stay_valid_encore :
    Pack.empty.GrowsBy encoreEvents encorePack ∧ encorePack.GrowsBy encoreLater encoreAfter ∧
      encorePack.Honours encoreEvents ∧ encoreAfter.Honours (encoreEvents ++ encoreLater) ∧
      encorePack.Extends encoreAfter := by
  have hvalid := handles_stay_valid growsBy_encore
  exact ⟨growsBy_encore, growsBy_encoreLater, hvalid.1, hvalid.2 _ _ growsBy_encoreLater⟩

/-! ## Reading grows a pack -/

theorem exists_growsBy_of_readToken {bank : String} {line : Nat} {pack after : Pack}
    {text : List Char} {token : Token}
    (hread : readToken bank line pack text = .ok (token, after)) :
    ∃ events, pack.GrowsBy events after := by
  unfold readToken at hread
  split at hread
  · cases hread
    exact ⟨_, GrowsBy.nothing.enterWord _⟩
  · split at hread
    · split at hread
      · cases hread
        exact ⟨_, .nothing⟩
      · cases hread
    · cases hread

theorem exists_growsBy_of_readTokens {bank : String} {line : Nat} {pack after : Pack}
    {texts : List (List Char)} {read : Array Token}
    (hread : readTokens bank line pack texts = .ok (read, after)) :
    ∃ events, pack.GrowsBy events after := by
  refine of_foldlM_eq_ok (P := fun state : Array Token × Pack =>
    ∃ events, pack.GrowsBy events state.2) hread ⟨_, .nothing⟩ ?_
  rintro ⟨tokens, middle⟩ text next ⟨events, hgrows⟩ hstep
  obtain ⟨⟨token, last⟩, htoken, hnext⟩ := bind_eq_ok_iff.mp hstep
  cases hnext
  obtain ⟨more, hmore⟩ := exists_growsBy_of_readToken htoken
  exact ⟨_, hgrows.append hmore⟩

/-- The bank of a line that is read has to be there. -/
theorem exists_growsBy_of_readLine {name : String} {id : BankId} {draft next : Draft}
    {line : List Char × Nat} {bank : Bank} (hbank : draft.pack.bank? id = some bank)
    (hread : readLine name id draft line = .ok next) :
    ∃ events, draft.pack.GrowsBy events next.pack := by
  obtain ⟨⟨read, middle⟩, htokens, hnext⟩ := bind_eq_ok_iff.mp hread
  obtain ⟨events, hgrows⟩ := exists_growsBy_of_readTokens htokens
  dsimp only at hnext
  split at hnext
  · cases hnext
    exact ⟨events, hgrows⟩
  · cases hnext
    obtain ⟨grown, hgrown, _⟩ := hgrows.extends.banks id bank hbank
    exact ⟨_, hgrows.addPhrase hgrown _⟩

theorem exists_growsBy_of_readLines {name : String} {id : BankId} {draft next : Draft}
    {lines : List (List Char × Nat)} {bank : Bank} (hbank : draft.pack.bank? id = some bank)
    (hread : lines.foldlM (readLine name id) draft = .ok next) :
    ∃ events, draft.pack.GrowsBy events next.pack := by
  refine of_foldlM_eq_ok (P := fun state : Draft =>
    ∃ events, draft.pack.GrowsBy events state.pack) hread ⟨_, .nothing⟩ ?_
  rintro before line state ⟨events, hgrows⟩ hstep
  obtain ⟨grown, hgrown, _⟩ := hgrows.extends.banks id bank hbank
  obtain ⟨more, hmore⟩ := exists_growsBy_of_readLine hgrown hstep
  exact ⟨_, hgrows.append hmore⟩

theorem exists_growsBy_of_readSource {events : List Event} {draft next : Draft} {source : Source}
    (hgrows : Pack.empty.GrowsBy events draft.pack) (hread : readSource draft source = .ok next) :
    ∃ more, Pack.empty.GrowsBy more next.pack := by
  obtain ⟨state, hlines, hjudged⟩ := bind_eq_ok_iff.mp hread
  -- the last step only judges the bank
  have hstate : state = next := by
    dsimp only at hjudged
    split at hjudged
    · split at hjudged <;> cases hjudged
      rfl
    · cases hjudged
  subst hstate
  obtain ⟨more, hmore⟩ := exists_growsBy_of_readLines
    (hgrows.remembers.bank?_enterBank source.bank) hlines
  exact ⟨_, (hgrows.enterBank source.bank).append hmore⟩

/-- **A pack that was read has grown from nothing**: reading gives out handles and adds phrases in
no other way. -/
theorem exists_growsBy_of_ofSources {sources : List Source} {pack : Pack}
    (hread : ofSources sources = .ok pack) : ∃ events, Pack.empty.GrowsBy events pack := by
  obtain ⟨declared, hdeclared, hsources⟩ := bind_eq_ok_iff.mp hread
  obtain ⟨draft, hdraft, hpack⟩ := bind_eq_ok_iff.mp hsources
  cases hpack
  have hstart : ∃ events, Pack.empty.GrowsBy events declared := by
    refine of_foldlM_eq_ok (P := fun pack => ∃ events, Pack.empty.GrowsBy events pack) hdeclared
      ⟨_, .nothing⟩ ?_
    rintro before source next ⟨events, hgrows⟩ hstep
    unfold declareSource at hstep
    split at hstep
    · cases hstep
      exact ⟨_, hgrows.enterBank source.bank⟩
    · cases hstep
  refine of_foldlM_eq_ok (P := fun draft : Draft => ∃ events, Pack.empty.GrowsBy events draft.pack)
    hdraft hstart ?_
  rintro before source next ⟨events, hgrows⟩ hstep
  exact exists_growsBy_of_readSource hgrows hstep

end SpeechRom.Pack
