import SpeechRom.Proofs.Pack.Reading

/-!
# What a pack that was read holds

`IsPackOf sources pack` says what reading makes of sources: the banks are the names of the
sources and the words are the bare identifiers, each once and in order of first occurrence; handles
are positions; and the phrases of a bank are, token for token, the lines of all sources of that
name, numbered through all sources in reading order.

Every pack that was read is of this kind (`isPackOf_of_ofSources`).  The lines and numbers are what
`Draft.Records` has carried through the reading; that every word is used follows, since a word is
among the words only because it stands on a line.
-/

namespace SpeechRom.Pack

/-- The pack says what the sources say, and nothing else. -/
structure IsPackOf (sources : List Source) (pack : Pack) : Prop where
  bank_names : pack.banks.keys = (sources.map (·.bank)).eraseDups
  word_texts : pack.words.keys = wordsAmong ((spokenLines sources).flatMap (·.tokens))
  indexed : pack.Indexed
  phrases : ∀ bank ∈ pack.banks.values,
    List.Forall₂ pack.Voices (linesOf (spokenLines sources) bank.name) bank.phrases
  numbers : pack.phraseIds.Perm ((List.range (spokenLines sources).length).map PhraseId.mk)
  populated : ∀ bank ∈ pack.banks.values, bank.phrases ≠ []
  sayable : ∀ bank ∈ pack.banks.values, ∀ phrase ∈ bank.phrases, pack.Sayable phrase
  used : ∀ word ∈ pack.words.values, ∃ bank ∈ pack.banks.values, ∃ phrase ∈ bank.phrases,
    Token.word word.id ∈ phrase.tokens

/-! ## Lines and phrases -/

/-- A line that is said has the name of a source, and tokens. -/
theorem of_mem_spokenLines {sources : List Source} {line : SpokenLine}
    (hline : line ∈ spokenLines sources) :
    line.bank ∈ sources.map (·.bank) ∧ line.tokens ≠ [] := by
  obtain ⟨source, hsource, hspoken⟩ := List.mem_flatMap.mp hline
  obtain ⟨text, _, hmem⟩ := List.mem_flatMap.mp hspoken
  obtain ⟨htokens, rfl⟩ := mem_spoken_iff.mp hmem
  exact ⟨List.mem_map_of_mem hsource, htokens⟩

theorem mem_linesOf_iff {lines : List SpokenLine} {bank : String} {line : SpokenLine}
    {number : Nat} :
    (line, number) ∈ linesOf lines bank ↔ lines[number]? = some line ∧ line.bank = bank := by
  rw [linesOf, List.mem_filter, List.mem_zipIdx_iff_getElem?, decide_eq_true_eq]

theorem Reads.resolves {pack : Pack} {text : List Char} {token : Token}
    (hreads : pack.Reads text token) : pack.Resolves token := by
  cases hreads with
  | word _ hid => exact OrderedMap.lt_size_of_at? hid
  | bank _ hid _ => exact OrderedMap.lt_size_of_at? hid

/-- A phrase that has become of a line with tokens can be said. -/
theorem Voices.sayable {pack : Pack} {line : SpokenLine × Nat} {phrase : Phrase}
    (hvoices : pack.Voices line phrase) (htokens : line.1.tokens ≠ []) : pack.Sayable phrase := by
  refine ⟨?_, fun token hmem => ?_⟩
  · intro hnone
    have hlength := hvoices.tokens.length_eq
    rw [hnone, List.length_nil, List.length_eq_zero_iff] at hlength
    exact htokens hlength
  · obtain ⟨_, _, hreads⟩ := exists_left_of_forall₂ hvoices.tokens hmem
    exact hreads.resolves

section Records

variable {names : List String} {lines : List SpokenLine} {draft : Draft}

theorem Draft.Records.sayable (hrecords : draft.Records names lines)
    (htokens : ∀ line ∈ lines, line.tokens ≠ []) {bank : Bank}
    (hbank : bank ∈ draft.pack.banks.values) {phrase : Phrase} (hphrase : phrase ∈ bank.phrases) :
    draft.pack.Sayable phrase := by
  obtain ⟨⟨line, number⟩, hline, hvoices⟩ :=
    exists_left_of_forall₂ (hrecords.phrases bank hbank) hphrase
  exact hvoices.sayable (htokens line (List.mem_of_getElem? (mem_linesOf_iff.mp hline).1))

theorem Draft.Records.distinct (hrecords : draft.Records names lines) :
    draft.pack.phraseIds.Nodup := by
  rw [hrecords.numbers.nodup_iff]
  exact List.nodup_range.map fun _ _ heq => PhraseId.mk.inj heq

theorem Draft.Records.phrases_ne_nil (hrecords : draft.Records names lines) {bank : Bank}
    (hbank : bank ∈ draft.pack.banks.values) (hline : ∃ line ∈ lines, line.bank = bank.name) :
    bank.phrases ≠ [] := by
  intro hnone
  have hvoices := hrecords.phrases bank hbank
  rw [hnone, List.forall₂_nil_right_iff] at hvoices
  exact linesOf_eq_nil_iff.mp hvoices hline

theorem Draft.Records.name_mem (hrecords : draft.Records names lines) {bank : Bank}
    (hbank : bank ∈ draft.pack.banks.values) : bank.name ∈ names := by
  have hkey := OrderedMap.mem_keys_of_get? (hrecords.holds.indexed.findBank?_of_mem hbank)
  rwa [hrecords.holds.bank_names, List.mem_eraseDups] at hkey

end Records

/-- Sources without a fault leave no bank without a line. -/
theorem exists_line_of_bank {sources : List Source} (hfault : sourcesFault sources = none)
    {name : String} (hname : name ∈ sources.map (·.bank)) :
    ∃ line ∈ spokenLines sources, line.bank = name := by
  obtain ⟨source, hsource, rfl⟩ := List.mem_map.mp hname
  obtain ⟨before, after, hsplit⟩ := List.append_of_mem hsource
  have hread := firstFault_eq_none_iff.mp (Option.or_eq_none_iff.mp hfault).2 before source after
    hsplit
  obtain ⟨_, line, hline, hbank⟩ := sourceFault_eq_none_iff.mp hread
  refine ⟨line, ?_, hbank⟩
  rw [hsplit, List.append_cons, spokenLines, List.flatMap_append]
  exact List.mem_append_left _ hline

/-- **A pack that was read from sources is well-formed.** -/
theorem wellFormed_of_ofSources {sources : List Source} {pack : Pack}
    (hread : ofSources sources = .ok pack) : pack.WellFormed := by
  have hdecided := decided_ofSources sources
  obtain ⟨next, hrecords⟩ := hdecided.of_ok hread
  refine ⟨hrecords.holds.indexed, fun bank hbank phrase hphrase => ?_, hrecords.distinct,
    fun bank hbank => ?_⟩
  · exact hrecords.sayable (fun line hline => (of_mem_spokenLines hline).2) hbank hphrase
  · exact hrecords.phrases_ne_nil hbank
      (exists_line_of_bank (hdecided.fault_eq_none hread) (hrecords.name_mem hbank))

/-! ## Every word is used -/

theorem mem_wordsAmong_iff {tokens : List (List Char)} {text : String} :
    text ∈ wordsAmong tokens ↔ ∃ token ∈ tokens, Identifier token ∧ String.ofList token = text := by
  rw [wordsAmong, List.mem_eraseDups, List.mem_map]
  simp only [List.mem_filter, decide_eq_true_eq, and_assoc]

/-- What is written as an identifier is said by the word of that text. -/
theorem Reads.eq_word {pack : Pack} (hindexed : pack.Indexed) {text : List Char} {token : Token}
    (hreads : pack.Reads text token) (htext : Identifier text) {word : Word}
    (hword : word ∈ pack.words.values) (hsame : word.text = String.ofList text) :
    token = .word word.id := by
  cases hreads with
  | word _ hid =>
      have hfound := hindexed.getWord_of_mem (mem_words_of_word? hid)
      rw [← hsame, hindexed.getWord_of_mem hword, Option.some.injEq] at hfound
      rw [congrArg Word.id hfound]
  | bank _ _ _ => exact absurd htext (not_identifier_braced _)

theorem Draft.Records.exists_phrase_of_word {names : List String} {lines : List SpokenLine}
    {draft : Draft} (hrecords : draft.Records names lines)
    (hnames : ∀ line ∈ lines, line.bank ∈ names) {word : Word}
    (hword : word ∈ draft.pack.words.values) :
    ∃ bank ∈ draft.pack.banks.values, ∃ phrase ∈ bank.phrases,
      Token.word word.id ∈ phrase.tokens := by
  have hindexed := hrecords.holds.indexed
  have hkey := OrderedMap.mem_keys_of_get? (hindexed.getWord_of_mem hword)
  rw [hrecords.holds.word_texts] at hkey
  -- the word was entered for a token of some line
  obtain ⟨text, htext, hidentifier, hsame⟩ := mem_wordsAmong_iff.mp hkey
  obtain ⟨line, hline, htoken⟩ := List.mem_flatMap.mp htext
  obtain ⟨number, hnumber⟩ := List.mem_iff_getElem?.mp hline
  obtain ⟨bank, _, hbank, hname⟩ := hrecords.holds.exists_findBank? (hnames line hline)
  -- the phrase that the line has become says that token
  obtain ⟨phrase, hphrase, hvoices⟩ := exists_right_of_forall₂
    (hrecords.phrases bank (mem_banks_of_bank? hbank))
    (mem_linesOf_iff.mpr ⟨hnumber, hname.symm⟩)
  obtain ⟨token, hmem, hreads⟩ := exists_right_of_forall₂ hvoices.tokens htoken
  rw [hreads.eq_word hindexed hidentifier hword hsame.symm] at hmem
  exact ⟨bank, mem_banks_of_bank? hbank, phrase, hphrase, hmem⟩

/-- The words of a pack that was read are those of the sources. -/
theorem keys_words_of_ofSources {sources : List Source} {pack : Pack}
    (hread : ofSources sources = .ok pack) :
    pack.words.keys = wordsAmong ((spokenLines sources).flatMap (·.tokens)) := by
  obtain ⟨next, hrecords⟩ := (decided_ofSources sources).of_ok hread
  exact hrecords.holds.word_texts

/-- Every word of a pack that was read is said by some phrase. -/
theorem exists_phrase_of_ofSources {sources : List Source} {pack : Pack}
    (hread : ofSources sources = .ok pack) {word : Word} (hword : word ∈ pack.words.values) :
    ∃ bank ∈ pack.banks.values, ∃ phrase ∈ bank.phrases, Token.word word.id ∈ phrase.tokens := by
  obtain ⟨next, hrecords⟩ := (decided_ofSources sources).of_ok hread
  exact hrecords.exists_phrase_of_word (fun _ hline => (of_mem_spokenLines hline).1) hword

/-! ## What reading makes of sources -/

/-- **A pack that was read says what its sources say**: no bank, word or line is lost, doubled or
put in another's place. -/
theorem isPackOf_of_ofSources {sources : List Source} {pack : Pack}
    (hread : ofSources sources = .ok pack) : IsPackOf sources pack := by
  obtain ⟨next, hrecords⟩ := (decided_ofSources sources).of_ok hread
  have hwell := wellFormed_of_ofSources hread
  exact {
    bank_names := hrecords.holds.bank_names
    word_texts := hrecords.holds.word_texts
    indexed := hrecords.holds.indexed
    phrases := hrecords.phrases
    numbers := hrecords.numbers
    populated := hwell.populated
    sayable := hwell.sayable
    used := fun _ => hrecords.exists_phrase_of_word fun _ hline => (of_mem_spokenLines hline).1 }

/-- A bank in two sources, with the other bank's name as a word and a reference that points
forward. -/
def chorusSources : List Source :=
  [⟨"start", "go \x7bfriend\x7d\r\n\n"⟩, ⟨"friend", "go\n"⟩, ⟨"start", " friend\tgo"⟩]

/-- The pack of these sources. -/
def chorusPack : Pack where
  words := ⟨[("go", ⟨⟨0⟩, "go"⟩), ("friend", ⟨⟨1⟩, "friend"⟩)], by decide⟩
  banks := ⟨[("start", ⟨⟨0⟩, "start",
      [⟨⟨0⟩, [.word ⟨0⟩, .bank ⟨1⟩]⟩, ⟨⟨2⟩, [.word ⟨1⟩, .word ⟨0⟩]⟩]⟩),
    ("friend", ⟨⟨1⟩, "friend", [⟨⟨1⟩, [.word ⟨0⟩]⟩]⟩)], by decide⟩

theorem isPackOf_of_ofSources_chorus :
    ofSources chorusSources = .ok chorusPack ∧ IsPackOf chorusSources chorusPack :=
  ⟨rfl, isPackOf_of_ofSources rfl⟩

end SpeechRom.Pack
