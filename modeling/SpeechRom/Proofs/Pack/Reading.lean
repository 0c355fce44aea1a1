import Mathlib.Data.List.Forall2
import Mathlib.Data.List.Perm.Basic
import SpeechRom.Proofs.Faults
import SpeechRom.Proofs.Pack.Spelling
import SpeechRom.Proofs.Pack.WellFormed
import SpeechRom.Proofs.Text.Tokens

/-!
# Reading sources, step by step

What a source says are its lines, less those without tokens (`spokenLines`).  Reading
sources is decided by their first fault (`decided_ofSources`), and if there is none the pack
holds what the lines say.

## Strategy

`Draft.Records names lines draft` is the invariant: the draft holds the banks of the names and,
in order, what the lines say.  A token keeps the words (`decided_readToken`), a line adds itself
(`decided_readLine`), and a source adds its lines (`decided_readSource`).  Every step comes with
the fault that decides it, so that the same induction says when reading fails, why, and what it
leaves behind when it does not.
-/

namespace SpeechRom

/-! ## What sources say -/

/-- A line with tokens, and the bank that it is a phrase of. -/
structure SpokenLine where
  bank : String
  tokens : List (List Char)

/-- The tokens of a line. -/
def lineTokens (line : List Char) : List (List Char) :=
  (line.splitOnP (· ∈ Text.blanks)).filter (· ≠ [])

/-- A line without tokens says nothing. -/
def spoken (bank : String) (line : List Char) : List SpokenLine :=
  if lineTokens line = [] then [] else [⟨bank, lineTokens line⟩]

/-- What a source says, line by line. -/
def Source.spokenLines (source : Source) : List SpokenLine :=
  (source.text.toList.splitOn '\n').flatMap (spoken source.bank)

/-- What sources say, in reading order. -/
def spokenLines (sources : List Source) : List SpokenLine :=
  sources.flatMap (·.spokenLines)

/-- The lines of one bank, each with its number among all lines. -/
def linesOf (lines : List SpokenLine) (bank : String) : List (SpokenLine × Nat) :=
  lines.zipIdx.filter (·.1.bank = bank)

/-- The words among tokens, each once, in order of first occurrence. -/
def wordsAmong (tokens : List (List Char)) : List String :=
  ((tokens.filter (Identifier ·)).map String.ofList).eraseDups

theorem fields_eq_lineTokens (line : List Char) : Text.fields line = lineTokens line := by
  have hblank : Text.isBlank = fun c => decide (c ∈ Text.blanks) := by
    funext c
    rw [Bool.eq_iff_iff, decide_eq_true_iff, Text.isBlank_iff_mem_blanks]
  rw [Text.fields_eq_filter_splitOnP, lineTokens, hblank]
  congr 1
  funext piece
  cases piece <;> rfl

theorem mem_spoken_iff {bank : String} {text : List Char} {line : SpokenLine} :
    line ∈ spoken bank text ↔ lineTokens text ≠ [] ∧ line = ⟨bank, lineTokens text⟩ := by
  unfold spoken
  by_cases hsilent : lineTokens text = [] <;> simp [hsilent]

theorem spokenLines_concat (sources : List Source) (source : Source) :
    spokenLines (sources ++ [source]) = spokenLines sources ++ source.spokenLines := by
  simp [spokenLines]

theorem linesOf_concat (lines : List SpokenLine) (line : SpokenLine) (bank : String) :
    linesOf (lines ++ [line]) bank =
      linesOf lines bank ++ if line.bank = bank then [(line, lines.length)] else [] := by
  unfold linesOf
  rw [List.zipIdx_append, List.filter_append]
  by_cases hbank : line.bank = bank <;> simp [hbank]

theorem linesOf_eq_nil_iff {lines : List SpokenLine} {bank : String} :
    linesOf lines bank = [] ↔ ¬ ∃ line ∈ lines, line.bank = bank := by
  unfold linesOf
  rw [List.filter_eq_nil_iff]
  constructor
  · rintro hnone ⟨line, hmem, hbank⟩
    obtain ⟨number, hnumber⟩ := List.mem_iff_getElem?.mp hmem
    exact hnone (line, number) (List.mem_zipIdx_iff_getElem?.mpr hnumber) (by simpa using hbank)
  · intro hnone line hmem hbank
    exact hnone ⟨line.1, List.fst_mem_of_mem_zipIdx hmem, by simpa using hbank⟩

namespace Pack

/-! ## A pack that says what is written -/

/-- What a token of the pack says is what is written. -/
inductive Reads (pack : Pack) : List Char → Token → Prop
  | word {text : List Char} {id : WordId} (hword : Identifier text)
      (hid : pack.word? id = some ⟨id, String.ofList text⟩) : Reads pack text (.word id)
  | bank {reference : List Char} {id : BankId} {bank : Bank} (hreference : Identifier reference)
      (hid : pack.bank? id = some bank) (hname : bank.name = String.ofList reference) :
      Reads pack (braced reference) (.bank id)

/-- A phrase has the number of a line and says its tokens. -/
structure Voices (pack : Pack) (line : SpokenLine × Nat) (phrase : Phrase) : Prop where
  number : phrase.id = ⟨line.2⟩
  tokens : List.Forall₂ pack.Reads line.1.tokens phrase.tokens

/-- The pack has the banks of the names and the words among the tokens, each once and in order of
first occurrence. -/
structure Holds (names : List String) (tokens : List (List Char)) (pack : Pack) : Prop where
  indexed : pack.Indexed
  bank_names : pack.banks.keys = names.eraseDups
  word_texts : pack.words.keys = wordsAmong tokens

theorem Extends.reads {before after : Pack} (hextends : before.Extends after) {text : List Char}
    {token : Token} (hreads : before.Reads text token) : after.Reads text token := by
  cases hreads with
  | word hword hid => exact .word hword (hextends.word? hid)
  | bank hreference hid hname =>
      obtain ⟨grown, hgrown, hsame, _⟩ := hextends.banks _ _ hid
      exact .bank hreference hgrown (hsame.trans hname)

theorem Extends.voices {before after : Pack} (hextends : before.Extends after)
    {line : SpokenLine × Nat} {phrase : Phrase} (hvoices : before.Voices line phrase) :
    after.Voices line phrase :=
  ⟨hvoices.number, hvoices.tokens.imp fun _ _ => hextends.reads⟩

section Holds

variable {names : List String} {tokens : List (List Char)} {pack : Pack}

theorem Indexed.getElem?_keys_banks (hindexed : pack.Indexed) (id : BankId) :
    pack.banks.keys[id.index]? = (pack.bank? id).map (·.name) := by
  unfold OrderedMap.keys bank? OrderedMap.at?
  rw [List.getElem?_map, Option.map_map]
  cases hentry : pack.banks.entries[id.index]? with
  | none => rfl
  | some entry =>
      obtain ⟨_, hname⟩ := hindexed.banks _ entry.1 entry.2 hentry
      rw [Option.map_some, Option.map_some, Function.comp_apply, hname]

/-- The names tell which bank a handle stands for. -/
theorem Holds.getElem?_names (hholds : pack.Holds names tokens) {id : BankId} {name : String} :
    names.eraseDups[id.index]? = some name ↔
      ∃ bank, pack.bank? id = some bank ∧ bank.name = name := by
  rw [← hholds.bank_names, hholds.indexed.getElem?_keys_banks, Option.map_eq_some_iff]

theorem Holds.exists_findBank? (hholds : pack.Holds names tokens) {name : String}
    (hname : name ∈ names) :
    ∃ bank, pack.findBank? name = some bank ∧ pack.bank? bank.id = some bank ∧
      bank.name = name := by
  have hkey : name ∈ pack.banks.keys := by
    rw [hholds.bank_names]
    exact List.mem_eraseDups.mpr hname
  obtain ⟨bank, hfind⟩ : ∃ bank, pack.findBank? name = some bank :=
    Option.ne_none_iff_exists'.mp fun hnone => OrderedMap.get?_eq_none_iff.mp hnone hkey
  exact ⟨bank, hfind, hholds.indexed.bank?_of_mem (OrderedMap.mem_values_of_get? hfind),
    hholds.indexed.name_of_findBank? hfind⟩

theorem Holds.findBank?_eq_none (hholds : pack.Holds names tokens) {name : String}
    (hname : name ∉ names) : pack.findBank? name = none := by
  refine OrderedMap.get?_eq_none_iff.mpr ?_
  rw [hholds.bank_names, List.mem_eraseDups]
  exact hname

/-- A token that is no word leaves the words as they are. -/
theorem Holds.append_reference (hholds : pack.Holds names tokens) {token : List Char}
    (htoken : ¬ Identifier token) : pack.Holds names (tokens ++ [token]) := by
  refine ⟨hholds.indexed, hholds.bank_names, ?_⟩
  rw [hholds.word_texts, wordsAmong, wordsAmong, List.filter_append]
  simp [htoken]

/-- A word that is read is among the words from then on. -/
theorem Holds.enterWord (hholds : pack.Holds names tokens) {text : List Char}
    (hword : Identifier text) :
    (pack.enterWord (String.ofList text)).2.Holds names (tokens ++ [text]) := by
  refine ⟨hholds.indexed.enterWord _, ?_, ?_⟩
  · rw [enterWord_banks]
    exact hholds.bank_names
  · rw [keys_enterWord, hholds.word_texts, wordsAmong, wordsAmong, List.filter_append,
      List.map_append, ← eraseDups_concat]
    simp [hword]

end Holds

/-! ## Reading the tokens of a line -/

/-- After these texts the pack holds their words too, and the tokens say the texts. -/
structure Heard (names : List String) (tokens : List (List Char)) (before : Pack)
    (texts : List (List Char)) (after : Pack) (read : List Token) : Prop where
  holds : after.Holds names (tokens ++ texts)
  kept : before.Extends after
  banks : after.banks = before.banks
  reads : List.Forall₂ after.Reads texts read

section Tokens

variable {names : List String} {tokens texts : List (List Char)} {pack : Pack}

theorem Heard.append {middle after : Pack} {more : List (List Char)} {read others : List Token}
    (hfirst : Heard names tokens pack texts middle read)
    (hsecond : Heard names (tokens ++ texts) middle more after others) :
    Heard names tokens pack (texts ++ more) after (read ++ others) := by
  refine ⟨?_, hfirst.kept.trans hsecond.kept, hsecond.banks.trans hfirst.banks, ?_⟩
  · rw [← List.append_assoc]
    exact hsecond.holds
  · exact List.rel_append (hfirst.reads.imp fun _ _ => hsecond.kept.reads) hsecond.reads

theorem Heard.phraseIds {after : Pack} {read : List Token}
    (hheard : Heard names tokens pack texts after read) : after.phraseIds = pack.phraseIds := by
  rw [Pack.phraseIds, hheard.banks, Pack.phraseIds]

theorem decided_readToken (hholds : pack.Holds names tokens) (bank : String) (line : Nat)
    (text : List Char) :
    Decided (fun read : Token × Pack => Heard names tokens pack [text] read.2 [read.1])
      (tokenFault names bank line text) (readToken bank line pack text) := by
  rcases spelling_cases text with hword | ⟨reference, hreference, rfl⟩ | ⟨hword, hbraced⟩
  · rw [tokenFault_of_identifier hword, readToken, if_pos (isName_iff_identifier.mpr hword)]
    refine .ok ⟨hholds.enterWord hword, extends_enterWord pack _, enterWord_banks pack _, ?_⟩
    exact .cons (.word hword (word?_enterWord hholds.indexed _)) .nil
  · have hword := not_identifier_braced reference
    rw [tokenFault_braced hreference, readToken,
      if_neg (mt isName_iff_identifier.mp hword),
      filter_unbrace?_eq_some_iff.mpr ⟨hreference, rfl⟩]
    by_cases hname : String.ofList reference ∈ names
    · obtain ⟨target, hfind, hid, hnamed⟩ := hholds.exists_findBank? hname
      rw [if_pos hname]
      simp only [hfind]
      exact .ok ⟨hholds.append_reference hword, .refl pack, rfl,
        .cons (.bank hreference hid hnamed) .nil⟩
    · rw [if_neg hname]
      simp only [hholds.findBank?_eq_none hname]
      exact .error _
  · rw [tokenFault_of_unspelled hword hbraced, readToken,
      if_neg (mt isName_iff_identifier.mp hword), filter_unbrace?_eq_none_iff.mpr hbraced]
    exact .error _

theorem decided_readTokens (hholds : pack.Holds names tokens) (bank : String) (line : Nat)
    (texts : List (List Char)) :
    Decided (fun read : Array Token × Pack => Heard names tokens pack texts read.2 read.1.toList)
      (texts.findSome? (tokenFault names bank line)) (readTokens bank line pack texts) := by
  refine Decided.foldlM_findSome? (P := fun texts (read : Array Token × Pack) =>
    Heard names tokens pack texts read.2 read.1.toList) ?_ ?_
  · exact ⟨by rwa [List.append_nil], .refl pack, rfl, .nil⟩
  · rintro before text ⟨read, middle⟩ _ hbefore
    refine (decided_readToken hbefore.holds bank line text).bind_ok ?_
    rintro ⟨token, after⟩ hnext
    refine ⟨_, rfl, ?_⟩
    rw [Array.toList_push]
    exact hbefore.append hnext

end Tokens

/-! ## Reading a line -/

/-- The draft holds the banks of the names, and what it says is what the lines say. -/
structure Draft.Records (names : List String) (lines : List SpokenLine) (draft : Draft) :
    Prop where
  holds : draft.pack.Holds names (lines.flatMap (·.tokens))
  next : draft.nextPhrase = lines.length
  phrases : ∀ bank ∈ draft.pack.banks.values,
    List.Forall₂ draft.pack.Voices (linesOf lines bank.name) bank.phrases
  numbers : draft.pack.phraseIds.Perm ((List.range lines.length).map PhraseId.mk)

section Lines

variable {names : List String} {lines : List SpokenLine} {pack : Pack} {number : Nat}

/-- The phrases so far still say their lines when more words are known. -/
theorem Draft.Records.voiced (hrecords : Draft.Records names lines ⟨pack, number⟩)
    {texts : List (List Char)} {after : Pack} {read : List Token}
    (hheard : Heard names (lines.flatMap (·.tokens)) pack texts after read) {bank : Bank}
    (hbank : bank ∈ after.banks.values) :
    List.Forall₂ after.Voices (linesOf lines bank.name) bank.phrases := by
  rw [hheard.banks] at hbank
  exact (hrecords.phrases bank hbank).imp fun _ _ => hheard.kept.voices

/-- A line becomes the last phrase of its bank. -/
theorem Draft.Records.addPhrase (hrecords : Draft.Records names lines ⟨pack, number⟩)
    {texts : List (List Char)} {after : Pack} {read : List Token}
    (hheard : Heard names (lines.flatMap (·.tokens)) pack texts after read) {id : BankId}
    {name : String} (hid : names.eraseDups[id.index]? = some name) :
    Draft.Records names (lines ++ [⟨name, texts⟩])
      ⟨after.addPhrase id ⟨⟨number⟩, read⟩, number + 1⟩ := by
  have hnumber : number = lines.length := hrecords.next
  subst hnumber
  obtain ⟨bank, hbank, hname⟩ := hheard.holds.getElem?_names.mp hid
  have hindexed := hheard.holds.indexed
  have hindexed' := hindexed.addPhrase id ⟨⟨lines.length⟩, read⟩
  have hextends := extends_addPhrase after id ⟨⟨lines.length⟩, read⟩
  have hkept : ∀ other ∈ after.banks.values,
      List.Forall₂ (after.addPhrase id ⟨⟨lines.length⟩, read⟩).Voices (linesOf lines other.name)
        other.phrases :=
    fun _ hother => (hrecords.voiced hheard hother).imp fun _ _ => hextends.voices
  refine ⟨⟨hindexed', ?_, ?_⟩, by simp, ?_, ?_⟩
  · rw [show (after.addPhrase id _).banks.keys = after.banks.keys from
      OrderedMap.keys_modifyAt _ _ _]
    exact hheard.holds.bank_names
  · rw [List.flatMap_append, List.flatMap_singleton]
    exact hheard.holds.word_texts
  · intro other hother
    have hgrown := hindexed'.bank?_of_mem hother
    rw [bank?_addPhrase] at hgrown
    rw [linesOf_concat]
    split at hgrown
    · -- the bank that the phrase is added to
      rename_i hsame
      rw [hsame, hbank] at hgrown
      cases hgrown
      rw [if_pos hname.symm]
      refine List.rel_append (hkept bank (mem_banks_of_bank? hbank)) (.cons ⟨rfl, ?_⟩ .nil)
      exact hheard.reads.imp fun _ _ => hextends.reads
    · -- another bank has another name
      rename_i hdifferent
      have hother' := mem_banks_of_bank? hgrown
      have hnames : name ≠ other.name := by
        intro heq
        have hfind := hindexed.findBank?_of_mem (mem_banks_of_bank? hbank)
        rw [hname, heq, hindexed.findBank?_of_mem hother'] at hfind
        cases hfind
        exact hdifferent (hindexed.id_of_bank? hbank)
      rw [if_neg hnames, List.append_nil]
      exact hkept other hother'
  · have hperm := perm_phraseIds_addPhrase (OrderedMap.lt_size_of_at? hbank)
      ⟨⟨lines.length⟩, read⟩
    rw [hheard.phraseIds] at hperm
    rw [List.length_append, List.length_singleton, List.range_succ, List.map_append]
    exact hperm.trans ((hrecords.numbers.cons _).trans (List.perm_append_singleton _ _).symm)

theorem decided_readLine {draft : Draft} (hrecords : draft.Records names lines) {id : BankId}
    {name : String} (hid : names.eraseDups[id.index]? = some name) (line : List Char × Nat) :
    Decided (Draft.Records names (lines ++ spoken name line.1))
      ((Text.fields line.1).findSome? (tokenFault names name line.2))
      (readLine name id draft line) := by
  obtain ⟨pack, number⟩ := draft
  refine (decided_readTokens hrecords.holds name line.2 _).bind_ok ?_
  rintro ⟨read, after⟩ hheard
  rw [fields_eq_lineTokens] at hheard
  have hsilent : read.isEmpty = true ↔ lineTokens line.1 = [] := by
    have hlength := hheard.reads.length_eq
    rw [Array.isEmpty_iff, ← List.length_eq_zero_iff, hlength, Array.length_toList,
      Array.size_eq_zero_iff]
  dsimp only at hheard ⊢
  unfold spoken
  by_cases hread : lineTokens line.1 = []
  · refine ⟨⟨after, number⟩, by rw [if_pos (hsilent.mpr hread)]; rfl, ?_⟩
    rw [if_pos hread, List.append_nil]
    have hholds := hheard.holds
    rw [hread, List.append_nil] at hholds
    refine ⟨hholds, hrecords.next, fun bank => hrecords.voiced hheard, ?_⟩
    rw [hheard.phraseIds]
    exact hrecords.numbers
  · refine ⟨_, by rw [if_neg (mt hsilent.mp hread)]; rfl, ?_⟩
    rw [if_neg hread]
    exact hrecords.addPhrase hheard hid

end Lines

/-! ## Reading a source -/

/-- What is wrong with the tokens of a source. -/
def textFault (names : List String) (source : Source) : Option BuildError :=
  (Text.numberedFields 1 source.text.toList).findSome? fun field =>
    tokenFault names source.bank field.2 field.1

/-- What is wrong with a source that is read after others. -/
def sourceFault (names : List String) (before : List Source) (source : Source) :
    Option BuildError :=
  (textFault names source).or
    (if ∃ line ∈ spokenLines (before ++ [source]), line.bank = source.bank then none
      else some (.emptyBank source.bank))

theorem sourceFault_eq_none_iff {names : List String} {before : List Source} {source : Source} :
    sourceFault names before source = none ↔
      textFault names source = none ∧
        ∃ line ∈ spokenLines (before ++ [source]), line.bank = source.bank := by
  rw [sourceFault, Option.or_eq_none_iff]
  refine and_congr_right fun _ => ?_
  split
  · rename_i hspoken
    exact iff_of_true rfl hspoken
  · rename_i hsilent
    exact iff_of_false (Option.some_ne_none _) hsilent

/-- The first fault of a text is the first fault of the first line that has one. -/
theorem textFault_eq_findSome?_lines (names : List String) (source : Source) :
    textFault names source = ((Text.lines source.text.toList).zipIdx 1).findSome? fun line =>
      (Text.fields line.1).findSome? (tokenFault names source.bank line.2) := by
  rw [textFault, Text.numberedFields, findSome?_flatMap]
  congr 1
  funext line
  rw [List.findSome?_map]
  rfl

variable {names : List String}

theorem decided_readSource {before : List Source} {draft : Draft}
    (hrecords : draft.Records names (spokenLines before)) {source : Source}
    (hsource : source.bank ∈ names) :
    Decided (Draft.Records names (spokenLines (before ++ [source])))
      (sourceFault names before source) (readSource draft source) := by
  obtain ⟨bank, hfind, hbank, hname⟩ := hrecords.holds.exists_findBank? hsource
  have hid := hrecords.holds.getElem?_names.mpr ⟨bank, hbank, hname⟩
  have hlines : Decided (Draft.Records names (spokenLines (before ++ [source])))
      (textFault names source)
      (((Text.lines source.text.toList).zipIdx 1).foldlM (readLine source.bank bank.id) draft) := by
    have hsaid : spokenLines (before ++ [source]) = spokenLines before ++
        ((Text.lines source.text.toList).zipIdx 1).flatMap fun line =>
          spoken source.bank line.1 := by
      rw [spokenLines_concat, Source.spokenLines, ← Text.lines_eq_splitOn,
        ← List.flatMap_map Prod.fst, List.zipIdx_map_fst]
    rw [textFault_eq_findSome?_lines, hsaid]
    refine Decided.foldlM_findSome? (P := fun read : List (List Char × Nat) => Draft.Records names
      (spokenLines before ++ read.flatMap fun line => spoken source.bank line.1)) ?_ ?_
    · rwa [List.flatMap_nil, List.append_nil]
    · intro read line state _ hstate
      rw [List.flatMap_append, List.flatMap_singleton, ← List.append_assoc]
      exact decided_readLine hstate hid line
  unfold readSource
  rw [enterBank_of_findBank? hfind]
  refine hlines.bind fun read hread => ?_
  -- the bank is judged by the phrases that it has by now
  obtain ⟨judged, hjudged, hjudgedName⟩ := hread.holds.getElem?_names.mp hid
  have hphrases := hread.phrases judged (mem_banks_of_bank? hjudged)
  have hempty : judged.phrases.isEmpty = true ↔
      ¬ ∃ line ∈ spokenLines (before ++ [source]), line.bank = source.bank := by
    rw [hjudgedName] at hphrases
    rw [← linesOf_eq_nil_iff, List.isEmpty_iff, ← List.length_eq_zero_iff,
      ← hphrases.length_eq, List.length_eq_zero_iff]
  simp only [hjudged]
  by_cases hspoken : ∃ line ∈ spokenLines (before ++ [source]), line.bank = source.bank
  · rw [if_pos hspoken, if_neg fun hnone => hempty.mp hnone hspoken]
    exact .ok hread
  · rw [if_neg hspoken, if_pos (hempty.mpr hspoken)]
    exact .error _

/-! ## Reading all sources -/

/-- What is wrong with the name of the bank of a source. -/
def nameFault (source : Source) : Option BuildError :=
  if Identifier source.bank.toList then none
  else some (.badToken source.bank 0 source.bank)

/-- What is wrong with sources: the names of all banks go before the texts. -/
def sourcesFault (sources : List Source) : Option BuildError :=
  (sources.findSome? nameFault).or
    (firstFault (sourceFault (sources.map (·.bank))) [] sources)

/-- The pack has the banks of the names, and nothing in them. -/
structure Declares (names : List String) (pack : Pack) : Prop where
  holds : pack.Holds names []
  silent : ∀ bank ∈ pack.banks.values, bank.phrases = []

theorem declares_empty : Pack.empty.Declares [] :=
  ⟨⟨indexed_empty, rfl, rfl⟩, fun _ hbank => absurd hbank List.not_mem_nil⟩

theorem Declares.enterBank {pack : Pack} (hdeclares : pack.Declares names) (name : String) :
    (pack.enterBank name).2.Declares (names ++ [name]) := by
  have hkeys := keys_enterBank pack name
  have hindexed := hdeclares.holds.indexed.enterBank name
  rw [hdeclares.holds.bank_names, ← eraseDups_concat] at hkeys
  unfold Pack.enterBank at hkeys hindexed ⊢
  split
  · rename_i hget
    simp only [hget] at hkeys
    exact ⟨⟨hdeclares.holds.indexed, hkeys, hdeclares.holds.word_texts⟩, hdeclares.silent⟩
  · rename_i hnew
    simp only [hnew] at hkeys hindexed
    refine ⟨⟨hindexed, hkeys, hdeclares.holds.word_texts⟩, ?_⟩
    exact OrderedMap.forall_mem_values_insert hdeclares.silent rfl

theorem decided_declareSource {pack : Pack} (hdeclares : pack.Declares names) (source : Source) :
    Decided (Declares (names ++ [source.bank])) (nameFault source) (declareSource pack source) := by
  unfold nameFault declareSource
  by_cases hname : Identifier source.bank.toList
  · rw [if_pos hname, if_pos (isName_iff_identifier.mpr hname)]
    exact .ok (hdeclares.enterBank source.bank)
  · rw [if_neg hname, if_neg (mt isName_iff_identifier.mp hname)]
    exact .error _

/-- Banks without phrases are what is there before any line. -/
theorem Declares.records {pack : Pack} (hdeclares : pack.Declares names) :
    Draft.Records names (spokenLines []) ⟨pack, 0⟩ := by
  refine ⟨hdeclares.holds, rfl, fun bank hbank => ?_, ?_⟩
  · rw [hdeclares.silent bank hbank]
    exact .nil
  · have hnone : pack.phraseIds = [] := by
      refine List.flatMap_eq_nil_iff.mpr fun bank hbank => ?_
      rw [hdeclares.silent bank hbank, List.map_nil]
    rw [hnone]
    exact .nil

theorem decided_readSources {sources : List Source} {pack : Pack} (hdeclares : pack.Declares names)
    (hnames : ∀ source ∈ sources, source.bank ∈ names) :
    Decided (Draft.Records names (spokenLines sources)) (firstFault (sourceFault names) [] sources)
      (sources.foldlM readSource ⟨pack, 0⟩) :=
  Decided.foldlM (P := fun before => Draft.Records names (spokenLines before)) hdeclares.records
    fun _ source _ hmem hdraft => decided_readSource hdraft (hnames source hmem)

/-- **Reading sources fails with their first fault**, and without a fault the pack records what
they say. -/
theorem decided_ofSources (sources : List Source) :
    Decided
      (fun pack => ∃ next, Draft.Records (sources.map (·.bank)) (spokenLines sources) ⟨pack, next⟩)
      (sourcesFault sources) (ofSources sources) := by
  have hdeclared : Decided (Declares (sources.map (·.bank))) (sources.findSome? nameFault)
      (sources.foldlM declareSource Pack.empty) := by
    refine Decided.foldlM_findSome?
      (P := fun before : List Source => Declares (before.map (·.bank))) declares_empty ?_
    intro before source pack _ hpack
    rw [List.map_append, List.map_singleton]
    exact decided_declareSource hpack source
  refine hdeclared.bind fun declared hdeclares => ?_
  have hread := decided_readSources hdeclares fun source hmem => List.mem_map_of_mem hmem
  exact hread.bind_ok fun draft hdraft => ⟨draft.pack, rfl, draft.nextPhrase, hdraft⟩

end Pack

end SpeechRom
