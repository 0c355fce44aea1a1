import Mathlib.Data.List.Induction
import Mathlib.Data.Set.Function
import SpeechRom.Proofs.Pack.Contents
import SpeechRom.Proofs.Pack.Violations
import SpeechRom.Proofs.Text.Substitution

/-!
# Packs under other names

A `Renaming` gives banks new names and words new texts, each without regard to the other.  Sources
that say the same under the new names (`SaysAs`) are read to the same pack under the new names
(`exists_isRenamed`): words and banks keep their places and handles, phrases their numbers and
tokens.

## Strategy

What a pack holds is fixed by what its sources say (`Draft.Records`).  The names of a pack are the
names of the sources and the words of the lines without repetitions, which a renaming that is
injective on them carries along (`wordsAmong_rename`, `linesOf_rename`); and a token is said in
one way only (`rightUnique_reads`), so phrases that voice corresponding lines are equal.
-/

namespace SpeechRom

/-! ## Renamings -/

/-- New names for banks and new texts for words. -/
structure Renaming where
  bank : String → String
  word : String → String

namespace Renaming

/-- The token that says the same under the new names. -/
def token (r : Renaming) (token : List Char) : List Char :=
  match Pack.unbrace? token with
  | some reference => Pack.braced (r.bank (String.ofList reference)).toList
  | none => (r.word (String.ofList token)).toList

/-- The line that says the same under the new names. -/
def line (r : Renaming) (line : SpokenLine) : SpokenLine :=
  ⟨r.bank line.bank, line.tokens.map r.token⟩

/-- The source that says the same under the new names; blanks and line breaks stay. -/
def source (r : Renaming) (source : Source) : Source :=
  ⟨r.bank source.bank, String.ofList (Text.substitute r.token source.text.toList)⟩

/-- The word under its new text. -/
def toWord (r : Renaming) (word : Word) : Word := { word with text := r.word word.text }

/-- The bank under its new name. -/
def toBank (r : Renaming) (bank : Bank) : Bank := { bank with name := r.bank bank.name }

/-- The renaming gives different identifiers to different names and to different words. -/
structure Suits (r : Renaming) (names words : List String) : Prop where
  bank_injOn : Set.InjOn r.bank {name | name ∈ names}
  word_injOn : Set.InjOn r.word {word | word ∈ words}
  bank_identifier : ∀ name ∈ names, Identifier (r.bank name).toList
  word_identifier : ∀ word ∈ words, Identifier (r.word word).toList

/-- All names stay as they are. -/
def keep : Renaming := ⟨id, id⟩

theorem token_keep (token : List Char) : keep.token token = token := by
  unfold Renaming.token
  split
  · rename_i reference hunbrace
    rw [Pack.unbrace?_eq_some_iff.mp hunbrace]
    exact congrArg Pack.braced String.toList_ofList
  · exact String.toList_ofList

theorem line_keep (line : SpokenLine) : keep.line line = line := by
  have htokens : line.tokens.map keep.token = line.tokens := by
    rw [funext token_keep, List.map_id']
  exact congrArg (SpokenLine.mk line.bank) htokens

variable {r : Renaming} {names words : List String} {token reference : List Char}

theorem token_braced : r.token (Pack.braced reference) =
    Pack.braced (r.bank (String.ofList reference)).toList := by
  rw [Renaming.token, Pack.unbrace?_eq_some_iff.mpr rfl]

theorem token_of_identifier (hword : Identifier token) :
    r.token token = (r.word (String.ofList token)).toList := by
  have hunbrace : Pack.unbrace? token = none := by
    rw [Option.eq_none_iff_forall_ne_some]
    intro reference hsome
    rw [Pack.unbrace?_eq_some_iff] at hsome
    exact Pack.not_identifier_braced reference (hsome ▸ hword)
  rw [Renaming.token, hunbrace]

/-- Tokens of the grammar stay tokens of the grammar. -/
theorem Suits.readable_token (hsuits : r.Suits names words)
    (htoken : Pack.Readable names token)
    (hword : Identifier token → String.ofList token ∈ words) :
    Pack.Readable (names.map r.bank) (r.token token) := by
  rcases htoken with hidentifier | ⟨reference, _, hname, rfl⟩
  · rw [token_of_identifier hidentifier]
    exact .inl (hsuits.word_identifier _ (hword hidentifier))
  · rw [token_braced]
    refine .inr ⟨_, hsuits.bank_identifier _ hname, ?_, rfl⟩
    rw [String.ofList_toList]
    exact List.mem_map_of_mem hname

/-- A word stays a word, and a reference stays a reference. -/
theorem Suits.identifier_token_iff (hsuits : r.Suits names words)
    (htoken : Pack.Readable names token)
    (hword : Identifier token → String.ofList token ∈ words) :
    Identifier (r.token token) ↔ Identifier token := by
  rcases htoken with hidentifier | ⟨reference, _, _, rfl⟩
  · rw [token_of_identifier hidentifier]
    exact iff_of_true (hsuits.word_identifier _ (hword hidentifier)) hidentifier
  · rw [token_braced]
    exact iff_of_false (Pack.not_identifier_braced _) (Pack.not_identifier_braced _)

end Renaming

/-! ## Words and lines under other names -/

section Lines

variable {r : Renaming} {names : List String}

/-- The words of renamed tokens are the renamed words. -/
theorem wordsAmong_rename {tokens : List (List Char)} (hsuits : r.Suits names (wordsAmong tokens))
    (htokens : ∀ token ∈ tokens, Pack.Readable names token) :
    wordsAmong (tokens.map r.token) = (wordsAmong tokens).map r.word := by
  have hword : ∀ token ∈ tokens, Identifier token → String.ofList token ∈ wordsAmong tokens :=
    fun token hmem hidentifier => Pack.mem_wordsAmong_iff.mpr ⟨token, hmem, hidentifier, rfl⟩
  have hkept : (tokens.map r.token).filter (Identifier ·) =
      (tokens.filter (Identifier ·)).map r.token := by
    rw [List.filter_map]
    refine congrArg (List.map r.token) (List.filter_congr fun token hmem => ?_)
    rw [Function.comp_apply, decide_eq_decide]
    exact hsuits.identifier_token_iff (htokens token hmem) (hword token hmem)
  have htexts : ((tokens.filter (Identifier ·)).map r.token).map String.ofList =
      ((tokens.filter (Identifier ·)).map String.ofList).map r.word := by
    rw [List.map_map, List.map_map]
    refine List.map_congr_left fun token hmem => ?_
    have hidentifier : Identifier token := by simpa using (List.mem_filter.mp hmem).2
    rw [Function.comp_apply, Function.comp_apply, Renaming.token_of_identifier hidentifier,
      String.ofList_toList]
  rw [wordsAmong, hkept, htexts, wordsAmong]
  refine eraseDups_map_of_injOn (hsuits.word_injOn.mono fun text htext => ?_)
  exact List.mem_eraseDups.mpr htext

theorem flatMap_tokens_rename (lines : List SpokenLine) :
    (lines.map r.line).flatMap (·.tokens) = (lines.flatMap (·.tokens)).map r.token := by
  rw [List.flatMap_map, List.map_flatMap]
  rfl

/-- The renamed lines of a bank are the lines of the renamed bank. -/
theorem linesOf_rename (hinj : Set.InjOn r.bank {name | name ∈ names}) {lines : List SpokenLine}
    (hlines : ∀ line ∈ lines, line.bank ∈ names) {name : String} (hname : name ∈ names) :
    linesOf (lines.map r.line) (r.bank name) =
      (linesOf lines name).map (Prod.map r.line id) := by
  unfold linesOf
  rw [List.zipIdx_map, List.filter_map]
  refine congrArg (List.map _) (List.filter_congr fun line hmem => ?_)
  rw [Function.comp_apply, decide_eq_decide]
  exact hinj.eq_iff (hlines line.1 (List.fst_mem_of_mem_zipIdx hmem)) hname

end Lines

namespace Pack

/-! ## Tokens have no blanks -/

theorem solid_of_identifier {text : List Char} (htext : Identifier text) :
    ∀ c ∈ text, c ∉ Text.blanks := by
  have hblanks : Text.blanks.all (fun c => !isNameLetter c) = true := by decide
  intro c hc hblank
  have hnot := List.all_eq_true.mp hblanks c hblank
  rw [isNameLetter_of_mem htext hc] at hnot
  cases hnot

/-- What can be read is a token: not empty, and without blanks. -/
theorem Readable.solid {names : List String} {text : List Char} (htext : Readable names text) :
    text ≠ [] ∧ ∀ c ∈ text, c ∉ Text.blanks := by
  rcases htext with hword | ⟨reference, hreference, _, rfl⟩
  · exact ⟨hword.1, solid_of_identifier hword⟩
  · refine ⟨List.cons_ne_nil _ _, ?_⟩
    rw [braced, List.forall_mem_cons, List.forall_mem_append, List.forall_mem_singleton]
    exact ⟨by decide, solid_of_identifier hreference, by decide⟩

/-! ## Packs under other names -/

/-- The second pack is the first one under other names: what stands where, with which handles,
numbers and tokens, is the same. -/
structure IsRenamed (r : Renaming) (pack renamed : Pack) : Prop where
  words : renamed.words.entries = pack.words.entries.map (Prod.map r.word r.toWord)
  banks : renamed.banks.entries = pack.banks.entries.map (Prod.map r.bank r.toBank)

theorem IsRenamed.eq_of_keep {pack renamed : Pack}
    (hrenamed : IsRenamed .keep pack renamed) : renamed = pack := by
  have hwords : renamed.words = pack.words :=
    OrderedMap.ext_entries (hrenamed.words.trans (List.map_id' _))
  have hbanks : renamed.banks = pack.banks :=
    OrderedMap.ext_entries (hrenamed.banks.trans (List.map_id' _))
  cases renamed
  cases pack
  cases hwords
  cases hbanks
  rfl

section Reads

variable {r : Renaming} {pack renamed : Pack} {text : List Char} {token other : Token}

/-- A token is written in one way only what it says: two tokens for one text are equal. -/
theorem Reads.unique (hindexed : pack.Indexed) (hreads : pack.Reads text token)
    (hother : pack.Reads text other) : token = other := by
  cases hother with
  | word hword hid => exact hreads.eq_word hindexed hword (mem_words_of_word? hid) rfl
  | @bank reference id bank hreference hid hname =>
      generalize htext : braced reference = text at hreads
      cases hreads with
      | word hword _ =>
          rw [← htext] at hword
          exact absurd hword (not_identifier_braced reference)
      | @bank _ first found _ hfirst hfound =>
          rw [← braced_injective htext, ← hname] at hfound
          have hsame := hindexed.findBank?_of_mem (mem_banks_of_bank? hfirst)
          rw [hfound, hindexed.findBank?_of_mem (mem_banks_of_bank? hid)] at hsame
          cases hsame
          rw [← hindexed.id_of_bank? hfirst, hindexed.id_of_bank? hid]

theorem rightUnique_reads (hindexed : pack.Indexed) : Relator.RightUnique pack.Reads :=
  fun _ _ _ hreads hother => hreads.unique hindexed hother

theorem rightUnique_voices (hindexed : pack.Indexed) : Relator.RightUnique pack.Voices := by
  rintro line ⟨id, tokens⟩ ⟨otherId, others⟩ ⟨hnumber, htokens⟩ ⟨hotherNumber, hothers⟩
  have hid : id = otherId := hnumber.trans hotherNumber.symm
  have hsame : tokens = others :=
    List.right_unique_forall₂' (rightUnique_reads hindexed) htokens hothers
  rw [hid, hsame]

/-- Words that are filed by position are known by their texts. -/
theorem Indexed.entries_words (hindexed : pack.Indexed) :
    pack.words.entries = pack.words.keys.zipIdx.map fun key => (key.1, ⟨⟨key.2⟩, key.1⟩) := by
  refine List.ext_getElem? fun position => ?_
  rw [List.getElem?_map, List.getElem?_zipIdx, OrderedMap.keys, List.getElem?_map, Option.map_map,
    Option.map_map]
  cases hentry : pack.words.entries[position]? with
  | none => rfl
  | some entry =>
      have hfiled := hindexed.words position entry.1 entry.2 hentry
      rw [Option.map_some, Function.comp_apply, Function.comp_apply, Nat.zero_add, ← hfiled]

/-- What reads a token in the first pack reads the renamed token in the second one. -/
theorem Reads.rename (hindexed : pack.Indexed) (hrenamed : renamed.Indexed)
    (hwords : renamed.words.keys = pack.words.keys.map r.word)
    (hbanks : renamed.banks.keys = pack.banks.keys.map r.bank)
    (hsuits : r.Suits pack.banks.keys pack.words.keys) (hreads : pack.Reads text token) :
    renamed.Reads (r.token text) token := by
  cases hreads with
  | @word _ id hword hid =>
      have hkey : pack.words.keys[id.index]? = some (String.ofList text) := by
        obtain ⟨entry, hentry, hvalue⟩ := Option.map_eq_some_iff.mp hid
        have hfiled := hindexed.words id.index entry.1 entry.2 hentry
        rw [OrderedMap.keys, List.getElem?_map, hentry, Option.map_some]
        rw [hfiled] at hvalue
        exact congrArg some (congrArg Word.text hvalue)
      have hrenamedKey : renamed.words.keys[id.index]? =
          some (r.word (String.ofList text)) := by
        rw [hwords, List.getElem?_map, hkey, Option.map_some]
      rw [Renaming.token_of_identifier hword]
      refine .word (hsuits.word_identifier _ (List.mem_of_getElem? hkey)) ?_
      rw [String.ofList_toList, word?, OrderedMap.at?, hrenamed.entries_words,
        List.getElem?_map, List.getElem?_zipIdx, hrenamedKey, Nat.zero_add]
      rfl
  | @bank reference id bank hreference hid hname =>
      have hkey : pack.banks.keys[id.index]? = some (String.ofList reference) := by
        rw [hindexed.getElem?_keys_banks, hid, Option.map_some, hname]
      have hrenamedKey := hrenamed.getElem?_keys_banks id
      rw [hbanks, List.getElem?_map, hkey, Option.map_some, eq_comm,
        Option.map_eq_some_iff] at hrenamedKey
      obtain ⟨found, hfound, hfoundName⟩ := hrenamedKey
      rw [Renaming.token_braced]
      refine .bank (hsuits.bank_identifier _ (List.mem_of_getElem? hkey)) hfound ?_
      rw [hfoundName, String.ofList_toList]

end Reads

/-! ## What is recorded under other names -/

section Records

variable {r : Renaming} {names : List String} {lines : List SpokenLine} {draft renamed : Draft}

/-- Banks whose names correspond have the same phrases: these voice the lines of the bank, once
under the old names and once under the new ones. -/
theorem Draft.Records.phrases_eq (hrecords : draft.Records names lines)
    (hrenamed : renamed.Records (names.map r.bank) (lines.map r.line))
    (hinj : Set.InjOn r.bank {name | name ∈ names}) (hnames : ∀ line ∈ lines, line.bank ∈ names)
    (hreads : ∀ text token, draft.pack.Reads text token →
      renamed.pack.Reads (r.token text) token)
    {bank other : Bank} (hbank : bank ∈ draft.pack.banks.values)
    (hother : other ∈ renamed.pack.banks.values) (hname : other.name = r.bank bank.name) :
    other.phrases = bank.phrases := by
  have hvoices := hrenamed.phrases other hother
  rw [hname, linesOf_rename hinj hnames (hrecords.name_mem hbank)] at hvoices
  refine List.right_unique_forall₂' (rightUnique_voices hrenamed.holds.indexed) hvoices ?_
  rw [List.forall₂_map_left_iff]
  refine (hrecords.phrases bank hbank).imp fun line phrase hvoice => ⟨hvoice.number, ?_⟩
  exact List.forall₂_map_left_iff.mpr (hvoice.tokens.imp hreads)

/-- The words and banks of renamed lines are the renamed words and banks, in the same order. -/
theorem Draft.Records.keys_renamed (hrecords : draft.Records names lines)
    (hrenamed : renamed.Records (names.map r.bank) (lines.map r.line))
    (htokens : ∀ token ∈ lines.flatMap (·.tokens), Readable names token)
    (hsuits : r.Suits names draft.pack.words.keys) :
    renamed.pack.words.keys = draft.pack.words.keys.map r.word ∧
      renamed.pack.banks.keys = draft.pack.banks.keys.map r.bank := by
  constructor
  · have hamong := hrecords.holds.word_texts
    rw [hrenamed.holds.word_texts, flatMap_tokens_rename, hamong]
    exact wordsAmong_rename (hamong ▸ hsuits) htokens
  · rw [hrenamed.holds.bank_names, hrecords.holds.bank_names,
      eraseDups_map_of_injOn hsuits.bank_injOn]

/-- Whatever reads a token of the lines reads the renamed token. -/
theorem Draft.Records.reads_renamed (hrecords : draft.Records names lines)
    (hrenamed : renamed.Records (names.map r.bank) (lines.map r.line))
    (htokens : ∀ token ∈ lines.flatMap (·.tokens), Readable names token)
    (hsuits : r.Suits names draft.pack.words.keys) (text : List Char) (token : Token)
    (hreads : draft.pack.Reads text token) : renamed.pack.Reads (r.token text) token := by
  obtain ⟨hwords, hbanks⟩ := hrecords.keys_renamed hrenamed htokens hsuits
  have hmem : ∀ name ∈ draft.pack.banks.keys, name ∈ names := fun name hname => by
    rwa [hrecords.holds.bank_names, List.mem_eraseDups] at hname
  have hkeys : r.Suits draft.pack.banks.keys draft.pack.words.keys :=
    ⟨hsuits.bank_injOn.mono hmem, hsuits.word_injOn,
      fun name hname => hsuits.bank_identifier name (hmem name hname), hsuits.word_identifier⟩
  exact hreads.rename hrecords.holds.indexed hrenamed.holds.indexed hwords hbanks hkeys

/-- **What is read of renamed lines is the renamed pack.** -/
theorem Draft.Records.isRenamed (hrecords : draft.Records names lines)
    (hrenamed : renamed.Records (names.map r.bank) (lines.map r.line))
    (hnames : ∀ line ∈ lines, line.bank ∈ names)
    (htokens : ∀ token ∈ lines.flatMap (·.tokens), Readable names token)
    (hsuits : r.Suits names draft.pack.words.keys) : IsRenamed r draft.pack renamed.pack := by
  have hindexed := hrecords.holds.indexed
  have hindexed' := hrenamed.holds.indexed
  obtain ⟨hwords, hbanks⟩ := hrecords.keys_renamed hrenamed htokens hsuits
  refine ⟨?_, List.ext_getElem? fun position => ?_⟩
  · rw [hindexed'.entries_words, hindexed.entries_words, hwords, List.zipIdx_map, List.map_map,
      List.map_map]
    rfl
  · -- position by position: names correspond, handles are positions, and phrases are equal
    have hkey := congrArg (·[position]?) hbanks
    simp only [OrderedMap.keys, List.getElem?_map] at hkey
    rw [List.getElem?_map]
    cases hentry : draft.pack.banks.entries[position]? with
    | none => simpa [hentry] using hkey
    | some entry =>
        obtain ⟨name, bank⟩ := entry
        rw [hentry, Option.map_some, Option.map_some, Option.map_eq_some_iff] at hkey
        obtain ⟨⟨otherName, other⟩, hother, rfl⟩ := hkey
        obtain ⟨hid, rfl⟩ := hindexed.banks position name bank hentry
        obtain ⟨hotherId, hotherName⟩ := hindexed'.banks position _ other hother
        have hphrases : other.phrases = bank.phrases :=
          hrecords.phrases_eq hrenamed hsuits.bank_injOn hnames
            (hrecords.reads_renamed hrenamed htokens hsuits)
            (List.mem_map_of_mem (List.mem_of_getElem? hentry))
            (List.mem_map_of_mem (List.mem_of_getElem? hother)) hotherName
        rw [hother, Option.map_some, Prod.map_apply, Renaming.toBank, ← hphrases, hid, ← hotherId,
          ← hotherName]

end Records

/-! ## Sources that say the same under other names -/

/-- The other source says what the first one says, under the new names. -/
structure SaysAs (r : Renaming) (source other : Source) : Prop where
  bank : other.bank = r.bank source.bank
  lines : other.spokenLines = source.spokenLines.map r.line

section SaysAs

variable {r : Renaming} {names words : List String} {sources others : List Source}

theorem map_bank_of_saysAs (hothers : List.Forall₂ (SaysAs r) sources others) :
    others.map (·.bank) = (sources.map (·.bank)).map r.bank := by
  induction hothers with
  | nil => rfl
  | cons hspoken _ ih => rw [List.map_cons, List.map_cons, List.map_cons, hspoken.bank, ih]

theorem spokenLines_of_saysAs (hothers : List.Forall₂ (SaysAs r) sources others) :
    spokenLines others = (spokenLines sources).map r.line := by
  unfold spokenLines
  induction hothers with
  | nil => rfl
  | cons hspoken _ ih => rw [List.flatMap_cons, List.flatMap_cons, List.map_append, hspoken.lines, ih]

/-- Nothing is wrong with a text when all tokens of its lines can be read. -/
theorem textFault_eq_none_iff_lines {source : Source} :
    textFault names source = none ↔
      ∀ line ∈ source.spokenLines, ∀ token ∈ line.tokens, Readable names token := by
  rw [textFault_eq_findSome?_lines, Source.spokenLines, ← Text.lines_eq_splitOn,
    List.findSome?_eq_none_iff]
  constructor
  · intro hnone line hline token htoken
    obtain ⟨text, htext, hspoken⟩ := List.mem_flatMap.mp hline
    obtain ⟨_, rfl⟩ := mem_spoken_iff.mp hspoken
    obtain ⟨number, hnumber⟩ := List.mem_iff_getElem?.mp htext
    have hfields := hnone (text, 1 + number)
      (List.mk_add_mem_zipIdx_iff_getElem?.mpr hnumber)
    rw [fields_eq_lineTokens, List.findSome?_eq_none_iff] at hfields
    exact tokenFault_eq_none_iff.mp (hfields token htoken)
  · rintro hreadable ⟨text, number⟩ hmem
    rw [fields_eq_lineTokens, List.findSome?_eq_none_iff]
    intro token htoken
    refine tokenFault_eq_none_iff.mpr (hreadable ⟨source.bank, lineTokens text⟩ ?_ token htoken)
    refine List.mem_flatMap.mpr ⟨text, List.fst_mem_of_mem_zipIdx hmem, ?_⟩
    exact mem_spoken_iff.mpr ⟨List.ne_nil_of_mem htoken, rfl⟩

theorem firstFault_eq_none_of_saysAs (hsuits : r.Suits names words)
    (hothers : List.Forall₂ (SaysAs r) sources others)
    (hwords : ∀ line ∈ spokenLines sources, ∀ token ∈ line.tokens, Identifier token →
      String.ofList token ∈ words) {seen seenOthers : List Source}
    (hseen : List.Forall₂ (SaysAs r) seen seenOthers)
    (hfault : firstFault (sourceFault names) seen sources = none) :
    firstFault (sourceFault (names.map r.bank)) seenOthers others = none := by
  -- along the sources; what may stop one of them depends on those seen before it
  induction hothers generalizing seen seenOthers with
  | nil => rfl
  | @cons source other rest otherRest hspoken hrest ih =>
      rw [firstFault, Option.or_eq_none_iff, sourceFault_eq_none_iff,
        textFault_eq_none_iff_lines] at hfault
      obtain ⟨⟨hreadable, line, hline, hbank⟩, hfault⟩ := hfault
      have hseen' : List.Forall₂ (SaysAs r) (seen ++ [source]) (seenOthers ++ [other]) :=
        List.rel_append hseen (.cons hspoken .nil)
      rw [firstFault, Option.or_eq_none_iff, sourceFault_eq_none_iff, textFault_eq_none_iff_lines]
      refine ⟨⟨?_, r.line line, ?_, ?_⟩, ?_⟩
      · rw [hspoken.lines]
        intro changed hchanged token htoken
        obtain ⟨before, hbefore, rfl⟩ := List.mem_map.mp hchanged
        obtain ⟨written, hwritten, rfl⟩ := List.mem_map.mp htoken
        exact hsuits.readable_token (hreadable before hbefore written hwritten)
          (hwords before (List.mem_append_left _ hbefore) written hwritten)
      · rw [spokenLines_of_saysAs hseen']
        exact List.mem_map_of_mem hline
      · rw [Renaming.line, hbank, hspoken.bank]
      · exact ih (fun later hlater => hwords later (List.mem_append_right _ hlater)) hseen' hfault

/-- The tokens of sources that were read are words and references to their banks. -/
theorem readable_of_ofSources {pack : Pack} (hread : ofSources sources = .ok pack)
    {source : Source} (hsource : source ∈ sources) :
    ∀ line ∈ source.spokenLines, ∀ token ∈ line.tokens,
      Readable (sources.map (·.bank)) token := by
  have hfault := (decided_ofSources sources).fault_eq_none hread
  rw [sourcesFault, Option.or_eq_none_iff] at hfault
  obtain ⟨before, after, hsplit⟩ := List.append_of_mem hsource
  have hclean := firstFault_eq_none_iff.mp hfault.2 before source after hsplit
  exact textFault_eq_none_iff_lines.mp (sourceFault_eq_none_iff.mp hclean).1

/-- The identifiers on the lines of sources that were read are words of the pack. -/
theorem mem_words_of_ofSources {pack : Pack} (hread : ofSources sources = .ok pack)
    {line : SpokenLine} (hline : line ∈ spokenLines sources) :
    ∀ token ∈ line.tokens, Identifier token → String.ofList token ∈ pack.words.keys := by
  intro token htoken hidentifier
  rw [keys_words_of_ofSources hread]
  exact mem_wordsAmong_iff.mpr
    ⟨token, List.mem_flatMap.mpr ⟨line, hline, htoken⟩, hidentifier, rfl⟩

/-- Sources that say the same as sources without a fault have no fault either. -/
theorem sourcesFault_eq_none_of_saysAs {pack : Pack} (hread : ofSources sources = .ok pack)
    (hothers : List.Forall₂ (SaysAs r) sources others)
    (hsuits : r.Suits (sources.map (·.bank)) pack.words.keys) : sourcesFault others = none := by
  have hfault := (decided_ofSources sources).fault_eq_none hread
  rw [sourcesFault, Option.or_eq_none_iff] at hfault
  have hnames := map_bank_of_saysAs hothers
  have hidentifiers : others.findSome? nameFault = none := by
    rw [findSome?_nameFault_eq_none_iff]
    intro other hother
    have hname : other.bank ∈ (sources.map (·.bank)).map r.bank := by
      rw [← hnames]
      exact List.mem_map_of_mem hother
    obtain ⟨name, hname, heq⟩ := List.mem_map.mp hname
    rw [← heq]
    exact hsuits.bank_identifier name hname
  rw [sourcesFault, hidentifiers, Option.none_or, hnames]
  exact firstFault_eq_none_of_saysAs hsuits hothers (fun line => mem_words_of_ofSources hread) .nil
    hfault.2

/-- **Sources that say the same under other names make the same pack under other names.** -/
theorem exists_isRenamed {pack : Pack} (hread : ofSources sources = .ok pack)
    (hothers : List.Forall₂ (SaysAs r) sources others)
    (hsuits : r.Suits (sources.map (·.bank)) pack.words.keys) :
    ∃ renamed, ofSources others = .ok renamed ∧ IsRenamed r pack renamed := by
  obtain ⟨next, hrecords⟩ := (decided_ofSources sources).of_ok hread
  obtain ⟨renamed, hrenamed⟩ := (decided_ofSources others).exists_ok_iff.mpr
    (sourcesFault_eq_none_of_saysAs hread hothers hsuits)
  obtain ⟨otherNext, hotherRecords⟩ := (decided_ofSources others).of_ok hrenamed
  rw [map_bank_of_saysAs hothers, spokenLines_of_saysAs hothers] at hotherRecords
  refine ⟨renamed, hrenamed, hrecords.isRenamed hotherRecords
    (fun line hline => (of_mem_spokenLines hline).1) ?_ hsuits⟩
  intro token htoken
  obtain ⟨line, hline, hmem⟩ := List.mem_flatMap.mp htoken
  obtain ⟨source, hsource, hspoken⟩ := List.mem_flatMap.mp hline
  exact readable_of_ofSources hread hsource line hspoken token hmem

/-! ## Texts under other names -/

theorem spoken_substitute {bank : String} {text : List Char}
    (hf : ∀ token ∈ lineTokens text, r.token token ≠ [] ∧ ∀ c ∈ r.token token, c ∉ Text.blanks) :
    spoken (r.bank bank) (Text.substitute r.token text) = (spoken bank text).map r.line := by
  rw [← fields_eq_lineTokens] at hf
  have htokens := Text.fields_substitute hf
  rw [fields_eq_lineTokens, fields_eq_lineTokens] at htokens
  unfold spoken
  by_cases hsilent : lineTokens text = []
  · rw [htokens, hsilent]
    rfl
  · rw [htokens, if_neg hsilent, if_neg (mt List.map_eq_nil_iff.mp hsilent)]
    rfl

/-- A source whose tokens are replaced says the same under the new names. -/
theorem saysAs_source (hsuits : r.Suits names words) {source : Source}
    (hreadable : ∀ line ∈ source.spokenLines, ∀ token ∈ line.tokens, Readable names token)
    (hwords : ∀ line ∈ source.spokenLines, ∀ token ∈ line.tokens, Identifier token →
      String.ofList token ∈ words) : SaysAs r source (r.source source) := by
  have hsolid : ∀ text ∈ Text.lines source.text.toList, ∀ token ∈ lineTokens text,
      r.token token ≠ [] ∧ ∀ c ∈ r.token token, c ∉ Text.blanks := by
    intro text htext token htoken
    have hline : ⟨source.bank, lineTokens text⟩ ∈ source.spokenLines := by
      rw [Source.spokenLines, ← Text.lines_eq_splitOn]
      exact List.mem_flatMap.mpr ⟨text, htext, mem_spoken_iff.mpr ⟨List.ne_nil_of_mem htoken, rfl⟩⟩
    exact (hsuits.readable_token (hreadable _ hline token htoken)
      (hwords _ hline token htoken)).solid
  have hlines : Text.lines (Text.substitute r.token source.text.toList) =
      (Text.lines source.text.toList).map (Text.substitute r.token) := by
    refine Text.lines_substitute fun text htext token htoken hfeed => ?_
    rw [fields_eq_lineTokens] at htoken
    exact (hsolid text htext token htoken).2 '\n' hfeed Text.lineFeed_mem_blanks
  refine ⟨rfl, ?_⟩
  rw [Source.spokenLines, Renaming.source, String.toList_ofList, ← Text.lines_eq_splitOn, hlines,
    Source.spokenLines, ← Text.lines_eq_splitOn, List.flatMap_map, List.map_flatMap]
  exact List.flatMap_congr fun text htext => spoken_substitute (hsolid text htext)

/-- **Sources under other names make the same pack under other names.** -/
theorem exists_isRenamed_source {pack : Pack} (hread : ofSources sources = .ok pack)
    (hsuits : r.Suits (sources.map (·.bank)) pack.words.keys) :
    ∃ renamed, ofSources (sources.map r.source) = .ok renamed ∧ IsRenamed r pack renamed := by
  refine exists_isRenamed hread ?_ hsuits
  rw [List.forall₂_map_right_iff, List.forall₂_same]
  intro source hsource
  refine saysAs_source hsuits (readable_of_ofSources hread hsource) fun line hline => ?_
  exact mem_words_of_ofSources hread (List.mem_flatMap.mpr ⟨source, hsource, hline⟩)

end SaysAs

end Pack

end SpeechRom
