import SpeechRom.Pack.Printer
import SpeechRom.Proofs.Pack.Renaming

/-!
# Printed packs read back

A printed pack has a section for every bank, with a line for every phrase.  `printedSources` takes
the sections of such a text for sources.  Reading them gives the pack that was printed
(`ofSources_printedSources`), if no two of the sources that it was read from have one bank: phrases
are numbered in reading order, and a section holds all phrases of its bank.

## Strategy

A phrase prints as the tokens of the line that it was read from (`Voices.lineTokens_phraseText`), so the
section of a bank says what the source of the bank says (`saysAs_printedSource`), and the packs are
equal because they are the same under names that stay as they are.
-/

namespace SpeechRom.Pack

/-! ## Sections of a printed pack -/

/-- The name on a line that opens a section. -/
def sectionName? : List Char → Option (List Char)
  | ' ' :: ' ' :: '[' :: rest => if rest.getLast? = some ']' then some rest.dropLast else none
  | _ => none

/-- The phrase on a line of a section. -/
def phraseLine? : List Char → Option (List Char)
  | ' ' :: ' ' :: ' ' :: ' ' :: phrase => some phrase
  | _ => none

/-- The sections of lines as sources, behind the phrases that stand above the first section. -/
def readSections : List (List Char) → List (List Char) × List Source
  | [] => ([], [])
  | line :: rest =>
    let (phrases, sources) := readSections rest
    match sectionName? line with
    | some name =>
      ([], ⟨String.ofList name, String.ofList (phrases.flatMap (· ++ ['\n']))⟩ :: sources)
    | none =>
      match phraseLine? line with
      | some phrase => (phrase :: phrases, sources)
      | none => (phrases, sources)

/-- Every section of a printed pack as the source of its bank, one phrase a line. -/
def printedSources (text : String) : List Source :=
  (readSections (text.toList.splitOn '\n')).2

/-- The phrases of a bank as a source of the bank. -/
def printedSource (pack : Pack) (bank : Bank) : Source :=
  ⟨bank.name, String.join (bank.phrases.map fun phrase => pack.phraseText phrase ++ "\n")⟩

/-! ## Names are identifiers -/

section Names

variable {sources : List Source} {pack : Pack} (hread : ofSources sources = .ok pack)

include hread

/-- The words of a pack that was read are identifiers. -/
theorem identifier_of_word {word : Word} (hword : word ∈ pack.words.values) :
    Identifier word.text.toList := by
  have hkey : word.text ∈ pack.words.keys := by
    rw [← (wellFormed_of_ofSources hread).indexed.map_text_words]
    exact List.mem_map_of_mem hword
  rw [keys_words_of_ofSources hread] at hkey
  obtain ⟨token, _, hidentifier, htext⟩ := mem_wordsAmong_iff.mp hkey
  rwa [← htext, String.toList_ofList]

/-- The banks of a pack that was read are named by identifiers. -/
theorem identifier_of_bank {bank : Bank} (hbank : bank ∈ pack.banks.values) :
    Identifier bank.name.toList := by
  obtain ⟨next, hrecords⟩ := (decided_ofSources sources).of_ok hread
  have hfault := (decided_ofSources sources).fault_eq_none hread
  rw [sourcesFault, Option.or_eq_none_iff, findSome?_nameFault_eq_none_iff] at hfault
  obtain ⟨source, hsource, hname⟩ := List.mem_map.mp (hrecords.name_mem hbank)
  rw [← hname]
  exact hfault.1 source hsource

end Names

/-! ## Phrases print as their lines -/

section Spelling

variable {pack : Pack} {text : List Char} {token : Token}

/-- A token is spelled as it was written. -/
theorem Reads.toList_spell (hreads : pack.Reads text token) : (pack.spell token).toList = text := by
  cases hreads with
  | word _ hid =>
      rw [spell, hid]
      exact String.toList_ofList
  | bank _ hid hname =>
      rw [spell, hid, Option.map_some, Option.getD_some, hname, String.toList_append,
        String.toList_append, String.toList_ofList]
      simp [braced]

theorem Reads.readable (hreads : pack.Reads text token) :
    Readable (pack.banks.values.map (·.name)) text := by
  cases hreads with
  | word hword _ => exact .inl hword
  | bank hreference hid hname =>
      exact .inr ⟨_, hreference, hname ▸ List.mem_map_of_mem (mem_banks_of_bank? hid), rfl⟩

/-- Tokens with single spaces between them are found again. -/
theorem lineTokens_intercalate {tokens : List (List Char)}
    (hsolid : ∀ token ∈ tokens, token ≠ [] ∧ ∀ c ∈ token, c ∉ Text.blanks) :
    lineTokens ([' '].intercalate tokens) = tokens := by
  rw [← fields_eq_lineTokens]
  induction tokens with
  | nil => rfl
  | cons token rest ih =>
      obtain ⟨⟨hnonempty, htoken⟩, hrest⟩ := List.forall_mem_cons.mp hsolid
      cases rest with
      | nil =>
          have hclosed : Text.Closed [] := fun c hc => absurd hc (Option.not_mem_none c)
          have hfields := Text.fields_token_append hnonempty htoken hclosed
          rw [List.append_nil] at hfields
          rw [List.intercalate_singleton, hfields]
          rfl
      | cons next others =>
          -- the space behind a token ends it
          have hclosed : Text.Closed (' ' :: [' '].intercalate (next :: others)) := by
            rintro c hc
            cases hc
            decide
          rw [List.intercalate_cons_cons, List.append_assoc, List.singleton_append,
            Text.fields_token_append hnonempty htoken hclosed,
            Text.fields_blank_cons (by decide), ih hrest]

theorem lineFeed_not_mem_intercalate {tokens : List (List Char)}
    (htokens : ∀ token ∈ tokens, '\n' ∉ token) : '\n' ∉ [' '].intercalate tokens := by
  induction tokens with
  | nil => exact List.not_mem_nil
  | cons token rest ih =>
      obtain ⟨htoken, hrest⟩ := List.forall_mem_cons.mp htokens
      cases rest with
      | nil => rwa [List.intercalate_singleton]
      | cons next others =>
          rw [List.intercalate_cons_cons, List.mem_append, List.mem_append, List.mem_singleton]
          rintro ((hmem | hmem) | hmem)
          · exact htoken hmem
          · cases hmem
          · exact ih hrest hmem

end Spelling

section Phrases

variable {pack : Pack} {line : SpokenLine × Nat} {phrase : Phrase}

theorem map_toList_spell {texts : List (List Char)} {tokens : List Token}
    (hreads : List.Forall₂ pack.Reads texts tokens) :
    (tokens.map pack.spell).map String.toList = texts := by
  induction hreads with
  | nil => rfl
  | cons hreads _ ih => rw [List.map_cons, List.map_cons, ih, hreads.toList_spell]

theorem Voices.toList_phraseText (hvoices : pack.Voices line phrase) :
    (pack.phraseText phrase).toList = [' '].intercalate line.1.tokens := by
  rw [phraseText, String.toList_intercalate, map_toList_spell hvoices.tokens]
  rfl

theorem Voices.solid (hvoices : pack.Voices line phrase) :
    ∀ token ∈ line.1.tokens, token ≠ [] ∧ ∀ c ∈ token, c ∉ Text.blanks := by
  intro token htoken
  obtain ⟨_, _, hreads⟩ := exists_right_of_forall₂ hvoices.tokens htoken
  exact hreads.readable.solid

/-- A phrase prints as the tokens that it was read from. -/
theorem Voices.lineTokens_phraseText (hvoices : pack.Voices line phrase) :
    lineTokens (pack.phraseText phrase).toList = line.1.tokens := by
  rw [hvoices.toList_phraseText]
  exact lineTokens_intercalate hvoices.solid

/-- A phrase prints on one line. -/
theorem Voices.lineFeed_not_mem (hvoices : pack.Voices line phrase) :
    '\n' ∉ (pack.phraseText phrase).toList := by
  rw [hvoices.toList_phraseText]
  exact lineFeed_not_mem_intercalate fun token htoken hmem =>
    (hvoices.solid token htoken).2 '\n' hmem Text.lineFeed_mem_blanks

end Phrases

/-! ## The lines of a printed pack -/

/-- The lines of the section of a bank. -/
def sectionLines (pack : Pack) (bank : Bank) : List (List Char) :=
  (' ' :: ' ' :: '[' :: (bank.name.toList ++ [']'])) ::
    bank.phrases.map fun phrase => ' ' :: ' ' :: ' ' :: ' ' :: (pack.phraseText phrase).toList

/-- The first line of a printed pack. -/
def summary (pack : Pack) : String :=
  "Phrase pack: " ++ toString pack.words.size ++ " words, " ++ toString pack.banks.size ++
    " banks, " ++ toString pack.phraseTotal ++ " phrases"

theorem toList_bankSection (pack : Pack) (bank : Bank) :
    (pack.bankSection bank).toList = (pack.sectionLines bank).flatMap (· ++ ['\n']) := by
  simp [bankSection, sectionLines, List.flatMap_map]

theorem render_eq (pack : Pack) :
    pack.render = pack.summary ++ "\n" ++ String.join (pack.banks.values.map pack.bankSection) := by
  have hend : " phrases\n" = " phrases" ++ "\n" := rfl
  delta render summary
  simp only [hend, String.append_assoc]

theorem toList_render (pack : Pack) :
    pack.render.toList = (pack.summary.toList ::
      pack.banks.values.flatMap pack.sectionLines).flatMap (· ++ ['\n']) := by
  have hsections : (pack.banks.values.map pack.bankSection).flatMap String.toList =
      (pack.banks.values.flatMap pack.sectionLines).flatMap (· ++ ['\n']) := by
    rw [List.flatMap_map, List.flatMap_assoc]
    exact List.flatMap_congr fun bank _ => toList_bankSection pack bank
  rw [render_eq, String.toList_append, String.toList_append, String.toList_join, hsections,
    List.flatMap_cons]
  rfl

theorem lineFeed_not_mem_toDigits (n : Nat) : '\n' ∉ Nat.toDigits 10 n := by
  intro hmem
  have hdigit := Nat.isDigit_of_mem_toDigits (by decide) (by decide) hmem
  revert hdigit
  decide

theorem lineFeed_not_mem_summary (pack : Pack) : '\n' ∉ pack.summary.toList := by
  delta summary
  simp [lineFeed_not_mem_toDigits]

theorem exists_toList_summary (pack : Pack) : ∃ more, pack.summary.toList = 'P' :: more := by
  delta summary
  simp

theorem readSections_phraseLines (texts rest : List (List Char)) :
    readSections ((texts.map fun text => ' ' :: ' ' :: ' ' :: ' ' :: text) ++ rest) =
      (texts ++ (readSections rest).1, (readSections rest).2) := by
  induction texts with
  | nil => rfl
  | cons text texts ih =>
      rw [List.map_cons, List.cons_append, readSections, ih]
      rfl

theorem sectionName?_header (name : List Char) :
    sectionName? (' ' :: ' ' :: '[' :: (name ++ [']'])) = some name := by
  simp [sectionName?]

/-- The lines of a section are read as the source of its bank. -/
theorem readSections_sectionLines (pack : Pack) (bank : Bank) {rest : List (List Char)}
    {sources : List Source} (hrest : readSections rest = ([], sources)) :
    readSections (pack.sectionLines bank ++ rest) =
      ([], pack.printedSource bank :: sources) := by
  have htext : String.ofList ((bank.phrases.map fun phrase =>
      (pack.phraseText phrase).toList).flatMap (· ++ ['\n'])) =
        (pack.printedSource bank).text := by
    rw [printedSource, ← String.toList_inj, String.toList_ofList, String.toList_join,
      List.flatMap_map, List.flatMap_map]
    simp only [String.toList_append]
    rfl
  have hlines : (bank.phrases.map fun phrase =>
      ' ' :: ' ' :: ' ' :: ' ' :: (pack.phraseText phrase).toList) =
        (bank.phrases.map fun phrase => (pack.phraseText phrase).toList).map
          fun text => ' ' :: ' ' :: ' ' :: ' ' :: text := by
    rw [List.map_map]
    rfl
  rw [sectionLines, List.cons_append, readSections, hlines, readSections_phraseLines, hrest,
    sectionName?_header]
  simp only [List.append_nil, htext, String.ofList_toList]
  rfl

theorem readSections_banks (pack : Pack) (banks : List Bank) :
    readSections (banks.flatMap pack.sectionLines ++ [[]]) =
      ([], banks.map pack.printedSource) := by
  induction banks with
  | nil => rfl
  | cons bank rest ih =>
      rw [List.flatMap_cons, List.append_assoc, readSections_sectionLines pack bank ih,
        List.map_cons]

section Printed

variable {sources : List Source} {pack : Pack} (hread : ofSources sources = .ok pack)

include hread

theorem voices_of_ofSources {bank : Bank} (hbank : bank ∈ pack.banks.values) :
    List.Forall₂ pack.Voices (linesOf (spokenLines sources) bank.name) bank.phrases := by
  obtain ⟨next, hrecords⟩ := (decided_ofSources sources).of_ok hread
  exact hrecords.phrases bank hbank

/-- The phrases of a pack that was read print on one line each. -/
theorem lineFeed_not_mem_phraseText {bank : Bank} (hbank : bank ∈ pack.banks.values)
    {phrase : Phrase} (hphrase : phrase ∈ bank.phrases) :
    '\n' ∉ (pack.phraseText phrase).toList := by
  obtain ⟨line, _, hvoices⟩ := exists_left_of_forall₂ (voices_of_ofSources hread hbank) hphrase
  exact hvoices.lineFeed_not_mem

theorem lineFeed_not_mem_sectionLines {bank : Bank} (hbank : bank ∈ pack.banks.values) :
    ∀ line ∈ pack.sectionLines bank, '\n' ∉ line := by
  have hname : '\n' ∉ bank.name.toList := fun hmem =>
    solid_of_identifier (identifier_of_bank hread hbank) '\n' hmem Text.lineFeed_mem_blanks
  rw [sectionLines, List.forall_mem_cons, List.forall_mem_map]
  refine ⟨by simp [hname], fun phrase hphrase => ?_⟩
  simp [lineFeed_not_mem_phraseText hread hbank hphrase]

/-- The sections of the printed pack are the banks in their order, with the phrases of each. -/
theorem printedSources_render :
    printedSources pack.render = pack.banks.values.map pack.printedSource := by
  have hlines : ∀ line ∈ pack.summary.toList :: pack.banks.values.flatMap pack.sectionLines,
      '\n' ∉ line := by
    rw [List.forall_mem_cons]
    refine ⟨lineFeed_not_mem_summary pack, fun line hline => ?_⟩
    obtain ⟨bank, hbank, hmem⟩ := List.mem_flatMap.mp hline
    exact lineFeed_not_mem_sectionLines hread hbank line hmem
  have hlast : '\n' ∉ ([] : List Char) := List.not_mem_nil
  have hsplit := Text.lines_flatMap_append hlines hlast
  rw [List.append_nil, ← toList_render, Text.lines_eq_splitOn] at hsplit
  obtain ⟨more, hmore⟩ := exists_toList_summary pack
  rw [printedSources, hsplit, List.cons_append, readSections, readSections_banks, hmore]
  rfl

end Printed

/-! ## The section of a bank says what its source says -/

section Distinct

variable {sources : List Source}

theorem map_fst_linesOf (lines : List SpokenLine) (bank : String) :
    (linesOf lines bank).map Prod.fst = lines.filter (·.bank = bank) := by
  rw [← List.zipIdx_map_fst 0 lines, List.filter_map, List.zipIdx_map_fst]
  rfl

theorem filter_spokenLines_eq_self (source : Source) :
    source.spokenLines.filter (·.bank = source.bank) = source.spokenLines := by
  rw [List.filter_eq_self]
  intro line hline
  obtain ⟨text, _, hspoken⟩ := List.mem_flatMap.mp hline
  rw [(mem_spoken_iff.mp hspoken).2, decide_eq_true_eq]

theorem filter_spokenLines_eq_nil {bank : String} {others : List Source}
    (hothers : bank ∉ others.map (·.bank)) :
    (spokenLines others).filter (·.bank = bank) = [] := by
  rw [List.filter_eq_nil_iff]
  intro line hline heq
  rw [decide_eq_true_eq] at heq
  exact hothers (heq ▸ (of_mem_spokenLines hline).1)

/-- With one source for every bank, the lines of a bank are those of its source. -/
theorem filter_spokenLines (hnames : (sources.map (·.bank)).Nodup) {source : Source}
    (hsource : source ∈ sources) :
    (spokenLines sources).filter (·.bank = source.bank) = source.spokenLines := by
  obtain ⟨before, after, rfl⟩ := List.append_of_mem hsource
  rw [List.map_append, List.map_cons, List.nodup_append, List.nodup_cons] at hnames
  obtain ⟨_, ⟨hafter, _⟩, hbefore⟩ := hnames
  have hfront : source.bank ∉ before.map (·.bank) := fun hmem =>
    hbefore _ hmem _ List.mem_cons_self rfl
  calc (spokenLines (before ++ source :: after)).filter (·.bank = source.bank)
      = (spokenLines before).filter (·.bank = source.bank) ++
          (source.spokenLines.filter (·.bank = source.bank) ++
            (spokenLines after).filter (·.bank = source.bank)) := by
        rw [spokenLines, List.flatMap_append, List.flatMap_cons, List.filter_append,
          List.filter_append]
        rfl
    _ = source.spokenLines := by
        rw [filter_spokenLines_eq_nil hfront, filter_spokenLines_eq_nil hafter,
          filter_spokenLines_eq_self, List.nil_append, List.append_nil]

theorem flatMap_spoken_phraseText {pack : Pack} {name : String} {lines : List (SpokenLine × Nat)}
    {phrases : List Phrase} (hvoices : List.Forall₂ pack.Voices lines phrases)
    (hlines : ∀ line ∈ lines, line.1.bank = name ∧ line.1.tokens ≠ []) :
    (phrases.map fun phrase => (pack.phraseText phrase).toList).flatMap (spoken name) =
      lines.map Prod.fst := by
  induction hvoices with
  | nil => rfl
  | @cons line phrase rest phrases hvoice _ ih =>
      obtain ⟨⟨hbank, htokens⟩, hrest⟩ := List.forall_mem_cons.mp hlines
      obtain ⟨⟨bank, tokens⟩, number⟩ := line
      cases hbank
      rw [List.map_cons, List.map_cons, List.flatMap_cons, ih hrest, spoken,
        hvoice.lineTokens_phraseText, if_neg htokens]
      rfl

/-- What the phrases of a bank say when they are read again are the lines that they voice. -/
theorem spokenLines_printedSource {pack : Pack} {bank : Bank} {lines : List (SpokenLine × Nat)}
    (hvoices : List.Forall₂ pack.Voices lines bank.phrases)
    (hlines : ∀ line ∈ lines, line.1.bank = bank.name ∧ line.1.tokens ≠ []) :
    (pack.printedSource bank).spokenLines = lines.map Prod.fst := by
  have htexts : ∀ text ∈ bank.phrases.map (fun phrase => (pack.phraseText phrase).toList),
      '\n' ∉ text := by
    rw [List.forall_mem_map]
    intro phrase hphrase
    obtain ⟨line, _, hvoice⟩ := exists_left_of_forall₂ hvoices hphrase
    exact hvoice.lineFeed_not_mem
  have hsplit : (pack.printedSource bank).text.toList.splitOn '\n' =
      bank.phrases.map (fun phrase => (pack.phraseText phrase).toList) ++ [[]] := by
    have hlast : '\n' ∉ ([] : List Char) := List.not_mem_nil
    rw [← Text.lines_eq_splitOn, ← Text.lines_flatMap_append htexts hlast,
      printedSource, String.toList_join, List.flatMap_map, List.flatMap_map, List.append_nil]
    simp only [String.toList_append]
    rfl
  rw [Source.spokenLines, hsplit, List.flatMap_append]
  -- behind the last line feed there is nothing to say
  have hlast : [[]].flatMap (spoken (pack.printedSource bank).bank) = [] := rfl
  rw [hlast, List.append_nil]
  exact flatMap_spoken_phraseText hvoices hlines

end Distinct

/-! ## The main statement -/

/-- The section of a bank says what the source of the bank says. -/
theorem saysAs_printedSource {sources : List Source} {pack : Pack}
    (hread : ofSources sources = .ok pack) (hnames : (sources.map (·.bank)).Nodup)
    {source : Source} (hsource : source ∈ sources) {bank : Bank}
    (hbank : bank ∈ pack.banks.values) (hname : source.bank = bank.name) :
    SaysAs .keep source (pack.printedSource bank) := by
  refine ⟨hname.symm, ?_⟩
  -- no other source adds lines to the bank, so the lines of the source are those of the bank
  rw [funext Renaming.line_keep, List.map_id', ← filter_spokenLines hnames hsource, hname,
    ← map_fst_linesOf]
  refine spokenLines_printedSource (voices_of_ofSources hread hbank) fun line hline => ?_
  obtain ⟨hget, hsame⟩ := mem_linesOf_iff.mp hline
  exact ⟨hsame, (of_mem_spokenLines (List.mem_of_getElem? hget)).2⟩

/-- **Printing and reading again is the identity.**  The sections of the printed pack are its banks
in order, each with the printed phrases of the bank, and reading them gives the same pack. -/
theorem ofSources_printedSources {sources : List Source} {pack : Pack}
    (hnames : (sources.map (·.bank)).Nodup) (hread : ofSources sources = .ok pack) :
    printedSources pack.render = pack.banks.values.map pack.printedSource ∧
      ofSources (printedSources pack.render) = .ok pack := by
  have hprinted := printedSources_render hread
  refine ⟨hprinted, ?_⟩
  obtain ⟨next, hrecords⟩ := (decided_ofSources sources).of_ok hread
  have hindexed := hrecords.holds.indexed
  have hbanks : pack.banks.values.map (·.name) = sources.map (·.bank) := by
    rw [hindexed.banks.map_values_eq_keys fun _ _ _ hbank => hbank.2, hrecords.holds.bank_names,
      eraseDups_eq_self hnames]
  have hcorrespond : List.Forall₂ (fun source bank => source.bank = bank.name) sources
      pack.banks.values := by
    have heq : List.Forall₂ (· = ·) (sources.map (·.bank)) (pack.banks.values.map (·.name)) := by
      rw [List.forall₂_eq_eq_eq, hbanks]
    rwa [List.forall₂_map_left_iff, List.forall₂_map_right_iff] at heq
  have hspoken : List.Forall₂ (SaysAs .keep) sources (pack.banks.values.map pack.printedSource) := by
    rw [List.forall₂_map_right_iff, List.forall₂_iff_zip]
    refine ⟨hcorrespond.length_eq, fun {source bank} hzip => ?_⟩
    obtain ⟨hsource, hbank⟩ := List.of_mem_zip hzip
    exact saysAs_printedSource hread hnames hsource hbank (List.forall₂_zip hcorrespond hzip)
  have hsuits : Renaming.keep.Suits (sources.map (·.bank)) pack.words.keys := by
    refine ⟨Set.injOn_id _, Set.injOn_id _, ?_, ?_⟩
    · rw [← hbanks, List.forall_mem_map]
      exact fun bank => identifier_of_bank hread
    · rw [← hindexed.map_text_words, List.forall_mem_map]
      exact fun word => identifier_of_word hread
  -- under names that stay as they are, the renamed pack is the pack itself
  obtain ⟨again, hagain, hrenamed⟩ := exists_isRenamed hread hspoken hsuits
  rw [hprinted, hagain, hrenamed.eq_of_keep]

/-- A word has the name of a bank, and the line breaks and blanks are not those of the printed
form. -/
def refrainSources : List Source :=
  [⟨"start", "run \x7bfriend\x7d\r\n\n friend\trun"⟩, ⟨"friend", "run\n"⟩]

/-- The pack of these sources. -/
def refrainPack : Pack where
  words := ⟨[("run", ⟨⟨0⟩, "run"⟩), ("friend", ⟨⟨1⟩, "friend"⟩)], by decide⟩
  banks := ⟨[("start", ⟨⟨0⟩, "start",
      [⟨⟨0⟩, [.word ⟨0⟩, .bank ⟨1⟩]⟩, ⟨⟨1⟩, [.word ⟨1⟩, .word ⟨0⟩]⟩]⟩),
    ("friend", ⟨⟨1⟩, "friend", [⟨⟨2⟩, [.word ⟨0⟩]⟩]⟩)], by decide⟩

theorem ofSources_printedSources_refrain :
    (refrainSources.map (·.bank)).Nodup ∧ ofSources refrainSources = .ok refrainPack ∧
      printedSources refrainPack.render =
        [⟨"start", "run \x7bfriend\x7d\nfriend run\n"⟩, ⟨"friend", "run\n"⟩] ∧
      ofSources (printedSources refrainPack.render) = .ok refrainPack := by
  have hnames : (refrainSources.map (·.bank)).Nodup := by decide
  have hread : ofSources refrainSources = .ok refrainPack := rfl
  obtain ⟨hprinted, hagain⟩ := ofSources_printedSources hnames hread
  exact ⟨hnames, hread, hprinted.trans rfl, hagain⟩

end SpeechRom.Pack
