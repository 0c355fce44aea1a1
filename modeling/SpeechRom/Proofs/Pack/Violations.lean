import SpeechRom.Proofs.Pack.Reading

/-!
# What is accepted, and what is reported

Sources are *grammatical* when every bank has a proper name, every token of every text is a word or
refers to one of the banks, and every bank says something by the time its source is done.
`FirstViolation` says which violation comes first otherwise: the names of the banks go
before the texts, then source by source the tokens in the order in which they stand, then the bank
that still says nothing.

Reading accepts grammatical sources and no others, and what it reports is the first violation
(`ofSources_follows_grammar`).

## Strategy

Reading is decided by `sourcesFault`, which is a matter of lists of fields.  Here the lists are read
back: the fields of a text are its tokens, and a source has a line exactly when it has a token.
-/

namespace SpeechRom.Pack

open Text

/-! ## The grammar -/

/-- Every token of a text is a word or refers to one of the banks. -/
def TextReadable (names : List String) (text : List Char) : Prop :=
  ∀ front token, TokenAt text front token → Readable names token

/-- Every token of a text that stands in front of a place is a word or refers to a bank. -/
def ReadableBefore (names : List String) (text front : List Char) : Prop :=
  ∀ earlier token, TokenAt text earlier token → earlier.length < front.length →
    Readable names token

/-- One of the sources of a bank has a token. -/
def Speaks (sources : List Source) (bank : String) : Prop :=
  ∃ source ∈ sources, source.bank = bank ∧ ∃ front token, TokenAt source.text.toList front token

/-- A source that is read after others is readable, and its bank says something by then. -/
structure SourceReadable (names : List String) (before : List Source) (source : Source) : Prop where
  tokens : TextReadable names source.text.toList
  speaks : Speaks (before ++ [source]) source.bank

/-- The sources that describe a pack. -/
structure Grammatical (sources : List Source) : Prop where
  names : ∀ source ∈ sources, Identifier source.bank.toList
  readable : ∀ before source after, sources = before ++ source :: after →
    SourceReadable (sources.map (·.bank)) before source

/-- What comes first of all that is wrong with sources. -/
inductive FirstViolation (sources : List Source) : BuildError → Prop
  /-- The first bank without a proper name. -/
  | name {before after : List Source} {source : Source}
      (hsplit : sources = before ++ source :: after)
      (hbefore : ∀ other ∈ before, Identifier other.bank.toList)
      (hname : ¬ Identifier source.bank.toList) :
      FirstViolation sources (.badToken source.bank 0 source.bank)
  /-- The first token that cannot be read, in the first source that has one. -/
  | token {before after : List Source} {source : Source} {front token : List Char}
      {failure : BuildError} (hnames : ∀ other ∈ sources, Identifier other.bank.toList)
      (hsplit : sources = before ++ source :: after)
      (hbefore : ∀ earlier other later, before = earlier ++ other :: later →
        SourceReadable (sources.map (·.bank)) earlier other)
      (hat : TokenAt source.text.toList front token)
      (hfront : ReadableBefore (sources.map (·.bank)) source.text.toList front)
      (htoken : TokenFault (sources.map (·.bank)) source.bank (lineOf front) token failure) :
      FirstViolation sources failure
  /-- The first source after which its bank says nothing. -/
  | silent {before after : List Source} {source : Source}
      (hnames : ∀ other ∈ sources, Identifier other.bank.toList)
      (hsplit : sources = before ++ source :: after)
      (hbefore : ∀ earlier other later, before = earlier ++ other :: later →
        SourceReadable (sources.map (·.bank)) earlier other)
      (htokens : TextReadable (sources.map (·.bank)) source.text.toList)
      (hsilent : ¬ Speaks (before ++ [source]) source.bank) :
      FirstViolation sources (.emptyBank source.bank)

/-! ## Faults of names -/

variable {names : List String} {source : Source} {failure : BuildError}

theorem nameFault_eq_none_iff : nameFault source = none ↔ Identifier source.bank.toList := by
  unfold nameFault
  by_cases hname : Identifier source.bank.toList <;> simp [hname]

theorem nameFault_eq_some_iff :
    nameFault source = some failure ↔
      ¬ Identifier source.bank.toList ∧ failure = .badToken source.bank 0 source.bank := by
  unfold nameFault
  by_cases hname : Identifier source.bank.toList <;> simp [hname, eq_comm]

/-! ## Faults of texts -/

theorem findSome?_tokenFault_eq_none_iff (bank : String) (text : List Char) :
    ((numberedFields 1 text).findSome? fun field => tokenFault names bank field.2 field.1) = none ↔
      TextReadable names text := by
  rw [List.findSome?_eq_none_iff]
  constructor
  · intro hnone front token hat
    exact tokenFault_eq_none_iff.mp (hnone _ (mem_numberedFields_iff.mpr ⟨front, hat, rfl⟩))
  · rintro hreadable ⟨token, line⟩ hmem
    obtain ⟨front, hat, _⟩ := mem_numberedFields_iff.mp hmem
    exact tokenFault_eq_none_iff.mpr (hreadable front token hat)

theorem textFault_eq_none_iff :
    textFault names source = none ↔ TextReadable names source.text.toList :=
  findSome?_tokenFault_eq_none_iff source.bank source.text.toList

theorem textReadable_front_iff {text front token : List Char} (hat : TokenAt text front token) :
    TextReadable names front ↔ ReadableBefore names text front := by
  constructor
  · intro hreadable earlier other hother hlt
    exact hreadable earlier other (hat.front_iff.mpr ⟨hother, hlt⟩)
  · intro hreadable earlier other hother
    obtain ⟨hother, hlt⟩ := hat.front_iff.mp hother
    exact hreadable earlier other hother hlt

/-- The fault of a text is that of the first token that cannot be read. -/
theorem textFault_eq_some_iff :
    textFault names source = some failure ↔
      ∃ front token, TokenAt source.text.toList front token ∧
        ReadableBefore names source.text.toList front ∧
        TokenFault names source.bank (lineOf front) token failure := by
  rw [textFault, List.findSome?_eq_some_iff]
  constructor
  · rintro ⟨earlier, ⟨token, line⟩, later, hfields, hfault, hearlier⟩
    obtain ⟨front, hat, rfl, rfl⟩ := numberedFields_eq_append_cons_iff.mp ⟨later, hfields⟩
    refine ⟨front, token, hat, (textReadable_front_iff hat).mp ?_,
      tokenFault_eq_some_iff.mp hfault⟩
    exact (findSome?_tokenFault_eq_none_iff source.bank front).mp
      (List.findSome?_eq_none_iff.mpr hearlier)
  · rintro ⟨front, token, hat, hfront, hfault⟩
    obtain ⟨later, hfields⟩ := numberedFields_eq_append_cons_iff.mpr ⟨front, hat, rfl, rfl⟩
    have hearlier := (findSome?_tokenFault_eq_none_iff source.bank front).mpr
      ((textReadable_front_iff hat).mpr hfront)
    exact ⟨_, _, later, hfields, tokenFault_eq_some_iff.mpr hfault,
      List.findSome?_eq_none_iff.mp hearlier⟩

/-! ## Faults of sources -/

/-- A source has a line exactly when it has a token, and its lines are lines of its bank. -/
theorem exists_mem_spokenLines_iff {bank : String} :
    (∃ line ∈ source.spokenLines, line.bank = bank) ↔
      source.bank = bank ∧ ∃ front token, TokenAt source.text.toList front token := by
  unfold Source.spokenLines
  rw [← lines_eq_splitOn]
  constructor
  · rintro ⟨line, hline, hbank⟩
    obtain ⟨text, htext, hspoken⟩ := List.mem_flatMap.mp hline
    obtain ⟨htokens, rfl⟩ := mem_spoken_iff.mp hspoken
    refine ⟨hbank, ?_⟩
    obtain ⟨token, others, hfields⟩ := List.exists_cons_of_ne_nil htokens
    obtain ⟨index, hindex⟩ := List.mem_iff_getElem?.mp htext
    have hmem : (token, 1 + index) ∈ numberedFields 1 source.text.toList := by
      refine List.mem_flatMap.mpr ⟨(text, 1 + index), ?_, ?_⟩
      · rw [List.mk_add_mem_zipIdx_iff_getElem?]
        exact hindex
      · rw [fields_eq_lineTokens, hfields]
        exact List.mem_cons_self
    obtain ⟨front, hat, _⟩ := mem_numberedFields_iff.mp hmem
    exact ⟨front, token, hat⟩
  · rintro ⟨hbank, front, token, hat⟩
    obtain ⟨⟨text, number⟩, hline, htoken⟩ :=
      List.mem_flatMap.mp (mem_numberedFields_iff.mpr ⟨front, hat, rfl⟩)
    rw [fields_eq_lineTokens] at htoken
    obtain ⟨field, hfield, _⟩ := List.mem_map.mp htoken
    refine ⟨⟨source.bank, lineTokens text⟩, ?_, hbank⟩
    refine List.mem_flatMap.mpr ⟨text, List.fst_mem_of_mem_zipIdx hline, ?_⟩
    exact mem_spoken_iff.mpr ⟨List.ne_nil_of_mem hfield, rfl⟩

theorem exists_mem_spokenLines_iff_speaks {sources : List Source} {bank : String} :
    (∃ line ∈ spokenLines sources, line.bank = bank) ↔ Speaks sources bank := by
  constructor
  · rintro ⟨line, hline, hbank⟩
    obtain ⟨source, hsource, hspoken⟩ := List.mem_flatMap.mp hline
    exact ⟨source, hsource, exists_mem_spokenLines_iff.mp ⟨line, hspoken, hbank⟩⟩
  · rintro ⟨source, hsource, hspeaks⟩
    obtain ⟨line, hspoken, hbank⟩ := exists_mem_spokenLines_iff.mpr hspeaks
    exact ⟨line, List.mem_flatMap.mpr ⟨source, hsource, hspoken⟩, hbank⟩

theorem sourceFault_eq_none_iff_readable {before : List Source} :
    sourceFault names before source = none ↔ SourceReadable names before source := by
  rw [sourceFault_eq_none_iff, textFault_eq_none_iff, exists_mem_spokenLines_iff_speaks]
  exact ⟨fun ⟨htokens, hspeaks⟩ => ⟨htokens, hspeaks⟩, fun h => ⟨h.tokens, h.speaks⟩⟩

/-- A source is at fault by its first token that cannot be read, or else by a bank that says
nothing. -/
theorem sourceFault_eq_some_iff {before : List Source} :
    sourceFault names before source = some failure ↔
      (∃ front token, TokenAt source.text.toList front token ∧
        ReadableBefore names source.text.toList front ∧
        TokenFault names source.bank (lineOf front) token failure) ∨
      (TextReadable names source.text.toList ∧ ¬ Speaks (before ++ [source]) source.bank ∧
        failure = .emptyBank source.bank) := by
  rw [sourceFault, Option.or_eq_some_iff, textFault_eq_some_iff, textFault_eq_none_iff,
    ← exists_mem_spokenLines_iff_speaks]
  refine or_congr Iff.rfl (and_congr Iff.rfl ?_)
  by_cases hspoken : ∃ line ∈ spokenLines (before ++ [source]), line.bank = source.bank
  · rw [if_pos hspoken]
    exact iff_of_false (Option.some_ne_none failure).symm fun h => h.1 hspoken
  · rw [if_neg hspoken, Option.some.injEq, eq_comm]
    exact (and_iff_right hspoken).symm

/-! ## Faults of all sources -/

theorem findSome?_nameFault_eq_none_iff {sources : List Source} :
    sources.findSome? nameFault = none ↔ ∀ source ∈ sources, Identifier source.bank.toList := by
  rw [List.findSome?_eq_none_iff]
  exact forall₂_congr fun _ _ => nameFault_eq_none_iff

theorem firstFault_sourceFault_eq_none_iff {sources : List Source} :
    firstFault (sourceFault names) [] sources = none ↔
      ∀ before source after, sources = before ++ source :: after →
        SourceReadable names before source := by
  rw [firstFault_eq_none_iff]
  refine forall_congr' fun before => forall₃_congr fun source after _ => ?_
  rw [List.nil_append, sourceFault_eq_none_iff_readable]

theorem sourcesFault_eq_none_iff {sources : List Source} :
    sourcesFault sources = none ↔ Grammatical sources := by
  rw [sourcesFault, Option.or_eq_none_iff, findSome?_nameFault_eq_none_iff,
    firstFault_sourceFault_eq_none_iff]
  exact ⟨fun ⟨hnames, hreadable⟩ => ⟨hnames, hreadable⟩, fun h => ⟨h.names, h.readable⟩⟩

theorem sourcesFault_eq_some_iff {sources : List Source} :
    sourcesFault sources = some failure ↔ FirstViolation sources failure := by
  rw [sourcesFault, Option.or_eq_some_iff, findSome?_nameFault_eq_none_iff,
    List.findSome?_eq_some_iff, firstFault_eq_some_iff]
  constructor
  · rintro (⟨before, source, after, hsplit, hfault, hbefore⟩ |
      ⟨hnames, before, source, after, hsplit, hfault, hbefore⟩)
    · obtain ⟨hname, rfl⟩ := nameFault_eq_some_iff.mp hfault
      exact .name hsplit (fun other hmem => nameFault_eq_none_iff.mp (hbefore other hmem)) hname
    · rw [List.nil_append] at hfault
      have hreadable := firstFault_sourceFault_eq_none_iff.mp hbefore
      rcases sourceFault_eq_some_iff.mp hfault with
        ⟨front, token, hat, hfront, htoken⟩ | ⟨htokens, hsilent, rfl⟩
      · exact .token hnames hsplit hreadable hat hfront htoken
      · exact .silent hnames hsplit hreadable htokens hsilent
  · intro hviolation
    cases hviolation with
    | name hsplit hbefore hname =>
        refine .inl ⟨_, _, _, hsplit, nameFault_eq_some_iff.mpr ⟨hname, rfl⟩, ?_⟩
        exact fun other hmem => nameFault_eq_none_iff.mpr (hbefore other hmem)
    | token hnames hsplit hbefore hat hfront htoken =>
        refine .inr ⟨hnames, _, _, _, hsplit, ?_, firstFault_sourceFault_eq_none_iff.mpr hbefore⟩
        exact sourceFault_eq_some_iff.mpr (.inl ⟨_, _, hat, hfront, htoken⟩)
    | silent hnames hsplit hbefore htokens hsilent =>
        refine .inr ⟨hnames, _, _, _, hsplit, ?_, firstFault_sourceFault_eq_none_iff.mpr hbefore⟩
        exact sourceFault_eq_some_iff.mpr (.inr ⟨htokens, hsilent, rfl⟩)

/-- **Reading accepts exactly the grammatical sources and reports the first violation of all
others.** -/
theorem ofSources_follows_grammar (sources : List Source) :
    ((∃ pack, ofSources sources = .ok pack) ↔ Grammatical sources) ∧
      ∀ failure, ofSources sources = .error failure ↔ FirstViolation sources failure := by
  have hdecided := decided_ofSources sources
  refine ⟨?_, fun failure => ?_⟩
  · rw [hdecided.exists_ok_iff, sourcesFault_eq_none_iff]
  · rw [hdecided.eq_error_iff, sourcesFault_eq_some_iff]

/-- The name of the second bank is read before the text of the first. -/
example : ofSources [⟨"start", "go?"⟩, ⟨"End", "go"⟩] = .error (.badToken "End" 0 "End") := rfl

example : ofSources [⟨"start", "go\r\n\n\x7bend\x7d"⟩] = .error (.noSuchBank "start" 3 "end") := rfl

end SpeechRom.Pack
