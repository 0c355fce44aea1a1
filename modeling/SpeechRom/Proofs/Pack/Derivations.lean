import SpeechRom.Proofs.Choices
import SpeechRom.Proofs.Pack.Contents
import SpeechRom.Proofs.Pack.Speech

/-!
# The language of a bank

A pack is a grammar: its banks are the symbols that are replaced, and a phrase of a bank is what
the bank can be replaced by.  How a bank was said is a `Derivation`, a tree with a bank at every
inner node and a word at every leaf.  It is one of the pack (`Derives`) if every bank has one of
its phrases below it, token by token, and no bank stands above itself.

Saying a bank says the words of such a tree, for every tree there is one list of choices with which
it does so, and the choices are the ones at the banks of the tree, each bank in front of what is
below it (`says_exactly_derivations`).

## Strategy

`runFrom_sayToken_eq_ok_iff` carries both directions through the fuel at once: what a run with
one more bank on the trail says are the words of trees below that bank.  The fuel lasts because
the trail holds distinct banks.
-/

namespace SpeechRom.Pack

/-! ## Derivation trees -/

/-- How something was said: a word, or a bank by the phrase of the given place among `count`, each
token of it in its own way. -/
inductive Derivation where
  | word (id : WordId) (text : String)
  | bank (id : BankId) (count choice : Nat) (parts : List Derivation)

namespace Derivation

/-- The token that was said. -/
def token : Derivation → Token
  | .word id _ => .word id
  | .bank id _ _ _ => .bank id

/-- The words at the leaves, from left to right. -/
def words : Derivation → List String
  | .word _ text => [text]
  | .bank _ _ _ parts => parts.flatMap words

/-- The choices at the banks, each with the number of phrases that there were to choose from.  A
bank comes in front of what is below it, and that goes from left to right. -/
def choices : Derivation → List (Nat × Nat)
  | .word _ _ => []
  | .bank _ count choice parts => (count, choice) :: parts.flatMap choices

/-- The choices alone. -/
def picks (tree : Derivation) : List Nat := tree.choices.map Prod.snd

end Derivation

/-- The tree is one of the pack: every bank has one of its phrases below it, and no bank is among
the banks above it, of which `above` are those over the whole tree. -/
inductive Derives (pack : Pack) : (above : List BankId) → Derivation → Prop
  | word {above : List BankId} {id : WordId} {word : Word} (hword : pack.word? id = some word) :
      Derives pack above (.word id word.text)
  | bank {above : List BankId} {id : BankId} {bank : Bank} {parts : List Derivation}
      (choice : Fin bank.phrases.length) (hnew : id ∉ above) (hbank : pack.bank? id = some bank)
      (htokens : parts.map Derivation.token = (bank.phrases.get choice).tokens)
      (hparts : ∀ part ∈ parts, Derives pack (id :: above) part) :
      Derives pack above (.bank id bank.phrases.length choice parts)

/-- The tree says how a bank was said from the start. -/
def DerivesFrom (pack : Pack) (start : BankId) (tree : Derivation) : Prop :=
  pack.Derives [] tree ∧ tree.token = .bank start

variable {pack : Pack} {above : List BankId}

theorem Derives.choices_lt {tree : Derivation} (hderives : pack.Derives above tree) :
    ∀ request ∈ tree.choices, request.2 < request.1 := by
  induction hderives with
  | word _ => simp [Derivation.choices]
  | bank choice _ _ _ _ ih =>
      intro request hmem
      rw [Derivation.choices, List.mem_cons, List.mem_flatMap] at hmem
      rcases hmem with rfl | ⟨part, hpart, hmem⟩
      · exact choice.isLt
      · exact ih part hpart request hmem

/-- What was said of a word is its text. -/
theorem Derives.of_token_eq_word {tree : Derivation} (hderives : pack.Derives above tree)
    {id : WordId} (htoken : tree.token = .word id) :
    ∃ word, pack.word? id = some word ∧ tree = .word id word.text := by
  cases hderives with
  | word hword =>
      cases htoken
      exact ⟨_, hword, rfl⟩
  | bank => cases htoken

/-- What was said of a bank is one of its phrases. -/
theorem Derives.of_token_eq_bank {tree : Derivation} (hderives : pack.Derives above tree)
    {id : BankId} (htoken : tree.token = .bank id) :
    ∃ (bank : Bank) (choice : Fin bank.phrases.length) (parts : List Derivation),
      id ∉ above ∧ pack.bank? id = some bank ∧
        parts.map Derivation.token = (bank.phrases.get choice).tokens ∧
        (∀ part ∈ parts, pack.Derives (id :: above) part) ∧
        tree = .bank id bank.phrases.length choice parts := by
  cases hderives with
  | word => cases htoken
  | bank choice hnew hbank htokens hparts =>
      cases htoken
      exact ⟨_, choice, _, hnew, hbank, htokens, hparts, rfl⟩

/-! ## Saying is deriving -/

variable {σ : Type} {source : ChoiceSource σ} {state after : σ}

/-- If every token is said in the way of some tree, so is a row of tokens. -/
theorem runFrom_mapM_eq_ok_iff {say : Token → Attempt BuildError σ (List String)}
    (hsay : ∀ token state words after, (say token).runFrom state = (.ok words, after) ↔
      ∃ tree, pack.Derives above tree ∧ tree.token = token ∧ tree.words = words ∧
        source.Gives state tree.choices after)
    {tokens : List Token} {parts : List (List String)} :
    (tokens.mapM say).runFrom state = (.ok parts, after) ↔
      ∃ trees : List Derivation, (∀ tree ∈ trees, pack.Derives above tree) ∧
        trees.map Derivation.token = tokens ∧ trees.map Derivation.words = parts ∧
        source.Gives state (trees.flatMap Derivation.choices) after := by
  induction tokens generalizing state parts with
  | nil =>
      rw [List.mapM_nil, Attempt.runFrom_pure]
      constructor
      · intro heq
        cases heq
        exact ⟨[], by simp, rfl, rfl, rfl⟩
      · rintro ⟨trees, _, htokens, hwords, hgives⟩
        obtain rfl := List.map_eq_nil_iff.mp htokens
        obtain rfl : state = after := hgives
        rw [← hwords]
        rfl
  | cons first rest ih =>
      rw [List.mapM_cons, Attempt.runFrom_bind_eq_ok_iff]
      constructor
      · rintro ⟨words, middle, hfirst, hrest⟩
        obtain ⟨others, last, hothers, heq⟩ := Attempt.runFrom_bind_eq_ok_iff.mp hrest
        cases heq
        obtain ⟨tree, htree, rfl, rfl, hgives⟩ := (hsay _ _ _ _).mp hfirst
        obtain ⟨trees, htrees, rfl, rfl, hmore⟩ := ih.mp hothers
        refine ⟨tree :: trees, List.forall_mem_cons.mpr ⟨htree, htrees⟩, rfl, rfl, ?_⟩
        rw [List.flatMap_cons]
        exact ChoiceSource.gives_append.mpr ⟨middle, hgives, hmore⟩
      · rintro ⟨trees, htrees, htokens, rfl, hgives⟩
        obtain ⟨tree, trees, rfl, rfl, rfl⟩ := List.map_eq_cons_iff.mp htokens
        obtain ⟨htree, htrees⟩ := List.forall_mem_cons.mp htrees
        rw [List.flatMap_cons] at hgives
        obtain ⟨middle, hfirst, hrest⟩ := ChoiceSource.gives_append.mp hgives
        refine ⟨tree.words, middle, (hsay _ _ _ _).mpr ⟨tree, htree, rfl, rfl, hfirst⟩, ?_⟩
        exact Attempt.runFrom_bind_eq_ok_iff.mpr
          ⟨trees.map Derivation.words, after, ih.mpr ⟨trees, htrees, rfl, rfl, hrest⟩, rfl⟩

theorem runFrom_draw_eq_ok_iff {count : Nat} (hcount : 0 < count) {choice : Fin count} :
    (source.draw count hcount : Attempt BuildError σ (Fin count)).runFrom state =
        (.ok choice, after) ↔ source.Gives state [(count, choice.val)] after := by
  have hdraw : (source.draw count hcount : Attempt BuildError σ (Fin count)).runFrom state =
      (.ok (source.choose count hcount state).1, (source.choose count hcount state).2) := rfl
  rw [hdraw]
  simp [ChoiceSource.Gives, hcount, Fin.ext_iff]

theorem runFrom_sayToken_word_eq_ok_iff {fuel : Nat} {active : List BankId} {id : WordId}
    {words : List String} :
    (pack.sayToken source fuel active (.word id)).runFrom state = (.ok words, after) ↔
      ∃ tree, pack.Derives active tree ∧ tree.token = .word id ∧ tree.words = words ∧
        source.Gives state tree.choices after := by
  cases hword : pack.word? id with
  | none =>
      rw [sayToken, hword, Attempt.runFrom_throw]
      refine iff_of_false (by simp) ?_
      rintro ⟨tree, htree, htoken, _⟩
      obtain ⟨word, hsome, _⟩ := htree.of_token_eq_word htoken
      simp [hword] at hsome
  | some word =>
      rw [sayToken, hword, Attempt.runFrom_pure]
      constructor
      · intro heq
        cases heq
        refine ⟨.word id word.text, .word hword, rfl, by rw [Derivation.words], ?_⟩
        rw [Derivation.choices, ChoiceSource.Gives]
      · rintro ⟨tree, htree, htoken, rfl, hgives⟩
        obtain ⟨same, hsame, rfl⟩ := htree.of_token_eq_word htoken
        cases hword.symm.trans hsame
        rw [Derivation.choices, ChoiceSource.Gives] at hgives
        rw [Derivation.words, hgives]

/-- A bank is said by one of its phrases, unless it is being said already. -/
theorem runFrom_sayBank_succ_eq_ok_iff {fuel : Nat} {active : List BankId} {id : BankId}
    {words : List String} :
    (pack.sayBank source (fuel + 1) active id).runFrom state = (.ok words, after) ↔
      id ∉ active ∧ ∃ (bank : Bank) (choice : Fin bank.phrases.length) (middle : σ)
        (parts : List (List String)), pack.bank? id = some bank ∧
          source.Gives state [(bank.phrases.length, choice.val)] middle ∧
          ((bank.phrases.get choice).tokens.mapM
            (pack.sayToken source fuel (id :: active))).runFrom middle = (.ok parts, after) ∧
          parts.flatten = words := by
  by_cases hmem : id ∈ active
  · rw [sayBank_of_mem hmem, Attempt.runFrom_throw]
    simp [hmem]
  cases hbank : pack.bank? id with
  | none =>
      rw [sayBank_of_none hmem hbank, Attempt.runFrom_throw]
      simp
  | some bank =>
      by_cases hpopulated : 0 < bank.phrases.length
      · rw [sayBank_succ hmem hbank hpopulated]
        constructor
        · intro hrun
          obtain ⟨choice, middle, hdraw, hrun⟩ := Attempt.runFrom_bind_eq_ok_iff.mp hrun
          obtain ⟨parts, last, hparts, heq⟩ := Attempt.runFrom_bind_eq_ok_iff.mp hrun
          cases heq
          exact ⟨hmem, bank, choice, middle, parts, rfl,
            (runFrom_draw_eq_ok_iff hpopulated).mp hdraw, hparts, rfl⟩
        · rintro ⟨_, same, choice, middle, parts, hsame, hgives, hparts, rfl⟩
          cases hsame
          refine Attempt.runFrom_bind_eq_ok_iff.mpr
            ⟨choice, middle, (runFrom_draw_eq_ok_iff hpopulated).mpr hgives, ?_⟩
          exact Attempt.runFrom_bind_eq_ok_iff.mpr ⟨parts, after, hparts, rfl⟩
      · rw [sayBank_of_empty hmem hbank hpopulated, Attempt.runFrom_throw]
        refine iff_of_false (by simp) ?_
        rintro ⟨_, same, choice, _, _, hsame, _⟩
        cases hsame
        exact hpopulated (Nat.zero_lt_of_lt choice.isLt)

/-- **A token is said in the way of a tree, and in the way of every tree.** -/
theorem runFrom_sayToken_eq_ok_iff {fuel : Nat} {active : List BankId} (htrail : pack.Trail active)
    (hfuel : pack.banks.size < fuel + active.length) (token : Token) (state : σ)
    (words : List String) (after : σ) :
    (pack.sayToken source fuel active token).runFrom state = (.ok words, after) ↔
      ∃ tree, pack.Derives active tree ∧ tree.token = token ∧ tree.words = words ∧
        source.Gives state tree.choices after := by
  have hlength := htrail.length_le
  induction fuel generalizing active token state words after with
  | zero =>
      -- a trail this long would hold more banks than the pack
      omega
  | succ fuel ih =>
      cases token with
      | word id => exact runFrom_sayToken_word_eq_ok_iff
      | bank id =>
          rw [sayToken, runFrom_sayBank_succ_eq_ok_iff]
          -- below the bank, one more bank is on the trail
          have hbelow {bank : Bank} (hnew : id ∉ active) (hbank : pack.bank? id = some bank) :
              ∀ token state words after,
                (pack.sayToken source fuel (id :: active) token).runFrom state =
                    (.ok words, after) ↔
                  ∃ tree, pack.Derives (id :: active) tree ∧ tree.token = token ∧
                    tree.words = words ∧ source.Gives state tree.choices after := by
            have hnext := htrail.cons hnew (OrderedMap.lt_size_of_at? hbank)
            have hfuel : pack.banks.size < fuel + (id :: active).length := by
              rw [List.length_cons]
              omega
            exact fun token state words after =>
              ih hnext hfuel token state words after hnext.length_le
          constructor
          · rintro ⟨hnew, bank, choice, middle, parts, hbank, hgives, hparts, rfl⟩
            obtain ⟨trees, htrees, htokens, rfl, hmore⟩ :=
              (runFrom_mapM_eq_ok_iff (hbelow hnew hbank)).mp hparts
            refine ⟨_, .bank choice hnew hbank htokens htrees, rfl, ?_, ?_⟩
            · rw [Derivation.words, List.flatMap_def]
            · rw [Derivation.choices]
              exact ChoiceSource.gives_append.mpr ⟨middle, hgives, hmore⟩
          · rintro ⟨tree, htree, htoken, rfl, hgives⟩
            obtain ⟨bank, choice, parts, hnew, hbank, htokens, hparts, rfl⟩ :=
              htree.of_token_eq_bank htoken
            rw [Derivation.choices, ← List.singleton_append] at hgives
            obtain ⟨middle, hfirst, hrest⟩ := ChoiceSource.gives_append.mp hgives
            refine ⟨hnew, bank, choice, middle, parts.map Derivation.words, hbank, hfirst, ?_, ?_⟩
            · exact (runFrom_mapM_eq_ok_iff (hbelow hnew hbank)).mpr
                ⟨parts, hparts, htokens, rfl, hrest⟩
            · rw [Derivation.words, List.flatMap_def]

/-! ## The choices tell the tree -/

/-- If the choices of a tree tell it apart from others that say the same token, the choices of a row
of trees do so from other rows. -/
theorem eq_of_flatMap_picks {trees others : List Derivation} {more rest : List Nat}
    (htrees : ∀ tree ∈ trees, ∀ other, pack.Derives above other → tree.token = other.token →
      ∀ more rest, tree.picks ++ more = other.picks ++ rest → tree = other ∧ more = rest)
    (hothers : ∀ other ∈ others, pack.Derives above other)
    (htokens : trees.map Derivation.token = others.map Derivation.token)
    (hpicks : trees.flatMap Derivation.picks ++ more = others.flatMap Derivation.picks ++ rest) :
    trees = others ∧ more = rest := by
  induction trees generalizing others with
  | nil =>
      obtain rfl := List.map_eq_nil_iff.mp htokens.symm
      exact ⟨rfl, hpicks⟩
  | cons tree trees ih =>
      obtain ⟨other, behind, rfl, htoken, htokens⟩ := List.map_eq_cons_iff.mp htokens.symm
      obtain ⟨htree, htrees⟩ := List.forall_mem_cons.mp htrees
      obtain ⟨hother, hbehind⟩ := List.forall_mem_cons.mp hothers
      rw [List.flatMap_cons, List.flatMap_cons, List.append_assoc, List.append_assoc] at hpicks
      obtain ⟨hsame, hpicks⟩ := htree other hother htoken.symm _ _ hpicks
      obtain ⟨hrest, hmore⟩ := ih htrees hbehind htokens.symm hpicks
      exact ⟨congrArg₂ List.cons hsame hrest, hmore⟩

theorem picks_bank (id : BankId) (count choice : Nat) (parts : List Derivation) :
    (Derivation.bank id count choice parts).picks = choice :: parts.flatMap Derivation.picks := by
  unfold Derivation.picks
  rw [Derivation.choices, List.map_cons, List.map_flatMap]

/-- No choices of one tree go on as choices of another one that says the same token. -/
theorem Derives.eq_of_picks {tree : Derivation} (htree : pack.Derives above tree) :
    ∀ other, pack.Derives above other → tree.token = other.token →
      ∀ more rest, tree.picks ++ more = other.picks ++ rest → tree = other ∧ more = rest := by
  induction htree with
  | word hword =>
      intro other hother htoken more rest hpicks
      obtain ⟨same, hsame, rfl⟩ := hother.of_token_eq_word htoken.symm
      cases hword.symm.trans hsame
      exact ⟨rfl, List.append_cancel_left hpicks⟩
  | bank choice hnew hbank htokens hparts ih =>
      intro other hother htoken more rest hpicks
      obtain ⟨same, pick, parts, _, hsame, hsameTokens, hsameParts, rfl⟩ :=
        hother.of_token_eq_bank htoken.symm
      cases hbank.symm.trans hsame
      rw [picks_bank, picks_bank, List.cons_append, List.cons_append, List.cons.injEq] at hpicks
      obtain ⟨hchoice, hbelow⟩ := hpicks
      obtain rfl := Fin.ext hchoice
      obtain ⟨rfl, hmore⟩ :=
        eq_of_flatMap_picks ih hsameParts (htokens.trans hsameTokens.symm) hbelow
      exact ⟨rfl, hmore⟩

/-! ## The words of a pack that was read -/

/-- Something is said at every leaf, so a tree of a pack that was read says something. -/
theorem Derives.words_ne_nil (hwell : pack.WellFormed) {tree : Derivation}
    (hderives : pack.Derives above tree) : tree.words ≠ [] := by
  induction hderives with
  | word _ => simp [Derivation.words]
  | @bank above id bank parts choice hnew hbank htokens hparts ih =>
      have hphrase : bank.phrases.get choice ∈ bank.phrases := List.get_mem _ _
      have hsayable := hwell.sayable bank (mem_banks_of_bank? hbank) _ hphrase
      have hparts : parts ≠ [] := by
        intro hnone
        apply hsayable.tokens_ne_nil
        rw [← htokens, hnone, List.map_nil]
      obtain ⟨part, rest, rfl⟩ := List.exists_cons_of_ne_nil hparts
      rw [Derivation.words, List.flatMap_cons]
      exact List.append_ne_nil_of_left_ne_nil (ih part List.mem_cons_self) _

theorem Derives.exists_word {tree : Derivation} (hderives : pack.Derives above tree) :
    ∀ text ∈ tree.words, ∃ word ∈ pack.words.values, word.text = text := by
  induction hderives with
  | word hword =>
      intro text htext
      rw [Derivation.words, List.mem_singleton] at htext
      exact ⟨_, mem_words_of_word? hword, htext.symm⟩
  | bank _ _ _ _ _ ih =>
      intro text htext
      rw [Derivation.words, List.mem_flatMap] at htext
      obtain ⟨part, hpart, htext⟩ := htext
      exact ih part hpart text htext

/-- No word of a pack that was read has a space in it. -/
theorem space_not_mem_of_ofSources {sources : List Source} (hread : ofSources sources = .ok pack)
    {word : Word} (hword : word ∈ pack.words.values) : ' ' ∉ word.text.toList := by
  have hkey : word.text ∈ pack.words.keys := by
    rw [← (wellFormed_of_ofSources hread).indexed.map_text_words]
    exact List.mem_map_of_mem hword
  rw [keys_words_of_ofSources hread] at hkey
  obtain ⟨token, _, ⟨_, hletters⟩, htext⟩ := mem_wordsAmong_iff.mp hkey
  rw [← htext, String.toList_ofList]
  intro hspace
  have hletter := hletters ' ' hspace
  revert hletter
  decide

/-- Words joined by spaces are found again between the spaces. -/
theorem splitOn_of_derivesFrom {sources : List Source} (hread : ofSources sources = .ok pack)
    {start : BankId} {tree : Derivation} (htree : pack.DerivesFrom start tree) :
    ((" ".intercalate tree.words).toList.splitOn ' ').map String.ofList = tree.words := by
  have hspaces : ∀ text ∈ tree.words.map String.toList, ' ' ∉ text := by
    intro text htext
    obtain ⟨spoken, hspoken, rfl⟩ := List.mem_map.mp htext
    obtain ⟨word, hword, rfl⟩ := htree.1.exists_word spoken hspoken
    exact space_not_mem_of_ofSources hread hword
  have hsome : tree.words.map String.toList ≠ [] := by
    rw [ne_eq, List.map_eq_nil_iff]
    exact htree.1.words_ne_nil (wellFormed_of_ofSources hread)
  have hsplit : (" ".intercalate tree.words).toList.splitOn ' ' = tree.words.map String.toList := by
    rw [String.toList_intercalate]
    exact List.splitOn_intercalate ' ' hspaces hsome
  rw [hsplit, List.map_map]
  simp [Function.comp_def]

/-! ## The main statement -/

theorem runFrom_sayWords_eq_ok_iff (start : BankId) (state : σ) (words : List String) (after : σ) :
    (pack.sayWords source start).runFrom state = (.ok words, after) ↔
      ∃ tree, pack.DerivesFrom start tree ∧ tree.words = words ∧
        source.Gives state tree.choices after := by
  have hfuel : pack.banks.size < pack.banks.size + 1 + ([] : List BankId).length := by
    rw [List.length_nil]
    omega
  have hsame : pack.sayWords source start =
      pack.sayToken source (pack.banks.size + 1) [] (.bank start) := rfl
  rw [hsame, runFrom_sayToken_eq_ok_iff (.nil pack) hfuel]
  simp only [DerivesFrom, and_assoc]

/-- With the choices of a tree its words are said, and all of the choices are taken. -/
theorem DerivesFrom.endsAfter {start : BankId} {tree : Derivation}
    (htree : pack.DerivesFrom start tree) :
    Attempt.EndsAfter tree.picks (.ok tree.words) (pack.sayWords .scripted start) := by
  intro more
  exact (runFrom_sayWords_eq_ok_iff start _ _ _).mpr
    ⟨tree, htree, rfl, ChoiceSource.gives_scripted htree.1.choices_lt more⟩

/-- **A bank says exactly its language.**  For every pack, however it was made, and every bank: the
rows of words that some choices make it say are those of its derivation trees; a run takes one
choice for each bank of the tree, among the phrases of that bank and in the order of the tree, and
these choices belong to no other tree.  If the pack was read from sources, the words of the text
that is said are what stands between its spaces. -/
theorem says_exactly_derivations (pack : Pack) (start : BankId) :
    (∀ words, (∃ (σ : Type) (source : ChoiceSource σ) (state after : σ),
        (pack.sayWords source start).runFrom state = (.ok words, after)) ↔
      ∃ tree, pack.DerivesFrom start tree ∧ tree.words = words) ∧
    (∀ (σ : Type) (source : ChoiceSource σ) (state : σ) (words : List String) (after : σ),
      (pack.sayWords source start).runFrom state = (.ok words, after) ↔
        ∃ tree, pack.DerivesFrom start tree ∧ tree.words = words ∧
          source.Gives state tree.choices after) ∧
    (∀ tree, pack.DerivesFrom start tree →
      Attempt.EndsAfter tree.picks (.ok tree.words) (pack.sayWords .scripted start) ∧
      ∀ other, pack.DerivesFrom start other → tree.picks <+: other.picks → tree = other) ∧
    ∀ sources, ofSources sources = .ok pack →
      ∀ name bank, pack.findBank? name = some bank → bank.id = start →
      ∀ (σ : Type) (source : ChoiceSource σ) (state : σ) (text : String) (after : σ),
        (pack.say source name).runFrom state = (.ok text, after) ↔
          (pack.sayWords source start).runFrom state =
            (.ok ((text.toList.splitOn ' ').map String.ofList), after) := by
  refine ⟨?_, fun σ source state words after => runFrom_sayWords_eq_ok_iff start state words after,
    ?_, ?_⟩
  · intro words
    constructor
    · rintro ⟨σ, source, state, after, hrun⟩
      obtain ⟨tree, htree, hwords, _⟩ := (runFrom_sayWords_eq_ok_iff start _ _ _).mp hrun
      exact ⟨tree, htree, hwords⟩
    · rintro ⟨tree, htree, rfl⟩
      exact ⟨List Nat, .scripted, tree.picks ++ [], [], htree.endsAfter []⟩
  · intro tree htree
    refine ⟨htree.endsAfter, fun other hother hprefix => ?_⟩
    obtain ⟨more, hmore⟩ := hprefix
    have htoken : tree.token = other.token := htree.2.trans hother.2.symm
    exact (htree.1.eq_of_picks other hother.1 htoken more [] (by rw [hmore, List.append_nil])).1
  · rintro sources hread name bank hbank rfl σ source state text after
    have hsay : pack.say source name = do
        let words ← pack.sayWords source bank.id
        return " ".intercalate words := by
      rw [say, hbank]
    rw [hsay, Attempt.runFrom_bind_eq_ok_iff]
    constructor
    · rintro ⟨words, middle, hrun, htext⟩
      cases htext
      obtain ⟨tree, htree, rfl, _⟩ := (runFrom_sayWords_eq_ok_iff _ _ _ _).mp hrun
      rw [splitOn_of_derivesFrom hread htree]
      exact hrun
    · intro hrun
      refine ⟨_, after, hrun, ?_⟩
      have hjoined : " ".intercalate ((text.toList.splitOn ' ').map String.ofList) = text := by
        apply String.toList_injective
        rw [String.toList_intercalate, List.map_map]
        simp [Function.comp_def]
      rw [hjoined]
      rfl

/-- A bank that is asked for twice in one phrase. -/
def echoSources : List Source :=
  [⟨"start", "\x7becho\x7d and \x7becho\x7d\n"⟩, ⟨"echo", "far\nnear\n"⟩]

/-- The bank that is asked for. -/
def echoBank : Bank := ⟨⟨1⟩, "echo", [⟨⟨1⟩, [.word ⟨1⟩]⟩, ⟨⟨2⟩, [.word ⟨2⟩]⟩]⟩

/-- The bank that asks. -/
def callBank : Bank := ⟨⟨0⟩, "start", [⟨⟨0⟩, [.bank ⟨1⟩, .word ⟨0⟩, .bank ⟨1⟩]⟩]⟩

/-- The pack of these sources. -/
def echoPack : Pack where
  words := ⟨[("and", ⟨⟨0⟩, "and"⟩), ("far", ⟨⟨1⟩, "far"⟩), ("near", ⟨⟨2⟩, "near"⟩)], by decide⟩
  banks := ⟨[("start", callBank), ("echo", echoBank)], by decide⟩

/-- One way of saying the first bank. -/
def echoTree : Derivation :=
  .bank ⟨0⟩ 1 0
    [.bank ⟨1⟩ 2 1 [.word ⟨2⟩ "near"], .word ⟨0⟩ "and", .bank ⟨1⟩ 2 0 [.word ⟨1⟩ "far"]]

theorem derivesFrom_echoTree : echoPack.DerivesFrom ⟨0⟩ echoTree := by
  have hcall : echoPack.bank? ⟨0⟩ = some callBank := rfl
  have hecho : echoPack.bank? ⟨1⟩ = some echoBank := rfl
  have hand : echoPack.Derives [⟨0⟩] (.word ⟨0⟩ "and") :=
    .word (show echoPack.word? ⟨0⟩ = some ⟨⟨0⟩, "and"⟩ from rfl)
  have hnear : echoPack.Derives [⟨1⟩, ⟨0⟩] (.word ⟨2⟩ "near") :=
    .word (show echoPack.word? ⟨2⟩ = some ⟨⟨2⟩, "near"⟩ from rfl)
  have hfar : echoPack.Derives [⟨1⟩, ⟨0⟩] (.word ⟨1⟩ "far") :=
    .word (show echoPack.word? ⟨1⟩ = some ⟨⟨1⟩, "far"⟩ from rfl)
  have hfirst : echoPack.Derives [⟨0⟩] (.bank ⟨1⟩ 2 1 [.word ⟨2⟩ "near"]) :=
    .bank ⟨1, by decide⟩ (by decide) hecho rfl (List.forall_mem_singleton.mpr hnear)
  have hlast : echoPack.Derives [⟨0⟩] (.bank ⟨1⟩ 2 0 [.word ⟨1⟩ "far"]) :=
    .bank ⟨0, by decide⟩ (by decide) hecho rfl (List.forall_mem_singleton.mpr hfar)
  refine ⟨.bank ⟨0, by decide⟩ List.not_mem_nil hcall rfl ?_, rfl⟩
  exact List.forall_mem_cons.mpr ⟨hfirst, List.forall_mem_cons.mpr
    ⟨hand, List.forall_mem_singleton.mpr hlast⟩⟩

/-- The bank is no longer being said when it is asked for again. -/
theorem says_exactly_derivations_echo :
    ofSources echoSources = .ok echoPack ∧ echoPack.DerivesFrom ⟨0⟩ echoTree ∧
      echoTree.picks = [0, 1, 0] ∧
      (echoPack.sayWords .scripted ⟨0⟩).runFrom [0, 1, 0, 7] = (.ok ["near", "and", "far"], [7]) ∧
      (echoPack.say .scripted "start").runFrom [0, 1, 0, 7] = (.ok "near and far", [7]) := by
  obtain ⟨_, _, hpicks, hsay⟩ := says_exactly_derivations echoPack ⟨0⟩
  have hread : ofSources echoSources = .ok echoPack := rfl
  have htaken : echoTree.picks = [0, 1, 0] := by
    simp [echoTree, Derivation.picks, Derivation.choices]
  have hwords : echoTree.words = ["near", "and", "far"] := by
    simp [echoTree, Derivation.words]
  have hrun := (hpicks echoTree derivesFrom_echoTree).1 [7]
  rw [htaken, hwords] at hrun
  refine ⟨hread, derivesFrom_echoTree, htaken, hrun, ?_⟩
  exact (hsay echoSources hread "start" _ rfl rfl _ _ _ _ _).mpr hrun

end SpeechRom.Pack
