import SpeechRom.Proofs.Pack.Checking

/-!
# What is reported when a bank comes back

When a bank is asked for that is being said already, the report is a chain of names.  The check of
a pack reports the banks of a round, the first one again at the end and no other one twice: a
`ClosedChain`.  Saying a bank reports all banks that are being said, from the one it started with,
and then the one that came back.  That is a closed chain behind a stem that leads to it, and the
whole of it is closed only if the stem is empty, which is to say that the bank to start with is the
one that came back (`chain_of_sayWords`).

## Strategy

A walk that fails knows the banks that are being said: distinct banks, each asking for the next,
from the start to the bank at hand (`failsOnly_sayBank`).  The one that came back stands among them,
so they fall apart into the stem and a round (`ComesBack.exists_stem`).
-/

namespace SpeechRom.Pack

variable {pack : Pack}

/-! ## Chains of names -/

/-- Some phrase of a bank with the one name asks for a bank with the other. -/
def AsksByName (pack : Pack) (name other : String) : Prop :=
  ∃ bank ∈ pack.banks.values, bank.name = name ∧
    ∃ target ∈ bank.references, ∃ asked, pack.bank? target = some asked ∧ asked.name = other

theorem Asks.byName (hclosed : pack.Closed) {id target : BankId} (hasks : pack.Asks id target) :
    pack.AsksByName (pack.bankName id) (pack.bankName target) := by
  obtain ⟨bank, hbank, htarget⟩ := hasks
  obtain ⟨asked, hasked⟩ := bank?_isSome_of_lt (hclosed id bank hbank target htarget)
  rw [bankName_eq hbank, bankName_eq hasked]
  exact ⟨bank, mem_banks_of_bank? hbank, rfl, target, htarget, asked, hasked, rfl⟩

/-- Names of banks that ask for one another, of which the last is the first again and no other one
occurs twice. -/
structure ClosedChain (pack : Pack) (chain : List String) : Prop where
  two_le : 2 ≤ chain.length
  closes : chain.head? = chain.getLast?
  asks : chain.IsChain pack.AsksByName
  nodup : chain.dropLast.Nodup

theorem IsRound.closedChain (hclosed : pack.Closed)
    (hnames : (pack.banks.values.map (·.name)).Nodup) {place : BankId} {between : List BankId}
    (hround : pack.IsRound place between) :
    pack.ClosedChain ((place :: (between ++ [place])).map pack.bankName) where
  two_le := by simp
  closes := by
    rw [← List.cons_append, List.map_append, List.map_singleton, List.getLast?_concat]
    rfl
  asks := by
    rw [List.isChain_map]
    exact hround.asks.imp fun _ _ hasks => hasks.byName hclosed
  nodup := by
    have hnodup := hround.nodup_names hnames
    rwa [← List.cons_append, List.map_append, List.map_singleton, List.dropLast_concat]

/-- What the check reports is a closed chain. -/
theorem closedChain_of_check (hclosed : pack.Closed)
    (hnames : (pack.banks.values.map (·.name)).Nodup) {primary : String} {chain : List String}
    (hcheck : pack.check primary = .error (.ring chain)) : pack.ClosedChain chain := by
  unfold check at hcheck
  split at hcheck
  · cases hcheck
  · split at hcheck
    · cases hcheck
    · rcases bind_eq_error_iff.mp hcheck with hexplore | ⟨_, _, hdone⟩
      · obtain ⟨place, between, hround, hchain⟩ := round_of_exploreAll hexplore
        cases hchain
        exact hround.closedChain hclosed hnames
      · cases hdone

/-! ## What is being said when a bank comes back -/

/-- The banks of `trail`, newest first, are being said, the first of them is the start and each asks
for the next; the newest asks for `place`, which is one of them. -/
structure ComesBack (pack : Pack) (start : BankId) (trail : List BankId) (place : BankId) :
    Prop where
  asks : (place :: trail).IsChain fun later earlier => pack.Asks earlier later
  distinct : pack.Trail trail
  mem : place ∈ trail
  start : trail.getLast? = some start

/-- A chain is reported only if a bank came back, and then it names all that is being said. -/
def ReportsReturn (pack : Pack) (start : BankId) (failure : BuildError) : Prop :=
  ∀ chain, failure = .ring chain → ∃ trail place, pack.ComesBack start trail place ∧
    chain = (place :: trail).reverse.map pack.bankName

variable {σ : Type} {source : ChoiceSource σ}

theorem failsOnly_sayBank {fuel : Nat} {active : List BankId} {id start : BankId}
    (htrail : pack.Trail active) (hfuel : pack.banks.size < fuel + active.length)
    (hasks : (id :: active).IsChain fun later earlier => pack.Asks earlier later)
    (hstart : (id :: active).getLast? = some start) :
    (pack.sayBank source fuel active id).FailsOnly (pack.ReportsReturn start) := by
  have hlength := htrail.length_le
  induction fuel generalizing active id with
  | zero =>
      -- a trail this long would hold more banks than the pack
      omega
  | succ fuel ih =>
      by_cases hmem : id ∈ active
      · rw [sayBank_of_mem hmem]
        refine .throw fun chain hchain => ?_
        cases hchain
        rw [List.getLast?_cons_of_ne_nil (List.ne_nil_of_mem hmem)] at hstart
        exact ⟨active, id, ⟨hasks, htrail, hmem, hstart⟩, rfl⟩
      cases hbank : pack.bank? id with
      | none =>
          rw [sayBank_of_none hmem hbank]
          exact .throw fun _ hchain => by cases hchain
      | some bank =>
          by_cases hpopulated : 0 < bank.phrases.length
          · rw [sayBank_succ hmem hbank hpopulated]
            refine (Attempt.FailsOnly.draw source hpopulated).bind fun choice => ?_
            refine (Attempt.FailsOnly.mapM fun token htoken => ?_).bind fun parts => .pure _
            cases token with
            | word word =>
                rw [sayToken]
                split
                · exact .pure _
                · exact .throw fun _ hchain => by cases hchain
            | bank target =>
                have hreference := mem_references_of_mem_tokens (List.get_mem _ _) htoken
                have hnext := htrail.cons hmem (OrderedMap.lt_size_of_at? hbank)
                have hfuel : pack.banks.size < fuel + (id :: active).length := by
                  rw [List.length_cons]
                  omega
                exact ih hnext hfuel (.cons_cons ⟨bank, hbank, hreference⟩ hasks) hstart
                  hnext.length_le
          · rw [sayBank_of_empty hmem hbank hpopulated]
            exact .throw fun _ hchain => by cases hchain

theorem failsOnly_sayWords (start : BankId) :
    (pack.sayWords source start).FailsOnly (pack.ReportsReturn start) := by
  have hfuel : pack.banks.size < pack.banks.size + 1 + ([] : List BankId).length := by
    rw [List.length_nil]
    omega
  have hstart : [start].getLast? = some start := rfl
  exact failsOnly_sayBank (.nil pack) hfuel (.singleton start) hstart

/-- The banks in front of the one that came back lead to a round of the others. -/
theorem ComesBack.exists_stem {start place : BankId} {trail : List BankId}
    (hback : pack.ComesBack start trail place) :
    ∃ stem between, trail.reverse = stem ++ place :: between ∧ pack.IsRound place between := by
  obtain ⟨hasks, hdistinct, hmem, _⟩ := hback
  obtain ⟨newer, older, rfl, _⟩ := List.eq_append_cons_of_mem hmem
  exact ⟨older.reverse, newer.reverse, by simp, isRound_of_asks hasks hdistinct.nodup⟩

/-! ## The names that are reported -/

/-- In a pack that was read, banks have different names. -/
theorem nodup_names_of_ofSources {sources : List Source} (hread : ofSources sources = .ok pack) :
    (pack.banks.values.map (·.name)).Nodup := by
  have hindexed := (wellFormed_of_ofSources hread).indexed
  have hkeys : pack.banks.values.map (·.name) = pack.banks.keys :=
    hindexed.banks.map_values_eq_keys fun _ _ _ hbank => hbank.2
  rw [hkeys]
  exact pack.banks.distinct

section Names

variable {start place : BankId} {trail : List BankId}

theorem reported_eq (trail : List BankId) (place : BankId) :
    (place :: trail).reverse.map pack.bankName =
      trail.reverse.map pack.bankName ++ [pack.bankName place] := by
  rw [List.reverse_cons, List.map_append, List.map_singleton]

theorem ComesBack.head?_names (hback : pack.ComesBack start trail place) :
    (trail.reverse.map pack.bankName ++ [pack.bankName place]).head? =
      some (pack.bankName start) := by
  rw [List.head?_append, List.head?_map, List.head?_reverse, hback.start]
  rfl

theorem ComesBack.isChain_names (hclosed : pack.Closed) (hback : pack.ComesBack start trail place) :
    (trail.reverse.map pack.bankName ++ [pack.bankName place]).IsChain pack.AsksByName := by
  rw [← reported_eq, List.isChain_map, List.isChain_reverse]
  exact hback.asks.imp fun _ _ hasks => hasks.byName hclosed

theorem ComesBack.nodup_names (hnames : (pack.banks.values.map (·.name)).Nodup)
    (hback : pack.ComesBack start trail place) : (trail.reverse.map pack.bankName).Nodup := by
  refine nodup_map_bankName hnames (List.nodup_reverse.mpr hback.distinct.nodup) ?_
  intro id hid
  exact bank?_isSome_of_lt (hback.distinct.present id (List.mem_reverse.mp hid))

/-- The stem is empty if and only if the bank that came back has the name of the start. -/
theorem ComesBack.name_eq_iff (hnames : (pack.banks.values.map (·.name)).Nodup)
    (hback : pack.ComesBack start trail place) {stem between : List BankId}
    (hsplit : trail.reverse = stem ++ place :: between) :
    pack.bankName place = pack.bankName start ↔ stem = [] := by
  have hnodup := hback.nodup_names hnames
  have hstart : trail.reverse.head? = some start := by
    rw [List.head?_reverse, hback.start]
  rw [hsplit] at hnodup hstart
  cases stem with
  | nil =>
      cases hstart
      exact iff_of_true rfl rfl
  | cons first rest =>
      cases hstart
      rw [List.cons_append, List.map_cons, List.nodup_cons] at hnodup
      refine iff_of_false (fun hname => hnodup.1 ?_) (List.cons_ne_nil _ _)
      rw [← hname]
      exact List.mem_map_of_mem (List.mem_append_right _ List.mem_cons_self)

end Names

/-! ## The main statement -/

/-- **Saying reports a closed chain behind a stem.**  For every pack that was read from sources,
every bank to start with and all choices: the names that are reported lead along the references from
the start to the bank that came back, and only the last one occurs a second time.  At the end of the
chain stands a closed one, which is all that the check of a pack reports; here the stem in front of
it stays, so that the chain is closed only if the stem is empty, which is to say that the bank that
came back is the one to start with. -/
theorem chain_of_sayWords {sources : List Source} (hread : ofSources sources = .ok pack)
    {start : BankId} {state after : σ} {chain : List String}
    (hrun : (pack.sayWords source start).runFrom state = (.error (.ring chain), after)) :
    chain.head? = some (pack.bankName start) ∧ chain.IsChain pack.AsksByName ∧
    chain.dropLast.Nodup ∧
    (∃ stem closed, chain = stem ++ closed ∧ pack.ClosedChain closed ∧
      (pack.ClosedChain chain ↔ stem = [])) ∧
    (pack.ClosedChain chain ↔ chain.getLast? = some (pack.bankName start)) ∧
    ∀ primary reported, pack.check primary = .error (.ring reported) →
      pack.ClosedChain reported := by
  have hclosed := (wellFormed_of_ofSources hread).closed
  have hnames := nodup_names_of_ofSources hread
  obtain ⟨trail, place, hback, rfl⟩ := failsOnly_sayWords start state _ after hrun _ rfl
  obtain ⟨stem, between, hsplit, hround⟩ := hback.exists_stem
  have hclosedPart := hround.closedChain hclosed hnames
  have hwhole : (place :: trail).reverse.map pack.bankName =
      stem.map pack.bankName ++ (place :: (between ++ [place])).map pack.bankName := by
    rw [List.reverse_cons, hsplit, List.append_assoc, List.cons_append, List.map_append]
  have hlength : 2 ≤ ((place :: trail).reverse.map pack.bankName).length := by
    rw [hwhole, List.length_append]
    exact Nat.le_add_left_of_le hclosedPart.two_le
  rw [reported_eq] at hwhole hlength ⊢
  have hhead := hback.head?_names
  have hnodup : (trail.reverse.map pack.bankName ++ [pack.bankName place]).dropLast.Nodup := by
    rw [List.dropLast_concat]
    exact hback.nodup_names hnames
  have hiff : pack.ClosedChain (trail.reverse.map pack.bankName ++ [pack.bankName place]) ↔
      pack.bankName place = pack.bankName start := by
    constructor
    · intro hchain
      have hcloses := hchain.closes
      rw [hhead, List.getLast?_concat, Option.some.injEq] at hcloses
      exact hcloses.symm
    · intro hname
      refine ⟨hlength, ?_, hback.isChain_names hclosed, hnodup⟩
      rw [hhead, List.getLast?_concat, hname]
  refine ⟨hhead, hback.isChain_names hclosed, hnodup, ⟨_, _, hwhole, hclosedPart, ?_⟩, ?_, ?_⟩
  · rw [hiff, hback.name_eq_iff hnames hsplit, List.map_eq_nil_iff]
  · rw [hiff, List.getLast?_concat, Option.some.injEq]
  · intro primary reported hcheck
    exact closedChain_of_check hclosed hnames hcheck

/-- The start asks for a bank that asks for itself. -/
def spinSources : List Source :=
  [⟨"start", "\x7bspin\x7d\n"⟩, ⟨"spin", "\x7bspin\x7d\n"⟩]

/-- What is reported is the ring of the bank that asks for itself, with the start in front of it. -/
theorem chain_of_sayWords_spin :
    ∃ pack, ofSources spinSources = .ok pack ∧
      (pack.sayWords .scripted ⟨0⟩).runFrom [0, 0] =
        (.error (.ring ["start", "spin", "spin"]), []) ∧
      ["start", "spin", "spin"].IsChain pack.AsksByName ∧
      (∃ stem closed, ["start", "spin", "spin"] = stem ++ closed ∧ pack.ClosedChain closed) ∧
      ¬ pack.ClosedChain ["start", "spin", "spin"] := by
  obtain ⟨pack, hread, hrun, hname⟩ : ∃ pack, ofSources spinSources = .ok pack ∧
      (pack.sayWords .scripted ⟨0⟩).runFrom [0, 0] =
        (.error (.ring ["start", "spin", "spin"]), []) ∧
      pack.bankName ⟨0⟩ = "start" := ⟨_, rfl, rfl, rfl⟩
  obtain ⟨_, hasks, _, ⟨stem, closed, hsplit, hclosed, _⟩, hiff, _⟩ := chain_of_sayWords hread hrun
  refine ⟨pack, hread, hrun, hasks, ⟨stem, closed, hsplit, hclosed⟩, ?_⟩
  rw [hiff, hname]
  decide

/-- The report that a bank came back is not a closed chain. -/
theorem not_closedChain_spin :
    ∃ pack chain, ofSources spinSources = .ok pack ∧
      (pack.sayWords .scripted ⟨0⟩).runFrom [0, 0] = (.error (.ring chain), []) ∧
      chain.head? ≠ chain.getLast? ∧ ¬ pack.ClosedChain chain := by
  refine ⟨_, ["start", "spin", "spin"], rfl, rfl, by decide, fun hchain => ?_⟩
  have hcloses := hchain.closes
  revert hcloses
  decide

end SpeechRom.Pack
