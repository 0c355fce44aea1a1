import Mathlib.Data.List.Chain
import SpeechRom.Proofs.Choices
import SpeechRom.Proofs.Pack.Acyclic
import SpeechRom.Proofs.Pack.Contents

/-!
# Checking a pack is trying all choices

The check of a pack looks for banks that ask for one another in a ring; saying a bank
fails when it comes back to a bank that is being said.  The two agree: a pack passes
exactly when every one of its banks can be said whatever the source chooses, and if it
does not pass, there are a bank and a list of choices that end in a ring
(`check_iff_sayable`).

## Strategy

What both sides have to do with is `Asks`, the references between banks.  A search that
fails has walked along them back to where it has been (`round_of_explore`).  From a bank
from which a ring is ahead, the choices go for a phrase that asks for the next bank on
the way; what the phrase says in front of it either comes to an end or fails by itself
(`mayFail_sayBank`).  That a pack which passes can be said is known from the order of
its banks (`succeeds_sayWords_of_check`).

No ring is met for want of fuel: more of it would say the same
(`WellFormed.sayBank_eq_of_fuel`).
-/

namespace SpeechRom.Pack

variable {pack : Pack}

/-! ## References -/

/-- Some phrase of the one bank asks for the other. -/
def Asks (pack : Pack) (id target : BankId) : Prop :=
  ∃ bank, pack.bank? id = some bank ∧ target ∈ bank.references

/-- Saying came back to a bank that was being said. -/
def IsRing (failure : BuildError) : Prop := ∃ chain, failure = .ring chain

/-! ## Fuel that a trail cannot use up -/

/-- Two amounts of fuel that both last say the same. -/
theorem WellFormed.sayBank_eq_of_fuel (hwell : pack.WellFormed) {σ : Type}
    (source : ChoiceSource σ) {fuel other : Nat} {active : List BankId} {id : BankId}
    (htrail : pack.Trail active) (hid : id.index < pack.banks.size)
    (hfuel : pack.banks.size < fuel + active.length)
    (hother : pack.banks.size < other + active.length) :
    pack.sayBank source fuel active id = pack.sayBank source other active id := by
  have hlength := htrail.length_le
  induction fuel generalizing other active id with
  | zero =>
      -- a trail this long would hold more banks than the pack
      omega
  | succ fuel ih =>
      obtain ⟨other, rfl⟩ : ∃ less, other = less + 1 := ⟨other - 1, by omega⟩
      by_cases hmem : id ∈ active
      · rw [sayBank_of_mem hmem, sayBank_of_mem hmem]
      obtain ⟨bank, hbank⟩ := bank?_isSome_of_lt hid
      have hpopulated : 0 < bank.phrases.length :=
        List.length_pos_iff.mpr (hwell.populated bank (mem_banks_of_bank? hbank))
      rw [sayBank_succ hmem hbank hpopulated, sayBank_succ hmem hbank hpopulated]
      refine bind_congr fun choice => ?_
      have htokens : ∀ token ∈ (bank.phrases.get choice).tokens,
          pack.sayToken source fuel (id :: active) token =
            pack.sayToken source other (id :: active) token := by
        intro token htoken
        cases token with
        | word word => rfl
        | bank target =>
            have hreference := mem_references_of_mem_tokens (List.get_mem _ _) htoken
            have hnext := htrail.cons hmem hid
            have hstep : (id :: active).length = active.length + 1 := List.length_cons
            exact ih hnext (hwell.closed id bank hbank target hreference) (by omega) (by omega)
              hnext.length_le
      rw [mapM_congr htokens]

/-! ## A search that fails has found a ring -/

/-- A walk along references from a bank back to it, through `between`, that meets no bank twice on
its way. -/
structure IsRound (pack : Pack) (place : BankId) (between : List BankId) : Prop where
  asks : (place :: (between ++ [place])).IsChain pack.Asks
  nodup : (place :: between).Nodup

theorem IsRound.transGen {place : BankId} {between : List BankId}
    (hround : pack.IsRound place between) : Relation.TransGen pack.Asks place place :=
  (hround.asks.imp fun _ _ => .single).rel_cons (List.mem_append_right _ List.mem_cons_self)

/-- The part of a chain from the bank on that is asked for again is a round. -/
theorem isRound_of_asks {newer older : List BankId} {target : BankId}
    (hasks : (target :: (newer ++ target :: older)).IsChain
      fun later earlier => pack.Asks earlier later)
    (hnodup : (newer ++ target :: older).Nodup) : pack.IsRound target newer.reverse := by
  have hwalk : (target :: (newer ++ [target])).IsChain
      fun later earlier => pack.Asks earlier later :=
    hasks.prefix ⟨older, by simp⟩
  obtain ⟨hnewer, _, hdisjoint⟩ := List.nodup_append.mp hnodup
  have hoff : target ∉ newer := fun hmem => hdisjoint _ hmem _ List.mem_cons_self rfl
  refine ⟨?_, List.nodup_cons.mpr ⟨by simpa using hoff, List.nodup_reverse.mpr hnewer⟩⟩
  rw [← List.isChain_reverse] at hwalk
  simpa using hwalk

/-- What is reported when a reference goes back into the chain is a round: the part of the chain
from there on. -/
theorem exists_round_of_mem {chain : List BankId} {target : BankId}
    (hasks : (target :: chain).IsChain fun later earlier => pack.Asks earlier later)
    (hnodup : chain.Nodup) (hmem : target ∈ chain) :
    ∃ between, pack.IsRound target between ∧
      pack.ring chain target = (target :: (between ++ [target])).map pack.bankName := by
  obtain ⟨newer, older, rfl, hoff⟩ := List.eq_append_cons_of_mem hmem
  have htake : (newer ++ target :: older).takeWhile (fun bank => bank ≠ target) = newer := by
    rw [List.takeWhile_append_of_pos, List.takeWhile_cons_of_neg, List.append_nil]
    · simp
    · exact fun bank hbank => decide_eq_true fun heq => hoff (heq ▸ hbank)
  refine ⟨newer.reverse, isRound_of_asks hasks hnodup, ?_⟩
  rw [ring, htake]
  simp

/-- While a bank is visited to which the banks of the chain lead, newest first, a failure reports a
round. -/
theorem round_of_explore {fuel : Nat} {chain done : List BankId} {id : BankId}
    {failure : BuildError}
    (hasks : (id :: chain).IsChain fun later earlier => pack.Asks earlier later)
    (hnodup : (id :: chain).Nodup) (hexplore : pack.explore fuel chain done id = .error failure) :
    ∃ place between, pack.IsRound place between ∧
      failure = .ring ((place :: (between ++ [place])).map pack.bankName) := by
  induction fuel generalizing chain done id with
  | zero => cases hexplore
  | succ fuel ih =>
      rw [explore] at hexplore
      rcases bind_eq_error_iff.mp hexplore with hfold | ⟨_, _, hdone⟩
      · obtain ⟨target, htarget, before, hvisit⟩ := exists_of_foldlM_eq_error hfold
        have hreference : pack.Asks id target := by
          cases hbank : pack.bank? id with
          | none =>
              rw [hbank] at htarget
              cases htarget
          | some bank =>
              rw [hbank] at htarget
              exact ⟨bank, hbank, htarget⟩
        have hlonger : (target :: id :: chain).IsChain
            fun later earlier => pack.Asks earlier later :=
          .cons_cons hreference hasks
        split at hvisit
        · cases hvisit
        · split at hvisit
          · rename_i hmem
            obtain ⟨between, hround, hring⟩ := exists_round_of_mem hlonger hnodup hmem
            cases hvisit
            exact ⟨target, between, hround, congrArg _ hring⟩
          · rename_i hoff
            exact ih hlonger (List.nodup_cons.mpr ⟨hoff, hnodup⟩) hvisit
      · cases hdone

/-- If the search through all banks fails, it reports a round. -/
theorem round_of_exploreAll {failure : BuildError} (hexplore : pack.exploreAll = .error failure) :
    ∃ place between, pack.IsRound place between ∧
      failure = .ring ((place :: (between ++ [place])).map pack.bankName) := by
  obtain ⟨id, _, done, hvisit⟩ := exists_of_foldlM_eq_error hexplore
  split at hvisit
  · cases hvisit
  · exact round_of_explore (.singleton id) (List.nodup_singleton id) hvisit

theorem ring_of_exploreAll {failure : BuildError} (hexplore : pack.exploreAll = .error failure) :
    ∃ place, Relation.TransGen pack.Asks place place := by
  obtain ⟨place, _, hround, _⟩ := round_of_exploreAll hexplore
  exact ⟨place, hround.transGen⟩

/-! ## Choices that lead into a ring -/

/-- If banks can be said to an end by some choices, so can every token of a phrase. -/
theorem mayEnd_sayToken {fuel : Nat} {active : List BankId}
    (hbanks : ∀ {id : BankId}, id.index < pack.banks.size →
      (pack.sayBank .scripted fuel active id).MayEnd IsRing)
    {phrase : Phrase} (hsayable : pack.Sayable phrase) {token : Token}
    (htoken : token ∈ phrase.tokens) :
    (pack.sayToken .scripted fuel active token).MayEnd IsRing := by
  have hresolves := hsayable.resolves token htoken
  cases token with
  | word id =>
      obtain ⟨word, hword⟩ := word?_isSome_of_lt hresolves
      rw [sayToken, hword]
      exact .pure _
  | bank id => exact hbanks hresolves

/-- Every bank can be said to an end by some choices, or they lead into a ring. -/
theorem mayEnd_sayBank (hwell : pack.WellFormed) (fuel : Nat) (active : List BankId) {id : BankId}
    (hid : id.index < pack.banks.size) :
    (pack.sayBank .scripted fuel active id).MayEnd IsRing := by
  induction fuel generalizing active id with
  | zero => exact (Attempt.MayFail.throw ⟨_, rfl⟩).mayEnd
  | succ fuel ih =>
      by_cases hmem : id ∈ active
      · rw [sayBank_of_mem hmem]
        exact (Attempt.MayFail.throw ⟨_, rfl⟩).mayEnd
      obtain ⟨bank, hbank⟩ := bank?_isSome_of_lt hid
      have hpopulated : 0 < bank.phrases.length :=
        List.length_pos_iff.mpr (hwell.populated bank (mem_banks_of_bank? hbank))
      rw [sayBank_succ hmem hbank hpopulated]
      refine (Attempt.MayEnd.draw hpopulated).bind fun choice => ?_
      refine Attempt.MayEnd.bind ?_ fun parts => .pure parts.flatten
      have hphrase : bank.phrases.get choice ∈ bank.phrases := List.get_mem _ _
      exact .mapM fun token => mayEnd_sayToken (ih (id :: active))
        (hwell.sayable bank (mem_banks_of_bank? hbank) _ hphrase)

/-- **From a bank with a ring ahead, some choices lead into a ring.** -/
theorem mayFail_sayBank (hwell : pack.WellFormed) (fuel : Nat) (active : List BankId)
    {id : BankId} (hring : LeadsToRing pack.Asks id) :
    (pack.sayBank .scripted fuel active id).MayFail IsRing := by
  induction fuel generalizing active id with
  | zero => exact .throw ⟨_, rfl⟩
  | succ fuel ih =>
      by_cases hmem : id ∈ active
      · rw [sayBank_of_mem hmem]
        exact .throw ⟨_, rfl⟩
      obtain ⟨target, ⟨bank, hbank, htarget⟩, hahead⟩ := hring.exists_step
      obtain ⟨phrase, hphrase, htoken⟩ := mem_tokens_of_mem_references htarget
      obtain ⟨place, rfl⟩ := List.mem_iff_get.mp hphrase
      have hpopulated : 0 < bank.phrases.length := Nat.zero_lt_of_lt place.isLt
      have hsayable := hwell.sayable bank (mem_banks_of_bank? hbank) _ hphrase
      rw [sayBank_succ hmem hbank hpopulated]
      refine .bind_of_endsAfter (.draw hpopulated place) (Attempt.MayFail.bind ?_)
      refine .mapM (fun token => mayEnd_sayToken (mayEnd_sayBank hwell fuel (id :: active)) hsayable)
        htoken ?_
      exact ih (id :: active) hahead

/-! ## The main statement -/

/-- With a bank to start from and no bank empty, the check is the search for rings. -/
theorem check_eq_of_populated (hpopulated : ∀ bank ∈ pack.banks.values, bank.phrases ≠ [])
    {primary : String} {start : Bank} (hprimary : pack.findBank? primary = some start) :
    pack.check primary = do
      let _ ← pack.exploreAll
      return start.id := by
  have hnone : (pack.banks.values.find? fun bank => bank.phrases.isEmpty) = none := by
    refine List.find?_eq_none.mpr fun bank hbank => ?_
    rw [List.isEmpty_iff]
    exact hpopulated bank hbank
  rw [check, hprimary]
  dsimp only
  rw [hnone]

theorem check_eq (hwell : pack.WellFormed) {primary : String} {start : Bank}
    (hprimary : pack.findBank? primary = some start) :
    pack.check primary = do
      let _ ← pack.exploreAll
      return start.id :=
  check_eq_of_populated hwell.populated hprimary

/-- **Checking a pack is trying all choices.**  For a pack that was read from sources and any bank
of it to start from: it passes if and only if every bank can be said from every state of every
source; and if it does not pass, some bank and some list of choices end in a ring. -/
theorem check_iff_sayable {sources : List Source} (hread : ofSources sources = .ok pack)
    {primary : String} {start : Bank} (hprimary : pack.findBank? primary = some start) :
    ((∃ id, pack.check primary = .ok id) ↔
      ∀ bank ∈ pack.banks.values, ∀ (σ : Type) (source : ChoiceSource σ) (state : σ),
        ∃ words after, (pack.sayWords source bank.id).runFrom state = (.ok words, after)) ∧
    ∀ failure, pack.check primary = .error failure →
      ∃ bank ∈ pack.banks.values, ∃ picks chain after,
        (pack.sayWords .scripted bank.id).runFrom picks = (.error (.ring chain), after) := by
  have hwell := wellFormed_of_ofSources hread
  have hfails : ∀ failure, pack.check primary = .error failure →
      ∃ bank ∈ pack.banks.values, ∃ picks chain after,
        (pack.sayWords .scripted bank.id).runFrom picks = (.error (.ring chain), after) := by
    intro failure hcheck
    rw [check_eq hwell hprimary] at hcheck
    rcases bind_eq_error_iff.mp hcheck with hexplore | ⟨_, _, hdone⟩
    · obtain ⟨place, hround⟩ := ring_of_exploreAll hexplore
      obtain ⟨_, ⟨bank, hbank, _⟩, _⟩ := Relation.TransGen.head'_iff.mp hround
      obtain rfl := hwell.indexed.id_of_bank? hbank
      obtain ⟨picks, _, hends, chain, rfl⟩ :=
        mayFail_sayBank hwell (pack.banks.size + 1) [] ⟨_, .refl, hround⟩
      exact ⟨bank, mem_banks_of_bank? hbank, picks ++ [], chain, [], hends []⟩
    · cases hdone
  refine ⟨⟨?_, fun hsayable => ?_⟩, hfails⟩
  · rintro ⟨id, hcheck⟩ bank hbank σ source state
    obtain ⟨words, after, hrun, _⟩ := succeeds_sayWords_of_check hwell hcheck source hbank state
    exact ⟨words, after, hrun⟩
  · cases hcheck : pack.check primary with
    | ok id => exact ⟨id, rfl⟩
    | error failure =>
        obtain ⟨bank, hbank, picks, chain, after, hring⟩ := hfails failure hcheck
        obtain ⟨words, last, hwords⟩ := hsayable bank hbank (List Nat) .scripted picks
        rw [hring] at hwords
        cases hwords

/-- Two banks ask for each other, apart from the bank to start from. -/
def asideSources : List Source :=
  [⟨"start", "hello
"⟩, ⟨"left", "one
and {right}
"⟩, ⟨"right", "two
{left}
"⟩]

/-- The ring stands apart from the start, and still some bank and some choices end in it. -/
theorem check_iff_sayable_aside :
    ∃ pack start bank picks chain after,
      ofSources asideSources = .ok pack ∧ pack.findBank? "start" = some start ∧
        (∃ failure, pack.check "start" = .error failure) ∧ bank ∈ pack.banks.values ∧
        (pack.sayWords .scripted bank.id).runFrom picks = (.error (.ring chain), after) := by
  obtain ⟨pack, start, failure, hread, hstart, hcheck⟩ :
      ∃ pack start failure, ofSources asideSources = .ok pack ∧
        pack.findBank? "start" = some start ∧ pack.check "start" = .error failure :=
    ⟨_, _, _, rfl, rfl, rfl⟩
  obtain ⟨_, hfails⟩ := check_iff_sayable hread hstart
  obtain ⟨bank, hbank, picks, chain, after, hring⟩ := hfails failure hcheck
  exact ⟨pack, start, bank, picks, chain, after, hread, hstart, ⟨failure, hcheck⟩, hbank, hring⟩

end SpeechRom.Pack
