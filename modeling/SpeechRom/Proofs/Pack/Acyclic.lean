import SpeechRom.Proofs.Pack.Speech

/-!
# What checking a pack guarantees

The list of banks that a search leaves behind is *ordered*: every bank in it stands
in front of all the banks it asks for.  So no bank of the list can come back to
itself, and saying it comes to an end with at least one word
(`Ordered.succeeds_sayBank`).  A checked pack has all its banks in such a list
(`exists_ordered_of_check`).

## Strategy

While `explore` visits a bank, the banks on its chain are apart from the list of
banks that are done, and a nested visit keeps it so.  Hence a bank that joins the
list is not in it yet, and all it asks for is.  The fuel lasts because the chain is
a trail.
-/

namespace SpeechRom.Pack

variable {pack : Pack}

/-! ## Ordered lists of banks -/

/-- Every bank of the list stands in front of all it asks for. -/
def Ordered (pack : Pack) : List BankId → Prop
  | [] => True
  | id :: rest =>
    id ∉ rest ∧
      (∃ bank, pack.bank? id = some bank ∧ ∀ target ∈ bank.references, target ∈ rest) ∧
      pack.Ordered rest

theorem Ordered.trail {order : List BankId} (hordered : pack.Ordered order) :
    pack.Trail order := by
  induction order with
  | nil => exact .nil pack
  | cons id rest ih =>
      obtain ⟨hnew, ⟨bank, hbank, _⟩, hrest⟩ := hordered
      exact (ih hrest).cons hnew (OrderedMap.lt_size_of_at? hbank)

/-! ## The search -/

/-- What a visit makes of the list of banks that are done: it is ordered again, nothing is lost, and
the banks of the chain are still apart from it. -/
structure Visited (pack : Pack) (chain done result : List BankId) : Prop where
  ordered : pack.Ordered result
  kept : done ⊆ result
  apart : ∀ id ∈ chain, id ∉ result

/-- Visits in a row reach every target. -/
theorem Visited.foldlM {ε : Type} {chain : List BankId}
    {visit : List BankId → BankId → Except ε (List BankId)} {targets : List BankId}
    (hvisit : ∀ target ∈ targets, ∀ before after, pack.Ordered before →
      (∀ id ∈ chain, id ∉ before) → visit before target = .ok after →
        pack.Visited chain before after ∧ target ∈ after)
    {done result : List BankId} (hordered : pack.Ordered done) (hapart : ∀ id ∈ chain, id ∉ done)
    (hfold : targets.foldlM visit done = .ok result) :
    pack.Visited chain done result ∧ ∀ target ∈ targets, target ∈ result := by
  induction targets generalizing done with
  | nil =>
      cases hfold
      exact ⟨⟨hordered, List.Subset.refl _, hapart⟩, by simp⟩
  | cons target rest ih =>
      rw [List.foldlM_cons] at hfold
      obtain ⟨middle, hmiddle, hfold⟩ := bind_eq_ok_iff.mp hfold
      obtain ⟨hhead, htarget⟩ :=
        hvisit target List.mem_cons_self done middle hordered hapart hmiddle
      obtain ⟨hrest, htargets⟩ := ih
        (fun other hother => hvisit other (List.mem_cons_of_mem _ hother))
        hhead.ordered hhead.apart hfold
      refine ⟨⟨hrest.ordered, List.Subset.trans hhead.kept hrest.kept, hrest.apart⟩, ?_⟩
      intro other hother
      rcases List.mem_cons.mp hother with rfl | hother
      · exact hrest.kept htarget
      · exact htargets other hother

/-- Every bank that a bank asks for is there. -/
def Closed (pack : Pack) : Prop :=
  ∀ id bank, pack.bank? id = some bank → ∀ target ∈ bank.references,
    target.index < pack.banks.size

/-- A visit that succeeds puts its bank on the list of banks that are done. -/
theorem visited_of_explore (hclosed : pack.Closed) {fuel : Nat}
    {chain done result : List BankId} {id : BankId} (htrail : pack.Trail (id :: chain))
    (hfuel : pack.banks.size ≤ fuel + chain.length) (hordered : pack.Ordered done)
    (hapart : ∀ other ∈ chain, other ∉ done) (hnew : id ∉ done)
    (hexplore : pack.explore fuel chain done id = .ok result) :
    pack.Visited chain done result ∧ id ∈ result := by
  induction fuel generalizing chain done id result with
  | zero =>
      -- the chain would hold every bank already, and the one to visit besides
      have hlength := htrail.length_le
      rw [List.length_cons] at hlength
      omega
  | succ fuel ih =>
      obtain ⟨bank, hbank⟩ := bank?_isSome_of_lt (htrail.present id List.mem_cons_self)
      rw [explore, hbank] at hexplore
      obtain ⟨last, hlast, heq⟩ := bind_eq_ok_iff.mp hexplore
      cases heq
      have hopen : ∀ other ∈ id :: chain, other ∉ done :=
        List.forall_mem_cons.mpr ⟨hnew, hapart⟩
      -- for the visits inside, the bank itself is on the chain, so none of them puts it on the list
      have hnested : pack.Visited (id :: chain) done last ∧
          ∀ target ∈ bank.references, target ∈ last := by
        refine Visited.foldlM ?_ hordered hopen hlast
        intro target htarget before after hbefore hbeforeApart hvisit
        split at hvisit
        · rename_i hdone
          cases hvisit
          exact ⟨⟨hbefore, List.Subset.refl _, hbeforeApart⟩, hdone⟩
        · rename_i hdone
          split at hvisit
          · cases hvisit
          · rename_i hoff
            refine ih (htrail.cons hoff (hclosed id bank hbank target htarget)) ?_ hbefore
              hbeforeApart hdone hvisit
            rw [List.length_cons]
            omega
      obtain ⟨hvisited, hreferences⟩ := hnested
      obtain ⟨hself, hothers⟩ := List.forall_mem_cons.mp hvisited.apart
      refine ⟨⟨⟨hself, ⟨bank, hbank, hreferences⟩, hvisited.ordered⟩, ?_, ?_⟩,
        List.mem_cons_self⟩
      · exact fun other hother => List.mem_cons_of_mem _ (hvisited.kept hother)
      · intro other hother hmem
        rcases List.mem_cons.mp hmem with rfl | hmem
        · exact (List.nodup_cons.mp htrail.nodup).1 hother
        · exact hothers other hother hmem

/-- A search that meets no ring puts all banks in order. -/
theorem ordered_of_exploreAll (hclosed : pack.Closed) {result : List BankId}
    (hexplore : pack.exploreAll = .ok result) :
    pack.Ordered result ∧ ∀ id : BankId, id.index < pack.banks.size → id ∈ result := by
  rw [exploreAll] at hexplore
  have hvisited : pack.Visited [] [] result ∧
      ∀ id ∈ (List.range pack.banks.size).map BankId.mk, id ∈ result := by
    refine Visited.foldlM ?_ trivial (by simp) hexplore
    intro id hid before after hbefore hapart hvisit
    split at hvisit
    · rename_i hdone
      cases hvisit
      exact ⟨⟨hbefore, List.Subset.refl _, hapart⟩, hdone⟩
    · rename_i hdone
      obtain ⟨index, hindex, rfl⟩ := List.mem_map.mp hid
      have htrail := (Trail.nil pack).cons List.not_mem_nil (List.mem_range.mp hindex)
      exact visited_of_explore hclosed htrail (Nat.le_refl _) hbefore hapart hdone hvisit
  refine ⟨hvisited.1.ordered, fun id hlt => hvisited.2 id ?_⟩
  exact List.mem_map.mpr ⟨id.index, List.mem_range.mpr hlt, rfl⟩

/-! ## Saying the banks of an ordered list -/

theorem mem_references_of_mem_tokens {bank : Bank} {phrase : Phrase}
    (hphrase : phrase ∈ bank.phrases) {target : BankId} (htoken : .bank target ∈ phrase.tokens) :
    target ∈ bank.references :=
  List.mem_flatMap.mpr ⟨phrase, hphrase, List.mem_filterMap.mpr ⟨_, htoken, rfl⟩⟩

theorem mem_tokens_of_mem_references {bank : Bank} {target : BankId}
    (htarget : target ∈ bank.references) :
    ∃ phrase ∈ bank.phrases, Token.bank target ∈ phrase.tokens := by
  obtain ⟨phrase, hphrase, htarget⟩ := List.mem_flatMap.mp htarget
  obtain ⟨token, htoken, heq⟩ := List.mem_filterMap.mp htarget
  refine ⟨phrase, hphrase, ?_⟩
  cases token with
  | word id => cases heq
  | bank id =>
      cases heq
      exact htoken

theorem WellFormed.closed (hwell : pack.WellFormed) : pack.Closed := by
  intro id bank hbank target htarget
  obtain ⟨phrase, hphrase, htoken⟩ := mem_tokens_of_mem_references htarget
  exact (hwell.sayable bank (mem_banks_of_bank? hbank) phrase hphrase).resolves _ htoken

/-- **A bank of an ordered list can be said**, whatever the source chooses, as long as no bank of
the list is being said already. -/
theorem Ordered.succeeds_sayBank (hwell : pack.WellFormed) {σ : Type} (source : ChoiceSource σ)
    {order active : List BankId} (hordered : pack.Ordered order)
    (hapart : ∀ other ∈ active, other ∉ order) {fuel : Nat} (hfuel : order.length ≤ fuel)
    {id : BankId} (hid : id ∈ order) :
    (pack.sayBank source fuel active id).Succeeds fun words => words ≠ [] := by
  induction order generalizing active fuel id with
  | nil => exact absurd hid List.not_mem_nil
  | cons first rest ih =>
      obtain ⟨hnew, ⟨bank, hbank, hreferences⟩, hrest⟩ := hordered
      have hrestApart : ∀ other ∈ active, other ∉ rest :=
        fun other hother hmem => hapart other hother (List.mem_cons_of_mem _ hmem)
      rw [List.length_cons] at hfuel
      rcases List.mem_cons.mp hid with rfl | hid
      -- the first bank asks for later ones only, and these stand apart from it
      · have hoff : id ∉ active := fun hmem => hapart id hmem List.mem_cons_self
        have hmem := mem_banks_of_bank? hbank
        obtain ⟨fuel, rfl⟩ : ∃ less, fuel = less + 1 := ⟨fuel - 1, by omega⟩
        rw [sayBank_succ hoff hbank (List.length_pos_iff.mpr (hwell.populated bank hmem))]
        refine (Attempt.Succeeds.draw source _ _).bind fun choice _ => ?_
        have hphrase : bank.phrases[choice] ∈ bank.phrases := List.getElem_mem choice.isLt
        have hsayable := hwell.sayable bank hmem _ hphrase
        have htokens : ∀ token ∈ bank.phrases[choice].tokens,
            (pack.sayToken source fuel (id :: active) token).Succeeds fun words => words ≠ [] := by
          intro token htoken
          cases token with
          | word target =>
              obtain ⟨word, hword⟩ := word?_isSome_of_lt (hsayable.resolves _ htoken)
              rw [sayToken, hword]
              exact .pure (List.cons_ne_nil _ _)
          | bank target =>
              have htarget := hreferences target (mem_references_of_mem_tokens hphrase htoken)
              exact ih hrest (List.forall_mem_cons.mpr ⟨hnew, hrestApart⟩) (by omega) htarget
        refine (Attempt.Succeeds.mapM htokens).bind ?_
        rintro parts ⟨hlength, hparts⟩
        refine .pure fun hnil => hsayable.tokens_ne_nil ?_
        have hnone : parts = [] := List.eq_nil_iff_forall_not_mem.mpr fun part hpart =>
          hparts part hpart (List.flatten_eq_nil_iff.mp hnil part hpart)
        rw [hnone] at hlength
        exact List.length_eq_zero_iff.mp hlength.symm
      · exact ih hrest hrestApart (by omega) hid

/-! ## Checked packs -/

theorem exists_ordered_of_check (hclosed : pack.Closed) {primary : String} {start : BankId}
    (hcheck : pack.check primary = .ok start) :
    ∃ order, pack.Ordered order ∧ ∀ id : BankId, id.index < pack.banks.size → id ∈ order := by
  unfold check at hcheck
  split at hcheck
  · cases hcheck
  · split at hcheck
    · cases hcheck
    · obtain ⟨order, horder, _⟩ := bind_eq_ok_iff.mp hcheck
      exact ⟨order, ordered_of_exploreAll hclosed horder⟩

/-- From every bank of a checked pack, and whatever the source chooses, some words are said. -/
theorem succeeds_sayWords_of_check (hwell : pack.WellFormed) {primary : String} {start : BankId}
    (hcheck : pack.check primary = .ok start) {σ : Type} (source : ChoiceSource σ) {bank : Bank}
    (hbank : bank ∈ pack.banks.values) :
    (pack.sayWords source bank.id).Succeeds fun words => words ≠ [] := by
  obtain ⟨order, hordered, hall⟩ := exists_ordered_of_check hwell.closed hcheck
  have hpresent := OrderedMap.lt_size_of_at? (hwell.indexed.bank?_of_mem hbank)
  have hfuel : order.length ≤ pack.banks.size + 1 :=
    Nat.le_succ_of_le hordered.trail.length_le
  exact hordered.succeeds_sayBank hwell source (by simp) hfuel (hall bank.id hpresent)

end SpeechRom.Pack
