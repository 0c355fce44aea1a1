import Mathlib.Data.List.Forall2
import Mathlib.Data.List.Induction
import Mathlib.Data.List.Nodup
import Mathlib.Data.List.Perm.Basic
import Mathlib.Data.List.Perm.Subperm
import Mathlib.Data.Set.Function

/-!
# Facts about lists

General facts that the other developments share: what remains of a list once duplicates are gone,
lists that are searched or rearranged part by part, lists side by side, and the order of lists.
-/

namespace SpeechRom

variable {α β γ : Type}

/-! ## Without duplicates -/

theorem eraseDups_concat [BEq α] [LawfulBEq α] [DecidableEq α] (items : List α)
    (item : α) :
    (items ++ [item]).eraseDups =
      if item ∈ items.eraseDups then items.eraseDups else items.eraseDups ++ [item] := by
  rw [List.eraseDups_append]
  by_cases hmem : item ∈ items <;> simp [List.removeAll, List.eraseDups_cons, hmem]

theorem eraseDups_eq_self [BEq α] [LawfulBEq α] {items : List α}
    (hnodup : items.Nodup) : items.eraseDups = items := by
  induction items with
  | nil => rfl
  | cons item rest ih =>
      obtain ⟨hnew, hrest⟩ := List.nodup_cons.mp hnodup
      have hkept : rest.filter (fun other => !other == item) = rest := by
        rw [List.filter_eq_self]
        intro other hother
        have hne : other ≠ item := fun heq => hnew (heq ▸ hother)
        simpa using hne
      rw [List.eraseDups_cons, hkept, ih hrest]

theorem eraseDups_map_of_injOn [DecidableEq α] [DecidableEq β] {f : α → β}
    {items : List α} (hinj : Set.InjOn f {item | item ∈ items}) :
    (items.map f).eraseDups = items.eraseDups.map f := by
  induction items using List.reverseRecOn with
  | nil => rfl
  | append_singleton items item ih =>
      have hrest : (items.map f).eraseDups = items.eraseDups.map f :=
        ih (hinj.mono fun _ hmem => List.mem_append_left _ hmem)
      have hmem : f item ∈ items.eraseDups.map f ↔ item ∈ items.eraseDups := by
        simp only [List.mem_map, List.mem_eraseDups]
        constructor
        · rintro ⟨other, hother, heq⟩
          have hsame : other = item :=
            hinj (List.mem_append_left _ hother) (List.mem_append_right _ List.mem_cons_self) heq
          exact hsame ▸ hother
        · exact fun hitem => ⟨item, hitem, rfl⟩
      rw [List.map_append, List.map_singleton, eraseDups_concat, eraseDups_concat, hrest]
      by_cases hitem : item ∈ items.eraseDups
      · rw [if_pos hitem, if_pos (hmem.mpr hitem)]
      · rw [if_neg hitem, if_neg (mt hmem.mp hitem), List.map_append, List.map_singleton]

/-- Distinct items with numbers below a bound are no more than the bound. -/
theorem length_le_of_nodup {number : α → Nat} (hinjective : Function.Injective number)
    {items : List α} (hnodup : items.Nodup) {bound : Nat}
    (hbound : ∀ item ∈ items, number item < bound) : items.length ≤ bound := by
  have hsubset : items.map number ⊆ List.range bound := by
    intro position hposition
    obtain ⟨item, hitem, rfl⟩ := List.mem_map.mp hposition
    exact List.mem_range.mpr (hbound item hitem)
  have hlength := (List.subperm_of_subset (hnodup.map hinjective) hsubset).length_le
  rwa [List.length_map, List.length_range] at hlength

/-! ## Part by part -/

theorem findSome?_flatMap (f : β → Option γ) (g : α → List β) (items : List α) :
    (items.flatMap g).findSome? f = items.findSome? fun item => (g item).findSome? f := by
  induction items with
  | nil => rfl
  | cons item rest ih =>
      rw [List.flatMap_cons, List.findSome?_append, ih, List.findSome?_cons]
      cases (g item).findSome? f <;> rfl

theorem perm_flatMap_modify {f : α → α} {g : α → List β} {b : β}
    (hf : ∀ a, g (f a) = g a ++ [b]) {items : List α} {position : Nat}
    (hlt : position < items.length) :
    ((items.modify position f).flatMap g).Perm (b :: items.flatMap g) := by
  induction items generalizing position with
  | nil => simp at hlt
  | cons item rest ih =>
      cases position with
      | zero =>
          simp only [List.modify_zero_cons, List.flatMap_cons, hf, List.append_assoc]
          exact List.perm_middle
      | succ position =>
          simp only [List.modify_succ_cons, List.flatMap_cons]
          exact ((ih (by simpa using hlt)).append_left _).trans List.perm_middle

/-- Pairs whose keys are among distinct ones are parted by them. -/
theorem perm_flatMap_filter [DecidableEq α] {keys : List α}
    {pairs : List (α × β)} (hnodup : keys.Nodup) (hkeys : ∀ pair ∈ pairs, pair.1 ∈ keys) :
    (keys.flatMap fun key => pairs.filter (·.1 = key)).Perm pairs := by
  induction keys generalizing pairs with
  | nil =>
      have hnone : pairs = [] :=
        List.eq_nil_iff_forall_not_mem.mpr fun pair hmem => List.not_mem_nil (hkeys pair hmem)
      rw [hnone]
      exact .nil
  | cons key rest ih =>
      rw [List.nodup_cons] at hnodup
      -- the other keys part what is left when the pairs of this key are taken away
      have hothers : (rest.flatMap fun other => pairs.filter (·.1 = other)) =
          rest.flatMap fun other =>
            (pairs.filter fun pair => !decide (pair.1 = key)).filter (·.1 = other) := by
        refine List.flatMap_congr fun other hother => ?_
        rw [List.filter_filter]
        refine List.filter_congr fun pair _ => ?_
        by_cases hpair : pair.1 = other
        · have hne : other ≠ key := fun heq => hnodup.1 (heq ▸ hother)
          simp [hpair, hne]
        · simp [hpair]
      have hkept : ∀ pair ∈ pairs.filter (fun pair => !decide (pair.1 = key)), pair.1 ∈ rest := by
        intro pair hmem
        obtain ⟨hpair, hne⟩ := List.mem_filter.mp hmem
        exact (List.mem_cons.mp (hkeys pair hpair)).resolve_left (by simpa using hne)
      rw [List.flatMap_cons, hothers]
      exact ((ih hnodup.2 hkept).append_left _).trans (List.filter_append_perm _ pairs)

/-! ## Side by side -/

theorem exists_right_of_forall₂ {R : α → β → Prop} {lefts : List α} {rights : List β}
    (hall : List.Forall₂ R lefts rights) {left : α} (hleft : left ∈ lefts) :
    ∃ right ∈ rights, R left right := by
  induction hall with
  | nil => exact absurd hleft List.not_mem_nil
  | cons hhead _ ih =>
      rcases List.mem_cons.mp hleft with rfl | hleft
      · exact ⟨_, List.mem_cons_self, hhead⟩
      · obtain ⟨right, hright, hrelated⟩ := ih hleft
        exact ⟨right, List.mem_cons_of_mem _ hright, hrelated⟩

theorem exists_left_of_forall₂ {R : α → β → Prop} {lefts : List α} {rights : List β}
    (hall : List.Forall₂ R lefts rights) {right : β} (hright : right ∈ rights) :
    ∃ left ∈ lefts, R left right :=
  exists_right_of_forall₂ hall.flip hright

theorem forall₂_pmap {P : α → Prop} {R : α → β → Prop} {f : (a : α) → P a → β}
    {items : List α} (hitems : ∀ a ∈ items, P a) (hall : ∀ a (ha : P a), a ∈ items → R a (f a ha)) :
    List.Forall₂ R items (items.pmap f hitems) := by
  induction items with
  | nil => exact .nil
  | cons a rest ih =>
      refine .cons (hall a _ List.mem_cons_self) (ih _ ?_)
      exact fun b hb hmem => hall b hb (List.mem_cons_of_mem _ hmem)

/-! ## Order -/

section Order

variable [LT α] [LT β]

/-- Behind a separator below all their letters, texts keep the order that they have without it. -/
theorem append_lt_append_iff [Std.Asymm (α := α) (· < ·)] {separator : α} {first second : List α}
    (rest : List α) (hfirst : ∀ a ∈ first, separator < a) (hsecond : ∀ a ∈ second, separator < a) :
    first ++ separator :: rest < second ++ separator :: rest ↔ first < second := by
  have hirrefl (a : α) : ¬ a < a := fun hlt => Std.Asymm.asymm a a hlt hlt
  induction first generalizing second with
  | nil =>
      cases second with
      | nil => exact iff_of_false (List.lt_irrefl _) (List.lt_irrefl _)
      | cons b second =>
          -- the first text ends where the second one has a letter, which the separator is below
          refine iff_of_true ?_ (List.nil_lt_cons b second)
          exact List.cons_lt_cons_iff.mpr (.inl (hsecond b List.mem_cons_self))
  | cons a first ih =>
      obtain ⟨ha, hfirst⟩ := List.forall_mem_cons.mp hfirst
      cases second with
      | nil =>
          refine iff_of_false (fun hlt => ?_) (List.not_lt_nil _)
          rcases List.cons_lt_cons_iff.mp hlt with hlt | ⟨rfl, _⟩
          · exact Std.Asymm.asymm _ _ ha hlt
          · exact hirrefl _ ha
      | cons b second =>
          obtain ⟨_, hsecond⟩ := List.forall_mem_cons.mp hsecond
          rw [List.cons_append, List.cons_append, List.cons_lt_cons_iff, List.cons_lt_cons_iff]
          exact or_congr_right (and_congr_right fun _ => ih hfirst hsecond)

/-- Letters that are replaced in keeping with their order leave the order of texts as it is. -/
theorem map_lt_map_iff {f : α → β} {first second : List α}
    (hf : ∀ a ∈ first, ∀ b ∈ second, (f a < f b ↔ a < b) ∧ (f a = f b ↔ a = b)) :
    first.map f < second.map f ↔ first < second := by
  induction first generalizing second with
  | nil => cases second <;> simp
  | cons a first ih =>
      cases second with
      | nil => simp
      | cons b second =>
          obtain ⟨hlt, heq⟩ := hf a List.mem_cons_self b List.mem_cons_self
          rw [List.map_cons, List.map_cons, List.cons_lt_cons_iff, List.cons_lt_cons_iff, hlt, heq,
            ih fun x hx y hy => hf x (List.mem_cons_of_mem _ hx) y (List.mem_cons_of_mem _ hy)]

end Order

end SpeechRom
