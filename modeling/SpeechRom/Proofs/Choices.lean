import Mathlib.Logic.Relation
import SpeechRom.Proofs.Attempt

/-!
# What choices can lead to

A source can take its choices from a list (`ChoiceSource.scripted`), so what can become
of an attempt is a question about lists.  An attempt *ends after* a list of choices when
it takes all of them and no more, whatever stands behind them; so the lists of the steps
of an attempt make up the list of the whole.  What a source gives along the way is such a
list with the numbers of what there was to choose from (`ChoiceSource.Gives`).

An attempt *may end* if it does so after some choices, and it *may fail* if there are
choices after which it fails.  In a row of attempts that may end, one that may fail makes
the row fail: either the choices for the ones in front of it get past them, or one of
these has failed already (`MayFail.mapM`).
-/

namespace SpeechRom

/-- A source that takes its choices from a list, and the first one when the list is used up. -/
def ChoiceSource.scripted : ChoiceSource (List Nat) where
  choose
    | _, hcount, [] => (⟨0, hcount⟩, [])
    | count, hcount, pick :: rest => (⟨pick % count, Nat.mod_lt pick hcount⟩, rest)

/-! ## What a source gives -/

namespace ChoiceSource

variable {σ : Type} {source : ChoiceSource σ}

/-- Asked for one choice after another, each among the first number of a pair, the source gives the
second numbers and goes from the one state to the other. -/
def Gives (source : ChoiceSource σ) : σ → List (Nat × Nat) → σ → Prop
  | state, [], after => state = after
  | state, (count, choice) :: rest, after =>
    ∃ hcount : 0 < count, (source.choose count hcount state).1.val = choice ∧
      source.Gives (source.choose count hcount state).2 rest after

theorem gives_append {first second : List (Nat × Nat)} {state after : σ} :
    source.Gives state (first ++ second) after ↔
      ∃ middle, source.Gives state first middle ∧ source.Gives middle second after := by
  induction first generalizing state with
  | nil => simp [Gives]
  | cons request rest ih =>
      simp only [List.cons_append, Gives, ih]
      constructor
      · rintro ⟨hcount, hchoice, middle, hrest, hsecond⟩
        exact ⟨middle, ⟨hcount, hchoice, hrest⟩, hsecond⟩
      · rintro ⟨middle, ⟨hcount, hchoice, hrest⟩, hsecond⟩
        exact ⟨hcount, hchoice, middle, hrest, hsecond⟩

/-- A list gives its choices as they stand, as long as they are in range. -/
theorem gives_scripted {choices : List (Nat × Nat)}
    (hrange : ∀ request ∈ choices, request.2 < request.1) (more : List Nat) :
    scripted.Gives (choices.map Prod.snd ++ more) choices more := by
  induction choices with
  | nil => rfl
  | cons request rest ih =>
      obtain ⟨hrequest, hrest⟩ := List.forall_mem_cons.mp hrange
      exact ⟨Nat.zero_lt_of_lt hrequest, Nat.mod_eq_of_lt hrequest, ih hrest⟩

end ChoiceSource

namespace Attempt

variable {ε σ α β : Type} {P : ε → Prop}

/-! ## Ending after a list of choices -/

/-- The attempt takes all of the choices and no more, and has the given result. -/
def EndsAfter (picks : List Nat) (result : Except ε α) (attempt : Attempt ε (List Nat) α) : Prop :=
  ∀ more, attempt.runFrom (picks ++ more) = (result, more)

section EndsAfter

variable {attempt : Attempt ε (List Nat) α} {next : α → Attempt ε (List Nat) β}
  {picks more : List Nat} {a : α} {e : ε}

theorem EndsAfter.pure (a : α) : EndsAfter [] (.ok a) (Pure.pure a : Attempt ε (List Nat) α) :=
  fun _ => rfl

theorem EndsAfter.throw (e : ε) :
    EndsAfter [] (.error e) (MonadExcept.throw e : Attempt ε (List Nat) α) :=
  fun _ => rfl

theorem EndsAfter.draw {count : Nat} (hcount : 0 < count) (choice : Fin count) :
    EndsAfter [choice.val] (.ok choice)
      (ChoiceSource.scripted.draw count hcount : Attempt ε (List Nat) (Fin count)) := by
  intro more
  have hchoice : (⟨choice.val % count, Nat.mod_lt _ hcount⟩ : Fin count) = choice :=
    Fin.ext (Nat.mod_eq_of_lt choice.isLt)
  calc (ChoiceSource.scripted.draw count hcount).runFrom ([choice.val] ++ more)
      = (.ok ⟨choice.val % count, Nat.mod_lt _ hcount⟩, more) := rfl
    _ = (.ok choice, more) := by rw [hchoice]

theorem EndsAfter.bind {result : Except ε β} (hattempt : EndsAfter picks (.ok a) attempt)
    (hnext : EndsAfter more result (next a)) :
    EndsAfter (picks ++ more) result (attempt >>= next) := by
  intro behind
  rw [List.append_assoc, runFrom_bind, hattempt]
  exact hnext behind

theorem EndsAfter.bind_error (hattempt : EndsAfter picks (.error e) attempt) :
    EndsAfter picks (.error e) (attempt >>= next) := by
  intro behind
  rw [runFrom_bind, hattempt]

end EndsAfter

/-! ## What some choices achieve -/

/-- After some choices the attempt ends, and if it fails, then for a reason of the given kind. -/
def MayEnd (P : ε → Prop) (attempt : Attempt ε (List Nat) α) : Prop :=
  ∃ picks result, EndsAfter picks result attempt ∧ ∀ e, result = .error e → P e

/-- After some choices the attempt fails for a reason of the given kind. -/
def MayFail (P : ε → Prop) (attempt : Attempt ε (List Nat) α) : Prop :=
  ∃ picks e, EndsAfter picks (.error e) attempt ∧ P e

section May

variable {attempt : Attempt ε (List Nat) α} {next : α → Attempt ε (List Nat) β}
  {f : α → Attempt ε (List Nat) β} {inputs : List α}

theorem MayEnd.pure (a : α) : MayEnd P (Pure.pure a : Attempt ε (List Nat) α) :=
  ⟨[], .ok a, .pure a, fun _ heq => by cases heq⟩

theorem MayFail.throw {e : ε} (he : P e) :
    MayFail P (MonadExcept.throw e : Attempt ε (List Nat) α) :=
  ⟨[], e, .throw e, he⟩

theorem MayFail.mayEnd (hattempt : MayFail P attempt) : MayEnd P attempt := by
  obtain ⟨picks, e, hends, he⟩ := hattempt
  refine ⟨picks, .error e, hends, fun other heq => ?_⟩
  cases heq
  exact he

theorem MayEnd.draw {count : Nat} (hcount : 0 < count) :
    MayEnd P (ChoiceSource.scripted.draw count hcount : Attempt ε (List Nat) (Fin count)) :=
  ⟨_, _, .draw hcount ⟨0, hcount⟩, fun _ heq => by cases heq⟩

/-- An attempt that may end does so with an answer or with a failure. -/
theorem MayEnd.exists_ok_or_mayFail (hattempt : MayEnd P attempt) :
    (∃ picks a, EndsAfter picks (.ok a) attempt) ∨ MayFail P attempt := by
  obtain ⟨picks, result, hends, hfailure⟩ := hattempt
  cases result with
  | ok a => exact .inl ⟨picks, a, hends⟩
  | error e => exact .inr ⟨picks, e, hends, hfailure e rfl⟩

theorem MayFail.bind (hattempt : MayFail P attempt) : MayFail P (attempt >>= next) := by
  obtain ⟨picks, e, hends, he⟩ := hattempt
  exact ⟨picks, e, hends.bind_error, he⟩

/-- If the first step gets through, it is up to the second one. -/
theorem MayFail.bind_of_endsAfter {picks : List Nat} {a : α}
    (hattempt : EndsAfter picks (.ok a) attempt) (hnext : MayFail P (next a)) :
    MayFail P (attempt >>= next) := by
  obtain ⟨more, e, hends, he⟩ := hnext
  exact ⟨picks ++ more, e, hattempt.bind hends, he⟩

theorem MayEnd.bind (hattempt : MayEnd P attempt) (hnext : ∀ a, MayEnd P (next a)) :
    MayEnd P (attempt >>= next) := by
  rcases hattempt.exists_ok_or_mayFail with ⟨picks, a, hends⟩ | hfails
  · obtain ⟨more, result, hrest, hfailure⟩ := hnext a
    exact ⟨picks ++ more, result, hends.bind hrest, hfailure⟩
  · exact hfails.bind.mayEnd

theorem MayEnd.mapM (hall : ∀ input ∈ inputs, MayEnd P (f input)) : MayEnd P (inputs.mapM f) := by
  induction inputs with
  | nil => exact .pure []
  | cons input rest ih =>
      rw [List.mapM_cons]
      obtain ⟨hinput, hrest⟩ := List.forall_mem_cons.mp hall
      exact hinput.bind fun answer => (ih hrest).bind fun answers => .pure _

/-- One attempt of a row that may fail makes the row fail, if all of them may end. -/
theorem MayFail.mapM (hall : ∀ input ∈ inputs, MayEnd P (f input)) {input : α}
    (hinput : input ∈ inputs) (hfails : MayFail P (f input)) : MayFail P (inputs.mapM f) := by
  induction inputs with
  | nil => exact absurd hinput List.not_mem_nil
  | cons first rest ih =>
      rw [List.mapM_cons]
      obtain ⟨hfirst, hrest⟩ := List.forall_mem_cons.mp hall
      rcases List.mem_cons.mp hinput with rfl | hinput
      · exact hfails.bind
      · rcases hfirst.exists_ok_or_mayFail with ⟨picks, a, hends⟩ | hfailed
        · exact .bind_of_endsAfter hends (ih hrest hinput).bind
        · exact hfailed.bind

end May

/-! ## What no choices achieve -/

/-- Whatever the choices, the attempt fails for reasons of the given kind only. -/
def FailsOnly (P : ε → Prop) (attempt : Attempt ε σ α) : Prop :=
  ∀ state e after, attempt.runFrom state = (.error e, after) → P e

section FailsOnly

variable {attempt : Attempt ε σ α} {next : α → Attempt ε σ β} {f : α → Attempt ε σ β}
  {inputs : List α}

theorem FailsOnly.pure (a : α) : FailsOnly P (Pure.pure a : Attempt ε σ α) :=
  fun _ _ _ hrun => by cases hrun

theorem FailsOnly.throw {e : ε} (he : P e) :
    FailsOnly P (MonadExcept.throw e : Attempt ε σ α) := by
  intro state other after hrun
  cases hrun
  exact he

theorem FailsOnly.draw (source : ChoiceSource σ) {count : Nat} (hcount : 0 < count) :
    FailsOnly P (source.draw count hcount : Attempt ε σ (Fin count)) := by
  intro state e after hrun
  cases congrArg Prod.fst hrun

theorem FailsOnly.bind (hattempt : FailsOnly P attempt) (hnext : ∀ a, FailsOnly P (next a)) :
    FailsOnly P (attempt >>= next) := by
  intro state e after hrun
  rw [runFrom_bind] at hrun
  cases hfirst : attempt.runFrom state with
  | mk result middle =>
      rw [hfirst] at hrun
      cases result with
      | ok a => exact hnext a middle e after hrun
      | error other =>
          cases hrun
          exact hattempt state _ _ hfirst

theorem FailsOnly.mapM (hall : ∀ input ∈ inputs, FailsOnly P (f input)) :
    FailsOnly P (inputs.mapM f) := by
  induction inputs with
  | nil => exact .pure []
  | cons input rest ih =>
      rw [List.mapM_cons]
      obtain ⟨hinput, hrest⟩ := List.forall_mem_cons.mp hall
      exact hinput.bind fun answer => (ih hrest).bind fun answers => .pure _

theorem FailsOnly.foldlM {f : β → α → Attempt ε σ β} {start : β}
    (hall : ∀ b, ∀ input ∈ inputs, FailsOnly P (f b input)) :
    FailsOnly P (inputs.foldlM f start) := by
  induction inputs generalizing start with
  | nil => exact .pure start
  | cons input rest ih =>
      rw [List.foldlM_cons]
      refine (hall start input List.mem_cons_self).bind fun next => ih fun b other hother => ?_
      exact hall b other (List.mem_cons_of_mem _ hother)

end FailsOnly

end Attempt

/-! ## Rings -/

/-- Some steps lead from here to a place from which steps lead back to it. -/
def LeadsToRing {α : Type} (step : α → α → Prop) (start : α) : Prop :=
  ∃ place, Relation.ReflTransGen step start place ∧ Relation.TransGen step place place

/-- Where a ring is ahead, there is a step after which it still is. -/
theorem LeadsToRing.exists_step {α : Type} {step : α → α → Prop} {start : α}
    (hring : LeadsToRing step start) : ∃ next, step start next ∧ LeadsToRing step next := by
  obtain ⟨place, hpath, hround⟩ := hring
  rcases hpath.cases_head with rfl | ⟨next, hstep, hrest⟩
  · obtain ⟨next, hstep, hrest⟩ := Relation.TransGen.head'_iff.mp hround
    exact ⟨next, hstep, start, hrest, hround⟩
  · exact ⟨next, hstep, place, hrest, hround⟩

end SpeechRom
