import SpeechRom.Proofs.Lists
import SpeechRom.Random.Source

/-!
# Results and attempts in a row and side by side

`bind_eq_ok_iff` and `mapM_eq_ok_iff` open a result that is no failure, and
`Attempt.foldlM_ok_induction` carries an invariant through a fold of attempts.

Two attempts on the same states are *in step* when from every state they end
alike: both succeed with related answers or both fail for related reasons, and
either way they leave the same state behind.  Being in step passes through
`bind`, `mapM` and choices of equal range, and from one turn to any number of
turns in a row.
-/

namespace SpeechRom

variable {ε φ α β γ δ : Type}

/-! ## Results -/

/-- Steps that are equal on the inputs make equal rows of steps. -/
theorem mapM_congr {m : Type → Type} [Monad m] [LawfulMonad m] {f g : α → m β} {inputs : List α}
    (hstep : ∀ input ∈ inputs, f input = g input) : inputs.mapM f = inputs.mapM g := by
  induction inputs with
  | nil => rfl
  | cons input rest ih =>
      obtain ⟨hinput, hrest⟩ := List.forall_mem_cons.mp hstep
      rw [List.mapM_cons, List.mapM_cons, hinput, ih hrest]

theorem bind_eq_ok_iff {result : Except ε α} {next : α → Except ε β} {b : β} :
    result >>= next = .ok b ↔ ∃ a, result = .ok a ∧ next a = .ok b := by
  cases result <;> simp [bind, Except.bind]

theorem bind_eq_error_iff {result : Except ε α} {next : α → Except ε β} {e : ε} :
    result >>= next = .error e ↔ result = .error e ∨ ∃ a, result = .ok a ∧ next a = .error e := by
  cases result <;> simp [bind, Except.bind]

theorem map_eq_ok_iff {result : Except ε α} {f : α → β} {b : β} :
    f <$> result = .ok b ↔ ∃ a, result = .ok a ∧ f a = b := by
  cases result <;> simp [Functor.map, Except.map]

/-- Results that succeed alike hold the same. -/
theorem toOption_congr {first second : Except ε α} (hok : ∀ a, first = .ok a ↔ second = .ok a) :
    first.toOption = second.toOption := by
  cases first with
  | ok a => rw [(hok a).mp rfl]
  | error failure =>
      cases second with
      | ok a => cases (hok a).mpr rfl
      | error other => rfl

theorem mapM_eq_ok_iff {f : α → Except ε β} {inputs : List α} {answers : List β} :
    inputs.mapM f = .ok answers ↔
      List.Forall₂ (fun input answer => f input = .ok answer) inputs answers := by
  induction inputs generalizing answers with
  | nil => cases answers <;> simp [pure, Except.pure]
  | cons input rest ih =>
      rw [List.mapM_cons, bind_eq_ok_iff, List.forall₂_cons_left_iff]
      constructor
      · rintro ⟨answer, hanswer, hrest⟩
        obtain ⟨others, hothers, heq⟩ := bind_eq_ok_iff.mp hrest
        cases heq
        exact ⟨answer, others, hanswer, ih.mp hothers, rfl⟩
      · rintro ⟨answer, others, hanswer, hothers, rfl⟩
        exact ⟨answer, hanswer, bind_eq_ok_iff.mpr ⟨others, ih.mpr hothers, rfl⟩⟩

/-- A fold fails at one of its steps. -/
theorem exists_of_foldlM_eq_error {f : β → α → Except ε β} {inputs : List α} {start : β} {e : ε}
    (hfold : inputs.foldlM f start = .error e) :
    ∃ input ∈ inputs, ∃ before, f before input = .error e := by
  induction inputs generalizing start with
  | nil => cases hfold
  | cons input rest ih =>
      rw [List.foldlM_cons] at hfold
      rcases bind_eq_error_iff.mp hfold with hstep | ⟨next, _, hrest⟩
      · exact ⟨input, List.mem_cons_self, start, hstep⟩
      · obtain ⟨other, hother, before, hbefore⟩ := ih hrest
        exact ⟨other, List.mem_cons_of_mem _ hother, before, hbefore⟩

/-- What every step of a fold keeps holds of the answer of the fold. -/
theorem of_foldlM_eq_ok {P : β → Prop} {f : β → α → Except ε β} {inputs : List α}
    {start result : β} (hfold : inputs.foldlM f start = .ok result) (hstart : P start)
    (hstep : ∀ before input next, P before → f before input = .ok next → P next) : P result := by
  induction inputs generalizing start with
  | nil =>
      cases hfold
      exact hstart
  | cons input rest ih =>
      rw [List.foldlM_cons] at hfold
      obtain ⟨next, hnext, hrest⟩ := bind_eq_ok_iff.mp hfold
      exact ih hrest (hstep start input next hstart hnext)

/-- If one step succeeds on good inputs only and its answers are known, so are the answers of a
row. -/
theorem mapM_eq_ok_iff_map {f : α → Except ε β} {g : α → β} {P : α → Prop}
    (hstep : ∀ input answer, f input = .ok answer ↔ P input ∧ g input = answer)
    {inputs : List α} {answers : List β} :
    inputs.mapM f = .ok answers ↔ (∀ input ∈ inputs, P input) ∧ inputs.map g = answers := by
  simp only [mapM_eq_ok_iff, hstep]
  rw [List.forall₂_and_left, ← List.forall₂_map_left_iff (R := fun b answer => b = answer),
    List.forall₂_eq_eq_eq]

namespace Attempt

variable {σ : Type}

/-! ## Attempts that succeed -/

theorem ofExcept_ok_bind (a : α) (next : α → Attempt ε σ β) :
    (Attempt.ofExcept (.ok a) >>= next) = next a := rfl

/-- An attempt that succeeds is one whose every step succeeds. -/
theorem runFrom_bind_eq_ok_iff {state after : σ} {attempt : Attempt ε σ α}
    {next : α → Attempt ε σ β} {b : β} :
    (attempt >>= next).runFrom state = (.ok b, after) ↔
      ∃ a middle, attempt.runFrom state = (.ok a, middle) ∧
        (next a).runFrom middle = (.ok b, after) := by
  rw [runFrom_bind]
  rcases attempt.runFrom state with ⟨_ | a, middle⟩
  · simp
  · simp

/-- An attempt that fails does so at one of its steps. -/
theorem runFrom_bind_eq_error_iff {state after : σ} {attempt : Attempt ε σ α}
    {next : α → Attempt ε σ β} {e : ε} :
    (attempt >>= next).runFrom state = (.error e, after) ↔
      attempt.runFrom state = (.error e, after) ∨
        ∃ a middle, attempt.runFrom state = (.ok a, middle) ∧
          (next a).runFrom middle = (.error e, after) := by
  rw [runFrom_bind]
  rcases attempt.runFrom state with ⟨_ | a, middle⟩
  · simp
  · simp

/-- What every step of a fold of attempts keeps holds of the answer of the fold. -/
theorem foldlM_ok_induction {P : β → Prop} {f : β → α → Attempt ε σ β} {inputs : List α}
    {start result : β} {state after : σ}
    (hfold : (inputs.foldlM f start).runFrom state = (.ok result, after)) (hstart : P start)
    (hstep : ∀ before input next state after, P before →
      (f before input).runFrom state = (.ok next, after) → P next) : P result := by
  induction inputs generalizing start state with
  | nil =>
      rw [List.foldlM_nil, runFrom_pure] at hfold
      cases hfold
      exact hstart
  | cons input rest ih =>
      rw [List.foldlM_cons, runFrom_bind_eq_ok_iff] at hfold
      obtain ⟨next, middle, hnext, hrest⟩ := hfold
      exact ih hrest (hstep start input next state middle hstart hnext)

/-- From every state the attempt succeeds, with an answer that has a property. -/
def Succeeds (P : α → Prop) (attempt : Attempt ε σ α) : Prop :=
  ∀ state, ∃ a after, attempt.runFrom state = (.ok a, after) ∧ P a

theorem Succeeds.pure {P : α → Prop} {a : α} (ha : P a) :
    Succeeds P (Pure.pure a : Attempt ε σ α) :=
  fun state => ⟨a, state, rfl, ha⟩

theorem Succeeds.bind {P : α → Prop} {Q : β → Prop} {attempt : Attempt ε σ α}
    {next : α → Attempt ε σ β} (hattempt : attempt.Succeeds P)
    (hnext : ∀ a, P a → (next a).Succeeds Q) : (attempt >>= next).Succeeds Q := by
  intro state
  obtain ⟨a, middle, hrun, ha⟩ := hattempt state
  obtain ⟨b, after, hrest, hb⟩ := hnext a ha middle
  exact ⟨b, after, runFrom_bind_eq_ok_iff.mpr ⟨a, middle, hrun, hrest⟩, hb⟩

theorem Succeeds.mapM {P : β → Prop} {f : α → Attempt ε σ β} {inputs : List α}
    (hall : ∀ input ∈ inputs, (f input).Succeeds P) :
    (inputs.mapM f).Succeeds fun answers =>
      answers.length = inputs.length ∧ ∀ answer ∈ answers, P answer := by
  induction inputs with
  | nil => exact Succeeds.pure ⟨rfl, by simp⟩
  | cons input rest ih =>
      rw [List.mapM_cons]
      refine (hall input List.mem_cons_self).bind fun answer hanswer => ?_
      refine (ih fun other hmem => hall other (List.mem_cons_of_mem _ hmem)).bind ?_
      rintro others ⟨hlength, hothers⟩
      refine Succeeds.pure ⟨by simp [hlength], ?_⟩
      intro other hother
      rcases List.mem_cons.mp hother with rfl | hother
      · exact hanswer
      · exact hothers other hother

theorem Succeeds.draw (source : ChoiceSource σ) (count : Nat) (hcount : 0 < count) :
    (source.draw count hcount : Attempt ε σ (Fin count)).Succeeds fun _ => True :=
  fun state => ⟨(source.choose count hcount state).1, (source.choose count hcount state).2,
    rfl, trivial⟩

/-! ## What attempts keep -/

/-- What holds of the state before the attempt holds of the state after it, whether it fails or
not. -/
def Keeps (P : σ → Prop) (attempt : Attempt ε σ α) : Prop :=
  ∀ state, P state → P (attempt.runFrom state).2

namespace Keeps

variable {P : σ → Prop} {attempt : Attempt ε σ α}

theorem pure (a : α) : (Pure.pure a : Attempt ε σ α).Keeps P := fun _ hstate => hstate

theorem throw (failure : ε) : (MonadExcept.throw failure : Attempt ε σ α).Keeps P :=
  fun _ hstate => hstate

theorem ofExcept (result : Except ε α) : (Attempt.ofExcept result : Attempt ε σ α).Keeps P :=
  fun _ hstate => hstate

theorem caught (hattempt : attempt.Keeps P) : (attempt.caught : Attempt φ σ (Except ε α)).Keeps P :=
  hattempt

theorem bind {next : α → Attempt ε σ β} (hattempt : attempt.Keeps P)
    (hnext : ∀ a, (next a).Keeps P) : (attempt >>= next).Keeps P := by
  intro state hstate
  have hafter := hattempt state hstate
  rw [runFrom_bind]
  generalize attempt.runFrom state = outcome at hafter
  obtain ⟨_ | a, after⟩ := outcome
  · exact hafter
  · exact hnext a after hafter

theorem foldlM {f : β → α → Attempt ε σ β} {inputs : List α}
    (hstep : ∀ input ∈ inputs, ∀ before, (f before input).Keeps P) (start : β) :
    (inputs.foldlM f start).Keeps P := by
  induction inputs generalizing start with
  | nil => exact pure start
  | cons input rest ih =>
      obtain ⟨hinput, hrest⟩ := List.forall_mem_cons.mp hstep
      rw [List.foldlM_cons]
      exact (hinput start).bind (ih hrest)

end Keeps

/-! ## Attempts in step -/

/-- Two outcomes of the same kind, with the same state left behind. -/
inductive Alike (R : α → β → Prop) (F : ε → φ → Prop) :
    Except ε α × σ → Except φ β × σ → Prop
  | ok {a : α} {b : β} {state : σ} : R a b → Alike R F (.ok a, state) (.ok b, state)
  | error {e : ε} {f : φ} {state : σ} : F e f → Alike R F (.error e, state) (.error f, state)

/-- From every state the two attempts end alike. -/
def InStep (R : α → β → Prop) (F : ε → φ → Prop) (first : Attempt ε σ α)
    (second : Attempt φ σ β) : Prop :=
  ∀ state, Alike R F (first.runFrom state) (second.runFrom state)

namespace InStep

variable {R : α → β → Prop} {S : γ → δ → Prop} {F : ε → φ → Prop}

theorem pure {a : α} {b : β} (hab : R a b) :
    InStep R F (Pure.pure a : Attempt ε σ α) (Pure.pure b : Attempt φ σ β) :=
  fun _ => .ok hab

theorem throw {e : ε} {f : φ} (hef : F e f) :
    InStep R F (MonadExcept.throw e : Attempt ε σ α) (MonadExcept.throw f : Attempt φ σ β) :=
  fun _ => .error hef

theorem bind {first : Attempt ε σ α} {second : Attempt φ σ β} {next : α → Attempt ε σ γ}
    {other : β → Attempt φ σ δ} (hstep : InStep R F first second)
    (hnext : ∀ a b, R a b → InStep S F (next a) (other b)) :
    InStep S F (first >>= next) (second >>= other) := by
  intro state
  rw [runFrom_bind, runFrom_bind]
  have hstate := hstep state
  generalize first.runFrom state = left at hstate
  generalize second.runFrom state = right at hstate
  cases hstate with
  | ok hab => exact hnext _ _ hab _
  | error hef => exact .error hef

theorem mapM {P : γ → δ → Prop} {f : γ → Attempt ε σ α} {g : δ → Attempt φ σ β}
    {inputs : List γ} {others : List δ} (hinputs : List.Forall₂ P inputs others)
    (hstep : ∀ input ∈ inputs, ∀ other, P input other → InStep R F (f input) (g other)) :
    InStep (List.Forall₂ R) F (inputs.mapM f) (others.mapM g) := by
  induction hinputs with
  | nil => exact pure .nil
  | cons hhead _ ih =>
      rw [List.mapM_cons, List.mapM_cons]
      refine (hstep _ List.mem_cons_self _ hhead).bind fun a b hab => ?_
      refine (ih fun input hmem => hstep input (List.mem_cons_of_mem _ hmem)).bind ?_
      exact fun as bs habs => pure (.cons hab habs)

/-- A source makes the same choice for both sides when the ranges are equal. -/
theorem draw (source : ChoiceSource σ) {count range : Nat} (hcount : 0 < count)
    (hrange : 0 < range) (heq : count = range) :
    InStep (fun (choice : Fin count) (other : Fin range) => choice.val = other.val) F
      (source.draw count hcount) (source.draw range hrange) := by
  subst heq
  exact fun _ => .ok rfl

/-- What one side achieves, the other side answers. -/
theorem succeeds {P : α → Prop} {first : Attempt ε σ α} {second : Attempt φ σ β}
    (hstep : InStep R F first second) (hfirst : first.Succeeds P) :
    second.Succeeds fun b => ∃ a, P a ∧ R a b := by
  intro state
  obtain ⟨a, after, hrun, ha⟩ := hfirst state
  have halike := hstep state
  rw [hrun] at halike
  generalize second.runFrom state = outcome at halike
  cases halike with
  | ok hab => exact ⟨_, _, rfl, a, ha, hab⟩

end InStep

/-! ## Turns in a row -/

/-- The outcomes of an attempt made a number of times, each time from the state that the turn
before left. -/
def turns (attempt : Attempt ε σ α) : Nat → σ → List (Except ε α × σ)
  | 0, _ => []
  | count + 1, state =>
    attempt.runFrom state :: attempt.turns count (attempt.runFrom state).2

theorem InStep.turns {R : α → β → Prop} {F : ε → φ → Prop} {first : Attempt ε σ α}
    {second : Attempt φ σ β} (hstep : InStep R F first second) (count : Nat) (state : σ) :
    List.Forall₂ (Alike R F) (first.turns count state) (second.turns count state) := by
  induction count generalizing state with
  | zero => exact .nil
  | succ count ih =>
      -- the next turn starts from one state on both sides
      have hsame : (first.runFrom state).2 = (second.runFrom state).2 := by
        have halike := hstep state
        generalize first.runFrom state = left at halike
        generalize second.runFrom state = right at halike
        cases halike <;> rfl
      rw [Attempt.turns, Attempt.turns, ← hsame]
      exact .cons (hstep state) (ih _)

end Attempt

end SpeechRom
