/-!
# Attempts

An attempt works on a state and can fail, and its state survives failure: what
was done before the failure stays done.  Choices that were made stay made,
addresses that were given out stay given out, and an encoder that was called
has been called.
-/

namespace SpeechRom

/-- A computation on a state in `σ` that can fail with an `ε`; the state survives failure. -/
abbrev Attempt (ε σ α : Type) := ExceptT ε (StateM σ) α

/-- A result as a step of an attempt; it leaves the state alone. -/
def Attempt.ofExcept {ε σ α : Type} (result : Except ε α) : Attempt ε σ α :=
  ExceptT.mk (pure result)

/-- An attempt that cannot fail: its result says whether the given one did. -/
def Attempt.caught {ε ε' σ α : Type} (attempt : Attempt ε σ α) : Attempt ε' σ (Except ε α) :=
  ExceptT.mk do return .ok (← attempt.run)

/-- An attempt after which something is done, even if it fails. -/
def Attempt.ensuring {ε σ α : Type} (attempt : Attempt ε σ α) (after : Attempt ε σ Unit) :
    Attempt ε σ α := do
  let result ← attempt.caught
  after
  Attempt.ofExcept result

/-- The outcome of an attempt and the state after it. -/
def Attempt.runFrom {ε σ α : Type} (state : σ) (attempt : Attempt ε σ α) : Except ε α × σ :=
  attempt.run state

/-! ## What an attempt leaves behind -/

@[simp]
theorem Attempt.runFrom_pure {ε σ α : Type} (state : σ) (a : α) :
    Attempt.runFrom state (pure a : Attempt ε σ α) = (.ok a, state) := rfl

@[simp]
theorem Attempt.runFrom_throw {ε σ α : Type} (state : σ) (failure : ε) :
    Attempt.runFrom state (throw failure : Attempt ε σ α) = (.error failure, state) := rfl

@[simp]
theorem Attempt.runFrom_ofExcept {ε σ α : Type} (state : σ) (result : Except ε α) :
    Attempt.runFrom state (Attempt.ofExcept result) = (result, state) := rfl

/-- A failure of the first step is the failure of the whole, with the state it left. -/
theorem Attempt.runFrom_bind {ε σ α β : Type} (state : σ) (attempt : Attempt ε σ α)
    (next : α → Attempt ε σ β) :
    Attempt.runFrom state (attempt >>= next) =
      match attempt.runFrom state with
      | (.ok a, after) => (next a).runFrom after
      | (.error failure, after) => (.error failure, after) := by
  have hrun : Attempt.runFrom state (attempt >>= next) =
      ExceptT.bindCont next (attempt.runFrom state).1 (attempt.runFrom state).2 := rfl
  rw [hrun]
  rcases attempt.runFrom state with ⟨_ | a, after⟩ <;> rfl

end SpeechRom
