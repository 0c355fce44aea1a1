import SpeechRom.Proofs.Attempt

/-!
# Results that a fault decides

A computation is *decided* by a fault when it fails with that fault if there is one, and
otherwise gives an answer with a known property.  Steps in a row are decided by the first of their
faults (`Decided.bind`), and a fold is decided by the first input at fault (`Decided.foldlM`), where
an input is judged by what came before it.
-/

namespace SpeechRom

variable {ε α β : Type}

/-- The result is the fault, if there is one, and else an answer with the property. -/
inductive Decided (P : α → Prop) : Option ε → Except ε α → Prop
  | error (failure : ε) : Decided P (some failure) (.error failure)
  | ok {answer : α} : P answer → Decided P none (.ok answer)

namespace Decided

variable {P : α → Prop} {Q : β → Prop} {fault : Option ε} {result : Except ε α}

theorem eq_error_iff (hdecided : Decided P fault result) {failure : ε} :
    result = .error failure ↔ fault = some failure := by
  cases hdecided with
  | error e => simp
  | ok _ => simp

theorem exists_ok_iff (hdecided : Decided P fault result) :
    (∃ answer, result = .ok answer) ↔ fault = none := by
  cases hdecided with
  | error e => simp
  | ok _ => simp

theorem of_ok (hdecided : Decided P fault result) {answer : α} (hok : result = .ok answer) :
    P answer := by
  cases hdecided with
  | error e => cases hok
  | ok hanswer =>
      cases hok
      exact hanswer

theorem fault_eq_none (hdecided : Decided P fault result) {answer : α}
    (hok : result = .ok answer) : fault = none :=
  hdecided.exists_ok_iff.mp ⟨answer, hok⟩

/-- The fault of the first step goes before the fault of the second. -/
theorem bind {other : Option ε} {next : α → Except ε β} (hdecided : Decided P fault result)
    (hnext : ∀ answer, P answer → Decided Q other (next answer)) :
    Decided Q (fault.or other) (result >>= next) := by
  cases hdecided with
  | error failure => exact .error failure
  | ok hanswer => exact hnext _ hanswer

/-- A second step that always succeeds adds no fault. -/
theorem bind_ok {next : α → Except ε β} (hdecided : Decided P fault result)
    (hnext : ∀ answer, P answer → ∃ b, next answer = .ok b ∧ Q b) :
    Decided Q fault (result >>= next) := by
  rw [← Option.or_none (o := fault)]
  refine hdecided.bind fun answer hanswer => ?_
  obtain ⟨b, hb, hq⟩ := hnext answer hanswer
  rw [hb]
  exact .ok hq

/-- Steps in a row whose answers are known are decided by the first of their faults. -/
theorem mapM {f : α → Except ε β} {fault : α → Option ε} {g : α → β}
    (hstep : ∀ input, Decided (· = g input) (fault input) (f input)) (inputs : List α) :
    Decided (· = inputs.map g) (inputs.findSome? fault) (inputs.mapM f) := by
  induction inputs with
  | nil => exact .ok rfl
  | cons input rest ih =>
      have hfirst : (input :: rest).findSome? fault =
          (fault input).or (rest.findSome? fault) := by
        rw [List.findSome?_cons]
        cases fault input <;> rfl
      rw [hfirst, List.mapM_cons]
      refine (hstep input).bind fun answer hanswer => ih.bind_ok fun answers hanswers => ?_
      exact ⟨_, rfl, by rw [hanswer, hanswers, List.map_cons]⟩

end Decided

/-! ## The first input at fault -/

/-- The fault of the first input that has one; an input is judged by those in front of it. -/
def firstFault (fault : List α → α → Option ε) (seen : List α) : List α → Option ε
  | [] => none
  | input :: rest => (fault seen input).or (firstFault fault (seen ++ [input]) rest)

variable {fault : List α → α → Option ε} {inputs seen : List α}

theorem firstFault_eq_findSome? (fault : α → Option ε) (seen inputs : List α) :
    firstFault (fun _ => fault) seen inputs = inputs.findSome? fault := by
  induction inputs generalizing seen with
  | nil => rfl
  | cons input rest ih =>
      rw [firstFault, List.findSome?_cons, ih]
      cases fault input <;> rfl

theorem firstFault_eq_none_iff :
    firstFault fault seen inputs = none ↔
      ∀ before input after, inputs = before ++ input :: after →
        fault (seen ++ before) input = none := by
  induction inputs generalizing seen with
  | nil => simp [firstFault]
  | cons first rest ih =>
      rw [firstFault, Option.or_eq_none_iff, ih]
      constructor
      · rintro ⟨hfirst, hrest⟩ before input after hsplit
        cases before with
        | nil =>
            rw [List.nil_append, List.cons.injEq] at hsplit
            rw [List.append_nil, ← hsplit.1]
            exact hfirst
        | cons head before =>
            rw [List.cons_append, List.cons.injEq] at hsplit
            have hinput := hrest before input after hsplit.2
            rwa [List.append_assoc, List.singleton_append, hsplit.1] at hinput
      · intro hall
        refine ⟨?_, fun before input after hsplit => ?_⟩
        · have hfirst := hall [] first rest rfl
          rwa [List.append_nil] at hfirst
        · have hinput := hall (first :: before) input after (by rw [hsplit]; rfl)
          rwa [List.append_cons] at hinput

/-- The first fault is that of an input before which there is none. -/
theorem firstFault_eq_some_iff {failure : ε} :
    firstFault fault seen inputs = some failure ↔
      ∃ before input after, inputs = before ++ input :: after ∧
        fault (seen ++ before) input = some failure ∧ firstFault fault seen before = none := by
  induction inputs generalizing seen with
  | nil => simp [firstFault]
  | cons first rest ih =>
      rw [firstFault, Option.or_eq_some_iff, ih]
      constructor
      · rintro (hfirst | ⟨hnone, before, input, after, rfl, hinput, hbefore⟩)
        · exact ⟨[], first, rest, rfl, by rwa [List.append_nil], rfl⟩
        · refine ⟨first :: before, input, after, rfl, by rwa [List.append_cons], ?_⟩
          rw [firstFault, hnone, Option.none_or]
          exact hbefore
      · rintro ⟨before, input, after, hsplit, hinput, hbefore⟩
        cases before with
        | nil =>
            rw [List.nil_append, List.cons.injEq] at hsplit
            rw [List.append_nil, ← hsplit.1] at hinput
            exact .inl hinput
        | cons head before =>
            rw [List.cons_append, List.cons.injEq] at hsplit
            obtain ⟨rfl, rfl⟩ := hsplit
            rw [firstFault, Option.or_eq_none_iff] at hbefore
            refine .inr ⟨hbefore.1, before, input, after, rfl, ?_, hbefore.2⟩
            rwa [List.append_assoc, List.singleton_append]

/-- A fold whose every step is decided is decided by the first fault.  What is known of the state
may speak of all inputs so far. -/
theorem Decided.foldlM_from {P : List α → β → Prop} {f : β → α → Except ε β} {start : β}
    (hstart : P seen start)
    (hstep : ∀ before input state, input ∈ inputs → P before state →
      Decided (P (before ++ [input])) (fault before input) (f state input)) :
    Decided (P (seen ++ inputs)) (firstFault fault seen inputs) (inputs.foldlM f start) := by
  induction inputs generalizing seen start with
  | nil =>
      rw [List.append_nil]
      exact .ok hstart
  | cons input rest ih =>
      rw [List.foldlM_cons, List.append_cons]
      refine (hstep seen input start List.mem_cons_self hstart).bind fun next hnext => ?_
      exact ih hnext fun before other state hmem =>
        hstep before other state (List.mem_cons_of_mem _ hmem)

theorem Decided.foldlM {P : List α → β → Prop} {f : β → α → Except ε β} {start : β}
    (hstart : P [] start)
    (hstep : ∀ before input state, input ∈ inputs → P before state →
      Decided (P (before ++ [input])) (fault before input) (f state input)) :
    Decided (P inputs) (firstFault fault [] inputs) (inputs.foldlM f start) :=
  Decided.foldlM_from hstart hstep

/-- A fold in which an input is judged by itself. -/
theorem Decided.foldlM_findSome? {P : List α → β → Prop} {f : β → α → Except ε β} {start : β}
    {fault : α → Option ε} (hstart : P [] start)
    (hstep : ∀ before input state, input ∈ inputs → P before state →
      Decided (P (before ++ [input])) (fault input) (f state input)) :
    Decided (P inputs) (inputs.findSome? fault) (inputs.foldlM f start) := by
  rw [← firstFault_eq_findSome? fault []]
  exact Decided.foldlM hstart hstep

end SpeechRom
