import Mathlib.Data.List.Basic
import SpeechRom.Pack.Grammar

/-!
# How tokens are spelled

A token of a phrase file is an identifier, which says a word, or an identifier in braces, which
asks for the bank of that name.  `Readable` says so of a token, and `TokenFault` says what a reader
has to complain about otherwise: a reference to a bank that is not there, or no token at all.

`tokenFault` is the complaint as reading computes it, and `tokenFault_eq_some_iff` says that the
two agree.
-/

namespace SpeechRom

/-- The spelling of words and banks: small letters and underscores, at least one. -/
def Identifier (text : List Char) : Prop :=
  text ≠ [] ∧ ∀ c ∈ text, ('a' ≤ c ∧ c ≤ 'z') ∨ c = '_'

theorem isName_iff_identifier {text : List Char} : isName text = true ↔ Identifier text := by
  simp only [isName, isNameLetter, Identifier, Bool.and_eq_true, Bool.not_eq_true',
    List.isEmpty_eq_false_iff, List.all_eq_true, Bool.or_eq_true, decide_eq_true_eq, beq_iff_eq]

theorem isNameLetter_of_mem {text : List Char} (htext : Identifier text) {c : Char}
    (hc : c ∈ text) : isNameLetter c = true := by
  have hname := isName_iff_identifier.mpr htext
  rw [isName, Bool.and_eq_true, List.all_eq_true] at hname
  exact hname.2 c hc

instance : DecidablePred Identifier := fun _ => decidable_of_iff _ isName_iff_identifier

namespace Pack

/-! ## Tokens of the grammar -/

/-- The spelling of a reference to a bank. -/
def braced (reference : List Char) : List Char := '\x7b' :: (reference ++ ['\x7d'])

/-- A token is a word, or it refers to one of the banks. -/
def Readable (names : List String) (token : List Char) : Prop :=
  Identifier token ∨
    ∃ reference, Identifier reference ∧ String.ofList reference ∈ names ∧ token = braced reference

/-- What is wrong with a token on a line of a bank. -/
inductive TokenFault (names : List String) (bank : String) (line : Nat) :
    List Char → BuildError → Prop
  | noSuchBank {reference : List Char} (hreference : Identifier reference)
      (hname : String.ofList reference ∉ names) :
      TokenFault names bank line (braced reference)
        (.noSuchBank bank line (String.ofList reference))
  | badToken {token : List Char} (hword : ¬ Identifier token)
      (hbraced : ∀ reference, Identifier reference → token ≠ braced reference) :
      TokenFault names bank line token (.badToken bank line (String.ofList token))

theorem braced_injective {first second : List Char} (heq : braced first = braced second) :
    first = second :=
  List.append_cancel_right (List.cons.inj heq).2

/-- No word is spelled like a reference. -/
theorem not_identifier_braced (reference : List Char) : ¬ Identifier (braced reference) := by
  rintro ⟨_, hletters⟩
  have hbrace := hletters '\x7b' List.mem_cons_self
  revert hbrace
  decide

theorem unbrace?_eq_some_iff {token reference : List Char} :
    unbrace? token = some reference ↔ token = braced reference := by
  constructor
  · intro hunbrace
    unfold unbrace? at hunbrace
    split at hunbrace
    · rename_i rest
      split at hunbrace
      · rename_i hlast
        cases hunbrace
        rw [braced, List.dropLast_append_getLast? _ hlast]
      · cases hunbrace
    · cases hunbrace
  · rintro rfl
    simp [unbrace?, braced]

/-- What stands in the braces of a reference. -/
theorem filter_unbrace?_eq_some_iff {token reference : List Char} :
    (unbrace? token).filter isName = some reference ↔
      Identifier reference ∧ token = braced reference := by
  rw [Option.filter_eq_some_iff, unbrace?_eq_some_iff, isName_iff_identifier, and_comm]

theorem filter_unbrace?_eq_none_iff {token : List Char} :
    (unbrace? token).filter isName = none ↔
      ∀ reference, Identifier reference → token ≠ braced reference := by
  rw [Option.eq_none_iff_forall_ne_some]
  refine forall_congr' fun reference => ?_
  rw [ne_eq, filter_unbrace?_eq_some_iff, not_and]

/-! ## The fault of a token -/

/-- What reading finds wrong with a token. -/
def tokenFault (names : List String) (bank : String) (line : Nat) (token : List Char) :
    Option BuildError :=
  if isName token then none
  else
    match (unbrace? token).filter isName with
    | some reference =>
      if String.ofList reference ∈ names then none
      else some (.noSuchBank bank line (String.ofList reference))
    | none => some (.badToken bank line (String.ofList token))

variable {names : List String} {bank : String} {line : Nat} {token : List Char}

theorem tokenFault_of_identifier (hword : Identifier token) :
    tokenFault names bank line token = none := by
  rw [tokenFault, if_pos (isName_iff_identifier.mpr hword)]

theorem tokenFault_braced {reference : List Char} (hreference : Identifier reference) :
    tokenFault names bank line (braced reference) =
      if String.ofList reference ∈ names then none
      else some (.noSuchBank bank line (String.ofList reference)) := by
  have hword : ¬ isName (braced reference) = true :=
    fun hname => not_identifier_braced reference (isName_iff_identifier.mp hname)
  rw [tokenFault, if_neg hword, filter_unbrace?_eq_some_iff.mpr ⟨hreference, rfl⟩]

theorem tokenFault_of_unspelled (hword : ¬ Identifier token)
    (hbraced : ∀ reference, Identifier reference → token ≠ braced reference) :
    tokenFault names bank line token = some (.badToken bank line (String.ofList token)) := by
  have hname : ¬ isName token = true := fun hname => hword (isName_iff_identifier.mp hname)
  rw [tokenFault, if_neg hname, filter_unbrace?_eq_none_iff.mpr hbraced]

/-- A token is a word, a reference, or neither. -/
theorem spelling_cases (token : List Char) :
    Identifier token ∨ (∃ reference, Identifier reference ∧ token = braced reference) ∨
      (¬ Identifier token ∧ ∀ reference, Identifier reference → token ≠ braced reference) := by
  by_cases hword : Identifier token
  · exact .inl hword
  · by_cases hbraced : ∃ reference, Identifier reference ∧ token = braced reference
    · exact .inr (.inl hbraced)
    · exact .inr (.inr ⟨hword, fun reference hreference heq =>
        hbraced ⟨reference, hreference, heq⟩⟩)

theorem readable_braced_iff {reference : List Char} (hreference : Identifier reference) :
    Readable names (braced reference) ↔ String.ofList reference ∈ names := by
  constructor
  · rintro (hword | ⟨other, _, hname, heq⟩)
    · exact absurd hword (not_identifier_braced reference)
    · rwa [braced_injective heq]
  · exact fun hname => .inr ⟨reference, hreference, hname, rfl⟩

/-- Reading finds nothing wrong with the tokens of the grammar, and only with those. -/
theorem tokenFault_eq_none_iff :
    tokenFault names bank line token = none ↔ Readable names token := by
  rcases spelling_cases token with hword | ⟨reference, hreference, rfl⟩ | ⟨hword, hbraced⟩
  · exact iff_of_true (tokenFault_of_identifier hword) (.inl hword)
  · rw [tokenFault_braced hreference, readable_braced_iff hreference]
    by_cases hname : String.ofList reference ∈ names <;> simp [hname]
  · rw [tokenFault_of_unspelled hword hbraced]
    refine iff_of_false (Option.some_ne_none _) ?_
    rintro (hidentifier | ⟨reference, hreference, _, heq⟩)
    · exact hword hidentifier
    · exact hbraced reference hreference heq

/-- Reading names the fault of a token. -/
theorem tokenFault_eq_some_iff {failure : BuildError} :
    tokenFault names bank line token = some failure ↔
      TokenFault names bank line token failure := by
  constructor
  · intro hfault
    rcases spelling_cases token with hword | ⟨reference, hreference, rfl⟩ | ⟨hword, hbraced⟩
    · rw [tokenFault_of_identifier hword] at hfault
      cases hfault
    · rw [tokenFault_braced hreference] at hfault
      by_cases hname : String.ofList reference ∈ names
      · rw [if_pos hname] at hfault
        cases hfault
      · rw [if_neg hname] at hfault
        cases hfault
        exact .noSuchBank hreference hname
    · rw [tokenFault_of_unspelled hword hbraced] at hfault
      cases hfault
      exact .badToken hword hbraced
  · intro hfault
    cases hfault with
    | noSuchBank hreference hname => rw [tokenFault_braced hreference, if_neg hname]
    | badToken hword hbraced => exact tokenFault_of_unspelled hword hbraced

end Pack

end SpeechRom
