import SpeechRom.Proofs.Text.Tokens

/-!
# Texts with other tokens

`substitute` puts another token in the place of every token of a text and leaves the blanks as they
are.  If what is put there are tokens again, the lines of the new text are the lines of the old one
with other tokens (`lines_substitute`), and the fields of the new text are the tokens put there
(`fields_substitute`).
-/

namespace SpeechRom.Text

/-- What stands for the characters of a token, if there are any. -/
def substituteRun (f : List Char → List Char) (run : List Char) : List Char :=
  if run = [] then [] else f run

/-- Put other tokens into a text behind the characters of a token that has begun. -/
def substituteFrom (f : List Char → List Char) : (run : List Char) → List Char → List Char
  | run, [] => substituteRun f run
  | run, c :: rest =>
    if c ∈ blanks then substituteRun f run ++ c :: substituteFrom f [] rest
    else substituteFrom f (run ++ [c]) rest

/-- The text with `f token` in the place of every token. -/
def substitute (f : List Char → List Char) (text : List Char) : List Char :=
  substituteFrom f [] text

variable {f : List Char → List Char}

theorem substitute_blank_cons {c : Char} (hc : c ∈ blanks) (rest : List Char) :
    substitute f (c :: rest) = c :: substitute f rest := by
  rw [substitute, substituteFrom, if_pos hc]
  rfl

theorem substituteFrom_solid {token : List Char} (hsolid : ∀ c ∈ token, c ∉ blanks)
    (run back : List Char) :
    substituteFrom f run (token ++ back) = substituteFrom f (run ++ token) back := by
  induction token generalizing run with
  | nil => rw [List.nil_append, List.append_nil]
  | cons c token ih =>
      obtain ⟨hc, hsolid⟩ := List.forall_mem_cons.mp hsolid
      rw [List.cons_append, substituteFrom, if_neg hc, ih hsolid, List.append_cons run c token]

theorem substitute_token_append {token back : List Char} (hnonempty : token ≠ [])
    (hsolid : ∀ c ∈ token, c ∉ blanks) (hclosed : Closed back) :
    substitute f (token ++ back) = f token ++ substitute f back := by
  have hrun : substituteRun f token = f token := if_neg hnonempty
  rw [substitute, substituteFrom_solid hsolid, List.nil_append]
  cases back with
  | nil =>
      rw [substituteFrom, hrun]
      exact (List.append_nil _).symm
  | cons c rest =>
      rw [substituteFrom, if_pos (hclosed c rfl), hrun, substitute_blank_cons (hclosed c rfl)]
      rfl

theorem closed_substitute {back : List Char} (hclosed : Closed back) :
    Closed (substitute f back) := by
  cases back with
  | nil => exact fun c hc => absurd hc (Option.not_mem_none c)
  | cons c rest =>
      rw [substitute_blank_cons (hclosed c rfl)]
      exact hclosed

/-- The fields of the new text are what was put in the place of the old ones. -/
theorem fields_substitute {text : List Char}
    (hf : ∀ token ∈ fields text, f token ≠ [] ∧ ∀ c ∈ f token, c ∉ blanks) :
    fields (substitute f text) = (fields text).map f := by
  induction text using text_induction with
  | empty => rfl
  | blank c rest hc ih =>
      rw [fields_blank_cons hc] at hf ⊢
      rw [substitute_blank_cons hc, fields_blank_cons hc, ih hf]
  | token token back hnonempty hsolid hclosed ih =>
      rw [fields_token_append hnonempty hsolid hclosed] at hf ⊢
      obtain ⟨⟨hnew, hnewSolid⟩, hback⟩ := List.forall_mem_cons.mp hf
      rw [substitute_token_append hnonempty hsolid hclosed,
        fields_token_append hnew hnewSolid (closed_substitute hclosed), ih hback, List.map_cons]

/-- Tokens without line feeds leave the lines where they are. -/
theorem lines_substitute {text : List Char}
    (hf : ∀ line ∈ lines text, ∀ token ∈ fields line, '\n' ∉ f token) :
    lines (substitute f text) = (lines text).map (substitute f) := by
  induction text using text_induction with
  | empty => rfl
  | blank c rest hc ih =>
      rw [substitute_blank_cons hc]
      -- a line feed opens a line of its own, any other blank goes to the first line of the rest
      by_cases hfeed : c = '\n'
      · subst hfeed
        rw [lines_lineFeed_cons] at hf ⊢
        rw [lines_lineFeed_cons, ih fun line hline => hf line (List.mem_cons_of_mem _ hline)]
        rfl
      · obtain ⟨first, more, hrest⟩ := exists_lines_eq_cons rest
        have hchar : ∀ b ∈ [c], b ≠ '\n' := List.forall_mem_singleton.mpr hfeed
        have hjoined : lines (c :: rest) = (c :: first) :: more := lines_append hchar hrest
        rw [hjoined, List.forall_mem_cons, fields_blank_cons hc] at hf
        have hmapped := ih (hrest ▸ List.forall_mem_cons.mpr hf)
        rw [hrest, List.map_cons] at hmapped
        rw [hjoined, List.map_cons, substitute_blank_cons hc]
        exact lines_append hchar hmapped
  | token token back hnonempty hsolid hclosed ih =>
      obtain ⟨first, more, hback⟩ := exists_lines_eq_cons back
      have hrun : ∀ c ∈ token, c ≠ '\n' := by
        rintro c hc rfl
        exact hsolid _ hc lineFeed_mem_blanks
      -- what ends the token in the text ends it on its line
      have hfirst : Closed first := fun c hc => hclosed c (head?_first_line hback c hc)
      rw [lines_append hrun hback] at hf ⊢
      obtain ⟨htoken, hmore⟩ := List.forall_mem_cons.mp hf
      rw [fields_token_append hnonempty hsolid hfirst, List.forall_mem_cons] at htoken
      have hmapped := ih (hback ▸ List.forall_mem_cons.mpr ⟨htoken.2, hmore⟩)
      rw [hback, List.map_cons] at hmapped
      have hnew : ∀ c ∈ f token, c ≠ '\n' := fun c hc heq => htoken.1 (heq ▸ hc)
      rw [substitute_token_append hnonempty hsolid hclosed, lines_append hnew hmapped,
        List.map_cons, substitute_token_append hnonempty hsolid hfirst]

example : substitute (fun _ => ['x', 'y']) " a\t\nbc d".toList = " xy\t\nxy xy".toList := by decide

end SpeechRom.Text
