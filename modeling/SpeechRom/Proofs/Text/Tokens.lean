import Mathlib.Data.List.TakeWhile
import SpeechRom.Text.Pieces

/-!
# Tokens and where they stand

A token of a text is a maximal run of characters that are not blank.  `TokenAt` says
so of a run and the text in front of it, and the line of the token is one more than the
number of line feeds in front (`lineOf`).

Cutting a text into lines and every line into fields finds exactly these tokens, in the
order in which they stand (`numberedFields_eq_append_cons_iff`): what comes before a token in the
list are the tokens of the text in front of it.

## Strategy

`text_induction` takes a text apart at its front, where a blank or a whole token stands.
Each of the two has one equation for `numberedFields` and one for `TokenAt`.
-/

namespace SpeechRom.Text

/-! ## Cutting at separators -/

/-- `pieces` is the library's way of splitting a list. -/
theorem pieces_eq_splitOnP {α : Type} (separates : α → Bool) (input : List α) :
    pieces separates input = input.splitOnP separates := by
  induction input with
  | nil => rfl
  | cons a rest ih =>
      rw [pieces_cons, List.splitOnP_cons_eq_if_modifyHead, ih]
      cases hsplit : rest.splitOnP separates with
      | nil => exact absurd hsplit (List.splitOnP_ne_nil _ _)
      | cons piece more => rfl

/-- No piece has a separator in it. -/
theorem eq_false_of_mem_pieces {α : Type} {separates : α → Bool} {input piece : List α}
    (hpiece : piece ∈ pieces separates input) {a : α} (ha : a ∈ piece) : separates a = false := by
  induction input generalizing piece with
  | nil =>
      rw [pieces_nil, List.mem_singleton] at hpiece
      cases hpiece ▸ ha
  | cons b rest ih =>
      rw [pieces_cons] at hpiece
      split at hpiece
      · rcases List.mem_cons.mp hpiece with rfl | hpiece
        · cases ha
        · exact ih hpiece ha
      · rename_i hb
        obtain ⟨first, more, hmore⟩ := List.exists_cons_of_ne_nil (pieces_ne_nil separates rest)
        rw [hmore] at ih hpiece
        rcases List.mem_cons.mp hpiece with rfl | hpiece
        · rcases List.mem_cons.mp ha with rfl | ha
          · exact Bool.eq_false_iff.mpr hb
          · exact ih List.mem_cons_self ha
        · exact ih (List.mem_cons_of_mem _ hpiece) ha

theorem lines_eq_splitOn (text : List Char) : lines text = text.splitOn '\n' := by
  rw [lines, pieces_eq_splitOnP, List.splitOn_eq_splitOnP]

theorem fields_eq_filter_splitOnP (text : List Char) :
    fields text = (text.splitOnP isBlank).filter fun piece => !piece.isEmpty := by
  rw [fields, pieces_eq_splitOnP]

/-- A text always has a first line. -/
theorem exists_lines_eq_cons (text : List Char) : ∃ first more, lines text = first :: more :=
  List.exists_cons_of_ne_nil (pieces_ne_nil _ text)

theorem lines_lineFeed_cons (rest : List Char) : lines ('\n' :: rest) = [] :: lines rest := rfl

/-- Characters other than the line feed join the first line. -/
theorem lines_append {start rest first : List Char} {more : List (List Char)}
    (hstart : ∀ c ∈ start, c ≠ '\n') (hrest : lines rest = first :: more) :
    lines (start ++ rest) = (start ++ first) :: more := by
  induction start with
  | nil => exact hrest
  | cons c start ih =>
      obtain ⟨hc, hstart⟩ := List.forall_mem_cons.mp hstart
      have hcut : lines (c :: (start ++ rest)) = extendFirst c (lines (start ++ rest)) := by
        rw [lines, pieces_cons, beq_false_of_ne hc]
        rfl
      rw [List.cons_append, hcut, ih hstart]
      rfl

/-- A text that is put together from lines falls apart into them again. -/
theorem lines_flatMap_append {above : List (List Char)} {last : List Char}
    (habove : ∀ line ∈ above, '\n' ∉ line) (hlast : '\n' ∉ last) :
    lines (above.flatMap (fun line => line ++ ['\n']) ++ last) = above ++ [last] := by
  have hsolid {line : List Char} (hline : '\n' ∉ line) : ∀ c ∈ line, c ≠ '\n' :=
    fun c hc heq => hline (heq ▸ hc)
  induction above with
  | nil =>
      have hlines : lines (last ++ []) = [last ++ []] := lines_append (hsolid hlast) rfl
      rwa [List.append_nil] at hlines
  | cons line above ih =>
      obtain ⟨hline, habove⟩ := List.forall_mem_cons.mp habove
      have hrest : lines ('\n' :: (above.flatMap (fun line => line ++ ['\n']) ++ last)) =
          [] :: (above ++ [last]) := by
        rw [lines_lineFeed_cons, ih habove]
      have hlines := lines_append (hsolid hline) hrest
      simpa using hlines

/-- The first line starts as the text does, unless it is empty. -/
theorem head?_first_line {text first : List Char} {more : List (List Char)}
    (hlines : lines text = first :: more) : ∀ c ∈ first.head?, c ∈ text.head? := by
  cases text with
  | nil =>
      cases hlines
      exact fun c hc => hc
  | cons b rest =>
      obtain ⟨line, others, hrest⟩ := exists_lines_eq_cons rest
      by_cases hb : b = '\n'
      · subst hb
        rw [lines_lineFeed_cons] at hlines
        cases hlines
        exact fun c hc => absurd hc (Option.not_mem_none c)
      · have hjoined : lines ([b] ++ rest) = ([b] ++ line) :: others :=
          lines_append (by simpa using hb) hrest
        rw [List.singleton_append, hlines] at hjoined
        cases hjoined
        exact fun c hc => hc

/-! ## Blanks and tokens -/

/-- The characters that stand between tokens. -/
def blanks : List Char := ['\t', '\n', '\x0c', '\r', ' ']

theorem isBlank_iff_mem_blanks {c : Char} : isBlank c = true ↔ c ∈ blanks := by
  simp only [isBlank, blanks, Bool.or_eq_true, beq_iff_eq, List.mem_cons, List.not_mem_nil,
    or_false]
  grind

theorem isBlank_eq_false_iff {c : Char} : isBlank c = false ↔ c ∉ blanks := by
  rw [← isBlank_iff_mem_blanks, Bool.not_eq_true]

theorem lineFeed_mem_blanks : '\n' ∈ blanks := by decide

/-- A text that is over, or goes on with a blank. -/
def Closed (back : List Char) : Prop := ∀ c ∈ back.head?, c ∈ blanks

/-- The run of characters `token` stands in the text right behind `front`; it is not empty, no
character of it is blank, and it cannot be made longer at either end. -/
structure TokenAt (text front token : List Char) : Prop where
  nonempty : token ≠ []
  solid : ∀ c ∈ token, c ∉ blanks
  opens : ∀ c ∈ front.getLast?, c ∈ blanks
  stands : ∃ back, text = front ++ token ++ back ∧ Closed back

/-- The line of what stands right behind `front`, the first line having the number 1. -/
def lineOf (front : List Char) : Nat := 1 + front.count '\n'

/-- A text is empty, or it starts with a blank, or it starts with a whole token. -/
theorem text_induction {P : List Char → Prop} (empty : P [])
    (blank : ∀ c rest, c ∈ blanks → P rest → P (c :: rest))
    (token : ∀ token back, token ≠ [] → (∀ c ∈ token, c ∉ blanks) → Closed back → P back →
      P (token ++ back)) (text : List Char) : P text := by
  induction hlength : text.length using Nat.strongRecOn generalizing text with
  | _ length ih =>
      cases text with
      | nil => exact empty
      | cons c rest =>
          subst hlength
          by_cases hc : c ∈ blanks
          · exact blank c rest hc (ih rest.length (Nat.lt_succ_self _) rest rfl)
          · have hsolid : (!isBlank c) = true := by
              rw [isBlank_eq_false_iff.mpr hc]
              rfl
            -- the first token is what can be taken from the front without meeting a blank
            have hback : (rest.dropWhile (!isBlank ·)).length < (c :: rest).length := by
              have hle := (List.dropWhile_sublist (!isBlank ·) (l := rest)).length_le
              rw [List.length_cons]
              omega
            have htaken := List.takeWhile_append_dropWhile (p := (!isBlank ·)) (l := rest)
            have hrun := token (c :: rest.takeWhile (!isBlank ·)) (rest.dropWhile (!isBlank ·))
              (List.cons_ne_nil _ _) ?_ ?_ (ih _ hback _ rfl)
            · rwa [List.cons_append, htaken] at hrun
            · intro other hother
              rw [← isBlank_eq_false_iff]
              rcases List.mem_cons.mp hother with rfl | hother
              · exact isBlank_eq_false_iff.mpr hc
              · simpa using List.mem_takeWhile_imp hother
            · intro other hother
              have hstop := List.head?_dropWhile_not (!isBlank ·) rest
              rw [Option.mem_def.mp hother] at hstop
              exact isBlank_iff_mem_blanks.mp (by simpa using hstop)

/-! ## The tokens behind a blank and behind a token -/

section Front

variable {text front token : List Char}

/-- A token that is not empty cannot close a text. -/
theorem not_closed_of_solid (hnonempty : token ≠ []) (hsolid : ∀ c ∈ token, c ∉ blanks)
    (back : List Char) : ¬ Closed (token ++ back) := by
  intro hclosed
  obtain ⟨c, rest, rfl⟩ := List.exists_cons_of_ne_nil hnonempty
  exact hsolid c List.mem_cons_self (hclosed c rfl)

theorem tokenAt_blank_cons_iff {c : Char} (hc : c ∈ blanks) :
    TokenAt (c :: text) (c :: front) token ↔ TokenAt text front token := by
  have hopens : (∀ b ∈ (c :: front).getLast?, b ∈ blanks) ↔
      ∀ b ∈ front.getLast?, b ∈ blanks := by
    cases front with
    | nil => simpa using hc
    | cons b rest => simp
  constructor
  · rintro ⟨hnonempty, hsolid, hlast, back, hback, hclosed⟩
    rw [List.cons_append, List.cons_append, List.cons.injEq] at hback
    exact ⟨hnonempty, hsolid, hopens.mp hlast, back, hback.2, hclosed⟩
  · rintro ⟨hnonempty, hsolid, hlast, back, rfl, hclosed⟩
    exact ⟨hnonempty, hsolid, hopens.mpr hlast, back, rfl, hclosed⟩

theorem tokenAt_append_iff (run : List Char) (htext : Closed text) :
    TokenAt (run ++ text) (run ++ front) token ↔ TokenAt text front token := by
  constructor
  · rintro ⟨hne, htoken, hlast, back, hback, hclosed⟩
    rw [List.append_assoc, List.append_assoc, List.append_cancel_left_eq,
      ← List.append_assoc] at hback
    refine ⟨hne, htoken, ?_, back, hback, hclosed⟩
    intro c hc
    refine hlast c ?_
    rw [List.getLast?_append, Option.mem_def.mp hc]
    rfl
  · rintro ⟨hne, htoken, hlast, back, hback, hclosed⟩
    refine ⟨hne, htoken, ?_, back, by rw [hback]; simp, hclosed⟩
    -- the two runs are apart: something stands between them, and it ends with a blank
    cases hfront : front.getLast? with
    | none =>
        rw [List.getLast?_eq_none_iff.mp hfront, List.nil_append] at hback
        rw [hback] at htext
        exact absurd htext (not_closed_of_solid hne htoken back)
    | some last =>
        rw [List.getLast?_append, hfront]
        intro c hc
        cases hc
        exact hlast last hfront

/-- The tokens of what stands in front of a token are the tokens that stand earlier. -/
theorem TokenAt.front_iff (hat : TokenAt text front token) {earlier other : List Char} :
    TokenAt front earlier other ↔ TokenAt text earlier other ∧ earlier.length < front.length := by
  obtain ⟨back, htext, _⟩ := hat.stands
  constructor
  · rintro ⟨hne, hsolid, hopens, rest, hfront, hrest⟩
    -- a token at the very end of the front would touch the token behind it
    have hgap : rest ≠ [] := by
      rintro rfl
      refine hsolid _ (List.getLast_mem hne) (hat.opens _ ?_)
      rw [hfront, List.append_nil, List.getLast?_append, List.getLast?_eq_some_getLast hne]
      rfl
    refine ⟨⟨hne, hsolid, hopens, rest ++ token ++ back, ?_, ?_⟩, ?_⟩
    · rw [htext, hfront]
      simp only [List.append_assoc]
    · obtain ⟨c, more, rfl⟩ := List.exists_cons_of_ne_nil hgap
      exact fun b hb => hrest b hb
    · have hpositive := List.length_pos_iff.mpr hne
      rw [hfront, List.length_append, List.length_append]
      omega
  · rintro ⟨⟨hne, hsolid, hopens, rest, htext', hrest⟩, hlt⟩
    have hearlier : earlier <+: text := ⟨other ++ rest, by rw [htext', List.append_assoc]⟩
    have hfront : front <+: text := ⟨token ++ back, by rw [htext, List.append_assoc]⟩
    obtain ⟨gap, rfl⟩ := List.prefix_of_prefix_length_le hearlier hfront hlt.le
    have hgap : gap ≠ [] := by
      rintro rfl
      simp at hlt
    have hsame : other ++ rest = gap ++ (token ++ back) := by
      rw [htext, List.append_assoc, List.append_assoc, List.append_assoc] at htext'
      exact (List.append_cancel_left htext').symm
    rcases List.append_eq_append_iff.mp hsame with ⟨more, hgapMore, hrestMore⟩ | ⟨more, hother, _⟩
    · refine ⟨hne, hsolid, hopens, more, ?_, fun c hc => hrest c ?_⟩
      · rw [hgapMore, List.append_assoc]
      · rw [hrestMore, List.head?_append, Option.mem_def.mp hc]
        rfl
    · -- the blank in front of the later token would belong to this one
      refine absurd (hat.opens (gap.getLast hgap) ?_) (hsolid _ ?_)
      · rw [List.getLast?_append, List.getLast?_eq_some_getLast hgap]
        rfl
      · rw [hother]
        exact List.mem_append_left _ (List.getLast_mem hgap)

end Front

/-! ## Numbered fields -/

/-- The fields of a text, each with the number of its line; the first line has the given number. -/
def numberedFields (number : Nat) (text : List Char) : List (List Char × Nat) :=
  ((lines text).zipIdx number).flatMap fun line =>
    (fields line.1).map fun field => (field, line.2)

theorem fields_blank_cons {c : Char} (hc : c ∈ blanks) (rest : List Char) :
    fields (c :: rest) = fields rest := by
  rw [fields, pieces_cons, if_pos (isBlank_iff_mem_blanks.mpr hc)]
  rfl

theorem fields_token_append {token back : List Char} (hnonempty : token ≠ [])
    (hsolid : ∀ c ∈ token, c ∉ blanks) (hclosed : Closed back) :
    fields (token ++ back) = token :: fields back := by
  have hrun : ∀ c ∈ token, isBlank c = false := fun c hc => isBlank_eq_false_iff.mpr (hsolid c hc)
  have hkept : (!token.isEmpty) = true := by simpa using hnonempty
  cases back with
  | nil =>
      rw [List.append_nil, fields_eq_filter_splitOnP, List.splitOnP_eq_singleton hrun,
        List.filter_cons, if_pos hkept]
      rfl
  | cons c rest =>
      have hc : c ∈ blanks := hclosed c rfl
      rw [fields_blank_cons hc, fields_eq_filter_splitOnP,
        List.splitOnP_append_cons_of_forall_mem hrun c (isBlank_iff_mem_blanks.mpr hc),
        List.filter_cons, if_pos hkept, ← fields_eq_filter_splitOnP]

theorem numberedFields_nil (number : Nat) : numberedFields number [] = [] := rfl

theorem numberedFields_lineFeed_cons (number : Nat) (rest : List Char) :
    numberedFields number ('\n' :: rest) = numberedFields (number + 1) rest := by
  rw [numberedFields, lines_lineFeed_cons, List.zipIdx_cons, List.flatMap_cons]
  rfl

/-- The fields of the first line come first. -/
theorem numberedFields_of_lines {number : Nat} {text first : List Char} {more : List (List Char)}
    (hlines : lines text = first :: more) :
    numberedFields number text = (fields first).map (fun field => (field, number)) ++
      (more.zipIdx (number + 1)).flatMap fun line =>
        (fields line.1).map fun field => (field, line.2) := by
  rw [numberedFields, hlines, List.zipIdx_cons, List.flatMap_cons]

theorem numberedFields_blank_cons {c : Char} (hc : c ∈ blanks) (number : Nat)
    (rest : List Char) :
    numberedFields number (c :: rest) = numberedFields (number + [c].count '\n') rest := by
  by_cases hfeed : c = '\n'
  · subst hfeed
    exact numberedFields_lineFeed_cons number rest
  · obtain ⟨first, more, hrest⟩ := exists_lines_eq_cons rest
    have hjoined : lines ([c] ++ rest) = ([c] ++ first) :: more :=
      lines_append (by simpa using hfeed) hrest
    have hcount : [c].count '\n' = 0 := List.count_eq_zero.mpr (by simpa using Ne.symm hfeed)
    rw [hcount, Nat.add_zero, numberedFields_of_lines hrest, ← fields_blank_cons hc first]
    exact numberedFields_of_lines hjoined

theorem numberedFields_token_append {token back : List Char} (hnonempty : token ≠ [])
    (hsolid : ∀ c ∈ token, c ∉ blanks) (hclosed : Closed back) (number : Nat) :
    numberedFields number (token ++ back) = (token, number) :: numberedFields number back := by
  obtain ⟨first, more, hback⟩ := exists_lines_eq_cons back
  have hrun : ∀ c ∈ token, c ≠ '\n' := by
    rintro c hc rfl
    exact hsolid _ hc lineFeed_mem_blanks
  have hfirst : Closed first := fun c hc => hclosed c (head?_first_line hback c hc)
  rw [numberedFields_of_lines (lines_append hrun hback), numberedFields_of_lines hback,
    fields_token_append hnonempty hsolid hfirst]
  rfl

/-! ## Numbered fields are the tokens, in order -/

/-- A token holds no line feed. -/
theorem count_lineFeed_of_solid {token : List Char} (hsolid : ∀ c ∈ token, c ∉ blanks) :
    token.count '\n' = 0 :=
  List.count_eq_zero.mpr fun hmem => hsolid _ hmem lineFeed_mem_blanks

/-- A token stands in the list of numbered fields, behind those of the text in front of it. -/
theorem TokenAt.numberedFields_eq {text front token : List Char} (hat : TokenAt text front token)
    (number : Nat) :
    ∃ later, numberedFields number text =
      numberedFields number front ++ (token, number + front.count '\n') :: later := by
  induction front using text_induction generalizing text number with
  | empty =>
      obtain ⟨hnonempty, hsolid, _, back, rfl, hclosed⟩ := hat
      exact ⟨numberedFields number back,
        numberedFields_token_append hnonempty hsolid hclosed number⟩
  | blank c rest hc ih =>
      obtain ⟨back, htext, _⟩ := hat.stands
      rw [List.cons_append, List.cons_append] at htext
      subst htext
      obtain ⟨later, hlater⟩ :=
        ih ((tokenAt_blank_cons_iff hc).mp hat) (number + [c].count '\n')
      refine ⟨later, ?_⟩
      rw [numberedFields_blank_cons hc, numberedFields_blank_cons hc, hlater, Nat.add_assoc,
        ← List.count_append, List.singleton_append]
  | token run rest hnonempty hsolid hclosed ih =>
      obtain ⟨back, htext, _⟩ := hat.stands
      -- the token does not touch the run in front, so a blank stands between them
      have hrest : rest ≠ [] := by
        rintro rfl
        have hlast := List.getLast_mem hnonempty
        refine hsolid _ hlast (hat.opens _ ?_)
        rw [List.append_nil, List.getLast?_eq_some_getLast hnonempty]
        rfl
      obtain ⟨c, more, rfl⟩ := List.exists_cons_of_ne_nil hrest
      have hgap : Closed (c :: more ++ token ++ back) := fun b hb => hclosed b hb
      rw [List.append_assoc, List.append_assoc, ← List.append_assoc (c :: more)] at htext
      subst htext
      obtain ⟨later, hlater⟩ := ih ((tokenAt_append_iff run hgap).mp hat) number
      refine ⟨later, ?_⟩
      rw [numberedFields_token_append hnonempty hsolid hgap,
        numberedFields_token_append hnonempty hsolid hclosed, hlater, List.count_append,
        count_lineFeed_of_solid hsolid, Nat.zero_add, List.cons_append]

/-- What stands in the list of numbered fields is a token of the text. -/
theorem exists_tokenAt_of_numberedFields {text token : List Char} {number line : Nat}
    {earlier later : List (List Char × Nat)}
    (hfields : numberedFields number text = earlier ++ (token, line) :: later) :
    ∃ front, TokenAt text front token ∧ line = number + front.count '\n' ∧
      earlier = numberedFields number front := by
  induction text using text_induction generalizing number earlier with
  | empty =>
      rw [numberedFields_nil] at hfields
      exact absurd hfields.symm (by simp)
  | blank c rest hc ih =>
      rw [numberedFields_blank_cons hc] at hfields
      obtain ⟨front, hat, hline, hearlier⟩ := ih hfields
      refine ⟨c :: front, (tokenAt_blank_cons_iff hc).mpr hat, ?_, ?_⟩
      · rw [hline, Nat.add_assoc, ← List.count_append, List.singleton_append]
      · rw [numberedFields_blank_cons hc, hearlier]
  | token run rest hnonempty hsolid hclosed ih =>
      rw [numberedFields_token_append hnonempty hsolid hclosed] at hfields
      cases earlier with
      | nil =>
          rw [List.nil_append, List.cons.injEq] at hfields
          obtain ⟨hfirst, _⟩ := hfields
          cases hfirst
          exact ⟨[], ⟨hnonempty, hsolid, by simp, rest, rfl, hclosed⟩, rfl, rfl⟩
      | cons first more =>
          rw [List.cons_append, List.cons.injEq] at hfields
          obtain ⟨rfl, hfields⟩ := hfields
          obtain ⟨front, hat, hline, hearlier⟩ := ih hfields
          have hfront : Closed front := by
            intro c hc
            obtain ⟨back, htext, _⟩ := hat.stands
            refine hclosed c ?_
            rw [htext, List.append_assoc, List.head?_append, Option.mem_def.mp hc]
            rfl
          refine ⟨run ++ front, (tokenAt_append_iff run hclosed).mpr hat, ?_, ?_⟩
          · rw [hline, List.count_append, count_lineFeed_of_solid hsolid, Nat.zero_add]
          · rw [numberedFields_token_append hnonempty hsolid hfront, hearlier]

/-- **Lines and fields find the tokens of a text, in order.**  In front of a token in the list stand
the tokens of the text in front of it. -/
theorem numberedFields_eq_append_cons_iff {text token : List Char} {line : Nat}
    {earlier : List (List Char × Nat)} :
    (∃ later, numberedFields 1 text = earlier ++ (token, line) :: later) ↔
      ∃ front, TokenAt text front token ∧ line = lineOf front ∧
        earlier = numberedFields 1 front := by
  constructor
  · rintro ⟨later, hfields⟩
    exact exists_tokenAt_of_numberedFields hfields
  · rintro ⟨front, hat, rfl, rfl⟩
    exact hat.numberedFields_eq 1

theorem mem_numberedFields_iff {text token : List Char} {line : Nat} :
    (token, line) ∈ numberedFields 1 text ↔
      ∃ front, TokenAt text front token ∧ line = lineOf front := by
  constructor
  · intro hmem
    obtain ⟨earlier, later, hfields⟩ := List.append_of_mem hmem
    obtain ⟨front, hat, hline, _⟩ := numberedFields_eq_append_cons_iff.mp ⟨later, hfields⟩
    exact ⟨front, hat, hline⟩
  · rintro ⟨front, hat, rfl⟩
    obtain ⟨later, hfields⟩ := numberedFields_eq_append_cons_iff.mpr ⟨front, hat, rfl, rfl⟩
    rw [hfields]
    exact List.mem_append_right _ List.mem_cons_self

end SpeechRom.Text
