import SpeechRom.Proofs.Rom.ListingText

/-!
# The lines of a listing that grows

A listing grows by bytes and knows only its text and two addresses.  A `Page` grows in the same way
and knows its lines: those above the one that is being written, and the row of bytes on that one.
The text of the listing is at every moment that of the page (`Shows.add`, `toList_listing`).

## Strategy

`Shows` keeps the row as long as the addresses say, so that the listing breaks its line exactly
where the row of the page is full (`Shows.breaksBefore_iff`).  A byte stands below a comment, on a
new line or at the end of the row, and each of the three has its own step.
-/

namespace SpeechRom.Rom

/-! ## Growing by a byte -/

namespace ListingState

/-- What stands above a comment: the text so far, on complete lines. -/
def broken (width : Nat) (state : ListingState) : String :=
  if state.address = 0 || breaksBefore width state.lineStart state.address then
    state.text ++ separatorBefore width state.lineStart state.address
  else state.text ++ separatorBefore width state.lineStart state.address ++ "\n"

variable {width : Nat} {labels : Labels} {state : ListingState}

theorem add_of_none (hlabel : labels[state.address]? = none) (byte : UInt8) :
    state.add width labels byte =
      ⟨state.text ++ separatorBefore width state.lineStart state.address ++ byteText byte,
        state.address + 1, state.lineStart⟩ := by
  simp only [add, hlabel]

theorem add_of_some {label : String} (hlabel : labels[state.address]? = some label)
    (byte : UInt8) :
    state.add width labels byte =
      ⟨state.broken width ++ addressComment state.address label ++ byteText byte,
        state.address + 1, state.address⟩ := by
  simp only [add, hlabel, broken]

theorem address_add (byte : UInt8) : (state.add width labels byte).address = state.address + 1 := by
  cases hlabel : labels[state.address]? with
  | none => rw [add_of_none hlabel]
  | some label => rw [add_of_some hlabel]

end ListingState

/-! ## Labels and the comments above them -/

theorem mem_labels_of_some {labels : Labels} {address : Nat} {label : String}
    (hlabel : labels[address]? = some label) : address ∈ labels :=
  (Std.TreeMap.getElem?_eq_some_iff.mp hlabel).1

theorem not_mem_labels_of_none {labels : Labels} {address : Nat}
    (hlabel : labels[address]? = none) : address ∉ labels := by
  rw [← Std.TreeMap.isSome_getElem?_iff_mem, hlabel]
  exact Bool.false_ne_true

/-- The comment at an address, with a blank line on either side. -/
def heading (labels : Labels) (address : Nat) : List ListingLine :=
  match labels[address]? with
  | none => []
  | some label => [.blank, .comment (address % 65536) label, .blank]

theorem heading_of_not_mem {labels : Labels} {address : Nat} (hplain : address ∉ labels) :
    heading labels address = [] := by
  unfold heading
  rw [Std.TreeMap.getElem?_eq_none hplain]

theorem textAbove_heading {labels : Labels} {address : Nat} {label : String}
    (hlabel : labels[address]? = some label) :
    textAbove (heading labels address) = (addressComment address label).toList := by
  have hlow : address % 65536 % 256 = address % 256 := by omega
  have hhigh : address % 65536 / 256 = address / 256 % 256 := by omega
  have hstart : "\n// Address: 0x".toList = '\n' :: "// Address: 0x".toList := rfl
  have hend : "\n\n".toList = ['\n', '\n'] := rfl
  unfold heading addressComment
  simp only [hlabel, textAbove, ListingLine.text_blank, ListingLine.text_comment, List.flatMap_cons,
    List.flatMap_nil, String.toList_append]
  rw [hstart, hend, hlow, hhigh]
  simp only [List.nil_append, List.cons_append, List.append_assoc]

/-! ## Pages -/

/-- A listing by its lines: those above the one that is being written, and the row on that one. -/
structure Page where
  above : List ListingLine
  row : List UInt8

namespace Page

/-- All lines so far. -/
def lines (page : Page) : List ListingLine :=
  if page.row = [] then page.above else page.above ++ [.data page.row]

/-- A new line is started at the beginning, behind a full row, and below a comment. -/
def Opens (page : Page) (width : Nat) (labels : Labels) (address : Nat) : Prop :=
  page.row = [] ∨ page.row.length = width ∨ address ∈ labels

instance (page : Page) (width : Nat) (labels : Labels) (address : Nat) :
    Decidable (page.Opens width labels address) := instDecidableOr

def add (width : Nat) (labels : Labels) (address : Nat) (page : Page) (byte : UInt8) : Page :=
  if page.Opens width labels address then ⟨page.lines ++ heading labels address, [byte]⟩
  else ⟨page.above, page.row ++ [byte]⟩

theorem add_of_opens {width address : Nat} {labels : Labels} {page : Page}
    (hopens : page.Opens width labels address) (byte : UInt8) :
    page.add width labels address byte = ⟨page.lines ++ heading labels address, [byte]⟩ :=
  if_pos hopens

theorem add_of_not_opens {width address : Nat} {labels : Labels} {page : Page}
    (hopens : ¬ page.Opens width labels address) (byte : UInt8) :
    page.add width labels address byte = ⟨page.above, page.row ++ [byte]⟩ :=
  if_neg hopens

/-- Add bytes, the first of them at the address. -/
def fill (width : Nat) (labels : Labels) : Nat → Page → List UInt8 → Page
  | _, page, [] => page
  | address, page, byte :: rest =>
      fill width labels (address + 1) (page.add width labels address byte) rest

end Page

/-- The text of the listing is that of the page, and both count the bytes of the row. -/
structure Shows (width : Nat) (state : ListingState) (page : Page) : Prop where
  text : state.text.toList = textAbove page.above ++ rowText page.row
  empty : state.address = 0 ↔ page.row = []
  start_le : state.lineStart ≤ state.address
  le : 0 < width → page.row.length ≤ width
  counted : 0 < width → (state.address - state.lineStart) % width = page.row.length % width

namespace Shows

variable {width : Nat} {state : ListingState} {page : Page}

/-- The line breaks where the row of the page is full. -/
theorem breaksBefore_iff (hshows : Shows width state page) (hrow : page.row ≠ []) :
    breaksBefore width state.lineStart state.address = true ↔ page.row.length = width := by
  have hlength := List.length_pos_iff.mpr hrow
  have haddress : 0 < state.address := Nat.pos_of_ne_zero (mt hshows.empty.mp hrow)
  unfold breaksBefore
  simp only [Bool.and_eq_true, decide_eq_true_eq, beq_iff_eq, haddress, true_and]
  constructor
  · rintro ⟨hwidth, hcount⟩
    have hle := hshows.le hwidth
    rw [hshows.counted hwidth] at hcount
    by_contra hne
    rw [Nat.mod_eq_of_lt (by omega)] at hcount
    omega
  · intro hfull
    have hwidth : 0 < width := by omega
    refine ⟨hwidth, ?_⟩
    rw [hshows.counted hwidth, hfull, Nat.mod_self]

/-- With the row closed, the text is that of all lines. -/
theorem textAbove_lines (hshows : Shows width state page) (hrow : page.row ≠ []) :
    textAbove page.lines = state.text.toList ++ [',', ' ', '\n'] := by
  rw [Page.lines, if_neg hrow, textAbove_append, hshows.text]
  simp only [textAbove, ListingLine.text_data, List.flatMap_cons, List.flatMap_nil,
    List.append_nil, List.append_assoc, List.cons_append, List.nil_append]

/-- What stands in front of a byte that starts a line without a comment. -/
theorem text_append_separator (hshows : Shows width state page)
    (hopens : page.row = [] ∨ page.row.length = width) :
    (state.text ++ separatorBefore width state.lineStart state.address).toList =
      textAbove page.lines := by
  by_cases hrow : page.row = []
  · rw [separatorBefore, if_pos (hshows.empty.mpr hrow), String.append_empty, hshows.text,
      Page.lines, if_pos hrow, hrow]
    exact List.append_nil _
  · have hfull := hopens.resolve_left hrow
    rw [separatorBefore, if_neg (mt hshows.empty.mp hrow),
      if_pos ((hshows.breaksBefore_iff hrow).mpr hfull), hshows.textAbove_lines hrow,
      String.toList_append]
    rfl

/-- What stands above a comment. -/
theorem text_broken (hshows : Shows width state page) :
    (state.broken width).toList = textAbove page.lines := by
  unfold ListingState.broken
  split
  · rename_i hfresh
    -- nothing has been written, or the separator breaks the line already
    refine hshows.text_append_separator ?_
    by_cases hrow : page.row = []
    · exact .inl hrow
    · rw [decide_eq_false (mt hshows.empty.mp hrow), Bool.false_or] at hfresh
      exact .inr ((hshows.breaksBefore_iff hrow).mp hfresh)
  · rename_i hstale
    -- the comment cuts a row short, so the break comes on top of the separator
    have hcomma : ", ".toList = [',', ' '] := rfl
    have hlineFeed : "\n".toList = ['\n'] := rfl
    obtain ⟨haddress, hbreaks⟩ : state.address ≠ 0 ∧
        ¬ breaksBefore width state.lineStart state.address = true := by simpa using hstale
    rw [separatorBefore, if_neg haddress, if_neg hbreaks,
      hshows.textAbove_lines (mt hshows.empty.mpr haddress), String.toList_append,
      String.toList_append, hcomma, hlineFeed, List.append_assoc]
    rfl

/-- A line that starts with a byte. -/
theorem text_append_byteText {above : List ListingLine} {text : String}
    (htext : text.toList = textAbove above) (byte : UInt8) :
    (text ++ byteText byte).toList = textAbove above ++ rowText [byte] := by
  rw [String.toList_append, htext, rowText_singleton]

theorem counted_succ (hshows : Shows width state page) (hwidth : 0 < width) :
    (state.address + 1 - state.lineStart) % width = (page.row.length + 1) % width := by
  rw [Nat.sub_add_comm hshows.start_le, Nat.add_mod, hshows.counted hwidth, ← Nat.add_mod]

variable {labels : Labels}

theorem add_below_comment (hshows : Shows width state page) {label : String}
    (hlabel : labels[state.address]? = some label) (byte : UInt8) :
    Shows width (state.add width labels byte)
      ⟨page.lines ++ heading labels state.address, [byte]⟩ := by
  have htext : (state.broken width ++ addressComment state.address label).toList =
      textAbove (page.lines ++ heading labels state.address) := by
    rw [String.toList_append, hshows.text_broken, textAbove_append, textAbove_heading hlabel]
  rw [ListingState.add_of_some hlabel]
  refine ⟨text_append_byteText htext byte, by simp, Nat.le_succ _, fun hwidth => hwidth, ?_⟩
  -- counting starts anew at the label
  intro _
  rw [Nat.add_sub_cancel_left]
  rfl

theorem add_on_new_line (hshows : Shows width state page)
    (hlabel : labels[state.address]? = none) (hopens : page.row = [] ∨ page.row.length = width)
    (byte : UInt8) : Shows width (state.add width labels byte) ⟨page.lines, [byte]⟩ := by
  have htext := hshows.text_append_separator hopens
  have hnext : state.lineStart ≤ state.address + 1 := Nat.le_succ_of_le hshows.start_le
  rw [ListingState.add_of_none hlabel]
  refine ⟨text_append_byteText htext byte, by simp, hnext, fun hwidth => hwidth, ?_⟩
  intro hwidth
  rw [hshows.counted_succ hwidth]
  rcases hopens with hrow | hfull
  · rw [hrow]
    rfl
  · rw [hfull, Nat.add_mod_left]
    rfl

theorem add_to_row (hshows : Shows width state page) (hlabel : labels[state.address]? = none)
    (hrow : page.row ≠ []) (hfull : page.row.length ≠ width) (byte : UInt8) :
    Shows width (state.add width labels byte) ⟨page.above, page.row ++ [byte]⟩ := by
  have hbreaks := mt (hshows.breaksBefore_iff hrow).mp hfull
  have hnext : state.lineStart ≤ state.address + 1 := Nat.le_succ_of_le hshows.start_le
  have hlength : (page.row ++ [byte]).length = page.row.length + 1 := by
    rw [List.length_append, List.length_singleton]
  have hcomma : ", ".toList = [',', ' '] := rfl
  rw [ListingState.add_of_none hlabel]
  refine ⟨?_, by simp, hnext, ?_, ?_⟩
  · rw [separatorBefore, if_neg (mt hshows.empty.mp hrow), if_neg hbreaks,
      String.toList_append, String.toList_append, hcomma, hshows.text, rowText_concat hrow]
    simp only [List.append_assoc]
  · intro hwidth
    have hle := hshows.le hwidth
    rw [hlength]
    omega
  · intro hwidth
    rw [hshows.counted_succ hwidth, hlength]

/-- **The listing grows as the page does.** -/
theorem add (hshows : Shows width state page) (byte : UInt8) :
    Shows width (state.add width labels byte) (page.add width labels state.address byte) := by
  cases hlabel : labels[state.address]? with
  | some label =>
      have hmem := mem_labels_of_some hlabel
      rw [Page.add_of_opens (.inr (.inr hmem))]
      exact hshows.add_below_comment hlabel byte
  | none =>
      have hplain := not_mem_labels_of_none hlabel
      by_cases hopens : page.row = [] ∨ page.row.length = width
      · rw [Page.add_of_opens (hopens.imp_right .inl), heading_of_not_mem hplain, List.append_nil]
        exact hshows.add_on_new_line hlabel hopens byte
      · obtain ⟨hrow, hfull⟩ := not_or.mp hopens
        rw [Page.add_of_not_opens (by simp [Page.Opens, hrow, hfull, hplain])]
        exact hshows.add_to_row hlabel hrow hfull byte

theorem fill (hshows : Shows width state page) (bytes : List UInt8) :
    Shows width (bytes.foldl (ListingState.add width labels) state)
      (page.fill width labels state.address bytes) := by
  induction bytes generalizing state page with
  | nil => exact hshows
  | cons byte rest ih =>
      have haddress : (state.add width labels byte).address = state.address + 1 :=
        ListingState.address_add byte
      rw [List.foldl_cons, Page.fill, ← haddress]
      exact ih (hshows.add byte)

end Shows

/-- The page of a whole listing. -/
def pageOf (width : Nat) (labels : Labels) (bytes : List UInt8) : Page :=
  Page.fill width labels 0 ⟨[], []⟩ bytes

/-- The text of a listing is that of its page. -/
theorem toList_listing (bytes : List UInt8) (width : Nat) (labels : Labels) :
    (listing bytes width labels).toList =
      textAbove (pageOf width labels bytes).above ++ rowText (pageOf width labels bytes).row := by
  have hstart : Shows width ⟨"", 0, 0⟩ ⟨[], []⟩ :=
    ⟨rfl, by simp, Nat.le_refl 0, fun _ => Nat.zero_le width, fun _ => rfl⟩
  exact (hstart.fill bytes).text

end SpeechRom.Rom
