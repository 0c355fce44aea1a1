import SpeechRom.Proofs.Rom.ListingPage

/-!
# Listings are faithful

What is read of a listing is faithful (`listing_faithful`): the rows give the bytes back, the
comments are those of the labelled addresses in ascending order, each right above its byte, and
between two labelled addresses all rows but the last are full.

## Strategy

The text of a listing is that of its page, so that what is read are the lines of the page.  A byte
either starts a line, below a comment or not, or it stands at the end of the last one
(`Page.lines_add`), and lines above are never touched again (`Page.exists_lines_fill`).
-/

namespace SpeechRom.Rom

/-! ## What a faithful listing shows -/

namespace ListingLine

/-- The bytes on a line. -/
def bytes : ListingLine → List UInt8
  | data row => row
  | _ => []

/-- The address and the text of a comment. -/
def comment? : ListingLine → Option (Nat × String)
  | comment address text => some (address, text)
  | _ => none

end ListingLine

/-- Each label is on one line. -/
def SingleLines (labels : Labels) : Prop :=
  ∀ (address : Nat) label, labels[address]? = some label → '\n' ∉ label.toList

/-- The comment at an address, if it has a label. -/
def labelAt? (labels : Labels) (address : Nat) : Option (Nat × String) :=
  labels[address]?.map fun label => (address % 65536, label)

/-- From a labelled address, or from the first one, up to the next, or to the end. -/
structure Stretch (labels : Labels) (size start stop : Nat) : Prop where
  lt : start < stop
  le : stop ≤ size
  opens : start = 0 ∨ start ∈ labels
  closes : stop = size ∨ stop ∈ labels
  plain : ∀ address, start < address → address < stop → address ∉ labels

/-- Rows of `width` bytes, and one that need not be full; without a width, that one only. -/
structure Wrapped (width : Nat) (full : List (List UInt8)) (last : List UInt8) : Prop where
  length_eq : ∀ row ∈ full, row.length = width
  pos : 1 ≤ last.length
  le : 0 < width → last.length ≤ width
  single : width = 0 → full = []

/-- The lines show the bytes in rows and the labels as comments right above their bytes. -/
structure Faithful (bytes : List UInt8) (width : Nat) (labels : Labels)
    (page : List ListingLine) : Prop where
  bytes_eq : page.flatMap (·.bytes) = bytes
  comments_eq : page.filterMap (·.comment?) =
    (List.range bytes.length).filterMap (labelAt? labels)
  comment_above : ∀ address label, address < bytes.length → labels[address]? = some label →
    ∃ above row below, page = above ++ .blank :: .comment (address % 65536) label :: .blank ::
        .data row :: below ∧
      above.flatMap (·.bytes) = bytes.take address ∧ row.head? = bytes[address]?
  wrapped : ∀ start stop, Stretch labels bytes.length start stop →
    ∃ above full last below, page = above ++ full.map .data ++ .data last :: below ∧
      above.flatMap (·.bytes) = bytes.take start ∧
      full.flatten ++ last = (bytes.take stop).drop start ∧ Wrapped width full last

/-! ## What is on a page -/

theorem bytes_heading (labels : Labels) (address : Nat) :
    (heading labels address).flatMap (·.bytes) = [] := by
  unfold heading
  split <;> rfl

theorem legible_heading {labels : Labels} (hlabels : SingleLines labels) (address : Nat) :
    ∀ line ∈ heading labels address, line.Legible := by
  unfold heading
  split
  · exact fun _ hline => absurd hline List.not_mem_nil
  · rename_i label hlabel
    have hcomment : (ListingLine.comment (address % 65536) label).Legible :=
      ⟨Nat.mod_lt _ (by decide), hlabels address label hlabel⟩
    exact List.forall_mem_cons.mpr ⟨trivial, List.forall_mem_cons.mpr
      ⟨hcomment, List.forall_mem_singleton.mpr trivial⟩⟩

theorem comments_heading (labels : Labels) (address : Nat) :
    (heading labels address).filterMap (·.comment?) = (labelAt? labels address).toList := by
  unfold heading labelAt?
  cases labels[address]? <;> rfl

theorem labelAt?_of_not_mem {labels : Labels} {address : Nat} (hplain : address ∉ labels) :
    labelAt? labels address = none := by
  unfold labelAt?
  rw [Std.TreeMap.getElem?_eq_none hplain, Option.map_none]

namespace Page

variable {width : Nat} {labels : Labels}

theorem lines_of_row {page : Page} (hrow : page.row ≠ []) :
    page.lines = page.above ++ [.data page.row] := if_neg hrow

/-- A byte stands on a line of its own, or at the end of the last one. -/
theorem lines_add (address : Nat) (page : Page) (byte : UInt8) :
    (page.add width labels address byte).lines =
        page.lines ++ heading labels address ++ [.data [byte]] ∨
      (address ∉ labels ∧ page.lines = page.above ++ [.data page.row] ∧
        (page.add width labels address byte).lines =
          page.above ++ [.data (page.row ++ [byte])]) := by
  by_cases hopens : page.Opens width labels address
  · left
    rw [add_of_opens hopens, lines_of_row (List.cons_ne_nil _ _)]
  · right
    obtain ⟨hrow, _, hplain⟩ : page.row ≠ [] ∧ page.row.length ≠ width ∧ address ∉ labels := by
      simpa [Opens] using hopens
    refine ⟨hplain, lines_of_row hrow, ?_⟩
    rw [add_of_not_opens hopens, lines_of_row (List.concat_ne_nil _ _)]

theorem row_add_ne_nil (address : Nat) (page : Page) (byte : UInt8) :
    (page.add width labels address byte).row ≠ [] := by
  unfold add
  split
  · exact List.cons_ne_nil _ _
  · exact List.concat_ne_nil _ _

theorem fill_append (address : Nat) (page : Page) (front back : List UInt8) :
    page.fill width labels address (front ++ back) =
      (page.fill width labels address front).fill width labels (address + front.length) back := by
  induction front generalizing address page with
  | nil => rfl
  | cons byte rest ih =>
      rw [List.cons_append, fill, ih, fill, List.length_cons]
      congr 1
      omega

theorem row_fill_ne_nil {address : Nat} {page : Page} {bytes : List UInt8}
    (hrow : page.row ≠ [] ∨ bytes ≠ []) : (page.fill width labels address bytes).row ≠ [] := by
  induction bytes generalizing address page with
  | nil => exact hrow.resolve_right (absurd rfl)
  | cons byte rest ih => exact ih (.inl (row_add_ne_nil address page byte))

theorem bytes_fill (width : Nat) (labels : Labels) (address : Nat) (page : Page)
    (bytes : List UInt8) :
    (page.fill width labels address bytes).lines.flatMap (·.bytes) =
      page.lines.flatMap (·.bytes) ++ bytes := by
  induction bytes generalizing address page with
  | nil => exact (List.append_nil _).symm
  | cons byte rest ih =>
      have hadd : (page.add width labels address byte).lines.flatMap (·.bytes) =
          page.lines.flatMap (·.bytes) ++ [byte] := by
        rcases lines_add address page byte with hlines | ⟨_, hlines, hadd⟩
        · rw [hlines, List.flatMap_append, List.flatMap_append, bytes_heading, List.append_nil]
          rfl
        · rw [hlines, hadd, List.flatMap_append, List.flatMap_append, List.append_assoc]
          simp [ListingLine.bytes]
      rw [fill, ih, hadd, List.append_assoc, List.singleton_append]

theorem comments_fill (width : Nat) (labels : Labels) (address : Nat) (page : Page)
    (bytes : List UInt8) :
    (page.fill width labels address bytes).lines.filterMap (·.comment?) =
      page.lines.filterMap (·.comment?) ++
        (List.range' address bytes.length).filterMap (labelAt? labels) := by
  induction bytes generalizing address page with
  | nil => exact (List.append_nil _).symm
  | cons byte rest ih =>
      have hadd : (page.add width labels address byte).lines.filterMap (·.comment?) =
          page.lines.filterMap (·.comment?) ++ (labelAt? labels address).toList := by
        rcases lines_add address page byte with hlines | ⟨hplain, hlines, hadd⟩
        · rw [hlines, List.filterMap_append, List.filterMap_append, comments_heading]
          exact List.append_nil _
        · rw [hlines, hadd, List.filterMap_append, List.filterMap_append,
            labelAt?_of_not_mem hplain]
          exact (List.append_nil _).symm
      rw [fill, ih, hadd, List.length_cons, List.range'_succ, List.filterMap_cons]
      cases labelAt? labels address <;> simp

/-- Every line can be read. -/
theorem legible_fill (hlabels : SingleLines labels) {address : Nat} {page : Page}
    (bytes : List UInt8) (hpage : ∀ line ∈ page.lines, line.Legible) :
    ∀ line ∈ (page.fill width labels address bytes).lines, line.Legible := by
  induction bytes generalizing address page with
  | nil => exact hpage
  | cons byte rest ih =>
      refine ih ?_
      rcases lines_add address page byte with hlines | ⟨_, hlines, hadd⟩
      · have hheading := legible_heading hlabels address
        have hrow : (ListingLine.data [byte]).Legible := List.cons_ne_nil _ _
        rw [hlines, List.forall_mem_append, List.forall_mem_append, List.forall_mem_singleton]
        exact ⟨⟨hpage, hheading⟩, hrow⟩
      · have hrow : (ListingLine.data (page.row ++ [byte])).Legible := List.concat_ne_nil _ _
        rw [hlines, List.forall_mem_append] at hpage
        rw [hadd, List.forall_mem_append, List.forall_mem_singleton]
        exact ⟨hpage.1, hrow⟩

/-- Lines above stay, and the row that is being written is only added to. -/
theorem exists_lines_fill (width : Nat) (labels : Labels) {page : Page} (hrow : page.row ≠ [])
    (address : Nat) (bytes : List UInt8) :
    ∃ more below, (page.fill width labels address bytes).lines =
      page.above ++ .data (page.row ++ more) :: below := by
  induction bytes generalizing address page with
  | nil => exact ⟨[], [], by rw [fill, lines_of_row hrow, List.append_nil]⟩
  | cons byte rest ih =>
      obtain ⟨more, below, hlines⟩ := ih (row_add_ne_nil address page byte) (address + 1)
      rw [fill, hlines]
      by_cases hopens : page.Opens width labels address
      · rw [add_of_opens hopens, lines_of_row hrow]
        exact ⟨[], heading labels address ++ .data ([byte] ++ more) :: below, by simp⟩
      · rw [add_of_not_opens hopens]
        exact ⟨byte :: more, below, by simp⟩

/-- Above an address that starts a line, lines stay as they are. -/
theorem exists_lines_fill_of_label (width : Nat) {address : Nat} {bytes : List UInt8}
    (hstop : bytes = [] ∨ address ∈ labels) (page : Page) :
    ∃ below, (page.fill width labels address bytes).lines = page.lines ++ below := by
  cases bytes with
  | nil => exact ⟨[], (List.append_nil _).symm⟩
  | cons byte rest =>
      have hlabel := hstop.resolve_left (List.cons_ne_nil _ _)
      obtain ⟨more, below, hlines⟩ := exists_lines_fill width labels
        (row_add_ne_nil address page byte) (address + 1) rest
      rw [fill, hlines, add_of_opens (.inr (.inr hlabel)), List.append_assoc]
      exact ⟨_, rfl⟩

end Page

/-! ## Rows that are filled up -/

namespace Wrapped

variable {width : Nat} {full : List (List UInt8)} {last : List UInt8}

theorem single_byte (width : Nat) (byte : UInt8) : Wrapped width [] [byte] where
  length_eq := fun _ hrow => absurd hrow List.not_mem_nil
  pos := Nat.le_refl 1
  le := fun hwidth => hwidth
  single := fun _ => rfl

theorem last_ne_nil (hwrapped : Wrapped width full last) : last ≠ [] :=
  List.length_pos_iff.mp hwrapped.pos

theorem next_row (hwrapped : Wrapped width full last) (hfull : last.length = width)
    (byte : UInt8) : Wrapped width (full ++ [last]) [byte] where
  length_eq := by
    rw [List.forall_mem_append, List.forall_mem_singleton]
    exact ⟨hwrapped.length_eq, hfull⟩
  pos := Nat.le_refl 1
  le := fun hwidth => hwidth
  single := by
    intro hwidth
    have hpos := hwrapped.pos
    omega

theorem same_row (hwrapped : Wrapped width full last) (hfull : last.length ≠ width)
    (byte : UInt8) : Wrapped width full (last ++ [byte]) where
  length_eq := hwrapped.length_eq
  pos := by simp
  le := by
    intro hwidth
    have hle := hwrapped.le hwidth
    rw [List.length_append, List.length_singleton]
    omega
  single := hwrapped.single

end Wrapped

/-- Where nothing is labelled, rows are filled up one after the other. -/
theorem Page.exists_wrapped_fill (above : List ListingLine) {width address : Nat} {labels : Labels}
    {bytes last : List UInt8} {full : List (List UInt8)}
    (hplain : ∀ next, address ≤ next → next < address + bytes.length → next ∉ labels)
    (hwrapped : Wrapped width full last) :
    ∃ more final, fill width labels address ⟨above ++ full.map .data, last⟩ bytes =
        ⟨above ++ more.map .data, final⟩ ∧
      more.flatten ++ final = full.flatten ++ last ++ bytes ∧ Wrapped width more final := by
  induction bytes generalizing address full last with
  | nil => exact ⟨full, last, rfl, (List.append_nil _).symm, hwrapped⟩
  | cons byte rest ih =>
      rw [List.length_cons] at hplain
      have hhere : address ∉ labels := hplain address (Nat.le_refl _) (by omega)
      have hlater : ∀ next, address + 1 ≤ next → next < address + 1 + rest.length →
          next ∉ labels := fun next hle hlt => hplain next (by omega) (by omega)
      have hlast := hwrapped.last_ne_nil
      -- a full row joins the others, and the byte starts the next one
      by_cases hfull : last.length = width
      · obtain ⟨more, final, hfill, hbytes, hdone⟩ := ih hlater (hwrapped.next_row hfull byte)
        refine ⟨more, final, ?_, ?_, hdone⟩
        · rw [fill, add_of_opens (.inr (.inl hfull)), heading_of_not_mem hhere, List.append_nil,
            lines_of_row hlast, ← hfill, List.map_append, List.append_assoc]
          rfl
        · rw [hbytes]
          simp
      · have hopens : ¬ Opens ⟨above ++ full.map .data, last⟩ width labels address := by
          simp [Opens, hlast, hfull, hhere]
        obtain ⟨more, final, hfill, hbytes, hdone⟩ := ih hlater (hwrapped.same_row hfull byte)
        refine ⟨more, final, ?_, ?_, hdone⟩
        · rw [fill, add_of_not_opens hopens, hfill]
        · rw [hbytes]
          simp

/-! ## The main statement -/

section PageOf

variable {width : Nat} {labels : Labels}

theorem pageOf_append (front back : List UInt8) :
    pageOf width labels (front ++ back) =
      (pageOf width labels front).fill width labels front.length back := by
  unfold pageOf
  rw [Page.fill_append, Nat.zero_add]

theorem bytes_pageOf (bytes : List UInt8) :
    (pageOf width labels bytes).lines.flatMap (·.bytes) = bytes :=
  Page.bytes_fill width labels 0 ⟨[], []⟩ bytes

theorem comments_pageOf (bytes : List UInt8) :
    (pageOf width labels bytes).lines.filterMap (·.comment?) =
      (List.range bytes.length).filterMap (labelAt? labels) := by
  have hcomments := Page.comments_fill width labels 0 ⟨[], []⟩ bytes
  rwa [← List.range_eq_range'] at hcomments

/-- A comment stands right above its byte. -/
theorem comment_above_pageOf (width : Nat) {front back : List UInt8} {byte : UInt8}
    {label : String} (hlabel : labels[front.length]? = some label) :
    ∃ row below, (pageOf width labels (front ++ byte :: back)).lines =
      (pageOf width labels front).lines ++ .blank :: .comment (front.length % 65536) label ::
        .blank :: .data (byte :: row) :: below := by
  have hmem := mem_labels_of_some hlabel
  obtain ⟨row, below, hlines⟩ := Page.exists_lines_fill width labels
    (Page.row_add_ne_nil front.length (pageOf width labels front) byte) (front.length + 1) back
  refine ⟨row, below, ?_⟩
  rw [pageOf_append, Page.fill, hlines, Page.add_of_opens (.inr (.inr hmem)), heading, hlabel]
  simp

/-- Between addresses where a line starts, rows are full. -/
theorem wrapped_pageOf (width : Nat) {front middle back : List UInt8} {byte : UInt8}
    (hstart : front = [] ∨ front.length ∈ labels)
    (hplain : ∀ address, front.length < address →
      address < front.length + (byte :: middle).length → address ∉ labels)
    (hstop : back = [] ∨ front.length + (byte :: middle).length ∈ labels) :
    ∃ above full last below,
      (pageOf width labels (front ++ byte :: middle ++ back)).lines =
        above ++ full.map .data ++ .data last :: below ∧
      above.flatMap (·.bytes) = front ∧ full.flatten ++ last = byte :: middle ∧
      Wrapped width full last := by
  have hopens : (pageOf width labels front).Opens width labels front.length := by
    rcases hstart with rfl | hmem
    · exact .inl rfl
    · exact .inr (.inr hmem)
  have hlater : ∀ next, front.length + 1 ≤ next → next < front.length + 1 + middle.length →
      next ∉ labels := by
    intro next hle hlt
    refine hplain next hle ?_
    rw [List.length_cons]
    omega
  obtain ⟨full, last, hfill, hbytes, hwrapped⟩ := Page.exists_wrapped_fill
    ((pageOf width labels front).lines ++ heading labels front.length) hlater
    (.single_byte width byte)
  have hpage : pageOf width labels (front ++ byte :: middle) =
      ⟨(pageOf width labels front).lines ++ heading labels front.length ++ full.map .data,
        last⟩ := by
    rw [pageOf_append, Page.fill, Page.add_of_opens hopens, ← hfill, List.map_nil, List.append_nil]
  obtain ⟨below, hlines⟩ := Page.exists_lines_fill_of_label width hstop
    (pageOf width labels (front ++ byte :: middle))
  refine ⟨(pageOf width labels front).lines ++ heading labels front.length, full, last, below,
    ?_, ?_, hbytes, hwrapped⟩
  · rw [pageOf_append, List.length_append, hlines, hpage, Page.lines_of_row hwrapped.last_ne_nil,
      List.append_assoc, List.singleton_append]
  · rw [List.flatMap_append, bytes_pageOf, bytes_heading, List.append_nil]

theorem faithful_pageOf (bytes : List UInt8) :
    Faithful bytes width labels (pageOf width labels bytes).lines where
  bytes_eq := bytes_pageOf bytes
  comments_eq := comments_pageOf bytes
  comment_above := by
    intro address label haddress hlabel
    have hlength : (bytes.take address).length = address := List.length_take_of_le (by omega)
    have hsplit : bytes.take address ++ bytes[address] :: bytes.drop (address + 1) = bytes := by
      rw [← List.drop_eq_getElem_cons haddress, List.take_append_drop]
    -- the page of the bytes in front is what stands above the comment
    rw [← hlength] at hlabel
    obtain ⟨row, below, hlines⟩ := comment_above_pageOf width hlabel
    rw [hsplit, hlength] at hlines
    refine ⟨_, _, below, hlines, bytes_pageOf _, ?_⟩
    rw [List.head?_cons, List.getElem?_eq_getElem haddress]
  wrapped := by
    intro start stop hstretch
    obtain ⟨hlt, hle, hopens, hcloses, hplain⟩ := hstretch
    have hfront : (bytes.take start).length = start := List.length_take_of_le (by omega)
    have hlength : ((bytes.take stop).drop start).length = stop - start := by
      rw [List.length_drop, List.length_take_of_le hle]
    obtain ⟨byte, middle, hmiddle⟩ : ∃ byte middle, (bytes.take stop).drop start = byte :: middle :=
      List.exists_cons_of_ne_nil (List.length_pos_iff.mp (by omega))
    have hsplit : bytes.take start ++ byte :: middle ++ bytes.drop stop = bytes := by
      have htake : bytes.take start = (bytes.take stop).take start := by
        rw [List.take_take, Nat.min_eq_left (by omega)]
      rw [htake, ← hmiddle, List.take_append_drop, List.take_append_drop]
    have hend : (bytes.take start).length + (byte :: middle).length = stop := by
      rw [hfront, ← hmiddle, hlength]
      omega
    have hstart : bytes.take start = [] ∨ (bytes.take start).length ∈ labels := by
      rw [hfront]
      refine hopens.imp_left fun hzero => ?_
      rw [hzero, List.take_zero]
    have hstop : bytes.drop stop = [] ∨
        (bytes.take start).length + (byte :: middle).length ∈ labels := by
      rw [hend]
      refine hcloses.imp_left fun hsize => ?_
      rw [hsize, List.drop_length]
    have hwrapped := wrapped_pageOf width hstart (by rwa [hend, hfront]) hstop
    rwa [hsplit, ← hmiddle] at hwrapped

/-- The listing of no bytes is a blank line. -/
theorem faithful_blank (width : Nat) (labels : Labels) : Faithful [] width labels [.blank] where
  bytes_eq := rfl
  comments_eq := rfl
  comment_above := fun _ _ haddress => absurd haddress (Nat.not_lt_zero _)
  wrapped := fun _ _ hstretch =>
    absurd (Nat.lt_of_lt_of_le hstretch.lt hstretch.le) (Nat.not_lt_zero _)

end PageOf

/-- A listing of some bytes is read as the page of the bytes. -/
theorem readListing?_listing {bytes : List UInt8} (hbytes : bytes ≠ []) (width : Nat)
    {labels : Labels} (hlabels : SingleLines labels) :
    readListing? (listing bytes width labels) = some (pageOf width labels bytes).lines := by
  have hrow : (pageOf width labels bytes).row ≠ [] := Page.row_fill_ne_nil (.inr hbytes)
  have hlines := Page.lines_of_row hrow
  have hlegible : ∀ line ∈ (pageOf width labels bytes).lines, line.Legible :=
    Page.legible_fill hlabels bytes fun _ hline => absurd hline List.not_mem_nil
  have habove : ∀ line ∈ (pageOf width labels bytes).above, line.Legible := by
    rw [hlines] at hlegible
    exact fun line hline => hlegible line (List.mem_append_left _ hline)
  rw [hlines]
  exact readListing?_of_toList (toList_listing bytes width labels) habove hrow

/-- **Listings are faithful.**  For all bytes, every width and all labels without line feeds: every
line of the listing can be read, and what is read shows the bytes in rows and the labels as comments
right above their bytes. -/
theorem listing_faithful (bytes : List UInt8) (width : Nat) (labels : Labels)
    (hlabels : SingleLines labels) :
    ∃ page, readListing? (listing bytes width labels) = some page ∧
      Faithful bytes width labels page := by
  -- a page without bytes has no line, but a text without letters has one
  by_cases hbytes : bytes = []
  · subst hbytes
    exact ⟨[.blank], rfl, faithful_blank width labels⟩
  · exact ⟨_, readListing?_listing hbytes width hlabels, faithful_pageOf bytes⟩

/-- Labels for the first byte and for the fourth. -/
def twoLabels : Labels := ((∅ : Labels).insert 0 "Header").insert 3 "Bank"

theorem singleLines_twoLabels : SingleLines twoLabels := by
  intro address label hlabel
  simp only [twoLabels, Std.TreeMap.getElem?_insert, Std.TreeMap.getElem?_emptyc] at hlabel
  split_ifs at hlabel
  · cases hlabel
    decide
  · cases hlabel
    decide

/-- Six bytes, two on a line, the line of the third being cut short by the comment at the fourth. -/
theorem listing_faithful_twoLabels :
    ∃ page, readListing? (listing [1, 2, 3, 4, 5, 6] 2 twoLabels) = some page ∧
      Faithful [1, 2, 3, 4, 5, 6] 2 twoLabels page ∧
      page = [.blank, .comment 0 "Header", .blank, .data [1, 2], .data [3],
        .blank, .comment 3 "Bank", .blank, .data [4, 5], .data [6]] := by
  obtain ⟨page, hread, hfaithful⟩ :=
    listing_faithful [1, 2, 3, 4, 5, 6] 2 twoLabels singleLines_twoLabels
  refine ⟨page, hread, hfaithful, Option.some.inj (hread.symm.trans ?_)⟩
  decide +kernel

end SpeechRom.Rom
