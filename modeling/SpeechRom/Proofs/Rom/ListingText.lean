import Mathlib.Data.List.Basic
import SpeechRom.Proofs.Text.Tokens
import SpeechRom.Rom.Listing

/-!
# The letters of a listing

A listing is read line by line (`readListing?`): blank lines, comments with an address, low byte
first, and rows of bytes.  `ListingLine.text` is how such a line is written, and what is written
that way is read back (`readListing?_of_toList`).
-/

namespace SpeechRom.Rom

/-! ## Reading -/

/-- The value of a hexadecimal digit, letters being capitals. -/
def digitValue? (c : Char) : Option Nat := "0123456789ABCDEF".toList.idxOf? c

/-- The byte with the two digits. -/
def readByte? (high low : Char) : Option UInt8 := do
  let high ← digitValue? high
  let low ← digitValue? low
  return UInt8.ofNat (16 * high + low)

/-- What is on a line of a listing. -/
inductive ListingLine where
  | blank
  | comment (address : Nat) (text : String)
  | data (row : List UInt8)
  deriving DecidableEq

/-- The bytes of a row, each two parted by a comma and a space; the same may stand at the end. -/
def readRow? : List Char → Option (List UInt8)
  | [] => some []
  | '0' :: 'x' :: high :: low :: rest => do
      let byte ← readByte? high low
      match rest with
      | [] => return [byte]
      | ',' :: ' ' :: more => return byte :: (← readRow? more)
      | _ => none
  | _ => none

/-- A comment: two bytes that make an address, the low one first, and a text. -/
def readComment? (line : List Char) : Option ListingLine := do
  let low₁ :: low₀ :: line ← "// Address: 0x".toList.isPrefixOf? line | none
  let high₁ :: high₀ :: line ← ", 0x".toList.isPrefixOf? line | none
  let text ← " - ".toList.isPrefixOf? line
  let low ← readByte? low₁ low₀
  let high ← readByte? high₁ high₀
  return .comment (low.toNat + 256 * high.toNat) (String.ofList text)

def readLine? : List Char → Option ListingLine
  | [] => some .blank
  | '/' :: rest => readComment? ('/' :: rest)
  | line => (readRow? line).map .data

/-- All lines of a listing. -/
def readListing? (text : String) : Option (List ListingLine) :=
  (Text.lines text.toList).mapM readLine?

/-! ## Bytes in digits -/

/-- The capital digit of a number below sixteen. -/
def upperDigit (n : Nat) : Char := (Nat.digitChar n).toUpper

theorem digitValue?_upperDigit : ∀ n < 16, digitValue? (upperDigit n) = some n := by decide

theorem upperDigit_ne_lineFeed : ∀ n < 16, upperDigit n ≠ '\n' := by decide

theorem toList_hexUpper_two {n : Nat} (hn : n < 256) :
    (Text.hexUpper 2 n).toList = [upperDigit (n / 16), upperDigit (n % 16)] := by
  unfold Text.hexUpper
  rw [String.toList_ofList, Nat.toDigits_eq_if (by decide)]
  split
  · rename_i hlt
    rw [Nat.div_eq_of_lt hlt, Nat.mod_eq_of_lt hlt]
    rfl
  · rw [Nat.toDigits_of_lt_base (by omega)]
    rfl

theorem readByte?_upperDigit {n : Nat} (hn : n < 256) :
    readByte? (upperDigit (n / 16)) (upperDigit (n % 16)) = some (UInt8.ofNat n) := by
  have hhigh := digitValue?_upperDigit (n / 16) (by omega)
  have hlow := digitValue?_upperDigit (n % 16) (by omega)
  have hsum : 16 * (n / 16) + n % 16 = n := Nat.div_add_mod n 16
  simp only [readByte?, hhigh, hlow, hsum, Option.bind_eq_bind, Option.bind_some, Option.pure_def]

theorem lineFeed_not_mem_hexUpper {n : Nat} (hn : n < 256) :
    '\n' ∉ (Text.hexUpper 2 n).toList := by
  have hhigh := upperDigit_ne_lineFeed (n / 16) (by omega)
  have hlow := upperDigit_ne_lineFeed (n % 16) (by omega)
  rw [toList_hexUpper_two hn]
  simp [hhigh.symm, hlow.symm]

/-! ## Rows and lines in letters -/

/-- A byte as it is written, and as it is read. -/
theorem exists_toList_byteText (byte : UInt8) :
    ∃ high low, (byteText byte).toList = ['0', 'x', high, low] ∧
      readByte? high low = some byte ∧ '\n' ∉ (byteText byte).toList := by
  have hlt := byte.toNat_lt
  have htext : (byteText byte).toList = "0x".toList ++ (Text.hexUpper 2 byte.toNat).toList :=
    String.toList_append
  have hmarker : '\n' ∉ "0x".toList := by decide
  refine ⟨upperDigit (byte.toNat / 16), upperDigit (byte.toNat % 16), ?_, ?_, ?_⟩
  · rw [htext, toList_hexUpper_two hlt]
    rfl
  · rw [readByte?_upperDigit hlt, UInt8.ofNat_toNat]
  · rw [htext, List.mem_append, not_or]
    exact ⟨hmarker, lineFeed_not_mem_hexUpper hlt⟩

/-- The bytes of a row with a comma and a space between. -/
def rowText (row : List UInt8) : List Char :=
  [',', ' '].intercalate (row.map fun byte => (byteText byte).toList)

theorem rowText_singleton (byte : UInt8) : rowText [byte] = (byteText byte).toList := by
  simp [rowText]

theorem rowText_cons_cons (byte next : UInt8) (row : List UInt8) :
    rowText (byte :: next :: row) =
      (byteText byte).toList ++ [',', ' '] ++ rowText (next :: row) :=
  List.intercalate_cons_cons

theorem rowText_concat {row : List UInt8} (hrow : row ≠ []) (byte : UInt8) :
    rowText (row ++ [byte]) = rowText row ++ [',', ' '] ++ (byteText byte).toList := by
  induction row with
  | nil => exact absurd rfl hrow
  | cons first rest ih =>
      cases rest with
      | nil => rw [List.singleton_append, rowText_cons_cons, rowText_singleton, rowText_singleton]
      | cons next rest =>
          rw [List.cons_append, List.cons_append, rowText_cons_cons, rowText_cons_cons,
            ← List.cons_append, ih (List.cons_ne_nil _ _)]
          simp only [List.append_assoc]

theorem lineFeed_not_mem_rowText (row : List UInt8) : '\n' ∉ rowText row := by
  induction row with
  | nil => exact List.not_mem_nil
  | cons first rest ih =>
      obtain ⟨_, _, _, _, hfirst⟩ := exists_toList_byteText first
      cases rest with
      | nil => rwa [rowText_singleton]
      | cons next rest =>
          rw [rowText_cons_cons]
          simp [hfirst, ih]

/-- A row is read back, be it the last one or not. -/
theorem readRow?_rowText {row : List UInt8} (hrow : row ≠ []) :
    readRow? (rowText row) = some row ∧ readRow? (rowText row ++ [',', ' ']) = some row := by
  induction row with
  | nil => exact absurd rfl hrow
  | cons first rest ih =>
      obtain ⟨high, low, htext, hread, _⟩ := exists_toList_byteText first
      cases rest with
      | nil =>
          rw [rowText_singleton, htext]
          simp [readRow?, hread]
      | cons next rest =>
          obtain ⟨hlast, hfull⟩ := ih (List.cons_ne_nil _ _)
          rw [rowText_cons_cons, htext]
          simp [readRow?, hread, hlast, hfull]

/-- A row is neither blank nor a comment. -/
theorem readLine?_row {row : List UInt8} {more : List Char} (hrow : row ≠ [])
    (hread : readRow? (rowText row ++ more) = some row) :
    readLine? (rowText row ++ more) = some (.data row) := by
  cases row with
  | nil => exact absurd rfl hrow
  | cons first rest =>
      obtain ⟨high, low, htext, _⟩ := exists_toList_byteText first
      obtain ⟨tail, htail⟩ : ∃ tail, rowText (first :: rest) ++ more = '0' :: tail := by
        cases rest with
        | nil => exact ⟨_, by rw [rowText_singleton, htext]; rfl⟩
        | cons next rest => exact ⟨_, by rw [rowText_cons_cons, htext]; rfl⟩
      rw [htail] at hread ⊢
      simp [readLine?, hread]

namespace ListingLine

/-- A line as it is written, with more bytes to come. -/
def text : ListingLine → List Char
  | blank => []
  | comment address text => "// Address: 0x".toList ++
      ((Text.hexUpper 2 (address % 256)).toList ++ (", 0x".toList ++
        ((Text.hexUpper 2 (address / 256)).toList ++ (" - ".toList ++ text.toList))))
  | data row => rowText row ++ [',', ' ']

theorem text_blank : blank.text = [] := rfl

theorem text_comment (address : Nat) (text : String) :
    (comment address text).text = "// Address: 0x".toList ++
      ((Text.hexUpper 2 (address % 256)).toList ++ (", 0x".toList ++
        ((Text.hexUpper 2 (address / 256)).toList ++ (" - ".toList ++ text.toList)))) := rfl

theorem text_data (row : List UInt8) : (data row).text = rowText row ++ [',', ' '] := rfl

/-- An address has two bytes, a text is on one line, and a row is not empty. -/
def Legible : ListingLine → Prop
  | blank => True
  | comment address text => address < 65536 ∧ '\n' ∉ text.toList
  | data row => row ≠ []

theorem readComment?_text {address : Nat} (haddress : address < 65536) (text : String) :
    readComment? (comment address text).text = some (comment address text) := by
  have hafter (mark rest : List Char) : mark.isPrefixOf? (mark ++ rest) = some rest :=
    List.isPrefixOf?_eq_some_iff_append_eq.mpr rfl
  have hlow : address % 256 < 256 := Nat.mod_lt _ (by decide)
  have hhigh : address / 256 < 256 := by omega
  have hvalue : (UInt8.ofNat (address % 256)).toNat +
      256 * (UInt8.ofNat (address / 256)).toNat = address := by
    rw [UInt8.toNat_ofNat_of_lt' hlow, UInt8.toNat_ofNat_of_lt' hhigh]
    omega
  unfold readComment?
  rw [text_comment, hafter, toList_hexUpper_two hlow, toList_hexUpper_two hhigh]
  simp only [Option.bind_eq_bind, Option.bind_some, List.cons_append, List.nil_append, hafter,
    readByte?_upperDigit hlow, readByte?_upperDigit hhigh, hvalue, Option.pure_def,
    String.ofList_toList]

/-- What is on a line is read back from it. -/
theorem Legible.readLine?_text {line : ListingLine} (hline : line.Legible) :
    readLine? line.text = some line := by
  cases line with
  | blank => rfl
  | comment address text => exact readComment?_text hline.1 text
  | data row => exact readLine?_row hline (readRow?_rowText hline).2

theorem Legible.lineFeed_not_mem_text {line : ListingLine} (hline : line.Legible) :
    '\n' ∉ line.text := by
  cases line with
  | blank => exact List.not_mem_nil
  | comment address text =>
      obtain ⟨haddress, htext⟩ := hline
      have hlow : address % 256 < 256 := Nat.mod_lt _ (by decide)
      have hhigh : address / 256 < 256 := by omega
      have hmarks : '\n' ∉ "// Address: 0x".toList ∧ '\n' ∉ ", 0x".toList ∧
          '\n' ∉ " - ".toList := by decide
      rw [text_comment]
      simp only [List.mem_append, not_or]
      exact ⟨hmarks.1, lineFeed_not_mem_hexUpper hlow, hmarks.2.1, lineFeed_not_mem_hexUpper hhigh,
        hmarks.2.2, htext⟩
  | data row =>
      have hends : '\n' ∉ [',', ' '] := by decide
      rw [text_data, List.mem_append, not_or]
      exact ⟨lineFeed_not_mem_rowText row, hends⟩

end ListingLine

/-- Lines as they are written, each with its end. -/
def textAbove (lines : List ListingLine) : List Char :=
  lines.flatMap fun line => line.text ++ ['\n']

theorem textAbove_append (lines more : List ListingLine) :
    textAbove (lines ++ more) = textAbove lines ++ textAbove more := List.flatMap_append

theorem mapM_readLine?_text {lines : List ListingLine} (hlines : ∀ line ∈ lines, line.Legible) :
    (lines.map ListingLine.text).mapM readLine? = some lines := by
  induction lines with
  | nil => rfl
  | cons line rest ih =>
      obtain ⟨hline, hrest⟩ := List.forall_mem_cons.mp hlines
      rw [List.map_cons, List.mapM_cons, hline.readLine?_text, ih hrest]
      rfl

/-- Lines and a last row are read back from what is written of them. -/
theorem readListing?_of_toList {text : String} {above : List ListingLine} {row : List UInt8}
    (htext : text.toList = textAbove above ++ rowText row)
    (habove : ∀ line ∈ above, line.Legible) (hrow : row ≠ []) :
    readListing? text = some (above ++ [.data row]) := by
  have hlines : Text.lines text.toList = above.map ListingLine.text ++ [rowText row] := by
    have hsolid : ∀ line ∈ above.map ListingLine.text, '\n' ∉ line := by
      simp only [List.forall_mem_map]
      exact fun line hline => (habove line hline).lineFeed_not_mem_text
    rw [htext, ← Text.lines_flatMap_append hsolid (lineFeed_not_mem_rowText row), textAbove,
      List.flatMap_map]
  have hlast : readLine? (rowText row) = some (.data row) := by
    have hrow := readLine?_row hrow (by rw [List.append_nil]; exact (readRow?_rowText hrow).1)
    rwa [List.append_nil] at hrow
  rw [readListing?, hlines, List.mapM_append, mapM_readLine?_text habove]
  simp [hlast]

end SpeechRom.Rom
