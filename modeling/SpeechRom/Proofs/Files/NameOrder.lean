import Mathlib.Data.List.Basic
import Mathlib.Data.String.Basic
import SpeechRom.Proofs.Lists
import SpeechRom.Proofs.Pack.Spelling

/-!
# Orders of names

Files are sorted by their names, which are identifiers with an extension behind them.  The dot
between the two comes before all letters of identifiers, so a stem goes before the longer ones that
start with it, whatever the extension is: names stand in the order of their stems
(`append_lt_append_iff`).  As those letters are single bytes, it makes no difference whether texts
are compared by characters or by bytes (`byteLess_iff_lt`).
-/

namespace SpeechRom.Files

/-- The first text comes before the second one, byte by byte. -/
def ByteLess (first second : String) : Prop :=
  first.toUTF8.data.toList < second.toUTF8.data.toList

theorem ByteLess.ne {first second : String} (hless : ByteLess first second) : first ≠ second := by
  rintro rfl
  exact List.lt_irrefl _ hless

/-! ## Letters of identifiers -/

/-- The byte of a character that takes up one byte only. -/
def byteOf (c : Char) : UInt8 := c.val.toUInt8

/-- The letters stand between the underscore and the letter z. -/
theorem between_of_isNameLetter {c : Char} (hc : isNameLetter c = true) :
    95 ≤ c.toNat ∧ c.toNat ≤ 122 := by
  simp only [isNameLetter, Bool.or_eq_true, Bool.and_eq_true, decide_eq_true_eq, beq_iff_eq,
    Char.le_def, UInt32.le_iff_toNat_le] at hc
  rcases hc with ⟨hlow, hhigh⟩ | rfl
  · change 97 ≤ c.toNat at hlow
    change c.toNat ≤ 122 at hhigh
    omega
  · decide

theorem toNat_byteOf {c : Char} (hc : isNameLetter c = true) : (byteOf c).toNat = c.toNat := by
  rw [byteOf, UInt32.toNat_toUInt8]
  exact Nat.mod_eq_of_lt (Nat.lt_of_le_of_lt (between_of_isNameLetter hc).2 (by decide))

theorem utf8EncodeChar_of_isNameLetter {c : Char} (hc : isNameLetter c = true) :
    String.utf8EncodeChar c = [byteOf c] := by
  refine String.utf8EncodeChar_eq_singleton (Char.utf8Size_eq_one_iff.mpr ?_)
  rw [UInt32.le_iff_toNat_le]
  exact Nat.le_trans (between_of_isNameLetter hc).2 (by decide)

theorem byteOf_lt_byteOf_iff {c d : Char} (hc : isNameLetter c = true)
    (hd : isNameLetter d = true) : byteOf c < byteOf d ↔ c < d := by
  rw [UInt8.lt_iff_toNat_lt, toNat_byteOf hc, toNat_byteOf hd]
  exact Iff.rfl

theorem byteOf_eq_byteOf_iff {c d : Char} (hc : isNameLetter c = true)
    (hd : isNameLetter d = true) : byteOf c = byteOf d ↔ c = d := by
  rw [← UInt8.toNat_inj, toNat_byteOf hc, toNat_byteOf hd]
  exact Char.toNat_inj

theorem dot_lt_byteOf {c : Char} (hc : isNameLetter c = true) : byteOf '.' < byteOf c := by
  rw [UInt8.lt_iff_toNat_lt, toNat_byteOf hc]
  exact Nat.lt_of_lt_of_le (by decide) (between_of_isNameLetter hc).1

theorem dot_lt_letter {c : Char} (hc : isNameLetter c = true) : '.' < c :=
  Nat.lt_of_lt_of_le (by decide) (between_of_isNameLetter hc).1

theorem bytes_of_identifier {text : String} (htext : Identifier text.toList) :
    text.toUTF8.data.toList = text.toList.map byteOf := by
  have hletters : ∀ c ∈ text.toList, String.utf8EncodeChar c = [byteOf c] := fun c hc =>
    utf8EncodeChar_of_isNameLetter (isNameLetter_of_mem htext hc)
  have hencoded : text.toUTF8 = text.toList.utf8Encode := by
    rw [String.toUTF8_eq_toByteArray, ← String.toByteArray_ofList, String.ofList_toList]
  rw [hencoded, List.utf8Encode, List.data_toByteArray, List.map_eq_flatMap]
  exact List.flatMap_congr hletters

/-! ## Names by their stems -/

variable {first second : String}

/-- Identifiers are in the same order by characters and by bytes. -/
theorem byteLess_iff_lt (hfirst : Identifier first.toList)
    (hsecond : Identifier second.toList) : ByteLess first second ↔ first < second := by
  rw [ByteLess, bytes_of_identifier hfirst, bytes_of_identifier hsecond, String.lt_iff_toList_lt]
  refine map_lt_map_iff fun c hc d hd => ?_
  have hcletter := isNameLetter_of_mem hfirst hc
  have hdletter := isNameLetter_of_mem hsecond hd
  exact ⟨byteOf_lt_byteOf_iff hcletter hdletter, byteOf_eq_byteOf_iff hcletter hdletter⟩

/-- Names are in the order of their stems, whatever the extension. -/
theorem name_lt_name_iff (extension : String) (hfirst : Identifier first.toList)
    (hsecond : Identifier second.toList) :
    first ++ "." ++ extension < second ++ "." ++ extension ↔ first < second := by
  have hletters (stem : String) :
      (stem ++ "." ++ extension).toList = stem.toList ++ '.' :: extension.toList := by
    rw [String.toList_append, String.toList_append, List.append_assoc]
    rfl
  rw [String.lt_iff_toList_lt, String.lt_iff_toList_lt, hletters, hletters]
  exact append_lt_append_iff _ (fun c hc => dot_lt_letter (isNameLetter_of_mem hfirst hc))
    fun c hc => dot_lt_letter (isNameLetter_of_mem hsecond hc)

/-- Names are in the order of their stems byte by byte, whatever the extension. -/
theorem byteLess_name_iff (extension : String) (hfirst : Identifier first.toList)
    (hsecond : Identifier second.toList) :
    ByteLess (first ++ "." ++ extension) (second ++ "." ++ extension) ↔ ByteLess first second := by
  have hbytes (stem : String) : (stem ++ "." ++ extension).toUTF8.data.toList =
      stem.toUTF8.data.toList ++ byteOf '.' :: extension.toUTF8.data.toList := by
    simp only [String.toUTF8_eq_toByteArray, String.toByteArray_append, ByteArray.data_append,
      Array.toList_append, List.append_assoc]
    rfl
  have hdot {stem : String} (hstem : Identifier stem.toList) :
      ∀ byte ∈ stem.toUTF8.data.toList, byteOf '.' < byte := by
    rw [bytes_of_identifier hstem]
    intro byte hbyte
    obtain ⟨c, hc, rfl⟩ := List.mem_map.mp hbyte
    exact dot_lt_byteOf (isNameLetter_of_mem hstem hc)
  rw [ByteLess, ByteLess, hbytes, hbytes]
  exact append_lt_append_iff _ (hdot hfirst) (hdot hsecond)

end SpeechRom.Files
