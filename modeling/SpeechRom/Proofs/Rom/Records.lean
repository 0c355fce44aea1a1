import Mathlib.Data.List.Infix
import SpeechRom.Proofs.Attempt
import SpeechRom.Rom.Image
import SpeechRom.Rom.Reader

/-!
# Reading a record back

An image *holds* a row of bytes at an offset when the bytes stand there, all of
them.  A reader finds a record at an address exactly when the image holds the
bytes that writing the record gives (`record_eq_ok_iff`), so every bound that the
reader checks is already part of what it means to hold something.
-/

namespace SpeechRom.Rom

/-! ## Bytes at an offset -/

/-- The bytes of `piece` stand in `bytes` from the offset on. -/
def HoldsAt (bytes : List UInt8) (offset : Nat) (piece : List UInt8) : Prop :=
  piece <+: bytes.drop offset

section HoldsAt

variable {bytes piece : List UInt8} {offset : Nat}

theorem holdsAt_append_left (before rest : List UInt8) :
    HoldsAt (before ++ piece ++ rest) before.length piece := by
  rw [HoldsAt, List.append_assoc, List.drop_left]
  exact List.prefix_append piece rest

theorem holdsAt_append {lower upper : List UInt8} :
    HoldsAt bytes offset (lower ++ upper) ↔
      HoldsAt bytes offset lower ∧ HoldsAt bytes (offset + lower.length) upper := by
  unfold HoldsAt
  rw [← List.drop_drop]
  constructor
  · rintro ⟨rest, hrest⟩
    rw [← hrest, List.append_assoc, List.drop_left]
    exact ⟨List.prefix_append _ _, List.prefix_append _ _⟩
  · rintro ⟨⟨rest, hrest⟩, hupper⟩
    rw [← hrest, List.drop_left] at hupper
    rw [← hrest]
    exact (List.prefix_append_right_inj lower).mpr hupper

theorem holdsAt_cons {byte : UInt8} {rest : List UInt8} :
    HoldsAt bytes offset (byte :: rest) ↔
      bytes[offset]? = some byte ∧ HoldsAt bytes (offset + 1) rest := by
  rw [show byte :: rest = [byte] ++ rest from rfl, holdsAt_append]
  have hhead : HoldsAt bytes offset [byte] ↔ bytes[offset]? = some byte := by
    rw [HoldsAt, List.singleton_prefix_iff_head?_eq_some, List.head?_drop]
  rw [hhead]
  rfl

theorem HoldsAt.take_drop_eq (hholds : HoldsAt bytes offset piece) :
    (bytes.drop offset).take piece.length = piece :=
  (List.prefix_iff_eq_take.mp hholds).symm

/-- What an image holds ends within the image. -/
theorem HoldsAt.end_le (hholds : HoldsAt bytes offset piece) (hpiece : piece ≠ []) :
    offset + piece.length ≤ bytes.length := by
  have hlength : piece.length ≤ bytes.length - offset := by
    rw [← List.length_drop]
    exact List.IsPrefix.length_le hholds
  have hpos : 0 < piece.length := List.length_pos_iff.mpr hpiece
  omega

end HoldsAt

/-! ## Addresses -/

theorem pointerAt_eq_iff {image : Array UInt8} {position : Nat}
    (hin : position + 1 < image.size) {pointer : UInt16} :
    pointerAt image position hin = pointer ↔
      HoldsAt image.toList position (pointerBytes pointer) := by
  have hlow : image.toList[position]? = some image[position] := by simp
  have hhigh : image.toList[position + 1]? = some image[position + 1] := by simp
  have hlowLt := image[position].toNat_lt
  have hhighLt := image[position + 1].toNat_lt
  have hpointerLt := pointer.toNat_lt
  rw [pointerBytes, holdsAt_cons, holdsAt_cons, hlow, hhigh, pointerAt]
  constructor
  · rintro rfl
    refine ⟨?_, ?_, List.nil_prefix⟩
    · rw [Option.some_inj, ← UInt8.toNat_inj, UInt16.toNat_ofNat', UInt8.toNat_ofNat']
      omega
    · rw [Option.some_inj, ← UInt8.toNat_inj, UInt16.toNat_ofNat', UInt8.toNat_ofNat']
      omega
  · rintro ⟨hfirst, hsecond, _⟩
    rw [Option.some_inj, ← UInt8.toNat_inj, UInt8.toNat_ofNat'] at hfirst hsecond
    rw [← UInt16.toNat_inj, UInt16.toNat_ofNat']
    omega

/-- A row of addresses stands at an offset when each address stands at its own. -/
theorem holdsAt_pointers_iff {bytes : List UInt8} {offset : Nat} {pointers : List UInt16} :
    HoldsAt bytes offset (pointers.flatMap pointerBytes) ↔
      ∀ (i : Nat) (hi : i < pointers.length),
        HoldsAt bytes (offset + i * pointerSize) (pointerBytes pointers[i]) := by
  induction pointers generalizing offset with
  | nil => simp [HoldsAt]
  | cons pointer rest ih =>
      rw [List.flatMap_cons, holdsAt_append, ih, length_pointerBytes]
      have hstep : ∀ i,
          offset + pointerSize + i * pointerSize = offset + (i + 1) * pointerSize := by
        intro i
        rw [Nat.succ_mul]
        omega
      constructor
      · rintro ⟨hfirst, hrest⟩ i hi
        cases i with
        | zero => simpa using hfirst
        | succ i =>
            rw [← hstep]
            exact hrest i (Nat.lt_of_succ_lt_succ hi)
      · intro hall
        refine ⟨by simpa using hall 0 (Nat.zero_lt_succ _), fun i hi => ?_⟩
        rw [hstep]
        exact hall (i + 1) (Nat.succ_lt_succ hi)

/-! ## Records -/

namespace Reader

variable {reader : Reader} {kind : RecordKind} {offset : UInt16}

/-- The image of a reader holds a counted record of addresses. -/
structure HasRecord (reader : Reader) (offset : Nat) (pointers : List UInt16) : Prop where
  length_le : pointers.length ≤ countLimit
  holds : HoldsAt reader.image.toList offset (recordBytes pointers)

theorem HasRecord.end_le {pointers : List UInt16} {offset : Nat}
    (hrecord : reader.HasRecord offset pointers) :
    offset + phraseRecordSize pointers.length ≤ reader.image.size := by
  have hend := hrecord.holds.end_le (List.cons_ne_nil _ _)
  rwa [length_recordBytes, Array.length_toList] at hend

/-- **A record is read exactly where it is written.** -/
theorem record_eq_ok_iff {pointers : List UInt16} :
    reader.record kind offset = .ok pointers ↔ reader.HasRecord offset.toNat pointers := by
  constructor
  · intro hread
    unfold record at hread
    split at hread
    · rename_i hcount
      dsimp only at hread
      split at hread
      · cases hread
        have hlt := reader.image[offset.toNat].toNat_lt
        refine ⟨?_, ?_⟩
        · rw [List.length_ofFn, countLimit]
          omega
        · rw [recordBytes, holdsAt_cons, holdsAt_pointers_iff]
          refine ⟨by simp [hcount], fun i hi => ?_⟩
          rw [← pointerAt_eq_iff, List.getElem_ofFn]
      · cases hread
    · cases hread
  · intro hrecord
    -- what is held ends within the image, so both of the reader's tests pass
    have hend := hrecord.end_le
    obtain ⟨hlength, hholds⟩ := hrecord
    rw [recordBytes, holdsAt_cons, holdsAt_pointers_iff] at hholds
    obtain ⟨hcount, hpointers⟩ := hholds
    have hlt : offset.toNat < reader.image.size := by
      rw [phraseRecordSize] at hend
      omega
    have hbyte : reader.image[offset.toNat].toNat = pointers.length := by
      rw [Array.getElem?_toList, Array.getElem?_eq_getElem hlt, Option.some_inj] at hcount
      rw [hcount, UInt8.toNat_ofNat']
      exact Nat.mod_eq_of_lt (Nat.lt_succ_of_le hlength)
    have hfits : offset.toNat + 1 + reader.image[offset.toNat].toNat * pointerSize ≤
        reader.image.size := by
      rw [hbyte, Nat.add_assoc]
      exact hend
    rw [record, dif_pos hlt]
    dsimp only
    rw [dif_pos hfits]
    refine congrArg Except.ok (List.ext_getElem ?_ fun i hleft hright => ?_)
    · rw [List.length_ofFn, hbyte]
    · rw [List.getElem_ofFn, pointerAt_eq_iff]
      exact hpointers i hright

theorem readBank_eq_ok_iff {bank : BankRecord} :
    reader.readBank offset = .ok bank ↔
      bank.offset = offset ∧ reader.HasRecord offset.toNat bank.phrases := by
  rw [readBank, bind_eq_ok_iff]
  constructor
  · rintro ⟨pointers, hpointers, hrest⟩
    split at hrest
    · cases hrest
      exact ⟨rfl, record_eq_ok_iff.mp hpointers⟩
    · cases hrest
  · rintro ⟨rfl, hrecord⟩
    refine ⟨bank.phrases, record_eq_ok_iff.mpr hrecord, ?_⟩
    rw [dif_pos bank.populated]
    rfl

theorem readPhrase_eq_ok_iff {phrase : PhraseRecord} :
    reader.readPhrase offset = .ok phrase ↔
      phrase.offset = offset ∧ reader.HasRecord offset.toNat phrase.tokens := by
  rw [readPhrase, bind_eq_ok_iff]
  constructor
  · rintro ⟨pointers, hpointers, hrest⟩
    cases hrest
    exact ⟨rfl, record_eq_ok_iff.mp hpointers⟩
  · rintro ⟨rfl, hrecord⟩
    exact ⟨phrase.tokens, record_eq_ok_iff.mpr hrecord, rfl⟩

/-- A pointer that a player can follow: behind the header and within the image. -/
def Follows (reader : Reader) (pointer : UInt16) : Prop :=
  headerSize ≤ pointer.toNat ∧ pointer.toNat < reader.image.size

theorem target_eq_ok_iff {pointer : UInt16} {target : Target} :
    reader.target pointer = .ok target ↔
      reader.Follows pointer ∧ target = reader.targetOf pointer := by
  unfold Reader.target Follows
  by_cases hheader : pointer.toNat < headerSize
  · simp [hheader, Nat.not_le_of_lt hheader]
  · by_cases himage : pointer.toNat < reader.image.size
    · simp [hheader, himage, Nat.le_of_not_lt hheader, eq_comm]
    · simp [hheader, himage]

/-! ## The header -/

/-- **An image opens as the reader that its header describes**, and the header must make sense. -/
theorem open?_eq_ok_iff {bytes : List UInt8} :
    open? bytes = .ok reader ↔ reader.image = bytes.toArray ∧
      HoldsAt bytes 0 (pointerBytes reader.speechStart ++ pointerBytes reader.primary) := by
  rw [holdsAt_append, length_pointerBytes]
  constructor
  · intro hopen
    unfold open? at hopen
    dsimp only at hopen
    split at hopen
    · split at hopen
      · split at hopen
        · cases hopen
          exact ⟨rfl, (pointerAt_eq_iff _).mp rfl, (pointerAt_eq_iff _).mp rfl⟩
        · cases hopen
      · cases hopen
    · cases hopen
  · rintro ⟨himage, hstart, hprimary⟩
    obtain ⟨image, speechStart, primary, hlow, hhigh, hafter, hbefore⟩ := reader
    subst himage
    have hsize : headerSize ≤ bytes.toArray.size := Nat.le_trans hlow hhigh
    have hstartAt : pointerAt bytes.toArray 0 (Nat.lt_of_lt_of_le (by decide) hsize) =
        speechStart := (pointerAt_eq_iff _).mpr hstart
    have hprimaryAt : pointerAt bytes.toArray 2 (Nat.lt_of_lt_of_le (by decide) hsize) =
        primary := (pointerAt_eq_iff _).mpr hprimary
    unfold open?
    simp only [hsize, hstartAt, hprimaryAt, hlow, hhigh, hafter, hbefore, and_self, dite_true]

end Reader

end SpeechRom.Rom
