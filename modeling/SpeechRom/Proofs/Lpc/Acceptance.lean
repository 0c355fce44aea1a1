import Mathlib.Algebra.GroupWithZero.Nat
import Mathlib.Data.Fintype.Card
import Mathlib.Order.WellFounded
import SpeechRom.Proofs.Faults
import SpeechRom.Proofs.Lpc.Listening

/-!
# Which frames can be written, and how long they are

The energy of a frame takes 4 bits and must not be the stop code, its pitch takes 6, and its
coefficients take 5, 5, 4, 4, 4, 4, 4, 3, 3 and 3.  Which of these are looked at depends on the
frame: a silent one has its energy only, a repeated one has no coefficients, and one without pitch
has four of them.  What is not looked at may be anything.

`Frame.Refused` says which frames cannot be written and in which words they are refused, and
`encodeFrames_accepts_exactly` that the first such frame decides, closing ones apart, and that
without one the data has the length of what is written, up to the next byte.

## Strategy

A row of steps is decided by its first fault (`Decided`), and the fault of a frame is that of its
first field that does not fit.  `Frame.fault?_eq` finds it by comparing numbers; the words of the
refusal and the fields that do not matter are both read off from there.
-/

namespace SpeechRom.Lpc

/-! ## Frames that are refused -/

/-- The words for a number with more bits than its field. -/
def tooWideText (name : String) (value : UInt8) (width : Nat) : String :=
  s!"{name} value {value.toNat} does not fit in {width} bits"

namespace Frame

/-- The number of coefficients that are looked at, if any are. -/
def coefficientCount (frame : Frame) : Nat := if frame.pitch.toNat = 0 then 4 else 10

/-- The bits of a coefficient. -/
def coefficientWidth (i : Fin 10) : Nat := #v[5, 5, 4, 4, 4, 4, 4, 3, 3, 3][i]

/-- A coefficient has no more bits than are written of it. -/
def CoefficientFits (frame : Frame) (i : Fin 10) : Prop :=
  frame.coefficients[i].toNat < 1 <<< coefficientWidth i

/-- There is more to the frame than silence, and its energy is in range. -/
def Sounding (frame : Frame) : Prop := 1 ≤ frame.energy.toNat ∧ frame.energy.toNat ≤ 14

/-- The coefficients of the frame are written. -/
structure Shaped (frame : Frame) : Prop where
  sounding : frame.Sounding
  pitch_lt : frame.pitch.toNat < 64
  fresh : frame.repeated = false

/-- Something that is written of the frame is out of range. -/
def OutOfRange (frame : Frame) : Prop :=
  15 ≤ frame.energy.toNat ∨ (frame.Sounding ∧ 64 ≤ frame.pitch.toNat) ∨
    (frame.Shaped ∧ ∃ i : Fin 10, i.val < frame.coefficientCount ∧ ¬ frame.CoefficientFits i)

instance (frame : Frame) (i : Fin 10) : Decidable (frame.CoefficientFits i) := Nat.decLt _ _

instance (frame : Frame) : Decidable frame.Sounding := instDecidableAnd

instance (frame : Frame) : Decidable frame.Shaped :=
  decidable_of_iff (frame.Sounding ∧ frame.pitch.toNat < 64 ∧ frame.repeated = false)
    ⟨fun ⟨hsounding, hpitch, hfresh⟩ => ⟨hsounding, hpitch, hfresh⟩,
      fun ⟨hsounding, hpitch, hfresh⟩ => ⟨hsounding, hpitch, hfresh⟩⟩

instance (frame : Frame) : Decidable frame.OutOfRange := instDecidableOr

/-- The words in which the frame is refused: those for the first number that is out of range. -/
inductive Refused (frame : Frame) : String → Prop
  | reserved (henergy : frame.energy.toNat = 15) :
      Refused frame "energy 15 is reserved for the stop frame"
  | energy (henergy : 16 ≤ frame.energy.toNat) : Refused frame (tooWideText "energy" frame.energy 4)
  | pitch (hsounding : frame.Sounding) (hpitch : 64 ≤ frame.pitch.toNat) :
      Refused frame (tooWideText "pitch" frame.pitch 6)
  | coefficient (hshaped : frame.Shaped) (i : Fin 10) (hwritten : i.val < frame.coefficientCount)
      (hfirst : ∀ j < i, frame.CoefficientFits j) (hwide : ¬ frame.CoefficientFits i) :
      Refused frame (tooWideText "k" frame.coefficients[i] (coefficientWidth i))

/-- The number of bits of the frame. -/
def bitCount (frame : Frame) : Nat :=
  if frame.energy.toNat = 0 then 4
  else if frame.repeated then 11
  else if frame.pitch.toNat = 0 then 29
  else 50

/-- The two frames agree in all that is looked at. -/
structure SameWritten (frame other : Frame) : Prop where
  energy : frame.energy = other.energy
  repeated : frame.Sounding → frame.repeated = other.repeated
  pitch : frame.Sounding → frame.pitch = other.pitch
  coefficients : frame.Shaped → ∀ i : Fin 10, i.val < frame.coefficientCount →
    frame.coefficients[i] = other.coefficients[i]

end Frame

/-! ## The first fault -/

/-- The fault of a field that does not fit. -/
def Field.fault? (field : Field) : Option FrameFault :=
  if field.Fits then none else some (.tooWide field)

theorem decided_fieldBits (field : Field) :
    Decided (· = bitsOf field.value.toNat field.width) field.fault? field.bits := by
  unfold Field.fault? Field.bits
  split
  · exact .ok rfl
  · exact .error _

/-- The fault of a frame: that of its first field that does not fit. -/
def Frame.fault? (frame : Frame) : Option FrameFault :=
  if frame.energy = stopEnergy then some .reservedEnergy
  else frame.fields.findSome? Field.fault?

theorem decided_frameBits (frame : Frame) :
    Decided (· = written frame.fields) frame.fault? frame.bits := by
  unfold Frame.fault? Frame.bits
  split
  · exact .error _
  · refine (Decided.mapM decided_fieldBits frame.fields).bind_ok fun rows hrows => ?_
    exact ⟨rows.flatten, rfl, by rw [hrows, written, List.flatMap_def]⟩

theorem decided_encodeFrames (frames : List Frame) :
    Decided (· = bytesOfBits ((frames.filter fun frame => !frame.last).flatMap
        (fun frame => written frame.fields) ++ stopBits))
      ((frames.filter fun frame => !frame.last).findSome? Frame.fault?) (encodeFrames frames) := by
  refine (Decided.mapM decided_frameBits _).bind_ok fun rows hrows => ?_
  exact ⟨_, rfl, by rw [hrows, List.flatMap_def]⟩

theorem fieldFault?_of_fits {field : Field} (hfits : field.Fits) : field.fault? = none :=
  if_pos hfits

theorem fieldFault?_of_not_fits {field : Field} (hfits : ¬ field.Fits) :
    field.fault? = some (.tooWide field) :=
  if_neg hfits

theorem Frame.coefficientCount_le (frame : Frame) : frame.coefficientCount ≤ 10 := by
  unfold Frame.coefficientCount
  split <;> omega

theorem length_coefficientFields (frame : Frame) : frame.coefficientFields.length = 10 := by
  rw [← List.length_map (·.width), map_width_coefficientFields]
  rfl

/-- The coefficients that are looked at. -/
def Frame.writtenCoefficients (frame : Frame) : List Field :=
  frame.coefficientFields.take frame.coefficientCount

theorem fields_of_silent {frame : Frame} (henergy : frame.energy.toNat = 0) :
    frame.fields = [⟨.energy, frame.energy, 4⟩] := by
  have hsilent : frame.energy = 0 := UInt8.toNat_inj.mp henergy
  rw [frame.fields_eq, if_pos hsilent]

theorem fields_of_not_silent {frame : Frame} (henergy : frame.energy.toNat ≠ 0) :
    frame.fields = ⟨.energy, frame.energy, 4⟩ :: ⟨.repeated, frame.repeated.toUInt8, 1⟩ ::
      ⟨.pitch, frame.pitch, 6⟩ :: if frame.repeated then [] else frame.writtenCoefficients := by
  have hsilent : frame.energy ≠ 0 := fun heq => henergy (congrArg UInt8.toNat heq)
  have hzero : frame.pitch = 0 ↔ frame.pitch.toNat = 0 := UInt8.toNat_inj.symm
  have hwritten : frame.writtenCoefficients =
      if frame.pitch = 0 then frame.coefficientFields.take 4 else frame.coefficientFields := by
    unfold Frame.writtenCoefficients Frame.coefficientCount
    simp only [hzero]
    split
    · rfl
    · exact List.take_of_length_le (Nat.le_of_eq (length_coefficientFields frame))
  rw [frame.fields_eq, if_neg hsilent, hwritten]

/-- The first fault of a frame, by its numbers. -/
theorem Frame.fault?_eq (frame : Frame) :
    frame.fault? =
      if frame.energy.toNat = 15 then some .reservedEnergy
      else if 16 ≤ frame.energy.toNat then some (.tooWide ⟨.energy, frame.energy, 4⟩)
      else if frame.energy.toNat = 0 then none
      else if 64 ≤ frame.pitch.toNat then some (.tooWide ⟨.pitch, frame.pitch, 6⟩)
      else if frame.repeated then none
      else frame.writtenCoefficients.findSome? Field.fault? := by
  have hstop : frame.energy = stopEnergy ↔ frame.energy.toNat = 15 := UInt8.toNat_inj.symm
  have henergy : Field.Fits ⟨.energy, frame.energy, 4⟩ ↔ frame.energy.toNat < 16 := Iff.rfl
  have hpitch : Field.Fits ⟨.pitch, frame.pitch, 6⟩ ↔ frame.pitch.toNat < 64 := Iff.rfl
  have hrepeated : Field.Fits ⟨.repeated, frame.repeated.toUInt8, 1⟩ := by
    cases frame.repeated <;> decide
  unfold Frame.fault?
  simp only [hstop]
  split
  · rfl
  by_cases hsilent : frame.energy.toNat = 0
  · rw [fields_of_silent hsilent, if_neg (by omega), if_pos hsilent, List.findSome?_cons,
      fieldFault?_of_fits (henergy.mpr (by omega)), List.findSome?_nil]
  rw [fields_of_not_silent hsilent, List.findSome?_cons, if_neg hsilent]
  by_cases hwide : 16 ≤ frame.energy.toNat
  · rw [if_pos hwide, fieldFault?_of_not_fits (mt henergy.mp (by omega))]
  rw [if_neg hwide, fieldFault?_of_fits (henergy.mpr (by omega)), List.findSome?_cons,
    fieldFault?_of_fits hrepeated, List.findSome?_cons]
  by_cases hhigh : 64 ≤ frame.pitch.toNat
  · rw [if_pos hhigh, fieldFault?_of_not_fits (mt hpitch.mp (by omega))]
  · rw [if_neg hhigh, fieldFault?_of_fits (hpitch.mpr (by omega))]
    dsimp only
    split <;> rfl

/-! ## Coefficients -/

theorem findSome?_fault?_eq_some_iff {fields : List Field} {fault : FrameFault} :
    fields.findSome? Field.fault? = some fault ↔
      ∃ i, ∃ h : i < fields.length, (∀ j, (hj : j < i) → fields[j].Fits) ∧ ¬ fields[i].Fits ∧
        fault = .tooWide fields[i] := by
  have hnone (field : Field) : field.fault? = none ↔ field.Fits := by
    unfold Field.fault?
    split <;> simp [*]
  have hsome (field : Field) : field.fault? = some fault ↔
      ¬ field.Fits ∧ fault = .tooWide field := by
    unfold Field.fault?
    split <;> simp [*, eq_comm]
  rw [List.findSome?_eq_some_iff]
  constructor
  · rintro ⟨before, field, after, rfl, hfield, hbefore⟩
    have hlt : before.length < (before ++ field :: after).length := by simp
    have hat : (before ++ field :: after)[before.length] = field := by simp
    refine ⟨before.length, hlt, fun j hj => ?_, by rw [hat]; exact (hsome field).mp hfield⟩
    rw [List.getElem_append_left hj]
    exact (hnone _).mp (hbefore _ (List.getElem_mem hj))
  · rintro ⟨i, hlt, hbefore, hfield⟩
    refine ⟨fields.take i, fields[i], fields.drop (i + 1), by simp, (hsome _).mpr hfield, ?_⟩
    intro field hmem
    obtain ⟨j, hj, rfl⟩ := List.mem_iff_getElem.mp hmem
    have hlt : j < i := by
      rw [List.length_take] at hj
      omega
    rw [List.getElem_take]
    exact (hnone _).mpr (hbefore j hlt)

theorem length_writtenCoefficients (frame : Frame) :
    frame.writtenCoefficients.length = frame.coefficientCount := by
  rw [Frame.writtenCoefficients, List.length_take, length_coefficientFields,
    Nat.min_eq_left frame.coefficientCount_le]

theorem getElem_writtenCoefficients (frame : Frame) (i : Fin 10)
    (h : i.val < frame.writtenCoefficients.length) :
    frame.writtenCoefficients[i.val] =
      ⟨.coefficient, frame.coefficients[i], Frame.coefficientWidth i⟩ := by
  simp only [Frame.writtenCoefficients, Frame.coefficientFields, List.getElem_take,
    List.getElem_zipWith, Vector.getElem_toList]
  rfl

/-- The first fault of the coefficients is that of the first one that does not fit. -/
theorem findSome?_writtenCoefficients_eq_some_iff {frame : Frame} {fault : FrameFault} :
    frame.writtenCoefficients.findSome? Field.fault? = some fault ↔
      ∃ i : Fin 10, i.val < frame.coefficientCount ∧ (∀ j < i, frame.CoefficientFits j) ∧
        ¬ frame.CoefficientFits i ∧
        fault = .tooWide ⟨.coefficient, frame.coefficients[i], Frame.coefficientWidth i⟩ := by
  have hlength := length_writtenCoefficients frame
  have hcount := frame.coefficientCount_le
  have hfits (i : Fin 10) (h : i.val < frame.writtenCoefficients.length) :
      (frame.writtenCoefficients[i.val]).Fits ↔ frame.CoefficientFits i := by
    rw [getElem_writtenCoefficients]
    rfl
  rw [findSome?_fault?_eq_some_iff]
  constructor
  · rintro ⟨i, hi, hbefore, hwide, rfl⟩
    refine ⟨⟨i, by omega⟩, hlength ▸ hi, fun j hj => ?_, ?_, ?_⟩
    · exact (hfits j (Nat.lt_trans hj hi)).mp (hbefore j.val hj)
    · exact mt (hfits ⟨i, by omega⟩ hi).mpr hwide
    · rw [← getElem_writtenCoefficients frame ⟨i, by omega⟩ hi]
  · rintro ⟨i, hi, hbefore, hwide, rfl⟩
    refine ⟨i.val, by omega, fun j hj => ?_, ?_, ?_⟩
    · have hwritten : j < frame.writtenCoefficients.length := by omega
      exact (hfits ⟨j, by omega⟩ hwritten).mpr (hbefore ⟨j, by omega⟩ hj)
    · exact mt (hfits i (by omega)).mp hwide
    · rw [getElem_writtenCoefficients]

/-! ## The words of the refusal -/

/-- A frame has a fault exactly if it is refused, in the words of the fault. -/
theorem fault?_message_iff (frame : Frame) (text : String) :
    (∃ fault, frame.fault? = some fault ∧ fault.message = text) ↔ frame.Refused text := by
  rw [frame.fault?_eq]
  constructor
  · rintro ⟨fault, hfault, rfl⟩
    split_ifs at hfault with hstop hwide hsilent hhigh hrepeated
    · cases hfault
      exact .reserved hstop
    · cases hfault
      exact .energy hwide
    · cases hfault
      exact .pitch ⟨by omega, by omega⟩ hhigh
    · obtain ⟨i, hi, hbefore, hfits, rfl⟩ := findSome?_writtenCoefficients_eq_some_iff.mp hfault
      have hshaped : frame.Shaped := ⟨⟨by omega, by omega⟩, by omega, by simpa using hrepeated⟩
      exact .coefficient hshaped i hi hbefore hfits
  · intro hrefused
    cases hrefused with
    | reserved hstop => exact ⟨_, if_pos hstop, rfl⟩
    | energy hwide =>
        refine ⟨.tooWide ⟨.energy, frame.energy, 4⟩, ?_, rfl⟩
        rw [if_neg (by omega), if_pos hwide]
    | pitch hsounding hhigh =>
        obtain ⟨hlow, hle⟩ := hsounding
        refine ⟨.tooWide ⟨.pitch, frame.pitch, 6⟩, ?_, rfl⟩
        rw [if_neg (by omega), if_neg (by omega), if_neg (by omega), if_pos hhigh]
    | coefficient hshaped i hi hbefore hfits =>
        obtain ⟨⟨hlow, hle⟩, hpitch, hrepeated⟩ := hshaped
        refine ⟨.tooWide ⟨.coefficient, frame.coefficients[i], Frame.coefficientWidth i⟩, ?_, rfl⟩
        rw [if_neg (by omega), if_neg (by omega), if_neg (by omega), if_neg (by omega),
          if_neg (by simp [hrepeated])]
        exact findSome?_writtenCoefficients_eq_some_iff.mpr ⟨i, hi, hbefore, hfits, rfl⟩

/-- A frame is refused, in whatever words, exactly if something of it is out of range. -/
theorem exists_refused_iff (frame : Frame) : (∃ text, frame.Refused text) ↔ frame.OutOfRange := by
  constructor
  · rintro ⟨text, hrefused⟩
    cases hrefused with
    | reserved henergy => exact .inl (Nat.le_of_eq henergy.symm)
    | energy henergy => exact .inl (by omega)
    | pitch hsounding hpitch => exact .inr (.inl ⟨hsounding, hpitch⟩)
    | coefficient hshaped i hi _ hwide => exact .inr (.inr ⟨hshaped, i, hi, hwide⟩)
  · rintro (henergy | ⟨hsounding, hpitch⟩ | ⟨hshaped, i, hi, hwide⟩)
    · rcases Nat.eq_or_lt_of_le henergy with heq | hlt
      · exact ⟨_, .reserved heq.symm⟩
      · exact ⟨_, .energy hlt⟩
    · exact ⟨_, .pitch hsounding hpitch⟩
    · -- the first coefficient that does not fit comes no later than this one
      have hwellFounded : WellFounded ((· < ·) : Fin 10 → Fin 10 → Prop) := wellFounded_lt
      obtain ⟨first, hfirst, hleast⟩ :=
        hwellFounded.has_min {j : Fin 10 | ¬ frame.CoefficientFits j} ⟨i, hwide⟩
      have hle : first ≤ i := not_lt.mp (hleast i hwide)
      refine ⟨_, .coefficient hshaped first (Nat.lt_of_le_of_lt hle hi) (fun j hj => ?_) hfirst⟩
      by_contra hfits
      exact hleast j hfits hj

/-! ## The length of what is written -/

theorem length_written (fields : List Field) :
    (written fields).length = (fields.map (·.width)).sum := by
  induction fields with
  | nil => rfl
  | cons field rest ih =>
      rw [written_cons, List.length_append, length_bitsOf, ih, List.map_cons, List.sum_cons]

theorem length_written_fields (frame : Frame) :
    (written frame.fields).length = frame.bitCount := by
  rw [length_written]
  unfold Frame.bitCount
  split
  · rename_i hsilent
    rw [fields_of_silent hsilent]
    rfl
  · rename_i hsilent
    rw [fields_of_not_silent hsilent]
    split
    · rfl
    · have hwidths : (frame.writtenCoefficients.map (·.width)) =
          coefficientWidths.take frame.coefficientCount := by
        rw [Frame.writtenCoefficients, List.map_take, map_width_coefficientFields]
      simp only [List.map_cons, List.sum_cons, hwidths]
      unfold Frame.coefficientCount
      split <;> rfl

/-! ## What does not matter -/

theorem bits_eq_error {frame : Frame} {fault : FrameFault} (hfault : frame.fault? = some fault) :
    frame.bits = .error fault :=
  (decided_frameBits frame).eq_error_iff.mpr hfault

theorem bits_eq_of_fields_eq {frame other : Frame} (henergy : frame.energy = other.energy)
    (hfields : frame.fields = other.fields) : frame.bits = other.bits := by
  unfold Frame.bits
  rw [henergy, hfields]

namespace Frame.SameWritten

variable {frame other : Frame}

theorem writtenCoefficients_eq (hsame : frame.SameWritten other) (hshaped : frame.Shaped) :
    frame.writtenCoefficients = other.writtenCoefficients := by
  have hcount : frame.coefficientCount = other.coefficientCount := by
    unfold Frame.coefficientCount
    rw [hsame.pitch hshaped.sounding]
  have hle := frame.coefficientCount_le
  have hlength := length_writtenCoefficients frame
  have hother := length_writtenCoefficients other
  refine List.ext_getElem (by omega) fun i hi hj => ?_
  have hten : i < 10 := by omega
  rw [getElem_writtenCoefficients frame ⟨i, hten⟩ hi,
    getElem_writtenCoefficients other ⟨i, hten⟩ hj,
    hsame.coefficients hshaped ⟨i, hten⟩ (hlength ▸ hi)]

/-- What a frame makes of its bits, or the reason why it makes none, is settled by what is looked
at. -/
theorem bits_eq (hsame : frame.SameWritten other) : frame.bits = other.bits := by
  have henergy := hsame.energy
  by_cases hhigh : 15 ≤ frame.energy.toNat
  · -- the energy alone is at fault
    have hfault : frame.fault? = other.fault? := by
      rw [frame.fault?_eq, other.fault?_eq, ← henergy]
      split
      · rfl
      · rw [if_pos (by omega), if_pos (by omega)]
    cases hnone : frame.fault? with
    | none =>
        rw [frame.fault?_eq] at hnone
        split_ifs at hnone <;> omega
    | some fault => rw [bits_eq_error hnone, bits_eq_error (hfault ▸ hnone)]
  by_cases hsilent : frame.energy.toNat = 0
  · refine bits_eq_of_fields_eq henergy ?_
    rw [fields_of_silent hsilent, fields_of_silent (henergy ▸ hsilent), henergy]
  have hsounding : frame.Sounding := ⟨by omega, by omega⟩
  have hpitch := hsame.pitch hsounding
  have hrepeated := hsame.repeated hsounding
  by_cases hwide : 64 ≤ frame.pitch.toNat
  · have hfault (same : Frame) (hsounding : same.Sounding) (hwide : 64 ≤ same.pitch.toNat) :
        same.fault? = some (.tooWide ⟨.pitch, same.pitch, 6⟩) := by
      obtain ⟨hlow, hle⟩ := hsounding
      rw [same.fault?_eq, if_neg (by omega), if_neg (by omega), if_neg (by omega), if_pos hwide]
    have hother : other.Sounding := by
      unfold Frame.Sounding
      rw [← henergy]
      exact hsounding
    rw [bits_eq_error (hfault frame hsounding hwide),
      bits_eq_error (hfault other hother (hpitch ▸ hwide)), hpitch]
  · refine bits_eq_of_fields_eq henergy ?_
    rw [fields_of_not_silent hsilent, fields_of_not_silent (henergy ▸ hsilent), henergy, hrepeated,
      hpitch]
    split
    · rfl
    · rename_i hfresh
      have hshaped : frame.Shaped := ⟨hsounding, by omega, by simpa [hrepeated] using hfresh⟩
      rw [hsame.writtenCoefficients_eq hshaped]

end Frame.SameWritten

/-! ## The main statement -/

theorem encodeFrames_congr {frames others : List Frame}
    (hsame : List.Forall₂ Frame.SameWritten (frames.filter fun frame => !frame.last)
      (others.filter fun frame => !frame.last)) : encodeFrames frames = encodeFrames others := by
  have hbits : (frames.filter fun frame => !frame.last).mapM Frame.bits =
      (others.filter fun frame => !frame.last).mapM Frame.bits := by
    generalize (frames.filter fun frame => !frame.last) = spoken at hsame ⊢
    generalize (others.filter fun frame => !frame.last) = written at hsame ⊢
    induction hsame with
    | nil => rfl
    | cons hhead _ ih => rw [List.mapM_cons, List.mapM_cons, hhead.bits_eq, ih]
  unfold encodeFrames
  rw [hbits]

/-- A frame has no fault exactly if all that is written of it is in range. -/
theorem fault?_eq_none_iff (frame : Frame) : frame.fault? = none ↔ ¬ frame.OutOfRange := by
  rw [← exists_refused_iff, not_exists]
  constructor
  · intro hnone text hrefused
    obtain ⟨fault, hfault, _⟩ := (fault?_message_iff frame text).mpr hrefused
    rw [hnone] at hfault
    cases hfault
  · intro hall
    cases hfault : frame.fault? with
    | none => rfl
    | some fault =>
        exact absurd ((fault?_message_iff frame fault.message).mp ⟨fault, hfault, rfl⟩) (hall _)

/-- The fault of a row of frames: that of the first one at fault, closing ones left out. -/
def rowFault? (frames : List Frame) : Option FrameFault :=
  (frames.filter fun frame => !frame.last).findSome? Frame.fault?

theorem rowFault?_eq_none_iff (frames : List Frame) :
    rowFault? frames = none ↔ ∀ frame ∈ frames, frame.last = false → ¬ frame.OutOfRange := by
  rw [rowFault?, List.findSome?_eq_none_iff]
  simp only [List.mem_filter, Bool.not_eq_true', and_imp, fault?_eq_none_iff]

theorem rowFault?_message_iff (frames : List Frame) (text : String) :
    (∃ fault, rowFault? frames = some fault ∧ fault.message = text) ↔
      ∃ before frame after, frames = before ++ frame :: after ∧ frame.last = false ∧
        frame.Refused text ∧ ∀ other ∈ before, other.last = false → ¬ other.OutOfRange := by
  constructor
  · rintro ⟨fault, hfault, htext⟩
    obtain ⟨front, frame, back, hfilter, hframe, hfront⟩ := List.findSome?_eq_some_iff.mp hfault
    obtain ⟨before, rest, rfl, hbefore, hrest⟩ := List.filter_eq_append_iff.mp hfilter
    obtain ⟨closing, after, rfl, hclosing, hlast, _⟩ := List.filter_eq_cons_iff.mp hrest
    refine ⟨before ++ closing, frame, after, by simp, by simpa using hlast,
      (fault?_message_iff frame text).mp ⟨fault, hframe, htext⟩, ?_⟩
    intro other hother hspoken
    rcases List.mem_append.mp hother with hmem | hmem
    · have hnone := hfront other (hbefore ▸ List.mem_filter.mpr ⟨hmem, by simp [hspoken]⟩)
      exact (fault?_eq_none_iff other).mp hnone
    · exact absurd (by simp [hspoken]) (hclosing other hmem)
  · rintro ⟨before, frame, after, rfl, hlast, hrefused, hbefore⟩
    obtain ⟨fault, hfault, htext⟩ := (fault?_message_iff frame text).mpr hrefused
    refine ⟨fault, ?_, htext⟩
    have hnone : (before.filter fun frame => !frame.last).findSome? Frame.fault? = none :=
      (rowFault?_eq_none_iff before).mpr hbefore
    have hspoken : (!frame.last) = true := by simp [hlast]
    rw [rowFault?, List.filter_append, List.findSome?_append, hnone, Option.none_or,
      List.filter_cons, if_pos hspoken, List.findSome?_cons, hfault]

/-- **Exactly the frames that are in range are written, and nothing is cut off.**  Frames fail if
and only if one of them that is no closing one has something written out of range, in the words for
the first such number of the first such frame.  Otherwise the data has the bits of all frames and
of the stop code, up to the next byte.  Closing frames do not matter, nor does what is not looked
at. -/
theorem encodeFrames_accepts_exactly (frames : List Frame) :
    ((∃ fault, encodeFrames frames = .error fault) ↔
      ∃ frame ∈ frames, frame.last = false ∧ frame.OutOfRange) ∧
    (∀ text, (∃ fault, encodeFrames frames = .error fault ∧ fault.message = text) ↔
      ∃ before frame after, frames = before ++ frame :: after ∧ frame.last = false ∧
        frame.Refused text ∧ ∀ other ∈ before, other.last = false → ¬ other.OutOfRange) ∧
    ((∀ frame ∈ frames, frame.last = false → ¬ frame.OutOfRange) →
      ∃ data, encodeFrames frames = .ok data ∧ data.length =
        (4 + ((frames.filter fun frame => !frame.last).map Frame.bitCount).sum + 7) / 8) ∧
    ∀ others, List.Forall₂ Frame.SameWritten (frames.filter fun frame => !frame.last)
      (others.filter fun frame => !frame.last) → encodeFrames frames = encodeFrames others := by
  have hdecided := decided_encodeFrames frames
  refine ⟨?_, fun text => ?_, fun hrange => ?_, fun others hsame => encodeFrames_congr hsame⟩
  · simp only [hdecided.eq_error_iff]
    rw [← Option.isSome_iff_exists, ← Option.ne_none_iff_isSome, ne_eq, ← rowFault?,
      rowFault?_eq_none_iff]
    simp only [not_forall, not_not, exists_prop]
  · simp only [hdecided.eq_error_iff]
    exact rowFault?_message_iff frames text
  · obtain ⟨data, hdata⟩ := hdecided.exists_ok_iff.mpr ((rowFault?_eq_none_iff frames).mpr hrange)
    refine ⟨data, hdata, ?_⟩
    have hwritten : ((frames.filter fun frame => !frame.last).flatMap
          fun frame => written frame.fields).length =
        ((frames.filter fun frame => !frame.last).map Frame.bitCount).sum := by
      rw [List.length_flatMap]
      simp only [length_written_fields]
    have hstop : stopBits.length = 4 := rfl
    rw [hdecided.of_ok hdata, length_bytesOfBits, List.length_append, hwritten, hstop,
      Nat.add_comm 4]

/-- Numbers that are out of range where they are not looked at: behind silence, in a closing frame,
and as coefficients of a repeated one. -/
def carelessFrames : List Frame :=
  [⟨0, true, 200, Vector.replicate 10 255, false⟩, ⟨20, false, 99, Vector.replicate 10 255, true⟩,
    ⟨3, true, 5, Vector.replicate 10 255, false⟩]

/-- A frame without pitch whose third coefficient has five bits, and so has the fifth. -/
def wideFrame : Frame := ⟨3, false, 0, #v[31, 31, 16, 1, 16, 0, 0, 0, 0, 0], false⟩

theorem encodeFrames_accepts_exactly_careless :
    (∃ data, encodeFrames carelessFrames = .ok data ∧ data.length = 3) ∧
      ∃ fault, encodeFrames (carelessFrames ++ [wideFrame]) = .error fault ∧
        fault.message = "k value 16 does not fit in 4 bits" := by
  have hrange : ∀ frame ∈ carelessFrames, frame.last = false → ¬ frame.OutOfRange := by decide
  refine ⟨(encodeFrames_accepts_exactly carelessFrames).2.2.1 hrange, ?_⟩
  refine ((encodeFrames_accepts_exactly _).2.1 _).mpr
    ⟨carelessFrames, wideFrame, [], rfl, rfl, ?_, hrange⟩
  exact .coefficient ⟨by decide, by decide, rfl⟩ 2 (by decide) (by decide) (by decide)

end SpeechRom.Lpc
