/-!
# Speech frames

A recorded word is a row of frames of a linear predictive coder: an energy, a
pitch and ten reflection coefficients, each an index into the player's tables.
Which fields a frame writes depends on the ones before: a silent frame writes
its energy only, a repeated frame stops after the pitch and keeps the previous
coefficients, and an unvoiced frame (pitch 0) writes four coefficients.

`Frame.fields` is that rule.  All that is written, checked or read back goes
through it.
-/

namespace SpeechRom.Lpc

/-- One analysed frame; every number is an index into a table of the player. -/
structure Frame where
  energy : UInt8
  /-- Whether the coefficients of the frame before stay in use. -/
  repeated : Bool
  pitch : UInt8
  /-- The reflection coefficients, first to tenth. -/
  coefficients : Vector UInt8 10
  /-- Marks the closing frame of the analysis, which gives way to the stop code. -/
  last : Bool
  deriving DecidableEq, Repr

/-- The energy code of silence. -/
def silentEnergy : UInt8 := 0

/-- The energy code that ends a word. -/
def stopEnergy : UInt8 := 15

/-- The kinds of field in a frame. -/
inductive FieldName where
  | energy
  | repeated
  | pitch
  | coefficient
  deriving DecidableEq, Repr

/-- How messages name a field. -/
def FieldName.describe : FieldName → String
  | .energy => "energy"
  | .repeated => "repeat"
  | .pitch => "pitch"
  | .coefficient => "k"

/-- A number and the count of bits it is written with. -/
structure Field where
  name : FieldName
  value : UInt8
  width : Nat
  deriving DecidableEq, Repr

/-- Whether the number has no more bits than its field. -/
def Field.Fits (field : Field) : Prop := field.value.toNat < 1 <<< field.width

instance (field : Field) : Decidable field.Fits := Nat.decLt _ _

/-- The widths of the ten coefficients. -/
def coefficientWidths : List Nat := [5, 5, 4, 4, 4, 4, 4, 3, 3, 3]

/-- The number of coefficients that an unvoiced frame writes. -/
def unvoicedCoefficients : Nat := 4

namespace Frame

/-- The frame of silence. -/
def silent : Frame := ⟨silentEnergy, false, 0, Vector.replicate 10 0, false⟩

/-- A frame with pitch and all ten coefficients. -/
def voiced (energy pitch : UInt8) (coefficients : Vector UInt8 10) : Frame :=
  ⟨energy, false, pitch, coefficients, false⟩

/-- A frame without pitch and with four coefficients. -/
def unvoiced (energy : UInt8) (coefficients : Vector UInt8 4) : Frame :=
  ⟨energy, false, 0, coefficients ++ Vector.replicate 6 (0 : UInt8), false⟩

/-- A frame that keeps the coefficients of the one before. -/
def repetition (energy pitch : UInt8) : Frame :=
  ⟨energy, true, pitch, Vector.replicate 10 0, false⟩

/-- The coefficient fields in order. -/
def coefficientFields (frame : Frame) : List Field :=
  List.zipWith (fun value width => ⟨.coefficient, value, width⟩)
    frame.coefficients.toList coefficientWidths

/-- The fields a frame writes, in order. -/
def fields (frame : Frame) : List Field :=
  let energy : Field := ⟨.energy, frame.energy, 4⟩
  let control : List Field := [⟨.repeated, frame.repeated.toUInt8, 1⟩, ⟨.pitch, frame.pitch, 6⟩]
  if frame.energy = silentEnergy then [energy]
  else if frame.repeated then energy :: control
  else if frame.pitch = 0 then
    energy :: control ++ frame.coefficientFields.take unvoicedCoefficients
  else energy :: control ++ frame.coefficientFields

end Frame

end SpeechRom.Lpc
