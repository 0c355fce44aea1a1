import SpeechRom.Lpc.Frame

/-!
# The bit code of a word

Fields are written most significant bit first, frame after frame, and the stop
code 1111 ends the word.  The player takes the bits of a byte from the least
significant one up, so the bit stream fills every byte from its low end, and
zeros fill what is left of the last byte.
-/

namespace SpeechRom.Lpc

/-- Why a frame cannot be written. -/
inductive FrameFault where
  /-- The energy is the stop code. -/
  | reservedEnergy
  /-- A number has more bits than its field. -/
  | tooWide (field : Field)
  deriving DecidableEq, Repr

/-- The wording of a fault. -/
def FrameFault.message : FrameFault → String
  | .reservedEnergy => "energy 15 is reserved for the stop frame"
  | .tooWide field =>
    s!"{field.name.describe} value {field.value.toNat} does not fit in {field.width} bits"

/-- The lowest `width` bits of a number, most significant first. -/
def bitsOf (value : Nat) : Nat → List Bool
  | 0 => []
  | width + 1 => value.testBit width :: bitsOf value width

/-- The bits of a field, if the number fits. -/
def Field.bits (field : Field) : Except FrameFault (List Bool) :=
  if field.Fits then .ok (bitsOf field.value.toNat field.width) else .error (.tooWide field)

/-- The bits of a frame; the first field at fault decides the failure. -/
def Frame.bits (frame : Frame) : Except FrameFault (List Bool) :=
  if frame.energy = stopEnergy then .error .reservedEnergy
  else List.flatten <$> frame.fields.mapM Field.bits

/-- The bits of the stop code. -/
def stopBits : List Bool := bitsOf stopEnergy.toNat 4

/-- The number with the given binary digits, least significant first. -/
def valueOfBits : List Bool → Nat
  | [] => 0
  | bit :: rest => bit.toNat + 2 * valueOfBits rest

/-- Bits gathered into bytes, each filled from its low end, the last one padded with zeros. -/
def bytesOfBits : List Bool → List UInt8
  | [] => []
  | b₀ :: b₁ :: b₂ :: b₃ :: b₄ :: b₅ :: b₆ :: b₇ :: rest =>
    UInt8.ofNat (valueOfBits [b₀, b₁, b₂, b₃, b₄, b₅, b₆, b₇]) :: bytesOfBits rest
  | short => [UInt8.ofNat (valueOfBits short)]

theorem length_bitsOf (value width : Nat) : (bitsOf value width).length = width := by
  induction width with
  | zero => rfl
  | succ width ih => simp [bitsOf, ih]

theorem valueOfBits_lt (bits : List Bool) : valueOfBits bits < 1 <<< bits.length := by
  induction bits with
  | nil => simp [valueOfBits]
  | cons bit rest ih =>
    have hbit : bit.toNat ≤ 1 := Bool.toNat_le bit
    have hdouble : 1 <<< (rest.length + 1) = 2 * 1 <<< rest.length := Nat.shiftLeft_succ 1 _
    simp only [valueOfBits, List.length_cons]
    omega

/-- The first byte holds the first eight bits. -/
theorem bytesOfBits_of_ne_nil {bits : List Bool} (hne : bits ≠ []) :
    bytesOfBits bits = UInt8.ofNat (valueOfBits (bits.take 8)) :: bytesOfBits (bits.drop 8) := by
  match bits, hne with
  | [_], _ => rfl
  | [_, _], _ => rfl
  | [_, _, _], _ => rfl
  | [_, _, _, _], _ => rfl
  | [_, _, _, _, _], _ => rfl
  | [_, _, _, _, _, _], _ => rfl
  | [_, _, _, _, _, _, _], _ => rfl
  | _ :: _ :: _ :: _ :: _ :: _ :: _ :: _ :: _, _ => rfl

/-- Bits take as many bytes as it needs to hold them. -/
theorem length_bytesOfBits (bits : List Bool) :
    (bytesOfBits bits).length = (bits.length + 7) / 8 := by
  by_cases hempty : bits = []
  · subst hempty
    rfl
  · have hpos : 0 < bits.length := List.length_pos_iff.mpr hempty
    rw [bytesOfBits_of_ne_nil hempty, List.length_cons, length_bytesOfBits (bits.drop 8),
      List.length_drop]
    omega
termination_by bits.length
decreasing_by
  simp only [List.length_drop]
  omega

/-- The speech data of a word: its frames but for the closing one, then the stop code. -/
def encodeFrames (frames : List Frame) : Except FrameFault (List UInt8) := do
  let spoken ← (frames.filter fun frame => !frame.last).mapM Frame.bits
  return bytesOfBits (spoken.flatten ++ stopBits)

end SpeechRom.Lpc
