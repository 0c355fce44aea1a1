import SpeechRom.Rom.Image
import SpeechRom.Rom.Labels
import SpeechRom.Text.Hex

/-!
# Listings

An image as text: the bytes as hexadecimal numbers with commas between, ready
for an array initialiser.  Lines hold a fixed count of bytes, or everything if
the count is zero.  A labelled address starts a new line below a comment with
the address, low byte first, and lines are counted anew from there.
-/

namespace SpeechRom.Rom

/-- A listing while it grows. -/
structure ListingState where
  text : String
  /-- The address of the next byte. -/
  address : Nat
  /-- The address from which lines are counted. -/
  lineStart : Nat

/-- The comment in front of a labelled address, with a blank line on either side. -/
def addressComment (address : Nat) (label : String) : String :=
  "\n// Address: 0x" ++ Text.hexUpper 2 (address % 256) ++ ", 0x" ++
    Text.hexUpper 2 (address / 256 % 256) ++ " - " ++ label ++ "\n\n"

/-- A byte as the listing writes it. -/
def byteText (byte : UInt8) : String := "0x" ++ Text.hexUpper 2 byte.toNat

/-- Whether a line break stands before the byte at `address`. -/
def breaksBefore (bytesPerLine lineStart address : Nat) : Bool :=
  0 < address && 0 < bytesPerLine && (address - lineStart) % bytesPerLine == 0

/-- What stands between the byte before `address` and what follows. -/
def separatorBefore (bytesPerLine lineStart address : Nat) : String :=
  if address = 0 then ""
  else if breaksBefore bytesPerLine lineStart address then ", \n" else ", "

/-- Add a byte to a listing. -/
def ListingState.add (bytesPerLine : Nat) (labels : Labels) (state : ListingState)
    (byte : UInt8) : ListingState :=
  let address := state.address
  let text := state.text ++ separatorBefore bytesPerLine state.lineStart address
  match labels[address]? with
  | none => ⟨text ++ byteText byte, address + 1, state.lineStart⟩
  | some label =>
    let fresh := address = 0 || breaksBefore bytesPerLine state.lineStart address
    let text := if fresh then text else text ++ "\n"
    ⟨text ++ addressComment address label ++ byteText byte, address + 1, address⟩

/-- The listing of bytes with labels. -/
def listing (bytes : List UInt8) (bytesPerLine : Nat) (labels : Labels) : String :=
  (bytes.foldl (ListingState.add bytesPerLine labels) ⟨"", 0, 0⟩).text

/-- The listing of an image, every entity of the pack labelled. -/
def Image.listing (image : Image) (pack : Pack) (bytesPerLine : Nat) : String :=
  Rom.listing image.bytes bytesPerLine (image.addresses.labels pack)

end SpeechRom.Rom
