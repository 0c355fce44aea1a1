/-!
# Texts as bytes

A text stands for its bytes in UTF-8, and bytes that are UTF-8 for a text.
Damaged text is read as far as it makes sense: what cannot be continued becomes
the replacement character, once for every longest start of a character.  White
space at the ends of a text is that of Unicode.
-/

namespace SpeechRom.Text

/-- The bytes of a text. -/
def utf8 (text : String) : List UInt8 := text.toUTF8.data.toList

/-- The text of bytes, if they are UTF-8. -/
def ofUtf8? (bytes : List UInt8) : Option String := String.fromUTF8? ⟨bytes.toArray⟩

/-- The texts of bytes are those whose bytes they are. -/
theorem ofUtf8?_eq_some_iff {bytes : List UInt8} {text : String} :
    ofUtf8? bytes = some text ↔ utf8 text = bytes := by
  rw [ofUtf8?, String.fromUTF8?, Option.dite_none_right_eq_some]
  constructor
  · rintro ⟨hvalid, htext⟩
    cases htext
    rfl
  · rintro rfl
    exact ⟨text.isValidUTF8, congrArg some (String.toByteArray_inj.mp rfl)⟩

/-- The bytes of a text are read back. -/
@[simp]
theorem ofUtf8?_utf8 (text : String) : ofUtf8? (utf8 text) = some text :=
  ofUtf8?_eq_some_iff.mpr rfl

/-- Different texts have different bytes. -/
theorem utf8_inj {first second : String} : utf8 first = utf8 second ↔ first = second := by
  refine ⟨fun heq => ?_, congrArg utf8⟩
  have hsecond := ofUtf8?_eq_some_iff.mpr heq
  rw [ofUtf8?_utf8] at hsecond
  exact (Option.some.inj hsecond).symm

/-- Rows of bytes are read as texts if all of them are bytes of texts. -/
theorem mapM_ofUtf8?_eq_some_iff {words : List (List UInt8)} {texts : List String} :
    words.mapM ofUtf8? = some texts ↔ texts.map utf8 = words := by
  induction words generalizing texts with
  | nil => cases texts <;> simp
  | cons word rest ih =>
    cases texts with
    | nil => simp [List.mapM_cons, Option.bind_eq_some_iff]
    | cons text others =>
      simp [List.mapM_cons, Option.bind_eq_some_iff, ofUtf8?_eq_some_iff, ih]

/-! ## Damaged text -/

/-- The character that stands for what cannot be decoded. -/
def replacement : Char := '\ufffd'

/-- What the first byte of a character of several bytes says: how many bytes follow, and the
bounds of the first of them. -/
def leadByte? (byte : UInt8) : Option (Nat × UInt8 × UInt8) :=
  if 0xc2 ≤ byte && byte ≤ 0xdf then some (1, 0x80, 0xbf)
  else if byte = 0xe0 then some (2, 0xa0, 0xbf)
  else if byte = 0xed then some (2, 0x80, 0x9f)
  else if 0xe1 ≤ byte && byte ≤ 0xef then some (2, 0x80, 0xbf)
  else if byte = 0xf0 then some (3, 0x90, 0xbf)
  else if 0xf1 ≤ byte && byte ≤ 0xf3 then some (3, 0x80, 0xbf)
  else if byte = 0xf4 then some (3, 0x80, 0x8f)
  else none

/-- The bytes that continue a character: at most `count`, the first within the bounds. -/
def continuationBytes : (count : Nat) → (low high : UInt8) → List UInt8 → List UInt8
  | 0, _, _, _ => []
  | _, _, _, [] => []
  | count + 1, low, high, byte :: rest =>
    if low ≤ byte && byte ≤ high then byte :: continuationBytes count 0x80 0xbf rest else []

/-- The code point of a character of several bytes. -/
def codePointOf (lead : UInt8) (others : List UInt8) : Nat :=
  others.foldl (fun n byte => n * 64 + byte.toNat % 64)
    (lead.toNat % 1 <<< (6 - others.length))

/-- Decode bytes, with the replacement character for what is damaged. -/
def decodeLossy : (fuel : Nat) → List UInt8 → List Char
  | 0, _ => []
  | _, [] => []
  | fuel + 1, byte :: rest =>
    if byte < 0x80 then Char.ofNat byte.toNat :: decodeLossy fuel rest
    else
      match leadByte? byte with
      | none => replacement :: decodeLossy fuel rest
      | some (count, low, high) =>
        let others := continuationBytes count low high rest
        let c := if others.length = count then Char.ofNat (codePointOf byte others)
          else replacement
        c :: decodeLossy fuel (rest.drop others.length)

/-- The text that bytes spell; what is damaged is replaced. -/
def decodedText (bytes : List UInt8) : String :=
  match ofUtf8? bytes with
  | some text => text
  | none => String.ofList (decodeLossy bytes.length bytes)

/-- White space, as Unicode has it. -/
def isSpace (c : Char) : Bool :=
  ('\x09' ≤ c && c ≤ '\x0d') || c == ' ' || c == '\u0085' || c == '\u00a0' || c == '\u1680' ||
    ('\u2000' ≤ c && c ≤ '\u200a') || c == '\u2028' || c == '\u2029' || c == '\u202f' ||
    c == '\u205f' || c == '\u3000'

/-- The text that bytes spell, without white space at its ends. -/
def trimmedText (bytes : List UInt8) : String :=
  let letters := (decodedText bytes).toList.dropWhile isSpace
  String.ofList (letters.reverse.dropWhile isSpace).reverse

end SpeechRom.Text
