import SpeechRom.Lpc.Packing
import SpeechRom.Proofs.Attempt

/-!
# Hearing what was encoded

A player takes the bits of every byte from the least significant one up, and the
numbers in them most significant bit first:

    energy 4 | repeat 1 | pitch 6 | K1 5, K2 5, K3 4, K4 4 | K5 4, K6 4, K7 4, K8 3, K9 3, K10 3

Energy 15 ends the word.  A frame is over after energy 0, after the pitch if it is
repeated, and after K4 if its pitch is 0.

From the data of a word the player hears the frames again, each as far as it was
written.  It stops within the last byte, so nothing behind the data matters
(`listen_encodeFrames`).

## Strategy

One lemma for each step of the player says what it makes of bits that were written:
of a number (`takeNumber_bitsOf`), of fields, of a frame (`takeFrame_written`), of all
frames with the stop code behind them (`listenBits_written`).  Each leaves the bits
behind as they are, so it does not matter at which bit of a byte a frame starts.
-/

namespace SpeechRom.Lpc

/-! ## The player -/

/-- What is heard of a frame: the fields that it writes. -/
inductive Sound where
  | silent
  | repetition (energy pitch : UInt8)
  | unvoiced (energy : UInt8) (coefficients : List UInt8)
  | voiced (energy pitch : UInt8) (coefficients : List UInt8)
  deriving DecidableEq, Repr

/-- What is heard of a frame that was written. -/
def Frame.sound (frame : Frame) : Sound :=
  if frame.energy = 0 then .silent
  else if frame.repeated then .repetition frame.energy frame.pitch
  else if frame.pitch = 0 then .unvoiced frame.energy (frame.coefficients.toList.take 4)
  else .voiced frame.energy frame.pitch frame.coefficients.toList

/-- Taking bits from the front of a row, as long as it has any. -/
abbrev Listening (α : Type) := StateT (List Bool) Option α

/-- The next bit. -/
def takeBit : Listening Bool
  | [] => none
  | bit :: rest => some (bit, rest)

/-- The number whose binary digits are the next bits, most significant first. -/
def takeNumber : (width : Nat) → Listening Nat
  | 0 => return 0
  | width + 1 => do
    let bit ← takeBit
    let lower ← takeNumber width
    return (bit.toNat <<< width) + lower

/-- The next field. -/
def takeField (width : Nat) : Listening UInt8 := do
  let number ← takeNumber width
  return UInt8.ofNat number

/-- The coefficients of a frame that is not repeated. -/
def takeCoefficients (energy pitch : UInt8) : Listening Sound := do
  let lower ← [5, 5, 4, 4].mapM takeField
  if pitch = 0 then return .unvoiced energy lower
  else do
    let upper ← [4, 4, 4, 3, 3, 3].mapM takeField
    return .voiced energy pitch (lower ++ upper)

/-- The next frame, or nothing if the word ends here. -/
def takeFrame : Listening (Option Sound) := do
  let energy ← takeField 4
  if energy = 15 then return none
  else if energy = 0 then return some .silent
  else do
    let repeated ← takeField 1
    let pitch ← takeField 6
    if repeated = 1 then return some (.repetition energy pitch)
    else do
      let sound ← takeCoefficients energy pitch
      return some sound

section Taking

variable {α β : Type} {taking : Listening α} {next : α → Listening β} {bits rest : List Bool}
  {a : α} {count more : Nat}

theorem bind_eq_some_iff {outcome : β × List Bool} :
    (taking >>= next) bits = some outcome ↔
      ∃ a rest, taking bits = some (a, rest) ∧ next a rest = some outcome := by
  have hbind : (taking >>= next) bits = (taking bits).bind fun taken => next taken.1 taken.2 := rfl
  rw [hbind, Option.bind_eq_some_iff, Prod.exists]

theorem bind_eq_of_eq_some (htaking : taking bits = some (a, rest)) :
    (taking >>= next) bits = next a rest := by
  have hbind : (taking >>= next) bits = (taking bits).bind fun taken => next taken.1 taken.2 := rfl
  rw [hbind, htaking, Option.bind_some]

/-- What is taken takes a number of bits at least. -/
def Takes (count : Nat) (taking : Listening α) : Prop :=
  ∀ bits a rest, taking bits = some (a, rest) → rest.length + count ≤ bits.length

theorem Takes.pure (a : α) : Takes 0 (Pure.pure a : Listening α) := by
  intro bits answer rest htaken
  cases htaken
  exact Nat.le_refl _

theorem Takes.bind (htaking : Takes count taking) (hnext : ∀ a, Takes more (next a)) :
    Takes (count + more) (taking >>= next) := by
  intro bits answer rest htaken
  obtain ⟨a, middle, hfirst, hsecond⟩ := bind_eq_some_iff.mp htaken
  have hleft := htaking bits a middle hfirst
  have hright := hnext a middle answer rest hsecond
  omega

/-- What comes behind the first step takes bits as well, or none. -/
theorem Takes.first (htaking : Takes count taking) (hnext : ∀ a, Takes 0 (next a)) :
    Takes count (taking >>= next) :=
  htaking.bind hnext

theorem Takes.zero (htaking : Takes count taking) : Takes 0 taking :=
  fun bits a rest htaken => Nat.le_trans (Nat.le_add_right _ count) (htaking bits a rest htaken)

theorem takes_takeBit : Takes 1 takeBit := by
  rintro (_ | ⟨bit, others⟩) answer rest htaken
  · cases htaken
  · cases htaken
    exact Nat.le_refl _

theorem takes_takeNumber (width : Nat) : Takes width (takeNumber width) := by
  induction width with
  | zero => exact .pure 0
  | succ width ih =>
      rw [takeNumber, Nat.add_comm]
      exact takes_takeBit.bind fun bit => ih.first fun lower => .pure _

theorem takes_takeField (width : Nat) : Takes width (takeField width) :=
  (takes_takeNumber width).first fun _ => .pure _

theorem takes_mapM_takeField (widths : List Nat) : Takes 0 (widths.mapM takeField) := by
  induction widths with
  | nil => exact .pure []
  | cons width rest ih =>
      rw [List.mapM_cons]
      exact (takes_takeField width).zero.first fun _ => ih.first fun _ => .pure _

theorem takes_takeCoefficients (energy pitch : UInt8) :
    Takes 0 (takeCoefficients energy pitch) := by
  refine (takes_mapM_takeField _).first fun lower => ?_
  split
  · exact .pure _
  · exact (takes_mapM_takeField _).first fun upper => .pure _

/-- Every frame takes its energy at least. -/
theorem takes_takeFrame : Takes 4 takeFrame := by
  refine (takes_takeField 4).first fun energy => ?_
  split
  · exact .pure none
  · split
    · exact .pure _
    · refine (takes_takeField 1).zero.first fun repeated =>
        (takes_takeField 6).zero.first fun pitch => ?_
      split
      · exact .pure _
      · exact (takes_takeCoefficients energy pitch).first fun _ => .pure _

end Taking

/-- The frames up to the stop code, with the bits behind it. -/
def listenBits (bits : List Bool) : Option (List Sound × List Bool) :=
  match _ : takeFrame bits with
  | none => none
  | some (none, rest) => some ([], rest)
  | some (some sound, rest) =>
    (listenBits rest).map fun (sounds, behind) => (sound :: sounds, behind)
termination_by bits.length
decreasing_by
  have htakes := takes_takeFrame bits (some sound) rest ‹_›
  omega

/-- The bits of bytes, of every byte from the least significant one up. -/
def bitsOfBytes (bytes : List UInt8) : List Bool :=
  bytes.flatMap fun byte => (List.range 8).map byte.toNat.testBit

/-- What is heard from a row of bytes, with the bits behind the stop code. -/
def listen (bytes : List UInt8) : Option (List Sound × List Bool) := listenBits (bitsOfBytes bytes)

/-! ## Fields -/

theorem takeNumber_bitsOf (value width : Nat) (rest : List Bool) :
    takeNumber width (bitsOf value width ++ rest) = some (value % 1 <<< width, rest) := by
  induction width with
  | zero =>
      rw [Nat.shiftLeft_zero, Nat.mod_one]
      rfl
  | succ width ih =>
      have hbit : takeBit (bitsOf value (width + 1) ++ rest) =
          some (value.testBit width, bitsOf value width ++ rest) := rfl
      have hvalue : value % 1 <<< (width + 1) =
          ((value.testBit width).toNat <<< width) + value % 1 <<< width := by
        simp only [Nat.shiftLeft_eq, Nat.one_mul]
        rw [Nat.mod_pow_succ, Nat.toNat_testBit, Nat.mul_comm, Nat.add_comm]
      rw [takeNumber, bind_eq_of_eq_some hbit, bind_eq_of_eq_some ih, hvalue]
      rfl

/-- A number that fits is taken back as the field that it was written for. -/
theorem takeField_bitsOf {value : UInt8} {width : Nat} (hfits : value.toNat < 1 <<< width)
    (rest : List Bool) :
    takeField width (bitsOf value.toNat width ++ rest) = some (value, rest) := by
  rw [takeField, bind_eq_of_eq_some (takeNumber_bitsOf value.toNat width rest),
    Nat.mod_eq_of_lt hfits, UInt8.ofNat_toNat]
  rfl

/-- The bits of fields, one after another. -/
def written (fields : List Field) : List Bool :=
  fields.flatMap fun field => bitsOf field.value.toNat field.width

theorem mapM_takeField_written {fields : List Field} (hfits : ∀ field ∈ fields, field.Fits)
    (rest : List Bool) :
    (fields.map (·.width)).mapM takeField (written fields ++ rest) =
      some (fields.map (·.value), rest) := by
  induction fields with
  | nil => rfl
  | cons field fields ih =>
      obtain ⟨hfield, hfits⟩ := List.forall_mem_cons.mp hfits
      have hsplit : written (field :: fields) ++ rest =
          bitsOf field.value.toNat field.width ++ (written fields ++ rest) := by
        rw [written, List.flatMap_cons, List.append_assoc]
        rfl
      rw [hsplit, List.map_cons, List.mapM_cons, bind_eq_of_eq_some (takeField_bitsOf hfield _),
        bind_eq_of_eq_some (ih hfits)]
      rfl

theorem written_cons (field : Field) (fields : List Field) :
    written (field :: fields) = bitsOf field.value.toNat field.width ++ written fields :=
  List.flatMap_cons

theorem written_append (fields others : List Field) :
    written (fields ++ others) = written fields ++ written others := List.flatMap_append

/-! ## Frames -/

/-- A frame can be written: its energy is not the stop code, and all its fields fit. -/
structure Frame.Writable (frame : Frame) : Prop where
  energy_ne : frame.energy ≠ 15
  fits : ∀ field ∈ frame.fields, field.Fits

theorem fieldBits_eq_ok_iff (field : Field) (bits : List Bool) :
    field.bits = .ok bits ↔ field.Fits ∧ bitsOf field.value.toNat field.width = bits := by
  unfold Field.bits
  split <;> simp [*]

theorem frameBits_eq_ok_iff (frame : Frame) (bits : List Bool) :
    frame.bits = .ok bits ↔ frame.Writable ∧ written frame.fields = bits := by
  unfold Frame.bits
  split
  · rename_i hstop
    refine iff_of_false (by simp) ?_
    rintro ⟨hwritable, _⟩
    exact hwritable.energy_ne hstop
  · rename_i hstop
    rw [map_eq_ok_iff]
    constructor
    · rintro ⟨rows, hrows, rfl⟩
      obtain ⟨hfits, rfl⟩ := (mapM_eq_ok_iff_map fieldBits_eq_ok_iff).mp hrows
      exact ⟨⟨hstop, hfits⟩, List.flatMap_def⟩
    · rintro ⟨hwritable, rfl⟩
      exact ⟨_, (mapM_eq_ok_iff_map fieldBits_eq_ok_iff).mpr ⟨hwritable.fits, rfl⟩,
        List.flatMap_def.symm⟩

theorem map_width_coefficientFields (frame : Frame) :
    frame.coefficientFields.map (·.width) = coefficientWidths := by
  have hlength : coefficientWidths.length ≤ frame.coefficients.toList.length := by
    rw [Vector.length_toList]
    decide
  calc frame.coefficientFields.map (·.width)
      = (frame.coefficients.toList.zip coefficientWidths).map Prod.snd := by
        rw [Frame.coefficientFields, List.zip, List.map_zipWith, List.map_zipWith]
    _ = coefficientWidths := List.map_snd_zip hlength

theorem map_value_coefficientFields (frame : Frame) :
    frame.coefficientFields.map (·.value) = frame.coefficients.toList := by
  have hlength : frame.coefficients.toList.length ≤ coefficientWidths.length := by
    rw [Vector.length_toList]
    decide
  calc frame.coefficientFields.map (·.value)
      = (frame.coefficients.toList.zip coefficientWidths).map Prod.fst := by
        rw [Frame.coefficientFields, List.zip, List.map_zipWith, List.map_zipWith]
    _ = frame.coefficients.toList := List.map_fst_zip hlength

/-- The coefficients that every frame with coefficients writes. -/
theorem mapM_takeField_lower {frame : Frame}
    (hfits : ∀ field ∈ frame.coefficientFields.take 4, field.Fits) (rest : List Bool) :
    [5, 5, 4, 4].mapM takeField (written (frame.coefficientFields.take 4) ++ rest) =
      some (frame.coefficients.toList.take 4, rest) := by
  have htaken := mapM_takeField_written hfits rest
  rwa [List.map_take, List.map_take, map_width_coefficientFields,
    map_value_coefficientFields] at htaken

/-- The coefficients that only a frame with a pitch writes. -/
theorem mapM_takeField_upper {frame : Frame}
    (hfits : ∀ field ∈ frame.coefficientFields.drop 4, field.Fits) (rest : List Bool) :
    [4, 4, 4, 3, 3, 3].mapM takeField (written (frame.coefficientFields.drop 4) ++ rest) =
      some (frame.coefficients.toList.drop 4, rest) := by
  have htaken := mapM_takeField_written hfits rest
  rwa [List.map_drop, List.map_drop, map_width_coefficientFields,
    map_value_coefficientFields] at htaken

theorem takeCoefficients_unvoiced {frame : Frame} (hpitch : frame.pitch = 0)
    (hfits : ∀ field ∈ frame.coefficientFields.take 4, field.Fits) (rest : List Bool) :
    takeCoefficients frame.energy frame.pitch
        (written (frame.coefficientFields.take 4) ++ rest) =
      some (.unvoiced frame.energy (frame.coefficients.toList.take 4), rest) := by
  rw [takeCoefficients, bind_eq_of_eq_some (mapM_takeField_lower hfits rest), if_pos hpitch]
  rfl

theorem takeCoefficients_voiced {frame : Frame} (hpitch : frame.pitch ≠ 0)
    (hfits : ∀ field ∈ frame.coefficientFields, field.Fits) (rest : List Bool) :
    takeCoefficients frame.energy frame.pitch (written frame.coefficientFields ++ rest) =
      some (.voiced frame.energy frame.pitch frame.coefficients.toList, rest) := by
  have hsplit : written frame.coefficientFields ++ rest =
      written (frame.coefficientFields.take 4) ++
        (written (frame.coefficientFields.drop 4) ++ rest) := by
    rw [← List.append_assoc, ← written_append, List.take_append_drop]
  rw [hsplit, takeCoefficients,
    bind_eq_of_eq_some (mapM_takeField_lower (fun _ hmem => hfits _ (List.mem_of_mem_take hmem)) _),
    if_neg hpitch,
    bind_eq_of_eq_some (mapM_takeField_upper (fun _ hmem => hfits _ (List.mem_of_mem_drop hmem)) _),
    List.take_append_drop]
  rfl

/-- The fields of a frame, each group of them behind the one that decides on it. -/
theorem Frame.fields_eq (frame : Frame) :
    frame.fields = ⟨.energy, frame.energy, 4⟩ ::
      if frame.energy = 0 then [] else
        ⟨.repeated, frame.repeated.toUInt8, 1⟩ :: ⟨.pitch, frame.pitch, 6⟩ ::
          if frame.repeated then [] else
            if frame.pitch = 0 then frame.coefficientFields.take 4 else frame.coefficientFields := by
  unfold Frame.fields silentEnergy unvoicedCoefficients
  split_ifs <;> rfl

/-- A frame that was written is taken back as the sound of it. -/
theorem takeFrame_written {frame : Frame} (hwritable : frame.Writable) (rest : List Bool) :
    takeFrame (written frame.fields ++ rest) = some (some frame.sound, rest) := by
  obtain ⟨hstop, hfits⟩ := hwritable
  rw [frame.fields_eq] at hfits ⊢
  obtain ⟨henergy, hfits⟩ := List.forall_mem_cons.mp hfits
  rw [written_cons, List.append_assoc, takeFrame, bind_eq_of_eq_some (takeField_bitsOf henergy _),
    if_neg hstop, Frame.sound]
  by_cases hsilent : frame.energy = 0
  · rw [if_pos hsilent, if_pos hsilent, if_pos hsilent]
    rfl
  rw [if_neg hsilent] at hfits
  rw [if_neg hsilent, if_neg hsilent, if_neg hsilent]
  obtain ⟨hflag, hfits⟩ := List.forall_mem_cons.mp hfits
  obtain ⟨hpitch, hfits⟩ := List.forall_mem_cons.mp hfits
  rw [written_cons, written_cons, List.append_assoc, List.append_assoc,
    bind_eq_of_eq_some (takeField_bitsOf hflag _), bind_eq_of_eq_some (takeField_bitsOf hpitch _)]
  have hone : frame.repeated.toUInt8 = 1 ↔ frame.repeated = true := by
    cases frame.repeated <;> decide
  by_cases hrepeated : frame.repeated = true
  · rw [if_pos hrepeated, if_pos hrepeated, if_pos (hone.mpr hrepeated)]
    rfl
  rw [if_neg hrepeated] at hfits
  rw [if_neg hrepeated, if_neg hrepeated, if_neg (mt hone.mp hrepeated)]
  by_cases hvoice : frame.pitch = 0
  · rw [if_pos hvoice] at hfits
    rw [if_pos hvoice, if_pos hvoice]
    exact bind_eq_of_eq_some (takeCoefficients_unvoiced hvoice hfits rest)
  · rw [if_neg hvoice] at hfits
    rw [if_neg hvoice, if_neg hvoice]
    exact bind_eq_of_eq_some (takeCoefficients_voiced hvoice hfits rest)

/-! ## Words -/

theorem listenBits_of_stop {bits rest : List Bool} (htaken : takeFrame bits = some (none, rest)) :
    listenBits bits = some ([], rest) := by
  rw [listenBits]
  split <;> simp_all

theorem listenBits_of_sound {bits rest behind : List Bool} {sound : Sound} {sounds : List Sound}
    (htaken : takeFrame bits = some (some sound, rest))
    (hrest : listenBits rest = some (sounds, behind)) :
    listenBits bits = some (sound :: sounds, behind) := by
  rw [listenBits]
  split <;> simp_all

/-- The stop code behind the last frame is where listening ends. -/
theorem listenBits_written {frames : List Frame} (hwritable : ∀ frame ∈ frames, frame.Writable)
    (rest : List Bool) :
    listenBits (frames.flatMap (fun frame => written frame.fields) ++ (stopBits ++ rest)) =
      some (frames.map Frame.sound, rest) := by
  induction frames with
  | nil =>
      refine listenBits_of_stop ?_
      have hfits : (15 : UInt8).toNat < 1 <<< 4 := by decide
      have henergy : takeField 4 (stopBits ++ rest) = some (15, rest) := takeField_bitsOf hfits rest
      rw [List.flatMap_nil, List.nil_append, takeFrame, bind_eq_of_eq_some henergy]
      rfl
  | cons frame frames ih =>
      obtain ⟨hframe, hframes⟩ := List.forall_mem_cons.mp hwritable
      rw [List.flatMap_cons, List.append_assoc]
      exact listenBits_of_sound (takeFrame_written hframe _) (ih hframes)

theorem encodeFrames_eq_ok_iff {frames : List Frame} {data : List UInt8} :
    encodeFrames frames = .ok data ↔
      (∀ frame ∈ frames.filter fun frame => !frame.last, frame.Writable) ∧
        bytesOfBits ((frames.filter fun frame => !frame.last).flatMap
          (fun frame => written frame.fields) ++ stopBits) = data := by
  rw [encodeFrames, bind_eq_ok_iff]
  constructor
  · rintro ⟨rows, hrows, hdata⟩
    obtain ⟨hwritable, rfl⟩ := (mapM_eq_ok_iff_map frameBits_eq_ok_iff).mp hrows
    cases hdata
    exact ⟨hwritable, by rw [List.flatMap_def]⟩
  · rintro ⟨hwritable, rfl⟩
    exact ⟨_, (mapM_eq_ok_iff_map frameBits_eq_ok_iff).mpr ⟨hwritable, rfl⟩,
      by rw [List.flatMap_def]; rfl⟩

/-! ## Bytes -/

theorem bitsOfBytes_cons (byte : UInt8) (rest : List UInt8) :
    bitsOfBytes (byte :: rest) = (List.range 8).map byte.toNat.testBit ++ bitsOfBytes rest :=
  List.flatMap_cons

theorem bitsOfBytes_append (bytes rest : List UInt8) :
    bitsOfBytes (bytes ++ rest) = bitsOfBytes bytes ++ bitsOfBytes rest := List.flatMap_append

theorem testBit_valueOfBits (bits : List Bool) (i : Nat) :
    (valueOfBits bits).testBit i = bits[i]?.getD false := by
  induction bits generalizing i with
  | nil => simp [valueOfBits]
  | cons bit rest ih =>
      have hlow : bit.toNat < 2 := Bool.toNat_lt bit
      cases i with
      | zero =>
          rw [valueOfBits, Nat.testBit_zero, Nat.add_mul_mod_self_left, Nat.mod_eq_of_lt hlow]
          cases bit <;> rfl
      | succ i =>
          have hhalf : (bit.toNat + 2 * valueOfBits rest) / 2 = valueOfBits rest := by omega
          rw [valueOfBits, Nat.testBit_succ, hhalf, ih, List.getElem?_cons_succ]

/-- A byte that was filled with bits gives them back, with zeros for those that are missing. -/
theorem map_testBit_valueOfBits {bits : List Bool} (hlength : bits.length ≤ 8) :
    (List.range 8).map (UInt8.ofNat (valueOfBits bits)).toNat.testBit =
      bits ++ List.replicate (8 - bits.length) false := by
  have hlt : valueOfBits bits < UInt8.size := by
    refine Nat.lt_of_lt_of_le (valueOfBits_lt bits) ?_
    rw [Nat.one_shiftLeft]
    exact Nat.pow_le_pow_right (by decide) hlength
  rw [UInt8.toNat_ofNat_of_lt' hlt]
  refine List.ext_getElem ?_ fun i hleft hright => ?_
  · rw [List.length_map, List.length_range, List.length_append, List.length_replicate]
    omega
  · rw [List.getElem_map, List.getElem_range, testBit_valueOfBits]
    by_cases hi : i < bits.length
    · rw [List.getElem_append_left hi, List.getElem?_eq_getElem hi, Option.getD_some]
    · have hbehind : bits.length ≤ i := Nat.le_of_not_lt hi
      rw [List.getElem_append_right hbehind, List.getElem_replicate,
        List.getElem?_eq_none hbehind, Option.getD_none]

/-- Bytes that were filled with bits give them back, with zeros up to the end of the last byte. -/
theorem bitsOfBytes_bytesOfBits (bits : List Bool) :
    bitsOfBytes (bytesOfBits bits) =
      bits ++ List.replicate (8 * (bytesOfBits bits).length - bits.length) false := by
  by_cases hempty : bits = []
  · subst hempty
    rfl
  have htake : (bits.take 8).length ≤ 8 := List.length_take_le 8 bits
  rw [bytesOfBits_of_ne_nil hempty, bitsOfBytes_cons, map_testBit_valueOfBits htake,
    bitsOfBytes_bytesOfBits (bits.drop 8)]
  rcases Nat.le_total bits.length 8 with hshort | hlong
  -- the only byte may have room left
  · rw [List.drop_eq_nil_of_le hshort, List.take_of_length_le hshort]
    simp [bytesOfBits]
  · have hfull : (bits.take 8).length = 8 := List.length_take_of_le hlong
    have hpadding : 8 * (bytesOfBits (bits.drop 8)).length - (bits.length - 8) =
        8 * ((bytesOfBits (bits.drop 8)).length + 1) - bits.length := by omega
    rw [hfull, Nat.sub_self, List.replicate_zero, List.append_nil, ← List.append_assoc,
      List.take_append_drop, List.length_drop, List.length_cons, hpadding]
termination_by bits.length
decreasing_by
  have hpos : 0 < bits.length := List.length_pos_iff.mpr hempty
  rw [List.length_drop]
  omega

/-! ## The main statement -/

/-- The bits of the data of a word: what the frames write, the stop code, and zeros up to the end of
the last byte. -/
theorem bitsOfBytes_of_encodeFrames {frames : List Frame} {data : List UInt8}
    (hencode : encodeFrames frames = .ok data) :
    ∃ spoken room, 8 * data.length = spoken.length + 4 + room ∧ room < 8 ∧
      bitsOfBytes data = spoken ++ (stopBits ++ List.replicate room false) ∧
      ∀ rest, listenBits (spoken ++ (stopBits ++ rest)) =
        some ((frames.filter fun frame => !frame.last).map Frame.sound, rest) := by
  obtain ⟨hwritable, rfl⟩ := encodeFrames_eq_ok_iff.mp hencode
  have hheard := listenBits_written hwritable
  generalize (frames.filter fun frame => !frame.last).flatMap
    (fun frame => written frame.fields) = spoken at hheard ⊢
  have hcount : (spoken ++ stopBits).length = spoken.length + 4 := List.length_append
  have hlength := length_bytesOfBits (spoken ++ stopBits)
  have hbits := bitsOfBytes_bytesOfBits (spoken ++ stopBits)
  rw [List.append_assoc] at hbits
  exact ⟨spoken, _, by omega, by omega, hbits, hheard⟩

/-- **From the data of a word its frames are heard again**, without the closing ones and each as far
as it was written, whatever stands behind the data.  Listening ends with the stop code, whose last
bit lies in the last byte of the data; the bits of the data behind it are zeros. -/
theorem listen_encodeFrames {frames : List Frame} {data : List UInt8}
    (hencode : encodeFrames frames = .ok data) :
    data ≠ [] ∧ ∃ stop, 8 * (data.length - 1) < stop ∧ stop ≤ 8 * data.length ∧
      (∀ rest, listen (data ++ rest) =
        some ((frames.filter fun frame => !frame.last).map Frame.sound,
          (bitsOfBytes (data ++ rest)).drop stop)) ∧
      ((bitsOfBytes data).take stop).drop (stop - 4) = [true, true, true, true] ∧
      ∀ bit ∈ (bitsOfBytes data).drop stop, bit = false := by
  obtain ⟨spoken, room, hlength, hroom, hbits, hheard⟩ := bitsOfBytes_of_encodeFrames hencode
  have hcount : (spoken ++ stopBits).length = spoken.length + 4 := List.length_append
  have hbehind (behind : List Bool) :
      (spoken ++ (stopBits ++ behind)).drop (spoken.length + 4) = behind := by
    rw [← List.append_assoc, List.drop_left' hcount]
  refine ⟨?_, spoken.length + 4, by omega, by omega, fun rest => ?_, ?_, ?_⟩
  · rintro rfl
    rw [List.length_nil] at hlength
    omega
  · have hwhole : bitsOfBytes (data ++ rest) =
        spoken ++ (stopBits ++ (List.replicate room false ++ bitsOfBytes rest)) := by
      rw [bitsOfBytes_append, hbits, List.append_assoc, List.append_assoc]
    rw [listen, hwhole, hheard, hbehind]
  · rw [hbits, ← List.append_assoc, List.take_left' hcount, Nat.add_sub_cancel, List.drop_left]
    rfl
  · intro bit hbit
    rw [hbits, hbehind] at hbit
    exact List.eq_of_mem_replicate hbit

/-- A frame of every shape, and a closing one. -/
def mixedFrames : List Frame :=
  [.silent, .unvoiced 2 #v[1, 2, 3, 4], .voiced 9 20 #v[31, 30, 15, 14, 13, 12, 11, 7, 6, 5],
    .repetition 1 3, { Frame.silent with last := true }]

/-- The frames start at bits 0, 4, 33 and 83, and the stop code lies across two bytes. -/
theorem listen_encodeFrames_mixed :
    ∃ data, encodeFrames mixedFrames = .ok data ∧ data.length = 13 ∧
      ∀ rest, ∃ behind, listen (data ++ rest) =
        some ([.silent, .unvoiced 2 [1, 2, 3, 4],
          .voiced 9 20 [31, 30, 15, 14, 13, 12, 11, 7, 6, 5], .repetition 1 3], behind) := by
  obtain ⟨data, hencode, hlength⟩ :
      ∃ data, encodeFrames mixedFrames = .ok data ∧ data.length = 13 := ⟨_, rfl, rfl⟩
  obtain ⟨_, stop, _, _, hlisten, _⟩ := listen_encodeFrames hencode
  exact ⟨data, hencode, hlength, fun rest => ⟨_, hlisten rest⟩⟩

end SpeechRom.Lpc
