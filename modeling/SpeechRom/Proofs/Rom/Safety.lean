import SpeechRom.Proofs.Rom.Decoding
import SpeechRom.Proofs.Rom.Playing

/-!
# Any image can be read and played safely

An image may come from anywhere: records may overlap, directories may point into the
header or into other records, and banks may ask for one another at will.  `Bare` reads
and plays an image without any promise.  It asks for a byte wherever the walk arrives,
asks for a choice among as many as there are, and goes on for as many steps as it is
granted, and each way to go wrong has an outcome of its own.

No walk ever goes wrong in one of these ways.  All that happens is an answer or a
defect, the same as with the reader whose accesses carry their proofs, and the words
that are played lie in the speech data (`safe_of_open`).

## Strategy

The bytes of a record are covered by the one check of its length (`record_eq`), so a
bare function agrees with its counterpart as soon as the functions it calls do.  The
steps last because decoding moves forward with every bank and playing puts a new bank
on its trail with every call.
-/

namespace SpeechRom.Rom

/-! ## Reading without any promise -/

/-- How a walk through an image can end without an answer. -/
inductive Mishap where
  /-- The image is refused. -/
  | defect (defect : Defect)
  /-- A byte is asked for where the image has none. -/
  | outside (position : Nat)
  /-- A choice among nothing is asked for. -/
  | noChoice
  /-- The steps that were granted are used up. -/
  | outOfSteps
  deriving DecidableEq, Repr

/-- An answer or a defect, as the outcome of a walk. -/
def settled {α : Type} (result : Except Defect α) : Except Mishap α := result.mapError .defect

namespace Bare

/-- The byte at a position, wherever that is. -/
def byteAt (image : Array UInt8) (position : Nat) : Except Mishap UInt8 :=
  match image[position]? with
  | some byte => .ok byte
  | none => .error (.outside position)

/-- The address at a position, the low byte first. -/
def pointerAt (image : Array UInt8) (position : Nat) : Except Mishap UInt16 := do
  let low ← byteAt image position
  let high ← byteAt image (position + 1)
  return UInt16.ofNat (low.toNat + 256 * high.toNat)

/-- The addresses of a counted record. -/
def record (reader : Reader) (kind : RecordKind) (offset : UInt16) :
    Except Mishap (List UInt16) := do
  if offset.toNat < reader.image.size then
    let count ← byteAt reader.image offset.toNat
    if offset.toNat + 1 + count.toNat * pointerSize ≤ reader.image.size then
      (List.range count.toNat).mapM fun i =>
        pointerAt reader.image (offset.toNat + 1 + i * pointerSize)
    else throw (.defect (.recordCut kind offset))
  else throw (.defect (.recordOutside kind offset))

/-- The bank record at an address. -/
def readBank (reader : Reader) (offset : UInt16) : Except Mishap BankRecord := do
  let phrases ← record reader .bank offset
  if hpopulated : 0 < phrases.length then return ⟨offset, phrases, hpopulated⟩
  else throw (.defect (.bankEmpty offset))

/-- The phrase record at an address. -/
def readPhrase (reader : Reader) (offset : UInt16) : Except Mishap PhraseRecord := do
  let tokens ← record reader .phrase offset
  return ⟨offset, tokens⟩

/-- What a token points at, if a player can follow it. -/
def target (reader : Reader) (pointer : UInt16) : Except Mishap Target :=
  if pointer.toNat < headerSize then .error (.defect (.tokenIntoHeader pointer))
  else if reader.image.size ≤ pointer.toNat then .error (.defect (.tokenOutside pointer))
  else .ok (reader.targetOf pointer)

/-- Decode the phrases of a directory from a position on. -/
def phrasesFrom (reader : Reader) : (position : Nat) → List UInt16 →
    Except Mishap (List PhraseRecord × Nat)
  | position, [] => return ([], position)
  | position, pointer :: rest => do
    if pointer.toNat ≠ position then throw (.defect (.phraseMisplaced pointer position))
    let phrase ← readPhrase reader pointer
    let _ ← phrase.tokens.mapM (target reader)
    let (others, regionEnd) ←
      phrasesFrom reader (position + phraseRecordSize phrase.tokens.length) rest
    return (phrase :: others, regionEnd)

/-- Decode banks from a position up to the speech data, one with every step. -/
def banksFrom (reader : Reader) (steps position : Nat) :
    Except Mishap (List DecodedBank × Nat) := do
  if position < reader.speechStart.toNat then
    match steps with
    | 0 => throw .outOfSteps
    | steps + 1 =>
      let bank ← readBank reader (UInt16.ofNat position)
      let (phrases, next) ←
        phrasesFrom reader (position + bankRecordSize bank.phrases.length) bank.phrases
      let (others, regionEnd) ← banksFrom reader steps next
      return (⟨bank, phrases⟩ :: others, regionEnd)
  else return ([], position)

/-- Decode every bank, in the order of the image. -/
def decode (reader : Reader) (steps : Nat) : Except Mishap (List DecodedBank) := do
  let (banks, regionEnd) ← banksFrom reader steps headerSize
  if regionEnd ≠ reader.speechStart.toNat then
    throw (.defect (.regionMisfit regionEnd reader.speechStart))
  if !(banks.map (·.record.offset)).contains reader.primary then
    throw (.defect (.primaryNoBank reader.primary))
  match reader.strayToken? banks with
  | some (phrase, token) => throw (.defect (.tokenNoBank phrase token))
  | none => return banks

variable {σ : Type}

/-- Take a choice among `count`, whatever the count. -/
def draw (source : ChoiceSource σ) (count : Nat) : Attempt Mishap σ (Fin count) :=
  if hcount : 0 < count then source.draw count hcount else throw .noChoice

/-- Play a phrase of the bank at an offset, one level of banks with every step. -/
def playBank (reader : Reader) (source : ChoiceSource σ) : (steps : Nat) →
    (active : List UInt16) → UInt16 → Attempt Mishap σ (List UInt16)
  | 0, _, _ => throw .outOfSteps
  | steps + 1, active, offset =>
    if offset ∈ active then throw (.defect (.bankWithinItself offset))
    else do
      let bank ← Attempt.ofExcept (readBank reader offset)
      let choice ← draw source bank.phrases.length
      let phrase ← Attempt.ofExcept (readPhrase reader (bank.phrases.get choice))
      let parts ← phrase.tokens.mapM fun token => do
        match ← Attempt.ofExcept (target reader token) with
        | .word pointer => return [pointer]
        | .bank nested => playBank reader source steps (offset :: active) nested
      return parts.flatten

/-- Play a phrase of the primary bank. -/
def play (reader : Reader) (source : ChoiceSource σ) (steps : Nat) :
    Attempt Mishap σ (List UInt16) :=
  playBank reader source steps [] reader.primary

end Bare

/-! ## Results that are settled -/

section Settled

variable {α β : Type}

theorem settled_bind {result : Except Defect α} {next : α → Except Defect β}
    {bare : α → Except Mishap β} (hnext : ∀ a, result = .ok a → bare a = settled (next a)) :
    settled result >>= bare = settled (result >>= next) := by
  cases result with
  | error defect => rfl
  | ok a => exact hnext a rfl

theorem settled_mapM {f : α → Except Defect β} {bare : α → Except Mishap β}
    (hstep : ∀ a, bare a = settled (f a)) (inputs : List α) :
    inputs.mapM bare = settled (inputs.mapM f) := by
  induction inputs with
  | nil => rfl
  | cons input rest ih =>
      rw [List.mapM_cons, List.mapM_cons, hstep, ih]
      exact settled_bind fun answer _ => settled_bind fun answers _ => rfl

end Settled

namespace Bare

variable {reader : Reader}

/-! ## Records -/

theorem byteAt_eq {image : Array UInt8} {position : Nat} (hin : position < image.size) :
    byteAt image position = .ok image[position] := by
  rw [byteAt, Array.getElem?_eq_getElem hin]

theorem pointerAt_eq {image : Array UInt8} {position : Nat} (hin : position + 1 < image.size) :
    pointerAt image position = .ok (Rom.pointerAt image position hin) := by
  rw [pointerAt, byteAt_eq (Nat.lt_of_succ_lt hin), byteAt_eq hin]
  rfl

/-- **No byte outside the image is asked for**, since a record is checked for its length first. -/
theorem record_eq (kind : RecordKind) (offset : UInt16) :
    record reader kind offset = settled (reader.record kind offset) := by
  unfold record Reader.record
  by_cases hcount : offset.toNat < reader.image.size
  · rw [if_pos hcount, dif_pos hcount, byteAt_eq hcount]
    change (if _ then _ else _) = settled (if _ : _ then _ else _)
    by_cases hend : offset.toNat + 1 + reader.image[offset.toNat].toNat * pointerSize ≤
        reader.image.size
    · rw [if_pos hend, dif_pos hend]
      refine mapM_eq_ok_iff.mpr (List.forall₂_iff_get.mpr ⟨by simp, fun i hleft hright => ?_⟩)
      have hi : i < reader.image[offset.toNat].toNat := by simpa using hleft
      have hin : offset.toNat + 1 + i * pointerSize + 1 < reader.image.size := by
        rw [pointerSize] at hend ⊢
        omega
      simpa using pointerAt_eq hin
    · rw [if_neg hend, dif_neg hend]
      rfl
  · rw [if_neg hcount, dif_neg hcount]
    rfl

theorem readBank_eq (offset : UInt16) :
    readBank reader offset = settled (reader.readBank offset) := by
  rw [readBank, Reader.readBank, record_eq]
  refine settled_bind fun phrases _ => ?_
  by_cases hpopulated : 0 < phrases.length
  · rw [dif_pos hpopulated, dif_pos hpopulated]
    rfl
  · rw [dif_neg hpopulated, dif_neg hpopulated]
    rfl

theorem readPhrase_eq (offset : UInt16) :
    readPhrase reader offset = settled (reader.readPhrase offset) := by
  rw [readPhrase, Reader.readPhrase, record_eq]
  exact settled_bind fun tokens _ => rfl

theorem target_eq (pointer : UInt16) :
    target reader pointer = settled (reader.target pointer) := by
  unfold target Reader.target
  by_cases hheader : pointer.toNat < headerSize
  · rw [if_pos hheader, if_pos hheader]
    rfl
  · rw [if_neg hheader, if_neg hheader]
    by_cases himage : pointer.toNat < reader.image.size
    · rw [if_neg (Nat.not_le_of_lt himage), if_pos himage]
      rfl
    · rw [if_pos (Nat.le_of_not_lt himage), if_neg himage]
      rfl

/-! ## Decoding -/

theorem phrasesFrom_eq (position : Nat) (directory : List UInt16) :
    phrasesFrom reader position directory = settled (reader.phrasesFrom position directory) := by
  induction directory generalizing position with
  | nil => rfl
  | cons pointer rest ih =>
      rw [phrasesFrom, Reader.phrasesFrom]
      by_cases hpointer : pointer.toNat = position
      · rw [if_neg (not_not.mpr hpointer), if_neg (not_not.mpr hpointer), readPhrase_eq]
        refine settled_bind fun phrase _ => ?_
        rw [settled_mapM target_eq]
        refine settled_bind fun _ _ => ?_
        rw [ih]
        exact settled_bind fun _ _ => rfl
      · rw [if_pos hpointer, if_pos hpointer]
        rfl

/-- **Decoding ends**: with every bank it moves forward, so it takes no more steps than the
speech data is far. -/
theorem banksFrom_eq {steps fuel position : Nat}
    (hsteps : reader.speechStart.toNat ≤ position + steps)
    (hfuel : reader.speechStart.toNat ≤ position + fuel) :
    banksFrom reader steps position = settled (reader.banksFrom fuel position) := by
  induction steps generalizing fuel position with
  | zero =>
      have hended : ¬position < reader.speechStart.toNat := by omega
      rw [banksFrom, if_neg hended]
      cases fuel with
      | zero => rfl
      | succ fuel =>
          rw [Reader.banksFrom, if_neg hended]
          rfl
  | succ steps ih =>
      rw [banksFrom]
      by_cases hbefore : position < reader.speechStart.toNat
      · obtain ⟨fuel, rfl⟩ : ∃ less, fuel = less + 1 := ⟨fuel - 1, by omega⟩
        rw [Reader.banksFrom, if_pos hbefore, if_pos hbefore]
        dsimp only
        rw [readBank_eq]
        refine settled_bind fun bank _ => ?_
        rw [phrasesFrom_eq]
        refine settled_bind ?_
        rintro ⟨phrases, next⟩ hphrases
        obtain ⟨_, _, hnext⟩ := Reader.phrasesFrom_eq_ok_iff.mp hphrases
        have hforward : position < next := by
          rw [hnext, bankRecordSize]
          omega
        dsimp only
        have hrest : banksFrom reader steps next = settled (reader.banksFrom fuel next) :=
          ih (by omega) (by omega)
        rw [hrest]
        exact settled_bind fun _ _ => rfl
      · rw [if_neg hbefore]
        cases fuel with
        | zero => rfl
        | succ fuel =>
            rw [Reader.banksFrom, if_neg hbefore]
            rfl

theorem decode_eq {steps : Nat} (hsteps : reader.speechStart.toNat ≤ steps) :
    decode reader steps = settled reader.decode := by
  have hbanks : banksFrom reader steps headerSize =
      settled (reader.banksFrom reader.speechStart.toNat headerSize) :=
    banksFrom_eq (by omega) (by omega)
  rw [decode, Reader.decode, hbanks]
  refine settled_bind ?_
  rintro ⟨banks, regionEnd⟩ _
  dsimp only
  by_cases hregion : regionEnd = reader.speechStart.toNat
  · rw [if_neg (not_not.mpr hregion), if_neg (not_not.mpr hregion)]
    cases (banks.map (·.record.offset)).contains reader.primary with
    | false => rfl
    | true => cases reader.strayToken? banks <;> rfl
  · rw [if_pos hregion, if_pos hregion]
    rfl

/-! ## Playing -/

/-- The bare walk has met the defect that the other one has met, and nothing worse. -/
def Settles (mishap : Mishap) (defect : Defect) : Prop := mishap = .defect defect

/-- Both walks play the same pointers, and these lie in the speech data. -/
def SameWords (reader : Reader) (bare pointers : List UInt16) : Prop :=
  bare = pointers ∧ ∀ pointer ∈ pointers,
    reader.speechStart.toNat ≤ pointer.toNat ∧ pointer.toNat < reader.image.size

theorem SameWords.flatten {bares parts : List (List UInt16)}
    (hall : List.Forall₂ (SameWords reader) bares parts) :
    SameWords reader bares.flatten parts.flatten := by
  induction hall with
  | nil => exact ⟨rfl, fun _ hmem => absurd hmem List.not_mem_nil⟩
  | cons hhead _ ih =>
      obtain ⟨rfl, hfirst⟩ := hhead
      obtain ⟨hrest, hothers⟩ := ih
      rw [List.flatten_cons, List.flatten_cons, hrest]
      exact ⟨rfl, List.forall_mem_append.mpr ⟨hfirst, hothers⟩⟩

variable {σ : Type} {source : ChoiceSource σ}

theorem inStep_ofExcept {α : Type} (result : Except Defect α) :
    Attempt.InStep (fun bare a => bare = a ∧ result = .ok a) Settles
      (Attempt.ofExcept (settled result) : Attempt Mishap σ α) (Attempt.ofExcept result) := by
  intro state
  cases result with
  | error defect => exact .error rfl
  | ok a => exact .ok ⟨rfl, rfl⟩

/-- What one pointer leads to, on the bare walk. -/
def playToken (reader : Reader) (source : ChoiceSource σ) (steps : Nat) (active : List UInt16)
    (token : UInt16) : Attempt Mishap σ (List UInt16) := do
  match ← Attempt.ofExcept (target reader token) with
  | .word pointer => return [pointer]
  | .bank nested => playBank reader source steps active nested

/-- A token that leads to a bank leads in front of the speech data; all others are words in it. -/
theorem inStep_playToken {steps fuel : Nat} {active : List UInt16}
    (hnested : ∀ next : UInt16, next.toNat < reader.speechStart.toNat →
      Attempt.InStep (SameWords reader) Settles (playBank reader source steps active next)
        (reader.playBank source fuel active next))
    (token : UInt16) :
    Attempt.InStep (SameWords reader) Settles (playToken reader source steps active token)
      (reader.playToken source fuel active token) := by
  rw [playToken, Reader.playToken, target_eq]
  refine (inStep_ofExcept _).bind ?_
  rintro bare target ⟨rfl, htarget⟩
  obtain ⟨hfollows, rfl⟩ := Reader.target_eq_ok_iff.mp htarget
  by_cases hbank : token.toNat < reader.speechStart.toNat
  · rw [Reader.targetOf, if_pos hbank]
    exact hnested token hbank
  · rw [Reader.targetOf, if_neg hbank]
    refine .pure ⟨rfl, ?_⟩
    rw [List.forall_mem_singleton]
    exact ⟨Nat.le_of_not_lt hbank, hfollows.2⟩

/-- **Playing ends, and no choice is asked for among nothing.**  On a trail, with steps and fuel
that the trail cannot use up, both walks take the same turns. -/
theorem inStep_playBank {steps fuel : Nat} {active : List UInt16} {offset : UInt16}
    (htrail : reader.Trail active) (hbefore : offset.toNat < reader.speechStart.toNat)
    (hsteps : reader.speechStart.toNat < steps + active.length)
    (hfuel : reader.speechStart.toNat < fuel + active.length) :
    Attempt.InStep (SameWords reader) Settles (playBank reader source steps active offset)
      (reader.playBank source fuel active offset) := by
  induction steps generalizing fuel active offset with
  | zero =>
      -- a trail this long would hold more offsets than there are in front of the speech data
      have hlength := htrail.length_le
      omega
  | succ steps ih =>
      have hlength := htrail.length_le
      obtain ⟨fuel, rfl⟩ : ∃ less, fuel = less + 1 := ⟨fuel - 1, by omega⟩
      rw [playBank, Reader.playBank]
      by_cases hnew : offset ∈ active
      · rw [if_pos hnew, if_pos hnew]
        exact .throw rfl
      rw [if_neg hnew, if_neg hnew, readBank_eq]
      refine (inStep_ofExcept _).bind ?_
      rintro bare bank ⟨rfl, _⟩
      rw [draw, dif_pos bare.populated]
      refine (Attempt.InStep.draw source _ _ rfl).bind fun choice place hsame => ?_
      obtain rfl : choice = place := Fin.ext hsame
      rw [readPhrase_eq]
      refine (inStep_ofExcept _).bind ?_
      rintro bare phrase ⟨rfl, _⟩
      refine Attempt.InStep.bind (R := List.Forall₂ (SameWords reader)) ?_
        fun _ _ hparts => .pure (SameWords.flatten hparts)
      refine Attempt.InStep.mapM (P := Eq) (List.forall₂_same.mpr fun _ _ => rfl) ?_
      rintro token _ _ rfl
      have hcount : (offset :: active).length = active.length + 1 := List.length_cons
      exact inStep_playToken (fun next hnext =>
        ih (htrail.cons hnew hbefore) hnext (by omega) (by omega)) token

end Bare

/-! ## The main statement -/

/-- **Any image can be read and played safely.**  Whatever bytes follow a header that makes sense,
every bare walk ends, and it ends with an answer or a defect, the same as with the reader; so it
asks for no byte outside the image and for no choice among nothing.  The pointers that are played
lie in the speech data. -/
theorem safe_of_open {bytes : List UInt8} {reader : Reader}
    (hopen : Reader.open? bytes = .ok reader) :
    (∀ offset, Bare.readBank reader offset = settled (reader.readBank offset)) ∧
      (∀ offset, Bare.readPhrase reader offset = settled (reader.readPhrase offset)) ∧
      (∀ pointer, Bare.target reader pointer = settled (reader.target pointer)) ∧
      (∀ steps, reader.speechStart.toNat ≤ steps →
        Bare.decode reader steps = settled reader.decode) ∧
      ∀ (σ : Type) (source : ChoiceSource σ) (steps : Nat), reader.speechStart.toNat < steps →
        ∀ state, ∃ outcome after,
          (Bare.play reader source steps).runFrom state = (settled outcome, after) ∧
          (reader.play source).runFrom state = (outcome, after) ∧
          ∀ pointers, outcome = .ok pointers → ∀ pointer ∈ pointers,
            reader.speechStart.toNat ≤ pointer.toNat ∧ pointer.toNat < bytes.length := by
  refine ⟨Bare.readBank_eq, Bare.readPhrase_eq, Bare.target_eq, fun _ => Bare.decode_eq, ?_⟩
  intro σ source steps hsteps state
  obtain ⟨himage, _⟩ := Reader.open?_eq_ok_iff.mp hopen
  have hsize : reader.image.size = bytes.length := by rw [himage, List.size_toArray]
  have halike : Attempt.Alike (Bare.SameWords reader) Bare.Settles
      ((Bare.play reader source steps).runFrom state) ((reader.play source).runFrom state) :=
    Bare.inStep_playBank (Reader.Trail.nil reader) reader.primary_lt_speechStart hsteps
      (Nat.lt_succ_self _) state
  generalize (Bare.play reader source steps).runFrom state = bare at halike ⊢
  generalize (reader.play source).runFrom state = outcome at halike ⊢
  cases halike with
  | error hmishap =>
      cases hmishap
      exact ⟨_, _, rfl, rfl, fun _ heq => by cases heq⟩
  | ok hwords =>
      obtain ⟨rfl, hspeech⟩ := hwords
      refine ⟨_, _, rfl, rfl, fun pointers heq => ?_⟩
      cases heq
      rw [← hsize]
      exact hspeech

/-- An image that no pack is linked to: its one phrase stands in the speech data and speaks its own
second byte. -/
def strayBytes : List UInt8 := [7, 0, 4, 0, 1, 7, 0, 1, 8, 0]

/-- A source that always takes the first choice and counts. -/
def counting : ChoiceSource Nat where
  choose _ hcount state := (⟨0, hcount⟩, state + 1)

/-- The image does not decode, and yet it can be played. -/
theorem safe_of_open_stray :
    ∃ reader, Reader.open? strayBytes = .ok reader ∧
      Bare.decode reader 7 = .error (.defect (.regionMisfit 10 7)) ∧
      (Bare.play reader counting 8).runFrom 0 = (.ok [8], 1) := by
  obtain ⟨reader, hopen, hstart, hdecode, hplay⟩ : ∃ reader,
      Reader.open? strayBytes = .ok reader ∧ reader.speechStart.toNat = 7 ∧
        reader.decode = .error (.regionMisfit 10 7) ∧
        (reader.play counting).runFrom 0 = (.ok [8], 1) := ⟨_, rfl, rfl, rfl, rfl⟩
  obtain ⟨_, _, _, hsteps, hwalk⟩ := safe_of_open hopen
  refine ⟨reader, hopen, ?_, ?_⟩
  · rw [hsteps 7 (Nat.le_of_eq hstart), hdecode]
    rfl
  · obtain ⟨outcome, after, hbare, hsame, _⟩ :=
      hwalk Nat counting 8 (hstart ▸ Nat.lt_succ_self 7) 0
    rw [hbare]
    rw [hplay] at hsame
    cases hsame
    rfl

end SpeechRom.Rom
