import Mathlib.Algebra.GroupWithZero.Nat
import Mathlib.Data.List.Perm.Basic
import SpeechRom.Proofs.Attempt
import SpeechRom.Proofs.OrderedMap
import SpeechRom.Rom.Layout

/-!
# Stacks of parts

A layout puts parts one on another without gaps.  `Part` is what the layout
knows of a thing before it has a place, `stack` gives every part the offset
behind the part before it, and `settle` enters the offsets into the address
table, up to the first part that is refused: because of what it is, or because
16 bits cannot hold its offset.

`runFrom_settle` says what settling leaves behind.  What is settled at the end of
the file stands for the layout of a whole pack: `ofPack_eq` reads
`Layout.ofPack` as one stack, with the header at its foot.
-/

namespace SpeechRom.Rom

/-! ## Parts and where they come to stand -/

/-- A part of an image: what it is, the bytes it takes, and what stands against it wherever it
comes to stand. -/
structure Part where
  entity : Entity
  size : Nat
  objection : Option BuildError

/-- The bytes that parts take together. -/
def span (parts : List Part) : Nat := (parts.map (·.size)).sum

/-- Parts one behind another from an offset on, each with its own offset. -/
def stack : Nat → List Part → List (Part × Nat)
  | _, [] => []
  | offset, part :: rest => (part, offset) :: stack (offset + part.size) rest

@[simp] theorem span_nil : span [] = 0 := rfl

@[simp] theorem span_cons (part : Part) (rest : List Part) :
    span (part :: rest) = part.size + span rest := rfl

@[simp] theorem span_append (first second : List Part) :
    span (first ++ second) = span first + span second := by
  simp [span]

theorem stack_append (offset : Nat) (first second : List Part) :
    stack offset (first ++ second) = stack offset first ++ stack (offset + span first) second := by
  induction first generalizing offset with
  | nil => rfl
  | cons part rest ih =>
      simp only [List.cons_append, stack, span_cons, ih]
      rw [Nat.add_assoc]

@[simp] theorem map_fst_stack (offset : Nat) (parts : List Part) :
    (stack offset parts).map Prod.fst = parts := by
  induction parts generalizing offset with
  | nil => rfl
  | cons part rest ih => simp [stack, ih]

theorem mem_of_mem_stack {start offset : Nat} {parts : List Part} {part : Part}
    (hmem : (part, offset) ∈ stack start parts) : part ∈ parts := by
  rw [← map_fst_stack start parts]
  exact List.mem_map.mpr ⟨_, hmem, rfl⟩

theorem exists_mem_stack {parts : List Part} {part : Part} (hpart : part ∈ parts) (start : Nat) :
    ∃ offset, (part, offset) ∈ stack start parts := by
  rw [← map_fst_stack start parts] at hpart
  obtain ⟨⟨_, offset⟩, hmem, rfl⟩ := List.mem_map.mp hpart
  exact ⟨offset, hmem⟩

/-- Every part stands within the stack. -/
theorem bounds_of_mem_stack {start offset : Nat} {parts : List Part} {part : Part}
    (hmem : (part, offset) ∈ stack start parts) :
    start ≤ offset ∧ offset + part.size ≤ start + span parts := by
  induction parts generalizing start with
  | nil => simp [stack] at hmem
  | cons first rest ih =>
      rw [stack, List.mem_cons] at hmem
      rw [span_cons]
      rcases hmem with heq | hmem
      · cases heq
        omega
      · have := ih hmem
        omega

/-- Different parts of a stack stand apart. -/
theorem apart_of_mem_stack {start offset other : Nat} {parts : List Part} {first second : Part}
    (hfirst : (first, offset) ∈ stack start parts) (hsecond : (second, other) ∈ stack start parts)
    (hne : first ≠ second) : offset + first.size ≤ other ∨ other + second.size ≤ offset := by
  induction parts generalizing start with
  | nil => cases hfirst
  | cons part rest ih =>
      rw [stack, List.mem_cons] at hfirst hsecond
      rcases hfirst with hfirst | hfirst <;> rcases hsecond with hsecond | hsecond
      · cases hfirst
        cases hsecond
        exact absurd rfl hne
      -- all other parts start above the part at the foot
      · cases hfirst
        exact .inl (bounds_of_mem_stack hsecond).1
      · cases hsecond
        exact .inr (bounds_of_mem_stack hfirst).1
      · exact ih hfirst hsecond

/-- Parts that take bytes do not share an offset. -/
theorem eq_of_mem_stack {start offset : Nat} {parts : List Part} {first second : Part}
    (hfirst : (first, offset) ∈ stack start parts) (hsecond : (second, offset) ∈ stack start parts)
    (hfirstSize : 0 < first.size) (hsecondSize : 0 < second.size) : first = second := by
  by_contra hne
  rcases apart_of_mem_stack hfirst hsecond hne with happart | happart
  · omega
  · omega

/-! ## Settling -/

/-- Why a part is refused at an offset, if it is. -/
def refusal (placed : Part × Nat) : Option BuildError :=
  match placed.1.objection with
  | some objection => some objection
  | none => if placed.2 < addressSpace then none else some (.imageTooLarge (placed.2 + 1))

theorem refusal_eq_none_iff {part : Part} {offset : Nat} :
    refusal (part, offset) = none ↔ part.objection = none ∧ offset < addressSpace := by
  unfold refusal
  cases part.objection <;> simp

theorem objection_or_too_far {part : Part} {offset : Nat} {failure : BuildError}
    (hrefusal : refusal (part, offset) = some failure) :
    part.objection = some failure ∨
      part.objection = none ∧ addressSpace ≤ offset ∧ failure = .imageTooLarge (offset + 1) := by
  unfold refusal at hrefusal
  cases hobjection : part.objection with
  | some objection => simpa [hobjection] using hrefusal
  | none =>
      by_cases hoffset : offset < addressSpace
      · simp [hobjection, hoffset] at hrefusal
      · simp only [hobjection, hoffset, if_false, Option.some.injEq] at hrefusal
        exact .inr ⟨rfl, Nat.le_of_not_lt hoffset, hrefusal.symm⟩

/-- Give a part its offset, if nothing stands against it. -/
def Part.settle (part : Part) (offset : Nat) : Placing Unit :=
  match part.objection with
  | some objection => throw objection
  | none => place part.entity offset

/-- Give parts their offsets, one after another. -/
def settle : List (Part × Nat) → Placing Unit
  | [] => return ()
  | (part, offset) :: rest => do
    part.settle offset
    settle rest

/-- Enter a part with its offset into a table. -/
def AddressTable.enter (table : AddressTable) (placed : Part × Nat) : AddressTable :=
  ⟨table.offsets.insert placed.1.entity placed.2⟩

theorem runFrom_place (entity : Entity) (offset : Nat) (table : AddressTable) :
    (place entity offset).runFrom table =
      if offset < addressSpace then (.ok (), ⟨table.offsets.insert entity offset⟩)
      else (.error (.imageTooLarge (offset + 1)), table) := by
  have hget : Attempt.runFrom table (get : Placing AddressTable) = (.ok table, table) := rfl
  rw [place, Attempt.runFrom_bind, hget]
  dsimp only
  rw [Attempt.runFrom_bind, Attempt.runFrom_ofExcept, AddressTable.put]
  by_cases hoffset : offset < addressSpace
  · rw [if_pos hoffset, if_pos hoffset]
    rfl
  · rw [if_neg hoffset, if_neg hoffset]

theorem runFrom_settle_one (part : Part) (offset : Nat) (table : AddressTable) :
    (part.settle offset).runFrom table =
      match refusal (part, offset) with
      | some failure => (.error failure, table)
      | none => (.ok (), table.enter (part, offset)) := by
  obtain ⟨entity, size, objection⟩ := part
  cases objection with
  | some objection => rfl
  | none =>
      simp only [Part.settle, refusal, runFrom_place]
      split <;> rfl

/-- Settling enters parts up to the first one that is refused. -/
theorem runFrom_settle (placed : List (Part × Nat)) (table : AddressTable) :
    (settle placed).runFrom table =
      match placed.findSome? refusal with
      | some failure =>
        (.error failure,
          (placed.takeWhile fun entry => (refusal entry).isNone).foldl AddressTable.enter table)
      | none => (.ok (), placed.foldl AddressTable.enter table) := by
  induction placed generalizing table with
  | nil => rfl
  | cons entry rest ih =>
      obtain ⟨part, offset⟩ := entry
      rw [settle, Attempt.runFrom_bind, runFrom_settle_one]
      cases hrefusal : refusal (part, offset) with
      | some failure => simp [hrefusal]
      | none => simp [hrefusal, ih]

theorem settle_append (lower upper : List (Part × Nat)) :
    settle (lower ++ upper) = (do settle lower; settle upper) := by
  induction lower with
  | nil => simp [settle]
  | cons entry rest ih => simp [settle, ih]

/-! ## The parts of a pack -/

/-- A phrase as a part. -/
def phrasePart (bank : String) (index : Nat) (phrase : Phrase) : Part where
  entity := .phrase phrase.id
  size := phraseRecordSize phrase.tokens.length
  objection :=
    if phrase.tokens.length > countLimit then
      some (.tooManyTokens bank index phrase.tokens.length)
    else none

/-- The phrases of a bank as parts, the first of them with the given index. -/
def phraseParts (bank : String) (index : Nat) (phrases : List Phrase) : List Part :=
  (phrases.zipIdx index).map fun entry => phrasePart bank entry.2 entry.1

theorem phraseParts_cons (bank : String) (index : Nat) (phrase : Phrase) (rest : List Phrase) :
    phraseParts bank index (phrase :: rest) =
      phrasePart bank index phrase :: phraseParts bank (index + 1) rest := by
  rw [phraseParts, List.zipIdx_cons, List.map_cons]
  rfl

/-- The directory of a bank as a part. -/
def directoryPart (bank : Bank) : Part where
  entity := .bank bank.id
  size := bankRecordSize bank.phrases.length
  objection :=
    if bank.phrases.length > countLimit then
      some (.tooManyPhrases bank.name bank.phrases.length)
    else none

/-- A bank as parts: its directory, then its phrases. -/
def bankParts (bank : Bank) : List Part :=
  directoryPart bank :: phraseParts bank.name 0 bank.phrases

/-- The data of a word; a word that was not recorded has none. -/
def speechOf (vocabulary : Vocabulary) (word : Word) : List UInt8 :=
  (vocabulary.get? word.text).getD []

/-- A word as a part. -/
def wordPart (vocabulary : Vocabulary) (word : Word) : Part where
  entity := .word word.id
  size := (speechOf vocabulary word).length
  objection := if vocabulary.contains word.text then none else some (.notRecorded word.text)

theorem objection_directoryPart_eq_none_iff {bank : Bank} :
    (directoryPart bank).objection = none ↔ bank.phrases.length ≤ 255 := by
  simp [directoryPart, countLimit]

theorem objection_phrasePart_eq_none_iff {bank : String} {index : Nat} {phrase : Phrase} :
    (phrasePart bank index phrase).objection = none ↔ phrase.tokens.length ≤ 255 := by
  simp [phrasePart, countLimit]

theorem objection_wordPart_eq_none_iff {vocabulary : Vocabulary} {word : Word} :
    (wordPart vocabulary word).objection = none ↔ (vocabulary.get? word.text).isSome := by
  cases hget : vocabulary.get? word.text <;> simp [wordPart, OrderedMap.contains, hget]

/-- The header as a part. -/
def headerPart : Part := ⟨.header, headerSize, none⟩

/-- The start of the speech data as a part. -/
def speechStartPart : Part := ⟨.wordData, 0, none⟩

/-- All that goes into the phrase region. -/
def regionParts (pack : Pack) : List Part := pack.banks.values.flatMap bankParts

/-- All that goes into an image. -/
def imageParts (pack : Pack) (vocabulary : Vocabulary) : List Part :=
  headerPart :: regionParts pack ++
    speechStartPart :: pack.words.values.map (wordPart vocabulary)

/-- Where the phrase region ends and the speech data starts. -/
def regionEnd (pack : Pack) : Nat := headerSize + span (regionParts pack)

/-- The data of all words, one behind another. -/
def speechData (pack : Pack) (vocabulary : Vocabulary) : List UInt8 :=
  pack.words.values.flatMap (speechOf vocabulary)

/-- The size of the image. -/
def imageSize (pack : Pack) (vocabulary : Vocabulary) : Nat :=
  regionEnd pack + (speechData pack vocabulary).length

/-- Every part of an image with its offset. -/
def imageStack (pack : Pack) (vocabulary : Vocabulary) : List (Part × Nat) :=
  stack 0 (imageParts pack vocabulary)

theorem span_words (vocabulary : Vocabulary) (words : List Word) :
    span (words.map (wordPart vocabulary)) = (words.flatMap (speechOf vocabulary)).length := by
  induction words with
  | nil => rfl
  | cons word rest ih => simp [ih, wordPart]

/-- An image is its header, the phrase region, and the speech data from its start on. -/
theorem imageStack_eq (pack : Pack) (vocabulary : Vocabulary) :
    imageStack pack vocabulary =
      (headerPart, 0) :: stack headerSize (regionParts pack) ++
        (speechStartPart, regionEnd pack) ::
          stack (regionEnd pack) (pack.words.values.map (wordPart vocabulary)) := by
  rw [imageStack, imageParts, stack_append]
  simp [stack, headerPart, speechStartPart, regionEnd]

/-! ## A layout is a stack -/

theorem placePhrases_eq (bank : Bank) (index offset : Nat) (phrases : List Phrase) :
    placePhrases bank index offset phrases = do
      settle (stack offset (phraseParts bank.name index phrases))
      return offset + span (phraseParts bank.name index phrases) := by
  induction phrases generalizing index offset with
  | nil => rfl
  | cons phrase rest ih =>
      rw [phraseParts_cons, placePhrases, stack, settle, span_cons]
      by_cases hcount : phrase.tokens.length > countLimit
      · simp [Part.settle, phrasePart, hcount]
      · simp [Part.settle, phrasePart, hcount, ih, Nat.add_assoc]

theorem placeBanks_eq (offset : Nat) (banks : List Bank) :
    placeBanks offset banks = do
      settle (stack offset (banks.flatMap bankParts))
      return offset + span (banks.flatMap bankParts) := by
  induction banks generalizing offset with
  | nil => rfl
  | cons bank rest ih =>
      rw [placeBanks, List.flatMap_cons, stack_append, settle_append, bankParts, stack, settle]
      by_cases hcount : bank.phrases.length > countLimit
      · simp [Part.settle, directoryPart, hcount]
      · simp [Part.settle, directoryPart, hcount, ih, placePhrases_eq, Nat.add_assoc]

theorem placeWords_eq (vocabulary : Vocabulary) (offset : Nat) (words : List Word) :
    placeWords vocabulary offset words = do
      settle (stack offset (words.map (wordPart vocabulary)))
      return words.flatMap (speechOf vocabulary) := by
  induction words generalizing offset with
  | nil => rfl
  | cons word rest ih =>
      rw [placeWords, List.map_cons, stack, settle]
      cases hget : vocabulary.get? word.text with
      | none => simp [Part.settle, wordPart, OrderedMap.contains, hget]
      | some data =>
          simp [Part.settle, wordPart, OrderedMap.contains, speechOf, hget, ih]

theorem placeAll_eq (pack : Pack) (vocabulary : Vocabulary) :
    placeAll pack vocabulary = do
      settle (imageStack pack vocabulary)
      return (regionEnd pack, speechData pack vocabulary) := by
  rw [imageStack_eq, placeAll, placeBanks_eq, List.cons_append, settle, settle_append, settle]
  simp [placeWords_eq, Part.settle, headerPart, speechStartPart, regionEnd, regionParts,
    speechData]

/-- The addresses of an image. -/
def imageTable (pack : Pack) (vocabulary : Vocabulary) : AddressTable :=
  (imageStack pack vocabulary).foldl AddressTable.enter AddressTable.empty

/-- **A layout is the stack of all parts**, unless one of them is refused or the whole is too
large. -/
theorem ofPack_eq (pack : Pack) (vocabulary : Vocabulary) :
    Layout.ofPack pack vocabulary =
      match (imageStack pack vocabulary).findSome? refusal with
      | some failure => .error failure
      | none =>
        if imageSize pack vocabulary > addressSpace then
          .error (.imageTooLarge (imageSize pack vocabulary))
        else .ok ⟨imageTable pack vocabulary, regionEnd pack, speechData pack vocabulary,
          imageSize pack vocabulary⟩ := by
  rw [Layout.ofPack, placeAll_eq, Attempt.runFrom_bind, runFrom_settle]
  cases (imageStack pack vocabulary).findSome? refusal <;> rfl

end SpeechRom.Rom
