import SpeechRom.Proofs.Choices
import SpeechRom.Proofs.Rom.Format
import SpeechRom.Proofs.Rom.Playing

/-!
# Playing an image that decodes

Decoding goes through the phrase region once, from front to back; playing jumps from
pointer to pointer and reads every record anew.  If an image decodes, playing it meets
none of the defects that decoding looks for.  It can only come back to a bank that is
being played, and there are choices with which it does so exactly if the banks ask for
one another in a ring that can be reached from the primary bank
(`plays_unless_ring_of_decode`).

## Strategy

What decoding has seen is closed: every bank is read again as it was decoded, so are its
phrases, and their tokens lead to banks of the list or into the speech data (`Surveyed`).
So playing takes one step at a time along `Leads`.  While it does, every bank on its
trail leads to the bank at hand, and coming back to one of them closes a ring
(`failsOnly_playBank`).  The other way round, choices that follow a ring lead into it
(`mayFail_playBank`).
-/

namespace SpeechRom.Rom.Reader

variable {reader : Reader} {banks : List DecodedBank}

/-! ## What decoding has seen -/

/-- Some phrase of the one bank has a token that points at the other. -/
def Leads (reader : Reader) (banks : List DecodedBank) (offset next : UInt16) : Prop :=
  ∃ bank ∈ banks, bank.record.offset = offset ∧
    ∃ phrase ∈ bank.phrases, ∃ token ∈ phrase.tokens, reader.targetOf token = .bank next

/-- The banks can be read again, and their tokens lead to banks among them or to words. -/
structure Surveyed (reader : Reader) (banks : List DecodedBank) : Prop where
  readBank_eq : ∀ bank ∈ banks, reader.readBank bank.record.offset = .ok bank.record
  directory : ∀ bank ∈ banks, bank.record.phrases = bank.phrases.map (·.offset)
  readPhrase_eq : ∀ bank ∈ banks, ∀ phrase ∈ bank.phrases,
    reader.readPhrase phrase.offset = .ok phrase
  target_eq : ∀ bank ∈ banks, ∀ phrase ∈ bank.phrases, ∀ token ∈ phrase.tokens,
    reader.target token = .ok (reader.targetOf token)
  tokensHit : reader.TokensHit banks
  before : ∀ bank ∈ banks, bank.record.offset.toNat < reader.speechStart.toNat
  primary : ∃ bank ∈ banks, bank.record.offset = reader.primary

theorem surveyed_of_decode (hdecode : reader.decode = .ok banks) : reader.Surveyed banks := by
  obtain ⟨hstands, hregion, hprimary, hhit⟩ := decode_eq_ok_iff.mp hdecode
  obtain ⟨_, _, hfits, _, _⟩ := decode_eq_ok_iff_region.mp hdecode
  refine ⟨?_, fun bank hbank => (hfits bank hbank).directory, ?_, ?_, hhit, ?_,
    List.mem_map.mp hprimary⟩
  · intro bank hbank
    obtain ⟨start, hat, _⟩ := hstands.exists_position hbank
    exact hat.readBank_eq
  · intro bank hbank phrase hphrase
    obtain ⟨start, hat, _⟩ := hstands.exists_position hbank
    exact hat.phrases.readPhrase_eq hphrase
  · intro bank hbank phrase hphrase token htoken
    exact target_eq_ok_iff.mpr ⟨(hfits bank hbank).follows phrase hphrase token htoken, rfl⟩
  · intro bank hbank
    obtain ⟨start, hat, hend⟩ := hstands.exists_position hbank
    have hpos := bank.length_bytes_pos
    rw [hat.offset]
    omega

/-- A token that points at a bank points at one of the list. -/
theorem Surveyed.exists_bank (hsurvey : reader.Surveyed banks) {bank : DecodedBank}
    (hbank : bank ∈ banks) {phrase : PhraseRecord} (hphrase : phrase ∈ bank.phrases)
    {token next : UInt16} (htoken : token ∈ phrase.tokens)
    (htarget : reader.targetOf token = .bank next) :
    ∃ other ∈ banks, other.record.offset = next := by
  unfold targetOf at htarget
  split at htarget
  · rename_i hbefore
    cases htarget
    exact List.mem_map.mp (hsurvey.tokensHit bank hbank phrase hphrase token htoken hbefore)
  · cases htarget

variable {σ : Type} {source : ChoiceSource σ}

/-- A decoded bank off the trail is played by choosing one of its phrases. -/
theorem Surveyed.playBank_succ (hsurvey : reader.Surveyed banks) {bank : DecodedBank}
    (hbank : bank ∈ banks) (source : ChoiceSource σ) (fuel : Nat) {active : List UInt16}
    (hnew : bank.record.offset ∉ active) :
    ∃ hsame : bank.record.phrases.length = bank.phrases.length,
      reader.playBank source (fuel + 1) active bank.record.offset = do
        let choice ← source.draw bank.record.phrases.length bank.record.populated
        let parts ← (bank.phrases.get (choice.cast hsame)).tokens.mapM
          (reader.playToken source fuel (bank.record.offset :: active))
        return parts.flatten := by
  have hdirectory := hsurvey.directory bank hbank
  have hsame : bank.record.phrases.length = bank.phrases.length := by
    rw [hdirectory, List.length_map]
  refine ⟨hsame, ?_⟩
  rw [Reader.playBank_succ hnew (hsurvey.readBank_eq bank hbank)]
  refine bind_congr fun choice => ?_
  have hpointer : bank.record.phrases.get choice =
      (bank.phrases.get (choice.cast hsame)).offset := by
    simp [hdirectory]
  rw [hpointer, hsurvey.readPhrase_eq bank hbank _ (List.get_mem _ _), Attempt.ofExcept_ok_bind]

/-- Playing a token of a decoded phrase: it says a word, or plays a bank of the list that its own
bank leads to. -/
theorem Surveyed.playToken_cases (hsurvey : reader.Surveyed banks) {bank : DecodedBank}
    (hbank : bank ∈ banks) {phrase : PhraseRecord} (hphrase : phrase ∈ bank.phrases)
    {token : UInt16} (htoken : token ∈ phrase.tokens) (source : ChoiceSource σ) (fuel : Nat)
    (active : List UInt16) :
    reader.playToken source fuel active token = pure [token] ∨
      ∃ other ∈ banks, reader.Leads banks bank.record.offset other.record.offset ∧
        reader.playToken source fuel active token =
          reader.playBank source fuel active other.record.offset := by
  rw [playToken, hsurvey.target_eq bank hbank phrase hphrase token htoken,
    Attempt.ofExcept_ok_bind]
  cases htarget : reader.targetOf token with
  | word pointer =>
      unfold targetOf at htarget
      split at htarget
      · cases htarget
      · cases htarget
        exact .inl rfl
  | bank next =>
      obtain ⟨other, hother, rfl⟩ := hsurvey.exists_bank hbank hphrase htoken htarget
      exact .inr ⟨other, hother, ⟨bank, hbank, rfl, phrase, hphrase, token, htoken, htarget⟩, rfl⟩

/-! ## A walk that fails has closed a ring -/

/-- A bank that the primary bank leads to has come back to itself. -/
def ClosesRing (reader : Reader) (banks : List DecodedBank) (defect : Defect) : Prop :=
  ∃ offset, defect = .bankWithinItself offset ∧
    Relation.ReflTransGen (reader.Leads banks) reader.primary offset ∧
    Relation.TransGen (reader.Leads banks) offset offset

/-- **Playing fails with a ring only**, on a trail of banks that all lead to the bank at hand. -/
theorem Surveyed.failsOnly_playBank (hsurvey : reader.Surveyed banks) {fuel : Nat}
    {active : List UInt16} {bank : DecodedBank} (hbank : bank ∈ banks)
    (htrail : reader.Trail active) (hfuel : reader.speechStart.toNat < fuel + active.length)
    (hactive : ∀ other ∈ active, Relation.TransGen (reader.Leads banks) other bank.record.offset)
    (hreached : Relation.ReflTransGen (reader.Leads banks) reader.primary bank.record.offset) :
    (reader.playBank source fuel active bank.record.offset).FailsOnly
      (reader.ClosesRing banks) := by
  induction fuel generalizing active bank with
  | zero =>
      -- a trail this long would hold more offsets than there are in front of the speech data
      have hlength := htrail.length_le
      omega
  | succ fuel ih =>
      by_cases hmem : bank.record.offset ∈ active
      · rw [playBank_of_mem hmem]
        exact .throw ⟨_, rfl, hreached, hactive _ hmem⟩
      obtain ⟨hsame, hplay⟩ := hsurvey.playBank_succ hbank source fuel hmem
      rw [hplay]
      refine (Attempt.FailsOnly.draw source _).bind fun choice => ?_
      refine Attempt.FailsOnly.bind (.mapM fun token htoken => ?_) fun parts => .pure _
      have hphrase : bank.phrases.get (choice.cast hsame) ∈ bank.phrases := List.get_mem _ _
      rcases hsurvey.playToken_cases hbank hphrase htoken source fuel
        (bank.record.offset :: active) with hword | ⟨other, hother, hleads, hnested⟩
      · rw [hword]
        exact .pure _
      · rw [hnested]
        refine ih hother (htrail.cons hmem (hsurvey.before bank hbank)) ?_ ?_
          (hreached.tail hleads)
        · rw [List.length_cons]
          omega
        · exact List.forall_mem_cons.mpr
            ⟨.single hleads, fun offset hoffset => (hactive offset hoffset).tail hleads⟩

/-- So does playing from the primary bank, on no trail yet. -/
theorem Surveyed.failsOnly_play (hsurvey : reader.Surveyed banks) (source : ChoiceSource σ) :
    (reader.play source).FailsOnly (reader.ClosesRing banks) := by
  obtain ⟨bank, hbank, hprimary⟩ := hsurvey.primary
  rw [play, ← hprimary]
  exact hsurvey.failsOnly_playBank hbank (Trail.nil reader) (Nat.lt_succ_self _)
    (fun _ hmem => absurd hmem List.not_mem_nil) (hprimary ▸ .refl)

/-! ## Choices that lead into a ring -/

/-- Playing came back to a bank that was being played. -/
def IsRing (defect : Defect) : Prop := ∃ offset, defect = .bankWithinItself offset

/-- If banks can be played to an end by some choices, so can every token of a phrase. -/
theorem Surveyed.mayEnd_playToken (hsurvey : reader.Surveyed banks) {fuel : Nat}
    {active : List UInt16} (hbanks : ∀ {other : DecodedBank}, other ∈ banks →
      (reader.playBank .scripted fuel active other.record.offset).MayEnd IsRing)
    {bank : DecodedBank} (hbank : bank ∈ banks) {phrase : PhraseRecord}
    (hphrase : phrase ∈ bank.phrases) {token : UInt16} (htoken : token ∈ phrase.tokens) :
    (reader.playToken .scripted fuel active token).MayEnd IsRing := by
  rcases hsurvey.playToken_cases hbank hphrase htoken .scripted fuel active with
    hword | ⟨other, hother, _, hnested⟩
  · rw [hword]
    exact .pure _
  · rw [hnested]
    exact hbanks hother

/-- Every decoded bank can be played to an end by some choices, or they lead into a ring. -/
theorem Surveyed.mayEnd_playBank (hsurvey : reader.Surveyed banks) (fuel : Nat)
    (active : List UInt16) {bank : DecodedBank} (hbank : bank ∈ banks) :
    (reader.playBank .scripted fuel active bank.record.offset).MayEnd IsRing := by
  induction fuel generalizing active bank with
  | zero => exact (Attempt.MayFail.throw ⟨_, rfl⟩).mayEnd
  | succ fuel ih =>
      by_cases hmem : bank.record.offset ∈ active
      · rw [playBank_of_mem hmem]
        exact (Attempt.MayFail.throw ⟨_, rfl⟩).mayEnd
      obtain ⟨hsame, hplay⟩ := hsurvey.playBank_succ hbank .scripted fuel hmem
      rw [hplay]
      refine (Attempt.MayEnd.draw _).bind fun choice => ?_
      refine Attempt.MayEnd.bind (.mapM fun token => ?_) fun parts => .pure _
      exact hsurvey.mayEnd_playToken (ih _) hbank (List.get_mem _ _)

/-- **From a bank with a ring ahead, some choices lead into a ring.** -/
theorem Surveyed.mayFail_playBank (hsurvey : reader.Surveyed banks) (fuel : Nat)
    (active : List UInt16) {offset : UInt16} (hring : LeadsToRing (reader.Leads banks) offset) :
    (reader.playBank .scripted fuel active offset).MayFail IsRing := by
  induction fuel generalizing active offset with
  | zero => exact .throw ⟨_, rfl⟩
  | succ fuel ih =>
      by_cases hmem : offset ∈ active
      · rw [playBank_of_mem hmem]
        exact .throw ⟨_, rfl⟩
      obtain ⟨next, ⟨bank, hbank, rfl, phrase, hphrase, token, htoken, htarget⟩, hahead⟩ :=
        hring.exists_step
      obtain ⟨place, rfl⟩ := List.mem_iff_get.mp hphrase
      obtain ⟨hsame, hplay⟩ := hsurvey.playBank_succ hbank .scripted fuel hmem
      rw [hplay]
      -- the choice of the phrase, and then whatever its tokens in front of the bank take
      refine .bind_of_endsAfter (.draw _ (place.cast hsame.symm)) (Attempt.MayFail.bind ?_)
      refine .mapM (fun other hother =>
        hsurvey.mayEnd_playToken (hsurvey.mayEnd_playBank fuel _) hbank hphrase hother) htoken ?_
      rw [playToken, hsurvey.target_eq bank hbank _ hphrase token htoken, htarget,
        Attempt.ofExcept_ok_bind]
      exact ih _ hahead

/-! ## The main statement -/

/-- **Playing an image that decodes can only fail with a ring.**  From every state of every source
it succeeds or comes back to a bank that is being played; and the latter happens for some list of
choices if and only if, along the tokens of the decoded banks, the primary bank leads to a bank
that leads to itself.  No other source gets into a ring where lists of choices do not. -/
theorem plays_unless_ring_of_decode (hdecode : reader.decode = .ok banks) :
    (∀ (σ : Type) (source : ChoiceSource σ) (state : σ),
      (∃ pointers after, (reader.play source).runFrom state = (.ok pointers, after)) ∨
        ∃ offset after,
          (reader.play source).runFrom state = (.error (.bankWithinItself offset), after)) ∧
    ((∃ picks offset after,
        (reader.play .scripted).runFrom picks = (.error (.bankWithinItself offset), after)) ↔
      ∃ offset, Relation.ReflTransGen (reader.Leads banks) reader.primary offset ∧
        Relation.TransGen (reader.Leads banks) offset offset) ∧
    ∀ (σ : Type) (source : ChoiceSource σ) (state : σ) (offset : UInt16) (after : σ),
      (reader.play source).runFrom state = (.error (.bankWithinItself offset), after) →
        Relation.ReflTransGen (reader.Leads banks) reader.primary offset ∧
          Relation.TransGen (reader.Leads banks) offset offset := by
  have hsurvey := surveyed_of_decode hdecode
  have hcloses : ∀ (σ : Type) (source : ChoiceSource σ) (state : σ) (offset : UInt16) (after : σ),
      (reader.play source).runFrom state = (.error (.bankWithinItself offset), after) →
        Relation.ReflTransGen (reader.Leads banks) reader.primary offset ∧
          Relation.TransGen (reader.Leads banks) offset offset := by
    intro σ source state offset after hrun
    obtain ⟨place, heq, hpath, hround⟩ := hsurvey.failsOnly_play source state _ after hrun
    cases heq
    exact ⟨hpath, hround⟩
  refine ⟨fun σ source state => ?_, ⟨?_, ?_⟩, hcloses⟩
  · cases hrun : (reader.play source).runFrom state with
    | mk outcome after =>
        cases outcome with
        | ok pointers => exact .inl ⟨pointers, after, rfl⟩
        | error defect =>
            obtain ⟨offset, rfl, _⟩ := hsurvey.failsOnly_play source state defect after hrun
            exact .inr ⟨offset, after, rfl⟩
  · rintro ⟨picks, offset, after, hrun⟩
    exact ⟨offset, hcloses _ _ picks offset after hrun⟩
  · rintro ⟨offset, hring⟩
    obtain ⟨picks, _, hends, place, rfl⟩ :=
      hsurvey.mayFail_playBank (reader.speechStart.toNat + 1) [] ⟨offset, hring⟩
    exact ⟨picks ++ [], place, [], hends []⟩

/-- An image with two banks, at 4 and 12, that ask for each other.  Both speak a word first, and
the second one has a phrase that does not ask. -/
def exchangeBytes : List UInt8 :=
  [25, 0, 4, 0, 1, 7, 0, 2, 25, 0, 12, 0, 2, 17, 0, 20, 0, 1, 26, 0, 2, 26, 0, 4, 0, 8, 9]

/-- The image decodes, and some choices get caught between the two banks. -/
theorem plays_unless_ring_of_decode_exchange :
    ∃ reader banks picks offset after, open? exchangeBytes = .ok reader ∧
      reader.decode = .ok banks ∧
        (reader.play .scripted).runFrom picks = (.error (.bankWithinItself offset), after) := by
  obtain ⟨reader, banks, hopen, hdecode, hprimary, hforth, hback⟩ : ∃ reader banks,
      open? exchangeBytes = .ok reader ∧ reader.decode = .ok banks ∧ reader.primary = 4 ∧
        reader.Leads banks 4 12 ∧ reader.Leads banks 12 4 := by
    refine ⟨_, _, rfl, rfl, rfl, ?_, ?_⟩
    · exact ⟨_, .head _, rfl, _, .head _, _, .tail _ (.head _), rfl⟩
    · exact ⟨_, .tail _ (.head _), rfl, _, .tail _ (.head _), _, .tail _ (.head _), rfl⟩
  obtain ⟨_, hiff, _⟩ := plays_unless_ring_of_decode hdecode
  obtain ⟨picks, offset, after, hrun⟩ :=
    hiff.mpr ⟨4, hprimary ▸ .refl, .tail (.single hforth) hback⟩
  exact ⟨reader, banks, picks, offset, after, hopen, hdecode, hrun⟩

end SpeechRom.Rom.Reader
