import SpeechRom.Files.Tree
import SpeechRom.Proofs.Files.NameOrder
import SpeechRom.Proofs.Files.Scan
import SpeechRom.Proofs.OrderedMap

/-!
# Scans do not depend on the order of enumeration

Two states of a system have the same contents when its answers differ in nothing but the order in
which directories are enumerated (`SameContents`).  What a path leads to and what is read from it
does not depend on that order, and neither does a scan, which sorts what it has enumerated
(`namedFiles_congr`).

What a scan gives is described without any order of enumeration (`Scanned`): the files that the
directory holds and that are named by an identifier and the extension, by their stems.
-/

namespace SpeechRom.Files

variable {φ : Type} [FileSystem φ]

/-! ## States with the same contents -/

/-- Answers to one question about a directory that differ in the order of enumeration at most.  Of
an enumeration that breaks off it matters only why it does. -/
inductive SameListing : Except SystemError Listing → Except SystemError Listing → Prop
  | listed {first second : Listing} (hfailure : first.failure = second.failure)
      (hnames : first.failure = none → first.names.Perm second.names) :
      SameListing (.ok first) (.ok second)
  | refused (reason : SystemError) : SameListing (.error reason) (.error reason)

/-- The two states differ in nothing but the order in which directories are enumerated. -/
structure SameContents (first second : φ) : Prop where
  kind : ∀ path, FileSystem.kind first path = FileSystem.kind second path
  read : ∀ path, FileSystem.read first path = FileSystem.read second path
  listing : ∀ path,
    SameListing (FileSystem.enumerate first path) (FileSystem.enumerate second path)

theorem SameListing.refl (answer : Except SystemError Listing) : SameListing answer answer := by
  cases answer with
  | error reason => exact .refused reason
  | ok listing => exact .listed rfl fun _ => .refl _

theorem SameListing.trans {first second third : Except SystemError Listing}
    (hfirst : SameListing first second) (hsecond : SameListing second third) :
    SameListing first third := by
  cases hfirst with
  | refused reason => exact hsecond
  | listed hfailure hnames =>
      cases hsecond with
      | listed hother hothers =>
          refine .listed (hfailure.trans hother) fun hnone => ?_
          exact (hnames hnone).trans (hothers (hfailure.symm.trans hnone))

namespace SameContents

variable {first second third : φ}

theorem refl (files : φ) : SameContents files files :=
  ⟨fun _ => rfl, fun _ => rfl, fun _ => .refl _⟩

theorem trans (hfirst : SameContents first second) (hsecond : SameContents second third) :
    SameContents first third where
  kind path := (hfirst.kind path).trans (hsecond.kind path)
  read path := (hfirst.read path).trans (hsecond.read path)
  listing path := (hfirst.listing path).trans (hsecond.listing path)

theorem isFile (hsame : SameContents first second) (path : String) :
    Files.isFile first path = Files.isFile second path := by
  rw [Files.isFile, Files.isFile, hsame.kind]

theorem isDirectory (hsame : SameContents first second) (path : String) :
    Files.isDirectory first path = Files.isDirectory second path := by
  rw [Files.isDirectory, Files.isDirectory, hsame.kind]

theorem readText (hsame : SameContents first second) (path : String) :
    Files.readText first path = Files.readText second path := by
  rw [Files.readText, Files.readText, hsame.read]

theorem checkDirectory (hsame : SameContents first second) (path : String) :
    Files.checkDirectory first path = Files.checkDirectory second path := by
  unfold Files.checkDirectory pathExists
  rw [hsame.kind, hsame.isDirectory]
  have hlisting := hsame.listing path
  generalize FileSystem.enumerate first path = answer at hlisting
  generalize FileSystem.enumerate second path = other at hlisting
  cases hlisting <;> rfl

end SameContents

/-! ## Sorted names -/

section Sorted

variable {names others : List String}

theorem pairwise_le_mergeSort (names : List String) :
    (names.mergeSort fun first second => decide (first ≤ second)).Pairwise (· ≤ ·) := by
  refine (List.pairwise_mergeSort (fun a b c => ?_) (fun a b => ?_) names).imp of_decide_eq_true
  · simp only [decide_eq_true_eq]
    exact le_trans
  · simp only [Bool.or_eq_true, decide_eq_true_eq]
    exact le_total a b

/-- Sorting forgets the order of enumeration. -/
theorem mergeSort_congr (hperm : names.Perm others) :
    (names.mergeSort fun first second => decide (first ≤ second)) =
      others.mergeSort fun first second => decide (first ≤ second) :=
  List.Perm.eq_of_pairwise (fun _ _ _ _ hle hge => le_antisymm hle hge)
    (pairwise_le_mergeSort names) (pairwise_le_mergeSort others)
    ((List.mergeSort_perm names _).trans (hperm.trans (List.mergeSort_perm others _).symm))

/-- Different names are in strictly increasing order once they are sorted. -/
theorem pairwise_lt_mergeSort (hnodup : names.Nodup) :
    (names.mergeSort fun first second => decide (first ≤ second)).Pairwise (· < ·) :=
  (pairwise_le_mergeSort names).imp₂ (fun _ _ hle hne => lt_of_le_of_ne hle hne)
    ((List.mergeSort_perm names _).nodup_iff.mpr hnodup)

end Sorted

/-! ## Scans -/

section Scans

variable {first second files : φ} {directory extension : String} {found : List NamedFile}

theorem filesAmong_congr (hsame : SameContents first second) (directory extension : String)
    {names others : List String} (hperm : names.Perm others) :
    filesAmong first directory extension names = filesAmong second directory extension others := by
  unfold filesAmong
  simp only [hsame.isFile]
  rw [mergeSort_congr (hperm.filter _)]

/-- **A scan gives the same files in whatever order the directory is enumerated.** -/
theorem namedFiles_congr (hsame : SameContents first second) (directory extension : String) :
    namedFiles first directory extension = namedFiles second directory extension := by
  unfold namedFiles
  rw [hsame.checkDirectory]
  have hlisting := hsame.listing directory
  generalize FileSystem.enumerate first directory = answer at hlisting
  generalize FileSystem.enumerate second directory = other at hlisting
  cases hlisting with
  | refused reason => rfl
  | @listed listing other hfailure hnames =>
      dsimp only
      rw [← hfailure]
      cases hnone : listing.failure with
      | some reason => rfl
      | none =>
          have hfiles := filesAmong_congr hsame directory extension
            ((hnames hnone).filterMap Text.ofUtf8?)
          exact congrArg (checkDirectory second directory >>= fun _ => Except.ok ·) hfiles

/-- The files are those that the directory holds and that are named by an identifier and the
extension.  They are in order, byte by byte, and it makes no difference whether this is the order of
the stems or that of the names. -/
structure Scanned (files : φ) (directory extension : String) (found : List NamedFile) :
    Prop where
  mem_iff : ∀ file, file ∈ found ↔
    Identifier file.stem.toList ∧
      holdsFile files directory (file.stem ++ "." ++ extension) = true ∧
      file.path = joinPath directory (file.stem ++ "." ++ extension)
  stems : found.Pairwise fun file other => ByteLess file.stem other.stem
  names : found.Pairwise fun file other =>
    ByteLess (file.stem ++ "." ++ extension) (other.stem ++ "." ++ extension)

theorem pairwise_filesAmong (files : φ) (directory extension : String) {names : List String}
    (hnodup : names.Nodup) :
    (filesAmong files directory extension names).Pairwise fun file other =>
      file.stem < other.stem := by
  refine List.pairwise_filterMap.mpr ((pairwise_lt_mergeSort (hnodup.filter _)).imp ?_)
  intro name other hlt file hfile twin htwin
  obtain ⟨stem, hstem, rfl⟩ := Option.map_eq_some_iff.mp hfile
  obtain ⟨next, hnext, rfl⟩ := Option.map_eq_some_iff.mp htwin
  obtain ⟨hisName, rfl⟩ := stem?_eq_some_iff.mp hstem
  obtain ⟨hisNext, rfl⟩ := stem?_eq_some_iff.mp hnext
  exact (name_lt_name_iff extension (isName_iff_identifier.mp hisName)
    (isName_iff_identifier.mp hisNext)).mp hlt

/-- **A scan gives the files that are there, in order.** -/
theorem scanned_of_namedFiles (hfound : namedFiles files directory extension = .ok found) :
    Scanned files directory extension found := by
  have hmem (file : NamedFile) : file ∈ found ↔
      Identifier file.stem.toList ∧
        holdsFile files directory (file.stem ++ "." ++ extension) = true ∧
        file.path = joinPath directory (file.stem ++ "." ++ extension) := by
    rw [mem_namedFiles_iff hfound, isName_iff_identifier]
    exact and_congr_right fun _ => and_comm
  -- the names are sorted as texts; stems, and with them names, are in the same order by bytes
  have hstems : found.Pairwise fun file other => file.stem < other.stem := by
    obtain ⟨_, listing, _, _, rfl⟩ := namedFiles_eq_ok_iff.mp hfound
    exact pairwise_filesAmong files directory extension listing.nodup_texts
  have hbytes : found.Pairwise fun file other => ByteLess file.stem other.stem :=
    hstems.imp_of_mem fun hfile hother hlt =>
      (byteLess_iff_lt ((hmem _).mp hfile).1 ((hmem _).mp hother).1).mpr hlt
  exact ⟨hmem, hbytes, hbytes.imp_of_mem fun hfile hother hlt =>
    (byteLess_name_iff extension ((hmem _).mp hfile).1 ((hmem _).mp hother).1).mpr hlt⟩

theorem Scanned.nodup_stems (hscanned : Scanned files directory extension found) :
    (found.map (·.stem)).Nodup :=
  List.pairwise_map.mpr (hscanned.stems.imp ByteLess.ne)

end Scans

/-! ## Trees -/

namespace FileTree

variable {first second : FileTree}

section Perm

variable (hentries : first.nodes.entries.Perm second.nodes.entries)

include hentries

theorem node?_congr (place : Location) : first.node? place = second.node? place := by
  have hget : first.nodes.get? place = second.nodes.get? place := by
    refine Option.ext fun node => ?_
    rw [OrderedMap.get?_eq_some_iff, OrderedMap.get?_eq_some_iff]
    exact hentries.mem_iff
  rw [node?, node?, hget]

theorem follow_congr (place : Location) (parts : List String) :
    first.follow place parts = second.follow place parts := by
  induction parts generalizing place with
  | nil => rfl
  | cons part rest ih =>
      rw [follow, follow, node?_congr hentries, node?_congr hentries, ih, ih, ih]

theorem locate_congr (hworking : first.workingDirectory = second.workingDirectory)
    (path : String) : first.locate path = second.locate path := by
  rw [locate, locate, startOf, startOf, hworking, follow_congr hentries]

theorem look_congr (hworking : first.workingDirectory = second.workingDirectory)
    (path : String) : first.look path = second.look path := by
  unfold look
  simp only [locate_congr hentries hworking, node?_congr hentries]

end Perm

/-- Trees with the same entries in another order have the same contents. -/
theorem sameContents_of_perm (hentries : first.nodes.entries.Perm second.nodes.entries)
    (hworking : first.workingDirectory = second.workingDirectory)
    (hinput : first.input = second.input) : SameContents first second where
  kind path := congrArg (Except.map Node.kind) (look_congr hentries hworking path)
  read path := by
    change first.readBytes path = second.readBytes path
    rw [readBytes, readBytes, look_congr hentries hworking, hinput]
  listing path := by
    change SameListing (first.enumerate path) (second.enumerate path)
    unfold enumerate
    rw [locate_congr hentries hworking]
    cases second.locate path with
    | error reason => exact .refused reason
    | ok place =>
        change SameListing (if _ then _ else _) (if _ then _ else _)
        rw [node?_congr hentries]
        split
        · refine .listed rfl fun _ => ?_
          exact (hentries.filterMap _).map _
        · exact .refused _

end FileTree

end SpeechRom.Files
