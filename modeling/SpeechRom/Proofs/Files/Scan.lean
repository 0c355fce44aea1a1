import SpeechRom.Files.Scan
import SpeechRom.Proofs.Attempt

/-!
# What a scan of a directory finds

A scan enumerates a directory, drops what is not seen to be a regular file, sorts the names and
takes them apart.  Which files it finds is a matter of single files all the same: a file is found
exactly if its stem is a name and the directory holds a file of that name with the extension
(`mem_namedFiles_iff`).

That a directory holds a file has one meaning here (`holdsFile`), which is the scan's own: the name
is listed, and behind the path of the directory with the name the system reports a regular file.  So
a file is left out if its name is no text, or if the system does not report it by that path: the
path is too long, the directory may not be searched, a link leads nowhere.
-/

namespace SpeechRom.Files

/-! ## Names with an extension -/

theorem stem?_eq_some_iff {extension name stem : String} :
    stem? extension name = some stem ↔
      isName stem.toList = true ∧ name = stem ++ "." ++ extension := by
  have hjoined : name = stem ++ "." ++ extension ↔
      stem.toList ++ '.' :: extension.toList = name.toList := by
    rw [← String.toList_inj, String.toList_append, String.toList_append, List.append_assoc, eq_comm]
    rfl
  rw [hjoined, stem?]
  dsimp only
  by_cases hsuffix : '.' :: extension.toList <:+ name.toList
  · obtain ⟨front, hfront⟩ := hsuffix
    rw [← hfront, if_pos (List.isSuffixOf_iff_suffix.mpr (List.suffix_append _ _)),
      List.length_append, Nat.add_sub_cancel, List.take_left, Option.ite_none_right_eq_some,
      Option.some.injEq, List.append_cancel_right_eq]
    constructor
    · rintro ⟨hname, rfl⟩
      rw [String.toList_ofList]
      exact ⟨hname, rfl⟩
    · rintro ⟨hname, rfl⟩
      exact ⟨hname, String.ofList_toList⟩
  · rw [if_neg (mt List.isSuffixOf_iff_suffix.mp hsuffix)]
    refine iff_of_false (by simp) ?_
    rintro ⟨_, hname⟩
    exact hsuffix ⟨stem.toList, hname⟩

/-! ## The names in a directory -/

namespace Listing

variable {listing : Listing} {text : String}

theorem mem_texts_iff : text ∈ listing.texts ↔ Text.utf8 text ∈ listing.names := by
  simp only [texts, List.mem_filterMap, Text.ofUtf8?_eq_some_iff, exists_eq_right']

theorem nodup_texts (listing : Listing) : listing.texts.Nodup := by
  refine List.pairwise_filterMap.mpr (listing.distinct.imp ?_)
  rintro name other hne first hfirst second hsecond rfl
  rw [Text.ofUtf8?_eq_some_iff] at hfirst hsecond
  exact hne (hfirst.symm.trans hsecond)

end Listing

section Scans

variable {φ : Type} [FileSystem φ] {files : φ} {directory extension : String}

/-- Whether a directory holds a file: its name is listed there, and a regular file is seen behind the
path of the directory with the name. -/
def holdsFile (files : φ) (directory name : String) : Bool :=
  match FileSystem.enumerate files directory with
  | .ok listing => listing.texts.contains name && isFile files (joinPath directory name)
  | .error _ => false

/-- The path leads to a directory that can be enumerated up to its end. -/
def Readable (files : φ) (directory : String) : Prop :=
  isDirectory files directory = true ∧
    ∃ listing, FileSystem.enumerate files directory = .ok listing ∧ listing.failure = none

theorem isFile_iff {path : String} :
    isFile files path = true ↔ FileSystem.kind files path = .ok .file := by
  unfold isFile
  cases FileSystem.kind files path <;> simp

theorem isDirectory_iff {path : String} :
    isDirectory files path = true ↔ FileSystem.kind files path = .ok .directory := by
  unfold isDirectory
  cases FileSystem.kind files path <;> simp

theorem pathExists_of_isDirectory (hdirectory : isDirectory files directory = true) :
    pathExists files directory = true := by
  rw [pathExists, isDirectory_iff.mp hdirectory]
  rfl

theorem checkDirectory_eq_ok_iff :
    checkDirectory files directory = .ok () ↔
      isDirectory files directory = true ∧
        ∃ listing, FileSystem.enumerate files directory = .ok listing := by
  unfold checkDirectory
  cases hdirectory : isDirectory files directory with
  | false => cases pathExists files directory <;> simp
  | true =>
      rw [pathExists_of_isDirectory hdirectory]
      cases FileSystem.enumerate files directory <;> simp

/-! ## The files of a directory -/

/-- The files that a scan keeps of some names, by name. -/
def filesAmong (files : φ) (directory extension : String) (names : List String) : List NamedFile :=
  ((names.filter fun name => isFile files (joinPath directory name)).mergeSort
    fun first second => decide (first ≤ second)).filterMap
      fun name => (stem? extension name).map (⟨·, joinPath directory name⟩)

/-- A directory that is readable is scanned, and no other one is. -/
theorem namedFiles_eq_ok_iff {found : List NamedFile} :
    namedFiles files directory extension = .ok found ↔
      isDirectory files directory = true ∧ ∃ listing,
        FileSystem.enumerate files directory = .ok listing ∧ listing.failure = none ∧
          filesAmong files directory extension listing.texts = found := by
  rw [namedFiles, bind_eq_ok_iff]
  cases henumerate : FileSystem.enumerate files directory with
  | error reason => simp
  | ok listing =>
      have hcheck : checkDirectory files directory = .ok () ↔
          isDirectory files directory = true := by
        rw [checkDirectory_eq_ok_iff, henumerate]
        exact and_iff_left ⟨listing, rfl⟩
      dsimp only
      constructor
      · rintro ⟨⟨⟩, hchecked, hfound⟩
        cases hfailure : listing.failure with
        | some reason =>
            rw [hfailure] at hfound
            cases hfound
        | none =>
            rw [hfailure] at hfound
            exact ⟨hcheck.mp hchecked, listing, rfl, hfailure, Except.ok.inj hfound⟩
      · rintro ⟨hdirectory, _, heq, hfailure, rfl⟩
        cases heq
        refine ⟨(), hcheck.mpr hdirectory, ?_⟩
        rw [hfailure]
        rfl

/-- Names that are enumerated by name need no sorting. -/
theorem namedFiles_of_sorted {listing : Listing} {found : List NamedFile}
    (hdirectory : isDirectory files directory = true)
    (henumerate : FileSystem.enumerate files directory = .ok listing)
    (hfailure : listing.failure = none) (hsorted : listing.texts.Pairwise (· ≤ ·))
    (hfound : ((listing.texts.filter fun name => isFile files (joinPath directory name)).filterMap
      fun name => (stem? extension name).map (⟨·, joinPath directory name⟩)) = found) :
    namedFiles files directory extension = .ok found := by
  refine namedFiles_eq_ok_iff.mpr ⟨hdirectory, listing, henumerate, hfailure, ?_⟩
  rw [filesAmong, List.mergeSort_of_pairwise ((hsorted.filter _).imp decide_eq_true)]
  exact hfound

theorem exists_namedFiles_iff :
    (∃ found, namedFiles files directory extension = .ok found) ↔ Readable files directory := by
  simp only [namedFiles_eq_ok_iff, Readable]
  constructor
  · rintro ⟨_, hdirectory, listing, henumerate, hfailure, _⟩
    exact ⟨hdirectory, listing, henumerate, hfailure⟩
  · rintro ⟨hdirectory, listing, henumerate, hfailure⟩
    exact ⟨_, hdirectory, listing, henumerate, hfailure, rfl⟩

theorem mem_filesAmong_iff {names : List String} {file : NamedFile} :
    file ∈ filesAmong files directory extension names ↔
      isName file.stem.toList = true ∧
        file.path = joinPath directory (file.stem ++ "." ++ extension) ∧
        file.stem ++ "." ++ extension ∈ names ∧ isFile files file.path = true := by
  rw [filesAmong, List.mem_filterMap]
  constructor
  · rintro ⟨name, hname, hstem⟩
    obtain ⟨letters, hletters, rfl⟩ := Option.map_eq_some_iff.mp hstem
    obtain ⟨hisName, rfl⟩ := stem?_eq_some_iff.mp hletters
    obtain ⟨hlisted, hfile⟩ := List.mem_filter.mp (List.mem_mergeSort.mp hname)
    exact ⟨hisName, rfl, hlisted, hfile⟩
  · rintro ⟨hisName, hpath, hlisted, hfile⟩
    rw [hpath] at hfile
    refine ⟨_, List.mem_mergeSort.mpr (List.mem_filter.mpr ⟨hlisted, hfile⟩), ?_⟩
    rw [stem?_eq_some_iff.mpr ⟨hisName, rfl⟩, Option.map_some, ← hpath]

/-- **A scan finds the files that the directory holds.** -/
theorem mem_namedFiles_iff {found : List NamedFile}
    (hfound : namedFiles files directory extension = .ok found) {file : NamedFile} :
    file ∈ found ↔ isName file.stem.toList = true ∧
      file.path = joinPath directory (file.stem ++ "." ++ extension) ∧
      holdsFile files directory (file.stem ++ "." ++ extension) = true := by
  obtain ⟨_, listing, henumerate, _, rfl⟩ := namedFiles_eq_ok_iff.mp hfound
  rw [mem_filesAmong_iff, holdsFile, henumerate]
  refine and_congr_right fun _ => and_congr_right fun hpath => ?_
  rw [hpath, Bool.and_eq_true, List.contains_iff_mem]

theorem mem_stems_namedFiles_iff {found : List NamedFile}
    (hfound : namedFiles files directory extension = .ok found) {stem : String} :
    stem ∈ found.map (·.stem) ↔
      isName stem.toList = true ∧ holdsFile files directory (stem ++ "." ++ extension) = true := by
  rw [List.mem_map]
  constructor
  · rintro ⟨file, hfile, rfl⟩
    obtain ⟨hisName, _, hholds⟩ := (mem_namedFiles_iff hfound).mp hfile
    exact ⟨hisName, hholds⟩
  · rintro ⟨hisName, hholds⟩
    exact ⟨⟨stem, joinPath directory (stem ++ "." ++ extension)⟩,
      (mem_namedFiles_iff hfound).mpr ⟨hisName, rfl, hholds⟩, rfl⟩

end Scans

end SpeechRom.Files
