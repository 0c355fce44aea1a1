import SpeechRom.Proofs.Files.Enumeration
import SpeechRom.Proofs.Files.Locations

/-!
# Files behind long paths

No system looks up a path of any length, and a scan looks at the files of a directory by their
paths.  In a tree, where nothing else can go wrong, that is the only reason for which a directory
does not hold a file that stands in it (`holdsFile_iff`).

It is reason enough: of a directory whose own path is almost too long a scan finds nothing
(`eq_nil_of_namedFiles`), although its files can be reached on a shorter way.  Such a path is easily
had: it may stay in the working directory for some steps before it goes on (`dotted`).
-/

namespace SpeechRom.Files.FileTree

variable {tree : FileTree} {directory extension path : String} {place : Location}
  {found : List NamedFile}

/-! ## Files that a directory holds -/

theorem isFile_iff_node {node : Node} : node.isFile = true ↔ node.kind = .file := by
  cases node <;> simp [Node.isFile, Node.kind]

/-- **In a tree the path is the only reason for which a file is passed over.**  A directory holds
the regular files that stand in it, except those behind paths that no system looks up. -/
theorem holdsFile_iff {name : String} (hplace : tree.locate directory = .ok place)
    (hnode : tree.node? place = some .directory) (hname : Plain name) :
    holdsFile tree directory name = true ↔
      (tree.node? (place ++ [name])).any Node.isFile = true ∧ Proper (joinPath directory name) := by
  obtain ⟨hproper, hleads⟩ := locate_eq_ok_iff.mp hplace
  have hlisting : FileSystem.enumerate tree directory = .ok (tree.listing place) :=
    enumerate_eq_ok_iff.mpr ⟨place, hplace, hnode, rfl⟩
  have hstep : tree.follow place [name] =
      if (tree.node? (place ++ [name])).isSome then .ok (place ++ [name]) else .error .notFound :=
    follow_plain (by rw [hnode]; rfl) hname
  rw [holdsFile, hlisting, Bool.and_eq_true, List.contains_iff_mem, mem_texts_listing_iff,
    isFile_iff, kind_eq_ok_iff]
  simp only [look_eq_ok_iff, locate_eq_ok_iff, Leads,
    follow_joinPath hproper.ne_empty hleads hname, hstep]
  cases hthere : tree.node? (place ++ [name]) with
  | none => simp
  | some node => simp [hthere, isFile_iff_node, and_comm]

/-! ## Scans of directories behind long paths -/

theorem proper_of_isFile (hfile : isFile tree path = true) : Proper path := by
  obtain ⟨_, hlook, _⟩ := kind_eq_ok_iff.mp (isFile_iff.mp hfile)
  obtain ⟨_, hplace, _⟩ := look_eq_ok_iff.mp hlook
  exact (locate_eq_ok_iff.mp hplace).1

theorem head?_name_ne {stem : String} (hstem : Identifier stem.toList) (extension : String) :
    (stem ++ "." ++ extension).toList.head? ≠ some '/' := by
  obtain ⟨c, rest, hletters⟩ := List.exists_cons_of_ne_nil hstem.1
  have hletter : isNameLetter c = true :=
    isNameLetter_of_mem hstem (hletters ▸ List.mem_cons_self)
  rw [String.toList_append, String.toList_append, hletters]
  intro hslash
  obtain rfl : c = '/' := Option.some.inj hslash
  revert hletter
  decide

theorem le_utf8ByteSize_joinPath (directory : String) {name : String}
    (hname : name.toList.head? ≠ some '/') :
    directory.utf8ByteSize + name.utf8ByteSize ≤ (joinPath directory name).utf8ByteSize := by
  unfold joinPath
  rw [beq_eq_false_iff_ne.mpr hname, Bool.or_false]
  split
  · rename_i hempty
    rw [String.isEmpty_iff.mp hempty]
    exact Nat.le_of_eq (Nat.zero_add _)
  split
  · exact Nat.le_of_eq String.utf8ByteSize_append.symm
  · simp only [String.utf8ByteSize_append]
    omega

/-- Where the path of a directory leaves no room for names with the extension, it holds no file of
such a name. -/
theorem holdsFile_eq_false {stem : String} (hstem : Identifier stem.toList)
    (hlong : maxPathSize < directory.utf8ByteSize + extension.utf8ByteSize + 2) :
    holdsFile tree directory (stem ++ "." ++ extension) = false := by
  have hfile : isFile tree (joinPath directory (stem ++ "." ++ extension)) = false := by
    rw [Bool.eq_false_iff]
    intro hfile
    -- the stem and the dot take up two bytes at least, so the path of the file is too long
    have hshort := (proper_of_isFile hfile).short
    have hjoined := le_utf8ByteSize_joinPath directory (head?_name_ne hstem extension)
    have hletters : 0 < stem.utf8ByteSize := by
      refine Nat.pos_of_ne_zero fun hzero => hstem.1 ?_
      rw [String.utf8ByteSize_eq_zero_iff.mp hzero, String.toList_empty]
    have hdot : ".".utf8ByteSize = 1 := rfl
    rw [String.utf8ByteSize_append, String.utf8ByteSize_append, hdot] at hjoined
    omega
  unfold holdsFile
  split
  · rw [hfile, Bool.and_false]
  · rfl

/-- Where the path of a directory leaves no room for names with the extension, nothing is found. -/
theorem eq_nil_of_namedFiles (hfound : namedFiles tree directory extension = .ok found)
    (hlong : maxPathSize < directory.utf8ByteSize + extension.utf8ByteSize + 2) : found = [] := by
  refine List.eq_nil_iff_forall_not_mem.mpr fun file hfile => ?_
  obtain ⟨hstem, hholds, _⟩ := ((scanned_of_namedFiles hfound).mem_iff file).mp hfile
  rw [holdsFile_eq_false hstem hlong] at hholds
  cases hholds

/-- In a tree every directory can be enumerated. -/
theorem readable_of_locate (hplace : tree.locate directory = .ok place)
    (hnode : tree.node? place = some .directory) : Readable tree directory := by
  have hkind : FileSystem.kind tree directory = .ok .directory :=
    kind_eq_ok_iff.mpr ⟨.directory, look_eq_ok_iff.mpr ⟨place, hplace, hnode⟩, rfl⟩
  exact ⟨isDirectory_iff.mpr hkind, _, enumerate_eq_ok_iff.mpr ⟨place, hplace, hnode, rfl⟩, rfl⟩

/-- A path that stays in the working directory for some steps before it goes on. -/
def dotted : (steps : Nat) → (path : String) → String
  | 0, path => path
  | steps + 1, path => "./" ++ dotted steps path

section Dotted

variable {steps : Nat} {path : String}

theorem toList_dotted_succ (steps : Nat) (path : String) :
    (dotted (steps + 1) path).toList = '.' :: '/' :: (dotted steps path).toList := by
  rw [dotted, String.toList_append]
  rfl

theorem utf8ByteSize_dotted (steps : Nat) (path : String) :
    (dotted steps path).utf8ByteSize = 2 * steps + path.utf8ByteSize := by
  induction steps with
  | zero => exact (Nat.zero_add _).symm
  | succ steps ih =>
      have hstep : "./".utf8ByteSize = 2 := rfl
      rw [dotted, String.utf8ByteSize_append, ih, hstep]
      omega

theorem pathParts_dotted (steps : Nat) (path : String) :
    pathParts (dotted steps path) = List.replicate steps "." ++ pathParts path := by
  induction steps with
  | zero => rfl
  | succ steps ih =>
      rw [List.replicate_succ, List.cons_append, ← ih, pathParts, toList_dotted_succ,
        Text.pieces_cons, Text.pieces_cons]
      rfl

theorem mem_dotted {c : Char} (hc : c ∈ (dotted steps path).toList) :
    c = '.' ∨ c = '/' ∨ c ∈ path.toList := by
  induction steps with
  | zero => exact .inr (.inr hc)
  | succ steps ih =>
      rw [toList_dotted_succ, List.mem_cons, List.mem_cons] at hc
      rcases hc with hdot | hslash | hc
      · exact .inl hdot
      · exact .inr (.inl hslash)
      · exact ih hc

theorem proper_dotted (hpath : Proper path) (hsize : 2 * steps + path.utf8ByteSize ≤ maxPathSize) :
    Proper (dotted steps path) where
  ne_empty := by
    have hpositive : path.utf8ByteSize ≠ 0 := mt String.utf8ByteSize_eq_zero_iff.mp hpath.ne_empty
    intro hempty
    have hdotted := utf8ByteSize_dotted steps path
    rw [hempty, String.utf8ByteSize_empty] at hdotted
    omega
  no_nul hnul := by
    rcases mem_dotted hnul with hdot | hslash | hmem
    · revert hdot
      decide
    · revert hslash
      decide
    · exact hpath.no_nul hmem
  short := (utf8ByteSize_dotted steps path).trans_le hsize

theorem follow_replicate
    (hplace : (tree.node? place).any Node.isDirectory = true) (steps : Nat) (parts : List String) :
    tree.follow place (List.replicate steps "." ++ parts) = tree.follow place parts := by
  induction steps with
  | zero => rfl
  | succ steps ih =>
      rw [List.replicate_succ, List.cons_append, follow, hplace, ih]
      rfl

/-- Steps that stay in the working directory do not change where a path leads. -/
theorem locate_dotted (hwork : (tree.node? tree.workingDirectory).any Node.isDirectory = true)
    (hpath : Proper path) (hrelative : path.toList.head? ≠ some '/')
    (hsize : 2 * steps + path.utf8ByteSize ≤ maxPathSize) :
    tree.locate (dotted steps path) = tree.locate path := by
  have hstart : (dotted steps path).toList.head? ≠ some '/' := by
    cases steps with
    | zero => exact hrelative
    | succ steps =>
        rw [toList_dotted_succ]
        intro hslash
        cases Option.some.inj hslash
  rw [locate, locate, checkPath_eq_ok_iff.mpr hpath,
    checkPath_eq_ok_iff.mpr (proper_dotted hpath hsize), startOf, startOf,
    beq_eq_false_iff_ne.mpr hstart, beq_eq_false_iff_ne.mpr hrelative, pathParts_dotted]
  exact follow_replicate hwork steps _

/-- A way round to a directory that is too long for its files: the directory can be read, and
nothing is found in it. -/
theorem namedFiles_dotted
    (hwork : (tree.node? tree.workingDirectory).any Node.isDirectory = true)
    (hplace : tree.locate path = .ok place) (hnode : tree.node? place = some .directory)
    (hrelative : path.toList.head? ≠ some '/')
    (hsize : 2 * steps + path.utf8ByteSize ≤ maxPathSize)
    (hlong : maxPathSize < 2 * steps + path.utf8ByteSize + extension.utf8ByteSize + 2) :
    tree.locate (dotted steps path) = .ok place ∧
      namedFiles tree (dotted steps path) extension = .ok [] := by
  have hround : tree.locate (dotted steps path) = .ok place :=
    (locate_dotted hwork (locate_eq_ok_iff.mp hplace).1 hrelative hsize).trans hplace
  obtain ⟨found, hfound⟩ := exists_namedFiles_iff.mpr (readable_of_locate hround hnode)
  rw [← utf8ByteSize_dotted] at hlong
  exact ⟨hround, hfound.trans (congrArg Except.ok (eq_nil_of_namedFiles hfound hlong))⟩

end Dotted

/-- A directory with one file in it. -/
def singleFileTree : FileTree where
  nodes := ⟨[(["d"], .directory), (["d", "a.t"], .file [120])], by decide⟩
  workingDirectory := []

/-- Of a directory whose path is so long that the paths of its files are too long, a scan gives
nothing: a regular file with the right name stands there, and it is passed over. -/
theorem namedFiles_dotted_eq_nil :
    singleFileTree.locate (dotted 2046 "d") = .ok ["d"] ∧
      singleFileTree.node? ["d", "a" ++ "." ++ "t"] = some (.file [120]) ∧
      Identifier "a".toList ∧ namedFiles singleFileTree (dotted 2046 "d") "t" = .ok [] := by
  obtain ⟨hplace, hfound⟩ := namedFiles_dotted (by decide)
    (rfl : singleFileTree.locate "d" = .ok ["d"]) rfl (by decide)
    (by decide : 2 * 2046 + "d".utf8ByteSize ≤ maxPathSize)
    (by decide : maxPathSize < 2 * 2046 + "d".utf8ByteSize + "t".utf8ByteSize + 2)
  exact ⟨hplace, by decide, by decide, hfound⟩

end SpeechRom.Files.FileTree
