import SpeechRom.Files.Tree
import SpeechRom.Proofs.Files.Scan
import SpeechRom.Proofs.OrderedMap
import SpeechRom.Proofs.Text.Tokens

/-!
# Where paths lead in a tree

A path is looked up if it is not empty, has no NUL in it and is not too long (`Proper`); its parts
are then followed one by one (`locate_eq_ok_iff`).  The path of a name in a directory goes one step
further than the path of the directory (`follow_joinPath`), and the names in a directory are those
for which something stands there (`mem_texts_listing_iff`).
-/

namespace SpeechRom.Files

/-! ## Parts of paths -/

theorem pathParts_append_slash (front back : String) :
    pathParts (front ++ "/" ++ back) = pathParts front ++ pathParts back := by
  have hletters : (front ++ "/" ++ back).toList = front.toList ++ '/' :: back.toList := by
    rw [String.toList_append, String.toList_append, List.append_assoc]
    rfl
  rw [pathParts, hletters, Text.pieces_eq_splitOnP, List.splitOnP_append_cons _ _ (by rfl),
    List.map_append, pathParts, pathParts, Text.pieces_eq_splitOnP, Text.pieces_eq_splitOnP]

theorem pathParts_eq_singleton {name : String} (hname : '/' ∉ name.toList) :
    pathParts name = [name] := by
  rw [pathParts, Text.pieces_eq_splitOnP, List.splitOnP_eq_singleton, List.map_singleton,
    String.ofList_toList]
  intro c hc
  exact beq_eq_false_iff_ne.mpr fun hslash => hname (hslash ▸ hc)

theorem not_mem_of_mem_pathParts {path part : String} (hpart : part ∈ pathParts path) :
    '/' ∉ part.toList := by
  obtain ⟨piece, hpiece, rfl⟩ := List.mem_map.mp hpart
  rw [String.toList_ofList]
  intro hslash
  cases Text.eq_false_of_mem_pieces hpiece hslash

/-- A name that leads one step down from a directory. -/
structure Plain (name : String) : Prop where
  no_slash : '/' ∉ name.toList
  ne_self : name ≠ "" ∧ name ≠ "."
  ne_above : name ≠ ".."
  size_le : name.utf8ByteSize ≤ maxNameSize

theorem Plain.head?_ne {name : String} (hname : Plain name) : name.toList.head? ≠ some '/' :=
  fun hslash => hname.no_slash (List.mem_of_mem_head? hslash)

/-! ## Paths that are looked up -/

/-- A path that a system looks up: not empty, without NUL and not too long. -/
structure Proper (path : String) : Prop where
  ne_empty : path ≠ ""
  no_nul : '\x00' ∉ path.toList
  short : path.utf8ByteSize ≤ maxPathSize

namespace FileTree

variable {tree : FileTree} {path directory name : String} {place found : Location}

theorem checkPath_eq_ok_iff : checkPath path = .ok () ↔ Proper path := by
  unfold checkPath
  constructor
  · intro hcheck
    split at hcheck
    · cases hcheck
    split at hcheck
    · cases hcheck
    split at hcheck
    · cases hcheck
    rename_i hnul hempty hshort
    exact ⟨by simpa using hempty, by simpa using hnul, by simpa using hshort⟩
  · rintro ⟨hempty, hnul, hshort⟩
    rw [if_neg (by simpa using hnul), if_neg (by simpa using hempty),
      if_neg (Nat.not_lt.mpr hshort)]

/-- The path leads to a place when its parts are followed, whether it is looked up or not. -/
def Leads (tree : FileTree) (path : String) (place : Location) : Prop :=
  tree.follow (tree.startOf path) (pathParts path) = .ok place

theorem locate_eq_ok_iff : tree.locate path = .ok place ↔ Proper path ∧ tree.Leads path place := by
  rw [locate, bind_eq_ok_iff]
  constructor
  · rintro ⟨⟨⟩, hcheck, hfollow⟩
    exact ⟨checkPath_eq_ok_iff.mp hcheck, hfollow⟩
  · rintro ⟨hproper, hfollow⟩
    exact ⟨(), checkPath_eq_ok_iff.mpr hproper, hfollow⟩

theorem look_eq_ok_iff {node : Node} :
    tree.look path = .ok node ↔
      ∃ place, tree.locate path = .ok place ∧ tree.node? place = some node := by
  rw [look, bind_eq_ok_iff]
  refine exists_congr fun place => and_congr_right fun _ => ?_
  cases tree.node? place <;> simp

theorem kind_eq_ok_iff {kind : Kind} :
    FileSystem.kind tree path = .ok kind ↔ ∃ node, tree.look path = .ok node ∧ node.kind = kind :=
  map_eq_ok_iff

theorem read_eq_ok_iff {bytes : List UInt8} :
    FileSystem.read tree path = .ok bytes ↔
      ∃ node, tree.look path = .ok node ∧ node.read tree.input = .ok bytes :=
  bind_eq_ok_iff

/-! ## Following a path -/

theorem follow_append (tree : FileTree) (place : Location) (parts rest : List String) :
    tree.follow place (parts ++ rest) =
      (do tree.follow (← tree.follow place parts) rest) := by
  induction parts generalizing place with
  | nil => rfl
  | cons part parts ih =>
      rw [List.cons_append, follow, follow]
      split_ifs <;> first | rfl | exact ih _

/-- A plain name leads one step down. -/
theorem follow_plain (hplace : (tree.node? place).any Node.isDirectory = true)
    (hname : Plain name) :
    tree.follow place [name] =
      if (tree.node? (place ++ [name])).isSome then .ok (place ++ [name]) else .error .notFound := by
  obtain ⟨_, ⟨hempty, hself⟩, habove, hsize⟩ := hname
  rw [follow, hplace, if_neg (by simp), if_neg (by simp [hempty, hself]), if_neg habove,
    if_neg (Nat.not_lt.mpr hsize)]
  rfl

theorem startOf_append (tree : FileTree) {front : String} (hfront : front ≠ "") (back : String) :
    tree.startOf (front ++ back) = tree.startOf front := by
  have hletters : front.toList ≠ [] := mt String.toList_eq_nil_iff.mp hfront
  rw [startOf, startOf, String.toList_append, List.head?_append_of_ne_nil _ hletters]

/-- A slash at the end of a path changes nothing, since it can only be the path of a directory. -/
theorem follow_slash {start : Location} {front : String}
    (hfollow : tree.follow start (pathParts (front ++ "/")) = .ok place) :
    tree.follow start (pathParts front) = .ok place := by
  have hparts : pathParts (front ++ "/") = pathParts front ++ [""] := by
    rw [← String.append_empty (s := front ++ "/"), pathParts_append_slash]
    rfl
  rw [hparts, follow_append, bind_eq_ok_iff] at hfollow
  obtain ⟨found, hfound, hlast⟩ := hfollow
  rw [follow] at hlast
  split at hlast
  · cases hlast
  · cases hlast
    exact hfound

/-- The path of a name in a directory leads to the directory first. -/
theorem follow_joinPath (hdirectory : directory ≠ "") (hleads : tree.Leads directory place)
    (hname : Plain name) :
    tree.follow (tree.startOf (joinPath directory name)) (pathParts (joinPath directory name)) =
      tree.follow place [name] := by
  have hlast : pathParts name = [name] := pathParts_eq_singleton hname.no_slash
  have hempty : directory.isEmpty = false := by simpa using hdirectory
  rw [joinPath, hempty, beq_eq_false_iff_ne.mpr hname.head?_ne, Bool.or_false,
    if_neg Bool.false_ne_true]
  split
  · rename_i hslash
    obtain ⟨front, hfront⟩ := List.getLast?_eq_some_iff.mp (beq_iff_eq.mp hslash)
    obtain rfl : String.ofList front ++ "/" = directory := by
      rw [← String.toList_inj, String.toList_append, String.toList_ofList, hfront]
      rfl
    rw [startOf_append tree hdirectory, pathParts_append_slash, hlast, follow_append,
      follow_slash hleads]
    rfl
  · rw [String.append_assoc, startOf_append tree hdirectory, ← String.append_assoc,
      pathParts_append_slash, hlast, follow_append]
    exact congrArg (· >>= (tree.follow · [name])) hleads

/-! ## The names in a directory -/

theorem mem_children_iff {node : Node} :
    (name, node) ∈ tree.children place ↔ tree.node? (place ++ [name]) = some node := by
  have hplace : (place ++ [name]).isEmpty = false := by simp
  rw [node?, hplace, if_neg Bool.false_ne_true, OrderedMap.get?_eq_some_iff, children,
    List.mem_filterMap]
  constructor
  · rintro ⟨⟨location, found⟩, hentry, hchild⟩
    dsimp only at hchild
    split at hchild
    · rename_i last hlast
      rw [Option.ite_none_right_eq_some, Option.some.injEq, Prod.mk.injEq] at hchild
      obtain ⟨rfl, rfl, rfl⟩ := hchild
      obtain ⟨front, rfl⟩ := List.getLast?_eq_some_iff.mp hlast
      rwa [List.dropLast_concat]
    · cases hchild
  · intro hentry
    refine ⟨_, hentry, ?_⟩
    simp

theorem mem_texts_listing_iff :
    name ∈ (tree.listing place).texts ↔ (tree.node? (place ++ [name])).isSome = true := by
  rw [Listing.mem_texts_iff, listing, List.mem_map, Option.isSome_iff_exists]
  constructor
  · rintro ⟨⟨other, node⟩, hchild, hname⟩
    obtain rfl := Text.utf8_inj.mp hname
    exact ⟨node, mem_children_iff.mp hchild⟩
  · rintro ⟨node, hnode⟩
    exact ⟨(name, node), mem_children_iff.mpr hnode, rfl⟩

theorem enumerate_eq_ok_iff {listing : Listing} :
    FileSystem.enumerate tree directory = .ok listing ↔
      ∃ place, tree.locate directory = .ok place ∧ tree.node? place = some .directory ∧
        tree.listing place = listing := by
  change tree.enumerate directory = _ ↔ _
  rw [enumerate, bind_eq_ok_iff]
  refine exists_congr fun place => and_congr_right fun _ => ?_
  change (if _ then _ else _) = _ ↔ _
  cases tree.node? place with
  | none => simp
  | some node => cases node <;> simp [Node.isDirectory, pure, Except.pure]

end FileTree

end SpeechRom.Files
