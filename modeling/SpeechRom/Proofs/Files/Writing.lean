import SpeechRom.Proofs.Files.Locations

/-!
# Writing a file

What a system promises of a write is that it touches one file: whatever does not lead to it is found
as before, and if the write succeeds, what is read from the file is what was written
(`WritesInPlace`).  Several paths may lead to one file, so which paths lead to the same file is up to
the system as well.

Trees keep that promise (`FileTree.writesInPlace`).  There a path that is written leads to a
directory and names something in it (`FileTree.Names`), and the trees before and after differ at that
place only (`FileTree.DifferAt`).
-/

namespace SpeechRom.Files

/-! ## The promise of a system -/

section Systems

variable {φ : Type} [FileSystem φ]

/-- Of two states, all that does not lead to the file of a path in the second one is the same: where
paths lead, what is read from there, and the names in directories.  Only the reason for which an
answer is refused may be another one, since a path that leads nowhere may lead through the file. -/
structure SameElsewhere (same : φ → String → String → Prop) (path : String) (before after : φ) :
    Prop where
  kind : ∀ other, ¬same after path other →
    (FileSystem.kind after other).toOption = (FileSystem.kind before other).toOption
  read : ∀ other, ¬same after path other →
    (FileSystem.read after other).toOption = (FileSystem.read before other).toOption
  listing : ∀ directory, Option.Rel
    (fun (listing other : Listing) => listing.failure = other.failure ∧
      ∀ name, ¬same after path (joinPath directory name) →
        (name ∈ listing.texts ↔ name ∈ other.texts))
    (FileSystem.enumerate after directory).toOption
    (FileSystem.enumerate before directory).toOption

/-- Content was written to the file of a path, and nothing else was touched.  The path leads to a
new file if it led nowhere; if it leads to a file, what is read from it is the content. -/
structure Written (same : φ → String → String → Prop) (path : String) (content : List UInt8)
    (before after : φ) : Prop extends SameElsewhere same path before after where
  kind_path : FileSystem.kind after path =
    .ok ((FileSystem.kind before path).toOption.getD .file)
  content_eq : FileSystem.kind after path = .ok .file →
    ∀ bytes, FileSystem.read after path = .ok bytes → bytes = content

/-- What a system promises of a write, where two paths are the same if they lead to one file. -/
structure WritesInPlace (same : φ → String → String → Prop) : Prop where
  refused : ∀ {path : String} {content : List UInt8} {before after : φ} {reason : SystemError},
    (FileSystem.write path content).runFrom before = (.error reason, after) →
      SameElsewhere same path before after
  written : ∀ {path : String} {content : List UInt8} {before after : φ},
    (FileSystem.write path content).runFrom before = (.ok (), after) →
      Written same path content before after

theorem SameElsewhere.refl (same : φ → String → String → Prop) (path : String) (files : φ) :
    SameElsewhere same path files files where
  kind _ _ := rfl
  read _ _ := rfl
  listing directory := by
    cases (FileSystem.enumerate files directory).toOption with
    | none => exact .none
    | some listing => exact .some ⟨rfl, fun _ _ => .rfl⟩

end Systems

namespace FileTree

variable {tree before after : FileTree} {path name : String} {content : List UInt8}
  {place found : Location}

/-! ## Trees that differ at one place -/

/-- The trees differ at one place at most, and neither has a directory there. -/
structure DifferAt (place : Location) (before after : FileTree) : Prop where
  node?_eq : ∀ other, other ≠ place → after.node? other = before.node? other
  before_file : (before.node? place).any Node.isDirectory = false
  after_file : (after.node? place).any Node.isDirectory = false
  working : after.workingDirectory = before.workingDirectory
  input : after.input = before.input

namespace DifferAt

variable (hdiffer : DifferAt place before after)

include hdiffer

theorem symm : DifferAt place after before :=
  ⟨fun other hother => (hdiffer.node?_eq other hother).symm, hdiffer.after_file,
    hdiffer.before_file, hdiffer.working.symm, hdiffer.input.symm⟩

theorem any_isDirectory_eq (other : Location) :
    (after.node? other).any Node.isDirectory = (before.node? other).any Node.isDirectory := by
  by_cases hother : other = place
  · rw [hother, hdiffer.after_file, hdiffer.before_file]
  · rw [hdiffer.node?_eq other hother]

/-- What is found in the second tree is found in the first one, unless it is at the place and nothing
stands there. -/
theorem follow_of_follow {start : Location} {parts : List String}
    (hend : found = place → (before.node? place).isSome = true)
    (hfollow : after.follow start parts = .ok found) : before.follow start parts = .ok found := by
  induction parts generalizing start with
  | nil => exact hfollow
  | cons part parts ih =>
      rw [follow, hdiffer.any_isDirectory_eq] at hfollow
      rw [follow]
      split_ifs at hfollow ⊢ with hstart hself habove hlong hnew
      · exact ih hfollow
      · exact ih hfollow
      · exact ih hfollow
      · rename_i hafter
        -- only the place can be new, and it leads nowhere but to itself
        have hstep : start ++ [part] = place := by
          by_contra hother
          exact hnew (hdiffer.node?_eq _ hother ▸ hafter)
        rw [hstep] at hfollow hnew
        cases parts with
        | nil => exact absurd (hend (Except.ok.inj hfollow).symm) hnew
        | cons next rest =>
            rw [follow, hdiffer.after_file] at hfollow
            cases hfollow

theorem startOf_eq (path : String) : after.startOf path = before.startOf path := by
  rw [startOf, startOf, hdiffer.working]

theorem leads_iff (hne : found ≠ place) : after.Leads path found ↔ before.Leads path found := by
  rw [Leads, Leads, hdiffer.startOf_eq]
  exact ⟨hdiffer.follow_of_follow fun heq => absurd heq hne,
    hdiffer.symm.follow_of_follow fun heq => absurd heq hne⟩

theorem leads_of_leads (hthere : (after.node? place).isSome = true)
    (hleads : before.Leads path found) : after.Leads path found := by
  rw [Leads, hdiffer.startOf_eq]
  exact hdiffer.symm.follow_of_follow (fun _ => hthere) hleads

/-- Both trees have the same directories. -/
theorem exists_listing {directory : String} {listing : Listing}
    (henumerate : FileSystem.enumerate after directory = .ok listing) :
    ∃ place, after.locate directory = .ok place ∧ after.node? place = some .directory ∧
      after.listing place = listing ∧
      FileSystem.enumerate before directory = .ok (before.listing place) := by
  obtain ⟨found, hlocate, hnode, hlisting⟩ := enumerate_eq_ok_iff.mp henumerate
  have hne : found ≠ place := by
    rintro rfl
    have hfile := hdiffer.after_file
    rw [hnode] at hfile
    cases hfile
  obtain ⟨hproper, hleads⟩ := locate_eq_ok_iff.mp hlocate
  have hbefore := locate_eq_ok_iff.mpr ⟨hproper, (hdiffer.leads_iff hne).mp hleads⟩
  exact ⟨found, hlocate, hnode, hlisting, enumerate_eq_ok_iff.mpr
    ⟨found, hbefore, hdiffer.node?_eq found hne ▸ hnode, rfl⟩⟩

end DifferAt

/-! ## What does not lead to the place -/

/-- The two paths lead to one place. -/
def LeadTogether (tree : FileTree) (path other : String) : Prop :=
  ∃ place, tree.Leads path place ∧ tree.Leads other place

section Elsewhere

variable {front : Location} {last : String} (hdiffer : DifferAt place before after)
  (hthere : (after.node? place).isSome = true)
  (hpath : after.Leads path place)

include hdiffer hthere hpath

/-- A path that does not lead to the place leads to the same node in both trees. -/
theorem look_eq_ok_iff_of_not_together {other : String} (hother : ¬LeadTogether after path other)
    {node : Node} : after.look other = .ok node ↔ before.look other = .ok node := by
  have hne {found : Location} (hleads : after.Leads other found) : found ≠ place := by
    rintro rfl
    exact hother ⟨found, hpath, hleads⟩
  simp only [look_eq_ok_iff, locate_eq_ok_iff]
  constructor
  · rintro ⟨found, ⟨hproper, hleads⟩, hnode⟩
    have hfound := hne hleads
    exact ⟨found, ⟨hproper, (hdiffer.leads_iff hfound).mp hleads⟩,
      hdiffer.node?_eq found hfound ▸ hnode⟩
  · rintro ⟨found, ⟨hproper, hleads⟩, hnode⟩
    have hafter := hdiffer.leads_of_leads hthere hleads
    exact ⟨found, ⟨hproper, hafter⟩, (hdiffer.node?_eq found (hne hafter)).trans hnode⟩

/-- A name in a directory that does not lead to the place stands there in both trees. -/
theorem mem_texts_iff_of_not_together {directory : String} (hplain : Plain last)
    (hplace : place = front ++ [last]) (hlocate : after.locate directory = .ok found)
    (hnode : after.node? found = some .directory)
    (hname : ¬LeadTogether after path (joinPath directory name)) :
    name ∈ (after.listing found).texts ↔ name ∈ (before.listing found).texts := by
  rw [mem_texts_listing_iff, mem_texts_listing_iff]
  by_cases hother : found ++ [name] = place
  · obtain ⟨rfl, hlast⟩ := List.append_inj' (hother.trans hplace) rfl
    obtain rfl : name = last := List.singleton_inj.mp hlast
    -- the path of the name is followed to the place
    have hjoin : after.Leads (joinPath directory name) (found ++ [name]) := by
      obtain ⟨hproper, hleads⟩ := locate_eq_ok_iff.mp hlocate
      rw [Leads, follow_joinPath hproper.ne_empty hleads hplain,
        follow_plain (by rw [hnode]; rfl) hplain, hother, if_pos hthere]
    exact absurd ⟨place, hpath, hother ▸ hjoin⟩ hname
  · rw [hdiffer.node?_eq _ hother]

theorem sameElsewhere_of_differAt (hplain : Plain last) (hplace : place = front ++ [last]) :
    SameElsewhere LeadTogether path before after where
  kind other hother := by
    refine toOption_congr fun kind => ?_
    simp only [kind_eq_ok_iff, look_eq_ok_iff_of_not_together hdiffer hthere hpath hother]
  read other hother := by
    refine toOption_congr fun bytes => ?_
    simp only [read_eq_ok_iff, look_eq_ok_iff_of_not_together hdiffer hthere hpath hother,
      hdiffer.input]
  listing directory := by
    cases hafter : FileSystem.enumerate after directory with
    | ok listing =>
        obtain ⟨found, hlocate, hnode, rfl, hbefore⟩ := hdiffer.exists_listing hafter
        rw [hbefore]
        exact .some ⟨rfl, fun name hname =>
          mem_texts_iff_of_not_together hdiffer hthere hpath hplain hplace hlocate hnode hname⟩
    | error reason =>
        cases hbefore : FileSystem.enumerate before directory with
        | ok listing =>
            obtain ⟨_, _, _, _, hother⟩ := hdiffer.symm.exists_listing hbefore
            cases hafter.symm.trans hother
        | error other => exact .none

end Elsewhere

/-! ## The place to write to -/

variable {directory : Location}

/-- The path leads to a directory and names something in it, which need not be there. -/
structure Names (tree : FileTree) (path : String) (directory : Location) (name : String) :
    Prop where
  proper : Proper path
  parts : ∃ parts, pathParts path = parts ++ [name] ∧
    tree.follow (tree.startOf path) parts = .ok directory
  isDirectory : (tree.node? directory).any Node.isDirectory = true
  plain : Plain name

theorem Names.leads_iff (hnames : tree.Names path directory name) :
    tree.Leads path found ↔
      (tree.node? (directory ++ [name])).isSome = true ∧ directory ++ [name] = found := by
  obtain ⟨parts, hparts, hfollow⟩ := hnames.parts
  rw [Leads, hparts, follow_append, hfollow]
  change tree.follow directory [name] = .ok found ↔ _
  rw [follow_plain hnames.isDirectory hnames.plain]
  split <;> simp [*]

theorem Names.look_eq_ok_iff {node : Node} (hnames : tree.Names path directory name) :
    tree.look path = .ok node ↔ tree.node? (directory ++ [name]) = some node := by
  simp only [FileTree.look_eq_ok_iff, locate_eq_ok_iff, hnames.leads_iff,
    and_iff_right hnames.proper]
  constructor
  · rintro ⟨_, ⟨_, rfl⟩, hnode⟩
    exact hnode
  · intro hnode
    exact ⟨_, ⟨by rw [hnode]; rfl, rfl⟩, hnode⟩

/-- A path that does not only name a directory ends in a name. -/
theorem splitLast_eq {parts : List String} (hnames : namesDirectory path = false)
    (hsplit : splitLast path = some (parts, name)) :
    pathParts path = parts ++ [name] ∧ name ≠ "" ∧ name ≠ "." ∧ name ≠ ".." := by
  obtain hnil | ⟨front, last, hparts⟩ := (pathParts path).eq_nil_or_concat
  · simp [splitLast, hnil] at hsplit
  · have hlast : last ≠ "" ∧ last ≠ "." ∧ last ≠ ".." := by
      simpa [namesDirectory, fileName, hparts] using hnames
    have hsplit' : front = parts ∧ last = name := by
      simpa [splitLast, hparts, List.dropWhile_cons, hlast.1] using hsplit
    obtain ⟨rfl, rfl⟩ := hsplit'
    exact ⟨hparts.trans (List.concat_eq_append ..), hlast⟩

theorem names_of_write (hwrite : tree.write path content = .ok after) :
    ∃ directory name, tree.Names path directory name ∧
      (tree.node? (directory ++ [name])).any Node.isDirectory = false ∧
      tree.put (directory ++ [name]) content = .ok after := by
  obtain ⟨⟨⟩, hchecked, hwrite⟩ := bind_eq_ok_iff.mp hwrite
  split at hwrite
  · cases hwrite
  · rename_i parts name hsplit
    obtain ⟨directory, hfollow, hwrite⟩ := bind_eq_ok_iff.mp hwrite
    split_ifs at hwrite with hdirectory hpath hlong hthere
    obtain ⟨hparts, hempty, hself, habove⟩ := splitLast_eq (by simpa using hpath) hsplit
    have hplain : Plain name :=
      ⟨not_mem_of_mem_pathParts (hparts ▸ List.mem_append_right _ List.mem_cons_self),
        ⟨hempty, hself⟩, habove, Nat.le_of_not_lt hlong⟩
    refine ⟨directory, name, ⟨checkPath_eq_ok_iff.mp hchecked, ⟨parts, hparts, hfollow⟩, ?_,
      hplain⟩, ?_, hwrite⟩
    · simpa using hdirectory
    · simpa using hthere

/-! ## What is written -/

/-- What stands where after content was put at a place. -/
theorem node?_insert (tree : FileTree) (place : Location) (hplace : place ≠ []) (node : Node)
    (other : Location) :
    FileTree.node? { tree with nodes := tree.nodes.insert place node } other =
      if other = place then some node else tree.node? other := by
  unfold node?
  by_cases hother : other = place
  · subst hother
    simp [hplace, OrderedMap.get?_insert]
  · simp [hother, OrderedMap.get?_insert]

theorem differAt_insert (hfree : (tree.node? (directory ++ [name])).any Node.isDirectory = false)
    (content : List UInt8) :
    DifferAt (directory ++ [name]) tree
      { tree with nodes := tree.nodes.insert (directory ++ [name]) (.file content) } := by
  have hnode := node?_insert tree (directory ++ [name]) (by simp) (.file content)
  refine ⟨fun other hother => ?_, hfree, ?_, rfl, rfl⟩
  · rw [hnode, if_neg hother]
  · rw [hnode, if_pos rfl]
    rfl

/-- The path still names the place once a file is there. -/
theorem DifferAt.names (hdiffer : DifferAt (directory ++ [name]) before after)
    (hthere : (after.node? (directory ++ [name])).isSome = true)
    (hnames : before.Names path directory name) : after.Names path directory name := by
  obtain ⟨parts, hparts, hfollow⟩ := hnames.parts
  refine ⟨hnames.proper, ⟨parts, hparts, ?_⟩, ?_, hnames.plain⟩
  · rw [hdiffer.startOf_eq]
    exact hdiffer.symm.follow_of_follow (fun _ => hthere) hfollow
  · rw [hdiffer.any_isDirectory_eq]
    exact hnames.isDirectory

theorem runFrom_write (tree : FileTree) (path : String) (content : List UInt8) :
    (FileSystem.write path content).runFrom tree =
      match tree.write path content with
      | .ok after => (.ok (), after)
      | .error reason => (.error reason, tree) := by
  have hrun : (FileSystem.write path content).runFrom tree =
      (Attempt.ofExcept (tree.write path content) >>= set).runFrom tree := rfl
  rw [hrun]
  cases tree.write path content <;> rfl

theorem written_of_write (hwrite : before.write path content = .ok after) :
    Written LeadTogether path content before after := by
  obtain ⟨directory, name, hnames, hfree, hput⟩ := names_of_write hwrite
  unfold put at hput
  split at hput
  · rename_i device hdevice
    have hkind : FileSystem.kind before path = .ok .other :=
      kind_eq_ok_iff.mpr ⟨_, hnames.look_eq_ok_iff.mpr hdevice, rfl⟩
    split at hput
    · cases hput
    · cases hput
      refine ⟨.refl _ _ _, ?_, ?_⟩
      · rw [hkind]
        rfl
      · rw [hkind]
        rintro ⟨⟩
  · rename_i hdevice
    cases hput
    have hdiffer := differAt_insert hfree content
    have hnode := (node?_insert before (directory ++ [name]) (by simp) (.file content)
      (directory ++ [name])).trans (if_pos rfl)
    have hthere := Option.isSome_iff_exists.mpr ⟨_, hnode⟩
    have hafter := hdiffer.names hthere hnames
    have hlook := hafter.look_eq_ok_iff.mpr hnode
    refine ⟨sameElsewhere_of_differAt hdiffer hthere (hafter.leads_iff.mpr ⟨hthere, rfl⟩)
      hnames.plain rfl, ?_, ?_⟩
    · -- what was there is neither a directory nor a device
      refine kind_eq_ok_iff.mpr ⟨_, hlook, ?_⟩
      cases hkind : FileSystem.kind before path with
      | error reason => rfl
      | ok kind =>
          obtain ⟨node, hbefore, rfl⟩ := kind_eq_ok_iff.mp hkind
          rw [hnames.look_eq_ok_iff] at hbefore
          cases node with
          | file | program => rfl
          | directory =>
              rw [hbefore] at hfree
              cases hfree
          | device device => exact absurd hbefore (hdevice device)
    · rintro - bytes hread
      obtain ⟨node, hother, hbytes⟩ := read_eq_ok_iff.mp hread
      cases hlook.symm.trans hother
      exact (Except.ok.inj hbytes).symm

/-- **A tree keeps what is promised of a write.** -/
theorem writesInPlace : WritesInPlace LeadTogether where
  refused hwrite := by
    rw [runFrom_write] at hwrite
    split at hwrite
    · cases hwrite
    · cases hwrite
      exact .refl _ _ _
  written hwrite := by
    rw [runFrom_write] at hwrite
    split at hwrite
    · rename_i hok
      cases hwrite
      exact written_of_write hok
    · cases hwrite

end FileTree

end SpeechRom.Files
