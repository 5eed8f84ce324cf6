import Mathlib.Data.List.Sort
import TypeGraph.Project.Scan
import TypeGraph.Proofs.Files.Path
import TypeGraph.Proofs.Files.Walk
import TypeGraph.Proofs.Text.Bytes

/-! A scan finds the source files below a directory, each once and in the order of their places. -/

namespace TypeGraph

open Files

namespace Files.Entry

/-- What holds of files and links, and of a directory if it holds of all that stands in it, holds of
every entry. -/
theorem tree_induction {holds : Entry → Prop} (file : ∀ content, holds (file content))
    (link : ∀ target, holds (link target))
    (directory : ∀ entries, (∀ named ∈ entries, holds named.2) → holds (directory entries))
    (e : Entry) : holds e := by
  cases e with
  | file content => exact file content
  | link target => exact link target
  | directory entries =>
    exact directory entries fun named member => tree_induction file link directory named.2
termination_by sizeOf e
decreasing_by
  -- What stands in a directory is smaller than the directory.
  have smaller := List.sizeOf_lt_of_mem member
  obtain ⟨name, child⟩ := named
  simp only [Entry.directory.sizeOf_spec, Prod.mk.sizeOf_spec] at smaller ⊢
  omega

mutual
/-- Whether each directory of a tree gives proper names to its entries, no name twice. -/
def wellNamed : Entry → Bool
  | file _ | link _ => true
  | directory entries => allWellNamed entries
/-- Whether entries of a directory have proper names, which are all different, as have those below
them. -/
def allWellNamed : List (String × Entry) → Bool
  | [] => true
  | (name, entry) :: rest =>
    Path.isName name && !(rest.map (·.1)).contains name && wellNamed entry && allWellNamed rest
end

/-- A directory is well named if its names are proper and different and so is all that it holds. -/
@[simp] theorem wellNamed_directory {entries : List (String × Entry)} :
    (directory entries).wellNamed ↔ (entries.map (·.1)).Nodup ∧
      ∀ named ∈ entries, Path.isName named.1 ∧ named.2.wellNamed := by
  -- Entry by entry, the check compares a name with those that come later.
  rw [wellNamed]
  induction entries with
  | nil => simp [allWellNamed]
  | cons first rest ih =>
    obtain ⟨name, entry⟩ := first
    simp only [allWellNamed, Bool.and_eq_true, ih, List.map_cons, List.nodup_cons,
      List.forall_mem_cons, Bool.not_eq_true', List.contains_eq_mem, decide_eq_false_iff_not]
    tauto

/-- Where all names are different, each entry is found by its name. -/
theorem lookup_eq_some_iff {entries : List (String × Entry)} (distinct : (entries.map (·.1)).Nodup)
    {name : String} {child : Entry} :
    entries.lookup name = some child ↔ (name, child) ∈ entries := by
  induction entries with
  | nil => simp
  | cons first rest ih =>
    obtain ⟨other, entry⟩ := first
    obtain ⟨new, later⟩ := List.nodup_cons.mp distinct
    by_cases same : name = other
    · -- A later entry of the same name would be a second one.
      subst same
      have absent : (name, child) ∉ rest := fun member => new (List.mem_map.mpr ⟨_, member, rfl⟩)
      simp [absent, eq_comm]
    · simp [List.lookup_cons, beq_false_of_ne same, ih later, same]

/-- Where all names are different, a location leads into the entry with its first name. -/
theorem at?_cons_eq_some_iff {entries : List (String × Entry)}
    (distinct : (entries.map (·.1)).Nodup) {name : String} {rest : Location} {e : Entry} :
    (directory entries).at? (name :: rest) = some e ↔
      ∃ child, (name, child) ∈ entries ∧ child.at? rest = some e := by
  -- The name stands for one entry only, in which the rest of the way is followed.
  simp only [← lookup_eq_some_iff distinct, at?, Entry.entries]
  cases entries.lookup name <;> simp

end Files.Entry

namespace Scanner

/-- Members may be replaced before or after the lists are put in order. -/
theorem inOrder_map {α β : Type} (f : α → β) (named : List (String × List α)) :
    inOrder (named.map fun n => (n.1, n.2.map f)) = (inOrder named).map f := by
  -- The names, which decide about the order, stay as they are.
  have sorted : Entry.sorted (named.map fun n => (n.1, n.2.map f)) =
      (Entry.sorted named).map fun n => (n.1, n.2.map f) := by
    unfold Entry.sorted
    refine (List.map_mergeSort ?_).symm
    exact fun _ _ _ _ => rfl
  rw [inOrder, sorted, inOrder, List.flatMap_map, List.map_flatMap]

mutual
/-- The places of the source files in an entry with a name, where links are not followed. -/
def placesAt (scanner : Scanner) (name : String) : Entry → List Location
  | .file _ => if scanner.accepts name then [[]] else []
  | .link _ => []
  | .directory entries => inOrder (placesAmong scanner entries)
/-- The places of the source files among some entries of a directory, with their names. -/
def placesAmong (scanner : Scanner) : List (String × Entry) → List (String × List Location)
  | [] => []
  | (name, entry) :: rest =>
    (name, (placesAt scanner name entry).map (name :: ·)) :: placesAmong scanner rest
end

/-- The places in a directory are those in its entries, each behind the name of the entry. -/
theorem placesAmong_eq (scanner : Scanner) (entries : List (String × Entry)) :
    scanner.placesAmong entries =
      entries.map fun named =>
        (named.1, (scanner.placesAt named.1 named.2).map (named.1 :: ·)) := by
  induction entries with
  | nil => rfl
  | cons first rest ih => rw [placesAmong, ih, List.map_cons]

mutual
/-- Without links, a scan gives the paths to the places of the source files in an entry. -/
theorem filesAt_eq {scanner : Scanner} (unlinked : scanner.followLinks = false)
    (closed : List Location) (place : Location) (path name : String) (e : Entry) :
    filesAt scanner closed place path name e =
      (scanner.placesAt name e).map (Path.below path) := by
  match e with
  | .file _ =>
    rw [filesAt, placesAt]
    split <;> rfl
  | .link _ =>
    rw [filesAt, placesAt, unlinked]
    rfl
  | .directory entries =>
    rw [filesAt, placesAt, filesAmong_eq unlinked, inOrder_map]
termination_by sizeOf e
/-- Without links, a scan gives the paths to the places of the source files among some entries. -/
theorem filesAmong_eq {scanner : Scanner} (unlinked : scanner.followLinks = false)
    (closed : List Location) (place : Location) (path : String) (entries : List (String × Entry)) :
    filesAmong scanner closed place path entries =
      (scanner.placesAmong entries).map fun n => (n.1, n.2.map (Path.below path)) := by
  match entries with
  | [] => rw [filesAmong, placesAmong, List.map_nil]
  | (name, entry) :: rest =>
    -- One step down, the path to the entry takes over the name at the start of each place.
    rw [filesAmong, placesAmong, filesAt_eq unlinked, filesAmong_eq unlinked, List.map_cons,
      List.map_map]
    rfl
termination_by sizeOf entries
end

/-- The places that are put in order are those in entries of the directory. -/
theorem mem_sorted_placesAmong {scanner : Scanner} {entries : List (String × Entry)}
    {n : String × List Location} :
    n ∈ Entry.sorted (scanner.placesAmong entries) ↔ ∃ named ∈ entries,
      (named.1, (scanner.placesAt named.1 named.2).map (named.1 :: ·)) = n := by
  rw [Entry.sorted, List.mem_mergeSort, placesAmong_eq, List.mem_map]

/-- A place in a directory is that of a source file if the names after the first one are such a
place in an entry with that name. -/
theorem cons_mem_placesAt {scanner : Scanner} {entries : List (String × Entry)}
    {name step : String} {rest : Location} :
    step :: rest ∈ scanner.placesAt name (.directory entries) ↔
      ∃ child, (step, child) ∈ entries ∧ rest ∈ scanner.placesAt step child := by
  rw [placesAt, inOrder, List.mem_flatMap]
  constructor
  · rintro ⟨_, listed, found⟩
    obtain ⟨⟨other, child⟩, member, rfl⟩ := mem_sorted_placesAmong.mp listed
    obtain ⟨way, inside, same⟩ := List.mem_map.mp found
    obtain ⟨rfl, rfl⟩ := List.cons.inj same
    exact ⟨child, member, inside⟩
  · rintro ⟨child, member, found⟩
    exact ⟨_, mem_sorted_placesAmong.mpr ⟨_, member, rfl⟩, List.mem_map_of_mem found⟩

/-- No source file stands at the place of a directory itself. -/
theorem nil_not_mem_placesAt {scanner : Scanner} {entries : List (String × Entry)} {name : String} :
    [] ∉ scanner.placesAt name (.directory entries) := by
  rw [placesAt, inOrder, List.mem_flatMap]
  rintro ⟨_, listed, found⟩
  -- The places in an entry all start with its name.
  obtain ⟨named, -, rfl⟩ := mem_sorted_placesAmong.mp listed
  simp at found

/-- The places of source files are those at which there are files with an accepted last name. -/
theorem mem_placesAt {scanner : Scanner} {e : Entry} (named : e.wellNamed) {name : String}
    {place : Location} :
    place ∈ scanner.placesAt name e ↔
      (∃ content, e.at? place = some (.file content)) ∧ scanner.accepts (place.getLastD name) := by
  induction e using Entry.tree_induction generalizing name place with
  | file content =>
    cases place <;> by_cases accepted : scanner.accepts name <;>
      simp [placesAt, Entry.at?, Entry.entries, accepted]
  | link target => cases place <;> simp [placesAt, Entry.at?, Entry.entries]
  | directory entries ih =>
    obtain ⟨distinct, below⟩ := Entry.wellNamed_directory.mp named
    cases place with
    | nil => simp [nil_not_mem_placesAt, Entry.at?]
    | cons step rest =>
      -- The first name leads to one entry, and the others to a file in it.
      have inner (child : Entry) (member : (step, child) ∈ entries) :
          rest ∈ scanner.placesAt step child ↔
            (∃ content, child.at? rest = some (.file content)) ∧
              scanner.accepts (rest.getLastD step) :=
        ih _ member (below _ member).2
      simp only [cons_mem_placesAt, Entry.at?_cons_eq_some_iff distinct, List.getLastD_cons]
      constructor
      · rintro ⟨child, member, found⟩
        obtain ⟨⟨content, here⟩, accepted⟩ := (inner child member).mp found
        exact ⟨⟨content, child, member, here⟩, accepted⟩
      · rintro ⟨⟨content, child, member, here⟩, accepted⟩
        exact ⟨child, member, (inner child member).mpr ⟨⟨content, here⟩, accepted⟩⟩

/-- All names on the way to a source file are proper ones. -/
theorem isName_of_mem_placesAt {scanner : Scanner} {e : Entry} (named : e.wellNamed) {name : String}
    {place : Location} (found : place ∈ scanner.placesAt name e) :
    ∀ step ∈ place, Path.isName step := by
  induction place generalizing name e with
  | nil => simp
  | cons step rest ih =>
    cases e with
    | file | link =>
      -- Nothing stands below a file or a link.
      rw [placesAt] at found
      simp_all
    | directory entries =>
      obtain ⟨child, member, found⟩ := cons_mem_placesAt.mp found
      obtain ⟨proper, below⟩ := (Entry.wellNamed_directory.mp named).2 _ member
      exact List.forall_mem_cons.mpr ⟨proper, ih below found⟩

/-- Where all names are different, each one in order is smaller than those behind it. -/
theorem pairwise_sorted {named : List (String × List Location)}
    (distinct : (named.map (·.1)).Nodup) :
    (Entry.sorted named).Pairwise fun n m => n.1 < m.1 := by
  -- Sorting puts no name before a smaller one, and equal names there are none.
  have ordered : (Entry.sorted named).Pairwise fun n m => decide (n.1 ≤ m.1) :=
    List.pairwise_mergeSort
      (fun _ _ _ first second => by
        simp only [decide_eq_true_eq] at first second ⊢
        exact String.le_trans first second)
      (fun n m => by simpa using String.le_total n.1 m.1) named
  have different : (Entry.sorted named).Pairwise fun n m => n.1 ≠ m.1 := by
    have perm : (Entry.sorted named).Perm named := List.mergeSort_perm _ _
    exact List.pairwise_map.mp ((perm.map _).nodup_iff.mpr distinct)
  refine ordered.imp₂ (fun n m le ne => ?_) different
  simp only [decide_eq_true_eq] at le
  exact String.not_le.mp fun ge => ne (String.le_antisymm le ge)

/-- The places of source files come in order, and none comes twice. -/
theorem pairwise_placesAt {scanner : Scanner} {e : Entry} (named : e.wellNamed) (name : String) :
    (scanner.placesAt name e).Pairwise
      fun place other => place.map Text.bytes < other.map Text.bytes := by
  induction e using Entry.tree_induction generalizing name with
  | file =>
    rw [placesAt]
    split <;> simp
  | link => simp [placesAt]
  | directory entries ih =>
    obtain ⟨distinct, below⟩ := Entry.wellNamed_directory.mp named
    have names : (scanner.placesAmong entries).map (·.1) = entries.map (·.1) := by
      rw [placesAmong_eq, List.map_map]
      rfl
    rw [placesAt, inOrder, List.pairwise_flatMap]
    constructor
    · -- Behind one name, places come as in the entry with this name.
      intro n member
      obtain ⟨named, listed, rfl⟩ := mem_sorted_placesAmong.mp member
      refine List.pairwise_map.mpr ((ih named listed (below named listed).2 _).imp ?_)
      intro place other before
      exact List.cons_lt_cons_self.mpr before
    · -- Places behind a name come before those behind a later one.
      have start {n : String × List Location}
          (member : n ∈ Entry.sorted (scanner.placesAmong entries)) :
          ∀ place ∈ n.2, ∃ rest, place = n.1 :: rest := by
        obtain ⟨named, -, rfl⟩ := mem_sorted_placesAmong.mp member
        intro place inside
        obtain ⟨rest, -, rfl⟩ := List.mem_map.mp inside
        exact ⟨rest, rfl⟩
      refine (pairwise_sorted (names ▸ distinct)).imp_of_mem ?_
      intro n m earlier later less place inside other inside'
      obtain ⟨rest, rfl⟩ := start earlier place inside
      obtain ⟨rest', rfl⟩ := start later other inside'
      exact List.cons_lt_cons_iff.mpr (.inl (Text.bytes_lt less))

/-- A scan finds paths, if only none, where its root is a directory. -/
theorem exists_scan_iff (scanner : Scanner) (root : String) :
    (∃ paths, scanner.scan root = .ok paths) ↔
      ∃ entries, scanner.files.entry root = .ok (.directory entries) := by
  -- Only what the root leads to decides whether there is a failure.
  simp only [FileTree.entry_eq_ok_iff, scan]
  cases scanner.files.locate true root with
  | error => simp
  | ok place =>
    cases here : scanner.files.top.at? place with
    | none => simp [here]
    | some found => cases found <;> simp [here]

/-- Without links, a scan of a directory gives the paths to the places of the source files in it. -/
theorem scan_eq {scanner : Scanner} (unlinked : scanner.followLinks = false) {root : String}
    {entries : List (String × Entry)}
    (opens : scanner.files.entry root = .ok (.directory entries)) (name : String) :
    scanner.scan root =
      .ok ((scanner.placesAt name (.directory entries)).map (Path.below root)) := by
  obtain ⟨place, leads, here⟩ := FileTree.entry_eq_ok_iff.mp opens
  simp only [scan, leads, here, filesAmong_eq unlinked, inOrder_map, placesAt]

/-- With links left alone, a scan of a directory gives the paths of just those files in it and in
the directories below it that have the extension of the settings. No path comes twice, and they come
in the order of their places below the directory: by the bytes of the first names, where these are
equal by those of the second ones, and so on. -/
theorem scan_sources (files : FileTree) (s : Settings) (unlinked : s.followLinks = false)
    {root : String} {entries : List (String × Entry)}
    (opens : files.entry root = .ok (.directory entries))
    (named : (Entry.directory entries).wellNamed) :
    ∃ found : List Location,
      (ofSettings files s).scan root = .ok (found.map (Path.below root)) ∧
        (found.map (Path.below root)).Nodup ∧
        found.Pairwise (fun place other => place.map Text.bytes < other.map Text.bytes) ∧
        ∀ place, place ∈ found ↔
          (∃ content, (Entry.directory entries).at? place = some (.file content)) ∧
            ∃ above name, place = above ++ [name] ∧
              Path.HasExtension name s.normalizedExtension := by
  -- Nothing depends on the name of the root, which is no file.
  have places : ((ofSettings files s).placesAt "" (.directory entries)).Pairwise _ :=
    pairwise_placesAt named ""
  set found := (ofSettings files s).placesAt "" (.directory entries)
  have proper {place : Location} (member : place ∈ found) :
      place ≠ [] ∧ ∀ step ∈ place, Path.isName step :=
    ⟨fun root => nil_not_mem_placesAt (root ▸ member), isName_of_mem_placesAt named member⟩
  refine ⟨found, scan_eq unlinked opens "", ?_, places, fun place => ?_⟩
  · -- The places are different, being in order, and so are the paths to them.
    have distinct : found.Nodup := places.imp fun {place other} before same => by
      rw [same] at before
      exact List.lt_irrefl _ before
    exact distinct.map_on fun place member other member' same =>
      Path.below_inj (proper member).1 (proper member').1 (proper member).2 (proper member').2 same
  · rw [mem_placesAt named]
    refine and_congr_right fun ⟨content, here⟩ => ?_
    rcases List.eq_nil_or_concat place with rfl | ⟨above, name, rfl⟩
    · cases here
    · rw [List.concat_eq_append, List.getLastD_concat, accepts, decide_eq_true_iff,
        Path.extension?_eq_some_iff]
      simp [ofSettings]

/-- A directory beside a file whose name starts like that of the directory, and entries that only
look like source files. -/
def mixedEntries : List (String × Entry) :=
  [("a.java", .file .empty),
    ("a", .directory [("x.java", .file .empty), ("empty.java", .directory [])]),
    (".java", .file .empty), ("link.java", .link "a.java"), ("again", .link "a")]

/-- All files there are, with the mixed entries in one directory. -/
def mixedFiles : FileTree := ⟨.directory [("app", .directory mixedEntries)], []⟩

/-- Links are left alone by default, and the mixed entries have different names. -/
theorem scan_sources_mixed :
    ({} : Settings).followLinks = false ∧
      mixedFiles.entry "app" = .ok (.directory mixedEntries) ∧
      (Entry.directory mixedEntries).wellNamed ∧
      ∃ found : List Location,
        (ofSettings mixedFiles {}).scan "app" = .ok (found.map (Path.below "app")) ∧
          (found.map (Path.below "app")).Nodup ∧
          found.Pairwise (fun place other => place.map Text.bytes < other.map Text.bytes) ∧
          ∀ place, place ∈ found ↔
            (∃ content, (Entry.directory mixedEntries).at? place = some (.file content)) ∧
              ∃ above name, place = above ++ [name] ∧
                Path.HasExtension name ({} : Settings).normalizedExtension := by
  have opens : mixedFiles.entry "app" = .ok (.directory mixedEntries) := by
    have step : Path.steps "app" = ["app"] := by decide
    refine FileTree.entry_eq_ok_iff.mpr ⟨["app"], ?_, rfl⟩
    rw [FileTree.locate, if_neg (by decide), if_neg (by decide), if_neg (by decide), step,
      FileTree.walk_cons]
    exact FileTree.walk_nil _ true FileTree.linkLimit ["app"]
  have named : (Entry.directory mixedEntries).wellNamed := by decide
  exact ⟨rfl, opens, named, scan_sources mixedFiles {} rfl opens named⟩

/-- A file in a directory comes before one beside it whose name goes on with a dot, though the paths
as a whole are in another order. -/
example : ["a", "x.java"].map Text.bytes < ["a.java"].map Text.bytes ∧
    Text.bytes (Path.below "app" ["a.java"]) < Text.bytes (Path.below "app" ["a", "x.java"]) := by
  decide

end Scanner

end TypeGraph
