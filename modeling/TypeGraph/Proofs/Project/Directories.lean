import TypeGraph.Proofs.Project.Scan

/-! The directories of a tree, what has names in them, and the paths that lead there. -/

namespace TypeGraph.Files

namespace Entry

mutual
/-- All names that the directories of a tree give to their entries. -/
def names : Entry → List String
  | file _ | link _ => []
  | directory entries => namesAmong entries
/-- All names of entries of a directory and of what they hold. -/
def namesAmong : List (String × Entry) → List String
  | [] => []
  | (name, entry) :: rest => name :: (names entry ++ namesAmong rest)
end

/-- The names in a directory are those of its entries and those in each of them. -/
theorem mem_names_directory {entries : List (String × Entry)} {name : String} :
    name ∈ (directory entries).names ↔
      ∃ named ∈ entries, name = named.1 ∨ name ∈ named.2.names := by
  -- The names are collected entry by entry.
  rw [names]
  induction entries with
  | nil => simp [namesAmong]
  | cons first rest ih =>
    obtain ⟨other, entry⟩ := first
    simp only [namesAmong, List.mem_cons, List.mem_append, ih, exists_eq_or_imp, or_assoc]

/-- In a well-named directory, a name leads to the entry that has it. -/
theorem at?_concat_eq_some_iff {top : Entry} {place : Location} {entries : List (String × Entry)}
    (here : top.at? place = some (directory entries)) (distinct : (entries.map (·.1)).Nodup)
    {name : String} {e : Entry} :
    top.at? (place ++ [name]) = some e ↔ (name, e) ∈ entries := by
  rw [at?_append, here, Option.bind_some, at?_cons_eq_some_iff distinct]
  simp [at?]

/-- What holds of the whole tree and, with a directory, of all entries in it holds at every
location. -/
theorem at?_induction (holds : Entry → Prop) {top e : Entry} {place : Location}
    (whole : holds top)
    (inside : ∀ entries, holds (directory entries) → ∀ named ∈ entries, holds named.2)
    (here : top.at? place = some e) : holds e := by
  -- Each name of the location leads to an entry of the directory before it.
  induction place generalizing top with
  | nil =>
    obtain rfl : top = e := by simpa [at?] using here
    exact whole
  | cons name rest ih =>
    cases top with
    | file | link => simp [at?, entries] at here
    | directory entries =>
      simp only [at?, Entry.entries] at here
      cases found : entries.lookup name with
      | none => simp [found] at here
      | some child =>
        rw [found] at here
        obtain ⟨before, after, cut, -⟩ := List.lookup_eq_some_iff.mp found
        exact ih (inside entries whole (name, child) (by simp [cut])) here

/-- What stands in a well-named tree is well named. -/
theorem wellNamed_of_at? {top e : Entry} {place : Location} (named : top.wellNamed)
    (here : top.at? place = some e) : e.wellNamed :=
  at?_induction (fun e => e.wellNamed) named
    (fun _ whole entry member => ((wellNamed_directory.mp whole).2 entry member).2) here

/-- The names in what stands in a tree are names of the tree. -/
theorem names_of_at? {top e : Entry} {place : Location} (here : top.at? place = some e) :
    ∀ name ∈ e.names, name ∈ top.names :=
  at?_induction (fun e => ∀ name ∈ e.names, name ∈ top.names) (fun _ member => member)
    (fun _ whole entry member name inside =>
      whole name (mem_names_directory.mpr ⟨entry, member, .inr inside⟩)) here

/-- What is at a name below a location is an entry of the directory there. -/
theorem exists_listed {top e : Entry} {place : Location} {name : String} (named : top.wellNamed)
    (here : top.at? (place ++ [name]) = some e) :
    ∃ entries, top.at? place = some (directory entries) ∧ (name, e) ∈ entries := by
  have seen : top.sight? (place ++ [name]) ≠ none := by simp [sight?, here]
  obtain ⟨entries, above⟩ := sight?_eq_directory.mp (sight?_eq_directory_of_below seen)
  have distinct := (wellNamed_directory.mp (wellNamed_of_at? named above)).1
  exact ⟨entries, above, (at?_concat_eq_some_iff above distinct).mp here⟩

/-- Names below a location of a well-named tree are proper ones, and names of the tree. -/
theorem isName_of_at?_concat {top e : Entry} {place : Location} {name : String}
    (named : top.wellNamed) (here : top.at? (place ++ [name]) = some e) :
    Path.isName name ∧ name ∈ top.names := by
  obtain ⟨entries, above, member⟩ := exists_listed named here
  have proper := (wellNamed_directory.mp (wellNamed_of_at? named above)).2 _ member
  exact ⟨proper.1, names_of_at? above name (mem_names_directory.mpr ⟨_, member, .inl rfl⟩)⟩

/-- The directories among some entries are those in each of them, behind its name. -/
theorem directoriesAmong_eq (place : Location) (entries : List (String × Entry)) :
    directoriesAmong place entries =
      entries.flatMap fun named => directories (place ++ [named.1]) named.2 := by
  induction entries with
  | nil => rfl
  | cons first rest ih => rw [directoriesAmong, ih, List.flatMap_cons]

/-- All directories of a tree are listed, behind the location at which the tree stands. -/
theorem mem_directories {e : Entry} (named : e.wellNamed) {place other : Location} :
    other ∈ e.directories place ↔
      ∃ rest, other = place ++ rest ∧ e.sight? rest = some .directory := by
  -- The location of a directory is that of the tree or goes on into one of its entries.
  induction e using tree_induction generalizing place with
  | file | link =>
    simp only [directories, List.not_mem_nil, false_iff]
    rintro ⟨rest, -, here⟩
    cases rest <;> cases here
  | directory entries ih =>
    obtain ⟨distinct, below⟩ := wellNamed_directory.mp named
    simp only [directories, directoriesAmong_eq, List.mem_cons, List.mem_flatMap]
    constructor
    · rintro (rfl | ⟨⟨name, child⟩, member, listed⟩)
      · exact ⟨[], by simp, rfl⟩
      · obtain ⟨rest, rfl, here⟩ := (ih _ member (below _ member).2).mp listed
        have found := (lookup_eq_some_iff distinct).mpr member
        exact ⟨name :: rest, by simp, by simp [found, here]⟩
    · rintro ⟨rest, rfl, here⟩
      cases rest with
      | nil => exact .inl (by simp)
      | cons name rest =>
        rw [sight?_cons, Option.bind_eq_some_iff] at here
        obtain ⟨child, found, here⟩ := here
        have member := (lookup_eq_some_iff distinct).mp found
        exact .inr ⟨_, member, (ih _ member (below _ member).2).mpr ⟨rest, by simp, here⟩⟩

/-- No directory of a tree is listed twice. -/
theorem nodup_directories {e : Entry} (named : e.wellNamed) (place : Location) :
    (e.directories place).Nodup := by
  induction e using tree_induction generalizing place with
  | file | link => exact List.nodup_nil
  | directory entries ih =>
    obtain ⟨distinct, below⟩ := wellNamed_directory.mp named
    -- What is listed for an entry lies behind its name.
    have behind : ∀ named ∈ entries, ∀ other ∈ named.2.directories (place ++ [named.1]),
        ∃ rest, other = place ++ named.1 :: rest := by
      intro named member other listed
      obtain ⟨rest, rfl, -⟩ := (mem_directories (below _ member).2).mp listed
      exact ⟨rest, by simp⟩
    rw [directories, directoriesAmong_eq, List.nodup_cons, List.nodup_flatMap]
    refine ⟨?_, fun named member => ih _ member (below _ member).2 _, ?_⟩
    · intro listed
      obtain ⟨named, member, listed⟩ := List.mem_flatMap.mp listed
      obtain ⟨rest, same⟩ := behind named member _ listed
      simp at same
    · refine (List.pairwise_map.mp distinct).imp_of_mem ?_
      intro named named' member member' different other listed listed'
      obtain ⟨rest, same⟩ := behind named member other listed
      obtain ⟨rest', same'⟩ := behind named' member' other listed'
      simp_all

end Entry

namespace FileTree

/-- Whether a path has steps that lead to a location, past all links. -/
def Leads (t : FileTree) (path : String) (place : Location) : Prop :=
  path ≠ "" ∧ walk t.top true linkLimit (origin t.here path) (Path.steps path) = .ok place

/-- A path leads to the location that is found for it. -/
theorem leads_of_locate {t : FileTree} {path : String} {place : Location}
    (found : t.locate true path = .ok place) : t.Leads path place := by
  -- Only paths that are not empty, and can be used at all, are followed.
  unfold locate at found
  split_ifs at found with empty
  exact ⟨empty, found⟩

/-- Whether a step with a name leads to what has this name in a directory. -/
def isStep (name : String) : Bool :=
  name ≠ "." && name ≠ ".." && name.utf8ByteSize ≤ nameLimit

/-- A path with the name of a file or directory behind it leads to that, if the path alone leads to
the directory in which it stands. -/
theorem Leads.join {t : FileTree} {directory name : String} {place : Location} {seen : Sight}
    (leads : t.Leads directory place) (proper : Path.isName name) (step : isStep name)
    (here : t.top.sight? (place ++ [name]) = some seen)
    (unlinked : ∀ target, seen ≠ .link target) :
    t.Leads (Path.join directory name) (place ++ [name]) := by
  have above : t.top.sight? place = some .directory :=
    Entry.sight?_eq_directory_of_below (here ▸ Option.some_ne_none seen)
  obtain ⟨⟨stays, up⟩, short⟩ : (name ≠ "." ∧ name ≠ "..") ∧ name.utf8ByteSize ≤ nameLimit := by
    simpa [isStep] using step
  obtain ⟨nonempty, leads⟩ := leads
  refine ⟨Path.join_ne_empty directory proper, ?_⟩
  rw [origin, Path.isAbsolute_join nonempty, ← origin, Path.steps_join directory proper]
  rw [Path.steps] at leads
  rcases walk_append t.top linkLimit (origin t.here directory)
    ((Path.pieces directory).filter (· ≠ "")) with ⟨cause, fails⟩ | ⟨fewer, last, goes⟩
  · rw [fails] at leads
    cases leads
  · -- Where the path ends with a slash, one more step stays in the directory.
    rw [goes] at leads ⊢
    obtain rfl : last = place := by
      split at leads
      · rw [walk_cons, if_pos rfl, walk_nil] at leads
        split at leads
        · exact Except.ok.inj leads
        · cases leads
      · rw [walk_nil] at leads
        exact Except.ok.inj leads
    rw [walk_cons, if_pos above, if_neg stays, if_neg up, if_neg (Nat.not_lt.mpr short), here]
    cases seen with
    | file | directory => exact walk_nil _ _ _ _
    | link target => exact absurd rfl (unlinked target)

end FileTree

end TypeGraph.Files
