import Mathlib.Data.Prod.Lex
import TypeGraph.Proofs.Project.Directories

/-! A scan that follows links ends, and finds each source file on every way without circles. -/

namespace TypeGraph

open Files

namespace Scanner

/-- How far a scan has come on one way down: the directory it is in, the other directories that are
open around it, and the path that was taken. -/
structure Descent where
  place : Location
  above : List Location
  path : String

namespace Descent

/-- All directories that are open on a way. -/
def opened (d : Descent) : List Location := d.place :: d.above

/-- One directory further down, by a name. -/
def enter (d : Descent) (name : String) (place : Location) : Descent :=
  ⟨place, d.opened, Path.join d.path name⟩

@[simp] theorem mem_opened_enter {d : Descent} {name : String} {place other : Location} :
    other ∈ (d.enter name place).opened ↔ other = place ∨ other ∈ d.opened :=
  List.mem_cons

end Descent

/-- What there is for a scan behind a name. -/
inductive Goal where
  | file
  | directory (place : Location)

/-- What an entry is for a scan that follows links. A directory itself may be open already; a link
must lead to a file or to a directory that is not open. -/
inductive Reveals (files : FileTree) (d : Descent) (name : String) : Entry → Goal → Prop where
  | file (content : ByteArray) : Reveals files d name (.file content) .file
  | directory (entries : List (String × Entry)) :
    Reveals files d name (.directory entries) (.directory (d.place ++ [name]))
  | linkedFile {target : String} {place : Location} {content : ByteArray}
    (leads : files.locate true (Path.join d.path name) = .ok place)
    (here : files.top.at? place = some (.file content)) : Reveals files d name (.link target) .file
  | linkedDirectory {target : String} {place : Location} {entries : List (String × Entry)}
    (leads : files.locate true (Path.join d.path name) = .ok place)
    (here : files.top.at? place = some (.directory entries)) (apart : place ∉ d.opened) :
    Reveals files d name (.link target) (.directory place)

/-- From one directory on a way a scan comes into the next one. -/
inductive Enters (files : FileTree) (d : Descent) : Descent → Prop where
  | intro {name : String} {e : Entry} {place : Location}
    (listed : files.top.at? (d.place ++ [name]) = some e)
    (reveals : Reveals files d name e (.directory place)) : Enters files d (d.enter name place)

/-- The paths of the source files that stand in the directory of a way or further down. -/
inductive Yields (scanner : Scanner) : Descent → String → Prop where
  | file {d : Descent} {name : String} {e : Entry}
    (listed : scanner.files.top.at? (d.place ++ [name]) = some e)
    (reveals : Reveals scanner.files d name e .file) (accepted : scanner.accepts name) :
    Yields scanner d (Path.join d.path name)
  | further {d d' : Descent} {path : String} (enters : Enters scanner.files d d')
    (yields : Yields scanner d' path) : Yields scanner d path

/-- An entry is one thing for a scan, if anything. -/
theorem Reveals.unique {files : FileTree} {d : Descent} {name : String} {e : Entry}
    {goal goal' : Goal} (reveals : Reveals files d name e goal)
    (reveals' : Reveals files d name e goal') : goal = goal' := by
  -- A link leads to one location only, where one thing stands.
  cases reveals <;> cases reveals' <;> simp_all

/-- Where a scan comes into a directory there is one. -/
theorem Reveals.sight? {files : FileTree} {d : Descent} {name : String} {e : Entry}
    {place : Location} (listed : files.top.at? (d.place ++ [name]) = some e)
    (reveals : Reveals files d name e (.directory place)) :
    files.top.sight? place = some .directory := by
  cases reveals with
  | directory entries => exact Entry.sight?_eq_directory.mpr ⟨entries, listed⟩
  | linkedDirectory leads here => exact Entry.sight?_eq_directory.mpr ⟨_, here⟩

section Termination

variable {files : FileTree}

/-- The directories that are not open on a way. -/
def unopened (files : FileTree) (d : Descent) : List Location :=
  (files.top.directories []).filter fun place => !d.opened.contains place

/-- All directories of a tree are listed that are not open. -/
theorem mem_unopened (named : files.top.wellNamed) {d : Descent} {place : Location} :
    place ∈ unopened files d ↔ files.top.sight? place = some .directory ∧ place ∉ d.opened := by
  simp [unopened, Entry.mem_directories named]

/-- How much may lie ahead of a scan: so many directories are not open yet, and the one it is in has
such a size. -/
noncomputable def ahead (files : FileTree) (d : Descent) : ℕ ×ₗ ℕ :=
  toLex ((unopened files d).length, sizeOf (files.top.at? d.place))

/-- With every directory that a scan comes into, less lies ahead of it. -/
theorem ahead_lt (named : files.top.wellNamed) {d d' : Descent} (enters : Enters files d d') :
    ahead files d' < ahead files d := by
  obtain @⟨name, e, place, listed, reveals⟩ := enters
  -- What is open stays open.
  have fewer : (unopened files (d.enter name place)).Sublist (unopened files d) := by
    refine List.monotone_filter_right _ fun other shut => ?_
    simp only [Bool.not_eq_true', List.contains_eq_mem, decide_eq_false_iff_not,
      Descent.mem_opened_enter, not_or] at shut ⊢
    exact shut.2
  rw [ahead, ahead, Prod.Lex.toLex_lt_toLex]
  cases reveals with
  | directory entries =>
    -- A directory itself is smaller than the one in which it stands.
    obtain ⟨outer, here, member⟩ := Entry.exists_listed named listed
    rcases Nat.lt_or_eq_of_le fewer.length_le with less | same
    · exact .inl less
    · refine .inr ⟨same, ?_⟩
      have smaller := List.sizeOf_lt_of_mem member
      simp only [Descent.enter, listed, here, Option.some.sizeOf_spec, Prod.mk.sizeOf_spec,
        Entry.directory.sizeOf_spec] at smaller ⊢
      omega
  | linkedDirectory leads here apart =>
    -- A link opens a directory that was not open.
    have before : place ∈ unopened files d :=
      (mem_unopened named).mpr ⟨Entry.sight?_eq_directory.mpr ⟨_, here⟩, apart⟩
    refine .inl (Nat.lt_of_le_of_ne fewer.length_le fun same => ?_)
    rw [← fewer.eq_of_length same, mem_unopened named] at before
    exact before.2 List.mem_cons_self

/-- No way down goes on for ever. -/
theorem wellFounded_enters (named : files.top.wellNamed) :
    WellFounded fun later earlier => Enters files earlier later :=
  Subrelation.wf (fun enters => ahead_lt named enters) (InvImage.wf (ahead files) wellFounded_lt)

end Termination

section Found

variable {scanner : Scanner}

/-- Paths that are yielded lead down by proper names. -/
theorem Yields.exists_below (named : scanner.files.top.wellNamed) {d : Descent} {path : String}
    (yields : scanner.Yields d path) :
    ∃ way, way ≠ [] ∧ (∀ step ∈ way, Path.isName step) ∧ path = Path.below d.path way := by
  -- Each directory that is entered puts its name in front of the names that follow.
  induction yields with
  | @file d name e listed =>
    have proper := (Entry.isName_of_at?_concat named listed).1
    exact ⟨[name], by simp, by simpa using proper, rfl⟩
  | @further d d' path enters yields ih =>
    obtain @⟨name, e, place, listed, reveals⟩ := enters
    obtain ⟨way, -, proper, rfl⟩ := ih
    have first := (Entry.isName_of_at?_concat named listed).1
    exact ⟨name :: way, by simp, List.forall_mem_cons.mpr ⟨first, proper⟩, rfl⟩

/-- What a scan finds behind one name of a directory. -/
inductive Offers (scanner : Scanner) (d : Descent) (name : String) (e : Entry) :
    String → Prop where
  | file (reveals : Reveals scanner.files d name e .file) (accepted : scanner.accepts name) :
    Offers scanner d name e (Path.join d.path name)
  | directory {place : Location} {path : String}
    (reveals : Reveals scanner.files d name e (.directory place))
    (yields : Yields scanner (d.enter name place) path) : Offers scanner d name e path

/-- Paths behind a name lead down by this name first. -/
theorem Offers.exists_below (named : scanner.files.top.wellNamed) {d : Descent} {name path : String}
    {e : Entry} (listed : scanner.files.top.at? (d.place ++ [name]) = some e)
    (offers : Offers scanner d name e path) :
    ∃ way, (∀ step ∈ name :: way, Path.isName step) ∧ path = Path.below d.path (name :: way) := by
  have first := (Entry.isName_of_at?_concat named listed).1
  cases offers with
  | file => exact ⟨[], by simpa using first, rfl⟩
  | directory reveals yields =>
    obtain ⟨way, -, proper, rfl⟩ := yields.exists_below named
    exact ⟨way, List.forall_mem_cons.mpr ⟨first, proper⟩, rfl⟩

/-- Paths are yielded behind one of the names in a directory. -/
theorem yields_iff {d : Descent} {path : String} :
    scanner.Yields d path ↔ ∃ name e,
      scanner.files.top.at? (d.place ++ [name]) = some e ∧ Offers scanner d name e path := by
  constructor
  · intro yields
    cases yields with
    | file listed reveals accepted => exact ⟨_, _, listed, .file reveals accepted⟩
    | further enters yields =>
      obtain @⟨name, e, place, listed, reveals⟩ := enters
      exact ⟨name, e, listed, .directory reveals yields⟩
  · rintro ⟨name, e, listed, offers⟩
    cases offers with
    | file reveals accepted => exact .file listed reveals accepted
    | directory reveals yields => exact .further (.intro listed reveals) yields

/-- Which directories are closed for a scan: all those that are not open on its way. -/
structure Fits (files : FileTree) (closed : List Location) (d : Descent) : Prop where
  distinct : closed.Nodup
  mem_iff : ∀ place, place ∈ closed ↔ files.top.sight? place = some .directory ∧ place ∉ d.opened

/-- A directory that is opened is closed no more. -/
theorem Fits.enter {files : FileTree} {closed : List Location} {d : Descent}
    (fits : Fits files closed d) (name : String) (place : Location) :
    Fits files (closed.erase place) (d.enter name place) where
  distinct := fits.distinct.erase _
  mem_iff other := by
    rw [fits.distinct.mem_erase_iff, fits.mem_iff, Descent.mem_opened_enter, not_or]
    exact and_left_comm

/-- What is found behind a name of a directory on a way. -/
def foundBehind (scanner : Scanner) (closed : List Location) (d : Descent) (name : String)
    (e : Entry) : List String :=
  filesAt scanner closed (d.place ++ [name]) (Path.join d.path name) name e

/-- What is found in a directory on a way. -/
def found (scanner : Scanner) (closed : List Location) (d : Descent)
    (entries : List (String × Entry)) : List String :=
  inOrder (filesAmong scanner closed d.place d.path entries)

/-- What is found in a directory is, in some order, what is found behind each of its names. -/
theorem found_perm (scanner : Scanner) (closed : List Location) (d : Descent)
    (entries : List (String × Entry)) :
    (scanner.found closed d entries).Perm
      (entries.flatMap fun named => scanner.foundBehind closed d named.1 named.2) := by
  have each : filesAmong scanner closed d.place d.path entries =
      entries.map fun named => (named.1, scanner.foundBehind closed d named.1 named.2) := by
    induction entries with
    | nil => rw [filesAmong, List.map_nil]
    | cons first rest ih => rw [filesAmong, ih, List.map_cons, foundBehind]
  have sorted : (Entry.sorted (filesAmong scanner closed d.place d.path entries)).Perm
      (filesAmong scanner closed d.place d.path entries) := List.mergeSort_perm _ _
  have joined := sorted.flatMap_right fun named => named.2
  rw [found, inOrder]
  rwa [each, List.flatMap_map, ← each] at joined

variable {closed : List Location} {d : Descent} {name : String} {e : Entry}

/-- Behind a name that opens a directory, what is found in this directory is found. -/
theorem foundBehind_of_directory (follows : scanner.followLinks)
    (fits : Fits scanner.files closed d) {place : Location} {entries : List (String × Entry)}
    (listed : scanner.files.top.at? (d.place ++ [name]) = some e)
    (reveals : Reveals scanner.files d name e (.directory place))
    (here : scanner.files.top.at? place = some (.directory entries)) :
    scanner.foundBehind closed d name e =
      scanner.found (closed.erase place) (d.enter name place) entries := by
  cases reveals with
  | directory entries' =>
    obtain rfl : entries' = entries := by simpa [listed] using here
    rw [foundBehind, filesAt]
    rfl
  | linkedDirectory leads here' apart =>
    -- It is not open, so the link is followed.
    have shut : place ∈ closed :=
      (fits.mem_iff _).mpr ⟨Entry.sight?_eq_directory.mpr ⟨entries, here⟩, apart⟩
    rw [foundBehind, filesAt, if_pos follows, leads]
    simp only [here, if_pos shut]
    rfl

/-- Behind a name that leads to a file, just the path to this file is found, if at all. -/
theorem foundBehind_of_file (follows : scanner.followLinks) (closed : List Location)
    (reveals : Reveals scanner.files d name e .file) :
    scanner.foundBehind closed d name e =
      if scanner.accepts name then [Path.join d.path name] else [] := by
  cases reveals with
  | file content => rw [foundBehind, filesAt]
  | linkedFile leads here => rw [foundBehind, filesAt, if_pos follows, leads]; simp only [here]

/-- Behind a name that cannot be followed to anything nothing is found. -/
theorem foundBehind_of_nothing (follows : scanner.followLinks) (fits : Fits scanner.files closed d)
    (nothing : ∀ goal, ¬Reveals scanner.files d name e goal) :
    scanner.foundBehind closed d name e = [] := by
  cases e with
  | file content => exact absurd (.file content) (nothing _)
  | directory entries => exact absurd (.directory entries) (nothing _)
  | link target =>
    -- A directory that is closed would be followed into, as a file would.
    rw [foundBehind, filesAt, if_pos follows]
    split
    · rfl
    · rename_i place leads
      split
      · rename_i here
        exact absurd (.linkedFile leads here) (nothing _)
      · rename_i entries here
        refine if_neg fun shut => ?_
        exact nothing _ (.linkedDirectory leads here ((fits.mem_iff _).mp shut).2)
      · rfl

/-- Whether a list has just the paths of some kind, each of them once. -/
def Lists (paths : List String) (kind : String → Prop) : Prop :=
  paths.Nodup ∧ ∀ path, path ∈ paths ↔ kind path

/-- Behind a name that leads to a file, just what the name offers is found. -/
theorem lists_of_file (follows : scanner.followLinks) (closed : List Location)
    (reveals : Reveals scanner.files d name e .file) :
    Lists (scanner.foundBehind closed d name e) (Offers scanner d name e) := by
  rw [foundBehind_of_file follows closed reveals]
  refine ⟨by split <;> simp, fun path => ⟨fun found => ?_, ?_⟩⟩
  · split at found
    · rename_i accepted
      obtain rfl := List.mem_singleton.mp found
      exact .file reveals accepted
    · cases found
  · rintro (⟨-, accepted⟩ | ⟨reveals', -⟩)
    · simp [accepted]
    · -- What is a file is no directory.
      cases reveals.unique reveals'

/-- Behind a name that opens a directory, just what the name offers is found, if just what the
directory yields is found there. -/
theorem lists_of_directory {place : Location} {paths : List String}
    (reveals : Reveals scanner.files d name e (.directory place))
    (inner : Lists paths (scanner.Yields (d.enter name place))) :
    Lists paths (Offers scanner d name e) := by
  refine ⟨inner.1, fun path => (inner.2 path).trans ⟨.directory reveals, ?_⟩⟩
  -- The name opens this directory only.
  rintro (⟨reveals', -⟩ | ⟨reveals', yields⟩)
  · cases reveals.unique reveals'
  · cases reveals.unique reveals'
    exact yields

/-- Where just what each name offers is found behind it, just what a way yields is found in its
directory. -/
theorem lists_found (named : scanner.files.top.wellNamed) {entries : List (String × Entry)}
    (here : scanner.files.top.at? d.place = some (.directory entries))
    (offered : ∀ name e, scanner.files.top.at? (d.place ++ [name]) = some e →
      Lists (scanner.foundBehind closed d name e) (Offers scanner d name e)) :
    Lists (scanner.found closed d entries) (scanner.Yields d) := by
  have distinct := (Entry.wellNamed_directory.mp (Entry.wellNamed_of_at? named here)).1
  have listed {entry : String × Entry} (member : entry ∈ entries) :
      scanner.files.top.at? (d.place ++ [entry.1]) = some entry.2 :=
    (Entry.at?_concat_eq_some_iff here distinct).mpr member
  have behind := scanner.found_perm closed d entries
  rw [Lists, behind.nodup_iff, List.nodup_flatMap]
  refine ⟨⟨fun entry member => (offered _ _ (listed member)).1, ?_⟩, fun path => ?_⟩
  · -- Paths behind different names go apart with these.
    refine (List.pairwise_map.mp distinct).imp_of_mem ?_
    intro first second member member' different path found found'
    have offers := ((offered _ _ (listed member)).2 path).mp found
    have offers' := ((offered _ _ (listed member')).2 path).mp found'
    obtain ⟨way, proper, rfl⟩ := offers.exists_below named (listed member)
    obtain ⟨way', proper', same⟩ := offers'.exists_below named (listed member')
    have ways := Path.below_inj (by simp) (by simp) proper proper' same
    exact different (List.cons.inj ways).1
  · rw [behind.mem_iff, List.mem_flatMap, yields_iff]
    constructor
    · rintro ⟨entry, member, found⟩
      exact ⟨_, _, listed member, ((offered _ _ (listed member)).2 path).mp found⟩
    · rintro ⟨name, e, stands, offers⟩
      have member := (Entry.at?_concat_eq_some_iff here distinct).mp stands
      exact ⟨(name, e), member, ((offered name e stands).2 path).mpr offers⟩

/-- In a directory on a way, a scan finds just the paths that this way yields, each once. -/
theorem lists_yields (named : scanner.files.top.wellNamed) (follows : scanner.followLinks)
    (fits : Fits scanner.files closed d) {entries : List (String × Entry)}
    (here : scanner.files.top.at? d.place = some (.directory entries)) :
    Lists (scanner.found closed d entries) (scanner.Yields d) := by
  -- The induction is along the way down: what is opened next is known to be scanned like this.
  induction d using (wellFounded_enters named).induction generalizing closed entries with
  | _ d ih =>
  refine lists_found named here fun name e listed => ?_
  by_cases something : ∃ goal, Reveals scanner.files d name e goal
  · obtain ⟨goal, reveals⟩ := something
    cases goal with
    | file => exact lists_of_file follows closed reveals
    | directory place =>
      obtain ⟨inner, opens⟩ := Entry.sight?_eq_directory.mp (reveals.sight? listed)
      rw [foundBehind_of_directory follows fits listed reveals opens]
      exact lists_of_directory reveals
        (ih _ (.intro listed reveals) (fits.enter name place) opens)
  · -- A name that leads nowhere, or in a circle, offers nothing.
    rw [foundBehind_of_nothing follows fits (not_exists.mp something)]
    refine ⟨List.nodup_nil, fun path => iff_of_false List.not_mem_nil ?_⟩
    rintro (⟨reveals, -⟩ | ⟨reveals, -⟩)
    · exact something ⟨_, reveals⟩
    · exact something ⟨_, reveals⟩

end Found

section Paths

variable {files : FileTree}

/-- The path of a way leads on into each directory that is entered. -/
theorem Enters.leads (named : files.top.wellNamed)
    (steps : ∀ name ∈ files.top.names, FileTree.isStep name) {d d' : Descent}
    (enters : Enters files d d') (leads : files.Leads d.path d.place) :
    files.Leads d'.path d'.place := by
  -- A directory itself is one step further; of a link it is known where it leads.
  obtain @⟨name, e, place, listed, reveals⟩ := enters
  cases reveals with
  | directory entries =>
    obtain ⟨proper, known⟩ := Entry.isName_of_at?_concat named listed
    have seen := Entry.sight?_eq_directory.mpr ⟨entries, listed⟩
    exact leads.join proper (steps name known) seen (by simp)
  | linkedDirectory found => exact FileTree.leads_of_locate found

/-- The path behind a name that turns out to be a file leads to a file. -/
theorem Reveals.leads (named : files.top.wellNamed)
    (steps : ∀ name ∈ files.top.names, FileTree.isStep name) {d : Descent} {name : String}
    {e : Entry} (listed : files.top.at? (d.place ++ [name]) = some e)
    (reveals : Reveals files d name e .file) (leads : files.Leads d.path d.place) :
    ∃ place content, files.Leads (Path.join d.path name) place ∧
      files.top.at? place = some (.file content) := by
  cases reveals with
  | file content =>
    obtain ⟨proper, known⟩ := Entry.isName_of_at?_concat named listed
    have seen : files.top.sight? (d.place ++ [name]) = some (.file content) := by
      rw [Entry.sight?, listed]
      rfl
    exact ⟨_, content, leads.join proper (steps name known) seen (by simp), listed⟩
  | @linkedFile target place content found here =>
    exact ⟨place, content, FileTree.leads_of_locate found, here⟩

/-- A path that is yielded leads to a file and ends with an accepted name. -/
theorem Yields.leads {scanner : Scanner} (named : scanner.files.top.wellNamed)
    (steps : ∀ name ∈ scanner.files.top.names, FileTree.isStep name) {d : Descent} {path : String}
    (yields : scanner.Yields d path) (leads : scanner.files.Leads d.path d.place) :
    (∃ place content, scanner.files.Leads path place ∧
        scanner.files.top.at? place = some (.file content)) ∧
      ∃ directory name, path = Path.join directory name ∧ Path.isName name ∧
        Path.HasExtension name scanner.extension := by
  -- The path of each directory that is entered leads there, so the last one leads to the file.
  induction yields with
  | @file d name e listed reveals accepted =>
    refine ⟨reveals.leads named steps listed leads, d.path, name, rfl,
      (Entry.isName_of_at?_concat named listed).1, ?_⟩
    simpa [accepts, Path.extension?_eq_some_iff] using accepted
  | further enters _ ih => exact ih (enters.leads named steps leads)

end Paths

/-- With links followed, a scan of a directory ends, however the links lead: there is no endless way
from one directory into the next one. Each path that is found comes once, leads to a file past all
links and has the extension of the settings in its last name. Just those paths are found that are
yielded by some way down: a link that leads nowhere, or to a directory that is open, takes away
nothing but itself. -/
theorem scan_links (files : FileTree) (s : Settings) (follows : s.followLinks) {root : String}
    {place : Location} {entries : List (String × Entry)}
    (leads : files.locate true root = .ok place)
    (here : files.top.at? place = some (.directory entries)) (named : files.top.wellNamed)
    (steps : ∀ name ∈ files.top.names, FileTree.isStep name) :
    WellFounded (fun later earlier => Enters files earlier later) ∧
      ∃ paths, (ofSettings files s).scan root = .ok paths ∧ paths.Nodup ∧
        (∀ path, path ∈ paths ↔ (ofSettings files s).Yields ⟨place, [], root⟩ path) ∧
        ∀ path ∈ paths,
          (∃ place content, files.Leads path place ∧
            files.top.at? place = some (.file content)) ∧
          ∃ directory name, path = Path.join directory name ∧ Path.isName name ∧
            Path.HasExtension name s.normalizedExtension := by
  -- At the start all directories but the root are closed.
  have fits : Fits files ((files.top.directories []).erase place) ⟨place, [], root⟩ := by
    have distinct := Entry.nodup_directories named []
    refine ⟨distinct.erase _, fun other => ?_⟩
    rw [distinct.mem_erase_iff, Entry.mem_directories named]
    simp [Descent.opened, and_comm]
  obtain ⟨once, yielded⟩ := @lists_yields (ofSettings files s) _ _ named follows fits _ here
  refine ⟨wellFounded_enters named, _, ?_, once, yielded, fun path found => ?_⟩
  · simp [scan, ofSettings, leads, here, follows, found]
  · exact ((yielded path).mp found).leads named steps (FileTree.leads_of_locate leads)

/-- A source file among links to it, to nothing, to each other, and to directories around them. -/
def tangledEntries : List (String × Entry) :=
  [("A.java", .file .empty), ("B.java", .link "A.java"), ("gone.java", .link "nowhere"),
    ("one", .link "two"), ("two", .link "one"), ("self", .link "."), ("out", .link "..")]

/-- All files there are, with the tangled entries in one directory. -/
def tangledFiles : FileTree := ⟨.directory [("app", .directory tangledEntries)], []⟩

/-- The tangled entries are in a directory, have different names, and each name can be a step. -/
theorem scan_links_tangled :
    ({ followLinks := true } : Settings).followLinks ∧
      tangledFiles.locate true "app" = .ok ["app"] ∧
      tangledFiles.top.at? ["app"] = some (.directory tangledEntries) ∧
      tangledFiles.top.wellNamed ∧ (∀ name ∈ tangledFiles.top.names, FileTree.isStep name) ∧
      WellFounded (fun later earlier => Enters tangledFiles earlier later) ∧
      ∃ paths, (ofSettings tangledFiles { followLinks := true }).scan "app" = .ok paths ∧
        paths.Nodup ∧
        (∀ path, path ∈ paths ↔
          (ofSettings tangledFiles { followLinks := true }).Yields ⟨["app"], [], "app"⟩ path) ∧
        ∀ path ∈ paths,
          (∃ place content, tangledFiles.Leads path place ∧
            tangledFiles.top.at? place = some (.file content)) ∧
          ∃ directory name, path = Path.join directory name ∧ Path.isName name ∧
            Path.HasExtension name ({ followLinks := true } : Settings).normalizedExtension := by
  have leads : tangledFiles.locate true "app" = .ok ["app"] := by
    have step : Path.steps "app" = ["app"] := by decide
    rw [FileTree.locate, if_neg (by decide), if_neg (by decide), if_neg (by decide), step,
      FileTree.walk_cons]
    exact FileTree.walk_nil _ true FileTree.linkLimit ["app"]
  have here : tangledFiles.top.at? ["app"] = some (.directory tangledEntries) := rfl
  have named : tangledFiles.top.wellNamed := by decide
  have steps : ∀ name ∈ tangledFiles.top.names, FileTree.isStep name := by decide
  exact ⟨rfl, leads, here, named, steps,
    scan_links tangledFiles { followLinks := true } rfl leads here named steps⟩

end Scanner

end TypeGraph
