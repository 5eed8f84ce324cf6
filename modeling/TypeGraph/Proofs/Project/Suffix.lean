import TypeGraph.Proofs.Project.Links

/-! A scan compares the extension of the settings with what follows the last dot of a name, so an
extension finds the files that end with it if there is no dot in it, and no file otherwise. -/

namespace TypeGraph

open Files

/-- What stands behind a name of something stands in a directory. -/
theorem Files.Entry.exists_directory {top e : Entry} {place rest : Location} {name : String}
    (here : top.at? (place ++ name :: rest) = some e) :
    ∃ entries, top.at? place = some (.directory entries) := by
  rw [at?_append, Option.bind_eq_some_iff] at here
  obtain ⟨above, listed, inside⟩ := here
  cases above with
  | directory entries => exact ⟨entries, listed⟩
  | file | link => cases inside

namespace Scanner

/-- Whether a scan looks into an entry: into a link only if links are followed. -/
def regards (follows : Bool) : Entry → Bool
  | .link _ => follows
  | .file _ | .directory _ => true

/-- The files that a scan meets in the directory of a way or further down, whatever they are called:
the path of a file with its last name. -/
inductive Meets (files : FileTree) (follows : Bool) : Descent → String → String → Prop where
  | file {d : Descent} {name : String} {e : Entry}
    (listed : files.top.at? (d.place ++ [name]) = some e) (regarded : regards follows e)
    (reveals : Reveals files d name e .file) : Meets files follows d (Path.join d.path name) name
  | further {d : Descent} {name path last : String} {e : Entry} {place : Location}
    (listed : files.top.at? (d.place ++ [name]) = some e) (regarded : regards follows e)
    (reveals : Reveals files d name e (.directory place))
    (meets : Meets files follows (d.enter name place) path last) :
    Meets files follows d path last

variable {files : FileTree} {follows : Bool} {d : Descent}

/-- The path to a file that is met leads down by proper names, of which the last one is its own. -/
theorem Meets.exists_below (named : files.top.wellNamed) {path last : String}
    (meets : Meets files follows d path last) :
    ∃ way, (∀ step ∈ way, Path.isName step) ∧ way.getLast? = some last ∧
      path = Path.below d.path way := by
  -- Each directory that is entered puts its name in front of the names that follow.
  induction meets with
  | @file d name e listed =>
    have proper := (Entry.isName_of_at?_concat named listed).1
    exact ⟨[name], by simpa using proper, rfl, rfl⟩
  | @further d name path last e place listed regarded reveals meets ih =>
    obtain ⟨way, proper, ends, rfl⟩ := ih
    have first := (Entry.isName_of_at?_concat named listed).1
    refine ⟨name :: way, List.forall_mem_cons.mpr ⟨first, proper⟩, ?_, rfl⟩
    rw [List.getLast?_cons, ends]
    rfl

/-- The last name of a file that is met can be told from its path. -/
theorem Meets.unique (named : files.top.wellNamed) {path last other : String}
    (meets : Meets files follows d path last) (meets' : Meets files follows d path other) :
    last = other := by
  obtain ⟨way, proper, ends, rfl⟩ := meets.exists_below named
  obtain ⟨way', proper', ends', same⟩ := meets'.exists_below named
  have some : way ≠ [] := by rintro rfl; cases ends
  have some' : way' ≠ [] := by rintro rfl; cases ends'
  obtain rfl := Path.below_inj some some' proper proper' same
  exact Option.some.inj (ends.symm.trans ends')

/-- With links followed, the paths that are yielded are those of files with accepted names. -/
theorem yields_iff_meets {scanner : Scanner} {path : String} :
    scanner.Yields d path ↔
      ∃ last, Meets scanner.files true d path last ∧ scanner.accepts last := by
  have regarded (e : Entry) : regards true e := by cases e <;> rfl
  constructor
  · intro yields
    induction yields with
    | file listed reveals accepted => exact ⟨_, .file listed (regarded _) reveals, accepted⟩
    | further enters _ ih =>
      obtain @⟨name, e, place, listed, reveals⟩ := enters
      obtain ⟨last, meets, accepted⟩ := ih
      exact ⟨last, .further listed (regarded _) reveals meets, accepted⟩
  · rintro ⟨last, meets, accepted⟩
    induction meets with
    | file listed _ reveals => exact .file listed reveals accepted
    | further listed _ reveals _ ih => exact .further (.intro listed reveals) (ih accepted)

/-- With links left alone, the files that are met are those that stand in the directory or in
directories below it. -/
theorem meets_unlinked_iff {path last : String} :
    Meets files false d path last ↔
      ∃ way content, files.top.at? (d.place ++ way) = some (.file content) ∧
        way.getLast? = some last ∧ path = Path.below d.path way := by
  constructor
  · intro meets
    induction meets with
    | @file d name e listed regarded reveals =>
      cases reveals with
      | file content => exact ⟨[name], content, listed, rfl, rfl⟩
      | linkedFile => cases regarded
    | @further d name path last e place listed regarded reveals meets ih =>
      cases reveals with
      | directory entries =>
        obtain ⟨way, content, here, ends, rfl⟩ := ih
        refine ⟨name :: way, content, ?_, ?_, rfl⟩
        · simpa [Descent.enter] using here
        · rw [List.getLast?_cons, ends]
          rfl
      | linkedDirectory => cases regarded
  · rintro ⟨way, content, here, ends, rfl⟩
    induction way generalizing d with
    | nil => cases ends
    | cons name rest ih =>
      cases rest with
      | nil =>
        obtain rfl : name = last := by simpa using ends
        exact .file here rfl (.file content)
      | cons next more =>
        -- Something stands behind the first name, which is that of a directory.
        have split : files.top.at? ((d.place ++ [name]) ++ next :: more) = some (.file content) := by
          simpa using here
        obtain ⟨entries, listed⟩ := Entry.exists_directory split
        have meets : Meets files false (d.enter name (d.place ++ [name])) _ last :=
          ih (by simpa [Descent.enter] using here) (by simpa using ends)
        exact .further listed rfl (.directory entries) meets

section Scan

variable {s : Settings} {root : String} {place : Location} {entries : List (String × Entry)}

/-- With links left alone, a scan finds the files with accepted names among those that it meets. -/
theorem scan_meets_unlinked (unlinked : s.followLinks = false)
    (leads : files.locate true root = .ok place)
    (here : files.top.at? place = some (.directory entries)) (named : files.top.wellNamed) :
    ∃ paths, (ofSettings files s).scan root = .ok paths ∧ ∀ path, path ∈ paths ↔
      ∃ last, Meets files false ⟨place, [], root⟩ path last ∧
        (ofSettings files s).accepts last := by
  have opens : files.entry root = .ok (.directory entries) :=
    FileTree.entry_eq_ok_iff.mpr ⟨place, leads, here⟩
  refine ⟨_, scan_eq unlinked opens "", fun path => ?_⟩
  simp only [List.mem_map, mem_placesAt (Entry.wellNamed_of_at? named here), meets_unlinked_iff,
    Entry.at?_append, here, Option.bind_some]
  constructor
  · rintro ⟨way, ⟨⟨content, there⟩, accepted⟩, rfl⟩
    rcases List.eq_nil_or_concat way with rfl | ⟨above, last, rfl⟩
    · cases there
    · simp only [List.concat_eq_append] at there accepted ⊢
      rw [List.getLastD_concat] at accepted
      exact ⟨last, ⟨_, content, there, by simp, rfl⟩, accepted⟩
  · rintro ⟨last, ⟨way, content, there, ends, rfl⟩, accepted⟩
    refine ⟨way, ⟨⟨content, there⟩, ?_⟩, rfl⟩
    rwa [List.getLastD_eq_getLast?, ends]

/-- With links followed, a scan finds the files with accepted names among those that it meets. -/
theorem scan_meets_linked (follows : s.followLinks) (leads : files.locate true root = .ok place)
    (here : files.top.at? place = some (.directory entries)) (named : files.top.wellNamed) :
    ∃ paths, (ofSettings files s).scan root = .ok paths ∧ ∀ path, path ∈ paths ↔
      ∃ last, Meets files true ⟨place, [], root⟩ path last ∧
        (ofSettings files s).accepts last := by
  -- At the start all directories but the root are closed.
  have distinct := Entry.nodup_directories named []
  have fits : Fits files ((files.top.directories []).erase place) ⟨place, [], root⟩ := by
    refine ⟨distinct.erase _, fun other => ?_⟩
    rw [distinct.mem_erase_iff, Entry.mem_directories named]
    simp [Descent.opened, and_comm]
  obtain ⟨-, yielded⟩ := @lists_yields (ofSettings files s) _ _ named follows fits _ here
  refine ⟨_, ?_, fun path => (yielded path).trans yields_iff_meets⟩
  simp [scan, ofSettings, leads, here, follows, found]

end Scan

/-- A file name is accepted if it has the extension of the settings. -/
theorem accepts_iff {s : Settings} {last : String} :
    (ofSettings files s).accepts last ↔ Path.HasExtension last s.normalizedExtension := by
  rw [accepts, decide_eq_true_iff, Path.extension?_eq_some_iff]
  rfl

/-- No extension with a dot in it is that of a file name. -/
theorem not_accepts_of_dot {s : Settings} (dotted : '.' ∈ s.normalizedExtension.toList)
    (last : String) : ¬(ofSettings files s).accepts last := by
  rw [accepts_iff]
  exact fun has => has.1 dotted

/-- Settings whose extension is accepted look for what is left of it without white space around it
and dots before it, which is not empty. If no dot is left in it, a scan of a directory finds just
those of the files that it meets whose names end with a dot and the extension, behind a stem that is
not empty. If a dot is left in it, a scan finds nothing. -/
theorem scan_by_suffix (files : FileTree) (s : Settings)
    (accepted : s.fault? ≠ some .emptyExtension) {root : String} {place : Location}
    {entries : List (String × Entry)} (leads : files.locate true root = .ok place)
    (here : files.top.at? place = some (.directory entries)) (named : files.top.wellNamed) :
    let extension := s.normalizedExtension
    extension ≠ "" ∧ ∃ paths, (ofSettings files s).scan root = .ok paths ∧
      (∀ path ∈ paths, ∃ last, Meets files s.followLinks ⟨place, [], root⟩ path last) ∧
      ('.' ∉ extension.toList →
        ∀ path last, Meets files s.followLinks ⟨place, [], root⟩ path last →
          (path ∈ paths ↔ ∃ stem, stem ≠ "" ∧ last = stem ++ "." ++ extension)) ∧
      ('.' ∈ extension.toList → paths = []) := by
  intro extension
  have nonempty : extension ≠ "" := by
    intro empty
    exact accepted (by simp [Settings.fault?, show s.normalizedExtension = "" from empty])
  obtain ⟨paths, scanned, found⟩ : ∃ paths, (ofSettings files s).scan root = .ok paths ∧
      ∀ path, path ∈ paths ↔ ∃ last, Meets files s.followLinks ⟨place, [], root⟩ path last ∧
        (ofSettings files s).accepts last := by
    cases links : s.followLinks with
    | false => exact scan_meets_unlinked links leads here named
    | true => exact scan_meets_linked links leads here named
  refine ⟨nonempty, paths, scanned, fun path member => ?_, fun plain path last meets => ?_,
    fun dotted => ?_⟩
  · obtain ⟨last, meets, -⟩ := (found path).mp member
    exact ⟨last, meets⟩
  · rw [found]
    constructor
    · rintro ⟨other, meets', accepted⟩
      obtain rfl := meets.unique named meets'
      exact (accepts_iff.mp accepted).2
    · intro ends
      exact ⟨last, meets, accepts_iff.mpr ⟨plain, ends⟩⟩
  · refine List.eq_nil_iff_forall_not_mem.mpr fun path member => ?_
    obtain ⟨last, -, accepted⟩ := (found path).mp member
    exact not_accepts_of_dot dotted last accepted

/-- Files whose names end alike, one of them behind a link, in a directory with some path. -/
def suffixFiles : FileTree :=
  ⟨.directory [("src", .directory [("A.d.ts", .file .empty), (".ts", .file .empty),
    ("B.ts", .link "A.d.ts"), ("C.tsx", .file .empty)])], []⟩

/-- The directory of the files whose names end alike is where its name leads. -/
theorem locate_suffixFiles : suffixFiles.locate true "src" = .ok ["src"] :=
  FileTree.locate_step true (by decide) (by decide) (by decide) rfl nofun

/-- With white space around it and a dot before it, an extension without other dots finds the files
that end with it, be it behind a link. -/
theorem scan_by_suffix_blanks :
    let s : Settings := { extension := " .ts ", followLinks := true }
    s.fault? ≠ some .emptyExtension ∧ suffixFiles.locate true "src" = .ok ["src"] ∧
      suffixFiles.top.wellNamed ∧ s.normalizedExtension = "ts" ∧
      ∃ paths, (ofSettings suffixFiles s).scan "src" = .ok paths ∧
        ∀ path last, Meets suffixFiles true ⟨["src"], [], "src"⟩ path last →
          (path ∈ paths ↔ ∃ stem, stem ≠ "" ∧ last = stem ++ "." ++ "ts") := by
  intro s
  have accepted : s.fault? ≠ some .emptyExtension := by decide
  have named : suffixFiles.top.wellNamed := by decide
  have normal : s.normalizedExtension = "ts" := by decide
  obtain ⟨-, paths, scanned, -, plain, -⟩ :=
    scan_by_suffix suffixFiles s accepted locate_suffixFiles rfl named
  rw [normal] at plain
  exact ⟨accepted, locate_suffixFiles, named, normal, paths, scanned, plain (by decide)⟩

/-- An extension with a dot inside passes its check and is the end of the name of a file that a scan
meets, but the scan does not find this file. -/
theorem scan_dotted_extension :
    let s : Settings := { extension := "d.ts" }
    s.fault? = none ∧ s.normalizedExtension = "d.ts" ∧
      Meets suffixFiles s.followLinks ⟨["src"], [], "src"⟩ "src/A.d.ts" "A.d.ts" ∧
      "A.d.ts" = "A" ++ "." ++ s.normalizedExtension ∧
      (ofSettings suffixFiles s).scan "src" = .ok [] := by
  intro s
  have dotted : '.' ∈ s.normalizedExtension.toList := by decide
  obtain ⟨paths, scanned, found⟩ :=
    scan_meets_unlinked (s := s) rfl locate_suffixFiles rfl (by decide)
  have none : paths = [] := by
    refine List.eq_nil_iff_forall_not_mem.mpr fun path member => ?_
    obtain ⟨last, -, accepted⟩ := (found path).mp member
    exact not_accepts_of_dot dotted last accepted
  have met : Meets suffixFiles s.followLinks ⟨["src"], [], "src"⟩ "src/A.d.ts" "A.d.ts" := by
    rw [show "src/A.d.ts" = Path.join "src" "A.d.ts" by decide]
    exact .file rfl rfl (.file .empty)
  exact ⟨by decide, by decide, met, by decide, none ▸ scanned⟩

end Scanner

end TypeGraph
