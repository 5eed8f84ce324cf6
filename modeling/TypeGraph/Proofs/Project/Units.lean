import TypeGraph.Proofs.Declaration.Plain
import TypeGraph.Proofs.Files.Walk
import TypeGraph.Proofs.Project.Extract

/-! The document of a project is made of the declarations of its source files. -/

namespace TypeGraph

open Files

/-- The declarations of a file, unless it cannot be used. -/
def Files.FileTree.unit? (files : FileTree) (path : String) : Option CompilationUnit :=
  (files.readText path).toOption.bind fun text =>
    (CompilationUnit.ofText path text.toList).toOption

/-- The document of several files, whose records follow one another. -/
def Document.ofUnits (project : String) (s : Settings) (units : List CompilationUnit) : Document :=
  ⟨project, units.flatMap (·.records s)⟩

/-- A result that is there is no failure. -/
theorem toOption_eq_some_iff {ε α : Type} {result : Except ε α} {a : α} :
    result.toOption = some a ↔ result = .ok a := by
  cases result <;> simp [Except.toOption]

/-- A result is there whatever a failure is turned into. -/
theorem mapError_eq_ok_iff {ε ε' α : Type} {result : Except ε α} {name : ε → ε'} {a : α} :
    result.mapError name = .ok a ↔ result = .ok a := by
  cases result <;> simp [Except.mapError]

/-- A file has declarations if it holds a text that declares them. -/
theorem Files.FileTree.unit?_eq_some_iff {files : FileTree} {path : String} {u : CompilationUnit} :
    files.unit? path = some u ↔ ∃ text, files.readText path = .ok text ∧
      CompilationUnit.ofText path text.toList = .ok u := by
  simp only [unit?, Option.bind_eq_some_iff, toOption_eq_some_iff]

/-- No type in a file of a project has a dot in its name. -/
theorem Files.FileTree.plain_of_unit? {files : FileTree} {path : String} {u : CompilationUnit}
    (found : files.unit? path = some u) : u.Plain := by
  obtain ⟨text, -, made⟩ := unit?_eq_some_iff.mp found
  exact CompilationUnit.plain_of_ofText made

/-- The records of a file are known if and only if its declarations are. -/
theorem Settings.recordsOf_eq_ok_iff {s : Settings} {files : FileTree} {path : String}
    {records : List TypeRecord} : s.recordsOf files path = .ok records ↔
      ∃ u, files.unit? path = some u ∧ u.records s = records := by
  -- A file is read, then its text, and neither a failure nor its name matters here.
  have unfolded : s.recordsOf files = fun path =>
      (files.readText path).mapError (Failure.file path) >>= fun text =>
        CompilationUnit.ofText path text.toList >>= fun u => .ok (u.records s) := rfl
  simp only [unfolded, bind_eq_ok_iff, mapError_eq_ok_iff, FileTree.unit?_eq_some_iff,
    Except.ok.injEq]
  constructor
  · intro made
    obtain ⟨text, content, u, declared, same⟩ := made
    exact ⟨u, ⟨text, content, declared⟩, same⟩
  · intro known
    obtain ⟨u, ⟨text, content, declared⟩, same⟩ := known
    exact ⟨text, content, u, declared, same⟩

/-- The records of a file are those of its declarations. -/
theorem Settings.recordsIn_eq (s : Settings) (files : FileTree) (path : String) :
    s.recordsIn files path = (files.unit? path).toList.flatMap (·.records s) := by
  unfold recordsIn
  cases made : s.recordsOf files path with
  | ok records =>
    obtain ⟨u, found, same⟩ := recordsOf_eq_ok_iff.mp made
    simp [found, same]
  | error =>
    -- With declarations there would be records.
    cases found : files.unit? path with
    | none => rfl
    | some u => cases made.symm.trans (recordsOf_eq_ok_iff.mpr ⟨u, found, rfl⟩)

/-- A file fails if its declarations are not known. -/
theorem Settings.isSome_failureIn (s : Settings) (files : FileTree) (path : String) :
    (s.failureIn files path).isSome = (files.unit? path).isNone := by
  unfold failureIn
  cases made : s.recordsOf files path with
  | ok records =>
    obtain ⟨u, found, -⟩ := recordsOf_eq_ok_iff.mp made
    simp [found]
  | error =>
    cases found : files.unit? path with
    | none => rfl
    | some u => cases made.symm.trans (recordsOf_eq_ok_iff.mpr ⟨u, found, rfl⟩)

/-- What is gathered from files is made of their declarations. -/
theorem Extraction.Gathers.document_eq {e : Extraction} {s : Settings} {files : FileTree}
    {root : String} {paths : List String} (gathers : e.Gathers s files root paths) :
    e.document = .ofUnits root s (paths.filterMap files.unit?) := by
  -- Files that cannot be used add nothing on either side.
  have records : paths.flatMap (s.recordsIn files) =
      (paths.filterMap files.unit?).flatMap (·.records s) := by
    rw [List.filterMap_eq_flatMap_toList, List.flatMap_assoc]
    exact List.flatMap_congr fun path _ => s.recordsIn_eq files path
  have document : e.document = ⟨e.document.project, e.document.classes⟩ := rfl
  rw [document, gathers.project, gathers.classes, records]
  rfl

/-- The document that is extracted from a project is made of files whose types have names without
dots. -/
theorem Settings.document_of_extract {s : Settings} {files : FileTree} {root : String}
    {schedule : Schedule} {e : Extraction} (extracted : s.extract files root schedule = .ok e) :
    ∃ units, (∀ u ∈ units, CompilationUnit.Plain u) ∧ e.document = .ofUnits root s units := by
  rw [extract_eq] at extracted
  cases found : (Scanner.ofSettings files s).scan root with
  | error => simp [found, bind, Except.bind] at extracted
  | ok paths =>
    simp only [found, bind, Except.bind, Except.ok.injEq] at extracted
    subst extracted
    refine ⟨_, ?_, (s.gathers_ofOutcomes files root paths).document_eq⟩
    -- Only files that can be used give declarations.
    intro u unit
    obtain ⟨path, -, known⟩ := List.mem_filterMap.mp unit
    exact FileTree.plain_of_unit? known

end TypeGraph
