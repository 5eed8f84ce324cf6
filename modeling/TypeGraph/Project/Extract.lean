import TypeGraph.Extract
import TypeGraph.Project.Scan

/-! The extraction of a whole project, in which files that cannot be used are left out. -/

namespace TypeGraph

open Files

/-- What has been extracted from a project. -/
structure Extraction where
  document : Document
  filesScanned : Nat
  /-- The files that were left out, with the reasons. -/
  failures : List (String × Failure)

/-- What the outcomes of files, records or the reason why there are none, come to for a project. -/
def Extraction.ofOutcomes (project : String) (paths : List String)
    (outcomes : List (Except Failure (List TypeRecord))) : Extraction where
  document := (paths.zip outcomes).foldl (fun document entry => match entry.2 with
    | .ok records => document.append records
    | .error _ => document) (.empty project)
  filesScanned := paths.length
  failures := (paths.zip outcomes).filterMap fun (path, outcome) => match outcome with
    | .ok _ => none
    | .error failure => some (path, failure)

/-- Orders in which jobs may be finished that are worked on side by side. -/
structure Schedule where
  /-- The positions of the jobs, for their number. -/
  order : Nat → List Nat
  /-- Every job is finished once. -/
  complete : ∀ count, (order count).Perm (List.range count)

namespace Schedule

/-- Jobs are finished in turn. -/
def inTurn : Schedule := ⟨List.range, fun _ => .refl _⟩

/-- The results of jobs that are finished in some order, each kept at the position of its job. -/
def collect {α β : Type} (schedule : Schedule) (work : α → β) (jobs : List α) : List β :=
  let finished := (schedule.order jobs.length).filterMap fun i =>
    jobs[i]?.map fun job => (i, work job)
  (List.range jobs.length).filterMap fun i => finished.lookup i

end Schedule

namespace Settings

/-- The records of one source file. -/
def recordsOf (s : Settings) (files : FileTree) (path : String) :
    Except Failure (List TypeRecord) := do
  let text ← (files.readText path).mapError (Failure.file path)
  return (← CompilationUnit.ofText path text.toList).records s

/-- The outcomes of source files, which may be read side by side, in the order of the files. -/
def outcomes (s : Settings) (files : FileTree) (schedule : Schedule) (paths : List String) :
    List (Except Failure (List TypeRecord)) :=
  if s.parallel then schedule.collect (s.recordsOf files) paths
  else paths.map (s.recordsOf files)

/-- The extraction of the project with a root directory. -/
def extract (s : Settings) (files : FileTree) (root : String)
    (schedule : Schedule := .inTurn) : Except Failure Extraction := do
  let paths ← (Scanner.ofSettings files s).scan root
  return .ofOutcomes root paths (s.outcomes files schedule paths)

end Settings

end TypeGraph
