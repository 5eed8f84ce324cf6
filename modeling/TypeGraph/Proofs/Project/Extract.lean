import Mathlib.Data.List.Basic
import TypeGraph.Project.Extract
import TypeGraph.Proofs.Files.Blank

/-! An extraction consists of what each file gives by itself, whatever other files hold. -/

namespace TypeGraph

open Files

namespace Schedule

variable {α β : Type}

/-- The result of a finished job is found at its position, whichever jobs are finished before. -/
theorem lookup_finished (work : α → β) (jobs : List α) {order : List Nat} {i : Nat}
    (done : i ∈ order) :
    (order.filterMap fun j => jobs[j]?.map fun job => (j, work job)).lookup i =
      jobs[i]?.map work := by
  induction order with
  | nil => cases done
  | cons first rest ih =>
    by_cases same : i = first
    · -- If there is no such job, no result is for its position.
      subst same
      cases job : jobs[i]? with
      | some => simp [job]
      | none =>
        refine List.lookup_eq_none_iff.mpr fun result member => ?_
        obtain ⟨j, -, made⟩ := List.mem_filterMap.mp member
        obtain ⟨job', found, rfl⟩ := Option.map_eq_some_iff.mp made
        have apart : i ≠ j := fun same => by simp [same, found] at job
        simpa using apart
    · have later := ih ((List.mem_cons.mp done).resolve_left same)
      cases job : jobs[first]? with
      | none => simp [job, later]
      | some => simp [job, List.lookup_cons, beq_false_of_ne same, later]

/-- The members of a list stand at its positions. -/
theorem filterMap_getElem?_range (results : List β) :
    (List.range results.length).filterMap (fun i => results[i]?) = results := by
  -- The first position gives the first member, and the others give the rest.
  induction results with
  | nil => rfl
  | cons result rest ih =>
    rw [List.length_cons, List.range_succ_eq_map, List.filterMap_cons, List.filterMap_map]
    exact congrArg (result :: ·) ih

/-- The order in which jobs are finished makes no difference. -/
theorem collect_eq_map (schedule : Schedule) (work : α → β) (jobs : List α) :
    schedule.collect work jobs = jobs.map work := by
  -- For every position the result is found, as every job is finished.
  have found : ∀ i ∈ List.range jobs.length,
      ((schedule.order jobs.length).filterMap fun j =>
        jobs[j]?.map fun job => (j, work job)).lookup i = (jobs.map work)[i]? := by
    intro i within
    have done := (schedule.complete jobs.length).mem_iff.mpr within
    rw [lookup_finished work jobs done, List.getElem?_map]
  rw [collect, List.filterMap_congr found]
  simpa using filterMap_getElem?_range (jobs.map work)

end Schedule

namespace Settings

variable (s : Settings) (files : FileTree)

/-- The records of a file, none if it cannot be used. -/
def recordsIn (path : String) : List TypeRecord :=
  match s.recordsOf files path with
  | .ok records => records
  | .error _ => []

/-- The failure of a file that cannot be used. -/
def failureIn (path : String) : Option (String × Failure) :=
  match s.recordsOf files path with
  | .ok _ => none
  | .error failure => some (path, failure)

end Settings

/-- An extraction is what files give one after another, each by itself. -/
structure Extraction.Gathers (e : Extraction) (s : Settings) (files : FileTree) (root : String)
    (paths : List String) : Prop where
  project : e.document.project = root
  classes : e.document.classes = paths.flatMap (s.recordsIn files)
  failures : e.failures = paths.filterMap (s.failureIn files)
  scanned : e.filesScanned = paths.length
  /-- Every file counts, be it used or left out. -/
  counted : e.filesScanned =
    (paths.filter fun path => (s.recordsOf files path).isOk).length + e.failures.length

/-- Two lists are alike but for one stretch. -/
def AlikeBut {α : Type} (stretch stretch' all all' : List α) : Prop :=
  ∃ before after, all = before ++ stretch ++ after ∧ all' = before ++ stretch' ++ after

/-- What parts come to in a row is alike but for the one part that gives something else. -/
theorem AlikeBut.of_flatMap {α β : Type} {give give' : α → List β} {one : α}
    {before after : List α} (same : ∀ other ∈ before ++ after, give' other = give other) :
    AlikeBut (give one) (give' one) ((before ++ one :: after).flatMap give)
      ((before ++ one :: after).flatMap give') := by
  -- The other parts give the same, both those before and those after the part in question.
  have first : before.flatMap give' = before.flatMap give :=
    List.flatMap_congr fun other member => same other (List.mem_append_left _ member)
  have last : after.flatMap give' = after.flatMap give :=
    List.flatMap_congr fun other member => same other (List.mem_append_right _ member)
  refine ⟨before.flatMap give, after.flatMap give, ?_, ?_⟩
  · rw [List.flatMap_append, List.flatMap_cons, List.append_assoc]
  · rw [List.flatMap_append, List.flatMap_cons, List.append_assoc, first, last]

/-- When all but one of some files give the same, only what that file gives may differ. -/
theorem Extraction.Gathers.alikeBut {e e' : Extraction} {s : Settings} {files files' : FileTree}
    {root path : String} {before after : List String}
    (gathers : e.Gathers s files root (before ++ path :: after))
    (gathers' : e'.Gathers s files' root (before ++ path :: after))
    (same : ∀ other ∈ before ++ after, s.recordsOf files' other = s.recordsOf files other) :
    AlikeBut (s.recordsIn files path) (s.recordsIn files' path) e.document.classes
        e'.document.classes ∧
      AlikeBut (s.failureIn files path).toList (s.failureIn files' path).toList e.failures
        e'.failures := by
  -- Both lists are what the files give in turn.
  rw [gathers.classes, gathers'.classes, gathers.failures, gathers'.failures,
    List.filterMap_eq_flatMap_toList, List.filterMap_eq_flatMap_toList]
  refine ⟨.of_flatMap fun other member => ?_, .of_flatMap fun other member => ?_⟩
  · rw [Settings.recordsIn, Settings.recordsIn, same other member]
  · rw [Settings.failureIn, Settings.failureIn, same other member]

namespace Settings

variable (s : Settings) (files : FileTree)

/-- Files give the same outcomes side by side as one after another. -/
theorem outcomes_eq_map (schedule : Schedule) (paths : List String) :
    s.outcomes files schedule paths = paths.map (s.recordsOf files) := by
  -- Each outcome is kept at the position of its file.
  rw [outcomes, schedule.collect_eq_map]
  split <;> rfl

/-- What the outcomes of files come to is what the files give. -/
theorem gathers_ofOutcomes (root : String) (paths : List String) :
    (Extraction.ofOutcomes root paths (paths.map (s.recordsOf files))).Gathers s files root
      paths := by
  have appended (d : Document) :
      (paths.map fun path => (path, s.recordsOf files path)).foldl
        (fun document entry => match entry.2 with
          | .ok records => document.append records
          | .error _ => document) d = d.append (paths.flatMap (s.recordsIn files)) := by
    -- The document so far stays in front.
    induction paths generalizing d with
    | nil => simp [Document.append]
    | cons path rest ih =>
      rw [List.map_cons, List.foldl_cons, ih]
      cases outcome : s.recordsOf files path <;> simp [outcome, recordsIn, Document.append]
  have failures : (Extraction.ofOutcomes root paths (paths.map (s.recordsOf files))).failures =
      paths.filterMap (s.failureIn files) := by
    rw [Extraction.ofOutcomes, ← List.map_prod_left_eq_zip]
    dsimp only
    rw [List.filterMap_map]
    rfl
  have document : (Extraction.ofOutcomes root paths (paths.map (s.recordsOf files))).document =
      ⟨root, paths.flatMap (s.recordsIn files)⟩ := by
    rw [Extraction.ofOutcomes, ← List.map_prod_left_eq_zip]
    exact (appended _).trans rfl
  refine ⟨by rw [document], by rw [document], failures, rfl, ?_⟩
  rw [failures]
  change paths.length = _
  clear failures document appended
  induction paths with
  | nil => rfl
  | cons path rest ih =>
    cases outcome : s.recordsOf files path <;>
      simp [outcome, failureIn, Except.isOk, Except.toBool, ih] <;> omega

/-- Settings that only differ in whether files are read side by side extract the same. -/
theorem recordsOf_parallel (parallel : Bool) :
    ({ s with parallel := parallel } : Settings).recordsOf files = s.recordsOf files := rfl

/-- An extraction looks for files and takes what they give, in any order. -/
theorem extract_eq (root : String) (schedule : Schedule) :
    s.extract files root schedule = (Scanner.ofSettings files s).scan root >>= fun paths =>
      .ok (.ofOutcomes root paths (paths.map (s.recordsOf files))) := by
  simp only [extract, outcomes_eq_map]
  rfl

variable {files : FileTree} {place : Location} {old : ByteArray}

/-- The same files are found when one of them has other content. -/
theorem scan_put (new : ByteArray) (present : files.top.at? place = some (.file old))
    (root : String) :
    (Scanner.ofSettings (files.put place (.file new)) s).scan root =
      (Scanner.ofSettings files s).scan root := by
  -- Emptied, both are the same files.
  have same : (Scanner.ofSettings (files.put place (.file new)) s).blank =
      (Scanner.ofSettings files s).blank := by
    simp only [Scanner.ofSettings, Scanner.blank, FileTree.blank_put new present]
  rw [← Scanner.scan_blank, same, Scanner.scan_blank]

/-- A file gives the same records when another file has other content. -/
theorem recordsOf_put (new : ByteArray) (present : files.top.at? place = some (.file old))
    {path : String} (elsewhere : files.locate true path ≠ .ok place) :
    s.recordsOf (files.put place (.file new)) path = s.recordsOf files path := by
  simp only [recordsOf, FileTree.readText, FileTree.read_put_of_ne new present elsewhere]

/-- An extraction depends neither on whether files are read side by side nor on the order in which
this is finished. It fails only if the root cannot be searched; otherwise it is what each of the
files found gives by itself. Other content of one file leads to the same files, and to the same
records and failures but for those of the paths that lead to it: where just one path does, all that
may differ is one stretch of the records and the failure of that path. -/
theorem extract_file_by_file (files : FileTree) (root : String) (schedule : Schedule) :
    (∀ parallel other, ({ s with parallel := parallel } : Settings).extract files root other =
      s.extract files root schedule) ∧
    (∀ failure, (Scanner.ofSettings files s).scan root = .error failure →
      s.extract files root schedule = .error failure) ∧
    ∀ paths, (Scanner.ofSettings files s).scan root = .ok paths →
      ∃ e, s.extract files root schedule = .ok e ∧ e.Gathers s files root paths ∧
        ∀ place old new, files.top.at? place = some (.file old) →
          let files' := files.put place (.file new)
          ∃ e', s.extract files' root schedule = .ok e' ∧ e'.Gathers s files' root paths ∧
            (∀ path, files.locate true path = .ok place → files'.read path = .ok new) ∧
            (∀ path, files.locate true path ≠ .ok place →
              s.recordsOf files' path = s.recordsOf files path) ∧
            ∀ before path after, paths = before ++ path :: after →
              (∀ other ∈ before ++ after, files.locate true other ≠ .ok place) →
              AlikeBut (s.recordsIn files path) (s.recordsIn files' path) e.document.classes
                e'.document.classes ∧
              AlikeBut (s.failureIn files path).toList (s.failureIn files' path).toList e.failures
                e'.failures := by
  -- Where files lie does not depend on what they hold, so both extractions have the same paths.
  refine ⟨fun parallel other => ?_, fun failure failed => ?_, fun paths found => ?_⟩
  · rw [extract_eq, extract_eq, recordsOf_parallel]
    rfl
  · rw [extract_eq, failed]
    rfl
  have gathers := s.gathers_ofOutcomes files root paths
  refine ⟨_, by rw [extract_eq, found]; rfl, gathers, ?_⟩
  intro place old new present files'
  have gathers' := s.gathers_ofOutcomes files' root paths
  have unchanged (path : String) (elsewhere : files.locate true path ≠ .ok place) :
      s.recordsOf files' path = s.recordsOf files path := s.recordsOf_put new present elsewhere
  refine ⟨_, by rw [extract_eq, s.scan_put new present, found]; rfl, gathers',
    fun path leads => FileTree.read_put new present leads, unchanged, ?_⟩
  rintro before path after rfl apart
  exact gathers.alikeBut gathers' fun other member => unchanged other (apart other member)

end Settings

end TypeGraph
