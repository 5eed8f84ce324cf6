import TypeGraph.Command.Run
import TypeGraph.Proofs.Project.Order
import TypeGraph.Proofs.Project.Save
import TypeGraph.Proofs.Project.Scan
import TypeGraph.Proofs.Project.Units

/-! A run saves the document that it sums up and changes nothing else, or it changes nothing. -/

namespace TypeGraph

open Files

/-- Settings pass their check if there is no fault in them. -/
theorem Settings.checked_eq_ok_iff {s checked : Settings} {origin : String} :
    s.checked origin = .ok checked ↔ s.fault? = none ∧ s = checked := by
  unfold Settings.checked
  cases s.fault? <;> simp

/-- An extraction is what the files that are found give. -/
theorem Settings.extract_eq_ok_iff {s : Settings} {files : FileTree} {root : String}
    {schedule : Schedule} {e : Extraction} :
    s.extract files root schedule = .ok e ↔ ∃ paths,
      (Scanner.ofSettings files s).scan root = .ok paths ∧
        .ofOutcomes root paths (paths.map (s.recordsOf files)) = e := by
  rw [extract_eq, bind_eq_ok_iff]
  simp

namespace ClassGraph

variable (d : Document)

/-- The classes of a document's graph are the class names of the document. -/
theorem classes_summary :
    (ofDocument d).summary.classes = {name | ∃ r ∈ d.classes, r.className = name}.ncard := by
  rw [ofDocument_eq, (GraphBuilder.holds_built d).1.ncard_classes]
  rfl

/-- The external types of a document's graph are the targets that mean no class. -/
theorem externalTargets_summary :
    (ofDocument d).summary.externalTargets =
      {target | (∃ r ∈ d.classes, ∃ e ∈ r.dependencies, e.target = target) ∧
        d.naming.meaning? target = none}.ncard := by
  -- There is an external node for each of these targets, and no other.
  have counted : (ofDocument d).summary.externalTargets =
      (d.naming.outside (d.written.map (·.2.target))).length := by
    rw [ofDocument_eq, ← (GraphBuilder.holds_built d).1.countP_external]
    rfl
  rw [counted]
  refine (ncard_eq_length (d.naming.nodup_outside _) ?_).symm
  intro target
  rw [Naming.mem_outside, Document.mem_targets]

/-- A document's graph has an edge for every dependency, and those edges lead outside of which the
target means no class. -/
theorem edges_summary :
    (ofDocument d).summary.internalEdges + (ofDocument d).summary.externalEdges = d.edgeCount ∧
      (ofDocument d).summary.externalEdges =
        (d.classes.flatMap (·.dependencies)).countP fun e =>
          (d.naming.meaning? e.target).isNone := by
  have length : (ofDocument d).edges.length = d.edgeCount := by
    rw [ofDocument_eq, ← d.length_written]
    exact (GraphBuilder.holds_built d).2.length_eq
  constructor
  · rw [← length]
    exact Nat.sub_add_cancel List.countP_le_length
  · -- The link of a dependency ends at what its target means.
    have ends (target : String) :
        (d.naming.node target).external = (d.naming.meaning? target).isNone := by
      unfold Naming.node
      cases d.naming.meaning? target <;> rfl
    show (ofDocument d).edges.countP (ofDocument d).leadsOutside = _
    rw [countP_leadsOutside, links_ofDocument, ← d.written_dependencies]
    simp only [List.countP_map, Function.comp_def, Option.any_some, ends]

end ClassGraph

namespace Command

/-- The numbers of a summary. -/
structure Tally where
  scanned : Nat
  skipped : Nat
  classes : Nat
  edges : Nat
  internal : Nat
  external : Nat
  targets : Nat

/-- The lines of a summary with some numbers. -/
def Tally.lines (t : Tally) (kinds : List EdgeKind) : List String :=
  ["Files: " ++ toString t.scanned ++ " scanned, " ++ toString t.skipped ++ " skipped",
    "Classes: " ++ toString t.classes ++ ", edges: " ++ toString t.edges ++ " (" ++
      ",".intercalate (kinds.map EdgeKind.name) ++ ") - " ++ toString t.internal ++
      " internal, " ++ toString t.external ++ " to " ++ toString t.targets ++ " external targets"]

/-- The numbers agree with the files that are scanned and with the document that is made. -/
structure Tally.Agrees (t : Tally) (files : FileTree) (paths : List String) (d : Document) :
    Prop where
  scanned : t.scanned = paths.length
  /-- Files are skipped that cannot be read or parsed. -/
  skipped : t.skipped = paths.countP fun path => (files.unit? path).isNone
  classes : t.classes = {name | ∃ r ∈ d.classes, r.className = name}.ncard
  edges : t.edges = (d.classes.flatMap (·.dependencies)).length
  split : t.internal + t.external = t.edges
  /-- External edges are those whose targets mean no class. -/
  external : t.external = (d.classes.flatMap (·.dependencies)).countP fun e =>
    (d.naming.meaning? e.target).isNone
  targets : t.targets = {target | (∃ r ∈ d.classes, ∃ e ∈ r.dependencies, e.target = target) ∧
    d.naming.meaning? target = none}.ncard

namespace Request

/-- The settings from which a request goes on: those of the file that it names, or the default. -/
def Starts (r : Request) (files : FileTree) (base : Settings) : Prop :=
  match r.config with
  | some path => Settings.load files path = .ok base
  | none => base = {}

/-- A request has settings if those from which it goes on are there and no fault is left in them
after what the request asks for has taken its place. -/
theorem settings_eq_ok_iff {r : Request} {files : FileTree} {s : Settings} :
    r.settings files = .ok s ↔
      ∃ base, r.Starts files base ∧ (r.override base).fault? = none ∧ r.override base = s := by
  -- The stage at which they fail is told in the failure and does not matter to success.
  unfold settings Starts
  cases r.config with
  | none => simp [bind_eq_ok_iff, mapError_eq_ok_iff, Settings.checked_eq_ok_iff, pure, Except.pure]
  | some path => simp only [bind_eq_ok_iff, mapError_eq_ok_iff, Settings.checked_eq_ok_iff]

/-- A run does all that it should, or something fails and the files stay as they are. -/
theorem run_cases (r : Request) (files : FileTree) (schedule : Schedule) (mishaps : Mishaps) :
    (∃ s e target, r.settings files = .ok s ∧ s.extract files r.input schedule = .ok e ∧
        (mishaps = {} ∧ files.Takes r.output target) ∧
        r.run files schedule mishaps =
          ⟨0, r.announcement ++ summary s e ++ ["Extraction complete. Saved to: " ++ r.output],
            none, files.put target (.file (e.document.render .pretty).toUTF8)⟩) ∨
      (∀ s e, r.settings files = .ok s → s.extract files r.input schedule = .ok e →
          ∀ target, ¬(mishaps = {} ∧ files.Takes r.output target)) ∧
        ∃ printed complaint,
          r.run files schedule mishaps = ⟨1, printed, some complaint, files⟩ := by
  -- The steps of a run are gone through in order, and the first that fails ends it.
  cases loaded : r.settings files with
  | error failed => exact .inr ⟨nofun, _, _, by simp only [run, loaded]; rfl⟩
  | ok s =>
    cases extracted : s.extract files r.input schedule with
    | error failure =>
      refine .inr ⟨?_, _, _, by simp only [run, loaded, extracted]; rfl⟩
      intro _ _ same done
      cases same
      cases extracted.symm.trans done
    | ok e =>
      rcases e.document.save_eq .pretty files r.output mishaps with
        ⟨target, calm, takes, saved⟩ | ⟨never, failure, saved⟩
      · exact .inl ⟨s, e, target, rfl, extracted, ⟨calm, takes⟩,
          by simp only [run, loaded, extracted, saved]⟩
      · refine .inr ⟨?_, _, _, by simp only [run, loaded, extracted, saved]; rfl⟩
        intro _ _ same done target possible
        exact never target possible

/-- The summary of what files have given tells numbers that agree with them and the document. -/
theorem exists_tally {s : Settings} {files : FileTree} {root : String} {paths : List String}
    {e : Extraction} (gathers : e.Gathers s files root paths) :
    ∃ t : Tally, t.Agrees files paths e.document ∧ summary s e = t.lines s.edgeKinds := by
  -- The numbers are those of the graph, which are told by the document.
  let counts := (ClassGraph.ofDocument e.document).summary
  obtain ⟨split, external⟩ := ClassGraph.edges_summary e.document
  refine ⟨⟨e.filesScanned, e.failures.length, counts.classes, e.document.edgeCount,
    counts.internalEdges, counts.externalEdges, counts.externalTargets⟩, ?_, rfl⟩
  exact {
    scanned := gathers.scanned
    skipped := by
      -- Each failure is that of one file.
      rw [gathers.failures, List.length_filterMap_eq_countP]
      exact List.countP_congr fun path _ => by rw [s.isSome_failureIn]
    classes := ClassGraph.classes_summary e.document
    edges := rfl
    split := split
    external := external
    targets := ClassGraph.externalTargets_summary e.document }

/-- A run comes to one of two things. Either the files are the same but for the one at the path for
the output, which holds the whole document of the extraction, and the printed summary agrees with
this document and with the files that were scanned; or there is a complaint and no file is changed.
It comes to the first exactly if the settings are there and have no fault, the root is a directory,
and a file can be saved at the path for the output, however many files cannot be used. -/
theorem run_whole_or_nothing (r : Request) (files : FileTree) (schedule : Schedule)
    (mishaps : Mishaps) :
    let o := r.run files schedule mishaps
    ((o.exitCode = 0 ∧ o.complaint = none ∧ ∃ s e paths target,
        r.settings files = .ok s ∧ s.extract files r.input schedule = .ok e ∧
        (Scanner.ofSettings files s).scan r.input = .ok paths ∧
        e.document = .ofUnits r.input s (paths.filterMap files.unit?) ∧
        files.slot r.output = .ok target ∧ o.files.here = files.here ∧
        o.files.sight? target = some (.file (e.document.render .pretty).toUTF8) ∧
        (∀ other, other ≠ target → o.files.sight? other = files.sight? other) ∧
        ∃ t : Tally, t.Agrees files paths e.document ∧
          o.printed = r.announcement ++ t.lines s.edgeKinds ++
            ["Extraction complete. Saved to: " ++ r.output]) ∨
      (o.exitCode = 1 ∧ o.complaint.isSome ∧ o.files = files)) ∧
    (o.exitCode = 0 ↔
      (∃ base, r.Starts files base ∧ (r.override base).fault? = none) ∧
      (∃ entries, files.entry r.input = .ok (.directory entries)) ∧
      mishaps = {} ∧ ∃ target, files.Takes r.output target) := by
  intro o
  rcases r.run_cases files schedule mishaps with
    ⟨s, e, target, loaded, extracted, ⟨calm, takes⟩, same⟩ | ⟨never, printed, complaint, same⟩
  · -- What is printed and saved is told by the extraction, which is what the files give.
    have done : o.exitCode = 0 := congrArg Outcome.exitCode same
    have after : o.files = files.put target (.file (e.document.render .pretty).toUTF8) :=
      congrArg Outcome.files same
    obtain ⟨paths, scanned, made⟩ := Settings.extract_eq_ok_iff.mp extracted
    have gathers : e.Gathers s files r.input paths := made ▸ s.gathers_ofOutcomes files _ paths
    obtain ⟨t, agrees, lines⟩ := exists_tally gathers
    obtain ⟨place, name, rfl, above⟩ := FileTree.exists_of_slot takes.slot
    refine ⟨.inl ⟨done, congrArg Outcome.complaint same, s, e, paths, _, loaded, extracted, scanned,
      gathers.document_eq, takes.slot, by rw [after]; rfl, ?_, ?_, t, agrees, ?_⟩, ?_⟩
    · rw [after]
      exact FileTree.sight?_put_self above _
    · intro other elsewhere
      rw [after]
      exact FileTree.sight?_put_file above takes.leaf elsewhere
    · rw [← lines]
      exact congrArg Outcome.printed same
    · obtain ⟨base, starts, sound, rfl⟩ := settings_eq_ok_iff.mp loaded
      have opens := (Scanner.exists_scan_iff _ _).mp ⟨paths, scanned⟩
      exact iff_of_true done ⟨⟨base, starts, sound⟩, opens, calm, _, takes⟩
  · have failed : o.exitCode = 1 := congrArg Outcome.exitCode same
    refine ⟨.inr ⟨failed, ?_, congrArg Outcome.files same⟩, ?_⟩
    · rw [show o.complaint = some complaint from congrArg Outcome.complaint same]
      rfl
    · -- With settings and a root to be searched there would be an extraction to save.
      refine iff_of_false (by simp [failed]) ?_
      rintro ⟨⟨base, starts, sound⟩, opens, calm, target, takes⟩
      have loaded := settings_eq_ok_iff.mpr ⟨base, starts, sound, rfl⟩
      obtain ⟨paths, scanned⟩ :=
        (Scanner.exists_scan_iff (.ofSettings files (r.override base)) r.input).mpr opens
      have extracted : (r.override base).extract files r.input schedule = .ok _ :=
        Settings.extract_eq_ok_iff.mpr ⟨paths, scanned, rfl⟩
      exact never _ _ loaded extracted target ⟨calm, takes⟩

end Request

end Command

end TypeGraph
