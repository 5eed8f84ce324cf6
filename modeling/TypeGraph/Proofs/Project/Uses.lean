import TypeGraph.Proofs.Graph.Summary
import TypeGraph.Proofs.Project.Units

/-! The names that the types of several files write of other types, and the edges made of them. -/

namespace TypeGraph

/-- A name that a type writes of a type on which it depends. -/
structure Use where
  unit : CompilationUnit
  /-- The type that depends on another. -/
  user : Visit
  kind : EdgeKind
  written : String

namespace Settings

variable (s : Settings)

/-- The name that a type met on a walk goes by. -/
def className (v : Visit) : String := (s.className? v).getD v.decl.name

/-- The names that a type writes of the types on which it depends, of the recorded kinds. -/
def uses (d : TypeDecl) : List (EdgeKind × String) :=
  ([EdgeKind.inherit, .reference, .call].filter s.emits).flatMap fun kind =>
    (s.dependsOn d kind).map (kind, ·)

/-- The names that the recorded types of several files write, in order. -/
def usesIn (units : List CompilationUnit) : List Use :=
  units.flatMap fun u => (u.visits.filter Visit.isRecorded).flatMap fun v =>
    (s.uses v.decl).map fun (kind, written) => ⟨u, v, kind, written⟩

/-- What a name that is written becomes as the target of a dependency. -/
def target (use : Use) : String :=
  (s.targetName? (.ofUnit use.unit) use.written).getD use.written

/-- A type depends on what the names that it writes become. -/
theorem dependencies_eq (scope : Scope) (d : TypeDecl) :
    s.dependencies scope d = (s.uses d).map fun (kind, written) =>
      ⟨kind, (s.targetName? scope written).getD written⟩ := by
  unfold dependencies uses
  -- Kinds that are not recorded give nothing on either side.
  induction [EdgeKind.inherit, .reference, .call] with
  | nil => rfl
  | cons kind rest ih =>
    rw [List.flatMap_cons, ih]
    by_cases recorded : s.emits kind <;> simp [dependenciesOf, recorded]

end Settings

namespace Visit

/-- What is recorded of a type has the names and dependencies of the type. -/
theorem record?_eq_some {s : Settings} {scope : Scope} {v : Visit} {r : TypeRecord}
    (made : v.record? s scope = some r) :
    r.simpleName = v.decl.name ∧ r.className = s.className v ∧
      r.dependencies = s.dependencies scope v.decl := by
  -- Classes and interfaces are recorded alike.
  unfold record? at made
  cases kind : v.decl.kind <;> simp only [kind, Option.some.injEq, reduceCtorEq] at made
  all_goals
    subst made
    exact ⟨rfl, rfl, rfl⟩

end Visit

namespace Document

/-- A record is that of a type in one of the files. -/
theorem exists_visit {project : String} {s : Settings} {units : List CompilationUnit}
    {r : TypeRecord} (record : r ∈ (ofUnits project s units).classes) :
    ∃ u ∈ units, ∃ v ∈ u.visits, v.record? s (.ofUnit u) = some r := by
  obtain ⟨u, unit, listed⟩ := List.mem_flatMap.mp record
  obtain ⟨v, visited, made⟩ := List.mem_filterMap.mp listed
  exact ⟨u, unit, v, visited, made⟩

/-- The dependencies of the records of a file are made of the names that its types write. -/
theorem written_records (u : CompilationUnit) (s : Settings) :
    (u.records s).flatMap (fun r => r.dependencies.map (r.className, ·)) =
      (u.visits.filter Visit.isRecorded).flatMap fun v => (s.uses v.decl).map fun use =>
        (s.className v, ⟨use.1, (s.targetName? (.ofUnit u) use.2).getD use.2⟩) := by
  unfold CompilationUnit.records
  induction u.visits with
  | nil => rfl
  | cons v rest ih =>
    have told := v.isSome_record? s (.ofUnit u)
    cases made : v.record? s (.ofUnit u) with
    | none =>
      -- What is not recorded has no dependencies in the document.
      have skipped : v.isRecorded = false := by simpa [made] using told.symm
      rw [List.filterMap_cons_none made, List.filter_cons_of_neg (by simp [skipped]), ih]
    | some r =>
      have kept : v.isRecorded = true := by simpa [made] using told.symm
      obtain ⟨-, named, dependencies⟩ := Visit.record?_eq_some made
      rw [List.filterMap_cons_some made, List.filter_cons_of_pos kept, List.flatMap_cons,
        List.flatMap_cons, ih, named, dependencies, s.dependencies_eq, List.map_map]
      rfl

/-- The dependencies in the document of several files are made of the names that their types
write. -/
theorem written_ofUnits (project : String) (s : Settings) (units : List CompilationUnit) :
    (ofUnits project s units).written.map (fun w => (w.1.className, w.2)) =
      (s.usesIn units).map fun use => (s.className use.user, ⟨use.kind, s.target use⟩) := by
  simp only [written, ofUnits, Settings.usesIn, List.map_flatMap, List.flatMap_assoc,
    List.map_map, Function.comp_def]
  -- Files are gone through one after another on both sides.
  refine List.flatMap_congr fun u _ => ?_
  exact written_records u s

/-- The class names in the document of several files are those of the records of the files. -/
theorem mem_names_ofUnits {project : String} {s : Settings} {units : List CompilationUnit}
    {name : String} :
    name ∈ (ofUnits project s units).naming.names ↔
      ∃ u ∈ units, ∃ r ∈ u.records s, r.className = name := by
  -- The records of the document are those of its files in turn.
  rw [mem_names]
  constructor
  · intro recorded
    obtain ⟨r, listed, named⟩ := recorded
    obtain ⟨u, unit, record⟩ := List.mem_flatMap.mp listed
    exact ⟨u, unit, r, record, named⟩
  · intro recorded
    obtain ⟨u, unit, r, record, named⟩ := recorded
    exact ⟨r, List.mem_flatMap.mpr ⟨u, unit, record⟩, named⟩

end Document

open GraphBuilder

/-- The graph of several files has an edge for every name that a recorded type writes. It leads from
the class of that type to what the name means, once it has become a target. -/
theorem ClassGraph.edges_ofUnits (project : String) (s : Settings)
    (units : List CompilationUnit) :
    let d := Document.ofUnits project s units
    let g := ClassGraph.ofDocument d
    List.Forall₂ (fun (e : Edge) (use : Use) => e.kind = use.kind ∧
      g.nodes[e.source]? = some ⟨s.className use.user, false⟩ ∧
      g.nodes[e.target]? = some (d.naming.node (s.target use))) g.edges (s.usesIn units) := by
  intro d g
  have edges : List.Forall₂ (fun (e : Edge) (w : String × Dependency) =>
      g.nodes[e.source]? = some ⟨w.1, false⟩ ∧
      g.nodes[e.target]? = some (d.naming.node w.2.target) ∧ e.kind = w.2.kind) g.edges
      (d.written.map fun w => (w.1.className, w.2)) := by
    -- The edges are the dependencies of the document in order.
    rw [List.forall₂_map_right_iff]
    exact leads_written d
  rw [Document.written_ofUnits, List.forall₂_map_right_iff] at edges
  refine edges.imp ?_
  intro e use leads
  exact ⟨leads.2.2, leads.1, leads.2.1⟩

end TypeGraph
