import TypeGraph.Proofs.Declaration.Scope
import TypeGraph.Proofs.Project.Order

/-! Where edges end whose targets are simple names that several recorded types have. -/

namespace TypeGraph

/-- Beside every member of a list stands one of another list that is as long. -/
theorem exists_mem_zip {α β : Type} {xs : List α} {ys : List β} (long : xs.length = ys.length)
    {x : α} (member : x ∈ xs) : ∃ y, (x, y) ∈ xs.zip ys := by
  -- The member has a position, and the other list reaches that far.
  obtain ⟨i, within, rfl⟩ := List.getElem_of_mem member
  have within' : i < (xs.zip ys).length := by
    rw [List.length_zip]
    omega
  exact ⟨ys[i], by simpa using List.getElem_mem within'⟩

/-- A type goes by its simple name where types do not go by qualified names, where executable
content lies on the way to it, and at the top of a file without package. -/
theorem Settings.className_eq_name_iff (s : Settings) {package : Option String} {v : Visit}
    {r : Route} (last : r.getLast?.map (·.decl) = some v.decl)
    (qualified : v.qualified? = r.qualified? package) :
    s.className v = v.decl.name ↔
      s.resolveNames = false ∨ r.passesBody = true ∨ package = none ∧ r.length = 1 := by
  rw [className, className?, typeName?_resolver, qualified, Route.qualified?]
  cases s.resolveNames
  · simp
  · cases passes : r.passesBody
    · -- The qualified name comes to the simple one only if there is nothing before it.
      simpa using Route.dotted_eq_last_iff package last
    · simp

namespace Document

section Extracted

variable {d : Document} (extracted : d.Extracted)
include extracted

/-- In an extracted document a class has the simple name of any of its records. -/
theorem Extracted.simpleName?_eq_some_iff {className simple : String} :
    d.naming.simpleName? className = some simple ↔
      ∃ r ∈ d.classes, r.className = className ∧ r.simpleName = simple := by
  -- The simple name of a class can be read off its name, so no two records of it differ.
  rw [Naming.simpleName?_eq extracted.lastSegment_naming]
  constructor
  · intro known
    split at known
    · rename_i named
      obtain ⟨r, record, same⟩ := mem_names.mp named
      refine ⟨r, record, same, ?_⟩
      rw [← extracted.lastSegment_eq r record, same]
      exact Option.some.inj known
    · cases known
  · intro recorded
    obtain ⟨r, record, rfl, rfl⟩ := recorded
    rw [if_pos (mem_names.mpr ⟨r, record, rfl⟩), extracted.lastSegment_eq r record]

/-- A record that goes by the simple name of some record has that simple name itself. -/
theorem Extracted.simpleName_of_className {r other : TypeRecord} (record : r ∈ d.classes)
    (recorded : other ∈ d.classes) (same : r.className = other.simpleName) :
    r.simpleName = other.simpleName := by
  -- A simple name has no dots, so it is its own last segment.
  have plain : '.' ∉ other.simpleName.toList := by
    rw [← extracted.lastSegment_eq other recorded]
    exact lastSegment_plain _
  rw [← extracted.lastSegment_eq r record, same, lastSegment_of_plain plain]

/-- A target that is the simple name of records of different classes, and the name of none, leads
outside. -/
theorem Extracted.node_of_several {r r' : TypeRecord} (record : r ∈ d.classes)
    (record' : r' ∈ d.classes) (same : r'.simpleName = r.simpleName)
    (apart : r.className ≠ r'.className) (unnamed : ∀ o ∈ d.classes, o.className ≠ r.simpleName) :
    d.naming.node r.simpleName = ⟨r.simpleName, true⟩ := by
  have nothing : d.naming.meaning? r.simpleName = none := by
    rw [Naming.meaning?_eq_none_iff]
    constructor
    · intro known
      obtain ⟨o, recorded, named⟩ := mem_names.mp known
      exact unnamed o recorded named
    · -- Two classes have the simple name, so neither is the only one.
      intro unique
      obtain ⟨only, -, alone⟩ := unique
      have first := alone _ (extracted.simpleName?_eq_some_iff.mpr ⟨r, record, rfl, rfl⟩)
      have second := alone _ (extracted.simpleName?_eq_some_iff.mpr ⟨r', record', rfl, same⟩)
      exact apart (first.trans second.symm)
  rw [Naming.node, nothing]

/-- A target that is the simple name of the records of a single class leads to that class. -/
theorem Extracted.node_of_only {r : TypeRecord} (record : r ∈ d.classes)
    (only : ∀ o ∈ d.classes, o.simpleName = r.simpleName → o.className = r.className) :
    d.naming.node r.simpleName = ⟨r.className, false⟩ := by
  have means : d.naming.meaning? r.simpleName = some r.className := by
    rw [Naming.meaning?_eq_some_iff]
    split
    · -- What goes by the simple name has it, and so belongs to the class.
      rename_i known
      obtain ⟨o, recorded, named⟩ := mem_names.mp known
      rw [← named]
      exact only o recorded (extracted.simpleName_of_className recorded record named)
    · intro className
      rw [extracted.simpleName?_eq_some_iff]
      constructor
      · intro recorded
        obtain ⟨o, recorded, rfl, simple⟩ := recorded
        exact only o recorded simple
      · intro same
        exact ⟨r, record, same.symm, rfl⟩
  rw [Naming.node, means]

end Extracted

/-- A target that is the name of a class leads to it. -/
theorem node_of_className {d : Document} {r : TypeRecord} (record : r ∈ d.classes) :
    d.naming.node r.className = ⟨r.className, false⟩ := by
  -- The name of a class comes before any other meaning.
  have known : r.className ∈ d.naming.names := mem_names.mpr ⟨r, record, rfl⟩
  simp [Naming.node, Naming.meaning?, known]

/-- A simple name is the class name of a record if and only if it is that of a recorded type that
goes by its simple name. -/
theorem exists_className_iff (project : String) (s : Settings) {units : List CompilationUnit}
    (plain : ∀ u ∈ units, u.Plain) {name : String} (undotted : '.' ∉ name.toList) :
    (∃ r ∈ (ofUnits project s units).classes, r.className = name) ↔
      ∃ u ∈ units, ∃ p ∈ u.visits.zip u.routes, p.1.isRecorded = true ∧ p.1.decl.name = name ∧
        (s.resolveNames = false ∨ p.2.passesBody = true ∨ u.package = none ∧ p.2.length = 1) := by
  constructor
  · -- The record is that of a type, with whose name the class name ends.
    intro recorded
    obtain ⟨record, listed, named⟩ := recorded
    obtain ⟨u, unit, v, visited, made⟩ := exists_visit listed
    obtain ⟨r, paired⟩ := exists_mem_zip u.visits_routes.length_eq visited
    obtain ⟨last, qualified⟩ := List.forall₂_zip u.visits_routes paired
    obtain ⟨-, className, -⟩ := Visit.record?_eq_some made
    have simple : v.decl.name = name := by
      rw [← s.lastSegment_className (plain u unit v visited), ← className, named,
        lastSegment_of_plain undotted]
    have kept : v.isRecorded = true := by
      rw [← v.isSome_record? s (.ofUnit u), made]
      rfl
    refine ⟨u, unit, (v, r), paired, kept, simple, ?_⟩
    exact (s.className_eq_name_iff last qualified).mp (by rw [← className, named, simple])
  · -- A type of a recorded kind has a record, and it goes by the name that its place gives it.
    intro declared
    obtain ⟨u, unit, p, paired, kept, simple, stands⟩ := declared
    obtain ⟨last, qualified⟩ := List.forall₂_zip u.visits_routes paired
    obtain ⟨record, made⟩ : ∃ record, p.1.record? s (.ofUnit u) = some record := by
      rw [← Option.isSome_iff_exists, Visit.isSome_record?, kept]
    have listed : record ∈ u.records s :=
      List.mem_filterMap.mpr ⟨p.1, (List.of_mem_zip paired).1, made⟩
    refine ⟨record, List.mem_flatMap.mpr ⟨u, unit, listed⟩, ?_⟩
    rw [(Visit.record?_eq_some made).2.1, ← simple]
    exact (s.className_eq_name_iff last qualified).mpr stands

end Document

/-- A document that is extracted from a project is made of files whose types have names without
dots. Take such a document and a simple name of several of its records. If these records belong to
different classes, none of which is so named, an edge with the name as its target ends outside, at
an external type of that name. If there is a class of just that name, the edge ends there; it is the
class of a recorded type so named that goes by its simple name, as types do in or below executable
content, at the top of a file without package, and where types do not go by qualified names. If all
the records belong to one class, the edge ends at that class. -/
theorem ClassGraph.edges_to_shared_name :
    (∀ (s : Settings) files root schedule e, s.extract files root schedule = .ok e →
      ∃ units, (∀ u ∈ units, CompilationUnit.Plain u) ∧ e.document = .ofUnits root s units) ∧
    ∀ project (s : Settings) (units : List CompilationUnit), (∀ u ∈ units, u.Plain) →
      ∀ name : String,
        let d := Document.ofUnits project s units
        let g := ClassGraph.ofDocument d
        1 < d.classes.countP (fun r => r.simpleName = name) →
        ((∃ r ∈ d.classes, r.className = name) ↔
          ∃ u ∈ units, ∃ p ∈ u.visits.zip u.routes, p.1.isRecorded = true ∧ p.1.decl.name = name ∧
            (s.resolveNames = false ∨ p.2.passesBody = true ∨
              u.package = none ∧ p.2.length = 1)) ∧
        List.Forall₂ (fun (e : Edge) (w : TypeRecord × Dependency) => w.2.target = name →
          ((∀ r ∈ d.classes, r.className ≠ name) →
            (∃ r ∈ d.classes, ∃ r' ∈ d.classes, r.simpleName = name ∧ r'.simpleName = name ∧
              r.className ≠ r'.className) →
            g.nodes[e.target]? = some ⟨name, true⟩) ∧
          ((∃ r ∈ d.classes, r.className = name) → g.nodes[e.target]? = some ⟨name, false⟩) ∧
          ∀ only, (∀ r ∈ d.classes, r.simpleName = name → r.className = only) →
            g.nodes[e.target]? = some ⟨only, false⟩) g.edges d.written := by
  refine ⟨fun s files root schedule e made => Settings.document_of_extract made, ?_⟩
  intro project s units plain name d g several
  have extracted : d.Extracted := ⟨s, units, plain, rfl⟩
  obtain ⟨first, record, simple⟩ : ∃ r ∈ d.classes, r.simpleName = name := by
    have some := List.countP_pos_iff.mp (Nat.lt_of_succ_lt several)
    simpa using some
  constructor
  · -- A simple name has no dots, as it is the last segment of a class name.
    apply Document.exists_className_iff project s plain
    rw [← simple, ← extracted.lastSegment_eq first record]
    exact lastSegment_plain _
  · -- An edge ends at the node that its target means in the document.
    refine (leads_written d).imp ?_
    intro e w leads asked
    obtain ⟨-, stop, -⟩ := leads
    rw [asked] at stop
    refine ⟨?_, ?_, ?_⟩
    · intro unnamed apart
      obtain ⟨r, recorded, r', recorded', rfl, same, apart⟩ := apart
      rw [stop, extracted.node_of_several recorded recorded' same apart unnamed]
    · intro named
      obtain ⟨r, recorded, rfl⟩ := named
      rw [stop, Document.node_of_className recorded]
    · intro only alone
      have here : first.className = only := alone first record simple
      subst simple
      have means := extracted.node_of_only record fun o recorded same =>
        (alone o recorded same).trans here.symm
      rw [stop, means, here]

/-- Two files with a class of the same name in different packages, and one whose class extends a
class of that name. -/
def twoPackages : List CompilationUnit :=
  [⟨"A.java", some "a", [], [.mk .classType "Node" [] [] []]⟩,
   ⟨"B.java", some "b", [], [.mk .classType "Node" [] [] []]⟩,
   ⟨"C.java", some "c", [], [.mk .classType "Tree" ["Node"] [] []]⟩]

/-- Between classes of different packages the superclass stays open, so it is external. -/
theorem edges_to_shared_name_twoPackages :
    let s : Settings := {}
    let d := Document.ofUnits "src" s twoPackages
    let g := ClassGraph.ofDocument d
    (∀ u ∈ twoPackages, u.Plain) ∧ 1 < d.classes.countP (fun r => r.simpleName = "Node") ∧
      (∀ r ∈ d.classes, r.className ≠ "Node") ∧
      d.written.map (fun w => (w.1.className, w.2)) = [("c.Tree", ⟨.inherit, "Node"⟩)] ∧
      g.edges = [⟨2, 3, .inherit⟩] ∧ g.nodes[3]? = some ⟨"Node", true⟩ := by
  intro s d g
  have plain : ∀ u ∈ twoPackages, u.Plain := by decide
  have several : 1 < d.classes.countP (fun r => r.simpleName = "Node") := by decide
  have unnamed : ∀ r ∈ d.classes, r.className ≠ "Node" := by decide
  have written : d.written = [(⟨"Tree", some "c.Tree", false, [], ⟨0, 0⟩, [⟨.inherit, "Node"⟩]⟩,
      ⟨.inherit, "Node"⟩)] := by decide
  have edges : g.edges = [⟨2, 3, .inherit⟩] := by decide
  have ends : List.Forall₂ _ g.edges d.written :=
    (ClassGraph.edges_to_shared_name.2 "src" s twoPackages plain "Node" several).2
  rw [edges, written] at ends
  have node := ((List.forall₂_cons.mp ends).1 rfl).1 unnamed (by decide)
  exact ⟨plain, several, unnamed, by rw [written]; rfl, edges, node⟩

/-- A file with a class, and one of another package whose class extends a class of that name and has
a local class so named. -/
def localNamesake : List CompilationUnit :=
  [⟨"A.java", some "a", [], [.mk .classType "Node" [] [] []]⟩,
   ⟨"B.java", some "b", [], [.mk .classType "Tree" ["Node"] [] [
      .method "f" ⟨1, 1⟩ (.mk [] [.mk .classType "Node" [] [] []])]]⟩]

/-- The superclass has the simple name of two records, but the edge ends at the local class. -/
theorem edge_to_local_namesake :
    let s : Settings := {}
    let d := Document.ofUnits "src" s localNamesake
    let g := ClassGraph.ofDocument d
    (∀ u ∈ localNamesake, u.Plain) ∧
      d.classes.map (fun r => (r.simpleName, r.className)) =
        [("Node", "a.Node"), ("Tree", "b.Tree"), ("Node", "Node")] ∧
      d.written.map (fun w => (w.1.className, w.2)) = [("b.Tree", ⟨.inherit, "Node"⟩)] ∧
      g.edges = [⟨1, 2, .inherit⟩] ∧ g.nodes[2]? = some ⟨"Node", false⟩ := by
  intro s d g
  exact ⟨by decide, by decide, by decide, by decide, by decide⟩

end TypeGraph
