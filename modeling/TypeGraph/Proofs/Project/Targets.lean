import TypeGraph.Proofs.Declaration.Scope
import TypeGraph.Proofs.Project.Uses

/-! Where edges end whose targets are written as the names of imported or declared types. -/

namespace TypeGraph

/-- A target that is the simple name of no class leads to the class so named, else outside. -/
theorem Naming.node_of_no_simpleName {n : Naming} {target : String}
    (unnamed : ∀ name, n.simpleName? name ≠ some target) :
    ∃ external, n.node target = ⟨target, external⟩ ∧ (external = false ↔ target ∈ n.names) := by
  by_cases known : target ∈ n.names
  · exact ⟨false, by simp [node, meaning?, known], by simp [known]⟩
  · -- There is no class of that simple name to fall back on.
    have nothing : n.meaning? target = none := by
      rw [meaning?_eq_none_iff]
      refine ⟨known, ?_⟩
      intro unique
      obtain ⟨name, registered, -⟩ := unique
      exact unnamed name registered
    exact ⟨true, by simp [node, nothing], by simp [known]⟩

/-- A name with a dot is the simple name of no class. -/
theorem Document.simpleName?_of_dotted (project : String) (s : Settings)
    {units : List CompilationUnit} (plain : ∀ u ∈ units, u.Plain) {target : String}
    (dotted : '.' ∈ target.toList) (name : String) :
    (ofUnits project s units).naming.simpleName? name ≠ some target := by
  intro registered
  -- The simple name of a class is that of a type in one of the files.
  obtain ⟨entry, found, same⟩ := Option.map_eq_some_iff.mp registered
  obtain ⟨r, record, made⟩ := List.mem_map.mp (List.mem_of_find?_eq_some found)
  obtain ⟨u, unit, v, visited, told⟩ := exists_visit record
  have simple : v.decl.name = target := by
    rw [← (Visit.record?_eq_some told).1, ← same, ← made]
  exact plain u unit v visited (simple ▸ dotted)

/-- In the graph of several files there is an edge for every name that a recorded type writes, and
it starts at the class of that type. Where the last import of the name has a dotted path, the edge
ends at the node with just that path as its name. It is that of a class if and only if one of the
files has a record whose class name is the path. -/
theorem ClassGraph.edges_to_imports (project : String) (s : Settings)
    (resolved : s.resolveTargets = true) (units : List CompilationUnit)
    (plain : ∀ u ∈ units, u.Plain) :
    let g := ClassGraph.ofDocument (.ofUnits project s units)
    List.Forall₂ (fun (e : Edge) (use : Use) => e.kind = use.kind ∧
      g.nodes[e.source]? = some ⟨s.className use.user, false⟩ ∧
      ∀ i : Import, i.IsLastFor use.written use.unit.imports → '.' ∈ i.path.toList →
        ∃ external, g.nodes[e.target]? = some ⟨i.path, external⟩ ∧
          (external = false ↔ ∃ u ∈ units, ∃ r ∈ u.records s, r.className = i.path))
      g.edges (s.usesIn units) := by
  intro g
  refine (edges_ofUnits project s units).imp ?_
  intro e use leads
  obtain ⟨kind, source, stop⟩ := leads
  refine ⟨kind, source, ?_⟩
  intro i last dotted
  -- The name becomes the path, which means a class only by its full name.
  have becomes : s.target use = i.path := by
    simp [Settings.target, Settings.targetName?, resolved, Scope.lookup_of_import last]
  obtain ⟨external, node, class_iff⟩ := Naming.node_of_no_simpleName
    (Document.simpleName?_of_dotted project s plain dotted)
  refine ⟨external, ?_, ?_⟩
  · show (ofDocument (.ofUnits project s units)).nodes[e.target]? = _
    rw [stop, becomes, node]
  · rw [class_iff, Document.mem_names_ofUnits]

/-- A file whose class `A` extends an imported `B`, not its own one, and implements an imported `C`,
and a file that declares the latter. -/
def homonyms : List CompilationUnit :=
  [⟨"a/A.java", some "a", [⟨"b.B", false, false⟩, ⟨"c.C", false, false⟩],
    [.mk .classType "A" ["B"] ["C"] [], .mk .classType "B" [] [] []]⟩,
   ⟨"c/C.java", some "c", [], [.mk .interfaceType "C" [] [] []]⟩]

/-- The superclass is external, though the same file has a class of that simple name. -/
theorem edges_to_imports_homonyms :
    let s : Settings := { resolveTargets := true, supertypes := .all }
    let g := ClassGraph.ofDocument (.ofUnits "p" s homonyms)
    (∀ u ∈ homonyms, u.Plain) ∧
      g.nodes = [⟨"a.A", false⟩, ⟨"a.B", false⟩, ⟨"c.C", false⟩, ⟨"b.B", true⟩] ∧
      g.edges = [⟨0, 3, .inherit⟩, ⟨0, 2, .inherit⟩] ∧
      List.Forall₂ (fun (e : Edge) (use : Use) => e.kind = use.kind ∧
        g.nodes[e.source]? = some ⟨s.className use.user, false⟩ ∧
        ∀ i : Import, i.IsLastFor use.written use.unit.imports → '.' ∈ i.path.toList →
          ∃ external, g.nodes[e.target]? = some ⟨i.path, external⟩ ∧
            (external = false ↔ ∃ u ∈ homonyms, ∃ r ∈ u.records s, r.className = i.path))
        g.edges (s.usesIn homonyms) := by
  intro s g
  have plain : ∀ u ∈ homonyms, u.Plain := by decide
  exact ⟨plain, by decide, by decide, ClassGraph.edges_to_imports "p" s rfl homonyms plain⟩

/-- In the graph of several files there is an edge for every name that a recorded type writes. Take
a name that one of the files does not import, where the first type of that name outside executable
content is recorded. For every use of the name in the file, the target of the dependency is the
qualified name of that type. It is the class name of the record of the type, too, if and only if
classes go by qualified names or the type stands at the top of a file without package. Then the edge
ends at the class of the record. -/
theorem ClassGraph.edges_to_declared (project : String) (s : Settings)
    (resolved : s.resolveTargets = true) (units : List CompilationUnit) {u : CompilationUnit}
    (unit : u ∈ units) {name : String} (free : ∀ i ∈ u.imports, i.simpleName? ≠ some name)
    {v : Visit} {r : Route} (first : u.firstNamed? name = some (v, r))
    (recorded : v.isRecorded = true) :
    let d := Document.ofUnits project s units
    let g := ClassGraph.ofDocument d
    ∃ record ∈ d.classes, v.record? s (.ofUnit u) = some record ∧
      record.className = (if s.resolveNames then r.dotted u.package else name) ∧
      (record.className = r.dotted u.package ↔
        s.resolveNames = true ∨ u.package = none ∧ r.length = 1) ∧
      List.Forall₂ (fun (w : TypeRecord × Dependency) (use : Use) =>
        w.1.className = s.className use.user ∧ w.2.kind = use.kind ∧
        (use.unit = u → use.written = name → w.2.target = r.dotted u.package))
        d.written (s.usesIn units) ∧
      List.Forall₂ (fun (e : Edge) (use : Use) => e.kind = use.kind ∧
        g.nodes[e.source]? = some ⟨s.className use.user, false⟩ ∧
        (use.unit = u → use.written = name → record.className = r.dotted u.package →
          g.nodes[e.target]? = some ⟨record.className, false⟩)) g.edges (s.usesIn units) := by
  intro d g
  obtain ⟨visited, named, last, qualified⟩ := CompilationUnit.firstNamed?_eq_some first
  obtain ⟨record, made⟩ : ∃ record, v.record? s (.ofUnit u) = some record := by
    rw [← Option.isSome_iff_exists, v.isSome_record?, recorded]
  have listed : record ∈ u.records s := List.mem_filterMap.mpr ⟨v, visited, made⟩
  have className : record.className = if s.resolveNames then r.dotted u.package else name := by
    rw [(Visit.record?_eq_some made).2.1, Settings.className, Settings.className?,
      Settings.typeName?_resolver, qualified, named]
    cases s.resolveNames <;> rfl
  have becomes : ∀ use : Use, use.unit = u → use.written = name →
      s.target use = r.dotted u.package := by
    -- The name stands for the first type of that name in the file.
    intro use here written
    simp [Settings.target, Settings.targetName?, resolved, here, written,
      Scope.lookup_of_not_imported free, first]
  refine ⟨record, List.mem_flatMap.mpr ⟨u, unit, listed⟩, made, className, ?_, ?_, ?_⟩
  · rw [className]
    cases s.resolveNames
    · -- Without qualified names there may be nothing before the simple name.
      have alone := Route.dotted_eq_last_iff u.package last
      rw [named] at alone
      simpa [eq_comm] using alone
    · simp
  · have written := Document.written_ofUnits project s units
    rw [← List.forall₂_eq_eq_eq, List.forall₂_map_left_iff, List.forall₂_map_right_iff] at written
    refine written.imp ?_
    intro w use same
    obtain ⟨source, dependency⟩ := Prod.mk.inj same
    refine ⟨source, by rw [dependency], ?_⟩
    intro here written
    rw [dependency]
    exact becomes use here written
  · refine (edges_ofUnits project s units).imp ?_
    intro e use leads
    obtain ⟨kind, source, stop⟩ := leads
    refine ⟨kind, source, ?_⟩
    intro here written agree
    -- The target is the name of a class, which comes before any other meaning.
    have known : record.className ∈ d.naming.names :=
      Document.mem_names_ofUnits.mpr ⟨u, unit, record, listed, rfl⟩
    have means : d.naming.meaning? record.className = some record.className := by
      simp [Naming.meaning?, known]
    show (ofDocument (.ofUnits project s units)).nodes[e.target]? = _
    rw [stop, becomes use here written, ← agree, Naming.node, means]

/-- A class that extends nothing. -/
def superclass : TypeDecl := .mk .classType "A" [] [] []

/-- A file of a package in which one class extends another. -/
def packaged : CompilationUnit :=
  ⟨"Sample.java", some "p", [], [superclass, .mk .classType "B" ["A"] [] []]⟩

/-- The superclass stands at the top of the file. -/
theorem firstNamed?_packaged : packaged.firstNamed? "A" =
    some (⟨superclass, .unit (some "p")⟩, [⟨superclass, false⟩]) := by
  -- The walk through two types without bodies is written out.
  have routes : packaged.routes =
      [[⟨superclass, false⟩], [⟨.mk .classType "B" ["A"] [] [], false⟩]] := by
    simp only [CompilationUnit.routes, packaged, List.flatMap_cons, List.flatMap_nil]
    rw [TypeDecl.routes_eq, TypeDecl.routes_eq]
    rfl
  rw [CompilationUnit.firstNamed?, routes]
  rfl

/-- With qualified names throughout, the edge ends at the superclass. -/
theorem edges_to_declared_packaged :
    let s : Settings := { resolveTargets := true }
    let d := Document.ofUnits "p" s [packaged]
    let g := ClassGraph.ofDocument d
    let v : Visit := ⟨superclass, .unit (some "p")⟩
    let r : Route := [⟨superclass, false⟩]
    packaged.firstNamed? "A" = some (v, r) ∧ g.nodes = [⟨"p.A", false⟩, ⟨"p.B", false⟩] ∧
      g.edges = [⟨1, 0, .inherit⟩] ∧
      ∃ record ∈ d.classes, v.record? s (.ofUnit packaged) = some record ∧
        record.className = (if s.resolveNames then r.dotted packaged.package else "A") ∧
        (record.className = r.dotted packaged.package ↔
          s.resolveNames = true ∨ packaged.package = none ∧ r.length = 1) ∧
        List.Forall₂ (fun (w : TypeRecord × Dependency) (use : Use) =>
          w.1.className = s.className use.user ∧ w.2.kind = use.kind ∧
          (use.unit = packaged → use.written = "A" → w.2.target = r.dotted packaged.package))
          d.written (s.usesIn [packaged]) ∧
        List.Forall₂ (fun (e : Edge) (use : Use) => e.kind = use.kind ∧
          g.nodes[e.source]? = some ⟨s.className use.user, false⟩ ∧
          (use.unit = packaged → use.written = "A" →
            record.className = r.dotted packaged.package →
            g.nodes[e.target]? = some ⟨record.className, false⟩)) g.edges
          (s.usesIn [packaged]) := by
  intro s d g v r
  have free : ∀ i ∈ packaged.imports, i.simpleName? ≠ some "A" := by decide
  exact ⟨firstNamed?_packaged, by decide, by decide, ClassGraph.edges_to_declared "p" s rfl
    [packaged] List.mem_cons_self free firstNamed?_packaged rfl⟩

/-- Where only targets go by qualified names, the target is not the class name of the superclass in
the same file, and the edge ends outside. -/
theorem target_of_simple_className :
    let s : Settings := { resolveNames := false, resolveTargets := true }
    let d := Document.ofUnits "p" s [packaged]
    let g := ClassGraph.ofDocument d
    let v : Visit := ⟨superclass, .unit (some "p")⟩
    (∀ i ∈ packaged.imports, i.simpleName? ≠ some "A") ∧
      packaged.firstNamed? "A" = some (v, [⟨superclass, false⟩]) ∧ v.isRecorded = true ∧
      (v.record? s (.ofUnit packaged)).map (·.className) = some "A" ∧
      d.written.map (fun w => (w.1.className, w.2)) = [("B", ⟨.inherit, "p.A"⟩)] ∧
      g.nodes = [⟨"A", false⟩, ⟨"B", false⟩, ⟨"p.A", true⟩] ∧ g.edges = [⟨1, 2, .inherit⟩] := by
  intro s d g v
  exact ⟨by decide, firstNamed?_packaged, rfl, by decide, by decide, by decide, by decide⟩

end TypeGraph
