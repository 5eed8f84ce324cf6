import TypeGraph.Proofs.Graph.Builder

/-! The graph of a document: which nodes it has, and where the edge of every dependency leads. -/

namespace TypeGraph

namespace Document

/-- The classes of a document, each as its name and its simple name. -/
def naming (d : Document) : Naming := d.classes.map fun r => (r.className, r.simpleName)

/-- The dependencies of a document in order, each with the record that has it. -/
def written (d : Document) : List (TypeRecord × Dependency) :=
  d.classes.flatMap fun r => r.dependencies.map (r, ·)

end Document

namespace GraphBuilder

/-- Adding records holds their names, and tells for each record where the node of its class is. -/
theorem holds_addClasses {b : GraphBuilder} {added : Naming} (holds : b.Holds added [])
    (records : List TypeRecord) :
    let after := b.addClasses records
    after.1.Holds (added ++ records.map fun r => (r.className, r.simpleName)) [] ∧
      b.nodes <+: after.1.nodes ∧ after.2.map (·.2) = records ∧
      ∀ placed ∈ after.2, after.1.nodes[placed.1]? = some ⟨placed.2.className, false⟩ := by
  -- The nodes of earlier records stay where they are while later ones are added.
  induction records generalizing b added with
  | nil => simpa [addClasses] using holds
  | cons r rest ih =>
    obtain ⟨holds, before, stands⟩ := holds.addClass r.className r.simpleName
    obtain ⟨all, after, same, sources⟩ := ih holds
    simp only [addClasses]
    refine ⟨by simpa using all, before.trans after, by simp [same], ?_⟩
    rw [List.forall_mem_cons]
    exact ⟨getElem?_of_start after stands, sources⟩

/-- Adding classes makes no edges. -/
theorem edges_addClasses (b : GraphBuilder) (records : List TypeRecord) :
    (b.addClasses records).1.edges = b.edges := by
  -- Only nodes and registered names change, class by class.
  induction records generalizing b with
  | nil => rfl
  | cons r rest ih =>
    have same : (b.addClass r.className r.simpleName).1.edges = b.edges := by
      unfold addClass; split <;> rfl
    simp [addClasses, ih, same]

/-- An edge leads from the class of a record to what the target of its dependency means. -/
def Leads (nodes : List Node) (named : Naming) (e : Edge)
    (written : TypeRecord × Dependency) : Prop :=
  nodes[e.source]? = some ⟨written.1.className, false⟩ ∧
    nodes[e.target]? = some (named.node written.2.target) ∧ e.kind = written.2.kind

/-- An edge leads to the same places when more nodes follow. -/
theorem Leads.mono {nodes more : List Node} {named : Naming} {e : Edge}
    {written : TypeRecord × Dependency} (longer : nodes <+: more)
    (leads : Leads nodes named e written) : Leads more named e written :=
  ⟨getElem?_of_start longer leads.1, getElem?_of_start longer leads.2.1, leads.2.2⟩

/-- A dependency of a record whose class stands at a known position. -/
abbrev Placed := (Nat × TypeRecord) × Dependency

/-- Adding dependencies makes one edge for each, which leads to what its target means. -/
theorem holds_addDependencies {b : GraphBuilder} {added : Naming} {asked : List String}
    (before : List (TypeRecord × Dependency)) (holds : b.Holds added asked)
    (edges : List.Forall₂ (Leads b.nodes added) b.edges before) (placed : List Placed)
    (sources : ∀ p ∈ placed, b.nodes[p.1.1]? = some ⟨p.1.2.className, false⟩) :
    let after := placed.foldl (fun b p => b.addDependency p.1.1 p.2) b
    after.Holds added (asked ++ placed.map (·.2.target)) ∧
      List.Forall₂ (Leads after.nodes added) after.edges
        (before ++ placed.map fun p => (p.1.2, p.2)) := by
  -- No later external type moves a node, so edges made earlier still lead to the same places.
  induction placed generalizing b asked before with
  | nil => simpa using ⟨holds, edges⟩
  | cons p rest ih =>
    obtain ⟨⟨source, r⟩, dependency⟩ := p
    obtain ⟨grown, longer, stands⟩ := holds.resolveOrAdd dependency.target
    have now : (b.addDependency source dependency).Holds added (asked ++ [dependency.target]) :=
      ⟨grown.nodes, grown.registered⟩
    have same : (b.resolveOrAdd dependency.target).1.edges = b.edges := by
      unfold resolveOrAdd; split <;> rfl
    have here : b.nodes[source]? = some ⟨r.className, false⟩ :=
      sources ⟨⟨source, r⟩, dependency⟩ List.mem_cons_self
    have kept : List.Forall₂ (Leads (b.addDependency source dependency).nodes added)
        (b.addDependency source dependency).edges (before ++ [(r, dependency)]) := by
      simp only [addDependency, same]
      refine List.rel_append (edges.imp fun e w => Leads.mono longer) (.cons ?_ .nil)
      exact ⟨getElem?_of_start longer here, stands, rfl⟩
    have later : ∀ p ∈ rest, (b.addDependency source dependency).nodes[p.1.1]? =
        some ⟨p.1.2.className, false⟩ := fun p member =>
      getElem?_of_start longer (sources p (List.mem_cons_of_mem _ member))
    -- The rest of the dependencies go on from a builder that still holds what it must.
    obtain ⟨all, done⟩ := ih _ now kept later
    exact ⟨by simpa using all, by simpa using done⟩

end GraphBuilder

open GraphBuilder

/-- The graph of a document has its distinct class names in order of first appearance, then one
external type for every target that means no class. The edges are the dependencies in order: each
leads from the class of its record to what its target means by the names of the classes alone. -/
theorem ClassGraph.ofDocument_resolves (d : Document) :
    let g := ClassGraph.ofDocument d
    g.nodes = ((d.classes.map (·.className)).eraseDups.map fun name => ⟨name, false⟩) ++
        (d.naming.outside (d.written.map (·.2.target))).map (fun name => ⟨name, true⟩) ∧
      (g.nodes.map (·.name)).Nodup ∧
      List.Forall₂ (fun (e : Edge) (written : TypeRecord × Dependency) =>
        g.nodes[e.source]? = some ⟨written.1.className, false⟩ ∧
        g.nodes[e.target]? = some (d.naming.node written.2.target) ∧
        e.kind = written.2.kind) g.edges d.written := by
  -- First all classes are added, so that what a target means is settled before any edge is made.
  obtain ⟨b, placed, added⟩ : ∃ b placed, empty.addClasses d.classes = (b, placed) := ⟨_, _, rfl⟩
  obtain ⟨classes, -, records, sources⟩ := holds_addClasses holds_empty d.classes
  have noEdges := edges_addClasses empty d.classes
  simp only [added, List.nil_append] at classes records sources noEdges
  -- Then the dependencies of all records are gone through in one row.
  let steps : List Placed := placed.flatMap fun p => p.2.dependencies.map (p, ·)
  have graph : ClassGraph.ofDocument d =
      (steps.foldl (fun b p => b.addDependency p.1.1 p.2) b).graph := by
    simp [ClassGraph.ofDocument, added, steps, List.foldl_flatMap, List.foldl_map]
  have written : steps.map (fun p => (p.1.2, p.2)) = d.written := by
    simp [steps, Document.written, ← records, List.map_flatMap, List.flatMap_map,
      Function.comp_def]
  have stands : ∀ p ∈ steps, b.nodes[p.1.1]? = some ⟨p.1.2.className, false⟩ := by
    intro p member
    obtain ⟨source, known, -, -, rfl⟩ : ∃ q ∈ placed, ∃ e ∈ q.2.dependencies, (q, e) = p := by
      simpa [steps] using member
    exact sources source known
  obtain ⟨all, edges⟩ := holds_addDependencies [] classes
    (by rw [noEdges]; exact .nil) steps stands
  have targets : steps.map (·.2.target) = d.written.map (·.2.target) := by simp [← written]
  rw [targets] at all
  rw [List.nil_append, written] at edges
  have names : d.naming.names = (d.classes.map (·.className)).eraseDups := by
    simp [Naming.names, Document.naming, Function.comp_def]
  rw [graph]
  exact ⟨names ▸ all.nodes, all.distinct, edges⟩

end TypeGraph
