import TypeGraph.Proofs.Declaration.Segment
import TypeGraph.Proofs.Project.Uses

/-! The graph of extracted types depends neither on their order nor on the order of their
dependencies. -/

namespace TypeGraph

/-- By whatever name a type goes, it ends in the simple name. -/
theorem Settings.lastSegment_className (s : Settings) {v : Visit}
    (plain : '.' ∉ v.decl.name.toList) : lastSegment (s.className v) = v.decl.name := by
  unfold className
  cases qualified : s.className? v with
  | none => exact lastSegment_of_plain plain
  | some q =>
    -- Only a qualified name can stand in its place.
    rw [className?, typeName?_resolver] at qualified
    split at qualified
    · exact Enclosing.lastSegment_qualify plain qualified
    · cases qualified

/-- A record is another but for the order of its dependencies. -/
def TypeRecord.Alike (r other : TypeRecord) : Prop :=
  ∃ dependencies, r.dependencies.Perm dependencies ∧ other = { r with dependencies := dependencies }

namespace Document

/-- A document holds the records of source files whose types have names without dots. -/
def Extracted (d : Document) : Prop :=
  ∃ s units, (∀ u ∈ units, CompilationUnit.Plain u) ∧ d = ofUnits d.project s units

/-- A document has the records of another in some order, each but for the order of its
dependencies. -/
def Rearranged (d other : Document) : Prop :=
  ∃ records, d.classes.Perm records ∧ List.Forall₂ TypeRecord.Alike records other.classes

/-- In an extracted document the simple name of a class is the last segment of its name. -/
theorem Extracted.lastSegment_eq {d : Document} (extracted : d.Extracted) :
    ∀ r ∈ d.classes, lastSegment r.className = r.simpleName := by
  intro r record
  obtain ⟨s, units, plain, same⟩ := extracted
  rw [same] at record
  obtain ⟨u, unit, v, visited, made⟩ := exists_visit record
  obtain ⟨simple, named, -⟩ := Visit.record?_eq_some made
  rw [simple, named, s.lastSegment_className (plain u unit v visited)]

/-- So it is in the list of its classes with their simple names. -/
theorem Extracted.lastSegment_naming {d : Document} (extracted : d.Extracted) :
    ∀ entry ∈ d.naming, lastSegment entry.1 = entry.2 := by
  intro entry member
  obtain ⟨r, record, rfl⟩ := List.mem_map.mp member
  exact extracted.lastSegment_eq r record

end Document

namespace Naming

variable {n other : Naming}

/-- A class is known if and only if it has a simple name. -/
theorem isSome_simpleName? (n : Naming) (name : String) :
    (n.simpleName? name).isSome ↔ name ∈ n.names := by
  rw [mem_names, simpleName?, Option.isSome_map, List.find?_isSome]
  simp

/-- Where all simple names are last segments, classes have the last segments of their names. -/
theorem simpleName?_eq (segments : ∀ entry ∈ n, lastSegment entry.1 = entry.2) (name : String) :
    n.simpleName? name = if name ∈ n.names then some (lastSegment name) else none := by
  cases registered : n.simpleName? name with
  | none =>
    have unknown : name ∉ n.names := by simp [← isSome_simpleName?, registered]
    simp [unknown]
  | some simple =>
    have known : name ∈ n.names := by simp [← isSome_simpleName?, registered]
    -- The simple name is taken from an entry for the class.
    obtain ⟨entry, found, rfl⟩ := Option.map_eq_some_iff.mp registered
    have named : entry.1 = name := by simpa using List.find?_some found
    rw [if_pos known, ← segments entry (List.mem_of_find?_eq_some found), named]

/-- Where classes have the same simple names, targets mean the same classes. -/
theorem meaning?_congr (same : ∀ name, n.simpleName? name = other.simpleName? name)
    (target : String) : n.meaning? target = other.meaning? target := by
  -- What a target means is told by the simple names alone, which tell the class names, too.
  apply Option.ext
  intro name
  simp only [meaning?_eq_some_iff, ← isSome_simpleName?, same]

/-- Where classes have the same simple names, targets lead to the same nodes. -/
theorem node_congr (same : ∀ name, n.simpleName? name = other.simpleName? name)
    (target : String) : n.node target = other.node target := by
  rw [node, node, meaning?_congr same]

/-- Where classes have the same simple names, the same targets mean no class. -/
theorem outside_perm (same : ∀ name, n.simpleName? name = other.simpleName? name)
    {targets others : List String} (asked : targets.Perm others) :
    (n.outside targets).Perm (other.outside others) := by
  -- Neither list has repetitions, so it is enough that they have the same members.
  apply (List.perm_ext_iff_of_nodup (n.nodup_outside _) (other.nodup_outside _)).mpr
  intro target
  simp only [mem_outside, meaning?_congr same, asked.mem_iff]

end Naming

namespace Document

variable {d other : Document}

/-- Rearranging keeps the names and simple names of classes. -/
theorem Rearranged.perm_naming (rearranged : d.Rearranged other) :
    d.naming.Perm other.naming := by
  obtain ⟨records, order, alike⟩ := rearranged
  have kept : (records.map fun r => (r.className, r.simpleName)) = other.naming := by
    rw [← List.forall₂_eq_eq_eq, naming, List.forall₂_map_left_iff, List.forall₂_map_right_iff]
    refine alike.imp ?_
    -- Other dependencies do not change a name.
    intro r o same
    obtain ⟨_, -, rfl⟩ := same
    rfl
  rw [← kept]
  exact order.map _

/-- Rearranging keeps the dependencies that classes have, but for their order. -/
theorem Rearranged.perm_written (rearranged : d.Rearranged other) :
    (d.written.map fun w => (w.1.className, w.2)).Perm
      (other.written.map fun w => (w.1.className, w.2)) := by
  obtain ⟨records, order, alike⟩ := rearranged
  have pairs : ∀ e : Document, (e.written.map fun w => (w.1.className, w.2)) =
      e.classes.flatMap fun r => r.dependencies.map (r.className, ·) := by
    intro e
    simp only [written, List.map_flatMap, List.map_map, Function.comp_def]
  rw [pairs, pairs]
  refine (order.flatMap_right _).trans ?_
  generalize other.classes = classes at alike
  clear order
  -- Record by record, the dependencies of one class change places among themselves.
  induction alike with
  | nil => exact .nil
  | cons same _ ih =>
    obtain ⟨_, inner, rfl⟩ := same
    rw [List.flatMap_cons, List.flatMap_cons]
    exact (inner.map _).append ih

/-- In rearranged extracted documents classes have the same simple names. -/
theorem Rearranged.simpleName?_eq (rearranged : d.Rearranged other) (extracted : d.Extracted)
    (name : String) : d.naming.simpleName? name = other.naming.simpleName? name := by
  have order := rearranged.perm_naming
  have segments : ∀ entry ∈ other.naming, lastSegment entry.1 = entry.2 := by
    intro entry member
    exact extracted.lastSegment_naming entry (order.mem_iff.mpr member)
  -- A simple name can be read off the name, so it does not matter which record comes first.
  rw [Naming.simpleName?_eq extracted.lastSegment_naming, Naming.simpleName?_eq segments]
  simp only [Naming.mem_names, order.mem_iff]

end Document

namespace ClassGraph

/-- The edges of a graph, each as the nodes that it joins and its kind. -/
def links (g : ClassGraph) : List (Option Node × Option Node × EdgeKind) :=
  g.edges.map fun e => (g.nodes[e.source]?, g.nodes[e.target]?, e.kind)

/-- The nodes of a document's graph are its classes and the targets that mean none of them. -/
theorem nodes_ofDocument (d : Document) :
    (ofDocument d).nodes = (d.naming.names.map fun name => ⟨name, false⟩) ++
      (d.naming.outside (d.written.map (·.2.target))).map fun name => ⟨name, true⟩ := by
  rw [ofDocument_eq]
  exact (GraphBuilder.holds_built d).1.nodes

/-- The links of a document's graph go from the classes of its records to what their targets
mean. -/
theorem links_ofDocument (d : Document) :
    (ofDocument d).links = (d.written.map fun w => (w.1.className, w.2)).map fun w =>
      (some ⟨w.1, false⟩, some (d.naming.node w.2.target), w.2.kind) := by
  rw [← List.forall₂_eq_eq_eq, links, List.map_map, List.forall₂_map_left_iff,
    List.forall₂_map_right_iff]
  refine (leads_written d).imp ?_
  intro e w leads
  obtain ⟨start, stop, kind⟩ := leads
  simp only [Function.comp_apply, start, stop, kind]

/-- An edge leads outside if its link does. -/
theorem countP_leadsOutside (g : ClassGraph) :
    g.edges.countP g.leadsOutside = g.links.countP fun link => link.2.1.any (·.external) := by
  rw [links, List.countP_map]
  refine List.countP_congr ?_
  intro e _
  simp only [leadsOutside, Function.comp_apply]
  cases g.nodes[e.target]? <;> simp

/-- The counts of a graph are told by its nodes and links in any order. -/
theorem summary_congr {g other : ClassGraph} (nodes : g.nodes.Perm other.nodes)
    (links : g.links.Perm other.links) : g.summary = other.summary := by
  -- Links are counted in any order.
  have edges : g.edges.length = other.edges.length := by
    simpa [ClassGraph.links] using links.length_eq
  simp only [summary, countP_leadsOutside, nodes.length_eq, nodes.countP_eq, links.countP_eq,
    edges]

/-- What is extracted from a project is an extracted document. The graph of such a document depends
neither on the order of its records nor on that of the dependencies of a record: when these are
rearranged, the graph has the same nodes and links in some order, and the same counts. -/
theorem ofDocument_rearranged :
    (∀ (s : Settings) files root schedule e, s.extract files root schedule = .ok e →
      e.document.Extracted) ∧
    ∀ d other : Document, d.Extracted → d.Rearranged other →
      let g := ofDocument d
      let g' := ofDocument other
      g.nodes.Perm g'.nodes ∧ g.links.Perm g'.links ∧ g.summary = g'.summary := by
  constructor
  · intro s files root schedule e made
    obtain ⟨units, plain, document⟩ := Settings.document_of_extract made
    have project : e.document.project = root := by rw [document, Document.ofUnits]
    exact ⟨s, units, plain, by rw [project]; exact document⟩
  intro d other extracted rearranged g g'
  have simple := rearranged.simpleName?_eq extracted
  have written := rearranged.perm_written
  have nodes : g.nodes.Perm g'.nodes := by
    have targets : (d.written.map (·.2.target)).Perm (other.written.map (·.2.target)) := by
      simpa only [List.map_map, Function.comp_def] using written.map (·.2.target)
    have names : d.naming.names.Perm other.naming.names := by
      apply (List.perm_ext_iff_of_nodup (Naming.nodup_names _) (Naming.nodup_names _)).mpr
      intro name
      rw [← Naming.isSome_simpleName?, ← Naming.isSome_simpleName?, simple]
    rw [nodes_ofDocument, nodes_ofDocument]
    exact (names.map _).append ((Naming.outside_perm simple targets).map _)
  have links : g.links.Perm g'.links := by
    -- A target leads to the same node in both, so links are told by the dependencies alone.
    rw [links_ofDocument, links_ofDocument]
    simp only [Naming.node_congr simple]
    exact written.map _
  exact ⟨nodes, links, summary_congr nodes links⟩

/-- Without the relation between names and simple names, the order of records would count: the first
record of a class decides under which simple name it is found. -/
example :
    let first : TypeRecord := ⟨"X", some "p.A", false, [], ⟨0, 0⟩, [⟨.inherit, "X"⟩]⟩
    let second : TypeRecord := ⟨"Y", some "p.A", false, [], ⟨0, 0⟩, []⟩
    (ofDocument ⟨"p", [first, second]⟩).summary ≠ (ofDocument ⟨"p", [second, first]⟩).summary := by
  decide

end ClassGraph

/-- A file with a class, and one with a class that has a superclass and an interface. -/
def twoFiles : List CompilationUnit :=
  [⟨"A.java", some "p", [], [.mk .classType "A" [] [] []]⟩,
   ⟨"B.java", some "q", [], [.mk .classType "B" ["A"] ["I"] []]⟩]

/-- The two records may change places, and so may the dependencies of the second. -/
theorem ofDocument_rearranged_twoFiles :
    let d := Document.ofUnits "p" { supertypes := .all } twoFiles
    let other : Document := ⟨"p",
      [⟨"B", some "q.B", false, [], ⟨0, 0⟩, [⟨.inherit, "I"⟩, ⟨.inherit, "A"⟩]⟩,
        ⟨"A", some "p.A", false, [], ⟨0, 0⟩, []⟩]⟩
    let g := ClassGraph.ofDocument d
    let g' := ClassGraph.ofDocument other
    d.Extracted ∧ d.Rearranged other ∧
      g.nodes = [⟨"p.A", false⟩, ⟨"q.B", false⟩, ⟨"I", true⟩] ∧
      g'.nodes = [⟨"q.B", false⟩, ⟨"p.A", false⟩, ⟨"I", true⟩] ∧
      g.nodes.Perm g'.nodes ∧ g.links.Perm g'.links ∧ g.summary = g'.summary := by
  intro d other g g'
  have extracted : d.Extracted := ⟨_, twoFiles, by decide, rfl⟩
  have rearranged : d.Rearranged other := by
    refine ⟨d.classes.reverse, (List.reverse_perm _).symm, ?_⟩
    refine .cons ⟨_, ?_, rfl⟩ (.cons ⟨_, .refl _, rfl⟩ .nil)
    decide
  exact ⟨extracted, rearranged, by decide, by decide,
    ClassGraph.ofDocument_rearranged.2 d other extracted rearranged⟩

end TypeGraph
