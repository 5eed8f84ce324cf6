import TypeGraph.Proofs.Graph.OfDocument

/-! The states of a builder at work: a name leads to a single node, and every class is registered
under a single simple name. -/

namespace TypeGraph

/-- The dependencies of a document in order, each with its record and the position of its class. -/
def Document.steps (d : Document) : List GraphBuilder.Placed :=
  -- Classes are placed before any dependency is looked at.
  (GraphBuilder.empty.addClasses d.classes).2.flatMap fun p => p.2.dependencies.map (p, ·)

namespace GraphBuilder

/-- The builder after all classes of a document and some of its dependencies. -/
def afterSteps (d : Document) (done : List Placed) : GraphBuilder :=
  done.foldl (fun b p => b.addDependency p.1.1 p.2) (empty.addClasses d.classes).1

/-- The states that a builder passes through while it makes the graph of a document. -/
inductive Passes (d : Document) : GraphBuilder → Prop where
  /-- Some of the classes have been added. -/
  | classes {records rest : List TypeRecord} : d.classes = records ++ rest →
      Passes d (empty.addClasses records).1
  /-- All classes and some of the dependencies have been added. -/
  | dependencies {done rest : List Placed} : d.steps = done ++ rest → Passes d (afterSteps d done)
  /-- The target of the next dependency has been looked up, but no edge leads to it yet. -/
  | target {done rest : List Placed} {p : Placed} : d.steps = done ++ p :: rest →
      Passes d ((afterSteps d done).resolveOrAdd p.2.target).1

section Laws

variable {b : GraphBuilder} {added : Naming} {asked : List String}

end Laws

/-- After some of the first records their classes are held. -/
theorem holds_classes (records : List TypeRecord) :
    (empty.addClasses records).1.Holds (records.map fun r => (r.className, r.simpleName)) [] := by
  have classes := (holds_addClasses holds_empty records).1
  simpa using classes

/-- After all classes and some of the dependencies, the classes and the targets of these
dependencies are held, and there is an edge for each of the dependencies. -/
theorem holds_afterSteps {d : Document} {done rest : List Placed}
    (split : d.steps = done ++ rest) :
    (afterSteps d done).Holds d.naming (done.map (·.2.target)) ∧
      List.Forall₂ (Leads (afterSteps d done).nodes d.naming) (afterSteps d done).edges
        (done.map fun p => (p.1.2, p.2)) := by
  obtain ⟨classes, -, -, sources⟩ := holds_addClasses holds_empty d.classes
  have none : (empty.addClasses d.classes).1.edges = [] := edges_addClasses empty d.classes
  have stands : ∀ p ∈ done,
      (empty.addClasses d.classes).1.nodes[p.1.1]? = some ⟨p.1.2.className, false⟩ := by
    -- Every step is a dependency of a record that has been placed.
    intro p member
    have inside : p ∈ d.steps := by
      rw [split]
      exact List.mem_append_left _ member
    obtain ⟨q, placed, dependency⟩ := List.mem_flatMap.mp inside
    obtain ⟨e, -, same⟩ := List.mem_map.mp dependency
    subst p
    exact sources q placed
  have edges : List.Forall₂ (Leads (empty.addClasses d.classes).1.nodes d.naming)
      (empty.addClasses d.classes).1.edges [] := by
    rw [none]
    exact .nil
  exact holds_addDependencies [] classes edges done stands

/-- In every state that is passed through, the builder holds what it must. -/
theorem Passes.holds {d : Document} {b : GraphBuilder} (passes : Passes d b) :
    ∃ added asked, b.Holds added asked := by
  -- What holds of the classes is kept by every step, and by a lookup on its own.
  cases passes with
  | classes => exact ⟨_, _, holds_classes _⟩
  | dependencies split => exact ⟨_, _, (holds_afterSteps split).1⟩
  | target split => exact ⟨_, _, ((holds_afterSteps split).1.resolveOrAdd _).1⟩

end GraphBuilder

open GraphBuilder

/-- The steps through a document go through its dependencies. -/
theorem Document.steps_written (d : Document) :
    d.steps.map (fun p => (p.1.2, p.2)) = d.written := by
  -- The records that are placed are those of the document, in order.
  have records := (holds_addClasses holds_empty d.classes).2.2.1
  simp only [steps, written, List.map_flatMap, List.map_map, Function.comp_def]
  conv_rhs => rw [← records, List.flatMap_map]

/-- The graph of a document is that of the last state. -/
theorem ClassGraph.ofDocument_eq (d : Document) :
    ClassGraph.ofDocument d = (afterSteps d d.steps).graph := by
  -- The dependencies of all records are gone through in one row.
  simp only [ofDocument, afterSteps, Document.steps, List.foldl_flatMap, List.foldl_map]

/-- The last state holds all classes and targets, and its edges are the dependencies in order. -/
theorem GraphBuilder.holds_built (d : Document) :
    (afterSteps d d.steps).Holds d.naming (d.written.map (·.2.target)) ∧
      List.Forall₂ (Leads (afterSteps d d.steps).nodes d.naming) (afterSteps d d.steps).edges
        d.written := by
  -- With all steps taken, the targets asked for are all targets of the document.
  have last := holds_afterSteps (d := d) (List.append_nil d.steps).symm
  have targets : d.steps.map (·.2.target) = d.written.map (·.2.target) := by
    simp [← d.steps_written]
  rw [targets, d.steps_written] at last
  exact last

/-- The edges of a document's graph are its dependencies in order, each leading from the class of its
record to what its target means. -/
theorem ClassGraph.leads_written (d : Document) :
    List.Forall₂ (Leads (ofDocument d).nodes d.naming) (ofDocument d).edges d.written := by
  -- No step comes after the last state.
  rw [ofDocument_eq]
  exact (holds_built d).2

end TypeGraph
