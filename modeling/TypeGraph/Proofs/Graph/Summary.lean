import Mathlib.Data.Set.Card
import TypeGraph.Proofs.Graph.States

/-! What the counts of a graph tell about the document that the graph is made from. -/

namespace TypeGraph

/-- As many values have a property as there are in a list of all of them without repetition. -/
theorem ncard_eq_length {α : Type} {values : List α} {p : α → Prop} (distinct : values.Nodup)
    (all : ∀ a, a ∈ values ↔ p a) : {a | p a}.ncard = values.length := by
  classical
  -- Without repetition a list is as long as the set of its members is large.
  have same : {a | p a} = (values.toFinset : Set α) := by
    ext a
    simp [all]
  rw [same, Set.ncard_coe_finset, List.toFinset_card_of_nodup distinct]

namespace Naming

/-- No class name is listed twice. -/
theorem nodup_names (n : Naming) : n.names.Nodup :=
  (List.nodup_append.mp (n.nodup_names_outside [])).1

/-- No external type is listed twice. -/
theorem nodup_outside (n : Naming) (targets : List String) : (n.outside targets).Nodup :=
  (List.nodup_append.mp (n.nodup_names_outside targets)).2.1

/-- The namesakes of a simple name are the classes whose first records have it. -/
theorem mem_namesakes {n : Naming} {simple name : String} :
    name ∈ n.namesakes simple ↔ n.simpleName? name = some simple := by
  constructor
  · intro member
    simpa using (List.mem_filter.mp member).2
  · intro registered
    -- What has a simple name is the name of a class.
    obtain ⟨entry, found, -⟩ := Option.map_eq_some_iff.mp registered
    have named : entry.1 = name := by simpa using List.find?_some found
    have known : name ∈ n.names := mem_names.mpr ⟨entry, List.mem_of_find?_eq_some found, named⟩
    exact List.mem_filter.mpr ⟨known, by simpa using registered⟩

/-- A simple name has a single namesake if it is that of one class only. -/
theorem namesakes_eq_singleton_iff {n : Naming} {simple only : String} :
    n.namesakes simple = [only] ↔ ∀ name, n.simpleName? name = some simple ↔ name = only := by
  constructor
  · intro single name
    rw [← mem_namesakes, single, List.mem_singleton]
  · intro alone
    -- Namesakes are listed without repetition, so a single one is all of the list.
    have distinct : (n.namesakes simple).Nodup := n.nodup_names.filter _
    apply List.perm_singleton.mp
    apply (List.perm_ext_iff_of_nodup distinct (List.nodup_singleton only)).mpr
    intro name
    rw [mem_namesakes, alone name, List.mem_singleton]

/-- A target means the class so named, and only if there is none, the one with that simple name. -/
theorem meaning?_eq_some_iff {n : Naming} {target name : String} :
    n.meaning? target = some name ↔
      if target ∈ n.names then target = name
      else ∀ other, n.simpleName? other = some target ↔ other = name := by
  unfold meaning?
  split
  · rw [Option.some.injEq]
  · -- The list of namesakes counts only if it has a single member.
    rw [← namesakes_eq_singleton_iff]
    split
    · rename_i only single
      simp [single]
    · rename_i several
      simpa using several name

/-- A target means no class if and only if it is neither the name of a class nor the simple name
of exactly one. -/
theorem meaning?_eq_none_iff {n : Naming} {target : String} :
    n.meaning? target = none ↔
      target ∉ n.names ∧ ¬∃! name, n.simpleName? name = some target := by
  rw [Option.eq_none_iff_forall_ne_some]
  simp only [ne_eq, meaning?_eq_some_iff]
  by_cases known : target ∈ n.names
  · -- The name of a class means that class.
    simp [known]
  · simp only [known, if_false, not_false_eq_true, true_and]
    -- A target that is unique as a simple name would mean the class of that name.
    constructor
    · intro none unique
      obtain ⟨only, registered, alone⟩ := unique
      refine none only ?_
      intro name
      constructor
      · exact alone name
      · intro same
        rw [same]
        exact registered
    · intro several name single
      exact several ⟨name, (single name).mpr rfl, fun other => (single other).mp⟩

end Naming

namespace GraphBuilder

section Laws

variable {b : GraphBuilder} {added : Naming} {asked : List String}

/-- The external nodes are the targets that mean no class. -/
theorem Holds.countP_external (holds : b.Holds added asked) :
    b.nodes.countP (·.external) = (added.outside asked).length := by
  rw [holds.nodes]
  simp [List.countP_append, List.countP_map, Function.comp_def]

/-- Besides the external nodes there is one node for each class name. -/
theorem Holds.length_nodes (holds : b.Holds added asked) :
    b.nodes.length = added.names.length + (added.outside asked).length := by
  rw [holds.nodes]
  simp

end Laws

end GraphBuilder

namespace Document

/-- The dependencies of a document are those of its records in turn. -/
theorem written_dependencies (d : Document) :
    d.written.map (·.2) = d.classes.flatMap (·.dependencies) := by
  simp [written, List.map_flatMap, Function.comp_def]

/-- A document has as many dependencies as its records have in all. -/
theorem length_written (d : Document) : d.written.length = d.edgeCount := by
  rw [edgeCount, ← d.written_dependencies, List.length_map]

/-- The class names of a document are those of its records. -/
theorem mem_names {d : Document} {name : String} :
    name ∈ d.naming.names ↔ ∃ r ∈ d.classes, r.className = name := by
  simp [Naming.names, naming]

/-- The targets of a document are those of the dependencies of its records. -/
theorem mem_targets {d : Document} {target : String} :
    target ∈ d.written.map (·.2.target) ↔
      ∃ r ∈ d.classes, ∃ e ∈ r.dependencies, e.target = target := by
  constructor
  · intro member
    obtain ⟨w, written, same⟩ := List.mem_map.mp member
    obtain ⟨r, record, among⟩ := List.mem_flatMap.mp written
    obtain ⟨e, dependency, pair⟩ := List.mem_map.mp among
    subst pair
    exact ⟨r, record, e, dependency, same⟩
  · intro written
    obtain ⟨r, record, e, dependency, same⟩ := written
    have among : (r, e) ∈ d.written :=
      List.mem_flatMap.mpr ⟨r, record, List.mem_map_of_mem dependency⟩
    exact List.mem_map.mpr ⟨(r, e), among, same⟩

end Document

namespace GraphBuilder

variable {b : GraphBuilder} {d : Document}

/-- There is a class node for every class name. -/
theorem Holds.ncard_classes (holds : b.Holds d.naming (d.written.map (·.2.target))) :
    {name | ∃ r ∈ d.classes, r.className = name}.ncard =
      b.nodes.length - b.nodes.countP (·.external) := by
  -- Without the external nodes, one node for each class name is left.
  rw [holds.countP_external, holds.length_nodes, Nat.add_sub_cancel]
  refine ncard_eq_length d.naming.nodup_names ?_
  intro name
  exact Document.mem_names

end GraphBuilder

open GraphBuilder

end TypeGraph
