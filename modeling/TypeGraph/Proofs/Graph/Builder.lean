import Mathlib.Data.List.Forall2
import Mathlib.Data.List.Induction
import Mathlib.Data.List.Nodup
import TypeGraph.Graph.Basic

/-! What a builder knows of the classes added to it and of the targets it has been asked for. -/

namespace TypeGraph

/-- Classes in the order in which they are added, each as its name and its simple name. -/
abbrev Naming := List (String × String)

namespace Naming

/-- The distinct class names in the order of their first appearance. -/
def names (n : Naming) : List String := (n.map (·.1)).eraseDups

/-- The simple name of the first class with a name. -/
def simpleName? (n : Naming) (name : String) : Option String :=
  (n.find? fun entry => entry.1 == name).map (·.2)

/-- The class names that are registered under a simple name. -/
def namesakes (n : Naming) (simple : String) : List String :=
  n.names.filter fun name => n.simpleName? name == some simple

/-- The class that a target means: the one so named, else the only one with that simple name. -/
def meaning? (n : Naming) (target : String) : Option String :=
  if target ∈ n.names then some target
  else match n.namesakes target with
    | [only] => some only
    | _ => none

/-- The node that a target leads to: the class that it means, else an external type. -/
def node (n : Naming) (target : String) : Node :=
  match n.meaning? target with
  | some name => ⟨name, false⟩
  | none => ⟨target, true⟩

/-- The distinct targets that mean no class, in the order of their first appearance. -/
def outside (n : Naming) (targets : List String) : List String :=
  (targets.filter fun target => (n.meaning? target).isNone).eraseDups

/-- Keeping first appearances leaves no value twice. -/
private theorem nodup_eraseDups (names : List String) : names.eraseDups.Nodup := by
  -- A name is put at the end only if it has not been met.
  induction names using List.reverseRecOn with
  | nil => exact List.nodup_nil
  | append_singleton names name ih =>
    by_cases met : name ∈ names
    · simpa [List.eraseDups_append, List.removeAll, met] using ih
    · simpa [List.eraseDups_append, List.eraseDups_cons, List.removeAll, met,
        List.nodup_append] using ⟨ih, fun other member same => met (same ▸ member)⟩

theorem mem_names {n : Naming} {name : String} : name ∈ n.names ↔ ∃ entry ∈ n, entry.1 = name := by
  simp [names]

theorem mem_outside {n : Naming} {targets : List String} {target : String} :
    target ∈ n.outside targets ↔ target ∈ targets ∧ n.meaning? target = none := by
  simp [outside]

/-- A target that means no class is not the name of one. -/
theorem not_mem_names_of_meaning {n : Naming} {target : String} (none : n.meaning? target = none) :
    target ∉ n.names := by
  -- The name of a class means that class.
  intro known
  simp [meaning?, known] at none

/-- Adding a class with a known name brings no new name. -/
theorem names_append_of_mem {n : Naming} {name : String} (simple : String)
    (known : name ∈ n.names) : names (n ++ [(name, simple)]) = n.names := by
  -- The name is among those kept already, so it is left out at the end.
  obtain ⟨entry, member, same⟩ := mem_names.mp known
  have kept : name ∈ n.map (·.1) := List.mem_map.mpr ⟨entry, member, same⟩
  simp [names, List.eraseDups_append, List.removeAll, kept]

/-- Adding a class with a new name puts that name at the end. -/
theorem names_append_of_not_mem {n : Naming} {name : String} (simple : String)
    (new : name ∉ n.names) : names (n ++ [(name, simple)]) = n.names ++ [name] := by
  -- The name has not been met, so it is kept where it stands.
  have absent : name ∉ n.map (·.1) := fun member => new (by simpa [names] using member)
  simp [names, List.eraseDups_append, List.eraseDups_cons, List.removeAll, absent]

/-- The simple name of a known class stays that of its first appearance. -/
theorem simpleName?_append {n : Naming} {name simple : String} (later : Naming)
    (known : n.simpleName? name = some simple) :
    simpleName? (n ++ later) name = some simple := by
  -- The search stops in the part where the name is known.
  obtain ⟨entry, found, rfl⟩ := Option.map_eq_some_iff.mp known
  simp [simpleName?, List.find?_append, found]

/-- The simple name of a new class is the one that it is added under. -/
theorem simpleName?_append_new {n : Naming} {name : String} (simple : String)
    (new : name ∉ n.names) : simpleName? (n ++ [(name, simple)]) name = some simple := by
  -- No earlier class has the name, so the search reaches the one at the end.
  have absent : (n.find? fun e => e.1 == name) = none := by
    rw [List.find?_eq_none]
    intro entry member same
    exact new (mem_names.mpr ⟨entry, member, by simpa using same⟩)
  simp [simpleName?, List.find?_append, absent]

/-- One more target brings a new external type only if it means no class and is met first. -/
theorem outside_append (n : Naming) (targets : List String) (target : String) :
    n.outside (targets ++ [target]) =
      if n.meaning? target = none ∧ target ∉ n.outside targets then
        n.outside targets ++ [target]
      else n.outside targets := by
  -- A target that means a class is left out, and any other counts when it is met first.
  cases means : n.meaning? target with
  | some name => simp [outside, means]
  | none =>
    by_cases met : target ∈ targets <;>
      simp [outside, List.eraseDups_append, List.eraseDups_cons, List.removeAll, means, met]

/-- Class names and external types are all different. -/
theorem nodup_names_outside (n : Naming) (targets : List String) :
    (n.names ++ n.outside targets).Nodup := by
  -- An external type means no class, so it has the name of none.
  refine List.nodup_append.mpr ⟨nodup_eraseDups _, nodup_eraseDups _, ?_⟩
  rintro name known _ outer rfl
  exact not_mem_names_of_meaning (mem_outside.mp outer).2 known

end Naming

namespace GraphBuilder

/-- What a builder holds after some classes were added and some targets were asked for. -/
structure Holds (b : GraphBuilder) (added : Naming) (asked : List String) : Prop where
  /-- Classes come first, each once, and then the targets that mean none of them. -/
  nodes : b.nodes = (added.names.map fun name => ⟨name, false⟩) ++
    (added.outside asked).map fun name => ⟨name, true⟩
  /-- Every class is registered once, under the simple name of its first appearance. -/
  registered : List.Forall₂ (fun (entry : String × Nat) name =>
    added.simpleName? name = some entry.1 ∧ b.nodes[entry.2]? = some ⟨name, false⟩)
    b.simpleNames added.names

/-- The empty builder holds nothing. -/
theorem holds_empty : empty.Holds [] [] where
  nodes := rfl
  registered := .nil

/-- What stands at a position still stands there in a longer list. -/
theorem getElem?_of_start {α : Type} {first all : List α} (longer : first <+: all) {i : Nat}
    {a : α} (stands : first[i]? = some a) : all[i]? = some a := by
  -- The position lies in the common start of both lists.
  obtain ⟨rest, rfl⟩ := longer
  obtain ⟨within, -⟩ := List.getElem?_eq_some_iff.mp stands
  rw [List.getElem?_append_left within, stands]

section Laws

variable {b : GraphBuilder} {added : Naming} {asked : List String}

/-- The names of the nodes are the class names and the external types. -/
theorem Holds.node_names (holds : b.Holds added asked) :
    b.nodes.map (·.name) = added.names ++ added.outside asked := by
  simp [holds.nodes, Function.comp_def]

/-- No two nodes share a name. -/
theorem Holds.distinct (holds : b.Holds added asked) : (b.nodes.map (·.name)).Nodup :=
  holds.node_names ▸ added.nodup_names_outside asked

/-- A node is found by its name. -/
theorem Holds.indexOf?_of_node (holds : b.Holds added asked) {i : Nat} {node : Node}
    (stands : b.nodes[i]? = some node) : b.indexOf? node.name = some i := by
  -- Names are distinct, so the first node with the name is the one at this position.
  obtain ⟨within, same⟩ := List.getElem?_eq_some_iff.mp stands
  unfold indexOf?
  rw [List.findIdx?_eq_some_iff_getElem]
  refine ⟨within, by simp [same], ?_⟩
  intro j before clash
  have within' : i < (b.nodes.map (·.name)).length := by simpa using within
  have earlier : j < (b.nodes.map (·.name)).length := Nat.lt_trans before within'
  have names : (b.nodes.map (·.name))[j] = (b.nodes.map (·.name))[i] := by
    simpa [same] using clash
  have positions := (List.Nodup.getElem_inj_iff holds.distinct).mp names
  omega

/-- A name has no node if it is neither that of a class nor an external type. -/
theorem Holds.indexOf?_eq_none (holds : b.Holds added asked) {name : String}
    (unknown : name ∉ added.names) (fresh : name ∉ added.outside asked) :
    b.indexOf? name = none := by
  -- The nodes have the names of classes and of external types, and no others.
  have absent : name ∉ b.nodes.map (·.name) := by simp [holds.node_names, unknown, fresh]
  simpa [indexOf?, List.findIdx?_eq_none_iff] using absent

/-- The classes registered under a simple name are the namesakes, at their positions. -/
theorem Holds.indicesOf (holds : b.Holds added asked) (simple : String) :
    List.Forall₂ (fun i name => b.nodes[i]? = some ⟨name, false⟩)
      (b.indicesOf simple) (added.namesakes simple) := by
  -- Both lists are kept by the same test, as entries and names correspond one for one.
  have registered := holds.registered
  unfold GraphBuilder.indicesOf Naming.namesakes
  rw [List.forall₂_map_left_iff]
  generalize b.simpleNames = entries at registered
  generalize added.names = names at registered
  induction registered with
  | nil => exact .nil
  | @cons entry name _ _ here _ ih =>
    by_cases same : entry.1 = simple
    · simpa [List.filter_cons, here.1, same] using ⟨here.2, ih⟩
    · simpa [List.filter_cons, here.1, same] using ih

/-- A class name resolves to the class. -/
theorem Holds.indexOf?_of_mem (holds : b.Holds added asked) {name : String}
    (known : name ∈ added.names) :
    ∃ i, b.indexOf? name = some i ∧ b.nodes[i]? = some ⟨name, false⟩ := by
  -- The class has a node, and the node is found by its name.
  have member : (⟨name, false⟩ : Node) ∈ b.nodes := by simp [holds.nodes, known]
  obtain ⟨i, stands⟩ := List.mem_iff_getElem?.mp member
  exact ⟨i, holds.indexOf?_of_node stands, stands⟩

/-- A target that means a class is resolved to it, whatever has been asked for before. -/
theorem Holds.resolve_of_meaning (holds : b.Holds added asked) {target name : String}
    (means : added.meaning? target = some name) :
    ∃ i, b.resolve target = some i ∧ b.nodes[i]? = some ⟨name, false⟩ := by
  -- A name of a class is looked up before any simple name.
  unfold Naming.meaning? at means
  split at means
  · rename_i known
    cases means
    obtain ⟨i, found, stands⟩ := holds.indexOf?_of_mem known
    exact ⟨i, by simp [resolve, found], stands⟩
  · rename_i unknown
    split at means
    · rename_i only alone
      cases means
      -- The target is no external type either, for those mean nothing.
      have fresh : target ∉ added.outside asked := by
        intro outer
        have nothing := (Naming.mem_outside.mp outer).2
        simp [Naming.meaning?, unknown, alone] at nothing
      have absent := holds.indexOf?_eq_none unknown fresh
      have single := holds.indicesOf target
      rw [alone] at single
      obtain ⟨i, rest, stands, empty, shape⟩ := List.forall₂_cons_right_iff.mp single
      rw [List.forall₂_nil_right_iff.mp empty] at shape
      exact ⟨i, by simp [resolve, absent, shape], stands⟩
    · cases means

/-- A target that means no class is resolved only to the external type made for it. -/
theorem Holds.resolve_of_no_meaning (holds : b.Holds added asked) {target : String}
    (nothing : added.meaning? target = none) :
    if target ∈ added.outside asked then
      ∃ i, b.resolve target = some i ∧ b.nodes[i]? = some ⟨target, true⟩
    else b.resolve target = none := by
  split
  · -- The external type has a node, which is found by its name.
    rename_i outer
    have member : (⟨target, true⟩ : Node) ∈ b.nodes := by simp [holds.nodes, outer]
    obtain ⟨i, stands⟩ := List.mem_iff_getElem?.mp member
    have found := holds.indexOf?_of_node stands
    exact ⟨i, by simp [resolve, found], stands⟩
  · -- Neither a node nor a single namesake is there, so nothing is found.
    rename_i fresh
    have unknown := Naming.not_mem_names_of_meaning nothing
    have absent := holds.indexOf?_eq_none unknown fresh
    have several : ∀ only, added.namesakes target ≠ [only] := by
      intro only alone
      simp [Naming.meaning?, unknown, alone] at nothing
    -- As many positions as namesakes: not exactly one.
    have alike := holds.indicesOf target
    unfold resolve
    rw [absent]
    generalize b.indicesOf target = indices at alike ⊢
    generalize added.namesakes target = names at alike several
    match alike with
    | .nil => rfl
    | .cons _ .nil => exact absurd rfl (several _)
    | .cons _ (.cons _ _) => rfl

/-- Adding a class keeps the earlier nodes where they are and tells the position of the class. -/
theorem Holds.addClass (holds : b.Holds added []) (name simple : String) :
    (b.addClass name simple).1.Holds (added ++ [(name, simple)]) [] ∧
      b.nodes <+: (b.addClass name simple).1.nodes ∧
      (b.addClass name simple).1.nodes[(b.addClass name simple).2]? = some ⟨name, false⟩ := by
  -- As long as no target has been asked for, all nodes are classes.
  have bare : ∀ n : Naming, n.outside [] = [] := fun _ => rfl
  have nodes := holds.nodes
  simp only [bare, List.map_nil, List.append_nil] at nodes
  by_cases known : name ∈ added.names
  · -- A known name changes nothing, as its first appearance counts.
    obtain ⟨i, found, stands⟩ := holds.indexOf?_of_mem known
    have same : b.addClass name simple = (b, i) := by simp [GraphBuilder.addClass, found]
    rw [same]
    refine ⟨⟨?_, ?_⟩, List.prefix_rfl, stands⟩
    · simp [Naming.names_append_of_mem simple known, nodes, bare]
    · rw [Naming.names_append_of_mem simple known]
      exact holds.registered.imp fun entry other here =>
        ⟨Naming.simpleName?_append _ here.1, here.2⟩
  · -- A new name gets the next node and is registered under its simple name.
    have absent := holds.indexOf?_eq_none known (by simp [bare])
    simp only [GraphBuilder.addClass, absent]
    have last : (b.nodes ++ [(⟨name, false⟩ : Node)])[b.nodes.length]? = some ⟨name, false⟩ := by
      simp
    refine ⟨⟨?_, ?_⟩, List.prefix_append _ _, last⟩
    · simp [Naming.names_append_of_not_mem simple known, nodes, bare]
    · rw [Naming.names_append_of_not_mem simple known]
      refine List.rel_append ?_ (.cons ⟨Naming.simpleName?_append_new simple known, last⟩ .nil)
      exact holds.registered.imp fun entry other here =>
        ⟨Naming.simpleName?_append _ here.1, getElem?_of_start (List.prefix_append _ _) here.2⟩

/-- Asking for a target keeps the earlier nodes and leads to the node that the target means. -/
theorem Holds.resolveOrAdd (holds : b.Holds added asked) (target : String) :
    (b.resolveOrAdd target).1.Holds added (asked ++ [target]) ∧
      b.nodes <+: (b.resolveOrAdd target).1.nodes ∧
      (b.resolveOrAdd target).1.nodes[(b.resolveOrAdd target).2]? = some (added.node target) := by
  -- Only a target that means no class and is met first changes the builder.
  cases means : added.meaning? target with
  | some name =>
    -- The class that is meant stands there already.
    obtain ⟨i, found, stands⟩ := holds.resolve_of_meaning means
    have same : b.resolveOrAdd target = (b, i) := by simp [GraphBuilder.resolveOrAdd, found]
    have still : added.outside (asked ++ [target]) = added.outside asked := by
      simp [Naming.outside_append, means]
    rw [same]
    refine ⟨⟨?_, holds.registered⟩, List.prefix_rfl, ?_⟩
    · rw [still]; exact holds.nodes
    · simpa [Naming.node, means] using stands
  | none =>
    have outer := holds.resolve_of_no_meaning means
    split at outer
    · -- The external type was made when the target was first asked for.
      rename_i met
      obtain ⟨i, found, stands⟩ := outer
      have same : b.resolveOrAdd target = (b, i) := by simp [GraphBuilder.resolveOrAdd, found]
      have still : added.outside (asked ++ [target]) = added.outside asked := by
        simp [Naming.outside_append, met]
      rw [same]
      refine ⟨⟨?_, holds.registered⟩, List.prefix_rfl, ?_⟩
      · rw [still]; exact holds.nodes
      · simpa [Naming.node, means] using stands
    · -- A new external type gets the next node and is registered under no simple name.
      rename_i fresh
      simp only [GraphBuilder.resolveOrAdd, outer]
      refine ⟨⟨?_, ?_⟩, List.prefix_append _ _, by simp [Naming.node, means]⟩
      · simp [Naming.outside_append, means, fresh, holds.nodes]
      · exact holds.registered.imp fun entry name here =>
          ⟨here.1, getElem?_of_start (List.prefix_append _ _) here.2⟩

end Laws

end GraphBuilder

end TypeGraph
