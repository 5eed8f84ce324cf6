import TypeGraph.Proofs.Graph.Builder

/-! What a builder answers to requests in any order: it is told by the classes added before. -/

namespace TypeGraph

namespace Naming

/-- Later classes come behind the names that are known. -/
theorem names_before (n later : Naming) : n.names <+: names (n ++ later) := by
  -- Of the later names only new ones are kept.
  unfold names
  rw [List.map_append, List.eraseDups_append]
  exact List.prefix_append _ _

/-- A class that is known has a simple name. -/
theorem exists_simpleName? {n : Naming} {name : String} (known : name ∈ n.names) :
    ∃ simple, n.simpleName? name = some simple := by
  -- The first entry with the name has it.
  obtain ⟨entry, member, same⟩ := mem_names.mp known
  have found : (n.find? fun entry => entry.1 == name).isSome := by
    rw [List.find?_isSome]
    exact ⟨entry, member, by simp [same]⟩
  obtain ⟨first, found⟩ := Option.isSome_iff_exists.mp found
  exact ⟨first.2, by rw [simpleName?, found, Option.map_some]⟩

/-- Later classes come behind those that are registered under a simple name. -/
theorem namesakes_before (n later : Naming) (simple : String) :
    n.namesakes simple <+: namesakes (n ++ later) simple := by
  obtain ⟨more, grown⟩ := n.names_before later
  -- The simple name of a known class stays, so the filter keeps the same of them.
  have same : (n.names.filter fun name => simpleName? (n ++ later) name == some simple) =
      n.namesakes simple := by
    refine List.filter_congr fun name known => ?_
    obtain ⟨own, registered⟩ := exists_simpleName? known
    rw [registered, simpleName?_append later registered]
  rw [← same]
  show _ <+: (names (n ++ later)).filter _
  rw [← grown, List.filter_append]
  exact List.prefix_append _ _

/-- The position of a class, counted by the first uses of names. -/
def position (n : Naming) (name : String) : Nat := n.names.idxOf name

/-- A class keeps its position when others are added. -/
theorem position_append {n : Naming} {name : String} (later : Naming) (known : name ∈ n.names) :
    position (n ++ later) name = n.position name := by
  obtain ⟨more, grown⟩ := n.names_before later
  rw [position, ← grown, List.idxOf_append_of_mem known, position]

/-- The position of the class that a target means. -/
def locate? (n : Naming) (target : String) : Option Nat := (n.meaning? target).map n.position

/-- A name of a class leads to that class. -/
theorem locate?_of_mem {n : Naming} {target : String} (known : target ∈ n.names) :
    n.locate? target = some (n.position target) := by
  simp [locate?, meaning?, known]

/-- Any other target leads to the class with that simple name, if there is just one. -/
theorem locate?_of_alone {n : Naming} {target only : String} (unknown : target ∉ n.names)
    (alone : n.namesakes target = [only]) : n.locate? target = some (n.position only) := by
  rw [locate?, meaning?, if_neg unknown, alone]
  rfl

/-- Without such a class, or with several, it leads nowhere. -/
theorem locate?_eq_none {n : Naming} {target : String} (unknown : target ∉ n.names)
    (several : (n.namesakes target).length ≠ 1) : n.locate? target = none := by
  rw [locate?, meaning?, if_neg unknown]
  cases namesakes : n.namesakes target with
  | nil => rfl
  | cons only others =>
    cases others with
    | nil => exact absurd (by rw [namesakes]; rfl) several
    | cons => rfl

/-- The only class with some simple name is the only one later on, or the name leads nowhere. -/
theorem locate?_append {n : Naming} {target : String} (later : Naming)
    (unknown : target ∉ names (n ++ later)) (found : n.locate? target ≠ none) :
    locate? (n ++ later) target = n.locate? target ∨ locate? (n ++ later) target = none := by
  have before : target ∉ n.names := fun known => unknown ((n.names_before later).subset known)
  obtain ⟨more, namesakes⟩ := n.namesakes_before later target
  match alone : n.namesakes target with
  | [] => exact absurd (locate?_eq_none before (by simp [alone])) found
  | _ :: _ :: _ => exact absurd (locate?_eq_none before (by simp [alone])) found
  | [only] =>
    rw [alone] at namesakes
    cases more with
    | nil =>
      -- No class has come to share the simple name.
      have known : only ∈ n.names := by
        have member : only ∈ n.namesakes target := by rw [alone]; exact List.mem_singleton_self _
        exact (List.mem_filter.mp member).1
      left
      rw [locate?_of_alone before alone, locate?_of_alone unknown namesakes.symm,
        position_append later known]
    | cons => exact .inr (locate?_eq_none unknown (by simp [← namesakes]))

/-- A simple name that several classes share leads nowhere, whatever is added later. -/
theorem locate?_of_shared {n : Naming} {target : String} (later : Naming)
    (unknown : target ∉ names (n ++ later)) (shared : 2 ≤ (n.namesakes target).length) :
    locate? (n ++ later) target = none := by
  have several : 2 ≤ (namesakes (n ++ later) target).length :=
    Nat.le_trans shared (n.namesakes_before later target).length_le
  exact locate?_eq_none unknown (by omega)

end Naming

namespace GraphBuilder

/-- What a builder may be asked for. -/
inductive Request where
  /-- To add a class. -/
  | add (name simpleName : String)
  /-- To tell the class that a name means. -/
  | resolve (target : String)
deriving DecidableEq, Repr

/-- The builder after a request, and the position that it answers. -/
def serve (b : GraphBuilder) : Request → GraphBuilder × Option Nat
  | .add name simpleName => ((b.addClass name simpleName).1, some (b.addClass name simpleName).2)
  | .resolve target => (b, b.resolve target)

/-- The builder after several requests, and its answers to them. -/
def serveAll (b : GraphBuilder) : List Request → GraphBuilder × List (Option Nat)
  | [] => (b, [])
  | r :: rest =>
    let (b, answer) := b.serve r
    let (b, answers) := b.serveAll rest
    (b, answer :: answers)

/-- The builder that has served some requests, and nothing else. -/
def served (requests : List Request) : GraphBuilder := (empty.serveAll requests).1

/-- The class that a request is to add, if it is to add one. -/
def Request.classes : Request → Naming
  | .add name simpleName => [(name, simpleName)]
  | .resolve _ => []

/-- The classes that requests are to add. -/
def added (requests : List Request) : Naming := requests.flatMap Request.classes

/-- What is answered to a request, by the classes that have been added before. -/
def Request.answer (n : Naming) : Request → Option Nat
  | .add name simpleName => some (Naming.position (n ++ [(name, simpleName)]) name)
  | .resolve target => n.locate? target

section

variable {b : GraphBuilder} {n : Naming}

/-- A class stands at its position among the first uses of names. -/
theorem Holds.position_eq (holds : b.Holds n []) {i : Nat} {name : String}
    (stands : b.nodes[i]? = some ⟨name, false⟩) : i = n.position name := by
  -- As long as no external type is made, the nodes are the classes by the first uses of names.
  have names : n.names = b.nodes.map (·.name) := by simp [holds.node_names, Naming.outside]
  have here : n.names[i]? = some name := by rw [names, List.getElem?_map, stands]; rfl
  obtain ⟨within, same⟩ := List.getElem?_eq_some_iff.mp here
  have distinct : n.names.Nodup := names ▸ holds.distinct
  rw [Naming.position, ← same, distinct.idxOf_getElem]

/-- A target leads to the position of the class that it means. -/
theorem Holds.resolve_eq (holds : b.Holds n []) (target : String) :
    b.resolve target = n.locate? target := by
  cases means : n.meaning? target with
  | some name =>
    obtain ⟨i, found, stands⟩ := holds.resolve_of_meaning means
    rw [found, Naming.locate?, means, holds.position_eq stands, Option.map_some]
  | none =>
    -- No external type has been made that could be found instead.
    have nowhere := holds.resolve_of_no_meaning means
    rw [if_neg (by simp [Naming.outside])] at nowhere
    rw [nowhere, Naming.locate?, means, Option.map_none]

/-- Adding a class answers its position. -/
theorem Holds.position_addClass (holds : b.Holds n []) (name simple : String) :
    (b.addClass name simple).2 = Naming.position (n ++ [(name, simple)]) name := by
  obtain ⟨grown, -, stands⟩ := holds.addClass name simple
  exact grown.position_eq stands

/-- Adding a class that is known changes nothing, whatever simple name is given. -/
theorem Holds.addClass_of_known (holds : b.Holds n []) {name : String} (known : name ∈ n.names)
    (simple : String) : b.addClass name simple = (b, n.position name) := by
  obtain ⟨i, found, stands⟩ := holds.indexOf?_of_mem known
  simp [GraphBuilder.addClass, found, holds.position_eq stands]

/-- A request is answered by the classes that are held, and then those that it adds are held. -/
theorem Holds.serve (holds : b.Holds n []) (r : Request) :
    (b.serve r).1.Holds (n ++ r.classes) [] ∧ (b.serve r).2 = r.answer n := by
  cases r with
  | add name simple =>
    exact ⟨(holds.addClass name simple).1, congrArg some (holds.position_addClass name simple)⟩
  | resolve target =>
    -- A question adds no class.
    rw [Request.classes, List.append_nil]
    exact ⟨holds, holds.resolve_eq target⟩

/-- Each of several requests is answered by the classes that are held and those added since. -/
theorem Holds.serveAll (holds : b.Holds n []) (requests : List Request) :
    (b.serveAll requests).1.Holds (n ++ added requests) [] ∧
      (b.serveAll requests).2 =
        requests.mapIdx fun k r => r.answer (n ++ added (requests.take k)) := by
  induction requests generalizing b n with
  | nil => simpa [GraphBuilder.serveAll, added] using holds
  | cons r rest ih =>
    -- The other requests come to a builder that holds the class of the first one, too.
    obtain ⟨grown, answer⟩ := holds.serve r
    obtain ⟨all, answers⟩ := ih grown
    simp only [added, List.append_assoc] at all answers ⊢
    simp only [GraphBuilder.serveAll, List.mapIdx_cons, List.take_zero, List.take_succ_cons,
      List.flatMap_nil, List.flatMap_cons, List.append_nil]
    exact ⟨all, by rw [answer, answers]⟩

/-- After some requests the classes that they add are held. -/
theorem holds_served (requests : List Request) : (served requests).Holds (added requests) [] :=
  (holds_empty.serveAll requests).1

end

/-- A builder that starts empty answers each request by the classes added before. Positions are
given out by the first uses of names. A name leads to the class so named, else to the only one that
was added under it as its simple name. Neither questions nor classes that are known change
anything. So what a name of a class leads to stays the same from then on. What another name leads
to, if anything, stays the same until the name is shared or becomes that of a class, and a name
that is shared leads nowhere unless it becomes that of a class. -/
theorem answers_by_history (requests : List Request) :
    ((empty.serveAll requests).2 =
        requests.mapIdx fun k r => r.answer (added (requests.take k))) ∧
      (∀ target, (served requests).serve (.resolve target) =
        (served requests, (added requests).locate? target)) ∧
      (∀ name simpleName, name ∈ (added requests).names →
        (served requests).serve (.add name simpleName) =
          (served requests, some ((added requests).position name))) ∧
      ∀ later target,
        (target ∈ (added requests).names →
          (served (requests ++ later)).resolve target = (served requests).resolve target) ∧
        (target ∉ (added (requests ++ later)).names → (served requests).resolve target ≠ none →
          (served (requests ++ later)).resolve target = (served requests).resolve target ∨
            (served (requests ++ later)).resolve target = none) ∧
        (target ∉ (added (requests ++ later)).names →
          2 ≤ ((added requests).namesakes target).length →
          (served (requests ++ later)).resolve target = none) := by
  have holds := holds_served requests
  refine ⟨by simpa using (holds_empty.serveAll requests).2, fun target => ?_,
    fun name simple known => ?_, fun later target => ?_⟩
  · rw [serve, holds.resolve_eq]
  · rw [serve, holds.addClass_of_known known]
  · -- Later requests only add to the classes that answers are told by.
    have more : added (requests ++ later) = added requests ++ added later := List.flatMap_append
    rw [(holds_served _).resolve_eq, holds.resolve_eq, more]
    refine ⟨fun known => ?_, Naming.locate?_append _, Naming.locate?_of_shared _⟩
    have still := ((added requests).names_before (added later)).subset known
    rw [Naming.locate?_of_mem still, Naming.locate?_of_mem known, Naming.position_append _ known]

/-- A class, and a question by its simple name. -/
def oneNode : List Request := [.add "a.Node" "Node", .resolve "Node"]

/-- A class that shares the simple name, and the first one again under another simple name. -/
def twoNodes : List Request :=
  oneNode ++ [.add "b.Node" "Node", .resolve "Node", .add "a.Node" "Knot", .resolve "Node"]

/-- A class that is named as the others are called. -/
def threeNodes : List Request := twoNodes ++ [.add "Node" "Node", .resolve "Node"]

/-- The second class leaves the simple name without an answer, while the name of the first one is
answered as before. The simple name is only answered again by a class of that name. -/
theorem answers_by_history_nodes :
    (empty.serveAll threeNodes).2 =
        [some 0, some 0, some 1, none, some 0, none, some 2, some 2] ∧
      ("a.Node" ∈ (added oneNode).names ∧
        (served twoNodes).resolve "a.Node" = (served oneNode).resolve "a.Node") ∧
      ("Node" ∉ (added twoNodes).names ∧ (served oneNode).resolve "Node" ≠ none ∧
        ((served twoNodes).resolve "Node" = (served oneNode).resolve "Node" ∨
          (served twoNodes).resolve "Node" = none)) ∧
      "Node" ∉ (added (twoNodes ++ [])).names ∧ 2 ≤ ((added twoNodes).namesakes "Node").length ∧
        (served (twoNodes ++ [])).resolve "Node" = none := by
  have known : "a.Node" ∈ (added oneNode).names := by decide
  have unknown : "Node" ∉ (added twoNodes).names := by decide
  have found : (served oneNode).resolve "Node" ≠ none := by decide
  have shared : 2 ≤ ((added twoNodes).namesakes "Node").length := by decide
  have before := (answers_by_history oneNode).2.2.2 (twoNodes.drop 2)
  exact ⟨by decide, ⟨known, (before _).1 known⟩, ⟨unknown, found, (before _).2.1 unknown found⟩,
    unknown, shared, ((answers_by_history twoNodes).2.2.2 [] _).2.2 unknown shared⟩

end GraphBuilder

end TypeGraph
