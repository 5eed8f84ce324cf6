import Mathlib.Data.Nat.Basic
import TypeGraph.Java.Fault

/-! The search that passes over unmarked parts of a tree finds the first fault of all, if any. -/

namespace TypeGraph.Java

namespace Marked

variable {α : Type} {isFault : α → Bool}

/-- What holds of a node if it holds of all nodes right below it holds of every tree. -/
@[elab_as_elim]
theorem induction {holds : Marked α → Prop}
    (node : ∀ content mark children, (∀ t ∈ children, holds t) →
      holds (.node content mark children)) (t : Marked α) : holds t := by
  cases t with
  | node content mark children =>
    exact node content mark children fun t member => induction node t
termination_by sizeOf t
decreasing_by
  -- What is below a node is smaller than the node.
  have smaller := List.sizeOf_lt_of_mem member
  simp only [Marked.node.sizeOf_spec]
  omega

mutual
/-- All nodes of a tree, each before those below it, and from left to right. -/
def nodes : Marked α → List (Marked α)
  | node content mark children => node content mark children :: nodesAmong children
/-- All nodes of several trees. -/
def nodesAmong : List (Marked α) → List (Marked α)
  | [] => []
  | t :: rest => nodes t ++ nodesAmong rest
end

/-- The first node of a tree is its root. -/
theorem mem_nodes_self (t : Marked α) : t ∈ t.nodes := by
  cases t
  exact List.mem_cons_self

/-- The nodes of several trees are those of each in turn. -/
theorem nodesAmong_eq (ts : List (Marked α)) : nodesAmong ts = ts.flatMap nodes := by
  induction ts with
  | nil => rfl
  | cons t rest ih => rw [nodesAmong, ih, List.flatMap_cons]

@[simp] theorem nodes_node (content : α) (mark : Bool) (children : List (Marked α)) :
    (node content mark children).nodes =
      node content mark children :: children.flatMap nodes := by
  rw [nodes, nodesAmong_eq]

/-- If in each of several trees the first fault of all is found, it is found among all of them. -/
theorem firstFaultAmong?_eq_find? {ts : List (Marked α)}
    (each : ∀ t ∈ ts, t.firstFault? isFault = t.nodes.find? fun n => isFault n.content) :
    firstFaultAmong? isFault ts = (ts.flatMap nodes).find? fun n => isFault n.content := by
  induction ts with
  | nil => rfl
  | cons t rest ih =>
    obtain ⟨here, later⟩ := List.forall_mem_cons.mp each
    rw [firstFaultAmong?, here, ih later, List.flatMap_cons, List.find?_append]
    cases t.nodes.find? fun n => isFault n.content <;> rfl

/-- Whether each node of a tree is marked exactly if it is a fault or has one below it. -/
def Faithful (isFault : α → Bool) (t : Marked α) : Prop :=
  ∀ n ∈ t.nodes, n.mark ↔ ∃ m ∈ n.nodes, isFault m.content

/-- The marks of a tree are faithful in each of its parts. -/
theorem Faithful.child {content : α} {mark : Bool} {children : List (Marked α)}
    (faithful : (node content mark children).Faithful isFault) :
    ∀ t ∈ children, t.Faithful isFault := by
  intro t member n inside
  refine faithful n ?_
  rw [nodes_node]
  exact List.mem_cons_of_mem _ (List.mem_flatMap.mpr ⟨t, member, inside⟩)

/-- Where the mark of a node is told from those below it, and these are faithful, all are. -/
theorem faithful_above {content : α} {children : List (Marked α)}
    (faithful : ∀ t ∈ children, t.Faithful isFault) :
    (above isFault content children).Faithful isFault := by
  intro n inside
  rw [above, nodes_node, List.mem_cons, List.mem_flatMap] at inside
  rcases inside with rfl | ⟨t, member, inside⟩
  · -- The mark of each tree below tells of all its nodes.
    rw [nodes_node, Marked.mark, Bool.or_eq_true, List.any_eq_true]
    simp only [List.mem_cons, List.mem_flatMap, exists_eq_or_imp, Marked.content]
    refine or_congr_right ⟨?_, ?_⟩
    · rintro ⟨t, member, marked⟩
      obtain ⟨m, among, fault⟩ := (faithful t member t t.mem_nodes_self).mp marked
      exact ⟨m, ⟨t, member, among⟩, fault⟩
    · rintro ⟨m, ⟨t, member, among⟩, fault⟩
      exact ⟨t, member, (faithful t member t t.mem_nodes_self).mpr ⟨m, among, fault⟩⟩
  · exact faithful t member n inside

/-- Where marks are faithful, passing over unmarked nodes misses no fault. -/
theorem firstFault?_eq_find? {t : Marked α} (faithful : t.Faithful isFault) :
    t.firstFault? isFault = t.nodes.find? fun n => isFault n.content := by
  induction t using Marked.induction with
  | node content mark children ih =>
    have among := firstFaultAmong?_eq_find? fun t member => ih t member (faithful.child t member)
    rw [firstFault?, among, nodes_node]
    by_cases fault : isFault content
    · -- A fault comes before the faults below it.
      rw [if_pos fault, List.find?_cons_of_pos (by exact fault)]
    · rw [if_neg fault, List.find?_cons_of_neg (by exact fault)]
      cases mark with
      | true => rfl
      | false =>
        -- Without a mark there is no fault at all.
        refine (List.find?_eq_none.mpr fun n inside fault => ?_).symm
        have unmarked := faithful (node content false children) (by simp)
        exact Bool.false_ne_true (unmarked.mpr ⟨n, by simp [inside], fault⟩)

/-- Where marks are faithful, a tree without faults is sound, and the first fault of all is told of
any other. -/
theorem verdict_eq {t : Marked α} (faithful : t.Faithful isFault) :
    t.verdict isFault = (t.nodes.find? fun n => isFault n.content).elim .sound .faultAt := by
  have root := faithful t t.mem_nodes_self
  rw [verdict, firstFault?_eq_find? faithful]
  cases found : t.nodes.find? fun n => isFault n.content with
  | none =>
    refine if_neg fun marked => ?_
    obtain ⟨n, inside, fault⟩ := root.mp marked
    exact List.find?_eq_none.mp found n inside fault
  | some n =>
    have fault := List.find?_some found
    exact if_pos (root.mpr ⟨n, List.mem_of_find?_eq_some found, fault⟩)

section Order

variable {π : Type} [Preorder π]

/-- Whether the nodes of a tree are stretches of a text that lie inside the node around them, one
after the other. -/
structure Placed (start stop : α → π) (t : Marked α) : Prop where
  stretch : ∀ n ∈ t.nodes, start n.content ≤ stop n.content
  inside : ∀ n ∈ t.nodes, ∀ child ∈ n.children,
    start n.content ≤ start child.content ∧ stop child.content ≤ stop n.content
  inTurn : ∀ n ∈ t.nodes, n.children.Pairwise fun c d => stop c.content ≤ start d.content

variable {start stop : α → π}

/-- The nodes of a tree are in place in each of its parts. -/
theorem Placed.child {content : α} {mark : Bool} {children : List (Marked α)}
    (placed : (node content mark children).Placed start stop) :
    ∀ t ∈ children, t.Placed start stop := by
  intro t member
  have among : ∀ n ∈ t.nodes, n ∈ (node content mark children).nodes := by
    intro n inside
    rw [nodes_node]
    exact List.mem_cons_of_mem _ (List.mem_flatMap.mpr ⟨t, member, inside⟩)
  exact ⟨fun n inside => placed.stretch n (among n inside),
    fun n inside => placed.inside n (among n inside),
    fun n inside => placed.inTurn n (among n inside)⟩

/-- No node starts before the root of its tree or stops after it. -/
theorem Placed.within {t : Marked α} (placed : t.Placed start stop) :
    ∀ n ∈ t.nodes, start t.content ≤ start n.content ∧ stop n.content ≤ stop t.content := by
  induction t using Marked.induction with
  | node content mark children ih =>
    intro n member
    rw [nodes_node, List.mem_cons, List.mem_flatMap] at member
    rcases member with rfl | ⟨t, member, inside⟩
    · exact ⟨le_rfl, le_rfl⟩
    · -- The node lies in a part, and the part in the whole.
      have inner := ih t member (placed.child t member) n inside
      have outer := placed.inside (node content mark children) (by simp) t member
      exact ⟨le_trans outer.1 inner.1, le_trans inner.2 outer.2⟩

/-- Nodes come in the order of their starts. -/
theorem Placed.pairwise_nodes {t : Marked α} (placed : t.Placed start stop) :
    t.nodes.Pairwise fun n m => start n.content ≤ start m.content := by
  induction t using Marked.induction with
  | node content mark children ih =>
    rw [nodes_node, List.pairwise_cons, List.pairwise_flatMap]
    refine ⟨fun n below => ?_, fun t member => ih t member (placed.child t member), ?_⟩
    · exact (placed.within n (by simp [below])).1
    · -- A node of a part stops before the next part starts, and it starts before it stops.
      refine (placed.inTurn (node content mark children) (by simp)).imp_of_mem ?_
      intro t u member member' before n inside m inside'
      calc start n.content
        _ ≤ stop n.content := (placed.child t member).stretch n inside
        _ ≤ stop t.content := ((placed.child t member).within n inside).2
        _ ≤ start u.content := before
        _ ≤ start m.content := ((placed.child u member').within m inside').1

end Order

/-- Of a list in order, the first entry of some kind comes before all others of this kind. -/
theorem rel_of_find? {β : Type} {rel : β → β → Prop} (refl : ∀ b, rel b b) {entries : List β}
    (ordered : entries.Pairwise rel) {kind : β → Bool} {first : β}
    (found : entries.find? kind = some first) : ∀ b ∈ entries, kind b → rel first b := by
  obtain ⟨-, before, after, rfl, others⟩ := List.find?_eq_some_iff_append.mp found
  intro b member good
  rcases List.mem_append.mp member with earlier | later
  · -- No entry before the first one is of the kind.
    have other := others b earlier
    simp [good] at other
  · rcases List.mem_cons.mp later with rfl | later
    · exact refl b
    · exact List.rel_of_pairwise_cons (List.pairwise_append.mp ordered).2.1 later

end Marked

namespace Tree

mutual
/-- All parts of a tree, the tree itself among them, each before those in it. -/
def within : Tree → List Tree
  | leaf field label lexeme => [leaf field label lexeme]
  | node field rule parts => node field rule parts :: withinAll parts
/-- All parts of several trees. -/
def withinAll : List Tree → List Tree
  | [] => []
  | t :: rest => within t ++ withinAll rest
end

mutual
/-- The marks of a tree are faithful. -/
theorem faithful_marked (t : Tree) : t.marked.Faithful isFault := by
  match t with
  | leaf field label lexeme => rw [marked]; exact Marked.faithful_above (by simp)
  | node field rule parts => rw [marked]; exact Marked.faithful_above (faithful_markedAll parts)
/-- The marks of several trees are faithful. -/
theorem faithful_markedAll (parts : List Tree) :
    ∀ t ∈ markedAll parts, t.Faithful isFault := by
  match parts with
  | [] => simp [markedAll]
  | t :: rest =>
    rw [markedAll, List.forall_mem_cons]
    exact ⟨faithful_marked t, faithful_markedAll rest⟩
end

mutual
/-- The nodes of a marked tree are the parts of the tree. -/
theorem contents_marked (t : Tree) : t.marked.nodes.map (·.content) = t.within := by
  match t with
  | leaf field label lexeme => rfl
  | node field rule parts =>
    rw [marked, Marked.above, Marked.nodes, List.map_cons, contents_markedAll parts]
    rfl
/-- The nodes of several marked trees are the parts of these trees. -/
theorem contents_markedAll (parts : List Tree) :
    (Marked.nodesAmong (markedAll parts)).map (·.content) = withinAll parts := by
  match parts with
  | [] => rfl
  | t :: rest =>
    rw [markedAll, Marked.nodesAmong, List.map_append, contents_marked t, contents_markedAll rest]
    rfl
end

/-- The parts of several trees are those of each in turn. -/
theorem withinAll_eq (parts : List Tree) : withinAll parts = parts.flatMap within := by
  induction parts with
  | nil => rfl
  | cons t rest ih => rw [withinAll, ih, List.flatMap_cons]

/-- A tree is marked if one of its direct parts is a fault. -/
theorem mark_of_part {field : Option Field} {rule : Rule} {parts : List Tree} {t : Tree}
    (member : t ∈ parts) (fault : t.isFault) : (node field rule parts).marked.mark := by
  have inside : t ∈ (node field rule parts).within := by
    rw [within, withinAll_eq]
    refine List.mem_cons_of_mem _ (List.mem_flatMap.mpr ⟨t, member, ?_⟩)
    cases t <;> exact List.mem_cons_self
  rw [← contents_marked] at inside
  obtain ⟨n, among, rfl⟩ := List.mem_map.mp inside
  exact ((faithful_marked _) _ (Marked.mem_nodes_self _)).mpr ⟨n, among, fault⟩

/-- A tree without faults passes its check, and any other fails at the first fault in it. -/
theorem checked_eq (t : Tree) :
    t.checked = (t.within.find? isFault).elim (.ok t) fun part => .error (.ofPart part) := by
  -- The nodes of the marked tree are the parts, so the search is one among the parts.
  have found : t.within.find? isFault =
      (t.marked.nodes.find? fun n => isFault n.content).map (·.content) := by
    rw [← contents_marked t, List.find?_map]
    rfl
  rw [checked, Marked.verdict_eq t.faithful_marked, found]
  cases t.marked.nodes.find? fun n => isFault n.content <;> rfl

end Tree

/-- The fault that a part stands for has the place where the part starts. -/
theorem SyntaxFault.exists_ofPart (part : Tree) :
    ∃ missing, ofPart part = standing part.place missing := by
  unfold ofPart
  split
  · exact ⟨_, rfl⟩
  · exact ⟨none, rfl⟩

/-- Where the marks of a tree are faithful, the search that passes over unmarked nodes finds the
same fault as one through all nodes, outer ones first and from left to right. If the nodes lie in
the order of a text, no fault starts before this one. A tree is sound exactly if it has no fault,
and it never happens that a marked tree has no fault to be told. So a text is not read exactly if
its tree has a fault, and it is always the place of the first one that is told. -/
theorem first_fault_of_all {α π : Type} [Preorder π] (isFault : α → Bool) (start stop : α → π)
    (t : Marked α) (faithful : t.Faithful isFault) :
    (t.firstFault? isFault = t.nodes.find? fun n => isFault n.content) ∧
      (t.Placed start stop → ∀ n, t.firstFault? isFault = some n →
        ∀ m ∈ t.nodes, isFault m.content → start n.content ≤ start m.content) ∧
      (t.verdict isFault = .sound ↔ ∀ n ∈ t.nodes, ¬isFault n.content) ∧
      t.verdict isFault ≠ .faultSomewhere ∧
      ∀ text, ((∃ fault, read text = .error fault) ↔
          ∃ part ∈ (parse text).within, part.isFault) ∧
        ∀ fault, read text = .error fault → ∃ part missing,
          (parse text).within.find? Tree.isFault = some part ∧
            fault = .ofPart part ∧ fault = .standing part.place missing := by
  have search := Marked.firstFault?_eq_find? faithful
  refine ⟨search, fun placed n found => ?_, ?_, ?_, fun text => ?_⟩
  · exact Marked.rel_of_find? (fun n => le_refl (start n.content)) placed.pairwise_nodes
      (search.symm.trans found)
  · rw [Marked.verdict_eq faithful, ← List.find?_eq_none]
    cases t.nodes.find? fun n => isFault n.content <;> simp
  · rw [Marked.verdict_eq faithful]
    cases t.nodes.find? fun n => isFault n.content <;> simp
  · rw [read, Tree.checked_eq, ← List.find?_isSome]
    cases (parse text).within.find? Tree.isFault with
    | none => simp
    | some part =>
      obtain ⟨missing, told⟩ := SyntaxFault.exists_ofPart part
      refine ⟨by simp, ?_⟩
      rintro _ ⟨⟩
      exact ⟨part, missing, rfl, rfl, told⟩

/-- A text in which something stands that cannot follow, with a missing mark right inside of it, and
at whose end two marks are missing at one place. Each node has a label, a start and a stop. -/
def brokenTree : Marked (Label × Nat × Nat) :=
  .node (.rule .program, 0, 9) true
    [.node (.rule .block, 0, 3) false [.node (.lexeme .semicolon, 1, 2) false []],
      .node (.unexpected, 3, 7) true
        [.node (.missing .semicolon, 3, 3) true [], .node (.unexpected, 4, 6) true []],
      .node (.missing .rightParen, 9, 9) true [], .node (.missing .rightBrace, 9, 9) true []]

/-- In the broken tree the outer one of two faults at the same place is found. -/
theorem first_fault_of_all_nested :
    let isFault (content : Label × Nat × Nat) : Bool := content.1.isFault
    brokenTree.Faithful isFault ∧ brokenTree.Placed (·.2.1) (·.2.2) ∧
      brokenTree.firstFault? isFault = brokenTree.nodes.find? (fun n => isFault n.content) ∧
      (∀ n, brokenTree.firstFault? isFault = some n →
        ∀ m ∈ brokenTree.nodes, isFault m.content → n.content.2.1 ≤ m.content.2.1) ∧
      (brokenTree.firstFault? isFault).map (·.content) = some (.unexpected, 3, 7) := by
  intro isFault
  have faithful : brokenTree.Faithful isFault := by
    unfold Marked.Faithful
    decide
  have placed : brokenTree.Placed (·.2.1) (·.2.2) := ⟨by decide, by decide, by decide⟩
  obtain ⟨search, least, -⟩ :=
    first_fault_of_all isFault (·.2.1) (·.2.2) brokenTree faithful
  exact ⟨faithful, placed, search, least placed, by decide⟩

end TypeGraph.Java
