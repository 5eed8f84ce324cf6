import TypeGraph.Proofs.Java.Search

/-! Comments in the trees that are read: none is known by a field, and no phrase ends with one. -/

namespace TypeGraph.Java

/-- Whether a part with some label is a comment. -/
def Label.isComment : Label → Bool
  | lexeme t => t.isComment
  | _ => false

namespace Tree

/-- Whether a part is a comment. -/
def isComment (t : Tree) : Bool := t.label.isComment

@[simp] theorem isComment_leaf (field : Option Field) (label : Label) (x : Lexeme) :
    (leaf field label x).isComment = label.isComment := rfl

@[simp] theorem isComment_node (field : Option Field) (r : Rule) (parts : List Tree) :
    (node field r parts).isComment = false := rfl

/-- Trees in which comments have no fields and are not the last parts of phrases, though they may
stand at the end of a text. -/
inductive Neat : Tree → Prop where
  | leaf {field : Option Field} {label : Label} {x : Lexeme} :
      (label.isComment → field = none) → Neat (.leaf field label x)
  | node {field : Option Field} {r : Rule} {parts : List Tree} : (∀ part ∈ parts, Neat part) →
      (r ≠ .program → ∀ last ∈ parts.getLast?, last.isComment = false) →
      Neat (.node field r parts)

end Tree

/-- Hidden rules that stand for a single part. -/
def Rule.lone : List Rule :=
  [.expression, .primaryExpression, .literal, .statement, .declaration, .anyType,
    .unannotatedType, .reservedIdentifier]

/-- Whether a symbol stands for a single part. -/
def Symbol.isLone : Symbol → Bool
  | terminal _ => true
  | rule r => !r.isHidden || Rule.lone.contains r

/-- Whether a symbol stands for parts of phrases, which a whole text and a comment are not. -/
def Symbol.isInner : Symbol → Bool
  | terminal t => !t.isComment
  | rule r => r != .program

namespace Slot

/-- How a slot treats comments: it gives them no field or label and makes nothing a comment. -/
structure Careful (slot : Slot) : Prop where
  symbol : slot.symbol.isInner
  idle : slot.symbol.isLone = false → slot.field = none ∧ slot.label = none
  label : ∀ label ∈ slot.label, label.isComment = false

variable {slot : Slot}

/-- A careful slot makes no part a comment. -/
theorem Careful.isComment_dress (careful : slot.Careful) {t : Tree} (part : t.isComment = false) :
    (slot.dress t).isComment = false := by
  -- A leaf may get a label, and none of those is that of a comment.
  cases t with
  | node => simp
  | leaf field label x =>
    have shown := careful.label
    cases own : slot.label <;> simp_all

/-- A part that is no comment stays neat in a careful slot. -/
theorem Careful.neat_dress (careful : slot.Careful) {t : Tree} (neat : t.Neat)
    (part : t.isComment = false) : (slot.dress t).Neat := by
  -- The field given to a leaf does no harm, as the leaf is no comment.
  have dressed := careful.isComment_dress part
  cases neat with
  | leaf =>
    rw [dress_leaf] at dressed ⊢
    rw [Tree.isComment_leaf] at dressed
    exact .leaf fun comment => by rw [dressed] at comment; cases comment
  | node inner last =>
    rw [dress_node]
    exact .node inner last

end Slot

/-- All slots of the grammar are careful. -/
theorem Production.Listed.careful {p : Production} (listed : p.Listed) {slot : Slot}
    (member : slot ∈ p.body) : slot.Careful := by
  -- Every slot of the grammar is looked at.
  have checked : ∀ r ∈ Rule.all, ∀ p ∈ r.productions, ∀ slot ∈ p.body, slot.symbol.isInner ∧
      (slot.symbol.isLone = false → slot.field = none ∧ slot.label = none) ∧
        ∀ label ∈ slot.label, label.isComment = false := by
    decide +kernel
  obtain ⟨symbol, idle, label⟩ := checked p.head p.head.mem_all p listed slot member
  exact ⟨symbol, idle, label⟩

/-- A production of a rule that stands for a single part has one slot, for a single part. -/
theorem Production.Listed.lone {p : Production} (listed : p.Listed) (lone : p.head ∈ Rule.lone) :
    ∃ slot, p.body = [slot] ∧ slot.symbol.isLone := by
  -- The few productions of such rules are looked at.
  have checked : ∀ r ∈ Rule.lone, ∀ p ∈ r.productions,
      p.body.length = 1 ∧ ∀ slot ∈ p.body, slot.symbol.isLone := by
    decide +kernel
  obtain ⟨one, lone⟩ := checked p.head lone p listed
  obtain ⟨slot, same⟩ := List.length_eq_one_iff.mp one
  exact ⟨slot, same, lone slot (by simp [same])⟩

/-- A part of a reading in which comments are in place. -/
structure Piece.Neat (piece : Piece) : Prop where
  trees : ∀ t ∈ piece.trees, t.Neat
  /-- The last tree, which is the first in the list, is not a comment. -/
  last : ∀ symbol, piece.symbol = some symbol → symbol.isInner →
    ∃ t rest, piece.trees = t :: rest ∧ t.isComment = false
  lone : ∀ symbol, piece.symbol = some symbol → symbol.isLone → ∃ t, piece.trees = [t]

namespace Reading

/-- The trees of a neat piece are neat in a careful slot. -/
theorem neat_adopt {piece : Piece} (neat : piece.Neat) {slot : Slot} (careful : slot.Careful)
    (symbol : piece.symbol = some slot.symbol) :
    ∀ t ∈ adopt slot piece.trees, t.Neat := by
  rw [adopt_eq_map]
  obtain ⟨t, rest, trees, part⟩ := neat.last _ symbol careful.symbol
  cases lone : slot.symbol.isLone with
  | true =>
    obtain ⟨_, single⟩ := neat.lone _ symbol lone
    obtain ⟨rfl, rfl⟩ := List.cons.inj (trees.symm.trans single)
    have own : t.Neat := neat.trees t (by rw [single]; exact List.mem_cons_self)
    simpa [single] using careful.neat_dress own part
  | false =>
    -- Such a slot leaves all trees as they are.
    obtain ⟨field, label⟩ := careful.idle lone
    have same : slot.dress = id := by
      funext t
      cases t <;> simp [field, label]
    simpa [same] using neat.trees

/-- Neat pieces taken for careful slots give neat trees. -/
theorem Taken.neat {slots : List Slot} {front : List Piece} {added : List Tree}
    (taken : Taken slots front added) (neat : ∀ piece ∈ front, piece.Neat)
    (careful : ∀ slot ∈ slots, slot.Careful) : ∀ t ∈ added, t.Neat := by
  -- Comments go along as they are, and other pieces are adopted by their slots.
  induction taken with
  | done => simp
  | comment _ _ ih =>
    obtain ⟨here, later⟩ := List.forall_mem_cons.mp neat
    exact List.forall_mem_append.mpr ⟨here.trees, ih later careful⟩
  | part symbol _ ih =>
    obtain ⟨here, later⟩ := List.forall_mem_cons.mp neat
    obtain ⟨care, others⟩ := List.forall_mem_cons.mp careful
    exact List.forall_mem_append.mpr ⟨neat_adopt here care symbol, ih later others⟩

/-- Where no comment is the last piece, the trees of that piece are taken for the last slot. -/
theorem Taken.exists_part {slot : Slot} {slots : List Slot} {front : List Piece}
    {added : List Tree} (taken : Taken (slot :: slots) front added)
    (last : ∀ piece ∈ front.head?, piece.symbol.isSome) :
    ∃ piece ∈ front, piece.symbol = some slot.symbol ∧
      ∃ more, added = adopt slot piece.trees ++ more ∧ (slots = [] → more = []) := by
  -- The first piece is no comment, so it has to fill the slot.
  cases taken with
  | @comment _ _ piece _ _ symbol =>
    have known : piece.symbol.isSome := last piece rfl
    simp [symbol] at known
  | @part _ _ piece front added symbol rest =>
    refine ⟨piece, List.mem_cons_self, symbol, added, rfl, ?_⟩
    intro none
    subst none
    cases rest
    rfl

/-- The trees taken for a production end with a part of its last slot, and are just that part if
the production has but one slot, for a single part. -/
theorem Taken.last {p : Production} {front : List Piece} {added : List Tree}
    (taken : Taken p.body.reverse front added) (listed : p.Listed)
    (neat : ∀ piece ∈ front, piece.Neat) (last : ∀ piece ∈ front.head?, piece.symbol.isSome) :
    (p.head ≠ .program → ∃ t rest, added = t :: rest ∧ t.isComment = false) ∧
      (p.head ∈ Rule.lone → ∃ t, added = [t]) := by
  constructor
  · -- No comment is taken before a part of the last slot.
    intro inner
    obtain ⟨slot, slots, body⟩ := List.exists_cons_of_ne_nil
      (mt List.reverse_eq_nil_iff.mp (Rule.body_ne_nil listed inner))
    have member : slot ∈ p.body := List.mem_reverse.mp (by rw [body]; exact List.mem_cons_self)
    rw [body] at taken
    obtain ⟨piece, among, symbol, more, rfl, -⟩ := taken.exists_part last
    obtain ⟨t, rest, own, part⟩ := (neat piece among).last _ symbol (listed.careful member).symbol
    exact ⟨slot.dress t, _, by rw [adopt_eq_map, own]; rfl,
      (listed.careful member).isComment_dress part⟩
  · intro lone
    obtain ⟨slot, body, single⟩ := listed.lone lone
    rw [body] at taken
    obtain ⟨piece, among, symbol, more, rfl, none⟩ := taken.exists_part last
    obtain ⟨t, own⟩ := (neat piece among).lone _ symbol single
    exact ⟨slot.dress t, by rw [adopt_eq_map, own, none rfl]; rfl⟩

/-- Joining pieces leaves comments in place. -/
theorem neat_join {p : Production} {pieces after : List Piece} (joined : join p pieces = some after)
    (listed : p.Listed) (neat : ∀ piece ∈ pieces, piece.Neat) : ∀ piece ∈ after, piece.Neat := by
  obtain @⟨trailing, front, below, added, favour, last, taken⟩ := joins_of_join joined
  obtain ⟨trailing_neat, others_neat⟩ := List.forall_mem_append.mp neat
  obtain ⟨front_neat, below_neat⟩ := List.forall_mem_append.mp others_neat
  have front_last : ∀ piece ∈ front.head?, piece.symbol.isSome := by
    intro piece first
    exact last piece (by rw [List.head?_append, Option.mem_def.mp first]; rfl)
  obtain ⟨ends, single⟩ := taken.last listed front_neat front_last
  have added_neat : ∀ t ∈ added, t.Neat := taken.neat front_neat fun slot member =>
    listed.careful (List.mem_reverse.mp member)
  refine List.forall_mem_append.mpr ⟨?_, List.forall_mem_cons.mpr ⟨?_, below_neat⟩⟩
  · -- The comments behind the phrase only come to stand in another state.
    intro piece member
    obtain ⟨old, inside, rfl⟩ := List.mem_map.mp member
    exact ⟨(trailing_neat old inside).trees, (trailing_neat old inside).last,
      (trailing_neat old inside).lone⟩
  · -- A hidden phrase is its parts; any other is a single tree.
    cases shown : p.head.isHidden with
    | true =>
      have trees : (p.head.wrap added.reverse).reverse = added := by simp [Rule.wrap, shown]
      rw [trees]
      refine ⟨added_neat, ?_, ?_⟩
      · rintro _ ⟨⟩ other
        simpa using ends (by simpa [Symbol.isInner] using other)
      · rintro _ ⟨⟩ alone
        simpa using single (by simpa [Symbol.isLone, shown] using alone)
    | false =>
      have trees : (p.head.wrap added.reverse).reverse = [.node none p.head added.reverse] := by
        simp [Rule.wrap, shown]
      have node : (Tree.node none p.head added.reverse).Neat := by
        refine .node (by simpa using added_neat) fun inner last ends' => ?_
        obtain ⟨t, rest, rfl, part⟩ := ends inner
        simp only [List.getLast?_reverse, List.head?_cons, Option.mem_def,
          Option.some.injEq] at ends'
        exact ends' ▸ part
      rw [trees]
      exact ⟨by simpa using node, fun _ _ _ => ⟨_, [], rfl, rfl⟩, fun _ _ _ => ⟨_, rfl⟩⟩

/-- Moves leave comments in place. -/
theorem neat_move {r s : Reading} (holds : r.Sound ∧ ∀ piece ∈ r.pieces, piece.Neat)
    (move : r.Move s) : s.Sound ∧ ∀ piece ∈ s.pieces, piece.Neat := by
  -- Only a join changes trees; other moves add a lexeme or nothing.
  obtain ⟨sound, neat⟩ := holds
  refine ⟨sound.move move, ?_⟩
  cases move with
  | @comment x rest starts comment =>
    refine List.forall_mem_cons.mpr ⟨⟨?_, by simp, by simp⟩, neat⟩
    simpa using Tree.Neat.leaf fun _ => rfl
  | see => exact neat
  | rename => exact neat
  | @shift x rest t ahead inner =>
    refine List.forall_mem_cons.mpr ⟨⟨?_, ?_, fun _ _ _ => ⟨_, rfl⟩⟩, neat⟩
    · simpa using Tree.Neat.leaf fun _ => rfl
    · rintro _ ⟨⟩ part
      exact ⟨_, [], rfl, by simpa [Symbol.isInner, Label.isComment] using part⟩
  | @join p pieces t ahead reduction joined kept =>
    have state : r.state.Sound := sound_stateAfter sound.pieces
    have listed : p.Listed := state.complete (State.complete_of_mem_reductions reduction)
    exact neat_join joined listed neat

end Reading

/-- Comments are in place in a tree that is read. -/
theorem neat_of_read {text : List Char} {tree : Tree} (accepted : read text = .ok tree) :
    tree.Neat := by
  -- The tree is that of a reading at the end of the text, where comments may come last.
  obtain ⟨r, ⟨-, neat⟩, rfl⟩ := exists_reading_of_read accepted
    (fun r => r.Sound ∧ ∀ piece ∈ r.pieces, piece.Neat)
    ⟨Reading.sound_start text, by simp [Reading.start]⟩ fun _ _ => Reading.neat_move
  refine .node (fun part member => ?_) fun inner => absurd rfl inner
  obtain ⟨piece, inside, among⟩ := List.mem_flatMap.mp (List.mem_reverse.mp member)
  exact (neat piece inside).trees part among

end TypeGraph.Java
