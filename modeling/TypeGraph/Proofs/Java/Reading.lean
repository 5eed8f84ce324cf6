import TypeGraph.Proofs.Java.Lexeme
import TypeGraph.Proofs.Java.Parts

/-! The trees that are read: the grammar derives their parts, and their lexemes lie in order. -/

namespace TypeGraph.Java

/-- How the trees of a piece, the last one first, match its symbol. -/
inductive Matches : Option Symbol → List Tree → Prop where
  | comment {x : Lexeme} : x.terminal.isComment → x.text ≠ [] →
      Matches none [.leaf none (.lexeme x.terminal) x]
  | lexeme {t : Terminal} {x : Lexeme} : (t ≠ .endOfText → x.text ≠ []) →
      Matches (some (.terminal t)) [.leaf none (.lexeme t) x]
  | phrase {p : Production} {inner : List Tree} : p.Listed → Fills p.body inner →
      Matches (some (.rule p.head)) (p.head.wrap inner).reverse

/-- The trees that match the symbol of an inner slot fill the slot. -/
theorem Matches.fills {slot : Slot} {trees : List Tree}
    (holds : Matches (some slot.symbol) trees) (inner : slot.Inner) :
    Fills [slot] (Reading.adopt slot trees).reverse := by
  -- The symbol of the slot tells which kind of match there is.
  rw [Reading.adopt_eq_map]
  generalize same : some slot.symbol = symbol at holds
  cases holds with
  | comment => cases same
  | @lexeme t x nonempty =>
    have symbol : slot.symbol = .terminal t := Option.some.inj same
    exact .lexeme symbol inner.honest (nonempty fun last => inner.last (by rw [symbol, last])) .nil
  | @phrase p parts listed fills =>
    have symbol : slot.symbol = .rule p.head := Option.some.inj same
    have body : p.body ≠ [] :=
      Rule.body_ne_nil listed fun whole => inner.whole (by rw [symbol, whole])
    simpa using Fills.phrase symbol inner.honest listed body fills .nil

/-- A part that has been read, with the state after it. -/
structure Piece.Sound (piece : Piece) : Prop where
  holds : Matches piece.symbol piece.trees
  state : piece.state.Sound

/-- The trees of some pieces, the last one first, from left to right. -/
def treesOf (pieces : List Piece) : List Tree := (pieces.flatMap (·.trees)).reverse

theorem treesOf_cons (piece : Piece) (pieces : List Piece) :
    treesOf (piece :: pieces) = treesOf pieces ++ piece.trees.reverse := by
  simp [treesOf]

theorem treesOf_append (last first : List Piece) :
    treesOf (last ++ first) = treesOf first ++ treesOf last := by
  simp [treesOf]

/-- The lexemes of a tree are the same in any slot. -/
@[simp] theorem Slot.lexemes_dress (slot : Slot) (t : Tree) :
    (slot.dress t).lexemes = t.lexemes := by
  cases t <;> simp [Tree.lexemes]

theorem Tree.lexemesAll_append (first second : List Tree) :
    lexemesAll (first ++ second) = lexemesAll first ++ lexemesAll second := by
  simp [lexemesAll_eq_flatMap]

/-- The lexemes of trees are the same in any slot. -/
theorem Tree.lexemesAll_adopt (slot : Slot) (trees : List Tree) :
    lexemesAll (Reading.adopt slot trees).reverse = lexemesAll trees.reverse := by
  -- Trees are only dressed, one by one, and keep their lexemes.
  simp [Reading.adopt_eq_map, lexemesAll_eq_flatMap, ← List.map_reverse, List.flatMap_map]

/-- A rule changes nothing about the lexemes of the parts it derives. -/
theorem Rule.lexemesAll_wrap (r : Rule) (parts : List Tree) :
    Tree.lexemesAll (r.wrap parts) = Tree.lexemesAll parts := by
  -- The phrase has the lexemes of its parts, and a hidden one is replaced by them.
  unfold wrap
  split <;> simp [Tree.lexemesAll, Tree.lexemes]

/-- The pieces after which a state is reached are sound, and so is the state. -/
theorem sound_stateAfter {pieces : List Piece} (sound : ∀ piece ∈ pieces, piece.Sound) :
    (stateAfter pieces).Sound := by
  -- The state is that of the last piece, or the first one of all.
  cases pieces with
  | nil => exact State.sound_start
  | cons piece rest => exact (sound piece List.mem_cons_self).state

namespace Reading

/-- How pieces are taken for some slots, the last one first, and the trees that this gives. -/
inductive Taken : List Slot → List Piece → List Tree → Prop where
  | done : Taken [] [] []
  /-- A comment goes along as it is. -/
  | comment {slot : Slot} {slots : List Slot} {piece : Piece} {front : List Piece}
      {added : List Tree} : piece.symbol = none → Taken (slot :: slots) front added →
      Taken (slot :: slots) (piece :: front) (piece.trees ++ added)
  /-- Any other piece is adopted by its slot. -/
  | part {slot : Slot} {slots : List Slot} {piece : Piece} {front : List Piece}
      {added : List Tree} : piece.symbol = some slot.symbol → Taken slots front added →
      Taken (slot :: slots) (piece :: front) (adopt slot piece.trees ++ added)

/-- The pieces taken for some slots are the last ones, and their trees come after those before. -/
theorem taken_of_take {slots : List Slot} {pieces below : List Piece} {trees all : List Tree}
    {favour total : Nat} (taken : take slots pieces trees favour = some (all, total, below)) :
    ∃ front added, pieces = front ++ below ∧ all = trees ++ added ∧ Taken slots front added := by
  -- Each piece adds its trees behind those that are there.
  fun_induction take slots pieces trees favour with
  | case1 =>
    cases taken
    exact ⟨[], [], rfl, by simp, .done⟩
  | case2 => cases taken
  | case3 slot slots piece pieces trees favour symbol ih =>
    obtain ⟨front, added, rfl, rfl, rest⟩ := ih taken
    exact ⟨piece :: front, piece.trees ++ added, rfl, by simp, .comment symbol rest⟩
  | case4 slot slots piece pieces trees favour symbol ih =>
    obtain ⟨front, added, rfl, rfl, rest⟩ := ih taken
    exact ⟨piece :: front, adopt slot piece.trees ++ added, rfl, by simp, .part symbol rest⟩
  | case5 => cases taken

/-- How the last pieces are joined by a production: comments at the end stay outside, and a phrase
of the pieces that are taken stands in their place. -/
inductive Joins (p : Production) : List Piece → List Piece → Prop where
  | intro {trailing front below : List Piece} {added : List Tree} {favour : Nat} :
      (∀ piece ∈ (front ++ below).head?, piece.symbol.isSome) → Taken p.body.reverse front added →
      Joins p (trailing ++ (front ++ below))
        (let state := (stateAfter below).advance (.rule p.head)
        trailing.map (fun piece => { piece with state := state }) ++
          ⟨some (.rule p.head), (p.head.wrap added.reverse).reverse, favour, state⟩ :: below)

/-- Pieces are joined only in this way. -/
theorem joins_of_join {p : Production} {pieces after : List Piece}
    (joined : join p pieces = some after) : Joins p pieces after := by
  unfold join at joined
  extract_lets trailing at joined
  have last : ∀ piece ∈ (pieces.dropWhile fun piece => piece.symbol.isNone).head?,
      piece.symbol.isSome := by
    -- What is not trailing does not start with a comment.
    intro piece first
    have other := List.head?_dropWhile_not (fun piece : Piece => piece.symbol.isNone) pieces
    rw [Option.mem_def.mp first] at other
    simpa using other
  have split_pieces : pieces = trailing ++ pieces.dropWhile fun piece => piece.symbol.isNone :=
    (List.takeWhile_append_dropWhile).symm
  generalize pieces.dropWhile (fun piece => piece.symbol.isNone) = others at *
  split at joined
  · cases joined
  · rename_i trees favour below taken
    obtain ⟨front, added, rfl, same, rest⟩ := taken_of_take taken
    -- The new piece has the parts in reverse, wrapped up unless its rule is hidden.
    have wrapped : (if p.head.isHidden then trees else [.node none p.head trees.reverse]) =
        (p.head.wrap added.reverse).reverse := by
      unfold Rule.wrap
      split <;> simp [same]
    simp only [wrapped, Option.some.injEq] at joined
    rw [split_pieces, ← joined]
    exact .intro last rest

/-- Sound pieces taken for inner slots fill them. -/
theorem Taken.fills {slots : List Slot} {front : List Piece} {added : List Tree}
    (taken : Taken slots front added) (sound : ∀ piece ∈ front, piece.Sound)
    (inner : ∀ slot ∈ slots, slot.Inner) :
    Fills slots.reverse added.reverse ∧
      Tree.lexemesAll added.reverse = Tree.lexemesAll (treesOf front) := by
  -- Slots and pieces are gone through from the last one on, so every piece comes before the others.
  induction taken with
  | done => exact ⟨.nil, rfl⟩
  | @comment slot slots piece front added symbol rest ih =>
    obtain ⟨here, later⟩ := List.forall_mem_cons.mp sound
    obtain ⟨fills, same⟩ := ih later inner
    have holds := here.holds
    rw [symbol] at holds
    constructor
    · generalize piece.trees = trees at holds
      cases holds with
      | comment comment nonempty => simpa using fills.append (.comment comment nonempty .nil)
    · simp [treesOf_cons, Tree.lexemesAll_append, same]
  | @part slot slots piece front added symbol rest ih =>
    obtain ⟨here, later⟩ := List.forall_mem_cons.mp sound
    obtain ⟨own, others⟩ := List.forall_mem_cons.mp inner
    obtain ⟨fills, same⟩ := ih later others
    have holds := here.holds
    rw [symbol] at holds
    constructor
    · simpa using fills.append (holds.fills own)
    · simp [treesOf_cons, Tree.lexemesAll_append, Tree.lexemesAll_adopt, same]

/-- Joining pieces keeps them sound and their lexemes in place. -/
theorem sound_join {p : Production} {pieces after : List Piece}
    (joined : join p pieces = some after) (listed : p.Listed)
    (sound : ∀ piece ∈ pieces, piece.Sound) :
    (∀ piece ∈ after, piece.Sound) ∧
      Tree.lexemesAll (treesOf after) = Tree.lexemesAll (treesOf pieces) := by
  obtain @⟨trailing, front, below, added, favour, -, taken⟩ := joins_of_join joined
  obtain ⟨trailing_sound, others_sound⟩ := List.forall_mem_append.mp sound
  obtain ⟨front_sound, below_sound⟩ := List.forall_mem_append.mp others_sound
  obtain ⟨fills, same⟩ := taken.fills front_sound fun slot member =>
    listed.inner (List.mem_reverse.mp member)
  rw [List.reverse_reverse] at fills
  have state : ((stateAfter below).advance (.rule p.head)).Sound :=
    (sound_stateAfter below_sound).advance _
  constructor
  · refine List.forall_mem_append.mpr ⟨?_, List.forall_mem_cons.mpr ⟨?_, below_sound⟩⟩
    · -- The comments behind the phrase only come to stand in another state.
      intro piece member
      obtain ⟨old, inside, rfl⟩ := List.mem_map.mp member
      exact ⟨(trailing_sound old inside).holds, state⟩
    · exact ⟨.phrase listed fills, state⟩
  · have trees : treesOf (trailing.map fun piece =>
        { piece with state := (stateAfter below).advance (.rule p.head) }) =
        treesOf trailing := by
      simp [treesOf, List.flatMap_map]
    dsimp only
    rw [treesOf_append, treesOf_append, treesOf_append, treesOf_cons, trees]
    simp [Tree.lexemesAll_append, Rule.lexemesAll_wrap, same]

end Reading

end TypeGraph.Java
