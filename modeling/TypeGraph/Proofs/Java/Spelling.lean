import TypeGraph.Proofs.Java.Search

/-! In the trees that are read, whatever is shown as a name is spelled like one. -/

namespace TypeGraph.Java

/-- Whether a part with some label is shown as a name or a word. -/
def Label.isName : Label → Bool
  | typeIdentifier => true
  | lexeme t => t.isName
  | _ => false

/-- Trees in which all that is shown as a name or a word is spelled like a name. -/
inductive Tree.Spelled : Tree → Prop where
  | leaf {field : Option Field} {label : Label} {x : Lexeme} :
      (label.isName → Text.IsName x.text) → Spelled (.leaf field label x)
  | node {field : Option Field} {r : Rule} {parts : List Tree} : (∀ part ∈ parts, Spelled part) →
      Spelled (.node field r parts)

/-- A part of a reading in which names are spelled like names. -/
def Piece.Spelled (piece : Piece) : Prop := ∀ t ∈ piece.trees, t.Spelled

/-- A slot shows only lexemes under another label, and only such as are spelled like names. -/
theorem Production.Listed.named {p : Production} (listed : p.Listed) {slot : Slot}
    (member : slot ∈ p.body) (shown : slot.label.isSome) :
    ∃ t, slot.symbol = .terminal t ∧ t.isName := by
  -- The slots of the grammar are looked at for a label.
  have checked : ∀ r ∈ Rule.all, ∀ p ∈ r.productions, ∀ slot ∈ p.body, slot.label.isSome →
      slot.symbol ∈ (Terminal.identifier :: Terminal.words).map .terminal := by
    decide +kernel
  obtain ⟨t, name, symbol⟩ :=
    List.mem_map.mp (checked p.head p.head.mem_all p listed slot member shown)
  refine ⟨t, symbol.symm, ?_⟩
  rcases List.mem_cons.mp name with same | word
  · rw [same]
    rfl
  · simp [Terminal.isName, word]

namespace Reading

/-- Trees are spelled as they were in a slot that shows only names under another label. -/
theorem spelled_adopt {piece : Piece} {slot : Slot} (sound : piece.Sound)
    (spelled : piece.Spelled) (symbol : piece.symbol = some slot.symbol)
    (named : slot.label.isSome → ∃ t, slot.symbol = .terminal t ∧ t.isName) :
    ∀ t ∈ adopt slot piece.trees, t.Spelled := by
  rw [adopt_eq_map]
  intro t adopted
  obtain ⟨u, inside, rfl⟩ := List.mem_map.mp adopted
  have own := spelled u inside
  cases label : slot.label with
  | none =>
    -- Without a label only the field can change.
    cases own with
    | leaf name => simpa [label] using Tree.Spelled.leaf name
    | node parts => simpa using Tree.Spelled.node parts
  | some shown =>
    -- With one, the piece is a lexeme that is spelled like a name already.
    obtain ⟨terminal, same, name⟩ := named (by simp [label])
    have holds := sound.holds
    rw [symbol, same] at holds
    generalize piece.trees = trees at holds inside
    cases holds with
    | lexeme =>
      obtain rfl := List.mem_singleton.mp inside
      cases own with
      | leaf spelling =>
        rw [Slot.dress_leaf]
        exact .leaf fun _ => spelling name

/-- Pieces taken for slots of the grammar give trees that are spelled as before. -/
theorem Taken.spelled {slots : List Slot} {front : List Piece} {added : List Tree}
    (taken : Taken slots front added) (sound : ∀ piece ∈ front, piece.Sound)
    (spelled : ∀ piece ∈ front, piece.Spelled)
    (named : ∀ slot ∈ slots, slot.label.isSome → ∃ t, slot.symbol = .terminal t ∧ t.isName) :
    ∀ t ∈ added, t.Spelled := by
  -- Comments go along as they are, and other pieces are adopted by their slots.
  induction taken with
  | done => simp
  | comment _ _ ih =>
    obtain ⟨-, sound_later⟩ := List.forall_mem_cons.mp sound
    obtain ⟨here, later⟩ := List.forall_mem_cons.mp spelled
    exact List.forall_mem_append.mpr ⟨here, ih sound_later later named⟩
  | part symbol _ ih =>
    obtain ⟨sound_here, sound_later⟩ := List.forall_mem_cons.mp sound
    obtain ⟨here, later⟩ := List.forall_mem_cons.mp spelled
    obtain ⟨own, others⟩ := List.forall_mem_cons.mp named
    exact List.forall_mem_append.mpr
      ⟨spelled_adopt sound_here here symbol own, ih sound_later later others⟩

/-- Joining pieces changes no spelling. -/
theorem spelled_join {p : Production} {pieces after : List Piece}
    (joined : join p pieces = some after) (listed : p.Listed)
    (sound : ∀ piece ∈ pieces, piece.Sound)
    (spelled : ∀ piece ∈ pieces, piece.Spelled) :
    ∀ piece ∈ after, piece.Spelled := by
  -- Only the pieces for the phrase are changed, and their trees are adopted as they are spelled.
  obtain @⟨trailing, front, below, added, favour, -, taken⟩ := joins_of_join joined
  obtain ⟨-, others_sound⟩ := List.forall_mem_append.mp sound
  obtain ⟨front_sound, -⟩ := List.forall_mem_append.mp others_sound
  obtain ⟨trailing_spelled, others_spelled⟩ := List.forall_mem_append.mp spelled
  obtain ⟨front_spelled, below_spelled⟩ := List.forall_mem_append.mp others_spelled
  have parts : ∀ t ∈ added, t.Spelled := taken.spelled front_sound front_spelled
    fun slot member => listed.named (List.mem_reverse.mp member)
  refine List.forall_mem_append.mpr ⟨?_, List.forall_mem_cons.mpr ⟨?_, below_spelled⟩⟩
  · -- The comments behind the phrase keep their trees.
    intro piece member
    obtain ⟨old, inside, rfl⟩ := List.mem_map.mp member
    exact trailing_spelled old inside
  · -- The phrase is made of the trees that have been taken.
    show ∀ t ∈ (p.head.wrap added.reverse).reverse, t.Spelled
    unfold Rule.wrap
    split
    · simpa using parts
    · simpa using Tree.Spelled.node (by simpa using parts)

/-- Moves change no spelling. -/
theorem spelled_move {r s : Reading}
    (holds : r.Sound ∧ ∀ piece ∈ r.pieces, piece.Spelled) (move : r.Move s) :
    s.Sound ∧ ∀ piece ∈ s.pieces, piece.Spelled := by
  obtain ⟨sound, spelled⟩ := holds
  refine ⟨sound.move move, ?_⟩
  cases move with
  | @comment x rest starts comment =>
    -- What is read next is spelled as it should be, a comment as well as anything else.
    have part : Tree.Spelled (.leaf none (.lexeme x.terminal) x) := .leaf starts.spelled
    exact List.forall_mem_cons.mpr ⟨List.forall_mem_singleton.mpr part, spelled⟩
  | see => exact spelled
  | rename => exact spelled
  | @shift x rest t ahead passes =>
    have starts := (sound.ahead x rest ahead).renamed t passes
    have part : Tree.Spelled (.leaf none (.lexeme t) { x with terminal := t }) :=
      .leaf starts.spelled
    exact List.forall_mem_cons.mpr ⟨List.forall_mem_singleton.mpr part, spelled⟩
  | @join p pieces t ahead reduction joined kept =>
    have state : r.state.Sound := sound_stateAfter sound.pieces
    have listed : p.Listed := state.complete (State.complete_of_mem_reductions reduction)
    exact spelled_join joined listed sound.pieces spelled

end Reading

/-- In a tree that is read, names are spelled like names. -/
theorem spelled_of_read {text : List Char} {tree : Tree} (accepted : read text = .ok tree) :
    tree.Spelled := by
  -- The tree has the trees of the last reading as its parts.
  obtain ⟨r, ⟨-, spelled⟩, rfl⟩ := exists_reading_of_read accepted
    (fun r => r.Sound ∧ ∀ piece ∈ r.pieces, piece.Spelled)
    ⟨Reading.sound_start text, by simp [Reading.start]⟩ fun _ _ => Reading.spelled_move
  apply Tree.Spelled.node
  intro part member
  obtain ⟨piece, inside, among⟩ := List.mem_flatMap.mp (List.mem_reverse.mp member)
  exact spelled piece inside part among

end TypeGraph.Java
