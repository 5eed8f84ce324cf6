import Mathlib.Logic.Relation
import TypeGraph.Proofs.Java.Faults
import TypeGraph.Proofs.Java.Reading

/-! What holds of every reading on the way holds of the tree that is read in the end. -/

namespace TypeGraph.Java

namespace Reading

/-- What one step can make of a reading. -/
inductive Move (r : Reading) : Reading → Prop where
  /-- A comment is taken. -/
  | comment {x : Lexeme} {rest : Remaining} : r.rest.Starts x rest → x.terminal.isComment →
      r.Move ⟨pushComment r.pieces x, none, rest⟩
  /-- The next lexeme is looked at. -/
  | see {x : Lexeme} {rest : Remaining} : r.rest.Starts x rest →
      r.Move { r with ahead := some (x, rest) }
  /-- The lexeme under consideration goes by another name. -/
  | rename {x : Lexeme} {rest : Remaining} {t : Terminal} : r.ahead = some (x, rest) →
      x.terminal.PassesFor t →
      r.Move { r with ahead := some ({ x with terminal := t }, rest) }
  /-- The lexeme under consideration is taken. -/
  | shift {x : Lexeme} {rest : Remaining} {t : Terminal} : r.ahead = some (x, rest) →
      x.terminal.PassesFor t → r.Move ⟨push r.pieces t x, none, rest⟩
  /-- The last pieces are joined, and the lexeme after them may have to be looked at again. -/
  | join {p : Production} {pieces : List Piece} {t : Terminal}
      {ahead : Option (Lexeme × Remaining)} : p ∈ (r.state.moves t).reductions →
      join p r.pieces = some pieces → ahead = none ∨ ahead = r.ahead →
      r.Move ⟨pieces, ahead, r.rest⟩

/-- Any number of moves. -/
abbrev Moves : Reading → Reading → Prop := Relation.ReflTransGen Move

/-- Looking ahead takes comments and looks at the lexeme after them. -/
theorem moves_of_look {r s : Reading} {ahead : Lexeme × Remaining}
    (look : r.look = .ok (s, ahead)) : r.Moves { s with ahead := some ahead } := by
  -- Every turn takes a comment or ends with the lexeme that it looks at.
  unfold Reading.look at look
  generalize ' ' :: r.rest.chars = bound at look
  fun_induction lookWithin bound r with
  | case1 => cases look
  | case2 => cases look
  | case3 r _ bound x rest found comment ih =>
    exact .head (.comment (Remaining.starts_next found) comment) (ih look)
  | case4 r _ bound x rest found =>
    cases look
    exact .single (.see (Remaining.starts_next found))

/-- Only a word goes by another name, which is that of an identifier. -/
theorem passesFor_of_moves (r : Reading) (x : Lexeme) : x.terminal.PassesFor (r.moves x).1 := by
  unfold Reading.moves
  dsimp only
  split
  · exact .inl rfl
  · rename_i word
    -- The name is changed only where the lexeme is one of the words.
    have listed : Terminal.words.contains x.terminal := by
      simp only [Bool.or_eq_true, not_or] at word
      simpa using word.2
    exact .inr ⟨by rw [Terminal.isName, listed, Bool.or_true], rfl⟩

/-- Joining by a reduction is a move, whatever lexeme is under consideration. -/
theorem move_of_joined {r : Reading} {x : Lexeme} {entry : Production × List Piece}
    (joined : entry ∈ (r.moves x).2.reductions.filterMap fun p =>
      (Reading.join p r.pieces).map (p, ·))
    {seen ahead : Option (Lexeme × Remaining)} (kept : ahead = none ∨ ahead = seen) :
    Move ⟨r.pieces, seen, r.rest⟩ ⟨entry.2, ahead, r.rest⟩ := by
  -- The join was by one of the productions that the state reduces by at the lexeme.
  obtain ⟨p, reduction, made⟩ := List.mem_filterMap.mp joined
  obtain ⟨pieces, joins, rfl⟩ := Option.map_eq_some_iff.mp made
  have reduction : ∃ t, p ∈ (r.state.moves t).reductions := by
    unfold Reading.moves at reduction
    dsimp only at reduction
    split at reduction <;> exact ⟨_, reduction⟩
  obtain ⟨t, reduction⟩ := reduction
  exact .join reduction joins kept

/-- A step leads to readings that moves lead to. -/
theorem moves_of_step {r next : Reading} {others : List Reading}
    (step : r.step = .onward next others) : ∀ s ∈ next :: others, r.Moves s := by
  unfold Reading.step at step
  split at step
  · split at step
    · cases step
    · rename_i look
      cases step
      simpa using moves_of_look look
  · rename_i x rest ahead
    dsimp -zeta only at step
    extract_lets joined at step
    have of_joined : ∀ entries, entries ⊆ joined → ∀ s ∈ entries.reverse.map fun entry =>
        (⟨entry.2, none, r.rest⟩ : Reading), r.Moves s := by
      intro entries among s member
      obtain ⟨entry, inside, rfl⟩ := List.mem_map.mp member
      exact .single (move_of_joined (among (List.mem_reverse.mp inside)) (.inl rfl))
    split at step
    · cases step
      exact List.forall_mem_cons.mpr
        ⟨.single (.shift ahead (r.passesFor_of_moves x)), of_joined joined (List.Subset.refl _)⟩
    · split at step
      · cases step
      · rename_i p pieces later _ first
        cases step
        have here : (p, pieces) ∈ joined := by rw [first]; exact List.mem_cons_self
        have among : later ⊆ joined := by rw [first]; exact List.subset_cons_self _ _
        refine List.forall_mem_cons.mpr ⟨?_, of_joined later among⟩
        -- The first way to join keeps the lexeme, under the name that the moves are about.
        exact .head (.rename ahead (r.passesFor_of_moves x))
          (.single (move_of_joined here (.inr rfl)))
      · cases step

/-- The tree of a finished reading has the trees of the reading as its parts. -/
theorem tree_of_step {r : Reading} {tree : Tree} {favour : Nat}
    (step : r.step = .finished tree favour) : tree = .node none .program r.trees := by
  -- A reading ends only at a whole text, and its tree is put together on the spot.
  unfold Reading.step at step
  split at step
  · split at step <;> cases step
  · dsimp -zeta only at step
    extract_lets joined at step
    split at step
    · cases step
    · split at step
      · rename_i _ tree favour found
        cases step
        obtain ⟨p, -, whole⟩ := List.exists_of_findSome?_eq_some found
        unfold whole? at whole
        split at whole <;> cases whole
        rfl
      · cases step
      · cases step

/-- A reading whose parts the grammar derives, with all lexemes in the order of the text. -/
structure Sound (r : Reading) : Prop where
  pieces : ∀ piece ∈ r.pieces, piece.Sound
  /-- The lexemes of the finished parts lie one behind the other. -/
  ordered : (Tree.lexemesAll r.trees).Pairwise Lexeme.Before
  /-- They lie before the text after the finished parts. -/
  behind : ∀ x ∈ Tree.lexemesAll r.trees, x.stop.offset ≤ r.rest.place.offset
  /-- The lexeme under consideration lies at the start of that text. -/
  ahead : ∀ x rest, r.ahead = some (x, rest) → r.rest.Starts x rest

/-- The first reading is sound. -/
theorem sound_start (text : List Char) : (start text).Sound where
  pieces := by simp [start]
  ordered := by simp [start, trees, Tree.lexemesAll]
  behind := by simp [start, trees, Tree.lexemesAll]
  ahead := by simp [start]

/-- A sound reading stays sound when a lexeme of the text becomes its next part. -/
theorem Sound.grow {r : Reading} (sound : r.Sound) {x : Lexeme} {rest : Remaining}
    (starts : r.rest.Starts x rest) {piece : Piece} {label : Label}
    (part : piece.trees = [.leaf none label x]) (holds : piece.Sound) :
    Sound ⟨piece :: r.pieces, none, rest⟩ := by
  have lexemes : Tree.lexemesAll (treesOf (piece :: r.pieces)) =
      Tree.lexemesAll r.trees ++ [x] := by
    rw [treesOf_cons, Tree.lexemesAll_append, part]
    rfl
  have stop : x.stop.offset = rest.place.offset := by rw [starts.stop]
  have length := x.offset_stop
  have start := starts.start
  refine ⟨List.forall_mem_cons.mpr ⟨holds, sound.pieces⟩, ?_, ?_, by simp⟩
  · -- All earlier lexemes end before the remaining text, in which the new one lies.
    change (Tree.lexemesAll (treesOf (piece :: r.pieces))).Pairwise _
    rw [lexemes]
    refine List.pairwise_append.mpr ⟨sound.ordered, List.pairwise_singleton _ _, ?_⟩
    intro y before z last
    have lies := sound.behind y before
    obtain rfl := List.mem_singleton.mp last
    exact Nat.le_trans lies start
  · -- The remaining text is now what follows the new lexeme.
    change ∀ y ∈ Tree.lexemesAll (treesOf (piece :: r.pieces)), _
    rw [lexemes]
    intro y member
    rcases List.mem_append.mp member with before | last
    · have lies := sound.behind y before
      dsimp only
      omega
    · obtain rfl := List.mem_singleton.mp last
      exact Nat.le_of_eq stop

/-- A move keeps a reading sound. -/
theorem Sound.move {r s : Reading} (sound : r.Sound) (move : r.Move s) : s.Sound := by
  -- A lexeme grows the reading, and joins and names leave the lexemes as they are.
  have state : r.state.Sound := sound_stateAfter sound.pieces
  cases move with
  | @comment x rest starts comment =>
    have nonempty : x.text ≠ [] := starts.nonempty fun last =>
      absurd comment (by rw [last]; decide)
    exact sound.grow starts rfl ⟨.comment comment nonempty, state⟩
  | see starts =>
    refine ⟨sound.pieces, sound.ordered, sound.behind, fun x rest seen => ?_⟩
    cases seen
    exact starts
  | rename ahead inner =>
    refine ⟨sound.pieces, sound.ordered, sound.behind, fun x rest seen => ?_⟩
    cases seen
    exact (sound.ahead _ _ ahead).renamed _ inner
  | @shift x rest t ahead inner =>
    have starts := (sound.ahead x rest ahead).renamed t inner
    exact sound.grow starts rfl ⟨.lexeme starts.nonempty, state.advance _⟩
  | @join p pieces t ahead reduction joined kept =>
    have listed : p.Listed := state.complete (State.complete_of_mem_reductions reduction)
    obtain ⟨pieces_sound, same⟩ := sound_join joined listed sound.pieces
    refine ⟨pieces_sound, ?_, ?_, fun x rest seen => ?_⟩
    · exact same.symm ▸ sound.ordered
    · exact same.symm ▸ sound.behind
    · rcases kept with rfl | rfl
      · cases seen
      · exact sound.ahead x rest seen

/-- What every move keeps is kept by any number of moves. -/
theorem holds_of_moves {good : Reading → Prop} (move : ∀ r s, good r → r.Move s → good s)
    {r s : Reading} (holds : good r) (moves : r.Moves s) : good s := by
  induction moves with
  | refl => exact holds
  | tail _ next ih => exact move _ _ ih next

end Reading

/-- The trees of a sound piece are derived, unless they stand for the end or the whole of a
text. -/
theorem Matches.derived {symbol : Option Symbol} {trees : List Tree}
    (holds : Matches symbol trees) {t : Tree} (member : t ∈ trees)
    (last : t.label ≠ .lexeme .endOfText) (whole : ¬t.isRule .program) : Derived t := by
  -- A piece is a lexeme, a phrase of its own, or the parts of a hidden phrase.
  cases holds with
  | comment _ nonempty => exact List.mem_singleton.mp member ▸ .leaf (by simp) nonempty
  | @lexeme u x nonempty =>
    obtain rfl := List.mem_singleton.mp member
    exact .leaf (by simp) (nonempty fun same => last (by rw [same]; rfl))
  | @phrase p inner listed fills =>
    rw [List.mem_reverse] at member
    unfold Rule.wrap at member
    split at member
    · exact fills.derived t member
    · obtain rfl := List.mem_singleton.mp member
      have body : p.body ≠ [] := Rule.body_ne_nil listed fun same =>
        whole (by simp [Tree.isRule, Tree.label, same])
      exact .node listed body fills fills.derived

/-- A tree of a whole text: its parts are derived, but for the end of the text, and its lexemes
lie in the order of the text. -/
structure Tree.Sound (t : Tree) : Prop where
  file : t.isRule .program
  parts : ∀ part ∈ t.parts, part.label ≠ .lexeme .endOfText → ¬part.isRule .program →
    Derived part
  ordered : t.lexemes.Pairwise Lexeme.Before

/-- The parts of a sound reading make up a sound tree. -/
theorem Reading.Sound.tree {r : Reading} (sound : r.Sound) :
    (Tree.node none .program r.trees).Sound where
  file := by simp [Tree.isRule, Tree.label]
  parts := by
    intro part member
    obtain ⟨piece, inside, among⟩ := List.mem_flatMap.mp (List.mem_reverse.mp member)
    exact (sound.pieces piece inside).holds.derived among
  ordered := sound.ordered

namespace Search

/-- A search all of whose readings are good, as are those that its tree comes from. -/
structure Within (good : Reading → Prop) (s : Search) : Prop where
  pool : ∀ r ∈ s.pool, good r
  best : ∀ tree favour, s.best = some (tree, favour) →
    ∃ r, good r ∧ tree = .node none .program r.trees

/-- The rearmost reading and the others are all the readings. -/
theorem pool_of_rearmost {pool before after : List Reading} {r : Reading}
    (found : rearmost? pool = some (before, r, after)) : pool = before ++ r :: after := by
  -- The search splits the pool at the reading that it finds.
  induction pool generalizing before r after with
  | nil => cases found
  | cons first rest ih =>
    unfold rearmost? at found
    split at found
    · rename_i later
      split at found
      · cases found
        rw [ih later]
        rfl
      · cases found
        rfl
    · cases found
      rfl

/-- Placing a reading between others adds none but that one. -/
theorem mem_of_mem_place {before after : List Reading} {r s : Reading}
    (member : s ∈ place before r after) : s ∈ before ++ r :: after := by
  -- A reading at the same place may be dropped for the new one or kept instead of it,
  -- so every reading that is left has been in the pool or is the new one.
  unfold place at member
  split at member
  · rename_i i _
    rcases List.mem_append.mp member with changed | later
    · obtain ⟨k, bound, same⟩ := List.getElem_of_mem changed
      rw [List.getElem_modify] at same
      split at same
      · split at same
        · simp [← same]
        · exact List.mem_append_left _ (same ▸ List.getElem_mem _)
      · exact List.mem_append_left _ (same ▸ List.getElem_mem _)
    · exact List.mem_append_right _ (List.mem_cons_of_mem _ later)
  · split at member
    · rename_i other found
      have inside := List.mem_of_find?_eq_some found
      rcases List.mem_append.mp member with here | later
      · exact List.mem_append_left _ here
      · rcases List.mem_cons.mp later with rfl | later
        · split <;> simp [inside]
        · simp [(List.mem_filter.mp later).1]
    · exact member

variable {good : Reading → Prop} (move : ∀ r s, good r → r.Move s → good s)
include move

/-- A step leads to good readings only, if moves do. -/
theorem Within.step {s next : Search} (within : s.Within good) (step : s.step? = some next) :
    next.Within good := by
  obtain ⟨⟨before, r, after⟩, found, made⟩ := Option.map_eq_some_iff.mp step
  have pool := within.pool
  rw [pool_of_rearmost found] at pool
  obtain ⟨before_good, r_good, after_good⟩ := by
    simpa only [List.forall_mem_append, List.forall_mem_cons] using pool
  dsimp only at made
  split at made
  · rename_i onward others progress
    subst made
    -- The reading is replaced by those that its step leads to.
    have followed := fun s member =>
      Reading.holds_of_moves move r_good (Reading.moves_of_step progress s member)
    obtain ⟨onward_good, others_good⟩ := List.forall_mem_cons.mp followed
    refine ⟨List.forall_mem_append.mpr ⟨fun s member => ?_, others_good⟩, within.best⟩
    have among := mem_of_mem_place member
    simp only [List.mem_append, List.mem_cons] at among
    rcases among with member | rfl | member
    · exact before_good s member
    · exact onward_good
    · exact after_good s member
  · rename_i tree favour progress
    subst made
    refine ⟨List.forall_mem_append.mpr ⟨before_good, after_good⟩, fun best top kept => ?_⟩
    have here : ∃ r, good r ∧ tree = .node none .program r.trees :=
      ⟨r, r_good, Reading.tree_of_step progress⟩
    -- The tree that is kept is the new one or has been kept before.
    unfold prefer at kept
    split at kept
    · split at kept
      · cases kept
        exact here
      · exact within.best best top kept
    · cases kept
      exact here
  · -- A reading that cannot go on is given up, and the others are as before.
    subst made
    exact ⟨List.forall_mem_append.mpr ⟨before_good, after_good⟩, within.best⟩

/-- Any number of steps lead to good readings only, if moves do. -/
theorem Within.run {s : Search} (within : s.Within good) (fuel : Nat) :
    (run fuel s).Within good := by
  -- Each unit of fuel pays for one step.
  induction fuel generalizing s with
  | zero => exact within
  | succ fuel ih =>
    unfold Search.run
    split
    · rename_i step
      exact ih (within.step move step)
    · exact within

end Search

/-- The tree of a stuck reading is marked. -/
theorem Reading.mark_faulty (r : Reading) : r.faulty.marked.mark := by
  -- What cannot be read is put at the end as a fault.
  have last (trees : List Tree) (t : Tree) : t ∈ trees ++ [t] := List.mem_concat_self
  unfold faulty
  dsimp only
  split
  · exact Tree.mark_of_part (last _ _) rfl
  · split <;> exact Tree.mark_of_part (last _ _) rfl

/-- A tree that is read comes from a reading with all that holds of the first reading and is kept
by moves. -/
theorem exists_reading_of_read {text : List Char} {tree : Tree} (accepted : read text = .ok tree)
    (good : Reading → Prop) (start : good (.start text))
    (move : ∀ r s, good r → r.Move s → good s) :
    ∃ r, good r ∧ tree = .node none .program r.trees := by
  obtain ⟨rfl, faultless⟩ := read_eq_ok_iff.mp accepted
  have within : (search text).Within good :=
    Search.Within.run move ⟨by simpa using start, by simp⟩ _
  unfold parse Search.tree at faultless ⊢
  split
  · rename_i best
    exact within.best _ _ best
  · -- A reading that cannot go on would have left a fault.
    rename_i stuck best foremost
    simp only [best, foremost] at faultless
    exact absurd stuck.mark_faulty (by simp [faultless])
  · exact ⟨.start text, start, rfl⟩

/-- A tree that is read is sound. -/
theorem sound_of_read {text : List Char} {tree : Tree} (accepted : read text = .ok tree) :
    tree.Sound := by
  obtain ⟨r, sound, rfl⟩ := exists_reading_of_read accepted Reading.Sound
    (Reading.sound_start text) fun _ _ sound move => sound.move move
  exact sound.tree

end TypeGraph.Java
