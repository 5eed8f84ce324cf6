import Mathlib.Data.List.Flatten
import TypeGraph.Proofs.Java.Search

/-! The lexemes of a source file tile its text, so a phrase covers all that lies between its ends. -/

namespace TypeGraph.Java

open Text

/-- Whether lexemes lie one behind the other from a place on, with nothing between them but blanks
of their own. -/
def Tiled (place : Position) (xs : List Lexeme) : Prop :=
  ∀ before x after, xs = before ++ x :: after →
    x.start = place.advance (before.flatMap Lexeme.whole ++ x.gap)

theorem Tiled.nil (place : Position) : Tiled place [] := by
  intro before x after same
  simp at same

/-- One more lexeme lies behind those before it. -/
theorem Tiled.concat {place : Position} {xs : List Lexeme} (tiled : Tiled place xs) {x : Lexeme}
    (behind : x.start = place.advance (xs.flatMap Lexeme.whole ++ x.gap)) :
    Tiled place (xs ++ [x]) := by
  -- Either the new lexeme is asked for or one before it, behind which there is now one more.
  intro before y after same
  rcases List.eq_nil_or_concat after with rfl | ⟨after', z, rfl⟩
  · obtain ⟨rfl, last⟩ := List.append_inj' same rfl
    obtain rfl := List.singleton_inj.mp last
    exact behind
  · rw [List.concat_eq_append, ← List.cons_append, ← List.append_assoc] at same
    exact tiled before y after' (List.append_inj' same rfl).1

namespace Reading

/-- A reading whose lexemes tile the text as far as it has been read. -/
structure Tiles (text : Remaining) (r : Reading) : Prop where
  /-- The lexemes and what remains are the text. -/
  chars : text.chars = (Tree.lexemesAll r.trees).flatMap Lexeme.whole ++ r.rest.chars
  /-- What remains starts where the lexemes end. -/
  place : r.rest.place = text.place.advance ((Tree.lexemesAll r.trees).flatMap Lexeme.whole)
  tiled : Tiled text.place (Tree.lexemesAll r.trees)

/-- Before anything is read, all of the text remains. -/
theorem tiles_start (text : List Char) : (start text).Tiles (.ofText text) where
  chars := rfl
  place := rfl
  tiled := Tiled.nil _

/-- A lexeme that becomes the next part of a reading is the next tile. -/
theorem Tiles.grow {text : Remaining} {r : Reading} (tiles : r.Tiles text) {x : Lexeme}
    {rest : Remaining} (starts : r.rest.Starts x rest) {piece : Piece} {label : Label}
    (part : piece.trees = [.leaf none label x]) :
    Tiles text ⟨piece :: r.pieces, none, rest⟩ := by
  have lexemes : Tree.lexemesAll (treesOf (piece :: r.pieces)) =
      Tree.lexemesAll r.trees ++ [x] := by
    rw [treesOf_cons, Tree.lexemesAll_append, part]
    rfl
  have whole : (Tree.lexemesAll r.trees ++ [x]).flatMap Lexeme.whole =
      (Tree.lexemesAll r.trees).flatMap Lexeme.whole ++ x.whole := by
    simp
  -- The place at which the text goes on is told by all lexemes before.
  have start : x.start =
      text.place.advance ((Tree.lexemesAll r.trees).flatMap Lexeme.whole ++ x.gap) := by
    rw [Position.advance_append, ← tiles.place]
    exact starts.place
  refine ⟨?_, ?_, ?_⟩
  · change _ = (Tree.lexemesAll (treesOf (piece :: r.pieces))).flatMap _ ++ _
    rw [lexemes, whole, tiles.chars, starts.chars, List.append_assoc]
  · change _ = text.place.advance ((Tree.lexemesAll (treesOf (piece :: r.pieces))).flatMap _)
    rw [lexemes, whole, starts.stop, Lexeme.stop, start, Lexeme.whole, ← Position.advance_append,
      List.append_assoc]
  · change Tiled _ (Tree.lexemesAll (treesOf (piece :: r.pieces)))
    rw [lexemes]
    exact tiles.tiled.concat start

/-- Moves only ever add the next tile. -/
theorem tiles_move {text : Remaining} {r s : Reading} (holds : r.Sound ∧ r.Tiles text)
    (move : r.Move s) : s.Sound ∧ s.Tiles text := by
  obtain ⟨sound, tiles⟩ := holds
  refine ⟨sound.move move, ?_⟩
  cases move with
  | comment starts => exact tiles.grow starts rfl
  | see | rename => exact ⟨tiles.chars, tiles.place, tiles.tiled⟩
  | @shift x rest t ahead passes =>
    exact tiles.grow ((sound.ahead x rest ahead).renamed t passes) rfl
  | @join p pieces t ahead reduction joined =>
    -- The lexemes stay in place, whatever they are parts of.
    have state : r.state.Sound := sound_stateAfter sound.pieces
    have listed : p.Listed := state.complete (State.complete_of_mem_reductions reduction)
    have same : Tree.lexemesAll (treesOf pieces) = Tree.lexemesAll r.trees :=
      (sound_join joined listed sound.pieces).2
    refine ⟨?_, ?_, ?_⟩
    · exact same.symm ▸ tiles.chars
    · exact same.symm ▸ tiles.place
    · exact same.symm ▸ tiles.tiled

end Reading

/-- What comes before the text that is read: a byte order mark or nothing. -/
theorem exists_mark (text : List Char) :
    ∃ mark, text = mark ++ (Remaining.ofText text).chars ∧
      (Remaining.ofText text).place = Position.start.advance mark := by
  -- The mark counts as a character before the text, so places are those in the whole file.
  unfold Remaining.ofText
  split
  · exact ⟨['\uFEFF'], rfl, rfl⟩
  · exact ⟨[], rfl, rfl⟩

/-- The lexemes of a tree that is read tile its text, up to what is left out at both ends. -/
theorem tiled_of_read {text : List Char} {tree : Tree} (accepted : read text = .ok tree) :
    ∃ mark rest, text = mark ++ (tree.lexemes.flatMap Lexeme.whole ++ rest) ∧
      Tiled (Position.start.advance mark) tree.lexemes := by
  -- What holds of the reading in the end is what its first state has and every move keeps.
  obtain ⟨r, ⟨-, tiles⟩, rfl⟩ := exists_reading_of_read accepted
    (fun r => r.Sound ∧ r.Tiles (.ofText text))
    ⟨Reading.sound_start text, Reading.tiles_start text⟩ fun _ _ => Reading.tiles_move
  obtain ⟨mark, cut, place⟩ := exists_mark text
  refine ⟨mark, r.rest.chars, ?_, place ▸ tiles.tiled⟩
  rw [cut]
  exact congrArg (mark ++ ·) tiles.chars

mutual
/-- The last lexeme of a tree is the last of all its lexemes. -/
theorem Tree.last?_eq_getLast? (t : Tree) : t.last? = t.lexemes.getLast? := by
  match t with
  | .leaf _ _ _ => rfl
  | .node _ _ parts => exact lastAmong?_eq_getLast? parts
/-- The last lexeme of several trees is the last of all their lexemes. -/
theorem Tree.lastAmong?_eq_getLast? (parts : List Tree) :
    lastAmong? parts = (lexemesAll parts).getLast? := by
  match parts with
  | [] => rfl
  | t :: rest =>
    simp only [lastAmong?, lexemesAll, List.getLast?_append, last?_eq_getLast? t,
      lastAmong?_eq_getLast? rest]
    cases (lexemesAll rest).getLast? <;> rfl
end

/-- Whether a tree covers a stretch of a text: it starts with a lexeme before which just what comes
before the stretch lies, and ends with one behind which just what comes after the stretch lies. -/
def Tree.Covers (t : Tree) (text stretch : List Char) : Prop :=
  ∃ before after first last, text = before ++ stretch ++ after ∧
    t.first? = some first ∧ first.start = Position.start.advance before ∧
    t.last? = some last ∧ last.stop = Position.start.advance (before ++ stretch)

/-- The text of a tree is that of its lexemes without the blanks before the first one. -/
theorem Tree.gap_text {t : Tree} {first : Lexeme} {more : List Lexeme}
    (lexemes : t.lexemes = first :: more) :
    first.gap ++ t.text = t.lexemes.flatMap Lexeme.whole := by
  simp only [text, lexemes, List.flatMap_cons, Lexeme.whole, List.append_assoc]
  rfl

/-- A tree whose lexemes are some of those of a tree that is read, one behind the other, covers its
own text. -/
theorem covers_of_read {text : List Char} {tree t : Tree} (accepted : read text = .ok tree)
    (within : t.lexemes <:+: tree.lexemes) (nonempty : t.lexemes ≠ []) :
    t.Covers text t.text := by
  obtain ⟨mark, rest, cut, tiled⟩ := tiled_of_read accepted
  obtain ⟨pre, post, same⟩ := within
  obtain ⟨first, more, starts⟩ := List.exists_cons_of_ne_nil nonempty
  obtain ⟨front, last, ends⟩ := (List.eq_nil_or_concat t.lexemes).resolve_left nonempty
  rw [List.concat_eq_append] at ends
  have start := tiled pre first (more ++ post) (by rw [← same, starts]; simp)
  have stop := tiled (pre ++ front) last post (by rw [← same, ends]; simp)
  -- The text goes on from the blanks before the first lexeme to the end of the last one.
  have whole := Tree.gap_text starts
  have whole' : t.lexemes.flatMap Lexeme.whole =
      front.flatMap Lexeme.whole ++ (last.gap ++ last.text) := by
    simp [ends, Lexeme.whole]
  refine ⟨mark ++ pre.flatMap Lexeme.whole ++ first.gap, post.flatMap Lexeme.whole ++ rest, first,
    last, ?_, ?_, ?_, ?_, ?_⟩
  · rw [cut, ← same]
    simp only [List.flatMap_append, ← whole, List.append_assoc]
  · rw [Tree.first?_eq_head?, starts, List.head?_cons]
  · rw [start, ← Position.advance_append, List.append_assoc]
  · rw [Tree.last?_eq_getLast?, ends, List.getLast?_concat]
  · rw [List.append_assoc, whole, whole', Lexeme.stop, stop, ← Position.advance_append,
      ← Position.advance_append]
    simp only [List.flatMap_append, List.append_assoc]

/-- The text of a tree lies in that of its lexemes with their blanks. -/
theorem Tree.text_sublist (t : Tree) : t.text.Sublist (t.lexemes.flatMap Lexeme.whole) := by
  cases lexemes : t.lexemes with
  | nil => simp [text, lexemes]
  | cons first more =>
    rw [← lexemes, ← gap_text lexemes]
    exact List.sublist_append_right _ _

/-- The texts of trees that lie one behind the other lie so in the text around them. -/
theorem flatMap_text_sublist {ts : List Tree} {xs : List Lexeme}
    (behind : (ts.flatMap Tree.lexemes).Sublist xs) :
    (ts.flatMap Tree.text).Sublist (xs.flatMap Lexeme.whole) := by
  -- Leaving out the blanks before each tree leaves the text of the tree.
  have each : (ts.flatMap Tree.text).Sublist
      (ts.flatMap fun t => t.lexemes.flatMap Lexeme.whole) :=
    List.Sublist.flatMap_right ts fun t _ => t.text_sublist
  rw [← List.flatMap_assoc] at each
  exact each.trans (behind.flatMap _)

end TypeGraph.Java
