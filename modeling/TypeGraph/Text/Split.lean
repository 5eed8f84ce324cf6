/-! Texts cut at every occurrence of a character. -/

namespace TypeGraph.Text

/-- The pieces of a text between separators, of which there is one more than separators. -/
def pieces (separator : Char) : List Char → List (List Char)
  | [] => [[]]
  | c :: rest =>
    if c = separator then [] :: pieces separator rest
    else match pieces separator rest with
      | [] => [[c]]
      | piece :: more => (c :: piece) :: more

/-- There is always a piece. -/
theorem pieces_ne_nil (separator : Char) (text : List Char) : pieces separator text ≠ [] := by
  -- Each character either opens a new piece or goes into the first one.
  induction text with
  | nil => simp [pieces]
  | cons c rest ih =>
    unfold pieces
    split
    · simp
    · split <;> simp

/-- No piece holds a separator. -/
theorem not_mem_pieces (separator : Char) (text : List Char) :
    ∀ piece ∈ pieces separator text, separator ∉ piece := by
  -- A separator closes a piece and goes into none.
  induction text with
  | nil => simp [pieces]
  | cons c rest ih =>
    unfold pieces
    split
    · simpa using ih
    · rename_i other
      split
      · simp [Ne.symm other]
      · rename_i first more cut
        simp only [cut, List.mem_cons, forall_eq_or_imp] at ih ⊢
        exact ⟨by simp [ih.1, Ne.symm other], ih.2⟩

/-- The pieces with separators between them are the text. -/
theorem intercalate_pieces (separator : Char) (text : List Char) :
    [separator].intercalate (pieces separator text) = text := by
  -- What was taken away at each cut is put back there.
  induction text with
  | nil => rfl
  | cons c rest ih =>
    unfold pieces
    split
    · rename_i same
      rw [List.intercalate_cons_of_ne_nil (pieces_ne_nil separator rest), ih]
      simp [same]
    · split
      · rename_i none
        exact absurd none (pieces_ne_nil separator rest)
      · rename_i first more cut
        rw [cut] at ih
        cases more with
        | nil => simpa using ih
        | cons => simpa [List.intercalate_cons_cons] using ih

/-- A text without separators is its only piece. -/
theorem pieces_of_not_mem {separator : Char} {text : List Char} (plain : separator ∉ text) :
    pieces separator text = [text] := by
  -- No character closes the piece.
  induction text with
  | nil => rfl
  | cons c rest ih =>
    simp only [List.mem_cons, not_or] at plain
    rw [pieces, if_neg (Ne.symm plain.1), ih plain.2]

/-- At a separator a text is cut into what comes before it and what comes after it. -/
theorem pieces_append_cons (separator : Char) (first rest : List Char) :
    pieces separator (first ++ separator :: rest) =
      pieces separator first ++ pieces separator rest := by
  -- The last piece of the first text is closed there and takes nothing more.
  induction first with
  | nil => simp [pieces]
  | cons c more ih =>
    rw [List.cons_append, pieces, pieces, ih]
    split
    · rfl
    · cases cut : pieces separator more with
      | nil => exact absurd cut (pieces_ne_nil separator more)
      | cons => rfl

/-- A text up to a separator is the first piece. -/
theorem pieces_append {separator : Char} {piece : List Char} (plain : separator ∉ piece)
    (rest : List Char) :
    pieces separator (piece ++ separator :: rest) = piece :: pieces separator rest := by
  rw [pieces_append_cons, pieces_of_not_mem plain, List.singleton_append]

/-- Pieces that are joined by separators are cut again at the same places. -/
theorem pieces_intercalate {separator : Char} {parts : List (List Char)} (some : parts ≠ [])
    (plain : ∀ part ∈ parts, separator ∉ part) :
    pieces separator ([separator].intercalate parts) = parts := by
  induction parts with
  | nil => exact absurd rfl some
  | cons part rest ih =>
    obtain ⟨here, later⟩ := List.forall_mem_cons.mp plain
    cases rest with
    | nil => simpa using pieces_of_not_mem here
    | cons next more =>
      rw [List.intercalate_cons_cons, List.append_assoc, List.singleton_append,
        pieces_append here, ih (by simp) later]

end TypeGraph.Text
