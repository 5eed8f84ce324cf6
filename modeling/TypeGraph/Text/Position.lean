/-! Places in a text, told by the characters, line feeds and bytes before them. -/

namespace TypeGraph.Text

/-- A place between two characters of a text. -/
structure Position where
  /-- How many characters lie before the place. -/
  offset : Nat
  /-- How many line feeds lie before the place. -/
  row : Nat
  /-- How many bytes lie between the last line feed, or the start of the text, and the place. -/
  column : Nat
deriving DecidableEq, Repr

namespace Position

/-- The place before the first character. -/
def start : Position := ⟨0, 0, 0⟩

/-- The place after one more character. -/
def step (place : Position) (c : Char) : Position :=
  if c = '\n' then ⟨place.offset + 1, place.row + 1, 0⟩
  else ⟨place.offset + 1, place.row, place.column + c.utf8Size⟩

/-- The place after a stretch of text. -/
def advance (place : Position) (text : List Char) : Position :=
  text.foldl step place

@[simp] theorem advance_nil (place : Position) : place.advance [] = place := rfl

@[simp] theorem advance_cons (place : Position) (c : Char) (text : List Char) :
    place.advance (c :: text) = (place.step c).advance text := rfl

/-- Passing two stretches in turn is passing their concatenation. -/
theorem advance_append (place : Position) (first second : List Char) :
    place.advance (first ++ second) = (place.advance first).advance second := by
  -- Both sides fold the same characters in the same order.
  simp [advance, List.foldl_append]

/-- Passing a stretch adds its length to the offset. -/
theorem offset_advance (place : Position) (text : List Char) :
    (place.advance text).offset = place.offset + text.length := by
  -- Every character, a line feed or not, adds one.
  induction text generalizing place with
  | nil => simp
  | cons c rest ih =>
    have one : (place.step c).offset = place.offset + 1 := by
      unfold step; split <;> rfl
    simp [ih, one]; omega

/-- Passing a stretch adds its number of line feeds to the row. -/
theorem row_advance (place : Position) (text : List Char) :
    (place.advance text).row = place.row + text.count '\n' := by
  -- A line feed adds one and no other character adds any.
  induction text generalizing place with
  | nil => simp
  | cons c rest ih =>
    by_cases feed : c = '\n'
    · simp [ih, step, feed]; omega
    · simp [ih, step, feed]

end Position

end TypeGraph.Text
