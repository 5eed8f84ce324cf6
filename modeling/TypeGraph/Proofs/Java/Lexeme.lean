import TypeGraph.Proofs.Text.Name

/-! Where the lexemes of a text lie, that only the end of the text is an empty one, and that names
and words are spelled like names. -/

namespace TypeGraph.Java

namespace Terminal

/-- Whether the lexemes of a terminal are spelled like names, as those of words are. -/
def isName (t : Terminal) : Bool := t == .identifier || words.contains t

/-- Whether a lexeme of one terminal may be taken for one of another: words and identifiers may. -/
def PassesFor (t other : Terminal) : Prop := t = other ∨ t.isName ∧ other.isName

/-- The end of a text is taken for nothing else. -/
theorem PassesFor.inner {t other : Terminal} (passes : t.PassesFor other)
    (inside : other ≠ .endOfText) : t ≠ .endOfText := by
  rcases passes with same | both
  · rw [same]
    exact inside
  · -- The end of the text is not spelled like a name.
    intro last
    rw [last] at both
    exact absurd both.1 (by decide)

/-- What is taken for a name is spelled like one itself. -/
theorem PassesFor.isName {t other : Terminal} (passes : t.PassesFor other) (name : other.isName) :
    t.isName := by
  rcases passes with same | both
  · rw [same]
    exact name
  · exact both.1

/-- What is spelled like a word is a word. -/
theorem isName_of_word {spelling : List Char} {t : Terminal} (word : word? spelling = some t) :
    t.isName := by
  -- The search only goes through the words of the language.
  obtain ⟨entry, found, rfl⟩ := Option.map_eq_some_iff.mp word
  obtain ⟨t, listed, rfl⟩ := List.mem_map.mp (List.mem_of_find?_eq_some found)
  simp [isName, listed]

end Terminal

namespace Lexeme

/-- Whether a lexeme ends before another one starts. -/
def Before (x y : Lexeme) : Prop := x.stop.offset ≤ y.start.offset

/-- A lexeme ends behind its start by as much as it is long. -/
theorem offset_stop (x : Lexeme) : x.stop.offset = x.start.offset + x.text.length :=
  Text.Position.offset_advance x.start x.text

/-- A lexeme that is not empty starts before the lexemes behind it. -/
theorem Before.start_lt {x y : Lexeme} (before : x.Before y) (nonempty : x.text ≠ []) :
    x.start.offset < y.start.offset := by
  -- The end lies behind the start by at least one character.
  have length : 0 < x.text.length := List.length_pos_iff.mpr nonempty
  have stop := x.offset_stop
  unfold Before at before
  omega

end Lexeme

/-- The characters of a lexeme with the blanks before it. -/
def Lexeme.whole (x : Lexeme) : List Char := x.gap ++ x.text

/-- How a lexeme lies before the text that remains after it. -/
structure Remaining.Starts (r : Remaining) (x : Lexeme) (rest : Remaining) : Prop where
  /-- The text is the lexeme with its blanks and what remains. -/
  chars : r.chars = x.whole ++ rest.chars
  /-- Only the blanks lie before the lexeme. -/
  place : x.start = r.place.advance x.gap
  /-- The remaining text follows the lexeme directly. -/
  stop : rest.place = x.stop
  /-- A lexeme of the text itself is not empty. -/
  nonempty : x.terminal ≠ .endOfText → x.text ≠ []
  /-- A name or a word is spelled like a name. -/
  spelled : x.terminal.isName → Text.IsName x.text

namespace Remaining

/-- What is cut off lies between the blanks and the rest. -/
theorem starts_cut (r : Remaining) (t : Terminal) (gap size : Nat)
    (nonempty : t ≠ .endOfText → (r.chars.drop gap).take size ≠ [])
    (spelled : t.isName → Text.IsName ((r.chars.drop gap).take size)) :
    r.Starts (r.cut t gap size).1 (r.cut t gap size).2 where
  chars := by simp only [cut, drop, Lexeme.whole, List.append_assoc, List.take_append_drop]
  place := rfl
  stop := rfl
  nonempty := nonempty
  spelled := spelled

/-- No lexeme starts before the text in which it lies. -/
theorem Starts.start {r rest : Remaining} {x : Lexeme} (starts : r.Starts x rest) :
    r.place.offset ≤ x.start.offset := by
  rw [starts.place, Text.Position.offset_advance]
  exact Nat.le_add_right _ _

/-- A lexeme lies where it does, whatever it is called. -/
theorem Starts.renamed {r rest : Remaining} {x : Lexeme} (starts : r.Starts x rest) (t : Terminal)
    (passes : x.terminal.PassesFor t) : r.Starts { x with terminal := t } rest where
  chars := starts.chars
  place := starts.place
  stop := starts.stop
  nonempty := fun inside => starts.nonempty (passes.inner inside)
  spelled := fun name => starts.spelled (passes.isName name)

/-- A regular expression describes no start of an empty text but an empty one. -/
theorem chars_ne_nil_of_longest {e : Text.Regex} {chars : List Char} {size : Nat}
    (found : e.longest chars = some (size + 1)) : chars ≠ [] := by
  -- At the end of a text a match can only have the length zero.
  rintro rfl
  simp only [Text.Regex.longest, Text.Regex.longestFrom] at found
  split at found <;> simp at found

/-- A candidate is a lexeme that is not empty. -/
theorem ne_nil_of_candidate {r : Remaining} {expected : TerminalSet} {t : Terminal}
    {gap size : Nat} (member : (t, gap, size) ∈ r.candidates expected) :
    (r.chars.drop gap).take size ≠ [] := by
  simp only [candidates, List.mem_filterMap] at member
  obtain ⟨entry, -, found⟩ := member
  split at found
  · split at found
    · rename_i length longest
      simp only [Option.some.injEq, Prod.mk.injEq] at found
      obtain ⟨-, rfl, rfl⟩ := found
      -- The text behind the blanks is not empty, since some of it has been taken.
      have chars := chars_ne_nil_of_longest longest
      cases attached : entry.1.isAttached <;> simp_all
    · cases found
  · cases found

/-- A candidate that goes by a name is spelled like one. -/
theorem isName_of_candidate {r : Remaining} {expected : TerminalSet} {t : Terminal}
    {gap size : Nat} (member : (t, gap, size) ∈ r.candidates expected) (name : t.isName) :
    Text.IsName ((r.chars.drop gap).take size) := by
  simp only [candidates, List.mem_filterMap] at member
  obtain ⟨entry, listed, found⟩ := member
  obtain ⟨u, formed, rfl⟩ := List.mem_map.mp listed
  -- Words are not told by their form, so only the identifier is left.
  have names : ∀ u ∈ Terminal.formed, u.isName → u = .identifier := by decide
  split at found
  · split at found
    · rename_i length longest
      simp only [Option.some.injEq, Prod.mk.injEq] at found
      obtain ⟨rfl, rfl, rfl⟩ := found
      obtain rfl := names u formed name
      exact Terminal.isName_of_longest longest
    · cases found
  · cases found

/-- The farthest candidate is one of them. -/
theorem mem_of_farthest {cs : List (Terminal × Nat × Nat)} {c : Terminal × Nat × Nat}
    (found : farthest cs = some c) : c ∈ cs := by
  -- Of the first candidate and the farthest of the others, one is kept.
  induction cs with
  | nil => simp [farthest] at found
  | cons first rest ih =>
    simp only [farthest] at found
    split at found
    · rename_i d later
      split at found
      · cases found
        exact List.mem_cons_of_mem _ (ih later)
      · cases found
        exact List.mem_cons_self
    · cases found
      exact List.mem_cons_self

/-- The candidate that is meant is one of them. -/
theorem mem_of_meant {cs : List (Terminal × Nat × Nat)} {c : Terminal × Nat × Nat}
    (found : meant cs = some c) : c ∈ cs := by
  -- Either one comes first of all, or the farthest is taken.
  unfold meant at found
  split at found
  · rename_i first
    cases found
    exact List.mem_of_find?_eq_some first
  · exact mem_of_farthest found

/-- The next lexeme lies at the start of the text. -/
theorem starts_next {r rest : Remaining} {expected : TerminalSet} {x : Lexeme}
    (found : r.next expected = some (x, rest)) : r.Starts x rest := by
  unfold next at found
  extract_lets wanted' wanted at found
  -- A word differs from a name only in what it is called.
  split at found
  · rename_i gap size candidate
    have starts := r.starts_cut .identifier gap size
      (fun _ => ne_nil_of_candidate (mem_of_meant candidate))
      (isName_of_candidate (mem_of_meant candidate))
    dsimp only at found
    split at found
    · rename_i word spelling
      simp only [Option.some.injEq, Prod.mk.injEq] at found
      obtain ⟨rfl, rfl⟩ := found
      split
      · exact starts.renamed word (.inr ⟨rfl, Terminal.isName_of_word spelling⟩)
      · exact starts
    · cases found
      exact starts
  · rename_i t gap size _ candidate
    cases found
    exact r.starts_cut t gap size (fun _ => ne_nil_of_candidate (mem_of_meant candidate))
      (isName_of_candidate (mem_of_meant candidate))
  · split at found
    · cases found
      exact r.starts_cut .endOfText _ 0 (fun inner => absurd rfl inner)
        fun name => absurd name (by decide)
    · cases found

end Remaining

end TypeGraph.Java
