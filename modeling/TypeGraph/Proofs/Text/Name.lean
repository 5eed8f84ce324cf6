import TypeGraph.Java.Lexeme

/-! How Java names are spelled, and that the expression for them describes nothing else. -/

namespace TypeGraph.Text

/-- Whether a text is spelled like a Java name. -/
def IsName (text : List Char) : Prop :=
  ∃ first rest, text = first :: rest ∧ isNameStart first ∧ ∀ c ∈ rest, isNamePart c

/-- A name is without dots. -/
theorem IsName.plain {text : List Char} (name : IsName text) : '.' ∉ text := by
  obtain ⟨first, rest, rfl, start, parts⟩ := name
  intro member
  -- A dot neither starts nor continues a name.
  rcases List.mem_cons.mp member with same | later
  · rw [← same] at start
    exact absurd start (by decide)
  · exact absurd (parts '.' later) (by decide)

namespace Regex

/-- Any number of characters that continue a name are taken as far as there are any. -/
theorem longestFrom_nameParts (best : Option Nat) (taken : Nat) (chars : List Char) :
    (star (char .namePart)).longestFrom best taken chars =
      some (taken + (chars.takeWhile isNamePart).length) := by
  -- The best match so far is always the whole text that has been taken.
  induction chars generalizing best taken with
  | nil => rfl
  | cons c rest ih =>
    by_cases part : isNamePart c
    · -- After such a character the expression is the same as before.
      have again : (star (char .namePart)).derive c = star (char .namePart) := by
        simp [derive, CharSet.contains, part, join]
      simp only [longestFrom, again, ih, List.takeWhile_cons_of_pos part, List.length_cons]
      rw [Nat.add_assoc, Nat.add_comm 1]
    · -- Any other character is not taken.
      have stop : (star (char .namePart)).derive c = never := by
        simp [derive, CharSet.contains, part, join]
      simp [longestFrom, stop, nullable, List.takeWhile_cons_of_neg part]

end Regex

end TypeGraph.Text

namespace TypeGraph.Java

open Text

/-- What is read as an identifier is spelled like a name. -/
theorem Terminal.isName_of_longest {chars : List Char} {size : Nat}
    (found : identifier.pattern.longest chars = some (size + 1)) :
    IsName (chars.take (size + 1)) := by
  cases chars with
  | nil => simp [Regex.longest, Regex.longestFrom, pattern, Regex.nullable] at found
  | cons first rest =>
    by_cases start : isNameStart first
    · -- Behind the first character, the parts of a name are all that is taken.
      have onward : identifier.pattern.derive first = .star (.char .namePart) := by
        simp [pattern, Regex.derive, CharSet.contains, start, Regex.join, Regex.nullable]
      simp only [Regex.longest, Regex.longestFrom, onward, Regex.longestFrom_nameParts,
        Option.some.injEq] at found
      have length : size = (rest.takeWhile isNamePart).length := by omega
      refine ⟨first, rest.takeWhile isNamePart, ?_, start, ?_⟩
      · rw [List.take_succ_cons, length]
        exact congrArg (first :: ·) (List.prefix_iff_eq_take.mp (List.takeWhile_prefix _)).symm
      · exact List.all_eq_true.mp List.all_takeWhile
    · -- No other character starts a match.
      have stop : identifier.pattern.derive first = .never := by
        simp [pattern, Regex.derive, CharSet.contains, start, Regex.join, Regex.nullable]
      rw [Regex.longest, Regex.longestFrom, stop] at found
      simp [pattern, Regex.nullable] at found

end TypeGraph.Java
