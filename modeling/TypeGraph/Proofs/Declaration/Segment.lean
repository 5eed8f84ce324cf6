import TypeGraph.Declaration.Walk

/-! The last segments of dotted names. -/

namespace TypeGraph

variable {name : String}

/-- From its end, a name without dots belongs to the last segment. -/
theorem takeWhile_plain (plain : '.' ∉ name.toList) (rest : List Char) :
    (name.toList.reverse ++ rest).takeWhile (· ≠ '.') =
      name.toList.reverse ++ rest.takeWhile (· ≠ '.') := by
  -- None of its characters is the dot at which the segment stops.
  apply List.takeWhile_append_of_pos
  intro c member
  have apart : c ≠ '.' := fun same => plain (same ▸ List.mem_reverse.mp member)
  simpa using apart

/-- A name without dots is its own last segment. -/
theorem lastSegment_of_plain (plain : '.' ∉ name.toList) : lastSegment name = name := by
  have whole := takeWhile_plain plain []
  simp only [List.append_nil, List.takeWhile_nil] at whole
  rw [lastSegment, whole, List.reverse_reverse, String.ofList_toList]

/-- What follows a dot is the last segment if it has no dot itself. -/
theorem lastSegment_append (before : String) (plain : '.' ∉ name.toList) :
    lastSegment (before ++ "." ++ name) = name := by
  have text : (before ++ "." ++ name).toList.reverse =
      name.toList.reverse ++ '.' :: before.toList.reverse := by
    simp [String.toList_append]
  -- The segment goes back to the dot and no farther.
  rw [lastSegment, text, takeWhile_plain plain]
  simp

/-- A last segment has no dots. -/
theorem lastSegment_plain (path : String) : '.' ∉ (lastSegment path).toList := by
  intro dotted
  rw [lastSegment, String.toList_ofList, List.mem_reverse] at dotted
  have passed := List.all_eq_true.mp List.all_takeWhile '.' dotted
  simp at passed

/-- A text is its last segment, or has a dot before it. -/
theorem eq_lastSegment_or_append (path : String) :
    path = lastSegment path ∨ ∃ before, path = before ++ "." ++ lastSegment path := by
  -- From its end, the text is cut where the first dot is met.
  have whole := List.takeWhile_append_dropWhile (p := (· ≠ '.')) (l := path.toList.reverse)
  cases rest : path.toList.reverse.dropWhile (· ≠ '.') with
  | nil =>
    left
    rw [rest, List.append_nil] at whole
    rw [lastSegment, whole, List.reverse_reverse, String.ofList_toList]
  | cons c before =>
    right
    have dot : c = '.' := by
      have stops := List.head?_dropWhile_not (· ≠ '.') path.toList.reverse
      rw [rest] at stops
      simpa using stops
    refine ⟨String.ofList before.reverse, ?_⟩
    rw [rest, dot] at whole
    apply String.toList_inj.mp
    have turned := congrArg List.reverse whole
    simpa [lastSegment, String.toList_append] using turned.symm

/-- The last segment of a text is what has no dot and follows the last dot, if there is one. -/
theorem lastSegment_eq_iff {path : String} : lastSegment path = name ↔
    '.' ∉ name.toList ∧ (path = name ∨ ∃ before, path = before ++ "." ++ name) := by
  constructor
  · rintro rfl
    exact ⟨lastSegment_plain path, eq_lastSegment_or_append path⟩
  · rintro ⟨plain, rfl | ⟨before, rfl⟩⟩
    · exact lastSegment_of_plain plain
    · exact lastSegment_append before plain

/-- The qualified name of a type ends in its simple name. -/
theorem Enclosing.lastSegment_qualify {enclosing : Enclosing} {qualified : String}
    (plain : '.' ∉ name.toList) (made : enclosing.qualify name = some qualified) :
    lastSegment qualified = name := by
  -- Whatever encloses the type, its name comes last and behind a dot.
  cases enclosing with
  | unit package =>
    cases package <;> cases made
    · exact lastSegment_of_plain plain
    · exact lastSegment_append _ plain
  | type outer =>
    cases outer <;> cases made
    exact lastSegment_append _ plain
  | body => cases made

end TypeGraph
