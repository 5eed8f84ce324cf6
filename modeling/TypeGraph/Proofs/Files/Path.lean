import Mathlib.Data.List.TakeWhile
import TypeGraph.Files.Entry
import TypeGraph.Files.Path

/-! Paths of what lies below a directory, and the extensions of file names. -/

namespace TypeGraph.Files.Path

/-- Whether a text is a single name, which leads to an entry of a directory. -/
def isName (name : String) : Bool := name ≠ "" && !name.toList.contains '/'

@[simp] theorem isName_iff {name : String} :
    isName name ↔ name ≠ "" ∧ '/' ∉ name.toList := by
  simp [isName]

/-- The path to a location below a directory with a path. -/
def below (directory : String) (place : Location) : String := place.foldl join directory

@[simp] theorem below_nil (directory : String) : below directory [] = directory := rfl

@[simp] theorem below_cons (directory name : String) (rest : Location) :
    below directory (name :: rest) = below (join directory name) rest := rfl

/-- Names that are joined by slashes are cut again at the same places. -/
theorem pieces_intercalate {names : List String} (some : names ≠ [])
    (plain : ∀ name ∈ names, '/' ∉ name.toList) : pieces ("/".intercalate names) = names := by
  have cut : Text.pieces '/' (['/'].intercalate (names.map String.toList)) =
      names.map String.toList :=
    Text.pieces_intercalate (by simpa using some) (by simpa using plain)
  rw [pieces, String.toList_intercalate, show "/".toList = ['/'] from rfl, cut, List.map_map]
  simp [Function.comp_def]

/-- What is joined to the path of a directory has a path that does not end with a slash. -/
theorem endsWithSlash_join {name : String} (proper : isName name) (directory : String) :
    endsWithSlash (join directory name) = false := by
  obtain ⟨nonempty, plain⟩ := isName_iff.mp proper
  -- The last character is one of the name, which has no slash.
  have last : (join directory name).toList.getLast? = name.toList.getLast? := by
    have some : name.toList ≠ [] := by simpa using nonempty
    unfold join
    split <;> simp [List.getLast?_append, List.getLast?_cons, List.getLast?_eq_some_getLast some]
  rw [endsWithSlash, last, decide_eq_false_iff_not]
  intro slash
  exact plain (List.mem_of_getLast? slash)

/-- A path to which a name has been joined is not empty. -/
theorem join_ne_empty (directory : String) {name : String} (proper : isName name) :
    join directory name ≠ "" := by
  have nonempty := (isName_iff.mp proper).1
  unfold join
  split <;> simp [nonempty]

/-- Below a directory, the names come after its path and a slash, with slashes between them. -/
theorem below_eq (directory : String) {place : Location} (some : place ≠ [])
    (proper : ∀ name ∈ place, isName name) :
    below directory place = join directory ("/".intercalate place) := by
  -- From the second name on, the path so far has no slash at its end.
  induction place generalizing directory with
  | nil => exact absurd rfl some
  | cons name rest ih =>
    obtain ⟨here, later⟩ := List.forall_mem_cons.mp proper
    cases rest with
    | nil => simp
    | cons next more =>
      rw [below_cons, ih _ (by simp) later, join, endsWithSlash_join here,
        if_neg Bool.false_ne_true, String.intercalate_cons_of_ne_nil (List.cons_ne_nil next more)]
      unfold join
      split <;> simp [String.append_assoc]

/-- What is joined to a path can be told from the whole path. -/
theorem join_inj {directory name other : String}
    (same : join directory name = join directory other) : name = other := by
  unfold join at same
  split at same <;> exact (String.append_right_inj _).mp same

/-- Different locations below a directory have different paths. -/
theorem below_inj {directory : String} {place other : Location} (some : place ≠ [])
    (some' : other ≠ []) (proper : ∀ name ∈ place, isName name)
    (proper' : ∀ name ∈ other, isName name)
    (same : below directory place = below directory other) : place = other := by
  -- Behind the path of the directory, the names are found again by cutting at the slashes.
  have plain : ∀ {names : List String}, (∀ name ∈ names, isName name) →
      ∀ name ∈ names, '/' ∉ name.toList :=
    fun proper name member => (isName_iff.mp (proper name member)).2
  rw [below_eq directory some proper, below_eq directory some' proper'] at same
  rw [← pieces_intercalate some (plain proper), join_inj same,
    pieces_intercalate some' (plain proper')]

/-- Steps that lead into a directory and to a name in it: a slash at the end of the path of the
directory makes no difference. -/
theorem steps_join (directory : String) {name : String} (proper : isName name) :
    steps (join directory name) = (pieces directory).filter (· ≠ "") ++ [name] := by
  obtain ⟨nonempty, plain⟩ := isName_iff.mp proper
  have last : pieces name = [name] := by simp [pieces, Text.pieces_of_not_mem plain]
  rw [steps, endsWithSlash_join proper, if_neg Bool.false_ne_true, List.append_nil, join]
  split
  · -- The empty name behind a slash at the end gives way to the new one.
    rename_i slash
    rw [endsWithSlash, decide_eq_true_iff, List.getLast?_eq_some_iff] at slash
    obtain ⟨before, cut⟩ := slash
    simp [pieces, cut, Text.pieces_append_cons, Text.pieces_of_not_mem plain, Text.pieces, nonempty]
  · simp [pieces, Text.pieces_append_cons, Text.pieces_of_not_mem plain, nonempty]

/-- What is joined to a path starts where the path does. -/
theorem isAbsolute_join {directory : String} (some : directory ≠ "") (name : String) :
    isAbsolute (join directory name) = isAbsolute directory := by
  -- The first character is one of the path.
  have first : directory.toList ≠ [] := by simpa using some
  obtain ⟨c, rest, cut⟩ := List.exists_cons_of_ne_nil first
  unfold isAbsolute join
  split <;> simp [cut]

/-- The extension of a file name is what follows its last dot, if this is not the first
character. -/
theorem extension?_of_dot {name : String} {before last : List Char} (plain : '.' ∉ last)
    (cut : name.toList = before ++ '.' :: last) :
    extension? name = if before = [] then none else some (String.ofList last) := by
  -- Backwards, the name goes on to its first dot.
  have taken : name.toList.reverse.takeWhile (· ≠ '.') = last.reverse := by
    have all : ∀ c ∈ last.reverse, decide (c ≠ '.') := by
      intro c member
      simp only [List.mem_reverse] at member
      exact decide_eq_true fun dot => plain (dot ▸ member)
    rw [cut, List.reverse_append, List.reverse_cons, List.append_assoc,
      List.takeWhile_append_of_pos all]
    simp
  have rest : name.toList.reverse.drop last.reverse.length = '.' :: before.reverse := by
    rw [cut, List.reverse_append, List.reverse_cons, List.append_assoc, List.drop_left]
    rfl
  simp only [extension?, taken, rest, List.reverse_reverse]
  cases shape : before.reverse with
  | nil => rw [if_pos (List.reverse_eq_nil_iff.mp shape)]
  | cons => rw [if_neg fun none => List.cons_ne_nil _ _ (shape.symm.trans (by simp [none]))]

/-- A file name without dots has no extension. -/
theorem extension?_of_plain {name : String} (plain : '.' ∉ name.toList) :
    extension? name = none := by
  have all : name.toList.reverse.takeWhile (· ≠ '.') = name.toList.reverse := by
    rw [List.takeWhile_eq_self_iff]
    intro c member
    simp only [List.mem_reverse] at member
    exact decide_eq_true fun dot => plain (dot ▸ member)
  simp only [extension?, all, List.drop_length]

/-- Whether a file name has an extension, which is all that follows its last dot, where this dot is
not the first character. -/
def HasExtension (name extension : String) : Prop :=
  '.' ∉ extension.toList ∧ ∃ stem, stem ≠ "" ∧ name = stem ++ "." ++ extension

/-- The extension that is found is the one that a file name has. -/
theorem extension?_eq_some_iff {name extension : String} :
    extension? name = some extension ↔ HasExtension name extension := by
  constructor
  · intro found
    by_cases dot : '.' ∈ name.toList
    · -- The last dot is the first one from the end.
      obtain ⟨last, before, backwards, plain⟩ :=
        List.eq_append_cons_of_mem (List.mem_reverse.mpr dot)
      have plain : '.' ∉ last.reverse := by simpa using plain
      have cut : name.toList = before.reverse ++ '.' :: last.reverse := by
        simpa using congrArg List.reverse backwards
      rw [extension?_of_dot plain cut] at found
      split at found
      · cases found
      · rename_i some
        obtain rfl := Option.some.inj found
        refine ⟨by simpa using plain, String.ofList before.reverse, by simpa using some, ?_⟩
        rw [← String.toList_inj, cut]
        simp
    · rw [extension?_of_plain dot] at found
      cases found
  · rintro ⟨plain, stem, some, rfl⟩
    have cut : (stem ++ "." ++ extension).toList = stem.toList ++ '.' :: extension.toList := by
      simp
    rw [extension?_of_dot plain cut, if_neg (by simpa using some), String.ofList_toList]

end TypeGraph.Files.Path
