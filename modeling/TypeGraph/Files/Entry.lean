/-! Files, symbolic links and directories, as trees of named entries. -/

namespace TypeGraph.Files

/-- What a name in a directory stands for. -/
inductive Entry where
  | file (content : ByteArray)
  /-- A symbolic link, with the path it leads to as written. -/
  | link (target : String)
  | directory (entries : List (String × Entry))

/-- The names that lead from the top of a tree to one of its entries. -/
abbrev Location := List String

namespace Entry

/-- Whether an entry is a directory itself, not a link to one. -/
def isDirectory : Entry → Bool
  | directory _ => true
  | _ => false

/-- The entries of a directory; other entries have none. -/
def entries : Entry → List (String × Entry)
  | directory entries => entries
  | _ => []

/-- The entry at a location, where links are not followed. -/
def at? (e : Entry) : Location → Option Entry
  | [] => some e
  | name :: rest => match e.entries.lookup name with
    | some child => child.at? rest
    | none => none

/-- The entries of a directory with one name given to an entry. -/
def bind (name : String) (entry : Entry) : List (String × Entry) → List (String × Entry)
  | [] => [(name, entry)]
  | (other, old) :: rest =>
    if name = other then (name, entry) :: rest
    else (other, old) :: bind name entry rest

/-- A tree with an entry put at a location, if the directory for it is there. -/
def put (new : Entry) : Location → Entry → Entry
  | [], _ => new
  | [name], directory entries => directory (bind name new entries)
  | name :: next :: rest, directory entries => match entries.lookup name with
    | some child => directory (bind name (put new (next :: rest) child) entries)
    | none => directory entries
  | _ :: _, e => e

/-- A tree without the entry at a location. -/
def remove : Location → Entry → Entry
  | [], e => e
  | [name], directory entries => directory (entries.filter (·.1 ≠ name))
  | name :: next :: rest, directory entries => match entries.lookup name with
    | some child => directory (bind name (remove (next :: rest) child) entries)
    | none => directory entries
  | _ :: _, e => e

/-- A name that none of some entries has, since it is longer than theirs. -/
def unusedName (entries : List (String × Entry)) : String :=
  ".tmp".pushn 'x' (entries.foldl (fun most entry => max most entry.1.length) 0)

/-- Named things in the order of their names. -/
def sorted {α : Type} (named : List (String × α)) : List (String × α) :=
  named.mergeSort fun first second => decide (first.1 ≤ second.1)

/-- A name stands for what it was bound to. -/
theorem lookup_bind (name : String) (entry : Entry) (entries : List (String × Entry)) :
    (bind name entry entries).lookup name = some entry := by
  -- The entry replaces the first one of the name or comes last.
  induction entries with
  | nil => simp [bind]
  | cons first rest ih =>
    obtain ⟨other, old⟩ := first
    by_cases same : name = other
    · simp [bind, same]
    · simp [bind, same, List.lookup_cons, beq_false_of_ne same, ih]

/-- Binding a name leaves the others as they are. -/
theorem lookup_bind_ne {name other : String} (different : other ≠ name) (entry : Entry)
    (entries : List (String × Entry)) :
    (bind name entry entries).lookup other = entries.lookup other := by
  -- Only an entry of the bound name is touched.
  induction entries with
  | nil => simp [bind, List.lookup_cons, beq_false_of_ne different]
  | cons first rest ih =>
    obtain ⟨third, old⟩ := first
    by_cases same : name = third
    · subst same; simp [bind, List.lookup_cons, beq_false_of_ne different]
    · simp [bind, same, List.lookup_cons, ih]

/-- What has been put at a location is there, if the directory for it is. -/
theorem at?_put {entry inner : Entry} {entries : List (String × Entry)} (name : String)
    (place : Location) (present : entry.at? place = some (directory entries)) :
    (put inner (place ++ [name]) entry).at? (place ++ [name]) = some inner := by
  -- On the way down every directory stands for what becomes of the next one.
  induction place generalizing entry with
  | nil =>
    simp only [at?, Option.some.injEq] at present
    simp [present, put, at?, Entry.entries, lookup_bind]
  | cons step rest ih =>
    cases entry with
    | file | link => simp [at?, Entry.entries] at present
    | directory children =>
      simp only [at?, Entry.entries] at present
      cases found : children.lookup step with
      | none => simp [found] at present
      | some child =>
        simp only [found] at present
        have below := ih present
        cases rest with
        | nil => simpa [put, found, at?, Entry.entries, lookup_bind] using below
        | cons => simpa [put, found, at?, Entry.entries, lookup_bind] using below

/-- The longest of some lengths and a start is no less than any of them. -/
theorem le_foldl_max (entries : List (String × Entry)) (start : Nat) :
    start ≤ entries.foldl (fun most entry => max most entry.1.length) start ∧
      ∀ entry ∈ entries,
        entry.1.length ≤ entries.foldl (fun most entry => max most entry.1.length) start := by
  -- The running maximum never gets smaller.
  induction entries generalizing start with
  | nil => simp
  | cons first rest ih =>
    obtain ⟨above, members⟩ := ih (max start first.1.length)
    simp only [List.foldl_cons, List.mem_cons, forall_eq_or_imp]
    exact ⟨by omega, by omega, members⟩

/-- No entry has the unused name. -/
theorem ne_unusedName (entries : List (String × Entry)) :
    ∀ entry ∈ entries, entry.1 ≠ unusedName entries := by
  -- The unused name has more characters than the longest name.
  intro entry member same
  have longest := (le_foldl_max entries 0).2 entry member
  rw [same] at longest
  rw [unusedName, String.length_pushn, show ".tmp".length = 4 from rfl] at longest
  omega

end Entry

end TypeGraph.Files
