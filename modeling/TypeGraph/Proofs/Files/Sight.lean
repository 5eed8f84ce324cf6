import TypeGraph.Files.Entry

/-! What stands at each location of a tree, and how little one new file changes about it. -/

namespace TypeGraph.Files

/-- What can be seen at a location itself, whatever lies below it. -/
inductive Sight where
  | file (content : ByteArray)
  | link (target : String)
  | directory

namespace Sight

/-- Directories are told apart without looking into files. -/
instance : (seen : Option Sight) → Decidable (seen = some directory)
  | some directory => isTrue rfl
  | some (file _) | some (link _) | none => isFalse nofun

/-- What can be seen without opening files. -/
def form : Sight → Sight
  | file _ => .file .empty
  | link target => .link target
  | directory => .directory

@[simp] theorem form_eq_directory {s : Sight} : s.form = .directory ↔ s = .directory := by
  cases s <;> simp [form]

@[simp] theorem form_eq_link {s : Sight} {target : String} :
    s.form = .link target ↔ s = .link target := by
  cases s <;> simp [form]

end Sight

namespace Entry

/-- What can be seen of an entry itself. -/
def sight : Entry → Sight
  | file content => .file content
  | link target => .link target
  | directory _ => .directory

/-- What can be seen at a location of a tree. -/
def sight? (e : Entry) (place : Location) : Option Sight := (e.at? place).map sight

@[simp] theorem sight?_nil (e : Entry) : e.sight? [] = some e.sight := rfl

@[simp] theorem sight?_cons (entries : List (String × Entry)) (name : String) (rest : Location) :
    (directory entries).sight? (name :: rest) =
      (entries.lookup name).bind fun child => child.sight? rest := by
  -- The way down goes through the entry that the name stands for.
  cases found : entries.lookup name <;> simp [sight?, at?, Entry.entries, found]

/-- A directory is seen where one is. -/
theorem sight?_eq_directory {e : Entry} {place : Location} :
    e.sight? place = some .directory ↔ ∃ entries, e.at? place = some (directory entries) := by
  -- Only a directory is seen as one.
  simp only [sight?, Option.map_eq_some_iff]
  constructor
  · rintro ⟨found, here, seen⟩
    cases found with
    | directory entries => exact ⟨entries, here⟩
    | file | link => cases seen
  · rintro ⟨entries, here⟩
    exact ⟨_, here, rfl⟩

/-- What is not a directory has nothing below it. -/
theorem sight?_cons_of_ne {e : Entry} (leaf : e.sight ≠ .directory) (name : String)
    (rest : Location) : e.sight? (name :: rest) = none := by
  cases e with
  | directory => exact absurd rfl leaf
  | file | link => rfl

/-- Where something can be seen below an entry, that is a directory with the first name. -/
theorem exists_child {e : Entry} {step : String} {rest : Location} {seen : Sight}
    (below : e.sight? (step :: rest) = some seen) :
    ∃ entries child, e = directory entries ∧ entries.lookup step = some child ∧
      child.sight? rest = some seen := by
  -- A way on leads through a directory and a name in it.
  cases e with
  | file | link => cases below
  | directory entries =>
    rw [sight?_cons] at below
    obtain ⟨child, found, inner⟩ := Option.bind_eq_some_iff.mp below
    exact ⟨entries, child, rfl, found, inner⟩

/-- A location in two stretches is followed in two steps. -/
theorem at?_append (e : Entry) (first second : Location) :
    e.at? (first ++ second) = (e.at? first).bind fun inner => inner.at? second := by
  -- The first stretch is followed name by name.
  induction first generalizing e with
  | nil => rfl
  | cons name rest ih =>
    simp only [List.cons_append, at?]
    cases e.entries.lookup name with
    | none => rfl
    | some child => exact ih child

/-- What is seen behind two stretches is seen behind the second one from where the first leads. -/
theorem sight?_append (e : Entry) (first second : Location) :
    e.sight? (first ++ second) = (e.at? first).bind fun inner => inner.sight? second := by
  rw [sight?, at?_append, Option.map_bind]
  rfl

/-- Above everything that can be seen there is a directory. -/
theorem sight?_eq_directory_of_below {e : Entry} {place : Location} {name : String}
    (below : e.sight? (place ++ [name]) ≠ none) : e.sight? place = some .directory := by
  -- Only a directory has names in it.
  rw [sight?_append] at below
  cases found : e.at? place with
  | none => simp [found] at below
  | some inner =>
    by_cases leaf : inner.sight = .directory
    · simp [sight?, found, leaf]
    · simp [found, sight?_cons_of_ne leaf] at below

/-- In a directory, names lead to what they stand for. -/
theorem sight?_concat {e : Entry} {place : Location} {entries : List (String × Entry)}
    (here : e.at? place = some (directory entries)) (name : String) :
    e.sight? (place ++ [name]) = (entries.lookup name).map sight := by
  rw [sight?_append, here]
  cases found : entries.lookup name <;> simp [found]

/-- Below a name, putting goes on in what the name stands for. -/
theorem put_cons {new child : Entry} {entries : List (String × Entry)} {name : String}
    {rest : Location} (further : rest ≠ []) (found : entries.lookup name = some child) :
    put new (name :: rest) (directory entries) =
      directory (bind name (put new rest child) entries) := by
  -- With more names to come, the child is changed and bound again.
  cases rest with
  | nil => exact absurd rfl further
  | cons => simp [put, found]

/-- Below a name, removing goes on in what the name stands for. -/
theorem remove_cons {child : Entry} {entries : List (String × Entry)} {name : String}
    {rest : Location} (further : rest ≠ []) (found : entries.lookup name = some child) :
    remove (name :: rest) (directory entries) =
      directory (bind name (remove rest child) entries) := by
  cases rest with
  | nil => exact absurd rfl further
  | cons => simp [remove, found]

/-- Putting a file or link where no directory is changes what can be seen nowhere else. -/
theorem sight?_put {e new : Entry} {place : Location} {name : String}
    (above : e.sight? place = some .directory)
    (old : e.sight? (place ++ [name]) ≠ some .directory) (leaf : new.sight ≠ .directory)
    {other : Location} (elsewhere : other ≠ place ++ [name]) :
    (put new (place ++ [name]) e).sight? other = e.sight? other := by
  -- Other names lead past the change, and below the new entry there is as little as before.
  induction place generalizing e other with
  | nil =>
    obtain ⟨entries, here⟩ := sight?_eq_directory.mp above
    obtain rfl : e = directory entries := by simpa [at?] using here
    cases other with
    | nil => rfl
    | cons step rest =>
      by_cases same : step = name
      · subst same
        obtain ⟨next, further, rfl⟩ :=
          List.exists_cons_of_ne_nil fun none : rest = [] => elsewhere (by rw [none]; rfl)
        simp only [put, List.nil_append, sight?_cons, lookup_bind, Option.bind_some,
          sight?_cons_of_ne leaf]
        cases found : entries.lookup step with
        | none => rfl
        | some child =>
          have leaf' : child.sight ≠ .directory := by simpa [found] using old
          exact (sight?_cons_of_ne leaf' next further).symm
      · simp [put, lookup_bind_ne same]
  | cons step rest ih =>
    obtain ⟨entries, child, rfl, found, inner⟩ := exists_child above
    rw [List.cons_append, put_cons (by simp) found]
    cases other with
    | nil => rfl
    | cons step' rest' =>
      by_cases same : step' = step
      · subst same
        have below : (put new (rest ++ [name]) child).sight? rest' = child.sight? rest' :=
          ih inner (by simpa [found] using old) (by simpa using elsewhere)
        simp [lookup_bind, found, below]
      · simp [lookup_bind_ne same]

/-- Binding a name to what it stands for changes nothing. -/
theorem bind_of_lookup {name : String} {entry : Entry} {entries : List (String × Entry)}
    (found : entries.lookup name = some entry) : bind name entry entries = entries := by
  -- The name is bound where it stands already.
  induction entries with
  | nil => cases found
  | cons first rest ih =>
    obtain ⟨other, old⟩ := first
    by_cases same : name = other
    · simp_all [bind]
    · simp only [List.lookup_cons, beq_false_of_ne same] at found
      simp [bind, same, ih found]

/-- Of two entries bound to a name in turn, the later one stays. -/
theorem bind_bind (name : String) (first second : Entry) (entries : List (String × Entry)) :
    bind name second (bind name first entries) = bind name second entries := by
  -- The second binding finds the name where the first has put it.
  induction entries with
  | nil => simp [bind]
  | cons head rest ih =>
    obtain ⟨other, old⟩ := head
    by_cases same : name = other
    · simp [bind, same]
    · simp [bind, same, ih]

/-- Of two entries put at a location in turn, the later one stays. -/
theorem put_put (first second : Entry) (place : Location) (e : Entry) :
    put second place (put first place e) = put second place e := by
  -- Where a name on the way stands for nothing, neither entry is put anywhere.
  induction place generalizing e with
  | nil => rfl
  | cons name rest ih =>
    cases e with
    | file | link => cases rest <;> rfl
    | directory entries =>
      cases rest with
      | nil => simp [put, bind_bind]
      | cons next further =>
        cases found : entries.lookup name with
        | none => simp [put, found]
        | some child =>
          rw [put_cons (by simp) found, put_cons (by simp) found,
            put_cons (by simp) (lookup_bind _ _ _), bind_bind, ih]

/-- No entry has a name that stands for nothing. -/
theorem ne_of_lookup_eq_none {name : String} {entries : List (String × Entry)}
    (absent : entries.lookup name = none) : ∀ entry ∈ entries, entry.1 ≠ name := by
  intro entry member same
  have different := List.lookup_eq_none_iff.mp absent entry member
  simp [same] at different

/-- Removing an entry that has been put where nothing was gives back the tree before. -/
theorem remove_put {e : Entry} (new : Entry) {place : Location} {name : String}
    (above : e.sight? place = some .directory) (absent : e.sight? (place ++ [name]) = none) :
    remove (place ++ [name]) (put new (place ++ [name]) e) = e := by
  induction place generalizing e with
  | nil =>
    obtain ⟨entries, here⟩ := sight?_eq_directory.mp above
    obtain rfl : e = directory entries := by simpa [at?] using here
    have none : entries.lookup name = none := by
      rw [sight?_concat here] at absent
      exact Option.map_eq_none_iff.mp absent
    have others := ne_of_lookup_eq_none none
    -- The new entry comes last and is the only one with its name.
    have last : bind name new entries = entries ++ [(name, new)] := by
      clear here above absent none
      induction entries with
      | nil => rfl
      | cons first rest ih =>
        obtain ⟨different, later⟩ := List.forall_mem_cons.mp others
        simp [bind, different.symm, ih later]
    simp only [List.nil_append, put, remove, last, List.filter_append, Entry.directory.injEq]
    simpa [List.filter_eq_self] using others
  | cons step rest ih =>
    obtain ⟨entries, child, rfl, found, inner⟩ := exists_child above
    rw [List.cons_append, put_cons (by simp) found, remove_cons (by simp) (lookup_bind _ _ _),
      bind_bind, ih inner (by simpa [found] using absent), bind_of_lookup found]

end Entry

end TypeGraph.Files
