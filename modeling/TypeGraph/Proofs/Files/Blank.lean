import TypeGraph.Project.Scan
import TypeGraph.Proofs.Files.Walk

/-! The contents of files matter neither to where paths lead nor to what a scan finds. -/

namespace TypeGraph

open Files

namespace Files.Entry

mutual
/-- A tree with the same names and links, in which all files are empty. -/
def blank : Entry → Entry
  | file _ => file .empty
  | link target => link target
  | directory entries => directory (blankAll entries)
/-- Entries of a directory whose files are emptied. -/
def blankAll : List (String × Entry) → List (String × Entry)
  | [] => []
  | (name, entry) :: rest => (name, entry.blank) :: blankAll rest
end

/-- The names of emptied entries stand for emptied entries. -/
theorem lookup_blankAll (name : String) (entries : List (String × Entry)) :
    (blankAll entries).lookup name = (entries.lookup name).map blank := by
  -- The names stay, so the same entry is found.
  induction entries with
  | nil => rfl
  | cons first rest ih =>
    obtain ⟨other, entry⟩ := first
    by_cases same : name = other
    · simp [blankAll, same]
    · simp [blankAll, List.lookup_cons, beq_false_of_ne same, ih]

/-- At every location the same entry stands, emptied. -/
theorem at?_blank (e : Entry) (place : Location) :
    e.blank.at? place = (e.at? place).map blank := by
  -- The way down leads through the same names.
  induction place generalizing e with
  | nil => rfl
  | cons name rest ih =>
    cases e with
    | file | link => rfl
    | directory entries =>
      cases found : entries.lookup name <;>
        simp [blank, at?, Entry.entries, lookup_blankAll, found, ih]

/-- What can be seen is the same but for the contents of files. -/
theorem sight?_blank (e : Entry) (place : Location) :
    e.blank.sight? place = (e.sight? place).map Sight.form := by
  have form : ∀ e : Entry, e.blank.sight = e.sight.form := by
    intro e
    cases e <;> simp [blank, sight, Sight.form]
  cases found : e.at? place <;> simp [sight?, at?_blank, found, form]

/-- An entry in place of one that looks the same when emptied is no difference once emptied. -/
theorem blankAll_bind {name : String} {was now : Entry} {entries : List (String × Entry)}
    (found : entries.lookup name = some was) (same : now.blank = was.blank) :
    blankAll (bind name now entries) = blankAll entries := by
  -- The name is bound where it stands, to what looks the same once emptied.
  induction entries with
  | nil => cases found
  | cons first rest ih =>
    obtain ⟨other, entry⟩ := first
    by_cases here : name = other
    · simp_all [bind, blankAll]
    · simp only [List.lookup_cons, beq_false_of_ne here] at found
      simp [bind, here, blankAll, ih found]

/-- Putting a file in place of a file changes no more than the content. -/
theorem blank_put {e : Entry} {place : Location} {old : ByteArray} (new : ByteArray)
    (present : e.at? place = some (file old)) : (put (file new) place e).blank = e.blank := by
  -- On the way down every directory is emptied to the same entries as before.
  induction place generalizing e with
  | nil =>
    obtain rfl : e = file old := by simpa [at?] using present
    rfl
  | cons name rest ih =>
    cases e with
    | file | link => simp [at?, Entry.entries] at present
    | directory entries =>
      cases found : entries.lookup name with
      | none => simp [at?, Entry.entries, found] at present
      | some child =>
        have inner : child.at? rest = some (file old) := by
          simpa [at?, Entry.entries, found] using present
        cases rest with
        | nil =>
          obtain rfl : child = file old := by simpa [at?] using inner
          have same : (file new).blank = (file old).blank := by simp [blank]
          simpa [put, blank] using blankAll_bind found same
        | cons =>
          rw [put_cons (by simp) found, blank, blank, blankAll_bind found (ih inner)]

/-- Putting a file in place of a file changes what can be seen nowhere else. -/
theorem sight?_put_of_file {e : Entry} {place other : Location} {old : ByteArray}
    (new : ByteArray) (present : e.at? place = some (file old)) (elsewhere : other ≠ place) :
    (put (file new) place e).sight? other = e.sight? other := by
  rcases List.eq_nil_or_concat place with rfl | ⟨above, name, rfl⟩
  · -- There is nothing below a file.
    obtain rfl : e = file old := by simpa [at?] using present
    obtain ⟨name, rest, rfl⟩ := List.exists_cons_of_ne_nil elsewhere
    rfl
  · rw [List.concat_eq_append] at *
    have seen : e.sight? (above ++ [name]) = some (.file old) := by simp [sight?, present, sight]
    exact sight?_put (sight?_eq_directory_of_below (by rw [seen]; simp)) (by rw [seen]; simp)
      (by simp [sight]) elsewhere

/-- A file that is put in place of a file is there. -/
theorem at?_put_of_file {e : Entry} {place : Location} {old : ByteArray} (new : ByteArray)
    (present : e.at? place = some (file old)) :
    (put (file new) place e).at? place = some (file new) := by
  -- Where a file is, the location above is a directory, so the new one can be put there.
  rcases List.eq_nil_or_concat place with rfl | ⟨above, name, rfl⟩
  · rfl
  · rw [List.concat_eq_append] at *
    have below : e.sight? (above ++ [name]) ≠ none := by simp [sight?, present]
    obtain ⟨entries, here⟩ := sight?_eq_directory.mp (sight?_eq_directory_of_below below)
    exact at?_put name above here

mutual
/-- The same directories stand at the same locations. -/
theorem directories_blank (place : Location) (e : Entry) :
    directories place e.blank = directories place e := by
  match e with
  | file _ | link _ => rfl
  | directory entries => simp [blank, directories, directoriesAmong_blankAll place entries]
/-- The same directories stand in a directory. -/
theorem directoriesAmong_blankAll (place : Location) (entries : List (String × Entry)) :
    directoriesAmong place (blankAll entries) = directoriesAmong place entries := by
  match entries with
  | [] => rfl
  | (name, entry) :: rest =>
    simp [blankAll, directoriesAmong, directories_blank _ entry, directoriesAmong_blankAll _ rest]
end

end Files.Entry

namespace Files.FileTree

/-- All files, emptied. -/
def blank (t : FileTree) : FileTree := { t with top := t.top.blank }

/-- Paths lead to the same locations when all files are emptied. -/
theorem locate_blank (t : FileTree) (followLast : Bool) (path : String) :
    t.blank.locate followLast path = t.locate followLast path := by
  -- There is no new file to which steps might lead.
  have alike : More t.top t.top.blank fun _ => False :=
    ⟨fun _ none => none.elim, fun _ none => none.elim, fun place _ => by
      rw [Entry.sight?_blank, Option.map_map]
      congr 1
      funext seen
      cases seen <;> rfl⟩
  have same (links : Nat) (place : Location) (steps : List String) :
      walk t.top.blank followLast links place steps = walk t.top followLast links place steps :=
    (alike.walk_eq followLast links place id steps).resolve_right
      fun other => other.2.2.elim fun _ => id
  simp only [locate, blank, same]

/-- What reading gives depends on what can be seen where a path leads. -/
theorem read_eq (t : FileTree) (path : String) :
    t.read path = t.locate true path >>= fun place => match t.top.sight? place with
      | some (.file content) => .ok content
      | some .directory => .error .isDirectory
      | some (.link _) | none => .error .absent := by
  -- A file shows its content, and nothing else has one.
  unfold read entry
  cases t.locate true path with
  | error => rfl
  | ok place =>
    cases found : t.top.at? place with
    | none => simp [found, Entry.sight?, bind, Except.bind]
    | some there =>
      cases there <;> simp [found, Entry.sight?, Entry.sight, bind, Except.bind, pure, Except.pure]

variable {t : FileTree} {place : Location} {old : ByteArray}

/-- Other content of a file is no difference once all files are emptied. -/
theorem blank_put (new : ByteArray) (present : t.top.at? place = some (.file old)) :
    (t.put place (.file new)).blank = t.blank := by
  simp only [blank, put, Entry.blank_put new present]

/-- Paths lead to the same locations when a file has other content. -/
theorem locate_put (new : ByteArray) (present : t.top.at? place = some (.file old))
    (followLast : Bool) (path : String) :
    (t.put place (.file new)).locate followLast path = t.locate followLast path := by
  rw [← locate_blank, blank_put new present, locate_blank]

/-- Reading gives the same at all paths that do not lead to the file with other content. -/
theorem read_put_of_ne (new : ByteArray) (present : t.top.at? place = some (.file old))
    {path : String} (elsewhere : t.locate true path ≠ .ok place) :
    (t.put place (.file new)).read path = t.read path := by
  -- The path leads to the same location, which is not that of the file.
  rw [read_eq, read_eq, locate_put new present]
  cases found : t.locate true path with
  | error => rfl
  | ok other =>
    have apart : other ≠ place := fun same => elsewhere (by rw [found, same])
    simp only [put, bind, Except.bind, Entry.sight?_put_of_file new present apart]

/-- Reading gives the new content at all paths that lead to the file. -/
theorem read_put (new : ByteArray) (present : t.top.at? place = some (.file old))
    {path : String} (leads : t.locate true path = .ok place) :
    (t.put place (.file new)).read path = .ok new := by
  rw [read_eq, locate_put new present, leads]
  simp [put, Entry.sight?, Entry.at?_put_of_file new present, Entry.sight, bind, Except.bind]

end Files.FileTree

namespace Scanner

/-- A scanner for the same files, emptied. -/
def blank (scanner : Scanner) : Scanner := { scanner with files := scanner.files.blank }

mutual
/-- A scan finds the same files at an entry that is emptied. -/
theorem filesAt_blank (scanner : Scanner) (closed : List Location) (place : Location)
    (path name : String) (e : Entry) :
    filesAt scanner.blank closed place path name e.blank =
      filesAt scanner closed place path name e := by
  match e with
  | .file _ => rw [Entry.blank, filesAt, filesAt, accepts, accepts, blank]
  | .directory entries =>
    rw [Entry.blank, filesAt, filesAt, filesAmong_blankAll scanner]
  | .link _ =>
    -- A link leads to the same location, where the same kind of entry stands.
    have same : scanner.blank.files.locate true path = scanner.files.locate true path :=
      scanner.files.locate_blank true path
    have follows : scanner.blank.followLinks = scanner.followLinks := rfl
    rw [Entry.blank, filesAt, filesAt, same, follows]
    cases scanner.files.locate true path with
    | error => rfl
    | ok target =>
      have there : scanner.blank.files.top.at? target =
          (scanner.files.top.at? target).map Entry.blank := scanner.files.top.at?_blank target
      dsimp only
      rw [there]
      cases scanner.files.top.at? target with
      | none => rfl
      | some entry => cases entry with
        | file | link => rfl
        | directory entries =>
          simp only [Option.map_some, Entry.blank]
          by_cases isClosed : target ∈ closed
          · rw [filesAmong_blankAll scanner]
          · simp [isClosed]
termination_by (closed.length, sizeOf e)
decreasing_by
  · rcases Nat.lt_or_eq_of_le (List.length_erase_le (l := closed) (a := place)) with less | same
    · exact Prod.Lex.left _ _ less
    · rw [same]; exact Prod.Lex.right _ (by simp)
  · exact Prod.Lex.left _ _ (by grind)
/-- A scan finds the same files among entries that are emptied. -/
theorem filesAmong_blankAll (scanner : Scanner) (closed : List Location) (place : Location)
    (path : String) (entries : List (String × Entry)) :
    filesAmong scanner.blank closed place path (Entry.blankAll entries) =
      filesAmong scanner closed place path entries := by
  match entries with
  | [] => rw [Entry.blankAll, filesAmong, filesAmong]
  | (name, entry) :: rest =>
    rw [Entry.blankAll, filesAmong, filesAmong, filesAt_blank scanner, filesAmong_blankAll scanner]
termination_by (closed.length, sizeOf entries)
end

/-- A scan finds the same files when all of them are emptied. -/
theorem scan_blank (scanner : Scanner) (root : String) :
    scanner.blank.scan root = scanner.scan root := by
  -- The root is the same kind of entry, and the same directories may be entered.
  have same : scanner.blank.files.locate true root = scanner.files.locate true root :=
    scanner.files.locate_blank true root
  have follows : scanner.blank.followLinks = scanner.followLinks := rfl
  have directories : scanner.blank.files.top.directories [] = scanner.files.top.directories [] :=
    scanner.files.top.directories_blank []
  rw [scan, scan, same, follows, directories]
  cases scanner.files.locate true root with
  | error => rfl
  | ok place =>
    have there : scanner.blank.files.top.at? place =
        (scanner.files.top.at? place).map Entry.blank := scanner.files.top.at?_blank place
    dsimp only
    rw [there]
    cases scanner.files.top.at? place with
    | none => rfl
    | some entry => cases entry with
      | file | link => rfl
      | directory entries =>
        simp only [Option.map_some, Entry.blank]
        rw [filesAmong_blankAll scanner]

end Scanner

end TypeGraph
