import TypeGraph.Project.Save
import TypeGraph.Proofs.Files.Walk

/-! A document is saved as a whole, with no other change to the files, or not at all. -/

namespace TypeGraph

open Files FileTree Entry

namespace Files.FileTree

/-- What can be seen at a location of all files. -/
def sight? (t : FileTree) (place : Location) : Option Sight := t.top.sight? place

/-- A location of a directory at which nothing stands. -/
structure Free (t : FileTree) (location : Location) : Prop where
  absent : t.sight? location = none
  above : ∃ place name, location = place ++ [name] ∧ t.sight? place = some .directory

/-- Files can be made in the directory to which a path leads. -/
def Opens (t : FileTree) (path : String) : Prop :=
  ∃ place, t.locate true path = .ok place ∧ t.sight? place = some .directory

/-- A new file is made at a free location of a directory. -/
theorem exists_free_of_stage {t staged : FileTree} {path : String} {location : Location}
    (made : t.stage path = .ok (staged, location)) :
    t.Opens path ∧ t.Free location ∧ staged = t.put location (.file .empty) := by
  -- The name of the new file is in no entry of the directory.
  obtain ⟨place, found, made⟩ := bind_eq_ok_iff.mp made
  split at made
  · rename_i entries here
    cases made
    have directory : t.sight? place = some .directory := sight?_eq_directory.mpr ⟨entries, here⟩
    have unused : entries.lookup (unusedName entries) = none :=
      List.lookup_eq_none_iff.mpr fun entry member => by
        simpa using (ne_unusedName entries entry member).symm
    refine ⟨⟨place, found, directory⟩, ⟨?_, place, _, rfl, directory⟩, rfl⟩
    rw [sight?, sight?_concat here, unused]
    rfl
  · cases made

/-- A new file can be made wherever files can be made. -/
theorem Opens.exists_stage {t : FileTree} {path : String} (opens : t.Opens path) :
    ∃ made, t.stage path = .ok made := by
  obtain ⟨place, found, directory⟩ := opens
  obtain ⟨entries, here⟩ := sight?_eq_directory.mp directory
  exact ⟨_, bind_eq_ok_iff.mpr ⟨place, found, by rw [here]; rfl⟩⟩

variable {t : FileTree} {location : Location} {content : ByteArray}

/-- Filling a new file leaves it the only difference. -/
theorem put_put (first second : Entry) :
    (t.put location first).put location second = t.put location second := by
  simp [put, Entry.put_put]

/-- Removing a new file leaves no difference. -/
theorem Free.remove_put (free : t.Free location) (new : Entry) :
    (t.put location new).remove location = t := by
  obtain ⟨place, name, rfl, above⟩ := free.above
  simp [put, remove, Entry.remove_put new above free.absent]

/-- At the location of a new file the file can be seen. -/
theorem sight?_put_self {place : Location} {name : String}
    (above : t.sight? place = some .directory) (new : Entry) :
    (t.put (place ++ [name]) new).sight? (place ++ [name]) = some new.sight := by
  obtain ⟨entries, here⟩ := sight?_eq_directory.mp above
  simp [sight?, Entry.sight?, put, at?_put name place here]

/-- Putting a file where no directory is changes what can be seen nowhere else. -/
theorem sight?_put_file {place other : Location} {name : String}
    (above : t.sight? place = some .directory)
    (old : t.sight? (place ++ [name]) ≠ some .directory) (elsewhere : other ≠ place ++ [name]) :
    (t.put (place ++ [name]) (.file content)).sight? other = t.sight? other :=
  sight?_put above old (by simp [sight]) elsewhere

/-- With a new file there is one file more. -/
theorem Free.more (free : t.Free location) (content : ByteArray) :
    More t.top (t.put location (.file content)).top (· = location) := by
  -- Nothing was there before, and nothing else has changed.
  obtain ⟨place, name, rfl, above⟩ := free.above
  refine ⟨?_, ?_, ?_⟩
  · rintro _ rfl
    exact free.absent
  · rintro _ rfl
    exact ⟨content, sight?_put_self above _⟩
  · intro other elsewhere
    exact congrArg _ (sight?_put_file above (by simp [free.absent]) elsewhere)

/-- A new file that is moved takes the place of what can be seen at the end of a path, which is
no directory. -/
theorem Free.move_eq_ok_iff (free : t.Free location) {path : String} {after : FileTree} :
    (t.put location (.file content)).move location path = .ok after ↔
      Path.endsWithSlash path = false ∧ ∃ target, t.slot path = .ok target ∧
        t.sight? target ≠ some .directory ∧ after = t.put target (.file content) := by
  -- The way to the directory of the target does not lead through the new file.
  have same := (free.more content).slot_eq_ok_iff path
  have moved : (t.put location (.file content)).top.at? location = some (.file content) := by
    obtain ⟨place, name, rfl, above⟩ := free.above
    obtain ⟨entries, here⟩ := sight?_eq_directory.mp above
    exact at?_put name place here
  constructor
  · intro done
    obtain ⟨target, found, done⟩ := bind_eq_ok_iff.mp done
    split at done
    · cases done
    rename_i plain
    refine ⟨by simpa using plain, target, (same target).mp found, ?_⟩
    split at done
    · cases done
    · rename_i source found' leaf
      rw [moved] at found'
      cases found'
      cases done
      rw [free.remove_put]
      refine ⟨fun directory => ?_, rfl⟩
      obtain ⟨entries, here⟩ :=
        sight?_eq_directory.mp ((free.more content).directory_iff.mpr directory)
      exact leaf entries here
    · cases done
  · rintro ⟨plain, target, found, leaf, rfl⟩
    refine bind_eq_ok_iff.mpr ⟨target, (same target).mpr found, ?_⟩
    have leaf' : ∀ entries,
        (t.put location (.file content)).top.at? target ≠ some (.directory entries) :=
      fun entries here =>
        leaf ((free.more content).directory_iff.mp (sight?_eq_directory.mpr ⟨entries, here⟩))
    simp only [plain, moved, free.remove_put]
    cases there : (t.put location (.file content)).top.at? target with
    | none => rfl
    | some old => cases old with
      | directory entries => exact absurd there (leaf' entries)
      | file | link => rfl

/-- How a path takes a file: one can be made beside it, and no directory stands at its end. -/
structure Takes (t : FileTree) (path : String) (target : Location) : Prop where
  beside : t.Opens (Path.directory path)
  name : Path.endsWithSlash path = false
  slot : t.slot path = .ok target
  leaf : t.sight? target ≠ some .directory

end Files.FileTree

/-- Something has been done if no mishap came in between. -/
theorem unlessRefused_eq_ok_iff {α : Type} {mishap : Option Refusal} {done : Except Refusal α}
    {a : α} : unlessRefused mishap done = .ok a ↔ mishap = none ∧ done = .ok a := by
  cases mishap <;> simp [unlessRefused]

namespace Document

/-- Without mishaps a document is saved at a path that takes a file, and otherwise nothing is. -/
theorem save_eq (d : Document) (layout : Json.Layout) (files : FileTree) (path : String)
    (mishaps : Mishaps) :
    (∃ target, mishaps = {} ∧ files.Takes path target ∧
        d.save layout files path mishaps =
          ⟨files.put target (.file (d.render layout).toUTF8), none⟩) ∨
      (∀ target, ¬(mishaps = {} ∧ files.Takes path target)) ∧
        ∃ failure, d.save layout files path mishaps = ⟨files, some failure⟩ := by
  unfold save
  extract_lets directory text
  cases made : unlessRefused mishaps.making (files.stage directory) with
  | error cause =>
    -- No file can be made in the directory.
    refine .inr ⟨?_, _, rfl⟩
    rintro target ⟨rfl, takes⟩
    obtain ⟨made', possible⟩ := takes.beside.exists_stage
    cases made.symm.trans possible
  | ok made' =>
    obtain ⟨staged, location⟩ := made'
    obtain ⟨making, possible⟩ := unlessRefused_eq_ok_iff.mp made
    obtain ⟨opens, free, rfl⟩ := exists_free_of_stage possible
    cases filling : mishaps.filling with
    | some stopped =>
      -- The file with the start of the text is removed.
      obtain ⟨count, cause⟩ := stopped
      refine .inr ⟨?_, .file (Path.join directory (location.getLast?.getD "")) cause, by
        simp only [FileTree.put_put, free.remove_put]⟩
      rintro target ⟨rfl, -⟩
      cases filling
    | none =>
      simp only [FileTree.put_put]
      cases moved : unlessRefused mishaps.moving
          ((files.put location (.file text)).move location path) with
      | error cause =>
        -- The file with the whole text is removed.
        refine .inr ⟨?_, _, by rw [free.remove_put]⟩
        rintro target ⟨rfl, takes⟩
        have possible : (files.put location (.file text)).move location path =
            .ok (files.put target (.file text)) :=
          free.move_eq_ok_iff.mpr ⟨takes.name, target, takes.slot, takes.leaf, rfl⟩
        cases moved.symm.trans possible
      | ok after =>
        obtain ⟨moving, done⟩ := unlessRefused_eq_ok_iff.mp moved
        obtain ⟨plain, target, slot, leaf, rfl⟩ := free.move_eq_ok_iff.mp done
        have none : mishaps = {} := by
          cases mishaps
          simp_all
        exact .inl ⟨target, none, ⟨opens, plain, slot, leaf⟩, rfl⟩

/-- Saving a document fails and changes nothing about the files, or it succeeds, and then all that
is different is that the last name of the path stands for a file with the text of the document.
It succeeds if there is no mishap, a file can be made beside the path, and no directory stands at
the end of the path. -/
theorem save_whole_or_nothing (d : Document) (layout : Json.Layout) (files : FileTree)
    (path : String) (mishaps : Mishaps) :
    let saved := d.save layout files path mishaps
    ((saved.failure = none ∧ saved.files.here = files.here ∧ ∃ target,
        files.slot path = .ok target ∧
        saved.files.sight? target = some (.file (d.render layout).toUTF8) ∧
        ∀ other, other ≠ target → saved.files.sight? other = files.sight? other) ∨
      (saved.failure.isSome ∧ saved.files = files)) ∧
    (saved.failure = none ↔ mishaps = {} ∧ ∃ target, files.Takes path target) := by
  -- Saving either puts the text at the target or leaves all files as they are.
  intro saved
  rcases d.save_eq layout files path mishaps with
    ⟨target, calm, takes, same⟩ | ⟨never, failure, same⟩
  · -- Only the target is another, and it stands in a directory.
    obtain ⟨place, name, rfl, above⟩ := exists_of_slot takes.slot
    have done : saved.failure = none := congrArg Saved.failure same
    have after : saved.files = files.put (place ++ [name]) (.file (d.render layout).toUTF8) :=
      congrArg Saved.files same
    rw [after]
    refine ⟨.inl ⟨done, rfl, _, takes.slot, sight?_put_self above _, ?_⟩,
      fun _ => ⟨calm, _, takes⟩, fun _ => done⟩
    exact fun other elsewhere => sight?_put_file above takes.leaf elsewhere
  · have failed : saved.failure = some failure := congrArg Saved.failure same
    refine ⟨.inr ⟨by simp [failed], congrArg Saved.files same⟩, ?_⟩
    simp only [failed, reduceCtorEq, false_iff]
    exact fun ⟨calm, target, takes⟩ => never target ⟨calm, takes⟩

end Document

end TypeGraph
