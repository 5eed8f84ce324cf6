import TypeGraph.Failure
import TypeGraph.Json.OfDocument

/-! The saving of a document, which is done as a whole or not at all. -/

namespace TypeGraph

open Files

/-- Files after an operation, which may have failed, with the reason then. -/
structure Saved where
  files : FileTree
  failure : Option Failure

/-- What may go wrong while a file is saved, apart from what the tree of files forbids itself. -/
structure Mishaps where
  /-- The new file may not be made. -/
  making : Option Refusal := none
  /-- Only so many bytes of the text find a place. -/
  filling : Option (Nat × Refusal) := none
  /-- The new file may not be moved. -/
  moving : Option Refusal := none
deriving DecidableEq, Repr

/-- What has been done unless a mishap has come in between. -/
def unlessRefused {α : Type} (mishap : Option Refusal) (done : Except Refusal α) :
    Except Refusal α :=
  match mishap with
  | some cause => .error cause
  | none => done

/-- Save a document at a path. The text is written to a new file beside the path, which then takes
the place of what is there; whatever goes wrong, that file is removed again. -/
def Document.save (d : Document) (layout : Json.Layout) (files : FileTree) (path : String)
    (mishaps : Mishaps := {}) : Saved :=
  let directory := Path.directory path
  let text := (d.render layout).toUTF8
  match unlessRefused mishaps.making (files.stage directory) with
  | .error cause => ⟨files, some (.staging directory cause)⟩
  | .ok (staged, location) => match mishaps.filling with
    | some (count, cause) =>
      -- The file holds the start of the text by then.
      let filled := staged.put location (.file (text.extract 0 count))
      ⟨filled.remove location,
        some (.file (Path.join directory (location.getLast?.getD "")) cause)⟩
    | none =>
      let filled := staged.put location (.file text)
      match unlessRefused mishaps.moving (filled.move location path) with
      | .error cause => ⟨filled.remove location, some (.file path cause)⟩
      | .ok files => ⟨files, none⟩

end TypeGraph
