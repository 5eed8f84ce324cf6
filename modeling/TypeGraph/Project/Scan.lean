import TypeGraph.Failure

/-! The source files of a project: the files with the right extension below its root directory. -/

namespace TypeGraph

open Files

namespace Files.Entry

mutual
/-- The locations of all directories of a tree that stands at a location. -/
def directories (place : Location) : Entry → List Location
  | file _ | link _ => []
  | directory entries => place :: directoriesAmong place entries
/-- The locations of all directories in a directory at a location. -/
def directoriesAmong (place : Location) : List (String × Entry) → List Location
  | [] => []
  | (name, entry) :: rest => directories (place ++ [name]) entry ++ directoriesAmong place rest
end

end Files.Entry

/-- What is asked of a scan: where to look, and for what. -/
structure Scanner where
  files : FileTree
  extension : String
  followLinks : Bool

namespace Scanner

/-- The scanner for settings. -/
def ofSettings (files : FileTree) (s : Settings) : Scanner :=
  ⟨files, s.normalizedExtension, s.followLinks⟩

/-- Whether a file name has the extension that is looked for. -/
def accepts (scanner : Scanner) (name : String) : Bool :=
  Path.extension? name = some scanner.extension

/-- Lists with names, joined in the order of the names. -/
def inOrder {α : Type} (named : List (String × List α)) : List α :=
  (Entry.sorted named).flatMap (·.2)

mutual
/-- The paths of the source files at an entry with a name, a path and a location. Some directories
are not open: a link to any of these is followed, links to the open ones would lead in circles. -/
def filesAt (scanner : Scanner) (closed : List Location) (place : Location) (path name : String) :
    Entry → List String
  | .file _ => if scanner.accepts name then [path] else []
  | .directory entries => inOrder (filesAmong scanner (closed.erase place) place path entries)
  | .link _ =>
    if scanner.followLinks then match scanner.files.locate true path with
      | .error _ => []
      | .ok target => match scanner.files.top.at? target with
        | some (.file _) => if scanner.accepts name then [path] else []
        | some (.directory entries) =>
          if target ∈ closed then
            inOrder (filesAmong scanner (closed.erase target) target path entries)
          else []
        | _ => []
    else []
termination_by e => (closed.length, sizeOf e)
decreasing_by
  · -- Opening a directory takes away no more than itself, and its entries are smaller.
    rcases Nat.lt_or_eq_of_le (List.length_erase_le (l := closed) (a := place)) with less | same
    · exact Prod.Lex.left _ _ less
    · rw [same]; exact Prod.Lex.right _ (by simp)
  · -- A link is followed only to a directory that is not open, which is then open.
    exact Prod.Lex.left _ _ (by grind)
/-- The paths of the source files at each of some entries of a directory, with their names. -/
def filesAmong (scanner : Scanner) (closed : List Location) (place : Location) (path : String) :
    List (String × Entry) → List (String × List String)
  | [] => []
  | (name, entry) :: rest =>
    (name, filesAt scanner closed (place ++ [name]) (Path.join path name) name entry) ::
      filesAmong scanner closed place path rest
termination_by entries => (closed.length, sizeOf entries)
end

/-- The paths of the source files below a root directory. -/
def scan (scanner : Scanner) (root : String) : Except Failure (List String) :=
  match scanner.files.locate true root with
  | .error cause => .error (.file root cause)
  | .ok place => match scanner.files.top.at? place with
    | some (.directory entries) =>
      let closed := if scanner.followLinks then scanner.files.top.directories [] else []
      .ok (inOrder (filesAmong scanner (closed.erase place) place root entries))
    | _ => .error (.file root .unsuitableRoot)

end Scanner

end TypeGraph
