import TypeGraph.Files.Entry
import TypeGraph.Files.Path

/-! A file tree with a current directory: what paths lead to, reading, and changes. -/

namespace TypeGraph.Files

/-- Why something cannot be done with a file. -/
inductive Refusal where
  | absent
  | notDirectory
  | isDirectory
  | tooManyLinks
  | nameTooLong
  | busy
  /-- The path holds a zero character. -/
  | zeroInPath
  /-- The root of a project is something other than a directory. -/
  | unsuitableRoot
  | notText
  /-- Anything else that a system says no to, such as a full device, with the text it gives. -/
  | system (text : String)
deriving DecidableEq, Repr

/-- The text of a refusal. -/
def Refusal.message : Refusal → String
  | absent => "No such file or directory (os error 2)"
  | notDirectory => "Not a directory (os error 20)"
  | isDirectory => "Is a directory (os error 21)"
  | tooManyLinks => "Too many levels of symbolic links (os error 40)"
  | nameTooLong => "File name too long (os error 36)"
  | busy => "Device or resource busy (os error 16)"
  | zeroInPath => "file name contained an unexpected NUL byte"
  | unsuitableRoot => "not a directory"
  | notText => "stream did not contain valid UTF-8"
  | system text => text

/-- All files there are, and the directory from which paths lead unless they start at the top. -/
structure FileTree where
  top : Entry
  here : Location

namespace FileTree

/-- How many links may be followed on the way to one entry. -/
def linkLimit : Nat := 40

/-- How many bytes a name may have. -/
def nameLimit : Nat := 255

/-- How many bytes a path may have. -/
def pathLimit : Nat := 4095

/-- Where a path starts. -/
def origin (place : Location) (path : String) : Location :=
  if Path.isAbsolute path then [] else place

/-- The location to which steps lead from a place. A link at the very end is followed if so asked,
other links always, and no more of them than a limit. -/
def walk (top : Entry) (followLast : Bool) (links : Nat) (place : Location)
    (steps : List String) : Except Refusal Location :=
  match steps with
  | [] => .ok place
  | step :: rest => match top.at? place with
    | some (.directory entries) =>
      if step = "." then walk top followLast links place rest
      else if step = ".." then walk top followLast links place.dropLast rest
      else if nameLimit < step.utf8ByteSize then .error .nameTooLong
      else match entries.lookup step with
        | none => .error .absent
        | some (.link target) =>
          if rest.isEmpty && !followLast then .ok (place ++ [step])
          else match links with
            | 0 => .error .tooManyLinks
            | links + 1 =>
              walk top followLast links (origin place target) (Path.steps target ++ rest)
        | some _ => walk top followLast links (place ++ [step]) rest
    | _ => .error .notDirectory
termination_by (links, steps.length)

/-- The location to which a path leads. -/
def locate (t : FileTree) (followLast : Bool) (path : String) : Except Refusal Location :=
  if path = "" then .error .absent
  else if path.toList.contains '\x00' then .error .zeroInPath
  else if pathLimit < path.utf8ByteSize then .error .nameTooLong
  else walk t.top followLast linkLimit (origin t.here path) (Path.steps path)

/-- The entry to which a path leads, past all links. -/
def entry (t : FileTree) (path : String) : Except Refusal Entry := do
  match t.top.at? (← t.locate true path) with
  | some entry => return entry
  | none => .error .absent

/-- The content of a file. -/
def read (t : FileTree) (path : String) : Except Refusal ByteArray := do
  match ← t.entry path with
  | .file content => return content
  | .directory _ => .error .isDirectory
  | .link _ => .error .absent

/-- The content of a file as text. -/
def readText (t : FileTree) (path : String) : Except Refusal String := do
  match String.fromUTF8? (← t.read path) with
  | some text => return text
  | none => .error .notText

/-- The tree with an entry put at a location. -/
def put (t : FileTree) (location : Location) (entry : Entry) : FileTree :=
  { t with top := Entry.put entry location t.top }

/-- The location at which a path has its last name, whether something is there or not. -/
def slot (t : FileTree) (path : String) : Except Refusal Location :=
  if path = "" then .error .absent
  else if path.toList.contains '\x00' then .error .zeroInPath
  else if pathLimit < path.utf8ByteSize then .error .nameTooLong
  else match ((Path.pieces path).filter (· ≠ "")).reverse with
    | [] => .error .busy
    | name :: before => do
      let place ← walk t.top true linkLimit (origin t.here path) (before.reverse ++ ["."])
      if name = "." || name = ".." then .error .busy
      else if nameLimit < name.utf8ByteSize then .error .nameTooLong
      else return place ++ [name]

/-- The tree without the entry at a location. -/
def remove (t : FileTree) (location : Location) : FileTree :=
  { t with top := Entry.remove location t.top }

/-- Make a new file, still empty, in the directory to which a path leads, and tell where. -/
def stage (t : FileTree) (path : String) : Except Refusal (FileTree × Location) := do
  let place ← t.locate true path
  match t.top.at? place with
  | some (.directory entries) =>
    let location := place ++ [Entry.unusedName entries]
    return (t.put location (.file .empty), location)
  | _ => .error .notDirectory

/-- Move a file to a path in place of what is there, be it a link, unless that is a directory. -/
def move (t : FileTree) (source : Location) (path : String) : Except Refusal FileTree := do
  let location ← t.slot path
  if Path.endsWithSlash path then .error .notDirectory
  else match t.top.at? location, t.top.at? source with
    | some (.directory _), _ => .error .isDirectory
    | _, some moved => return (t.remove source).put location moved
    | _, none => .error .absent

/-- Make a directory at a path, if nothing is there yet. -/
def makeDirectory (t : FileTree) (path : String) : FileTree :=
  match t.slot path with
  | .ok location =>
    if (t.top.at? location).isSome then t else t.put location (.directory [])
  | .error _ => t

/-- Put an entry at a path and make the directories that lead there. A file replaces the content
of the file that is there already, even behind a link; a directory stays as it is. -/
def store (t : FileTree) (path : String) (entry : Entry) : FileTree :=
  let t := (Path.ancestors path).foldl makeDirectory t
  match entry with
  | .directory _ => t.makeDirectory path
  | .link _ => match t.slot path with
    | .ok location => t.put location entry
    | .error _ => t
  | .file _ => match t.locate true path, t.slot path with
    | .ok location, _ => t.put location entry
    | .error _, .ok location => t.put location entry
    | .error _, .error _ => t

end FileTree

end TypeGraph.Files
