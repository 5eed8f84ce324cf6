import TypeGraph.Command.Run

/-! The command itself: takes in the files that a command line is about, runs, and saves. -/

namespace TypeGraph.Main

open Files Command

/-- The type of what is at a path, if anything is; links are not followed. -/
def typeAt? (path : String) : IO (Option IO.FS.FileType) := do
  try
    let here ← IO.currentDir
    return some (← (here / path).symlinkMetadata).type
  catch _ => return none

/-- The path without links of what a path leads to, if it leads anywhere. -/
def real? (path : String) : IO (Option String) := do
  try return some (← IO.FS.realPath path).toString catch _ => return none

/-- The names in a directory. -/
def names (path : String) : IO (List String) := do
  let some _ ← real? path | return []
  let entries ← (← IO.FS.realPath path).readDir
  return entries.toList.map (·.fileName)

/-- Take in the file at a path, with its content if that is looked at. -/
def takeFile (isWanted : Bool) (files : FileTree) (path : String) : IO FileTree := do
  if isWanted then return files.store path (.file (← IO.FS.readBinFile path))
  else if (files.entry path).toBool then return files
  else return files.store path (.file .empty)

/-- Take in the entry at a path, and that behind it if it is a link. What lies in a directory is
not taken in. -/
def takeEntry (wanted : String → Bool) (files : FileTree) (path : String) : IO FileTree := do
  match ← typeAt? path with
  | some .dir => return files.store path (.directory [])
  | some .file => takeFile (wanted path) files path
  | some .symlink =>
    let some target ← real? path | return files
    let files ← match ← typeAt? target with
      | some .dir => pure (files.store target (.directory []))
      | some .file => takeFile (wanted path || wanted target) files target
      | _ => pure files
    return files.store path (.link target)
  | _ => return files

/-- Take in what is on the way to a path. -/
def takeWay (wanted : String → Bool) (files : FileTree) (path : String) : IO FileTree :=
  (Path.ancestors path ++ [path]).foldlM (takeEntry wanted) files

/-- Take in all that lies below a directory, and below directories behind links if so asked. The
path holds no links, and directories that have been seen are left out. -/
partial def takeBelow (wanted : String → Bool) (followLinks : Bool)
    (state : FileTree × List String) (path : String) : IO (FileTree × List String) := do
  let (files, seen) := state
  if seen.contains path then return state
  let mut state := (files, path :: seen)
  for name in ← names path do
    let child := Path.join path name
    let kind ← typeAt? child
    if kind == some .symlink && !followLinks then continue
    state := (← takeEntry wanted state.1 child, state.2)
    let some target ← real? child | continue
    if (← typeAt? target) == some .dir then
      state ← takeBelow wanted followLinks state target
  return state

/-- The files that a request is about. -/
def takeFiles (r : Request) : IO FileTree := do
  let here := Path.steps (← IO.currentDir).toString
  let bare : FileTree := ⟨.directory [], []⟩
  let files := { bare.store (Path.join "/" ("/".intercalate here)) (.directory []) with here }
  let files ← (r.config.toList).foldlM (takeWay fun _ => true) files
  let files ← [Path.directory r.output, r.output, r.input].foldlM (takeWay fun _ => false) files
  match r.settings files, ← real? r.input with
  | .ok s, some root =>
    let wanted (path : String) : Bool := Path.extension? path = some s.normalizedExtension
    return (← takeBelow wanted s.followLinks (files, []) root).1
  | _, _ => return files

/-- Write a file beside a path and move it there. -/
def saveFile (path : String) (content : ByteArray) : IO Unit := do
  let directory := Path.directory path
  let taken := (← names directory).map fun name => (name, Entry.link "")
  let staged := Path.join directory (Entry.unusedName taken)
  IO.FS.writeBinFile staged content
  IO.FS.rename staged path

/-- Two digits of a number. -/
def twoDigits (n : Nat) : String := toString (n / 10 % 10) ++ toString (n % 10)

/-- Run a command line. -/
def run (arguments : List String) : IO UInt32 := do
  let start ← IO.monoMsNow
  let preset ← IO.getEnv "ARCHGRAPH_CONFIG"
  let request := Request.ofArguments preset arguments
  let files ← match request with
    | .ok r => takeFiles r
    | .error _ => pure ⟨.directory [], []⟩
  let outcome := runArguments preset arguments files
  outcome.printed.forM IO.println
  outcome.complaint.toList.forM IO.eprintln
  if let .ok r := request then
    if let (0, .ok content) := (outcome.exitCode, outcome.files.read r.output) then
      saveFile r.output content
      let time := ((← IO.monoMsNow) - start) / 10
      IO.println ("Total execution time: " ++ toString (time / 100) ++ "." ++
        twoDigits time ++ "s")
  return outcome.exitCode.toUInt32

end TypeGraph.Main

/-- The command. -/
def main (arguments : List String) : IO UInt32 := TypeGraph.Main.run arguments
