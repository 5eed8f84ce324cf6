import TypeGraph.Declaration.OfTree
import TypeGraph.Files.Tree
import TypeGraph.Java.Fault
import TypeGraph.Settings.OfToml

/-! Why an operation on a project cannot be done. -/

namespace TypeGraph

/-- Why an operation cannot be done, with the path that it is about. -/
inductive Failure where
  | file (path : String) (cause : Files.Refusal)
  /-- No temporary file can be made in the directory with a path. -/
  | staging (path : String) (cause : Files.Refusal)
  | source (path : String) (fault : Java.SyntaxFault)
  /-- A settings file with some text is not a document that gives settings. -/
  | document (path : String) (text : List Char) (fault : Toml.Fault)
  | settings (path : String) (fault : SettingsFault)

namespace Failure

/-- The text of a failure. -/
def message : Failure → String
  | file path cause | staging path cause => "IO error at " ++ path ++ ": " ++ cause.message
  | source path fault => "Parse error in " ++ path ++ ": " ++ fault.message
  | document path text fault =>
    "Invalid configuration in " ++ path ++ ": " ++ fault.message text
  | settings path fault => "Invalid configuration in " ++ path ++ ": " ++ fault.message

/-- The failure that lies behind a failure, if it is told apart from it. -/
def cause? : Failure → Option String
  | file _ cause => some cause.message
  | _ => none

end Failure

namespace Settings

/-- The settings themselves, if they can be used; their origin is named otherwise. -/
def checked (s : Settings) (origin : String) : Except Failure Settings :=
  match s.fault? with
  | some fault => .error (.settings origin fault)
  | none => .ok s

/-- The settings that a file gives. -/
def load (files : Files.FileTree) (path : String) : Except Failure Settings := do
  let text ← (files.readText path).mapError (Failure.file path)
  let settings ← (ofToml text.toList).mapError (Failure.document path text.toList)
  settings.checked path

end Settings

/-- The declarations of a source file with some text. -/
def CompilationUnit.ofText (path : String) (text : List Char) : Except Failure CompilationUnit :=
  match Java.read text with
  | .ok tree => .ok (.ofTree path tree)
  | .error fault => .error (.source path fault)

end TypeGraph
