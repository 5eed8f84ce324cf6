import TypeGraph.Text.Blank

/-! What an extraction can be told about: the files to take and the relations to record. -/

namespace TypeGraph

/-- A way in which one type depends on another. -/
inductive EdgeKind where
  | inherit | call | reference
deriving DecidableEq, Repr

namespace EdgeKind

/-- Every kind of edge. -/
def all : List EdgeKind := [inherit, call, reference]

/-- The name of a kind of edge. -/
def name : EdgeKind → String
  | inherit => "inherit"
  | call => "call"
  | reference => "reference"

/-- The kind of edge with a given name. -/
def ofName? (name : String) : Option EdgeKind := all.find? fun kind => kind.name = name

end EdgeKind

/-- Which of the written supertypes count. -/
inductive Supertypes where
  /-- Only the first type that is extended. -/
  | first
  /-- All types that are extended or implemented. -/
  | all
deriving DecidableEq, Repr

namespace Supertypes

/-- The name of a choice of supertypes. -/
def name : Supertypes → String
  | first => "first"
  | all => "all"

/-- The choice of supertypes with a given name. -/
def ofName? (name : String) : Option Supertypes :=
  if name = "first" then some .first else if name = "all" then some .all else none

end Supertypes

/-- The settings of an extraction. -/
structure Settings where
  /-- The extension of source files. -/
  extension : String := "java"
  /-- Whether to look for files through symbolic links. -/
  followLinks : Bool := false
  /-- Whether files may be read side by side. -/
  parallel : Bool := true
  /-- Whether classes go by qualified names. -/
  resolveNames : Bool := true
  /-- Whether the targets of edges go by qualified names. -/
  resolveTargets : Bool := false
  /-- The supertypes that make inherit edges. -/
  supertypes : Supertypes := .first
  /-- The kinds of edges to record. -/
  edgeKinds : List EdgeKind := [.inherit]
deriving DecidableEq, Repr

/-- A reason why settings cannot be used. -/
inductive SettingsFault where
  | emptyExtension
  | noEdgeKind
deriving DecidableEq, Repr

/-- The text of a reason why settings cannot be used. -/
def SettingsFault.message : SettingsFault → String
  | emptyExtension => "`extension` must not be empty"
  | noEdgeKind => "`edge_kinds` must name at least one edge kind"

namespace Settings

/-- The extension without blanks around it and dots before it. -/
def normalizedExtension (s : Settings) : String :=
  String.ofList ((Text.trim s.extension.toList).dropWhile (· = '.'))

/-- Whether edges of a kind are recorded. -/
def emits (s : Settings) (kind : EdgeKind) : Bool := s.edgeKinds.contains kind

/-- The first reason why settings cannot be used. -/
def fault? (s : Settings) : Option SettingsFault :=
  if s.normalizedExtension.isEmpty then some .emptyExtension
  else if s.edgeKinds.isEmpty then some .noEdgeKind
  else none

end Settings

end TypeGraph
