import TypeGraph.Responsibility
import TypeGraph.Settings.Basic

/-! The records of extracted types and the document that collects them. -/

namespace TypeGraph

/-- What is recorded of a method. -/
structure MethodRecord where
  name : String
  /-- How many line ends the declaration holds. -/
  lines : Nat
  purpose : Responsibility
deriving DecidableEq, Repr

/-- How many methods and field declarations a type has. -/
structure Metrics where
  methods : Nat
  fields : Nat
deriving DecidableEq, Repr

/-- A dependency on the type with a given name. -/
structure Dependency where
  kind : EdgeKind
  target : String
deriving DecidableEq, Repr

/-- What is recorded of a class or interface. -/
structure TypeRecord where
  simpleName : String
  qualifiedName : Option String
  isInterface : Bool
  methods : List MethodRecord
  metrics : Metrics
  dependencies : List Dependency
deriving DecidableEq, Repr

/-- The name that a recorded type goes by: the qualified one, if known. -/
def TypeRecord.className (r : TypeRecord) : String := r.qualifiedName.getD r.simpleName

/-- The recorded types of a project. -/
structure Document where
  project : String
  classes : List TypeRecord
deriving DecidableEq, Repr

namespace Document

/-- A document without classes. -/
def empty (project : String) : Document := ⟨project, []⟩

/-- A document with more classes at its end. -/
def append (d : Document) (records : List TypeRecord) : Document :=
  { d with classes := d.classes ++ records }

/-- How many dependencies the classes have in all. -/
def edgeCount (d : Document) : Nat := (d.classes.flatMap (·.dependencies)).length

/-- The dependencies of a longer document are those of the document and those of the records. -/
theorem edgeCount_append (d : Document) (records : List TypeRecord) :
    (d.append records).edgeCount = d.edgeCount + (records.flatMap (·.dependencies)).length := by
  -- The dependencies of the records in a row are in a row too.
  simp only [append, edgeCount, List.flatMap_append, List.length_append]

end Document

end TypeGraph
