import TypeGraph.Json.Basic
import TypeGraph.Record

/-! The form in which documents are handed on. -/

namespace TypeGraph

open Json

/-- The form of a method record. -/
def MethodRecord.toJson (m : MethodRecord) : Json :=
  object [("name", string m.name), ("lines", number m.lines),
    ("inferred_resp", string m.purpose.name)]

/-- The form of the counts of a type. -/
def Metrics.toJson (m : Metrics) : Json :=
  object [("methodCount", number m.methods), ("fieldCount", number m.fields)]

/-- The form of a dependency. -/
def Dependency.toJson (d : Dependency) : Json :=
  object [("type", string d.kind.name), ("target", string d.target)]

/-- The form of the record of a type. -/
def TypeRecord.toJson (r : TypeRecord) : Json :=
  object [("className", string r.className), ("isInterface", bool r.isInterface),
    ("methods", array (r.methods.map MethodRecord.toJson)), ("metrics", r.metrics.toJson),
    ("dependencies", array (r.dependencies.map Dependency.toJson))]

/-- The form of a document. -/
def Document.toJson (d : Document) : Json :=
  object [("project", string d.project), ("classes", array (d.classes.map TypeRecord.toJson))]

/-- The text of a document. -/
def Document.render (d : Document) (layout : Layout) : String := Json.render layout d.toJson

end TypeGraph
