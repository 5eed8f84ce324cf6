import TypeGraph.Json.OfDocument
import TypeGraph.Proofs.Json.Print

/-! What a document tells is read back from its text. -/

namespace TypeGraph

open Json

namespace Json.Value

/-- The member of an object with a given name. -/
def member? (name : String) : Value → Option Value
  | object members => members.lookup name
  | _ => none

/-- A value that is a text. -/
def text? : Value → Option String
  | string text => some text
  | _ => none

/-- A value that is a truth value. -/
def flag? : Value → Option Bool
  | bool value => some value
  | _ => none

/-- A value that is a natural number. -/
def count? : Value → Option Nat
  | number ⟨.ofNat n, 0⟩ => some n
  | _ => none

/-- A value that is a list of what each item stands for. -/
def list? {α : Type} (item : Value → Option α) : Value → Option (List α)
  | array items => items.mapM item
  | _ => none

/-- A list is read back if each item is. -/
theorem list?_map {α β : Type} {item : Value → Option β} {form : α → Json} {told : α → β}
    (read : ∀ a, item (form a).value = some (told a)) (as : List α) :
    list? item (Json.array (as.map form)).value = some (as.map told) := by
  -- The items are read one by one.
  change (values (as.map form)).mapM item = _
  induction as with
  | nil => rfl
  | cons a as ih => simp [values, read a, ih]

end Json.Value

open Json.Value

/-- The purpose with a given name. -/
def Responsibility.ofName? (name : String) : Option Responsibility :=
  [persistence, presentation, security, businessLogic].find? fun purpose => purpose.name = name

/-- What a document tells about a type: how it is called is all that is told about its names. -/
structure TypeOutline where
  className : String
  isInterface : Bool
  methods : List MethodRecord
  metrics : Metrics
  dependencies : List Dependency
deriving DecidableEq, Repr

/-- What a document tells. -/
structure Outline where
  project : String
  classes : List TypeOutline
deriving DecidableEq, Repr

/-- What is told about a type. -/
def TypeRecord.outline (r : TypeRecord) : TypeOutline :=
  ⟨r.className, r.isInterface, r.methods, r.metrics, r.dependencies⟩

/-- What is told about a project. -/
def Document.outline (d : Document) : Outline := ⟨d.project, d.classes.map TypeRecord.outline⟩

/-- The method for which a value stands. -/
def MethodRecord.ofValue? (v : Value) : Option MethodRecord := do
  let name ← (← v.member? "name").text?
  let lines ← (← v.member? "lines").count?
  let purpose ← Responsibility.ofName? (← (← v.member? "inferred_resp").text?)
  return ⟨name, lines, purpose⟩

/-- The counts for which a value stands. -/
def Metrics.ofValue? (v : Value) : Option Metrics := do
  let methods ← (← v.member? "methodCount").count?
  let fields ← (← v.member? "fieldCount").count?
  return ⟨methods, fields⟩

/-- The dependency for which a value stands. -/
def Dependency.ofValue? (v : Value) : Option Dependency := do
  let kind ← EdgeKind.ofName? (← (← v.member? "type").text?)
  let target ← (← v.member? "target").text?
  return ⟨kind, target⟩

/-- What a value tells about a type. -/
def TypeOutline.ofValue? (v : Value) : Option TypeOutline := do
  let className ← (← v.member? "className").text?
  let isInterface ← (← v.member? "isInterface").flag?
  let methods ← (← v.member? "methods").list? MethodRecord.ofValue?
  let metrics ← Metrics.ofValue? (← v.member? "metrics")
  let dependencies ← (← v.member? "dependencies").list? Dependency.ofValue?
  return ⟨className, isInterface, methods, metrics, dependencies⟩

/-- What a value tells about a project. -/
def Outline.ofValue? (v : Value) : Option Outline := do
  let project ← (← v.member? "project").text?
  let classes ← (← v.member? "classes").list? TypeOutline.ofValue?
  return ⟨project, classes⟩

/-- The method of a record is read back. -/
theorem MethodRecord.ofValue?_toJson (m : MethodRecord) : ofValue? m.toJson.value = some m := by
  obtain ⟨name, lines, purpose⟩ := m
  cases purpose <;> rfl

/-- The counts of a type are read back. -/
theorem Metrics.ofValue?_toJson (m : Metrics) : ofValue? m.toJson.value = some m := rfl

/-- A dependency is read back. -/
theorem Dependency.ofValue?_toJson (d : Dependency) : ofValue? d.toJson.value = some d := by
  obtain ⟨kind, target⟩ := d
  cases kind <;> rfl

/-- What is told about a type is read back. -/
theorem TypeOutline.ofValue?_toJson (r : TypeRecord) :
    ofValue? r.toJson.value = some r.outline := by
  have methods := list?_map MethodRecord.ofValue?_toJson r.methods
  have dependencies := list?_map Dependency.ofValue?_toJson r.dependencies
  rw [List.map_id'] at methods dependencies
  -- All members are found; only lists need more than a look.
  calc ofValue? r.toJson.value
    _ = (list? MethodRecord.ofValue? (Json.array (r.methods.map MethodRecord.toJson)).value).bind
          fun methods =>
            (list? Dependency.ofValue?
              (Json.array (r.dependencies.map Dependency.toJson)).value).bind fun dependencies =>
                some ⟨r.className, r.isInterface, methods, r.metrics, dependencies⟩ := rfl
    _ = some r.outline := by rw [methods, dependencies]; rfl

/-- What is told about a project is read back. -/
theorem Outline.ofValue?_toJson (d : Document) : ofValue? d.toJson.value = some d.outline := by
  have classes := list?_map TypeOutline.ofValue?_toJson d.classes
  calc ofValue? d.toJson.value
    _ = (list? TypeOutline.ofValue? (Json.array (d.classes.map TypeRecord.toJson)).value).bind
          fun classes => some ⟨d.project, classes⟩ := rfl
    _ = some d.outline := by rw [classes]; rfl

/-- The text of a document is a JSON text in every layout. It stands for the form of the document,
from which all that the document tells is read back; so documents with the same text tell the same,
even in different layouts. -/
theorem Document.read_render (d : Document) :
    (∀ layout, Json.read (d.render layout) = some d.toJson.value) ∧
    (∀ layout, (Json.read (d.render layout)).bind Outline.ofValue? = some d.outline) ∧
    ∀ layout (other : Document) layout', other.render layout' = d.render layout →
      other.outline = d.outline := by
  -- What is told is read from the value, which is read from the text.
  have read (d : Document) (layout : Layout) :
      Json.read (d.render layout) = some d.toJson.value := Json.read_text layout d.toJson
  have told (d : Document) (layout : Layout) :
      (Json.read (d.render layout)).bind Outline.ofValue? = some d.outline := by
    rw [read, Option.bind_some, Outline.ofValue?_toJson]
  refine ⟨read d, told d, fun layout other layout' same => ?_⟩
  exact Option.some.inj (by rw [← told other layout', same, told d layout])

end TypeGraph
