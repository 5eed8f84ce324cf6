import Mathlib.Data.List.Perm.Basic
import TypeGraph.Extract

/-! The order in which a type declares its members matters to the order of what is recorded of them,
and to nothing else. -/

namespace TypeGraph

/-- Two declarations of a type with the same members, in any order but for the fields, which come in
the same order in both. -/
structure TypeDecl.Rearranged (d other : TypeDecl) : Prop where
  kind : d.kind = other.kind
  name : d.name = other.name
  extended : d.extended = other.extended
  implemented : d.implemented = other.implemented
  members : d.members.Perm other.members
  fields : d.fields = other.fields

/-- Two lists of dependencies that differ at most in the order of calls among each other. -/
structure Dependency.AlikeButCalls (ds others : List Dependency) : Prop where
  inherits : ds.filter (fun e => e.kind = .inherit) = others.filter fun e => e.kind = .inherit
  references : ds.filter (fun e => e.kind = .reference) = others.filter fun e => e.kind = .reference
  calls : (ds.filter fun e => e.kind = .call).Perm (others.filter fun e => e.kind = .call)

/-- Two records that differ at most in the order of methods and in that of calls. -/
structure TypeRecord.Rearranged (r other : TypeRecord) : Prop where
  simpleName : r.simpleName = other.simpleName
  qualifiedName : r.qualifiedName = other.qualifiedName
  isInterface : r.isInterface = other.isInterface
  methods : r.methods.Perm other.methods
  metrics : r.metrics = other.metrics
  dependencies : Dependency.AlikeButCalls r.dependencies other.dependencies

namespace TypeDecl.Rearranged

variable {d other : TypeDecl} (rearranged : d.Rearranged other)
include rearranged

/-- The executable contents of the members come in another order at most. -/
theorem perm_bodies : d.bodies.Perm other.bodies := rearranged.members.filterMap _

/-- The methods come in another order at most. -/
theorem perm_methods : d.methods.Perm other.methods := rearranged.members.filterMap _

/-- The same types are referred to by fields. -/
theorem referencedTypes_eq : d.referencedTypes = other.referencedTypes := by
  rw [referencedTypes, referencedTypes, rearranged.fields]

/-- A call is about the same type, wherever the fields stand that its receiver may name. -/
theorem target?_eq : Call.target? d = Call.target? other := by
  -- Only the table of fields is asked, and it is made of the fields alone.
  have table : d.fieldType? = other.fieldType? := by
    funext name
    rw [fieldType?, fieldType?, fieldTypes, fieldTypes, rearranged.fields]
  funext call
  unfold Call.target?
  rw [table]

/-- The types that calls are about come in another order at most. -/
theorem perm_calledTypes : d.calledTypes.Perm other.calledTypes := by
  rw [calledTypes, calledTypes, rearranged.target?_eq]
  exact rearranged.perm_bodies.flatMap_right _

/-- The same supertypes count. -/
theorem supertypes_eq (choice : Supertypes) : d.supertypes choice = other.supertypes choice := by
  cases choice with
  | first => rw [supertypes, supertypes, rearranged.extended]
  | all => rw [supertypes, supertypes, rearranged.extended, rearranged.implemented]

/-- Supertypes and references give the same dependencies, and calls give them in another order at
most. -/
theorem alikeButCalls (s : Settings) (scope : Scope) :
    Dependency.AlikeButCalls (s.dependencies scope d) (s.dependencies scope other) := by
  -- Each kind of dependency is made of the types that are written in its way, one by one.
  constructor <;> simp only [Settings.filter_dependencies, Settings.dependenciesOf]
  · rw [Settings.dependsOn, Settings.dependsOn, rearranged.supertypes_eq]
  · rw [Settings.dependsOn, Settings.dependsOn, rearranged.referencedTypes_eq]
  · split
    · exact rearranged.perm_calledTypes.map _
    · exact List.Perm.refl _

/-- A record is made of both or of neither, and the two differ at most in the order of methods and
in that of calls. -/
theorem record? (s : Settings) (scope : Scope) (enclosing : Enclosing) :
    Option.Rel TypeRecord.Rearranged (Visit.record? s scope ⟨d, enclosing⟩)
      (Visit.record? s scope ⟨other, enclosing⟩) := by
  -- What is recorded besides does not depend on members, or on their number only.
  have record (isInterface : Bool) : TypeRecord.Rearranged
      ⟨d.name, s.className? ⟨d, enclosing⟩, isInterface, d.methodRecords,
        ⟨d.methods.length, d.fields.length⟩, s.dependencies scope d⟩
      ⟨other.name, s.className? ⟨other, enclosing⟩, isInterface, other.methodRecords,
        ⟨other.methods.length, other.fields.length⟩, s.dependencies scope other⟩ := by
    refine ⟨rearranged.name, ?_, rfl, rearranged.perm_methods.map _, ?_,
      rearranged.alikeButCalls s scope⟩
    · simp only [Settings.className?, Settings.typeName?_resolver, Visit.qualified?,
        rearranged.name]
    · rw [rearranged.perm_methods.length_eq, rearranged.fields]
  simp only [Visit.record?, ← rearranged.kind]
  cases d.kind with
  | classType => exact .some (record false)
  | interfaceType => exact .some (record true)
  | enumType => exact .none
  | recordType => exact .none
  | annotationType => exact .none

end TypeDecl.Rearranged

/-- However the members of a type are rearranged, if only the fields keep their order among each
other: every call is about the same type, whether fields stand above it or below, the dependencies
by inheritance and by reference are the same in the same order, those by calls and the records of
methods are the same in some order, and as many methods and fields are counted. This is all that the
record of the type depends on, if there is one. -/
theorem TypeDecl.members_rearranged {d other : TypeDecl} (rearranged : d.Rearranged other)
    (s : Settings) (scope : Scope) :
    (∀ call : Call, call.target? d = call.target? other) ∧
    Dependency.AlikeButCalls (s.dependencies scope d) (s.dependencies scope other) ∧
    d.methodRecords.Perm other.methodRecords ∧
    (d.methods.length = other.methods.length ∧ d.fields.length = other.fields.length) ∧
    ∀ enclosing, Option.Rel TypeRecord.Rearranged (Visit.record? s scope ⟨d, enclosing⟩)
      (Visit.record? s scope ⟨other, enclosing⟩) := by
  refine ⟨fun call => congrFun rearranged.target?_eq call, rearranged.alikeButCalls s scope,
    rearranged.perm_methods.map _, ⟨rearranged.perm_methods.length_eq, ?_⟩,
    rearranged.record? s scope⟩
  rw [rearranged.fields]

/-- A field that is declared a second time with another type. -/
def twiceDeclared : List Member :=
  [.field (some "B") ["x"] .empty, .field (some "C") ["x", "y"] .empty]

/-- Two methods of one name that call a method on the field, each around a type or before it. -/
def overloads : List Member :=
  [.method "save" ⟨1, 1⟩ (.mk [.invocation (some "x") "g"] []),
    .type (.mk .classType "N" [] [] []),
    .method "save" ⟨2, 4⟩ (.mk [.creation "D"] [])]

/-- A class with the fields below the methods has the dependencies of one with the fields above,
except that calls change places with the methods. -/
theorem TypeDecl.members_rearranged_fieldsBelow :
    let d : TypeDecl := .mk .classType "A" ["S"] ["I"] (twiceDeclared ++ overloads)
    let other : TypeDecl := .mk .classType "A" ["S"] ["I"] (overloads.reverse ++ twiceDeclared)
    let s : Settings := { supertypes := .all, edgeKinds := [.inherit, .reference, .call] }
    let scope : Scope := ⟨[], []⟩
    d.Rearranged other ∧
      s.dependencies scope d = [⟨.inherit, "S"⟩, ⟨.inherit, "I"⟩, ⟨.reference, "B"⟩,
        ⟨.reference, "C"⟩, ⟨.call, "C"⟩, ⟨.call, "D"⟩] ∧
      s.dependencies scope other = [⟨.inherit, "S"⟩, ⟨.inherit, "I"⟩, ⟨.reference, "B"⟩,
        ⟨.reference, "C"⟩, ⟨.call, "D"⟩, ⟨.call, "C"⟩] ∧
      Dependency.AlikeButCalls (s.dependencies scope d) (s.dependencies scope other) ∧
      d.methodRecords.Perm other.methodRecords := by
  intro d other s scope
  have members : (twiceDeclared ++ overloads).Perm (overloads.reverse ++ twiceDeclared) :=
    List.perm_append_comm.trans ((List.reverse_perm overloads).symm.append_right _)
  have rearranged : d.Rearranged other := ⟨rfl, rfl, rfl, rfl, members, rfl⟩
  obtain ⟨-, dependencies, methods, -⟩ := members_rearranged rearranged s scope
  exact ⟨rearranged, by decide, by decide, dependencies, methods⟩

end TypeGraph
