import Mathlib.Data.List.Basic
import TypeGraph.Extract

/-! Declarations without the lines they cover, which matter to the lengths of methods only. -/

namespace TypeGraph

mutual
/-- A declared type, with no lines told. -/
def TypeDecl.unplaced : TypeDecl → TypeDecl
  | .mk kind name extended implemented members =>
    .mk kind name extended implemented (Member.unplacedAll members)
/-- A member, with no lines told. -/
def Member.unplaced : Member → Member
  | .method name _ body => .method name ⟨0, 0⟩ body.unplaced
  | .field type names body => .field type names body.unplaced
  | .construction body => .construction body.unplaced
  | .initializer body => .initializer body.unplaced
  | .type decl => .type decl.unplaced
/-- Members, with no lines told. -/
def Member.unplacedAll : List Member → List Member
  | [] => []
  | member :: rest => member.unplaced :: Member.unplacedAll rest
/-- Executable content, with no lines told. -/
def Body.unplaced : Body → Body
  | .mk calls types => .mk calls (TypeDecl.unplacedAll types)
/-- Declared types, with no lines told. -/
def TypeDecl.unplacedAll : List TypeDecl → List TypeDecl
  | [] => []
  | decl :: rest => decl.unplaced :: TypeDecl.unplacedAll rest
end

/-- A source file, with no lines told. -/
def CompilationUnit.unplaced (u : CompilationUnit) : CompilationUnit :=
  { u with types := TypeDecl.unplacedAll u.types }

theorem TypeDecl.unplacedAll_eq_map (decls : List TypeDecl) :
    unplacedAll decls = decls.map unplaced := by
  induction decls with
  | nil => rfl
  | cons decl rest ih => simp [unplacedAll, ih]

theorem Member.unplacedAll_eq_map (members : List Member) :
    unplacedAll members = members.map unplaced := by
  induction members with
  | nil => rfl
  | cons member rest ih => simp [unplacedAll, ih]

theorem Body.unplaced_append (first second : Body) :
    (first.append second).unplaced = first.unplaced.append second.unplaced := by
  obtain ⟨calls, types⟩ := first
  obtain ⟨calls', types'⟩ := second
  simp [append, unplaced, Body.calls, Body.types, TypeDecl.unplacedAll_eq_map]

theorem Body.unplaced_withCall (call : Option Call) (b : Body) :
    (b.withCall call).unplaced = b.unplaced.withCall call := by
  obtain ⟨calls, types⟩ := b
  cases call <;> rfl

@[simp] theorem Body.calls_unplaced (b : Body) : b.unplaced.calls = b.calls := by
  cases b
  rfl

namespace TypeDecl

variable (d : TypeDecl)

@[simp] theorem kind_unplaced : d.unplaced.kind = d.kind := by cases d; rfl

@[simp] theorem name_unplaced : d.unplaced.name = d.name := by cases d; rfl

@[simp] theorem extended_unplaced : d.unplaced.extended = d.extended := by cases d; rfl

@[simp] theorem implemented_unplaced : d.unplaced.implemented = d.implemented := by cases d; rfl

@[simp] theorem members_unplaced : d.unplaced.members = d.members.map Member.unplaced := by
  cases d
  exact Member.unplacedAll_eq_map _

@[simp] theorem fields_unplaced : d.unplaced.fields = d.fields := by
  rw [fields, members_unplaced, List.filterMap_map]
  refine List.filterMap_congr fun member _ => ?_
  cases member <;> rfl

@[simp] theorem methods_unplaced :
    d.unplaced.methods = d.methods.map fun (name, _) => (name, ⟨0, 0⟩) := by
  rw [methods, methods, members_unplaced, List.filterMap_map, List.map_filterMap]
  refine List.filterMap_congr fun member _ => ?_
  cases member <;> rfl

@[simp] theorem fieldType?_unplaced (name : String) :
    d.unplaced.fieldType? name = d.fieldType? name := by
  simp [fieldType?, fieldTypes]

@[simp] theorem bodies_unplaced : d.unplaced.bodies = d.bodies.map Body.unplaced := by
  rw [bodies, bodies, members_unplaced, List.filterMap_map, List.map_filterMap]
  refine List.filterMap_congr fun member _ => ?_
  cases member <;> rfl

/-- The types that are called do not depend on lines. -/
@[simp] theorem calledTypes_unplaced : d.unplaced.calledTypes = d.calledTypes := by
  -- A receiver is looked up among the fields, which have no lines.
  have target : Call.target? d.unplaced = Call.target? d := by
    funext call
    cases call with
    | creation => rfl
    | invocation receiver method => cases receiver <;> simp [Call.target?]
  simp [calledTypes, target, List.flatMap_map]

end TypeDecl

/-- A visit of a type with no lines told. -/
def Visit.unplaced (v : Visit) : Visit := { v with decl := v.decl.unplaced }

mutual
/-- The types in a type are visited in the same way with no lines told. -/
theorem TypeDecl.visits_unplaced (enclosing : Enclosing) (d : TypeDecl) :
    d.unplaced.visits enclosing = (d.visits enclosing).map Visit.unplaced := by
  match d with
  | .mk kind name extended implemented members =>
    simp [TypeDecl.unplaced, TypeDecl.visits, Visit.unplaced,
      Member.visitsAll_unplaced _ members]
/-- Types are visited in the same way with no lines told. -/
theorem TypeDecl.visitsAll_unplaced (enclosing : Enclosing) (decls : List TypeDecl) :
    TypeDecl.visitsAll enclosing (TypeDecl.unplacedAll decls) =
      (TypeDecl.visitsAll enclosing decls).map Visit.unplaced := by
  match decls with
  | [] => rfl
  | decl :: rest =>
    simp [TypeDecl.unplacedAll, TypeDecl.visitsAll, TypeDecl.visits_unplaced _ decl,
      TypeDecl.visitsAll_unplaced _ rest]
/-- The types in a member are visited in the same way with no lines told. -/
theorem Member.visits_unplaced (enclosing : Enclosing) (m : Member) :
    m.unplaced.visits enclosing = (m.visits enclosing).map Visit.unplaced := by
  match m with
  | .method _ _ body | .field _ _ body | .construction body | .initializer body =>
    simpa only [Member.unplaced, Member.visits] using Body.visits_unplaced body
  | .type decl => simpa only [Member.unplaced, Member.visits] using decl.visits_unplaced enclosing
/-- The types in members are visited in the same way with no lines told. -/
theorem Member.visitsAll_unplaced (enclosing : Enclosing) (members : List Member) :
    Member.visitsAll enclosing (Member.unplacedAll members) =
      (Member.visitsAll enclosing members).map Visit.unplaced := by
  match members with
  | [] => rfl
  | member :: rest =>
    simp [Member.unplacedAll, Member.visitsAll, Member.visits_unplaced _ member,
      Member.visitsAll_unplaced _ rest]
/-- The types in executable content are visited in the same way with no lines told. -/
theorem Body.visits_unplaced (b : Body) : b.unplaced.visits = b.visits.map Visit.unplaced := by
  match b with
  | .mk calls types => simpa only [Body.unplaced, Body.visits] using
      TypeDecl.visitsAll_unplaced .body types
end

/-- A record with no lengths of methods told. -/
def TypeRecord.unmeasured (r : TypeRecord) : TypeRecord :=
  { r with methods := r.methods.map fun m => { m with lines := 0 } }

namespace CompilationUnit

variable (u : CompilationUnit)

/-- The visits of a file are the same with no lines told. -/
theorem visits_unplaced : u.unplaced.visits = u.visits.map Visit.unplaced :=
  TypeDecl.visitsAll_unplaced _ u.types

/-- The names of a file stand for the same with no lines told. -/
theorem scope_unplaced : Scope.ofUnit u.unplaced = Scope.ofUnit u := by
  -- The names of types have no lines either.
  have declared : (u.visits.map Visit.unplaced).filterMap
      (fun v => v.qualified?.map (v.decl.name, ·)) =
        u.visits.filterMap fun v => v.qualified?.map (v.decl.name, ·) := by
    rw [List.filterMap_map]
    refine List.filterMap_congr fun v _ => ?_
    simp [Visit.unplaced, Visit.qualified?]
  rw [Scope.ofUnit, visits_unplaced, declared]
  rfl

end CompilationUnit

/-- Without lines told, a type gives the same record but for the lengths of methods. -/
theorem Visit.record?_unplaced (s : Settings) (scope : Scope) (v : Visit) :
    v.unplaced.record? s scope = (v.record? s scope).map TypeRecord.unmeasured := by
  -- All parts of the record but the methods are made from what has no lines.
  have dependencies : s.dependencies scope v.decl.unplaced = s.dependencies scope v.decl := by
    have same : s.dependsOn v.decl.unplaced = s.dependsOn v.decl := by
      funext kind
      cases kind with
      | inherit => cases s.supertypes <;> simp [Settings.dependsOn, TypeDecl.supertypes]
      | reference => simp [Settings.dependsOn, TypeDecl.referencedTypes]
      | call => simp [Settings.dependsOn]
    simp [Settings.dependencies, Settings.dependenciesOf, same]
  have className : s.className? v.unplaced = s.className? v := by
    simp [Settings.className?, Visit.unplaced, Visit.qualified?]
  have methods : v.decl.unplaced.methodRecords =
      v.decl.methodRecords.map fun m => { m with lines := 0 } := by
    simp [TypeDecl.methodRecords, Span.lines]
  unfold Visit.record?
  rw [className]
  cases kind : v.decl.kind <;>
    simp [Visit.unplaced, kind, dependencies, methods, TypeRecord.unmeasured]

/-- Without lines told, a file gives the same records but for the lengths of methods. -/
theorem CompilationUnit.records_unplaced (u : CompilationUnit) (s : Settings) :
    u.unplaced.records s = (u.records s).map TypeRecord.unmeasured := by
  rw [records, scope_unplaced, visits_unplaced, List.filterMap_map, records, List.map_filterMap]
  exact List.filterMap_congr fun v _ => v.record?_unplaced s (.ofUnit u)

end TypeGraph
