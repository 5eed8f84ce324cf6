import TypeGraph.Record
import TypeGraph.Scope

/-! The records of the classes and interfaces that a source file declares. -/

namespace TypeGraph

namespace TypeDecl

/-- The class types of named fields; a later declaration of a name replaces an earlier one. -/
def fieldTypes (d : TypeDecl) : List (String × String) :=
  d.fields.flatMap fun (type, names) => match type with
    | some type => names.map (·, type)
    | none => []

/-- The type of the field with a given name, if it is a class type. -/
def fieldType? (d : TypeDecl) (name : String) : Option String :=
  (d.fieldTypes.reverse.find? fun entry => entry.1 == name).map (·.2)

/-- The supertypes that count. -/
def supertypes (d : TypeDecl) : Supertypes → List String
  | .first => d.extended.head?.toList
  | .all => d.extended ++ d.implemented

/-- The class types of field declarations, one for each declaration. -/
def referencedTypes (d : TypeDecl) : List String := d.fields.filterMap (·.1)

end TypeDecl

/-- Whether a name looks like that of a type: it starts in upper case. -/
def looksLikeType (name : String) : Bool :=
  match name.toList with
  | c :: _ => Text.isUpperCase c
  | [] => false

/-- The type that a call inside a type is about, as written. -/
def Call.target? (d : TypeDecl) : Call → Option String
  | .creation type => some type
  | .invocation (some receiver) _ =>
    -- A field hides a type of the same name.
    d.fieldType? receiver <|> if looksLikeType receiver then some receiver else none
  | .invocation none _ => none

/-- The types that the calls of a type are about, as written. -/
def TypeDecl.calledTypes (d : TypeDecl) : List String :=
  d.bodies.flatMap fun body => body.calls.filterMap (Call.target? d)

namespace Settings

/-- The written names of the types on which a type depends in some way. -/
def dependsOn (s : Settings) (d : TypeDecl) : EdgeKind → List String
  | .inherit => d.supertypes s.supertypes
  | .reference => d.referencedTypes
  | .call => d.calledTypes

/-- The dependencies of one kind, if that kind is recorded. -/
def dependenciesOf (s : Settings) (scope : Scope) (d : TypeDecl) (kind : EdgeKind) :
    List Dependency :=
  if s.emits kind then
    (s.dependsOn d kind).map fun written => ⟨kind, (s.targetName? scope written).getD written⟩
  else []

/-- The dependencies of a type: inheritance first, then references, then calls. -/
def dependencies (s : Settings) (scope : Scope) (d : TypeDecl) : List Dependency :=
  [EdgeKind.inherit, .reference, .call].flatMap (s.dependenciesOf scope d)

/-- The dependencies of one kind are those of that kind among all. -/
theorem filter_dependencies (s : Settings) (scope : Scope) (d : TypeDecl) (kind : EdgeKind) :
    (s.dependencies scope d).filter (fun e => e.kind = kind) = s.dependenciesOf scope d kind := by
  -- What is made for a kind is all of that kind, so it is kept as a whole or not at all.
  have apart (other : EdgeKind) : (s.dependenciesOf scope d other).filter (fun e => e.kind = kind) =
      if other = kind then s.dependenciesOf scope d other else [] := by
    have kinds : ∀ e ∈ s.dependenciesOf scope d other, e.kind = other := by
      intro e listed
      unfold dependenciesOf at listed
      split at listed
      · obtain ⟨written, -, rfl⟩ := List.mem_map.mp listed
        rfl
      · cases listed
    split
    · rename_i same
      exact List.filter_eq_self.mpr fun e listed => by simpa [same] using kinds e listed
    · rename_i different
      exact List.filter_eq_nil_iff.mpr fun e listed => by simpa [kinds e listed] using different
  simp only [dependencies, List.flatMap_cons, List.flatMap_nil, List.append_nil,
    List.filter_append, apart]
  cases kind <;> simp

end Settings

/-- The records of the methods that a type declares itself. -/
def TypeDecl.methodRecords (d : TypeDecl) : List MethodRecord :=
  d.methods.map fun (name, span) => ⟨name, span.lines, .infer name⟩

/-- The record of a type met on a walk, if it is a class or an interface. -/
def Visit.record? (s : Settings) (scope : Scope) (v : Visit) : Option TypeRecord :=
  let record (isInterface : Bool) : TypeRecord :=
    ⟨v.decl.name, s.className? v, isInterface, v.decl.methodRecords,
      ⟨v.decl.methods.length, v.decl.fields.length⟩, s.dependencies scope v.decl⟩
  -- No record is made of other kinds, though the walk goes on inside them.
  match v.decl.kind with
  | .classType => some (record false)
  | .interfaceType => some (record true)
  | .enumType | .recordType | .annotationType => none

/-- The records of a source file, outer types first. -/
def CompilationUnit.records (u : CompilationUnit) (s : Settings) : List TypeRecord :=
  u.visits.filterMap (Visit.record? s (.ofUnit u))

end TypeGraph
