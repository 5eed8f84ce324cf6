import TypeGraph.Proofs.Declaration.Gap
import TypeGraph.Proofs.Project.Renaming

/-! What is recorded of a type does not depend on the types inside it, nor on those elsewhere. -/

namespace TypeGraph

/-- Executable content without the types that are declared in it. -/
def Body.hollow (b : Body) : Body := .mk b.calls []

/-- A member without the types in it; a type is left out as a whole. -/
def Member.hollow? : Member → Option Member
  | .method name span body => some (.method name span body.hollow)
  | .field written names body => some (.field written names body.hollow)
  | .construction body => some (.construction body.hollow)
  | .initializer body => some (.initializer body.hollow)
  | .type _ => none

/-- A declared type without all types inside it. -/
def TypeDecl.hollow (d : TypeDecl) : TypeDecl :=
  .mk d.kind d.name d.extended d.implemented (d.members.filterMap Member.hollow?)

namespace TypeDecl

variable (d : TypeDecl)

@[simp] theorem kind_hollow : d.hollow.kind = d.kind := rfl

@[simp] theorem name_hollow : d.hollow.name = d.name := rfl

/-- What is taken from members that are no types is found without the types, too. -/
theorem filterMap_members_hollow {α : Type} {f g : Member → Option α}
    (same : ∀ m, m.hollow?.bind f = g m) :
    d.hollow.members.filterMap f = d.members.filterMap g := by
  show (d.members.filterMap Member.hollow?).filterMap f = _
  rw [List.filterMap_filterMap]
  exact List.filterMap_congr fun m _ => same m

@[simp] theorem methods_hollow : d.hollow.methods = d.methods := by
  apply d.filterMap_members_hollow
  intro m
  cases m <;> rfl

@[simp] theorem fields_hollow : d.hollow.fields = d.fields := by
  apply d.filterMap_members_hollow
  intro m
  cases m <;> rfl

@[simp] theorem bodies_hollow : d.hollow.bodies = d.bodies.map Body.hollow := by
  rw [bodies, bodies, List.map_filterMap]
  apply d.filterMap_members_hollow
  intro m
  cases m <;> rfl

/-- A type calls the same types without those inside it. -/
@[simp] theorem calledTypes_hollow : d.hollow.calledTypes = d.calledTypes := by
  -- A receiver is looked up among the fields, and the calls of the own content are all kept.
  have target : Call.target? d.hollow = Call.target? d := by
    funext call
    cases call with
    | creation => rfl
    | invocation receiver method =>
      cases receiver <;> simp [Call.target?, fieldType?, fieldTypes]
  simp [calledTypes, target, List.flatMap_map, Body.hollow, Body.calls]

/-- A type depends on the same types without those inside it. -/
theorem uses_hollow (s : Settings) : s.uses d.hollow = s.uses d := by
  have same : s.dependsOn d.hollow = s.dependsOn d := by
    funext kind
    cases kind with
    | inherit => rfl
    | reference => simp [Settings.dependsOn, referencedTypes]
    | call => simp [Settings.dependsOn]
  rw [Settings.uses, Settings.uses, same]

end TypeDecl

/-- A visit of a type without all types inside it. -/
def Visit.hollow (v : Visit) : Visit := { v with decl := v.decl.hollow }

/-- What is recorded of a type is recorded of it without the types inside it. -/
theorem Visit.record?_hollow (s : Settings) (scope : Scope) (v : Visit) :
    v.hollow.record? s scope = v.record? s scope := by
  have dependencies : s.dependencies scope v.decl.hollow = s.dependencies scope v.decl := by
    -- The scope is that of the whole file in both cases.
    rw [s.dependencies_eq, s.dependencies_eq, TypeDecl.uses_hollow]
  have className : s.className? v.hollow = s.className? v := by
    simp [Settings.className?, hollow, qualified?]
  have record : v.hollow.record s scope = v.record s scope := by
    rw [Visit.record, Visit.record, className]
    simp [hollow, TypeDecl.methodRecords, dependencies]
  rw [record?_eq, record?_eq, record]
  rfl

/-- Two records that differ at most in the texts of targets. -/
structure TypeRecord.SameButTargets (r other : TypeRecord) : Prop
    extends r.SameButNames other where
  qualifiedName : r.qualifiedName = other.qualifiedName

namespace Layer

/-- A type around a place is the same without the types inside it, whatever is in the place. -/
theorem hollow_fill (l : Layer) (d d' : TypeDecl) : (l.fill d).hollow = (l.fill d').hollow := by
  have site : (l.site.fill d).hollow? = (l.site.fill d').hollow? := by
    -- A type in the content of a member is left out of it.
    cases l.site with
    | whole => rfl
    | content shell => cases shell <;> rfl
  simp [TypeDecl.hollow, fill, TypeDecl.members, TypeDecl.kind, TypeDecl.name, TypeDecl.extended,
    TypeDecl.implemented, List.filterMap_cons, site]

/-- Before the innermost place the same is visited but for what lies inside the types around it. -/
theorem hollow_visitsBefore (d d' : TypeDecl) (layers : List Layer) (e : Enclosing) :
    (visitsBefore d e layers).map Visit.hollow = (visitsBefore d' e layers).map Visit.hollow := by
  -- Each layer is visited as a type around the place, and then what stands before the place in it.
  induction layers generalizing e with
  | nil => rfl
  | cons l rest ih =>
    simp only [visitsBefore, List.map_append, List.map_cons, ih (l.enclosing e), Visit.hollow,
      l.hollow_fill (fillAll d rest) (fillAll d' rest)]

end Layer

/-- Before a gap the same is visited but for what lies inside the types around the gap. -/
theorem Gap.hollow_visitsBefore (g : Gap) (d d' : TypeDecl) :
    (g.visitsBefore d).map Visit.hollow = (g.visitsBefore d').map Visit.hollow := by
  rw [visitsBefore, visitsBefore, List.map_append, List.map_append,
    Layer.hollow_visitsBefore d d']

/-- The records of a type and of all types inside it. -/
def TypeDecl.records (s : Settings) (scope : Scope) (enclosing : Enclosing) (d : TypeDecl) :
    List TypeRecord :=
  (d.visits enclosing).filterMap (Visit.record? s scope)

/-- Visits that are alike without the types inside give the same records. -/
theorem Visit.filterMap_record?_congr {s : Settings} {scope : Scope} {visits others : List Visit}
    (same : visits.map hollow = others.map hollow) :
    visits.filterMap (record? s scope) = others.filterMap (record? s scope) := by
  -- Records can be made of the types without those inside.
  have hollowed (visits : List Visit) :
      visits.filterMap (record? s scope) = (visits.map hollow).filterMap (record? s scope) := by
    rw [List.filterMap_map]
    exact List.filterMap_congr fun v _ => (v.record?_hollow s scope).symm
  rw [hollowed visits, same, ← hollowed others]

/-- In another scope a visit gives the same records but for the texts of targets. -/
theorem Visit.filterMap_record?_scope (s : Settings) (scope other : Scope) (visits : List Visit) :
    List.Forall₂ TypeRecord.SameButTargets (visits.filterMap (record? s scope))
      (visits.filterMap (record? s other)) := by
  rw [filterMap_record?, filterMap_record?, List.forall₂_map_left_iff, List.forall₂_map_right_iff,
    List.forall₂_same]
  intro v _
  exact ⟨v.sameButNames rfl scope other, rfl⟩

namespace Gap

/-- The records of a file with a gap are those before a type in the gap, those of the type itself
and those after it. -/
theorem records_fill (g : Gap) (s : Settings) (d : TypeDecl) :
    (g.fill d).records s = (g.visitsBefore d).filterMap (Visit.record? s (.ofUnit (g.fill d))) ++
      d.records s (.ofUnit (g.fill d)) g.enclosing ++
      g.visitsAfter.filterMap (Visit.record? s (.ofUnit (g.fill d))) := by
  rw [CompilationUnit.records, visits_fill, List.filterMap_append, List.filterMap_append]
  rfl

/-- Every type that is visited in a file stands in a gap of it, at the point of the walk where it is
visited. Take any file with a gap. Where targets stay as written, the same records come before and
after those of the type in the gap and of all types inside it, whatever this type is. Otherwise they
differ from one type in the gap to another at most in the texts of targets. -/
theorem records_around (s : Settings) :
    (∀ (u : CompilationUnit) before v after, u.visits = before ++ v :: after →
      ∃ g : Gap, g.fill v.decl = u ∧ g.enclosing = v.enclosing ∧
        g.visitsBefore v.decl = before) ∧
    ∀ g : Gap,
      (s.resolveTargets = false → ∃ before after, ∀ d scope,
        (g.fill d).records s = before ++ d.records s scope g.enclosing ++ after) ∧
      ∀ d d', ∃ before after before' after',
        (g.fill d).records s =
          before ++ d.records s (.ofUnit (g.fill d)) g.enclosing ++ after ∧
        (g.fill d').records s =
          before' ++ d'.records s (.ofUnit (g.fill d')) g.enclosing ++ after' ∧
        List.Forall₂ TypeRecord.SameButTargets before before' ∧
        List.Forall₂ TypeRecord.SameButTargets after after' := by
  refine ⟨fun u before v after split => u.exists_gap split, ?_⟩
  intro g
  constructor
  · intro unresolved
    -- Any type in the gap, and any scope, will do to tell the records around it.
    let sample : TypeDecl := .mk .classType "" [] [] []
    refine ⟨(g.visitsBefore sample).filterMap (Visit.record? s ⟨[], []⟩),
      g.visitsAfter.filterMap (Visit.record? s ⟨[], []⟩), ?_⟩
    intro d scope
    rw [records_fill, Visit.record?_written unresolved (.ofUnit (g.fill d)) ⟨[], []⟩,
      Visit.filterMap_record?_congr (g.hollow_visitsBefore d sample)]
    have inside : d.records s (.ofUnit (g.fill d)) g.enclosing = d.records s scope g.enclosing := by
      rw [TypeDecl.records, TypeDecl.records, Visit.record?_written unresolved]
    rw [inside]
  · intro d d'
    refine ⟨_, _, _, _, g.records_fill s d, g.records_fill s d', ?_, ?_⟩
    · rw [Visit.filterMap_record?_congr (g.hollow_visitsBefore d d')]
      exact Visit.filterMap_record?_scope s _ _ _
    · exact Visit.filterMap_record?_scope s _ _ _

/-- A class with a gap in a method, between a field and a member type. -/
def inMethod : Gap where
  path := "Outer.java"
  package := some "p"
  imports := []
  before := []
  layers := [{
    kind := .classType, name := "Outer", extended := ["Base"], implemented := []
    before := [.field (some "F") ["f"] .empty]
    site := .content (.method "run" ⟨2, 4⟩) [.invocation (some "f") "go"] [] []
    after := [.type (.mk .interfaceType "Next" [] [] [])] }]
  after := []

/-- Whether a class with a method or an enumeration with a class fills the gap, the same comes
before and after. -/
theorem records_around_inMethod :
    let s : Settings := { edgeKinds := [.inherit, .call] }
    let d : TypeDecl := .mk .classType "D" ["Base"] [] [.method "run" ⟨3, 3⟩ .empty]
    let d' : TypeDecl := .mk .enumType "E" [] [] [.type (.mk .classType "F" ["Next"] [] [])]
    let told (u : CompilationUnit) := (u.records s).map fun r =>
      (r.className, r.methods.map (·.name), r.dependencies.map (·.target))
    told (inMethod.fill d) = [("p.Outer", ["run"], ["Base", "F"]), ("D", ["run"], ["Base"]),
        ("p.Outer.Next", [], [])] ∧
      told (inMethod.fill d') = [("p.Outer", ["run"], ["Base", "F"]), ("F", [], ["Next"]),
        ("p.Outer.Next", [], [])] ∧
      s.resolveTargets = false ∧ ∃ before after, ∀ d scope,
        (inMethod.fill d).records s = before ++ d.records s scope inMethod.enclosing ++ after := by
  intro s d d' told
  exact ⟨by decide, by decide, rfl, ((records_around s).2 inMethod).1 rfl⟩

end Gap

end TypeGraph
