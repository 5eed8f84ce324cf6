import TypeGraph.Proofs.Project.Uses

/-! Qualified names take the places of names in records and change nothing else about them. -/

namespace TypeGraph

/-- Two records that differ at most in qualified names, that of the type and those of targets. -/
structure TypeRecord.SameButNames (r other : TypeRecord) : Prop where
  simpleName : r.simpleName = other.simpleName
  isInterface : r.isInterface = other.isInterface
  methods : r.methods = other.methods
  metrics : r.metrics = other.metrics
  /-- There are as many dependencies, of the same kinds in the same order. -/
  kinds : r.dependencies.map (·.kind) = other.dependencies.map (·.kind)

/-- A dependency on what its target stands for, or on the target itself if it stands for nothing. -/
def Dependency.qualified (scope : Scope) (d : Dependency) : Dependency :=
  { d with target := (scope.lookup d.target).getD d.target }

namespace Settings

variable {s t : Settings}

/-- Settings that look at the same supertypes and kinds find the same names written. -/
theorem uses_congr (supertypes : s.supertypes = t.supertypes)
    (kinds : ∀ kind, kind ∈ s.edgeKinds ↔ kind ∈ t.edgeKinds) (d : TypeDecl) :
    s.uses d = t.uses d := by
  -- Only whether a kind is in the list counts, not where or how often.
  have emits : s.emits = t.emits := by
    funext kind
    rw [Bool.eq_iff_iff]
    simpa [Settings.emits] using kinds kind
  have dependsOn : s.dependsOn d = t.dependsOn d := by
    funext kind
    cases kind <;> simp only [Settings.dependsOn, supertypes]
  rw [uses, uses, emits, dependsOn]

/-- The kinds of dependencies are those of the names written, whatever these stand for. -/
theorem kinds_dependencies (s : Settings) (scope : Scope) (d : TypeDecl) :
    (s.dependencies scope d).map (·.kind) = (s.uses d).map (·.1) := by
  rw [s.dependencies_eq, List.map_map]
  rfl

/-- Where targets stay as written, a scope does not matter. -/
theorem dependencies_written (unresolved : s.resolveTargets = false) (scope : Scope)
    (d : TypeDecl) : s.dependencies scope d = (s.uses d).map fun use => ⟨use.1, use.2⟩ := by
  rw [s.dependencies_eq]
  simp [targetName?, unresolved]

/-- Where targets are qualified, each written name becomes what it stands for. -/
theorem dependencies_qualified (resolved : s.resolveTargets = true) (scope : Scope)
    (d : TypeDecl) :
    s.dependencies scope d =
      ((s.uses d).map fun use => ⟨use.1, use.2⟩).map (Dependency.qualified scope) := by
  rw [s.dependencies_eq, List.map_map]
  simp [targetName?, resolved, Dependency.qualified]

end Settings

namespace Visit

/-- What is recorded of a type if it is a class or an interface. -/
def record (s : Settings) (scope : Scope) (v : Visit) : TypeRecord where
  simpleName := v.decl.name
  qualifiedName := s.className? v
  isInterface := v.decl.kind == .interfaceType
  methods := v.decl.methodRecords
  metrics := ⟨v.decl.methods.length, v.decl.fields.length⟩
  dependencies := s.dependencies scope v.decl

/-- Classes and interfaces are recorded, and no other types. -/
theorem record?_eq (s : Settings) (scope : Scope) (v : Visit) :
    v.record? s scope = if v.isRecorded then some (v.record s scope) else none := by
  -- The kinds of types are gone through.
  unfold record? record isRecorded
  cases v.decl.kind <;> rfl

/-- The records of several types are those of the classes and interfaces among them. -/
theorem filterMap_record? (s : Settings) (scope : Scope) (visits : List Visit) :
    visits.filterMap (record? s scope) = (visits.filter isRecorded).map (record s scope) := by
  induction visits with
  | nil => rfl
  | cons v rest ih =>
    rw [List.filterMap_cons, ih, record?_eq, List.filter_cons]
    cases v.isRecorded <;> rfl

/-- Where targets stay as written, a scope does not matter to records. -/
theorem record?_written {s : Settings} (unresolved : s.resolveTargets = false)
    (scope other : Scope) : record? s scope = record? s other := by
  funext v
  have same : v.record s scope = v.record s other := by
    rw [record, record, Settings.dependencies_written unresolved,
      Settings.dependencies_written unresolved]
  rw [record?_eq, record?_eq, same]

/-- Under settings that find the same names written, records differ at most in names. -/
theorem sameButNames {s t : Settings} (v : Visit) (uses : s.uses v.decl = t.uses v.decl)
    (scope other : Scope) : (v.record s scope).SameButNames (v.record t other) where
  simpleName := rfl
  isInterface := rfl
  methods := rfl
  metrics := rfl
  kinds := by
    show (s.dependencies scope v.decl).map (·.kind) = (t.dependencies other v.decl).map (·.kind)
    rw [s.kinds_dependencies, t.kinds_dependencies, uses]

end Visit

namespace CompilationUnit

/-- The records of a file are those of the classes and interfaces that are visited. -/
theorem records_eq (u : CompilationUnit) (s : Settings) :
    u.records s = (u.visits.filter Visit.isRecorded).map (Visit.record s (.ofUnit u)) :=
  Visit.filterMap_record? s (.ofUnit u) u.visits

/-- What holds of the two records of each class and interface holds of the records one by one. -/
theorem forall₂_records {related : TypeRecord → TypeRecord → Prop} (u : CompilationUnit)
    {s t : Settings}
    (holds : ∀ v : Visit, related (v.record s (.ofUnit u)) (v.record t (.ofUnit u))) :
    List.Forall₂ related (u.records s) (u.records t) := by
  rw [records_eq, records_eq, List.forall₂_map_left_iff, List.forall₂_map_right_iff,
    List.forall₂_same]
  intro v _
  exact holds v

/-- Under settings that agree on supertypes and on the set of kinds of edges, a file has the same
records in the same order but for qualified names. A type has a qualified name in its record if and
only if types go by qualified names, and then it is that of the walk, whatever is done about
targets. Where both settings do the same about targets, the dependencies are the same; where only
the first qualify them, each target becomes what it stands for in the file, if anything, whatever is
done about the names of types. Leaving all names as written and qualifying neither types nor targets
come to the same. -/
theorem records_renamed (u : CompilationUnit) {s t : Settings}
    (supertypes : s.supertypes = t.supertypes)
    (kinds : ∀ kind, kind ∈ s.edgeKinds ↔ kind ∈ t.edgeKinds) :
    List.Forall₂ TypeRecord.SameButNames (u.records s) (u.records t) ∧
    List.Forall₂ (fun (r : TypeRecord) (v : Visit) => r.simpleName = v.decl.name ∧
        r.qualifiedName = if s.resolveNames then v.qualified? else none)
      (u.records s) (u.visits.filter Visit.isRecorded) ∧
    (s.resolveTargets = t.resolveTargets →
      List.Forall₂ (fun r r' => r.dependencies = r'.dependencies) (u.records s) (u.records t)) ∧
    (s.resolveTargets = true → t.resolveTargets = false →
      List.Forall₂ (fun r r' => r.dependencies = r'.dependencies.map (.qualified (.ofUnit u)))
        (u.records s) (u.records t)) ∧
    (∀ v, Resolver.unresolved.typeName? v = (Resolver.syntactic false false).typeName? v) ∧
    ∀ scope written, Resolver.unresolved.targetName? scope written =
      (Resolver.syntactic false false).targetName? scope written := by
  -- The same types are recorded, and both settings find the same names written in each.
  have uses := Settings.uses_congr supertypes kinds
  refine ⟨?_, ?_, ?_, ?_, fun _ => rfl, fun _ _ => rfl⟩
  · exact u.forall₂_records fun v => v.sameButNames (uses v.decl) _ _
  · rw [records_eq, List.forall₂_map_left_iff, List.forall₂_same]
    intro v _
    exact ⟨rfl, s.typeName?_resolver v⟩
  · intro alike
    refine u.forall₂_records fun v => ?_
    show s.dependencies _ v.decl = t.dependencies _ v.decl
    cases resolved : s.resolveTargets with
    | true =>
      rw [Settings.dependencies_qualified resolved,
        Settings.dependencies_qualified (alike ▸ resolved), uses]
    | false =>
      rw [Settings.dependencies_written resolved, Settings.dependencies_written (alike ▸ resolved),
        uses]
  · intro resolved unresolved
    refine u.forall₂_records fun v => ?_
    show s.dependencies _ v.decl = (t.dependencies _ v.decl).map _
    rw [Settings.dependencies_qualified resolved, Settings.dependencies_written unresolved, uses]

/-- A file with a class that extends an imported type and has a field of its own member type. -/
def importing : CompilationUnit :=
  ⟨"A.java", some "p", [⟨"q.B", false, false⟩],
    [.mk .classType "A" ["B"] [] [.field (some "C") ["c"] .empty,
      .field (some "D") ["d"] .empty, .type (.mk .interfaceType "C" [] [] [])]]⟩

/-- Qualified, the targets become the import and the member type; that of no known type stays. -/
theorem records_renamed_importing :
    let s : Settings := { resolveTargets := true, edgeKinds := [.reference, .inherit] }
    let t : Settings := { resolveNames := false, edgeKinds := [.inherit, .reference, .inherit] }
    s.supertypes = t.supertypes ∧ (∀ kind, kind ∈ s.edgeKinds ↔ kind ∈ t.edgeKinds) ∧
      (importing.records s).map (fun r => (r.className, r.dependencies.map (·.target))) =
        [("p.A", ["q.B", "p.A.C", "D"]), ("p.A.C", [])] ∧
      (importing.records t).map (fun r => (r.className, r.dependencies.map (·.target))) =
        [("A", ["B", "C", "D"]), ("C", [])] ∧
      List.Forall₂ TypeRecord.SameButNames (importing.records s) (importing.records t) ∧
      List.Forall₂ (fun r r' => r.dependencies =
          r'.dependencies.map (.qualified (.ofUnit importing)))
        (importing.records s) (importing.records t) := by
  intro s t
  have kinds : ∀ kind, kind ∈ s.edgeKinds ↔ kind ∈ t.edgeKinds := by
    intro kind
    cases kind <;> decide
  have renamed := importing.records_renamed (s := s) (t := t) rfl kinds
  exact ⟨rfl, kinds, by decide, by decide, renamed.1, renamed.2.2.2.1 rfl rfl⟩

end CompilationUnit

end TypeGraph
