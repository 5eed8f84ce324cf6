import TypeGraph.Proofs.Declaration.Lookup
import TypeGraph.Proofs.Project.Renaming

/-! What is recorded of the types of a source file when more types are declared at its end. -/

namespace TypeGraph

/-- A source file with more types at its end. -/
def CompilationUnit.append (u : CompilationUnit) (more : List TypeDecl) : CompilationUnit :=
  { u with types := u.types ++ more }

/-- What becomes of the dependency on a written name where a longer file may tell more names. -/
inductive Dependency.Keeps (s : Settings) (scope longer : Scope) :
    EdgeKind × String → Dependency → Dependency → Prop where
  /-- What a target was resolved to does not change. -/
  | resolved {kind : EdgeKind} {written qualified : String} :
      s.targetName? scope written = some qualified →
      Keeps s scope longer (kind, written) ⟨kind, qualified⟩ ⟨kind, qualified⟩
  /-- A target that was left as written may stay so. -/
  | left {kind : EdgeKind} {written : String} :
      s.targetName? scope written = none → s.targetName? longer written = none →
      Keeps s scope longer (kind, written) ⟨kind, written⟩ ⟨kind, written⟩
  /-- A target that was left as written may be resolved now. -/
  | found {kind : EdgeKind} {written qualified : String} :
      s.targetName? scope written = none → s.targetName? longer written = some qualified →
      Keeps s scope longer (kind, written) ⟨kind, written⟩ ⟨kind, qualified⟩

/-- Whether the second of two records of a type is the first but for targets that may be resolved
now, each being that of a name that the type writes. -/
structure Visit.Keeps (s : Settings) (scope longer : Scope) (v : Visit) (r r' : TypeRecord) :
    Prop where
  same : r' = { r with dependencies := r'.dependencies }
  dependencies : ∃ pairs : List (Dependency × Dependency),
    r.dependencies = pairs.map (·.1) ∧ r'.dependencies = pairs.map (·.2) ∧
      List.Forall₂ (fun use pair => Dependency.Keeps s scope longer use pair.1 pair.2)
        (s.uses v.decl) pairs

namespace Scope

/-- In a longer file a name stands for what it stood for, else for a type declared at the end. -/
theorem lookup_append (u : CompilationUnit) (more : List TypeDecl) (name : String) :
    (ofUnit (u.append more)).lookup name = ((ofUnit u).lookup name <|>
      (ofUnit { u with imports := [], types := more }).lookup name) := by
  -- The imports are the same, and of two types of one name the first counts.
  have imported : (ofUnit (u.append more)).imported = (ofUnit u).imported := rfl
  have declared : (ofUnit (u.append more)).declared = (ofUnit u).declared ++
      (ofUnit { u with imports := [], types := more }).declared := by
    rw [declared_ofUnit, declared_ofUnit, declared_ofUnit]
    exact List.flatMap_append
  have none : (ofUnit { u with imports := [], types := more }).imported = [] := rfl
  simp only [lookup, imported, declared, none, List.find?_append, List.reverse_nil, List.find?_nil]
  cases (ofUnit u).imported.reverse.find? (fun entry => entry.1 == name) <;>
    cases (ofUnit u).declared.find? (fun entry => entry.1 == name) <;> simp

end Scope

namespace Settings

variable {s : Settings}

/-- What a written name was resolved to, it is resolved to in a longer file. -/
theorem targetName?_append {u : CompilationUnit} {written qualified : String}
    (more : List TypeDecl) (known : s.targetName? (.ofUnit u) written = some qualified) :
    s.targetName? (.ofUnit (u.append more)) written = some qualified := by
  rw [targetName?, targetName?_resolver] at known ⊢
  split at known
  · rename_i resolved
    rw [if_pos resolved, Scope.lookup_append, known]
    rfl
  · cases known

/-- Each name that a type writes keeps what it was resolved to when the file gets longer. -/
theorem keeps_append (s : Settings) (u : CompilationUnit) (more : List TypeDecl)
    (use : EdgeKind × String) :
    Dependency.Keeps s (.ofUnit u) (.ofUnit (u.append more)) use
      ⟨use.1, (s.targetName? (.ofUnit u) use.2).getD use.2⟩
      ⟨use.1, (s.targetName? (.ofUnit (u.append more)) use.2).getD use.2⟩ := by
  obtain ⟨kind, written⟩ := use
  cases known : s.targetName? (.ofUnit u) written with
  | some qualified =>
    rw [targetName?_append more known]
    exact .resolved known
  | none =>
    cases now : s.targetName? (.ofUnit (u.append more)) written with
    | some qualified => exact .found known now
    | none => exact .left known now

end Settings

/-- What is recorded of a type keeps all names that were resolved when the file gets longer. -/
theorem Visit.keeps_append (s : Settings) (u : CompilationUnit) (more : List TypeDecl)
    (v : Visit) : v.Keeps s (.ofUnit u) (.ofUnit (u.append more)) (v.record s (.ofUnit u))
      (v.record s (.ofUnit (u.append more))) where
  same := rfl
  dependencies := by
    -- Each name that is written makes a pair of dependencies.
    refine ⟨(s.uses v.decl).map fun use =>
      (⟨use.1, (s.targetName? (.ofUnit u) use.2).getD use.2⟩,
        ⟨use.1, (s.targetName? (.ofUnit (u.append more)) use.2).getD use.2⟩), ?_, ?_, ?_⟩
    · rw [List.map_map]
      exact s.dependencies_eq _ _
    · rw [List.map_map]
      exact s.dependencies_eq _ _
    · rw [List.forall₂_map_right_iff, List.forall₂_same]
      intro use _
      exact s.keeps_append u more use

namespace CompilationUnit

/-- The types of a longer file are visited one part after the other. -/
theorem visits_append (u : CompilationUnit) (more : List TypeDecl) :
    (u.append more).visits = u.visits ++ ({ u with types := more } : CompilationUnit).visits := by
  simp only [visits, append, TypeDecl.visitsAll_eq, List.flatMap_append]

/-- When more types are declared at the end of a file, there is still one record for each record
before, in the same order and at the start. It is the same but for targets that were left as written
and may be resolved now; one that was resolved stays. The records of the types at the end come
behind. Where targets stay as written, these are the records of a file with the types at the end
alone, and those before are unchanged. A name stands for what it stood for, and only if that was
nothing, for a type at the end. -/
theorem records_append (u : CompilationUnit) (more : List TypeDecl) (s : Settings) :
    let longer := u.append more
    let added : CompilationUnit := { u with types := more }
    (∃ pairs : List (TypeRecord × TypeRecord),
      u.records s = pairs.map (·.1) ∧
      longer.records s =
        pairs.map (·.2) ++ added.visits.filterMap (Visit.record? s (.ofUnit longer)) ∧
      List.Forall₂ (fun (v : Visit) pair =>
          v.Keeps s (.ofUnit u) (.ofUnit longer) pair.1 pair.2)
        (u.visits.filter Visit.isRecorded) pairs) ∧
    (s.resolveTargets = false → longer.records s = u.records s ++ added.records s) ∧
    ∀ name, (Scope.ofUnit longer).lookup name = ((Scope.ofUnit u).lookup name <|>
      (Scope.ofUnit { added with imports := [] }).lookup name) := by
  intro longer added
  have records : longer.records s = u.visits.filterMap (Visit.record? s (.ofUnit longer)) ++
      added.visits.filterMap (Visit.record? s (.ofUnit longer)) := by
    rw [CompilationUnit.records, visits_append, List.filterMap_append]
  refine ⟨?_, ?_, Scope.lookup_append u more⟩
  · -- The same types are recorded as before, each in the scope of the longer file.
    refine ⟨(u.visits.filter Visit.isRecorded).map fun v =>
      (v.record s (.ofUnit u), v.record s (.ofUnit longer)), ?_, ?_, ?_⟩
    · rw [List.map_map]
      exact u.records_eq s
    · rw [records, List.map_map, Visit.filterMap_record? s _ u.visits]
      rfl
    · rw [List.forall₂_map_right_iff, List.forall₂_same]
      intro v _
      exact v.keeps_append s u more
  · intro unresolved
    rw [records, Visit.record?_written unresolved (.ofUnit longer) (.ofUnit u)]
    show _ ++ _ = _ ++ added.visits.filterMap (Visit.record? s (.ofUnit added))
    rw [Visit.record?_written unresolved (.ofUnit added) (.ofUnit u)]
    rfl

/-- A file whose class extends a class that it does not know and implements an imported interface. -/
def unfinished : CompilationUnit :=
  ⟨"A.java", some "p", [⟨"q.C", false, false⟩], [.mk .classType "A" ["B"] ["C"] []]⟩

/-- The classes that the file comes to know, one of them with the name of the interface. -/
def later : List TypeDecl := [.mk .classType "B" [] [] [], .mk .classType "C" [] [] []]

/-- Of the supertypes only the unknown one is resolved by the classes at the end, and only if
targets are resolved at all. -/
theorem records_append_unfinished :
    let s : Settings := { resolveTargets := true, supertypes := .all }
    let t : Settings := { supertypes := .all }
    let longer := unfinished.append later
    let added : CompilationUnit := { unfinished with types := later }
    let told (records : List TypeRecord) :=
      records.map fun r => (r.className, r.dependencies.map (·.target))
    told (unfinished.records s) = [("p.A", ["B", "q.C"])] ∧
      told (longer.records s) = [("p.A", ["p.B", "q.C"]), ("p.B", []), ("p.C", [])] ∧
      t.resolveTargets = false ∧ longer.records t = unfinished.records t ++ added.records t ∧
      told (longer.records t) = [("p.A", ["B", "C"]), ("p.B", []), ("p.C", [])] := by
  intro s t longer added told
  have apart := (unfinished.records_append later t).2.1 rfl
  exact ⟨by decide, by decide, rfl, apart, by decide⟩

end CompilationUnit

end TypeGraph
