import TypeGraph.Proofs.Declaration.Qualified
import TypeGraph.Scope

/-! What a simple name stands for in a source file, by its imports and by its types. -/

namespace TypeGraph

/-- The last one of some imports to bring in a name. -/
structure Import.IsLastFor (i : Import) (name : String) (imports : List Import) : Prop where
  brings : i.simpleName? = some name
  last : ∃ before after, imports = before ++ i :: after ∧
    ∀ later ∈ after, later.simpleName? ≠ some name

namespace CompilationUnit

/-- The first type of a name that stands outside executable content, with the way down to it. -/
def firstNamed? (u : CompilationUnit) (name : String) : Option (Visit × Route) :=
  (u.visits.zip u.routes).find? fun p => p.1.decl.name == name && !p.2.passesBody

/-- The first type of a name has that name, and the way to it tells its qualified name. -/
theorem firstNamed?_eq_some {u : CompilationUnit} {name : String} {v : Visit} {r : Route}
    (first : u.firstNamed? name = some (v, r)) :
    v ∈ u.visits ∧ v.decl.name = name ∧ r.getLast?.map (·.decl) = some v.decl ∧
      v.qualified? = some (r.dotted u.package) := by
  -- The walk pairs each type with the way to it, and the way found passes no executable content.
  have pair : (v, r) ∈ u.visits.zip u.routes := List.mem_of_find?_eq_some first
  have found := List.find?_some first
  simp only [Bool.and_eq_true, beq_iff_eq, Bool.not_eq_true'] at found
  obtain ⟨named, outside⟩ := found
  have told := List.forall₂_zip u.visits_routes pair
  refine ⟨(List.of_mem_zip pair).1, named, told.1, ?_⟩
  rw [told.2, Route.qualified?, outside]
  rfl

end CompilationUnit

/-- Joined by dots, a package and the names on a way come to the last name only if there is nothing
before it. -/
theorem Route.dotted_eq_last_iff (package : Option String) {r : Route} {d : TypeDecl}
    (last : r.getLast?.map (·.decl) = some d) :
    r.dotted package = d.name ↔ package = none ∧ r.length = 1 := by
  obtain ⟨h, ends, rfl⟩ := Option.map_eq_some_iff.mp last
  obtain ⟨above, rfl⟩ := List.getLast?_eq_some_iff.mp ends
  -- A text and a dot before a name make it longer.
  have longer : ∀ before : String, before ++ "." ++ h.decl.name ≠ h.decl.name := by
    intro before same
    have lengths := congrArg String.length same
    simp only [String.length_append] at lengths
    have dot : ".".length = 1 := rfl
    omega
  by_cases top : above = []
  · subst top
    cases package with
    | none => simp [dotted, names]
    | some p => simp [dotted, names, longer]
  · rw [dotted_append package h top]
    simp [longer, top]

namespace Scope

/-- Imports that do not bring in a name have no entry for it. -/
theorem find?_imported_eq_none {imports : List Import} {name : String}
    (free : ∀ i ∈ imports, i.simpleName? ≠ some name) :
    ((imports.filterMap fun i => i.simpleName?.map (·, i.path)).reverse.find? fun entry =>
      entry.1 == name) = none := by
  rw [List.find?_eq_none]
  intro entry member same
  -- An entry for the name would come from an import that brings it in.
  obtain ⟨i, imported, made⟩ := List.mem_filterMap.mp (List.mem_reverse.mp member)
  obtain ⟨simple, known, rfl⟩ := Option.map_eq_some_iff.mp made
  have named : simple = name := by simpa using same
  subst named
  exact free i imported known

/-- A name stands for the last import of it, whatever else the file imports or declares. -/
theorem lookup_of_import {u : CompilationUnit} {i : Import} {name : String}
    (last : i.IsLastFor name u.imports) : (ofUnit u).lookup name = some i.path := by
  obtain ⟨brings, before, after, split, others⟩ := last
  have found : (ofUnit u).imported.reverse.find? (fun entry => entry.1 == name) =
      some (name, i.path) := by
    -- The search from the end passes the later imports and stops at this one.
    simp only [ofUnit, split, List.filterMap_append, List.filterMap_cons, brings, Option.map_some,
      List.reverse_append, List.reverse_cons, List.find?_append, find?_imported_eq_none others,
      Option.none_or]
    simp
  simp [lookup, found]

/-- Of visits that are told by ways, the first with a name outside executable content gives the
first qualified name for it. -/
theorem find?_declared {package : Option String} {visits : List Visit} {routes : List Route}
    (told : List.Forall₂ (fun v r => r.getLast?.map (·.decl) = some v.decl ∧
      v.qualified? = r.qualified? package) visits routes) (name : String) :
    ((visits.filterMap fun v => v.qualified?.map (v.decl.name, ·)).find? fun entry =>
        entry.1 == name).map (·.2) =
      ((visits.zip routes).find? fun p => p.1.decl.name == name && !p.2.passesBody).map
        (·.2.dotted package) := by
  -- Both searches go through the types in the order of the walk.
  induction told with
  | nil => rfl
  | @cons v r _ _ here _ ih =>
    rw [List.zip_cons_cons, List.find?_cons, List.filterMap_cons, here.2, Route.qualified?]
    cases passes : r.passesBody
    · -- Outside executable content a type has a qualified name, which counts if it is asked for.
      cases asked : v.decl.name == name
      · simpa [asked] using ih
      · simp [asked]
    · -- In executable content it has none.
      simpa using ih

/-- A name that is not imported stands for the first type of that name outside executable
content. -/
theorem lookup_of_not_imported {u : CompilationUnit} {name : String}
    (free : ∀ i ∈ u.imports, i.simpleName? ≠ some name) :
    (ofUnit u).lookup name = (u.firstNamed? name).map (·.2.dotted u.package) := by
  -- The types of the file are asked only after its imports.
  have absent : (ofUnit u).imported.reverse.find? (fun entry => entry.1 == name) = none :=
    find?_imported_eq_none free
  rw [lookup, absent]
  exact find?_declared u.visits_routes name

end Scope

end TypeGraph
