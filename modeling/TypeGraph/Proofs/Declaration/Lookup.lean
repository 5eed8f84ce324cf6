import TypeGraph.Proofs.Declaration.Scope
import TypeGraph.Proofs.Declaration.Segment

/-! What the lookup of a name in a source file comes to, and what it does not depend on. -/

namespace TypeGraph

/-- An import of a single type whose path ends in a name, after its last dot if it has one. -/
structure Import.BringsIn (i : Import) (name : String) : Prop where
  notStatic : i.isStatic = false
  notWildcard : i.isWildcard = false
  plain : '.' ∉ name.toList
  ends : i.path = name ∨ ∃ before, i.path = before ++ "." ++ name

/-- The simple name of an import is the one that it brings in. -/
theorem Import.simpleName?_eq_some_iff {i : Import} {name : String} :
    i.simpleName? = some name ↔ i.BringsIn name := by
  obtain ⟨path, isStatic, isWildcard⟩ := i
  constructor
  · intro simple
    cases isStatic <;> cases isWildcard <;> simp [simpleName?] at simple
    obtain ⟨plain, ends⟩ := lastSegment_eq_iff.mp simple
    exact ⟨rfl, rfl, plain, ends⟩
  · intro brings
    obtain ⟨rfl, rfl, plain, ends⟩ := brings
    simpa [simpleName?] using lastSegment_eq_iff.mpr ⟨plain, ends⟩

instance (i : Import) (name : String) : Decidable (i.BringsIn name) :=
  decidable_of_iff _ Import.simpleName?_eq_some_iff

/-- Whether an import is one of a single type. -/
def Import.isSingle (i : Import) : Bool := !i.isStatic && !i.isWildcard

/-- Imports of other kinds have no simple name. -/
theorem Import.simpleName?_of_not_isSingle {i : Import} (other : i.isSingle = false) :
    i.simpleName? = none := by
  rw [Option.eq_none_iff_forall_ne_some]
  intro name simple
  obtain ⟨notStatic, notWildcard, -, -⟩ := simpleName?_eq_some_iff.mp simple
  simp [isSingle, notStatic, notWildcard] at other

mutual
/-- A declared type with nothing but its name and its member types. -/
def TypeDecl.outline : TypeDecl → TypeDecl
  | .mk _ name _ _ members => .mk .classType name [] [] (Member.outlines members)
/-- The types among some members, each with nothing but its name and its member types. -/
def Member.outlines : List Member → List Member
  | [] => []
  | .type decl :: rest => .type decl.outline :: Member.outlines rest
  | .method _ _ _ :: rest => Member.outlines rest
  | .field _ _ _ :: rest => Member.outlines rest
  | .construction _ :: rest => Member.outlines rest
  | .initializer _ :: rest => Member.outlines rest
end

/-- A source file with nothing but its package, its imports of single types, and the names of its
types outside executable content. -/
def CompilationUnit.outline (u : CompilationUnit) : CompilationUnit where
  path := ""
  package := u.package
  imports := u.imports.filter Import.isSingle
  types := u.types.map TypeDecl.outline

namespace TypeDecl

/-- The names of a type and of all types inside it, each with the qualified name if it has one. -/
def qualifiedNames (enclosing : Enclosing) (d : TypeDecl) : List (String × String) :=
  (d.visits enclosing).filterMap fun v => v.qualified?.map (v.decl.name, ·)

/-- The name of a type comes before the names of the types directly in it. -/
theorem qualifiedNames_eq (enclosing : Enclosing) (d : TypeDecl) :
    d.qualifiedNames enclosing = ((enclosing.qualify d.name).map (d.name, ·)).toList ++
      d.inner.flatMap fun h =>
        h.decl.qualifiedNames (h.enclosing (enclosing.qualify d.name)) := by
  rw [qualifiedNames, visits_eq, List.filterMap_cons, List.filterMap_flatMap]
  have here : (⟨d, enclosing⟩ : Visit).qualified? = enclosing.qualify d.name := rfl
  rw [here]
  cases enclosing.qualify d.name <;> rfl

/-- Where a place qualifies no names, none is qualified farther in either. -/
theorem qualifiedNames_of_unqualified {enclosing : Enclosing} (d : TypeDecl)
    (unqualified : ∀ name, enclosing.qualify name = none) :
    d.qualifiedNames enclosing = [] := by
  -- The induction is on the types inside, which stand in a type without a qualified name or in
  -- executable content.
  induction d using inner_induction generalizing enclosing with
  | step d ih =>
    rw [qualifiedNames_eq, unqualified, Option.map_none, Option.toList_none, List.nil_append,
      List.flatMap_eq_nil_iff]
    intro h stands
    apply ih h stands
    intro name
    unfold Hop.enclosing
    cases h.inBody <;> rfl

/-- Directly in an outline stand the outlines of the member types. -/
theorem inner_outline (d : TypeDecl) :
    d.outline.inner = (d.inner.filter fun h => !h.inBody).map fun h => ⟨h.decl.outline, false⟩ := by
  obtain ⟨kind, name, extended, implemented, members⟩ := d
  simp only [inner, outline, TypeDecl.members]
  induction members with
  | nil => rfl
  | cons m rest ih =>
    rw [List.flatMap_cons, List.filter_append, List.map_append, ← ih]
    cases m
    case type => simp [Member.outlines, Member.inner]
    all_goals
      -- What stands in executable content is left out.
      simp [Member.outlines, Member.inner, List.filter_map, Function.comp_def]

/-- An outline has the same qualified names. -/
theorem qualifiedNames_outline (enclosing : Enclosing) (d : TypeDecl) :
    d.outline.qualifiedNames enclosing = d.qualifiedNames enclosing := by
  induction d using inner_induction generalizing enclosing with
  | step d ih =>
    have name : d.outline.name = d.name := by cases d; rfl
    rw [qualifiedNames_eq, qualifiedNames_eq enclosing d, name, inner_outline, List.flatMap_map]
    congr 1
    generalize enclosing.qualify d.name = qualified
    -- Types in executable content have no qualified names, so leaving them out changes nothing.
    generalize d.inner = hops at ih
    induction hops with
    | nil => rfl
    | cons h rest more =>
      rw [List.forall_mem_cons] at ih
      rw [List.filter_cons, List.flatMap_cons, ← more ih.2]
      cases inside : h.inBody
      · simp [Hop.enclosing, inside, ih.1]
      · have none : h.decl.qualifiedNames (h.enclosing qualified) = [] := by
          apply qualifiedNames_of_unqualified
          simp [Hop.enclosing, inside, Enclosing.qualify]
        simp [none]

end TypeDecl

namespace Scope

/-- The declared names of a file are the qualified names of its types. -/
theorem declared_ofUnit (u : CompilationUnit) :
    (ofUnit u).declared = u.types.flatMap (TypeDecl.qualifiedNames (.unit u.package)) := by
  show u.visits.filterMap _ = _
  rw [CompilationUnit.visits, TypeDecl.visitsAll_eq, List.filterMap_flatMap]
  rfl

/-- A file has the names of its outline. -/
theorem ofUnit_outline (u : CompilationUnit) : ofUnit u.outline = ofUnit u := by
  have imported : (ofUnit u.outline).imported = (ofUnit u).imported := by
    show (u.imports.filter Import.isSingle).filterMap _ = u.imports.filterMap _
    rw [List.filterMap_filter]
    refine List.filterMap_congr fun i _ => ?_
    -- Imports of other kinds give no entry.
    cases single : i.isSingle
    · simp [Import.simpleName?_of_not_isSingle single]
    · simp
  have declared : (ofUnit u.outline).declared = (ofUnit u).declared := by
    rw [declared_ofUnit, declared_ofUnit, CompilationUnit.outline, List.flatMap_map]
    exact List.flatMap_congr fun d _ => d.qualifiedNames_outline _
  show Scope.mk _ _ = Scope.mk _ _
  rw [Scope.mk.injEq]
  exact ⟨imported, declared⟩

end Scope

namespace CompilationUnit

variable {u : CompilationUnit} {name : String}

/-- The first type of a name is the first in the order of the walk that is so named and on whose way
no executable content lies. -/
theorem firstNamed?_of_split {v : Visit} {r : Route} {before after : List (Visit × Route)}
    (split : u.visits.zip u.routes = before ++ (v, r) :: after) (named : v.decl.name = name)
    (outside : r.passesBody = false)
    (first : ∀ p ∈ before, p.1.decl.name = name → p.2.passesBody = true) :
    u.firstNamed? name = some (v, r) := by
  rw [firstNamed?, List.find?_eq_some_iff_append]
  refine ⟨by simp [named, outside], before, after, split, ?_⟩
  intro p earlier
  by_cases same : p.1.decl.name = name
  · simp [first p earlier same]
  · simp [same]

/-- There is no first type of a name if executable content lies on the way to all that have it. -/
theorem firstNamed?_eq_none
    (inBody : ∀ p ∈ u.visits.zip u.routes, p.1.decl.name = name → p.2.passesBody = true) :
    u.firstNamed? name = none := by
  rw [firstNamed?, List.find?_eq_none]
  intro p listed
  by_cases same : p.1.decl.name = name
  · simp [inBody p listed same]
  · simp [same]

end CompilationUnit

/-- A name stands for the path of the last import of a single type whose path ends in it. If there
is none, it stands for the qualified name of the first type so named on the walk, of those to which
no executable content lies on the way, and if there is no such type either, for nothing. So whatever
else is imported, and all that is declared in executable content or below, has no influence: files
with the same outline look up all names alike. -/
theorem Scope.lookup_by_imports_and_types (u : CompilationUnit) (name : String) :
    (∀ before i after, u.imports = before ++ i :: after → i.BringsIn name →
      (∀ later ∈ after, ¬later.BringsIn name) → (ofUnit u).lookup name = some i.path) ∧
    ((∀ i ∈ u.imports, ¬i.BringsIn name) →
      (∀ before v r after, u.visits.zip u.routes = before ++ (v, r) :: after →
        v.decl.name = name → r.passesBody = false →
        (∀ p ∈ before, p.1.decl.name = name → p.2.passesBody = true) →
        v.qualified? = some (r.dotted u.package) ∧ (ofUnit u).lookup name = v.qualified?) ∧
      ((∀ p ∈ u.visits.zip u.routes, p.1.decl.name = name → p.2.passesBody = true) →
        (ofUnit u).lookup name = none)) ∧
    List.Forall₂ (fun v r => u.Reaches r ∧ r.getLast?.map (·.decl) = some v.decl)
      u.visits u.routes ∧
    ∀ other : CompilationUnit, other.outline = u.outline →
      (ofUnit other).lookup name = (ofUnit u).lookup name := by
  simp only [← Import.simpleName?_eq_some_iff]
  refine ⟨?_, ?_, ?_, ?_⟩
  · intro before i after split brings others
    exact lookup_of_import ⟨brings, before, after, split, others⟩
  · intro free
    have types := lookup_of_not_imported free
    constructor
    · intro before v r after split named outside first
      have found := CompilationUnit.firstNamed?_of_split split named outside first
      obtain ⟨-, -, -, qualified⟩ := CompilationUnit.firstNamed?_eq_some found
      exact ⟨qualified, by rw [types, found, qualified]; rfl⟩
    · intro inBody
      rw [types, CompilationUnit.firstNamed?_eq_none inBody]
      rfl
  · refine (forall₂_mem_right u.visits_routes).imp ?_
    intro v r told
    obtain ⟨listed, last, -⟩ := told
    exact ⟨(u.mem_routes r).mp listed, last⟩
  · intro other same
    rw [← ofUnit_outline other, same, ofUnit_outline]

/-- A class that stands in executable content. -/
def localClassC : TypeDecl := .mk .classType "C" [] [] []

/-- An interface among the members of a class. -/
def memberC : TypeDecl := .mk .interfaceType "C" [] [] []

/-- A class with a local class and, behind it, a member type of the same name. -/
def outerOfC : TypeDecl :=
  .mk .classType "A" [] [] [.method "run" ⟨2, 4⟩ (.mk [] [localClassC]), .type memberC]

/-- A file with that class, two imports of one name, and a static and a wildcard import that end in
the name, too. -/
def shadowing : CompilationUnit :=
  ⟨"A.java", some "p", [⟨"q.B", false, false⟩, ⟨"r.B", false, false⟩, ⟨"s.B", true, false⟩,
    ⟨"t.B", false, true⟩], [outerOfC]⟩

/-- The walk meets the local class before the member type. -/
theorem zip_routes_shadowing : shadowing.visits.zip shadowing.routes =
    [(⟨outerOfC, .unit (some "p")⟩, [⟨outerOfC, false⟩]),
      (⟨localClassC, .body⟩, [⟨outerOfC, false⟩, ⟨localClassC, true⟩]),
      (⟨memberC, .type (some "p.A")⟩, [⟨outerOfC, false⟩, ⟨memberC, false⟩])] := by
  have routes : shadowing.routes = [[⟨outerOfC, false⟩], [⟨outerOfC, false⟩, ⟨localClassC, true⟩],
      [⟨outerOfC, false⟩, ⟨memberC, false⟩]] := by
    have inner : outerOfC.inner = [⟨localClassC, true⟩, ⟨memberC, false⟩] := rfl
    -- The ways go no farther than a type without types directly in it.
    have ends (d : TypeDecl) (inBody : Bool) (none : d.inner = []) :
        d.routes [⟨outerOfC, false⟩] inBody = [[⟨outerOfC, false⟩, ⟨d, inBody⟩]] := by
      rw [TypeDecl.routes_eq, none]
      rfl
    show [outerOfC].flatMap (TypeDecl.routes [] false) = _
    rw [List.flatMap_cons, List.flatMap_nil, TypeDecl.routes_eq, inner]
    simp [ends localClassC true rfl, ends memberC false rfl]
  rw [routes]
  rfl

/-- Of the imports only the second one of a single type counts, and of the types only the member. -/
theorem Scope.lookup_by_imports_and_types_shadowing :
    (∀ i ∈ shadowing.imports, ¬i.BringsIn "C") ∧ (∀ i ∈ shadowing.imports, ¬i.BringsIn "run") ∧
      (ofUnit shadowing).lookup "B" = some "r.B" ∧
      (ofUnit shadowing).lookup "C" = some "p.A.C" ∧
      (ofUnit shadowing).lookup "run" = none := by
  have free : ∀ i ∈ shadowing.imports, ¬i.BringsIn "C" := by decide
  have free' : ∀ i ∈ shadowing.imports, ¬i.BringsIn "run" := by decide
  have imports := (lookup_by_imports_and_types shadowing "B").1 [⟨"q.B", false, false⟩]
    ⟨"r.B", false, false⟩ [⟨"s.B", true, false⟩, ⟨"t.B", false, true⟩] rfl (by decide) (by decide)
  have member := ((lookup_by_imports_and_types shadowing "C").2.1 free).1
    [(⟨outerOfC, .unit (some "p")⟩, [⟨outerOfC, false⟩]),
      (⟨localClassC, .body⟩, [⟨outerOfC, false⟩, ⟨localClassC, true⟩])]
    ⟨memberC, .type (some "p.A")⟩ [⟨outerOfC, false⟩, ⟨memberC, false⟩] []
    zip_routes_shadowing rfl rfl (by decide)
  have nothing := ((lookup_by_imports_and_types shadowing "run").2.1 free').2
    (by rw [zip_routes_shadowing]; decide)
  exact ⟨free, free', imports, member.2, nothing⟩

end TypeGraph
