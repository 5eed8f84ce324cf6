import TypeGraph.Proofs.Declaration.Routes
import TypeGraph.Text.Split

/-! Qualified names tell apart the types of a source file that stand in different places. -/

namespace TypeGraph

/-- Joining names without dots by dots loses nothing. -/
theorem intercalate_dot_inj {names others : List String} (some : names ≠ []) (some' : others ≠ [])
    (plain : ∀ name ∈ names, '.' ∉ name.toList) (plain' : ∀ name ∈ others, '.' ∉ name.toList)
    (same : ".".intercalate names = ".".intercalate others) : names = others := by
  -- Cutting the joined text at its dots gives the names back.
  have cut : ∀ {l : List String}, l ≠ [] → (∀ name ∈ l, '.' ∉ name.toList) →
      Text.pieces '.' (".".intercalate l).toList = l.map String.toList := by
    intro l nonempty undotted
    rw [String.toList_intercalate]
    exact Text.pieces_intercalate (by simpa using nonempty) (by simpa using undotted)
  have pieces := cut some plain
  rw [same, cut some' plain'] at pieces
  exact (List.map_injective_iff.mpr fun _ _ => String.toList_inj.mp) pieces.symm

/-- In one package, ways over names without dots give the same dotted name only if they pass the
same names. -/
theorem Route.dotted_inj (package : Option String) {r s : Route} (some : r ≠ []) (some' : s ≠ [])
    (plain : ∀ h ∈ r, '.' ∉ h.decl.name.toList) (plain' : ∀ h ∈ s, '.' ∉ h.decl.name.toList) :
    r.dotted package = s.dotted package ↔ r.names = s.names := by
  constructor
  · intro same
    have nonempty : r.names ≠ [] := by simpa [names] using some
    have nonempty' : s.names ≠ [] := by simpa [names] using some'
    -- The package may have dots, but is the same start of both names.
    have rest : ".".intercalate r.names = ".".intercalate s.names := by
      cases package with
      | none => simpa [dotted] using same
      | some p =>
        simp only [dotted, Option.toList_some, List.singleton_append,
          String.intercalate_cons_of_ne_nil nonempty,
          String.intercalate_cons_of_ne_nil nonempty'] at same
        exact (String.append_right_inj _).mp same
    exact intercalate_dot_inj nonempty nonempty' (by simpa [names] using plain)
      (by simpa [names] using plain') rest
  · intro same
    simp [dotted, same]

namespace CompilationUnit

/-- The visits to the types of a file are told by the ways to them. -/
theorem visits_routes (u : CompilationUnit) :
    List.Forall₂ (fun v r => r.getLast?.map (·.decl) = some v.decl ∧
      v.qualified? = r.qualified? u.package) u.visits u.routes := by
  -- At the top of a file names are put after the package, if there is one.
  have top : (Enclosing.unit u.package).Stands u.package [] false := by
    intro d
    cases u.package <;>
      simp [Enclosing.qualify, Route.qualified?, Route.passesBody, Route.dotted, Route.names]
  unfold visits routes
  rw [TypeDecl.visitsAll_eq]
  induction u.types with
  | nil => exact .nil
  | cons d rest ih => exact List.rel_append (d.visits_routes u.package top) ih

/-- Every type on a way down from the file is visited. -/
theorem Reaches.visited {u : CompilationUnit} {r : Route} (reached : u.Reaches r) :
    ∀ h ∈ r, ∃ v ∈ u.visits, v.decl = h.decl := by
  -- The last type of each part of the way is visited, as that part is a way itself.
  have last : ∀ (above : Route) {h : Hop}, u.Reaches (above ++ [h]) →
      ∃ v ∈ u.visits, v.decl = h.decl := by
    intro above h reached
    obtain ⟨i, within, listed⟩ := List.mem_iff_getElem.mp ((u.mem_routes _).mpr reached)
    have visits := List.forall₂_iff_get.mp u.visits_routes
    have told := (visits.2 i (visits.1 ▸ within) within).1
    refine ⟨u.visits[i], List.getElem_mem _, ?_⟩
    simpa [listed] using told.symm
  induction reached with
  | top declared => simpa using last [] (.top declared)
  | member reached member ih =>
    rw [List.forall_mem_append]
    exact ⟨ih, by simpa using last _ (reached.member member)⟩
  | content reached member has declared ih =>
    rw [List.forall_mem_append]
    exact ⟨ih, by simpa using last _ (reached.content member has declared)⟩

/-- A way down from a file passes at least one type. -/
theorem Reaches.ne_nil {u : CompilationUnit} {r : Route} (reached : u.Reaches r) : r ≠ [] := by
  cases reached <;> simp

/-- The types of a file are visited along all ways down to them. A type has a qualified name unless
executable content lies on its way, and then it is the package and the names on the way, joined by
dots. If no type has a dot in its name, two types that have qualified names have the same one if
and only if their ways pass the same names. -/
theorem qualified_visits (u : CompilationUnit) :
    (∀ r, r ∈ u.routes ↔ u.Reaches r) ∧
      List.Forall₂ (fun v r => r.getLast?.map (·.decl) = some v.decl ∧
        v.qualified? = if r.any (·.inBody) then none
          else some (".".intercalate (u.package.toList ++ r.map (·.decl.name))))
        u.visits u.routes ∧
      ((∀ v ∈ u.visits, '.' ∉ v.decl.name.toList) →
        ∀ a ∈ u.visits.zip u.routes, ∀ b ∈ u.visits.zip u.routes,
          a.1.qualified?.isSome → b.1.qualified?.isSome →
            (a.1.qualified? = b.1.qualified? ↔
              a.2.map (·.decl.name) = b.2.map (·.decl.name))) := by
  refine ⟨u.mem_routes, u.visits_routes, ?_⟩
  intro plain a fromA b fromB named named'
  -- Both names are those of ways, and all names on these ways are those of visited types.
  have tellA := (List.forall₂_zip u.visits_routes fromA).2
  have tellB := (List.forall₂_zip u.visits_routes fromB).2
  have reachA := (u.mem_routes _).mp (List.of_mem_zip fromA).2
  have reachB := (u.mem_routes _).mp (List.of_mem_zip fromB).2
  have undotted : ∀ {r : Route}, u.Reaches r → ∀ h ∈ r, '.' ∉ h.decl.name.toList := by
    intro r reached h passed
    obtain ⟨v, visited, same⟩ := reached.visited h passed
    exact same ▸ plain v visited
  have freeA : a.2.passesBody = false := by
    by_contra passes
    simp [tellA, Route.qualified?, passes] at named
  have freeB : b.2.passesBody = false := by
    by_contra passes
    simp [tellB, Route.qualified?, passes] at named'
  rw [tellA, tellB, Route.qualified?, Route.qualified?, freeA, freeB]
  simpa [Route.names] using Route.dotted_inj u.package reachA.ne_nil reachB.ne_nil (undotted reachA)
    (undotted reachB)

/-- A file of a package with a nested type, and a type nested in a local one. -/
def nestedAndLocal : CompilationUnit :=
  ⟨"Outer.java", some "a.b", [],
    [.mk .classType "Outer" [] [] [
      .type (.mk .interfaceType "Inner" [] [] []),
      .method "run" ⟨2, 4⟩ (.mk [] [
        .mk .classType "Local" [] [] [.type (.mk .classType "Inner" [] [] [])]])]]⟩

/-- No name in the file has a dot, so its two qualified types go by different names. -/
theorem qualified_visits_nestedAndLocal :
    nestedAndLocal.visits.map (·.qualified?) =
        [some "a.b.Outer", some "a.b.Outer.Inner", none, none] ∧
      (∀ v ∈ nestedAndLocal.visits, '.' ∉ v.decl.name.toList) ∧
      ∀ a ∈ nestedAndLocal.visits.zip nestedAndLocal.routes,
        ∀ b ∈ nestedAndLocal.visits.zip nestedAndLocal.routes,
          a.1.qualified?.isSome → b.1.qualified?.isSome →
            (a.1.qualified? = b.1.qualified? ↔
              a.2.map (·.decl.name) = b.2.map (·.decl.name)) := by
  have undotted : ∀ v ∈ nestedAndLocal.visits, '.' ∉ v.decl.name.toList := by decide
  exact ⟨rfl, undotted, (qualified_visits nestedAndLocal).2.2 undotted⟩

end CompilationUnit

end TypeGraph
