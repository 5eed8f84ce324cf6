import Mathlib.Data.List.Forall2
import TypeGraph.Declaration.Walk

/-! The ways from a source file down to its types, and the names that they give to the types. -/

namespace TypeGraph

/-- In related lists, every value on the right comes from the right list. -/
theorem forall₂_mem_right {α β : Type} {related : α → β → Prop} {xs : List α} {ys : List β}
    (holds : List.Forall₂ related xs ys) :
    List.Forall₂ (fun x y => y ∈ ys ∧ related x y) xs ys :=
  ((List.forall₂_and_left _ _).mpr ⟨fun _ member => member, holds.flip⟩).flip

/-- A type on the way down to a type. -/
structure Hop where
  decl : TypeDecl
  /-- Whether it stands in executable content of the type before it. -/
  inBody : Bool

/-- The types on the way from a source file down to one of its types, which comes last. -/
abbrev Route := List Hop

namespace Route

/-- The simple names on the way. -/
def names (r : Route) : List String := r.map (·.decl.name)

/-- Whether the way leads through executable content. -/
def passesBody (r : Route) : Bool := r.any (·.inBody)

/-- The package, if any, and the names on the way, joined by dots. -/
def dotted (package : Option String) (r : Route) : String :=
  ".".intercalate (package.toList ++ r.names)

/-- The qualified name of the last type on the way, if no executable content lies on it. -/
def qualified? (package : Option String) (r : Route) : Option String :=
  if r.passesBody then none else some (r.dotted package)

end Route

/-- The types that stand directly in a member. -/
def Member.inner : Member → List Hop
  | .type decl => [⟨decl, false⟩]
  | .method _ _ body | .field _ _ body | .construction body | .initializer body =>
    body.types.map (⟨·, true⟩)

/-- The types that stand directly in a type, in source order. -/
def TypeDecl.inner (d : TypeDecl) : List Hop := d.members.flatMap Member.inner

/-- A type that stands in a member is smaller than the member. -/
theorem Member.sizeOf_inner {m : Member} {h : Hop} (stands : h ∈ m.inner) :
    sizeOf h.decl < sizeOf m := by
  -- A type is a member itself, or one of the types that the body of a member holds.
  cases m <;> simp only [inner, List.mem_map, List.mem_singleton] at stands
  case type => subst stands; simp
  all_goals
    rename_i body
    obtain ⟨calls, types⟩ := body
    obtain ⟨d, declared, rfl⟩ := stands
    have smaller : sizeOf d < sizeOf types := List.sizeOf_lt_of_mem declared
    simp
    omega

/-- A type that stands in another is smaller. -/
theorem TypeDecl.sizeOf_inner {d : TypeDecl} {h : Hop} (inside : h ∈ d.inner) :
    sizeOf h.decl < sizeOf d := by
  -- The type stands in a member, and the member is a part of the declaration.
  obtain ⟨kind, name, extended, implemented, members⟩ := d
  obtain ⟨m, member, stands⟩ := List.mem_flatMap.mp inside
  have inMembers : sizeOf m < sizeOf members := List.sizeOf_lt_of_mem member
  have inMember := Member.sizeOf_inner stands
  simp
  omega

namespace TypeDecl

/-- What holds of a type if it holds of those directly in it holds of all types. -/
theorem inner_induction {motive : TypeDecl → Prop}
    (step : ∀ d : TypeDecl, (∀ h ∈ d.inner, motive h.decl) → motive d) (d : TypeDecl) :
    motive d :=
  step d fun h _inside => inner_induction step h.decl
termination_by sizeOf d
decreasing_by exact sizeOf_inner _inside

/-- The ways to a type and to all types inside it, outer ones first. -/
def routes (above : Route) (inBody : Bool) (d : TypeDecl) : List Route :=
  (above ++ [⟨d, inBody⟩]) ::
    d.inner.attach.flatMap fun h => h.1.decl.routes (above ++ [⟨d, inBody⟩]) h.1.inBody
termination_by sizeOf d
decreasing_by exact sizeOf_inner h.2

/-- The way to a type is followed by the ways to the types that stand directly in it. -/
theorem routes_eq (above : Route) (inBody : Bool) (d : TypeDecl) :
    d.routes above inBody = (above ++ [⟨d, inBody⟩]) ::
      d.inner.flatMap fun h => h.decl.routes (above ++ [⟨d, inBody⟩]) h.inBody := by
  -- The membership that termination needs is forgotten again.
  rw [routes, List.flatMap_subtype (g := fun h =>
    h.decl.routes (above ++ [⟨d, inBody⟩]) h.inBody) (fun _ _ => rfl), List.unattach_attach]

end TypeDecl

/-- Where a type stands that stands directly in another. -/
def Hop.enclosing (h : Hop) (qualified : Option String) : Enclosing :=
  if h.inBody then .body else .type qualified

/-- The types of a list are visited one after the other. -/
theorem TypeDecl.visitsAll_eq (enclosing : Enclosing) (ds : List TypeDecl) :
    visitsAll enclosing ds = ds.flatMap (visits enclosing) := by
  -- The recursion on the list is that of a flat map.
  induction ds with
  | nil => rfl
  | cons d rest ih => simp [visitsAll, ih]

/-- The types in members are those that stand directly in them, with what lies inside those. -/
theorem Member.visitsAll_eq (qualified : Option String) (members : List Member) :
    visitsAll (.type qualified) members =
      (members.flatMap inner).flatMap fun h => h.decl.visits (h.enclosing qualified) := by
  -- Every member passes on what the types in it are enclosed by.
  induction members with
  | nil => rfl
  | cons m rest ih =>
    have here : m.visits (.type qualified) =
        m.inner.flatMap fun h => h.decl.visits (h.enclosing qualified) := by
      cases m
      case type => simp [visits, inner, Hop.enclosing]
      all_goals
        rename_i body
        cases body
        simp [visits, inner, Hop.enclosing, Body.visits, Body.types, TypeDecl.visitsAll_eq,
          List.flatMap_map]
    simp [visitsAll, here, ih]

/-- A visit to a type is followed by visits to the types that stand directly in it. -/
theorem TypeDecl.visits_eq (enclosing : Enclosing) (d : TypeDecl) :
    d.visits enclosing = ⟨d, enclosing⟩ ::
      d.inner.flatMap fun h => h.decl.visits (h.enclosing (enclosing.qualify d.name)) := by
  -- A visit goes on to the members, which lead to the types in them.
  cases d
  simp [visits, Member.visitsAll_eq, inner, members, TypeDecl.name]

namespace CompilationUnit

/-- The ways down to the types of a source file, outer ones first. -/
def routes (u : CompilationUnit) : List Route := u.types.flatMap (TypeDecl.routes [] false)

/-- The ways down from a source file, each type standing directly in the one before. -/
inductive Reaches (u : CompilationUnit) : Route → Prop where
  /-- A type at the top of the file. -/
  | top {d : TypeDecl} : d ∈ u.types → u.Reaches [⟨d, false⟩]
  /-- A type among the members of the last type. -/
  | member {above : Route} {h : Hop} {d : TypeDecl} : u.Reaches (above ++ [h]) →
      .type d ∈ h.decl.members → u.Reaches (above ++ [h] ++ [⟨d, false⟩])
  /-- A type declared in the executable content of a member of the last type. -/
  | content {above : Route} {h : Hop} {m : Member} {body : Body} {d : TypeDecl} :
      u.Reaches (above ++ [h]) → m ∈ h.decl.members → m.body? = some body → d ∈ body.types →
      u.Reaches (above ++ [h] ++ [⟨d, true⟩])

variable {u : CompilationUnit}

/-- The way to a type goes on to every type that stands directly in it. -/
theorem Reaches.inner {above : Route} {h k : Hop} (reached : u.Reaches (above ++ [h]))
    (stands : k ∈ h.decl.inner) : u.Reaches (above ++ [h] ++ [k]) := by
  -- A member is a type or holds types in its body, and there is a step for each.
  obtain ⟨m, member, inMember⟩ := List.mem_flatMap.mp stands
  cases m <;> simp only [Member.inner, List.mem_map, List.mem_singleton] at inMember
  case type => subst inMember; exact reached.member member
  all_goals
    obtain ⟨d, declared, rfl⟩ := inMember
    exact reached.content member rfl declared

/-- The ways listed from a type that is reached are followed from the top of the file. -/
theorem Reaches.of_mem_routes (d : TypeDecl) (above : Route) {r : Route} {inBody : Bool}
    (reached : u.Reaches (above ++ [⟨d, inBody⟩])) (listed : r ∈ d.routes above inBody) :
    u.Reaches r := by
  -- The list goes on only to types that stand directly in the last one.
  induction d using TypeDecl.inner_induction generalizing above inBody with
  | step d ih =>
    rw [TypeDecl.routes_eq, List.mem_cons, List.mem_flatMap] at listed
    rcases listed with rfl | ⟨h, stands, listed⟩
    · exact reached
    · exact ih h stands _ (reached.inner stands) listed

end CompilationUnit

/-- With a way the list has those that go on to a type standing directly in its last type. -/
theorem TypeDecl.mem_routes_inner (d : TypeDecl) {above r : Route} {inBody : Bool} {h k : Hop}
    (listed : r ++ [h] ∈ d.routes above inBody) (stands : k ∈ h.decl.inner) :
    r ++ [h] ++ [k] ∈ d.routes above inBody := by
  -- Either the way is that to the declaration itself, or it lies in one of the lists inside.
  induction d using inner_induction generalizing above inBody with
  | step d ih =>
    rw [routes_eq, List.mem_cons, List.mem_flatMap] at listed ⊢
    right
    rcases listed with here | ⟨g, between, listed⟩
    · -- The next type is the first on the ways listed from it.
      obtain ⟨rfl, same⟩ := List.append_inj' here rfl
      cases same
      exact ⟨k, stands, by rw [routes_eq]; exact List.mem_cons_self⟩
    · exact ⟨g, between, ih g between listed⟩

namespace CompilationUnit

/-- The listed ways are those on which each type stands directly in the one before. -/
theorem mem_routes (u : CompilationUnit) (r : Route) : r ∈ u.routes ↔ u.Reaches r := by
  constructor
  · intro listed
    obtain ⟨d, declared, listed⟩ := List.mem_flatMap.mp listed
    exact Reaches.of_mem_routes d [] (.top declared) listed
  · -- A way is built up hop by hop, and the list is closed under each further hop.
    have onward : ∀ {above : Route} {h k : Hop}, above ++ [h] ∈ u.routes → k ∈ h.decl.inner →
        above ++ [h] ++ [k] ∈ u.routes := by
      intro above h k listed stands
      obtain ⟨d, declared, listed⟩ := List.mem_flatMap.mp listed
      exact List.mem_flatMap.mpr ⟨d, declared, d.mem_routes_inner listed stands⟩
    intro reached
    induction reached with
    | @top d declared =>
      exact List.mem_flatMap.mpr ⟨d, declared, by rw [TypeDecl.routes_eq]; simp⟩
    | @member above h d _ member ih =>
      exact onward ih (List.mem_flatMap.mpr ⟨_, member, by simp [Member.inner]⟩)
    | @content above h m body d _ member has declared ih =>
      refine onward ih (List.mem_flatMap.mpr ⟨m, member, ?_⟩)
      cases m <;> simp only [Member.body?, Option.some.injEq, reduceCtorEq] at has
      all_goals
        subst has
        simpa [Member.inner] using declared

end CompilationUnit

/-- A place qualifies names as the way to it does. -/
def Enclosing.Stands (enclosing : Enclosing) (package : Option String) (above : Route)
    (inBody : Bool) : Prop :=
  ∀ d : TypeDecl, enclosing.qualify d.name = Route.qualified? package (above ++ [⟨d, inBody⟩])

namespace Route

theorem passesBody_append (r : Route) (h : Hop) :
    passesBody (r ++ [h]) = (r.passesBody || h.inBody) := by
  simp [passesBody]

/-- A longer way has one more name after a dot. -/
theorem dotted_append (package : Option String) {r : Route} (h : Hop) (some : r ≠ []) :
    dotted package (r ++ [h]) = r.dotted package ++ "." ++ h.decl.name := by
  -- The names before the last one are some, so a dot comes between.
  have before : package.toList ++ r.names ≠ [] := by simp [names, some]
  simp only [dotted, names, List.map_append, List.map_cons, List.map_nil, ← List.append_assoc]
  rw [String.intercalate_append_of_ne_nil (by simpa [names] using before) (by simp)]
  simp

end Route

/-- A place inside a type qualifies names as the way through the type does. -/
theorem Enclosing.Stands.inner {enclosing : Enclosing} {package : Option String} {above : Route}
    {inBody : Bool} (stands : enclosing.Stands package above inBody) (d : TypeDecl) (h : Hop) :
    (h.enclosing (enclosing.qualify d.name)).Stands package (above ++ [⟨d, inBody⟩]) h.inBody := by
  intro e
  rw [stands d]
  have nonempty : above ++ [⟨d, inBody⟩] ≠ [] := by simp
  generalize above ++ [⟨d, inBody⟩] = r at nonempty
  unfold Hop.enclosing
  cases inside : h.inBody
  · -- Among members the name is put after that of the type, if it has one.
    by_cases passes : r.passesBody
    · simp [Route.qualified?, Route.passesBody_append, passes, qualify]
    · simp [Route.qualified?, Route.passesBody_append, passes, qualify,
        Route.dotted_append package ⟨e, false⟩ nonempty]
  · -- In executable content no name is qualified, nor is any farther in.
    simp [Route.qualified?, Route.passesBody_append, qualify]

/-- The visits to a type and those inside it are told by the ways to them. -/
theorem TypeDecl.visits_routes (package : Option String) (d : TypeDecl) {enclosing : Enclosing}
    {above : Route} {inBody : Bool} (stands : enclosing.Stands package above inBody) :
    List.Forall₂ (fun v r => r.getLast?.map (·.decl) = some v.decl ∧
      v.qualified? = r.qualified? package) (d.visits enclosing) (d.routes above inBody) := by
  induction d using inner_induction generalizing enclosing above inBody with
  | step d ih =>
    rw [visits_eq, routes_eq]
    refine .cons ⟨by simp, stands d⟩ ?_
    -- Visits and ways go through the same inner types, where the hypothesis applies.
    have inside := fun h stood => ih h stood (stands.inner d h)
    generalize d.inner = hops at inside
    induction hops with
    | nil => exact .nil
    | cons h rest more =>
      rw [List.forall_mem_cons] at inside
      exact List.rel_append inside.1 (more inside.2)

end TypeGraph
