import TypeGraph.Proofs.Declaration.Routes

/-! Source files with a gap where one type is left out, and the walk past that gap. -/

namespace TypeGraph

/-- A member with executable content, without that content. -/
inductive Shell where
  | method (name : String) (span : Span)
  | field (type : Option String) (names : List String)
  | construction
  | initializer

/-- The member with some content in it. -/
def Shell.around : Shell → Body → Member
  | method name span, body => .method name span body
  | field type names, body => .field type names body
  | construction, body => .construction body
  | initializer, body => .initializer body

/-- A place for a type in a member of another. -/
inductive Site where
  /-- The type is the member itself. -/
  | whole
  /-- The type stands in the content of the member, among its calls and other types. -/
  | content (shell : Shell) (calls : List Call) (before after : List TypeDecl)

namespace Site

/-- The member with a type in the place. -/
def fill : Site → TypeDecl → Member
  | whole, d => .type d
  | content shell calls before after, d => shell.around (.mk calls (before ++ d :: after))

/-- Whether the place is in executable content. -/
def inBody : Site → Bool
  | whole => false
  | content _ _ _ _ => true

/-- The types before the place that stand directly in the same member. -/
def before : Site → List Hop
  | whole => []
  | content _ _ before _ => before.map (⟨·, true⟩)

/-- The types after the place that stand directly in the same member. -/
def after : Site → List Hop
  | whole => []
  | content _ _ _ after => after.map (⟨·, true⟩)

/-- The type in the place stands between those before and those after it. -/
theorem inner_fill (site : Site) (d : TypeDecl) :
    (site.fill d).inner = site.before ++ ⟨d, site.inBody⟩ :: site.after := by
  cases site with
  | whole => rfl
  | content shell calls before after =>
    cases shell <;>
      simp [fill, Shell.around, Member.inner, Body.types, Site.before, Site.after, inBody]

end Site

/-- Every type directly in a member stands in a place there. -/
theorem Member.exists_site {m : Member} {before after : List Hop} {h : Hop}
    (split : m.inner = before ++ h :: after) :
    ∃ site : Site, site.fill h.decl = m ∧ site.inBody = h.inBody ∧ site.before = before := by
  have inside (shell : Shell) (body : Body) (whole : shell.around body = m)
      (types : body.types.map (⟨·, true⟩) = before ++ h :: after) :
      ∃ site : Site, site.fill h.decl = m ∧ site.inBody = h.inBody ∧ site.before = before := by
    -- The types of the body are cut where the type in question stands.
    obtain ⟨calls, types'⟩ := body
    obtain ⟨earlier, rest, cut, rfl, same⟩ := List.map_eq_append_iff.mp types
    obtain ⟨d, later, rfl, rfl, -⟩ := List.map_eq_cons_iff.mp same
    have cut : types' = earlier ++ d :: later := cut
    refine ⟨.content shell calls earlier later, ?_, rfl, rfl⟩
    rw [← whole, cut]
    rfl
  cases m with
  | type d =>
    -- There is no other type directly in this member.
    obtain ⟨rfl, rfl, rfl⟩ : before = [] ∧ h = ⟨d, false⟩ ∧ after = [] := by
      cases before <;> simp_all [inner]
    exact ⟨.whole, rfl, rfl, rfl⟩
  | method name span body => exact inside (.method name span) body rfl split
  | field type names body => exact inside (.field type names) body rfl split
  | construction body => exact inside .construction body rfl split
  | initializer body => exact inside .initializer body rfl split

/-- A type in which there is a place for another. -/
structure Layer where
  kind : TypeKind
  name : String
  extended : List String
  implemented : List String
  /-- The members before the one with the place in it. -/
  before : List Member
  site : Site
  after : List Member

namespace Layer

/-- The type with another in the place. -/
def fill (l : Layer) (d : TypeDecl) : TypeDecl :=
  .mk l.kind l.name l.extended l.implemented (l.before ++ l.site.fill d :: l.after)

/-- The types before the place that stand directly in the same type. -/
def innerBefore (l : Layer) : List Hop := l.before.flatMap Member.inner ++ l.site.before

/-- The types after the place that stand directly in the same type. -/
def innerAfter (l : Layer) : List Hop := l.site.after ++ l.after.flatMap Member.inner

/-- What encloses a type in the place. -/
def enclosing (l : Layer) (e : Enclosing) : Enclosing :=
  if l.site.inBody then .body else .type (e.qualify l.name)

/-- The type in the place stands between those before and those after it. -/
theorem inner_fill (l : Layer) (d : TypeDecl) :
    (l.fill d).inner = l.innerBefore ++ ⟨d, l.site.inBody⟩ :: l.innerAfter := by
  simp [fill, TypeDecl.inner, TypeDecl.members, Site.inner_fill, innerBefore, innerAfter]

/-- A type with others in places one inside the other, from the outermost to the innermost. -/
def fillAll (d : TypeDecl) : List Layer → TypeDecl
  | [] => d
  | l :: rest => l.fill (fillAll d rest)

/-- What encloses a type in the innermost place. -/
def enclosingAll (e : Enclosing) : List Layer → Enclosing
  | [] => e
  | l :: rest => enclosingAll (l.enclosing e) rest

/-- The visits before a type in the innermost place; each type around it is among them. -/
def visitsBefore (d : TypeDecl) (e : Enclosing) : List Layer → List Visit
  | [] => []
  | l :: rest => ⟨l.fill (fillAll d rest), e⟩ ::
      l.innerBefore.flatMap (fun h => h.decl.visits (h.enclosing (e.qualify l.name))) ++
      visitsBefore d (l.enclosing e) rest

/-- The visits after a type in the innermost place and all types inside it. -/
def visitsAfter (e : Enclosing) : List Layer → List Visit
  | [] => []
  | l :: rest => visitsAfter (l.enclosing e) rest ++
      l.innerAfter.flatMap fun h => h.decl.visits (h.enclosing (e.qualify l.name))

/-- A walk through a type comes to the places inside it and goes on behind them. -/
theorem visits_fillAll (d : TypeDecl) (e : Enclosing) (layers : List Layer) :
    (fillAll d layers).visits e = visitsBefore d e layers ++ d.visits (enclosingAll e layers) ++
      visitsAfter e layers := by
  induction layers generalizing e with
  | nil => simp [fillAll, enclosingAll, visitsBefore, visitsAfter]
  | cons l rest ih =>
    -- The outermost type is visited, then what is in it, and the rest of the places among that.
    have named : (l.fill (fillAll d rest)).name = l.name := rfl
    have place : Hop.enclosing ⟨fillAll d rest, l.site.inBody⟩ (e.qualify l.name) =
        l.enclosing e := rfl
    simp only [fillAll, enclosingAll, visitsBefore, visitsAfter]
    rw [TypeDecl.visits_eq, inner_fill, List.flatMap_append, List.flatMap_cons, named, place, ih]
    simp

end Layer

/-- Where several lists in a row have an entry, one of them has it. -/
theorem flatMap_split {α β : Type} {f : α → List β} {all : List α} {before after : List β} {b : β}
    (split : all.flatMap f = before ++ b :: after) :
    ∃ earlier a later first last, all = earlier ++ a :: later ∧ f a = first ++ b :: last ∧
      before = earlier.flatMap f ++ first := by
  induction all generalizing before with
  | nil => simp at split
  | cons a rest ih =>
    rw [List.flatMap_cons, List.append_eq_append_iff] at split
    rcases split with ⟨more, rfl, behind⟩ | ⟨more, here, behind⟩
    · -- The entry comes behind the whole first list.
      obtain ⟨earlier, a', later, first, last, rfl, inside, rfl⟩ := ih behind
      exact ⟨a :: earlier, a', later, first, last, rfl, inside, by simp⟩
    · cases more with
      | nil =>
        -- The entry is the first one behind the first list.
        have start : rest.flatMap f = [] ++ b :: after := behind.symm
        obtain ⟨earlier, a', later, first, last, rfl, inside, same⟩ := ih start
        refine ⟨a :: earlier, a', later, first, last, rfl, inside, ?_⟩
        rw [List.flatMap_cons, List.append_assoc, ← same, here]
        simp
      | cons b' more =>
        obtain ⟨rfl, -⟩ := List.cons.inj behind
        exact ⟨[], a, rest, before, more, rfl, here, rfl⟩

namespace TypeDecl

/-- Every type directly in another stands in a place there. -/
theorem exists_layer {d : TypeDecl} {before after : List Hop} {h : Hop}
    (split : d.inner = before ++ h :: after) :
    ∃ l : Layer, l.fill h.decl = d ∧ l.site.inBody = h.inBody ∧ l.innerBefore = before := by
  -- The type stands in one of the members.
  obtain ⟨kind, name, extended, implemented, members⟩ := d
  obtain ⟨earlier, m, later, first, last, cut, inside, rfl⟩ := flatMap_split split
  have cut : members = earlier ++ m :: later := cut
  obtain ⟨site, whole, inBody, rfl⟩ := Member.exists_site inside
  refine ⟨⟨kind, name, extended, implemented, earlier, site, later⟩, ?_, inBody, rfl⟩
  rw [cut, ← whole]
  rfl

/-- Every type that is visited in a walk through a type stands in a place there. -/
theorem exists_layers (d : TypeDecl) {e : Enclosing} {before after : List Visit} {v : Visit}
    (split : d.visits e = before ++ v :: after) :
    ∃ layers, Layer.fillAll v.decl layers = d ∧ Layer.enclosingAll e layers = v.enclosing ∧
      Layer.visitsBefore v.decl e layers = before := by
  induction d using inner_induction generalizing e before after with
  | step d ih =>
    rw [visits_eq] at split
    cases before with
    | nil =>
      -- The type itself is visited first.
      obtain ⟨rfl, -⟩ := List.cons.inj split
      exact ⟨[], rfl, rfl, rfl⟩
    | cons first before =>
      obtain ⟨rfl, behind⟩ := List.cons.inj split
      obtain ⟨earlier, h, later, inside, rest, cut, deeper, rfl⟩ := flatMap_split behind
      obtain ⟨l, rfl, inBody, rfl⟩ := exists_layer cut
      obtain ⟨layers, filled, enclosing, past⟩ := ih h (by simp [cut]) deeper
      have place : h.enclosing (e.qualify (l.fill h.decl).name) = l.enclosing e := by
        rw [Hop.enclosing, Layer.enclosing, inBody]
        rfl
      rw [place] at enclosing past
      refine ⟨l :: layers, ?_, ?_, ?_⟩
      · rw [Layer.fillAll, filled]
      · rw [Layer.enclosingAll, enclosing]
      · rw [Layer.visitsBefore, filled, past]
        rfl

end TypeDecl

/-- A source file with a gap where one type is left out. -/
structure Gap where
  path : String
  package : Option String
  imports : List Import
  /-- The types of the file before the one with the gap in it. -/
  before : List TypeDecl
  /-- The types around the gap, from the outermost to the innermost. -/
  layers : List Layer
  after : List TypeDecl

namespace Gap

variable (g : Gap)

/-- The file with a type in the gap. -/
def fill (d : TypeDecl) : CompilationUnit :=
  ⟨g.path, g.package, g.imports, g.before ++ Layer.fillAll d g.layers :: g.after⟩

/-- What encloses a type in the gap. -/
def enclosing : Enclosing := Layer.enclosingAll (.unit g.package) g.layers

/-- The visits before a type in the gap; each type around it is among them. -/
def visitsBefore (d : TypeDecl) : List Visit :=
  g.before.flatMap (TypeDecl.visits (.unit g.package)) ++
    Layer.visitsBefore d (.unit g.package) g.layers

/-- The visits after a type in the gap and all types inside it. -/
def visitsAfter : List Visit :=
  Layer.visitsAfter (.unit g.package) g.layers ++
    g.after.flatMap (TypeDecl.visits (.unit g.package))

/-- A walk through the file comes to the gap and goes on behind it. -/
theorem visits_fill (d : TypeDecl) :
    (g.fill d).visits = g.visitsBefore d ++ d.visits g.enclosing ++ g.visitsAfter := by
  -- The one type of the file that has the gap in it is walked through layer by layer.
  rw [CompilationUnit.visits, TypeDecl.visitsAll_eq, fill]
  simp [Layer.visits_fillAll, visitsBefore, visitsAfter, enclosing]

end Gap

/-- Every type that is visited in a walk through a file stands in a gap of it. -/
theorem CompilationUnit.exists_gap {u : CompilationUnit} {before after : List Visit} {v : Visit}
    (split : u.visits = before ++ v :: after) :
    ∃ g : Gap, g.fill v.decl = u ∧ g.enclosing = v.enclosing ∧ g.visitsBefore v.decl = before := by
  rw [visits, TypeDecl.visitsAll_eq] at split
  obtain ⟨path, package, imports, types⟩ := u
  obtain ⟨earlier, d, later, first, last, cut, inside, rfl⟩ := flatMap_split split
  have cut : types = earlier ++ d :: later := cut
  obtain ⟨layers, filled, enclosing, past⟩ := d.exists_layers inside
  refine ⟨⟨path, package, imports, earlier, layers, later⟩, ?_, enclosing, ?_⟩
  · rw [cut, ← filled]
    rfl
  · rw [← past]
    rfl

end TypeGraph
