import TypeGraph.Extract
import TypeGraph.Proofs.Declaration.Reached
import TypeGraph.Proofs.Declaration.Routes
import TypeGraph.Proofs.Java.Search

/-! Every type declaration of a source file is met once on the walk, in the order of the text. -/

namespace TypeGraph

open Java

/-- The types that stand directly in a member are those that it holds. -/
theorem Member.inner_decls (m : Member) : m.inner.map (·.decl) = m.gist.types := by
  -- A member holds its type or the types of its body.
  cases m <;> simp [inner, gist, Body.types, Function.comp_def]

/-- The types that stand directly in a type are those that its members hold. -/
theorem TypeDecl.inner_decls (d : TypeDecl) : d.inner.map (·.decl) = (gistAll d.members).types := by
  -- The members hold their types in turn.
  unfold inner
  induction d.members with
  | nil => rfl
  | cons m rest ih =>
    rw [List.flatMap_cons, List.map_append, m.inner_decls, ih]
    rfl

/-- A declared type is of the kind of its declaration. -/
theorem kind_of_declared {t : Java.Tree} {d : TypeDecl} (declared : declared? t = some d) :
    t.kind? = some d.kind := by
  -- Only a phrase declares a type, and its rule tells the kind.
  cases t with
  | leaf => cases declared
  | node field rule parts =>
    simp only [declared?] at declared
    split at declared
    · -- The rule gives the kind, and the declaration only adds a name.
      rename_i kind known
      obtain ⟨name, -, rfl⟩ := Option.map_eq_some_iff.mp declared
      exact known
    · cases declared

/-- Only type declarations declare types. -/
theorem declares_of_declared {t : Java.Tree} {d : TypeDecl} (declared : declared? t = some d) :
    t.kind?.isSome := by
  simp [kind_of_declared declared]

/-- What is of no kind of type declares none. -/
theorem declared?_eq_none {t : Java.Tree} (other : t.kind? = none) : declared? t = none := by
  refine Option.eq_none_iff_forall_ne_some.mpr fun d declared => ?_
  cases (kind_of_declared declared).symm.trans other

/-- The members of a declared type are what stands in the declaration. -/
theorem shows_declaration {t : Java.Tree} {d : TypeDecl} (derived : Derived t)
    (declared : declared? t = some d) : Shows (gistAll d.members) (spots .declaration t) := by
  -- The members are lowered from the body, and what is lowered is what stands there.
  cases t with
  | leaf => cases declared
  | node field rule parts =>
    obtain ⟨d', declared', members⟩ := exists_declared derived (declares_of_declared declared)
    obtain rfl : d = d' := Option.some.inj (declared.symm.trans declared')
    rw [members]
    have inner := fun part member => (derived.inner part member).lowered
    exact (shows_membersOfBody inner).idle (by simp) (by simp)

/-- The types directly in a tree that shows some content are those of the content. -/
theorem Shows.typesIn {b : Body} {s : Standing} {t : Java.Tree} (shows : Shows b (spots s t)) :
    List.Forall₂ (fun d (p : Place) => declared? p.2 = some d) b.types (typesIn s t) := by
  -- The types directly in the tree are its spots of that standing.
  rw [TypeGraph.typesIn, List.forall₂_map_right_iff]
  exact shows.types

/-- Whether a visit is to the type that is declared at some place. -/
def Visit.At (v : Visit) (p : Place) : Prop := declared? p.2 = some v.decl

/-- The visits to a type and to those inside it are to the declarations reached from it. -/
theorem TypeDecl.visits_declarations {t : Java.Tree} {d : TypeDecl} (derived : Derived t)
    (declared : declared? t = some d) (w : Way) (enclosing : Enclosing) :
    List.Forall₂ Visit.At (d.visits enclosing) (declarations w t) := by
  -- Both go on to the types directly inside, which correspond one for one.
  induction t using typesIn_induction generalizing d w enclosing with
  | step t ih =>
    rw [visits_eq, declarations_eq]
    refine .cons declared ?_
    have types : List.Forall₂ (fun (h : Hop) (p : Place) => declared? p.2 = some h.decl) d.inner
        (typesIn .declaration t) := by
      have shown := (shows_declaration derived declared).typesIn
      rwa [← d.inner_decls, List.forall₂_map_left_iff] at shown
    refine List.rel_flatMap (forall₂_mem_right types) ?_
    rintro h p ⟨member, told⟩
    exact ih p member ((mem_typesIn.mp member).derived derived) told _ _

/-- A type declaration at the top of a file is derived. -/
theorem Java.Tree.Sound.derived_part {tree part : Java.Tree} (sound : tree.Sound)
    (member : part ∈ tree.parts) (declares : part.kind?.isSome) : Derived part := by
  -- A declaration is neither the end of the text nor a whole one.
  cases part with
  | leaf => cases declares
  | node field rule parts =>
    refine sound.parts _ member (by simp [Java.Tree.label]) fun whole => ?_
    obtain rfl : rule = .program := by simpa [Java.Tree.isRule, Java.Tree.label] using whole
    cases declares

/-- A type directly in a file is derived. -/
theorem Java.Tree.Sound.derived {tree inner : Java.Tree} (sound : tree.Sound) {w : Way}
    (stands : Stands .file tree w .type inner) : Derived inner := by
  -- The first step leads to a part of the file, and the rest stays in derived trees.
  cases stands with
  | part found entered later =>
    simp only [Standing.enter] at entered
    split at entered
    · rename_i declares
      exact later.derived (sound.derived_part (List.mem_of_getElem? found) declares)
    · cases entered

/-- The types declared by some parts are those that stand there. -/
theorem shows_declared {parts : List Java.Tree}
    (derived : ∀ part ∈ parts, part.kind?.isSome → Derived part) (i : Nat) :
    Shows (.mk [] (parts.filterMap declared?))
      (spotsAmong (fun _ part => if part.kind?.isSome then some .type else none) i parts) := by
  -- A part that declares a type is one spot, and any other part has none.
  induction parts generalizing i with
  | nil => exact .empty
  | cons part rest ih =>
    obtain ⟨here, later⟩ := List.forall_mem_cons.mp derived
    have others := ih later (i + 1)
    rw [spotsAmong]
    split
    · rename_i s entered
      split at entered
      · rename_i declares
        obtain rfl : Standing.type = s := Option.some.inj entered
        obtain ⟨d, declared, -⟩ := exists_declared (here declares) declares
        have type : Shows (.mk [] [d]) (spots .type part) := by
          rw [spots_type]
          exact ⟨by simpa [Body.types] using declared, by simp [Body.calls]⟩
        rw [List.filterMap_cons_some declared]
        exact (type.under i).append others
      · cases entered
    · rename_i outside
      have undeclared : declared? part = none := declared?_eq_none (by simpa using outside)
      rw [List.filterMap_cons_none undeclared]
      exact others

/-- The types at the top of a file are those directly in the file. -/
theorem types_typesIn (path : String) {tree : Java.Tree} (sound : tree.Sound) :
    List.Forall₂ (fun d (p : Place) => declared? p.2 = some d)
      (CompilationUnit.ofTree path tree).types (typesIn .file tree) := by
  -- The declarations among the parts of the root are the types of the file.
  have shows := shows_declared (fun part member => sound.derived_part member) 0
  cases tree with
  | leaf => exact .nil
  | node field rule parts =>
    have whole : Shows _ (spots .file (.node field rule parts)) := shows.idle (by simp) (by simp)
    exact whole.typesIn

/-- The visits to the types of a file are to the declarations reached from the file. -/
theorem CompilationUnit.visits_reached (path : String) {tree : Java.Tree} (sound : tree.Sound) :
    List.Forall₂ Visit.At (CompilationUnit.ofTree path tree).visits (reached .file tree) := by
  rw [visits, TypeDecl.visitsAll_eq, reached]
  -- Below each type of the file its declarations are those that are visited from it.
  refine List.rel_flatMap (forall₂_mem_right (types_typesIn path sound)) ?_
  rintro d p ⟨member, declared⟩
  exact TypeDecl.visits_declarations (sound.derived (mem_typesIn.mp member)) declared _ _

/-- Whether a tree starts before another one in the text. -/
def Java.Tree.StartsBefore (t t' : Java.Tree) : Prop :=
  ∃ x y, t.first? = some x ∧ t'.first? = some y ∧ x.start.offset < y.start.offset

/-- What is reached from a file is derived. -/
theorem Java.Tree.Sound.derived_reached {tree far : Java.Tree} (sound : tree.Sound) {w : Way}
    (reaches : ReachesType .file tree w far) : Derived far := by
  cases reaches with
  | here stands => exact sound.derived stands
  | inside stands later => exact later.derived (sound.derived stands)

/-- The first lexemes of the declarations reached from a file are in the order of the text. -/
theorem Java.Tree.Sound.firsts_sublist {tree : Java.Tree} (sound : tree.Sound) :
    (((reached .file tree).map (·.2)).filterMap Java.Tree.first?).Sublist tree.lexemes := by
  -- The declarations of each type directly in the file come in the order of its lexemes.
  have trees : ((reached .file tree).map (·.2)).filterMap Java.Tree.first? =
      ((spots .file tree).filter fun x => x.standing = .type).flatMap fun x => firsts x.tree := by
    rw [reached, typesIn, List.flatMap_map, List.map_flatMap, List.filterMap_flatMap]
    simp only [declarations_trees, firsts]
  rw [trees]
  refine sublist_spots filter_spots_type fun x member type => ?_
  have stands : Stands .file tree x.way .type x.tree := type ▸ mem_spots.mp member
  exact TypeGraph.firsts_sublist (sound.derived stands) (stands.declares (by simp))

/-- The declarations reached from a file start one behind the other. -/
theorem Java.Tree.Sound.startsBefore {tree : Java.Tree} (sound : tree.Sound) :
    (reached .file tree).Pairwise fun p q => p.2.StartsBefore q.2 := by
  -- The first lexemes are in order, and none of them is empty, so the starts grow.
  have derived : ∀ p ∈ reached .file tree, Derived p.2 := fun p member =>
    sound.derived_reached (mem_reached.mp member)
  have ordered := sound.ordered.sublist sound.firsts_sublist
  rw [List.filterMap_map, List.pairwise_filterMap] at ordered
  refine ordered.imp_of_mem fun {p q} member later before => ?_
  obtain ⟨x, first⟩ := (derived p member).first
  obtain ⟨y, first'⟩ := (derived q later).first
  have nonempty : x.text ≠ [] := (derived p member).text_ne_nil x
    (List.mem_of_head? (by rw [← Java.Tree.first?_eq_head?]; exact first))
  exact ⟨x, y, first, first', (before x first y first').start_lt nonempty⟩

/-- Whether records are made of the types that a tree declares: classes and interfaces. -/
def Java.Tree.isRecorded (t : Java.Tree) : Bool :=
  t.kind? = some .classType || t.kind? = some .interfaceType

/-- Whether a type met on a walk is recorded. -/
def Visit.isRecorded (v : Visit) : Bool :=
  v.decl.kind == .classType || v.decl.kind == .interfaceType

/-- A visit to a type makes a record if and only if the type is a class or an interface. -/
theorem Visit.isSome_record? (s : Settings) (scope : Scope) (v : Visit) :
    (v.record? s scope).isSome = v.isRecorded := by
  -- The kind of the type decides on its own.
  unfold record? isRecorded
  cases v.decl.kind <;> rfl

/-- A visit to a declaration makes a record if and only if it declares a class or an interface. -/
theorem Visit.At.isSome_record? {v : Visit} {p : Place} (here : v.At p) (s : Settings)
    (scope : Scope) : (v.record? s scope).isSome = p.2.isRecorded := by
  -- The type is of the kind of its declaration.
  rw [v.isSome_record?, isRecorded, Java.Tree.isRecorded, kind_of_declared here]
  cases v.decl.kind <;> rfl

/-- Of what is related one by one, what a function makes is related to what it makes it for. -/
theorem forall₂_filterMap {α β γ : Type} {related : α → β → Prop} {f : α → Option γ}
    {q : β → Bool} {xs : List α} {ys : List β} (holds : List.Forall₂ related xs ys)
    (agree : ∀ x y, related x y → (f x).isSome = q y) :
    List.Forall₂ (fun c y => ∃ x, related x y ∧ f x = some c) (xs.filterMap f)
      (ys.filter q) := by
  -- A pair is kept on both sides or on neither.
  induction holds with
  | nil => exact .nil
  | @cons x y xs ys here _ ih =>
    have same := agree x y here
    cases made : f x with
    | none => rwa [List.filterMap_cons_none made, List.filter_cons_of_neg (by simp [← same, made])]
    | some c =>
      rw [List.filterMap_cons_some made, List.filter_cons_of_pos (by simp [← same, made])]
      exact .cons ⟨x, here, made⟩ ih

/-- A result of which something is known is there. -/
theorem exists_ok {ε α : Type} {result : Except ε α} {P : α → Prop} [DecidablePred P]
    (known : result.toOption.any fun a => P a) : ∃ a, result = .ok a ∧ P a := by
  -- A fault would have left nothing to know.
  cases result with
  | error => cases known
  | ok a => exact ⟨a, rfl, of_decide_eq_true known⟩

/-- A class with a local class between two calls in an initializer. -/
def localClass : List Char := "class A{{f();class B{{g();}}new B();}}".toList

set_option maxRecDepth 100000 in
/-- The sample is read, and its two classes are visited with the calls of their own. -/
theorem read_localClass : ∃ tree, read localClass = .ok tree ∧
    (CompilationUnit.ofTree "A.java" tree).visits.map (·.decl.name) = ["A", "B"] ∧
    (CompilationUnit.ofTree "A.java" tree).visits.map
        (fun v => v.decl.bodies.flatMap Body.calls) =
      [[.invocation none "f", .creation "B"], [.invocation none "g"]] := by
  -- The text is read once, and all that is asked about it is evaluated together.
  refine exists_ok ?_
  decide +kernel

/-- The declarations reached from the file that a text is read into are each visited once, in the
order in which they start in the text, and of the classes and interfaces among them one record
each is made in that order. -/
theorem CompilationUnit.visits_in_source_order (path : String) (s : Settings) {text : List Char}
    {tree : Java.Tree} (accepted : read text = .ok tree) :
    let u := ofTree path tree
    ∃ places : List Place,
      (∀ w t, (w, t) ∈ places ↔ ReachesType .file tree w t) ∧
      (places.Pairwise fun p q => p.2.StartsBefore q.2) ∧
      List.Forall₂ Visit.At u.visits places ∧
      List.Forall₂ (fun r p => ∃ v ∈ u.visits, v.At p ∧ v.record? s (.ofUnit u) = some r)
        (u.records s) (places.filter fun p => p.2.isRecorded) := by
  -- The declarations that are reached are listed outer ones first, as the walk visits them.
  intro u
  have sound := sound_of_read accepted
  have visits : List.Forall₂ Visit.At u.visits (reached .file tree) := visits_reached path sound
  refine ⟨reached .file tree, fun w t => mem_reached, sound.startsBefore, visits, ?_⟩
  -- Records are made of the visits one by one, and only the kind of a type decides.
  have known := (List.forall₂_and_left u.visits _).mpr ⟨fun v member => member, visits⟩
  have records := forall₂_filterMap known fun v p here => here.2.isSome_record? s (.ofUnit u)
  refine records.imp fun r p made => ?_
  obtain ⟨v, ⟨member, here⟩, record⟩ := made
  exact ⟨v, member, here, record⟩

/-- The outer class of the sample is visited before the local one, and a record is made of each. -/
theorem CompilationUnit.visits_in_source_order_localClass :
    ∃ tree, read localClass = .ok tree ∧
      (ofTree "A.java" tree).visits.map (·.decl.name) = ["A", "B"] ∧
      ∃ places : List Place,
        (∀ w t, (w, t) ∈ places ↔ ReachesType .file tree w t) ∧
        (places.Pairwise fun p q => p.2.StartsBefore q.2) ∧
        List.Forall₂ Visit.At (ofTree "A.java" tree).visits places ∧
        List.Forall₂ (fun r p => ∃ v ∈ (ofTree "A.java" tree).visits,
            v.At p ∧ v.record? {} (.ofUnit (ofTree "A.java" tree)) = some r)
          ((ofTree "A.java" tree).records {}) (places.filter fun p => p.2.isRecorded) := by
  obtain ⟨tree, accepted, names, -⟩ := read_localClass
  exact ⟨tree, accepted, names, visits_in_source_order "A.java" {} accepted⟩

end TypeGraph
