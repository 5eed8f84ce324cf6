import TypeGraph.Proofs.Declaration.Fields
import TypeGraph.Proofs.Declaration.Receivers
import TypeGraph.Proofs.Declaration.TypeName

/-! Supertypes, fields and created objects have their types named as they are written. -/

namespace TypeGraph

open Java

namespace Java.Tree

mutual
/-- The types that a phrase is or lists, without those that are parts of other types. -/
def outermostTypes : Tree → List Tree
  | leaf field label x => if label ∈ anyTypes then [leaf field label x] else []
  | node field r parts =>
    if Label.rule r ∈ anyTypes then [node field r parts] else outermostTypesAmong parts
/-- The types that several phrases are or list, without those that are parts of other types. -/
def outermostTypesAmong : List Tree → List Tree
  | [] => []
  | t :: rest => outermostTypes t ++ outermostTypesAmong rest
end

theorem outermostTypesAmong_eq (parts : List Tree) :
    outermostTypesAmong parts = parts.flatMap outermostTypes := by
  induction parts with
  | nil => rfl
  | cons t rest ih => rw [outermostTypesAmong, ih, List.flatMap_cons]

/-- A type by itself is the outermost one. -/
theorem outermostTypes_of_type {t : Tree} (type : t.label ∈ anyTypes) : t.outermostTypes = [t] := by
  cases t <;> exact if_pos type

/-- The types listed in the first part of a declaration that is one of some clauses. -/
def typesListed (t : Tree) (clauses : List Label) : List Tree :=
  ((t.parts.find? fun part => part.label ∈ clauses).map outermostTypes).getD []

end Java.Tree

/-- Whether some names are those as which several types are written, in order, where some types may
have none. -/
def NameAll (types : List Tree) (names : List String) : Prop :=
  ∃ each : List (Option String), List.Forall₂ Tree.NamesOnly types each ∧
    names = each.reduceOption

/-- The clauses that list the types that a declaration extends. -/
def extendsClauses : List Label := [.rule .superclass, .rule .extendsInterfaces]

/-- The clauses that list the types that a declaration implements. -/
def implementsClauses : List Label := [.rule .superInterfaces]

/-- The rules of clauses and of the lists in them. -/
def clauseRules : List Rule := [.superclass, .superInterfaces, .extendsInterfaces, .typeList]

/-- The outermost types of a derived phrase are derived, with comments in place. -/
theorem mem_outermostTypes {t type : Tree} (derived : Derived t) (neat : t.Neat)
    (listed : type ∈ t.outermostTypes) : Derived type ∧ type.Neat ∧ type.label ∈ anyTypes := by
  -- A phrase that is no type itself may list types at any depth, so the induction goes all the way.
  induction derived with
  | @leaf field label x lexeme nonempty =>
    rw [Tree.outermostTypes] at listed
    split at listed
    · rename_i known
      obtain rfl := List.mem_singleton.mp listed
      exact ⟨.leaf lexeme nonempty, neat, known⟩
    · cases listed
  | @node field r p parts member body fills inner ih =>
    rw [Tree.outermostTypes] at listed
    split at listed
    · rename_i known
      obtain rfl := List.mem_singleton.mp listed
      exact ⟨.node member body fills inner, neat, known⟩
    · rw [Tree.outermostTypesAmong_eq] at listed
      obtain ⟨part, among, inside⟩ := List.mem_flatMap.mp listed
      exact ih part among (neat.parts part among) inside

/-- The words of a clause list no types. -/
theorem listed_of_word {part : Tree} {u : Terminal} (word : part.label = .lexeme u)
    (other : Label.lexeme u ∉ anyTypes) (unnamed : u ≠ .identifier) :
    typeName? part = none ∧ part.outermostTypes = [] := by
  cases part with
  | leaf field label x =>
    obtain rfl : label = .lexeme u := word
    exact ⟨by simp [typeName?, isPlainName, Tree.label, unnamed], if_neg other⟩
  | node => cases word

/-- A clause lists the names of its outermost types. -/
theorem listedTypes_clause {t : Tree} {r : Rule} (derived : Derived t) (clause : r ∈ clauseRules)
    (shown : t.label = .rule r) : listedTypes t = t.outermostTypes.filterMap typeName? := by
  -- A list of types is a part of other clauses, and itself a phrase of the same kind.
  induction derived generalizing r with
  | leaf lexeme => exact absurd shown (lexeme r)
  | @node field _ p parts member body fills inner ih =>
    obtain rfl := Label.rule.inj shown
    have derived : Derived (.node field _ parts) := .node member body fills inner
    have other : ∀ r ∈ clauseRules, Label.rule r ∉ anyTypes := by decide
    have closed : ∀ r ∈ clauseRules, ∀ r' ∈ [r, .anyType, .unannotatedType, .moreTypes],
        ∀ p ∈ r'.productions, ∀ slot ∈ p.body, slot.keeps
          (fun (_, label) => label.isComment || anyTypes.contains label ||
            [.rule .typeList, .lexeme .extendsWord, .lexeme .implementsWord,
              .lexeme .comma].contains label)
          [.anyType, .unannotatedType, .moreTypes] := by
      decide +kernel
    have labels := derived.forall_good _ _
      (by intro t comment; simp [Label.isComment, comment]) (closed _ clause)
    rw [listedTypes, listedTypesAmong_eq, Tree.outermostTypes, if_neg (other _ clause),
      Tree.outermostTypesAmong_eq, List.filterMap_flatMap]
    refine List.flatMap_congr fun part among => ?_
    have label := labels part among
    simp only [Bool.or_eq_true, List.contains_iff_mem, List.mem_cons, List.not_mem_nil,
      or_false] at label
    have word {u : Terminal} (word : part.label = .lexeme u) (other : Label.lexeme u ∉ anyTypes)
        (unnamed : u ≠ .identifier) :
        (if part.isRule .typeList then listedTypes part else (typeName? part).toList) =
          part.outermostTypes.filterMap typeName? := by
      obtain ⟨none, nothing⟩ := listed_of_word word other unnamed
      simp [Tree.isRule, word, none, nothing]
    rcases label with (comment | type) | list | first | first | comma
    · obtain ⟨_, u, x, rfl, isComment⟩ := exists_of_isComment comment
      have others : ∀ label ∈ anyTypes, label.isComment = false := by decide
      refine word rfl (fun type => ?_) (by rintro rfl; cases isComment)
      exact Bool.false_ne_true ((others _ type).symm.trans isComment)
    · have single : part.isRule .typeList = false := by
        have others : ∀ label ∈ anyTypes, label ≠ .rule .typeList := by decide
        simp [Tree.isRule, others _ type]
      rw [if_neg (by simp [single]), Tree.outermostTypes_of_type type]
      cases named : typeName? part <;> simp [named]
    · rw [if_pos (by simp [Tree.isRule, list])]
      exact ih part among (by simp [clauseRules]) list
    · exact word first (by decide) (by simp)
    · exact word first (by decide) (by simp)
    · exact word comma (by decide) (by simp)

/-- What is made of the members of a list, where something is, in two steps. -/
theorem filterMap_eq_reduceOption {α β : Type} (f : α → Option β) (xs : List α) :
    xs.filterMap f = (xs.map f).reduceOption := by
  change _ = (xs.map f).filterMap id
  rw [List.filterMap_map, Function.id_comp]

/-- Derived types are named as they are written. -/
theorem nameAll_typeName? {types : List Tree}
    (derived : ∀ t ∈ types, Derived t ∧ t.Neat ∧ t.label ∈ anyTypes) :
    NameAll types (types.filterMap typeName?) := by
  refine ⟨types.map typeName?, ?_, filterMap_eq_reduceOption typeName? types⟩
  rw [List.forall₂_map_right_iff, List.forall₂_same]
  intro t member
  obtain ⟨derived, neat, type⟩ := derived t member
  exact (names_typeName? derived neat type).only

/-- A clause of a declaration lists the names of its types. -/
theorem nameAll_typesListed {t : Tree} {clauses : List Label}
    (derived : ∀ part ∈ t.parts, Derived part) (neat : t.Neat)
    (known : ∀ label ∈ clauses, ∃ r ∈ clauseRules, label = .rule r) :
    NameAll (t.typesListed clauses)
      (((t.parts.find? fun part => part.label ∈ clauses).map listedTypes).getD []) := by
  rw [Tree.typesListed]
  cases found : t.parts.find? fun part => part.label ∈ clauses with
  | none => exact ⟨[], .nil, rfl⟩
  | some clause =>
    have among := List.mem_of_find?_eq_some found
    have listed : clause.label ∈ clauses := by simpa using List.find?_some found
    obtain ⟨r, rule, shown⟩ := known _ listed
    have names := listedTypes_clause (derived clause among) rule shown
    rw [Option.map_some, Option.map_some, Option.getD_some, Option.getD_some, names]
    exact nameAll_typeName? fun type member =>
      mem_outermostTypes (derived clause among) (neat.parts clause among) member

section

variable {field : Option Field} {r : Rule} {parts : List Tree}
  (derived : Derived (.node field r parts))
include derived

/-- If the slots of a rule are wanted just where they are for some clauses, the same part of a
phrase is found by either. -/
theorem find?_clause {clauses : List Label} (wanted : Option Field × Label → Bool)
    (comments : ∀ t : Terminal, t.isComment →
      wanted (none, .lexeme t) = decide (Label.lexeme t ∈ clauses))
    (slots : ∀ p ∈ r.productions, ∀ slot ∈ p.body,
      slot.keeps (fun mark => wanted mark = decide (mark.2 ∈ clauses)) []) :
    parts.find? (fun part => wanted (part.field, part.label)) =
      parts.find? fun part => part.label ∈ clauses := by
  have same := derived.forall_good (fun mark => wanted mark = decide (mark.2 ∈ clauses)) []
    (by simpa using comments) (by simpa using slots)
  rw [← List.head?_filter, List.filter_congr fun part among => by simpa using same part among,
    List.head?_filter]

variable {kind : TypeKind} (known : TypeKind.ofRule? r = some kind)
include known

/-- The types that a declaration extends are listed in the clause for them. -/
theorem extendedTypes_eq : extendedTypes kind parts =
    ((parts.find? fun part => part.label ∈ extendsClauses).map listedTypes).getD [] := by
  -- A superclass is known by a field and the clause of an interface by its rule, and other types
  -- have neither.
  unfold TypeKind.ofRule? at known
  split at known <;> cases known
  · rw [← find?_clause derived (fun mark => mark.1 = some .superclass) (by simp [extendsClauses])
      (by decide +kernel)]
    rfl
  · rw [← find?_clause derived (fun mark => mark.2 = .rule .extendsInterfaces)
      (by simp [extendsClauses]) (by decide +kernel)]
    rfl
  all_goals
    rw [← find?_clause derived (fun _ => false) (by simp [extendsClauses]) (by decide +kernel),
      List.find?_eq_none.mpr (by simp)]
    rfl

/-- The types that a declaration implements are listed in the clause for them. -/
theorem implementedTypes_eq : clauseTypes parts .interfaces =
    ((parts.find? fun part => part.label ∈ implementsClauses).map listedTypes).getD [] := by
  unfold TypeKind.ofRule? at known
  split at known <;> cases known
  all_goals
    rw [← find?_clause derived (fun mark => mark.1 = some .interfaces)
      (by simp [implementsClauses]) (by decide +kernel)]
    rfl

end

/-- The type in a derived field declaration is a type. -/
theorem exists_fieldType {t : Tree} (derived : Derived t) (neat : t.Neat) (declares : t.isField) :
    ∃ type, t.part? .type = some type ∧ type.label ∈ anyTypes := by
  have gives : ∀ r ∈ [Rule.fieldDeclaration, .constantDeclaration], r.gives 2 (some .type) := by
    decide +kernel
  -- No other part of such a declaration, nor of the hidden rules in it, is known as a type.
  have closed : ∀ r ∈ [Rule.fieldDeclaration, .constantDeclaration],
      ∀ h ∈ [(none, r), (some .type, .unannotatedType), (none, .variableDeclaratorList),
        (none, .moreDeclarators)], ∀ p ∈ h.2.productions, ∀ slot ∈ p.body,
        slot.keepsUnder (fun (field, label) => field ≠ some .type || anyTypes.contains label)
          [(some .type, .unannotatedType), (none, .variableDeclaratorList),
            (none, .moreDeclarators)] h.1 := by
    decide +kernel
  cases t with
  | leaf =>
    cases derived with
    | leaf lexeme =>
      simp [Java.Tree.isField, Java.Tree.isRule, Java.Tree.label, lexeme] at declares
  | node field r parts =>
    have rule : r ∈ [Rule.fieldDeclaration, .constantDeclaration] := by
      simpa [Java.Tree.isField, Java.Tree.isRule, Java.Tree.label] using declares
    obtain ⟨part, among, known⟩ := derived.exists_field (gives r rule)
    have found : (parts.find? fun part => part.field = some .type).isSome := by
      simpa using ⟨part, among, known⟩
    obtain ⟨type, first⟩ := Option.isSome_iff_exists.mp found
    have among := List.mem_of_find?_eq_some first
    have known : type.field = some .type := by simpa using List.find?_some first
    have label := derived.uncommented_good neat.parts _ _ (closed r rule) type among
      ((neat.parts type among).isComment_of_field known)
    exact ⟨type, first, by simpa [known] using label⟩

/-- The parts of a declaration itself with some standing that are wanted, outer ones first. -/
def placesIn (s : Standing) (wanted : Tree → Bool) (t : Tree) : List Place :=
  ((spots .declaration t).filter fun x => x.standing = s && wanted x.tree).map fun x =>
    (x.way, x.tree)

theorem mem_placesIn {s : Standing} {wanted : Tree → Bool} {t u : Tree} {w : Way} :
    (w, u) ∈ placesIn s wanted t ↔ Stands .declaration t w s u ∧ wanted u := by
  simp only [placesIn, List.mem_map, List.mem_filter, Bool.and_eq_true, decide_eq_true_eq,
    Prod.mk.injEq]
  constructor
  · rintro ⟨x, ⟨member, standing, isWanted⟩, rfl, rfl⟩
    exact ⟨standing ▸ mem_spots.mp member, isWanted⟩
  · rintro ⟨stands, isWanted⟩
    exact ⟨⟨w, s, u⟩, ⟨mem_spots.mpr stands, rfl, isWanted⟩, rfl, rfl⟩

theorem pairwise_placesIn (s : Standing) (wanted : Tree → Bool) (t : Tree) :
    (placesIn s wanted t).Pairwise fun p q => p.1 < q.1 :=
  List.pairwise_map.mpr ((pairwise_spots .declaration t).filter _)

/-- What stands in a tree with comments in place has them in place. -/
theorem Stands.neat {s last : Standing} {t far : Tree} {w : Way}
    (stands : Stands s t w last far) (neat : t.Neat) : far.Neat := by
  induction stands with
  | here => exact neat
  | part found _ _ ih => exact ih (neat.parts _ (List.mem_of_getElem? found))

/-- What is reached from a tree with comments in place has them in place. -/
theorem ReachesType.neat {s : Standing} {t far : Tree} {w : Way}
    (reaches : ReachesType s t w far) (neat : t.Neat) : far.Neat := by
  induction reaches with
  | here stands => exact stands.neat neat
  | inside stands _ ih => exact ih (stands.neat neat)

/-- The type of which a call creates an object. -/
def Call.created? : Call → Option String
  | .creation type => some type
  | .invocation _ _ => none

/-- Whether the type in a declaration or creation is written with some name or none. -/
def Java.Tree.HasTypeNamed (t : Tree) (name : Option String) : Prop :=
  ∃ type, t.part? .type = some type ∧ type.NamesOnly name

/-- Whether the types that a type names are named as they are written in a declaration: those that
it extends and implements, those of its fields and those of the objects that it creates itself. -/
structure TypeDecl.NamesTypesOf (d : TypeDecl) (t : Tree) : Prop where
  extended : NameAll (t.typesListed extendsClauses) d.extended
  implemented : NameAll (t.typesListed implementsClauses) d.implemented
  fields : ∃ places : List Place,
    (∀ w f, (w, f) ∈ places ↔ Stands .declaration t w .code f ∧ f.isField) ∧
    (places.Pairwise fun p q => p.1 < q.1) ∧
    List.Forall₂ (fun f (p : Place) => p.2.HasTypeNamed f.1) d.fields places
  /-- Objects are also created of primitive types, which have no names to list. -/
  created : ∃ places : List Place,
    (∀ w c, (w, c) ∈ places ↔
      Stands .declaration t w .content c ∧ c.isRule .objectCreationExpression) ∧
    (places.Pairwise fun p q => p.1 < q.1) ∧
    ∃ each : List (Option String),
      List.Forall₂ (fun name (p : Place) => p.2.HasTypeNamed name) each places ∧
      (d.bodies.flatMap Body.calls).filterMap Call.created? = each.reduceOption

/-- The type in a phrase is written with the name that it has. -/
theorem hasTypeNamed {t type : Tree} (derived : Derived t) (neat : t.Neat)
    (found : t.part? .type = some type) (known : type.label ∈ anyTypes) :
    t.HasTypeNamed ((t.part? .type).bind typeName?) := by
  have among := List.mem_of_find?_eq_some found
  have names := names_typeName? (derived.parts type among) (neat.parts type among) known
  rw [found, Option.bind_some]
  exact ⟨type, found, names.only⟩

/-- The types of which calls create objects are those of the creations among them. -/
theorem created_call {t : Tree} (derived : Derived t) :
    (if t.isCall then t.call?.bind Call.created? else none) =
      if t.isRule .objectCreationExpression then (t.part? .type).bind typeName? else none := by
  have made := isSome_call? derived
  cases t with
  | leaf field label =>
    cases derived with
    | leaf lexeme => simp [Tree.isCall, Tree.isRule, Tree.label, lexeme]
  | node field r parts =>
    by_cases creates : r = .objectCreationExpression
    · -- A creation makes a call if its type has a name.
      subst creates
      rw [← made, Tree.call?, callOf?]
      simp only [Tree.isRule, Tree.label, Tree.part?, Tree.parts]
      cases (parts.find? fun part => part.field = some .type).bind typeName? <;> rfl
    · have other : (callOf? r parts).bind Call.created? = none := by
        unfold callOf?
        split
        · rw [Option.bind_map]
          cases textOf? parts .name <;> rfl
        · exact absurd rfl creates
        · rfl
      simp [Tree.call?, other, Tree.isRule, Tree.label, creates]

section

variable {t : Tree} {d : TypeDecl} (derived : Derived t) (neat : t.Neat)
  (declared : declared? t = some d)
include derived neat declared

/-- Fields are of the types that their declarations name. -/
theorem names_fields : List.Forall₂ (fun f (p : Place) => p.2.HasTypeNamed f.1) d.fields
    (placesIn .code Java.Tree.isField t) := by
  have fields := fieldsAt_declaration derived neat declared
  rw [d.fields_eq, placesIn, List.forall₂_map_right_iff]
  refine (forall₂_mem_right fields).imp ?_
  rintro f x ⟨member, type⟩
  obtain ⟨member, isField⟩ := List.mem_filter.mp member
  have stands := mem_spots.mp member
  have declares : x.tree.isField := by
    simp only [MemberKind.isAt, MemberKind.field, Bool.and_eq_true] at isField
    exact isField.2
  obtain ⟨written, found, known⟩ :=
    exists_fieldType (stands.derived derived) (stands.neat neat) declares
  rw [type]
  exact hasTypeNamed (stands.derived derived) (stands.neat neat) found known

/-- The objects that a type creates are of the types that its creations name. -/
theorem names_created : ∃ each : List (Option String),
    List.Forall₂ (fun name (p : Place) => p.2.HasTypeNamed name) each
      (placesIn .content (·.isRule .objectCreationExpression) t) ∧
    (d.bodies.flatMap Body.calls).filterMap Call.created? = each.reduceOption := by
  refine ⟨(placesIn .content (·.isRule .objectCreationExpression) t).map fun p =>
    (p.2.part? .type).bind typeName?, ?_, ?_⟩
  · rw [List.forall₂_map_left_iff, List.forall₂_same]
    rintro ⟨w, c⟩ member
    obtain ⟨stands, creates⟩ := mem_placesIn.mp member
    have derivedC := stands.derived derived
    cases c with
    | leaf =>
      cases derivedC with
      | leaf lexeme => simp [Tree.isRule, Tree.label, lexeme] at creates
    | node field r parts =>
      obtain rfl : r = .objectCreationExpression := by
        simpa [Tree.isRule, Tree.label] using creates
      obtain ⟨type, found, -, simple⟩ := exists_createdType derivedC
      exact hasTypeNamed derivedC (stands.neat neat) found (List.mem_append_left _ simple)
  · have told : List.Forall₂ (fun call (p : Place) => p.2.call? = some call)
        (gistAll d.members).calls (callsIn t) := by
      rw [callsIn, List.forall₂_map_right_iff]
      exact (shows_declaration derived declared).calls
    rw [d.bodies_calls, filterMap_calls told, callsIn, placesIn, ← filterMap_eq_reduceOption,
      List.filterMap_map, List.filterMap_map, List.filterMap_filter, List.filterMap_filter]
    refine List.filterMap_congr fun x member => ?_
    have same := created_call ((mem_spots.mp member).derived derived)
    by_cases content : x.standing = .content
    · simpa [content] using same
    · simp [content]

/-- A declared type names types as they are written in its declaration. -/
theorem namesTypesOf_declared : d.NamesTypesOf t := by
  have supertypes : NameAll (t.typesListed extendsClauses) d.extended ∧
      NameAll (t.typesListed implementsClauses) d.implemented := by
    cases t with
    | leaf => cases declared
    | node field r parts =>
      simp only [declared?] at declared
      split at declared
      · rename_i kind known
        obtain ⟨name, -, rfl⟩ := Option.map_eq_some_iff.mp declared
        rw [TypeDecl.extended, extendedTypes_eq derived known, TypeDecl.implemented,
          implementedTypes_eq derived known]
        exact ⟨nameAll_typesListed derived.inner neat (by decide),
          nameAll_typesListed derived.inner neat (by decide)⟩
      · cases declared
  exact ⟨supertypes.1, supertypes.2,
    ⟨_, fun _ _ => mem_placesIn, pairwise_placesIn _ _ t, names_fields derived neat declared⟩,
    ⟨_, fun _ _ => mem_placesIn, pairwise_placesIn _ _ t, names_created derived neat declared⟩⟩

end

/-- The types that a file declares name types as they are written. Each supertype, the type of each
field and that of each created object is read as a qualified name, apart from type arguments,
annotations, comments and array dimensions, and has the last identifier of that as its name, or none
if it is primitive. -/
theorem CompilationUnit.types_named_as_written (path : String) {text : List Char} {tree : Tree}
    (accepted : read text = .ok tree) :
    ∃ places : List Place,
      (∀ w t, (w, t) ∈ places ↔ ReachesType .file tree w t) ∧
      List.Forall₂ (fun v p => v.At p ∧ v.decl.NamesTypesOf p.2) (ofTree path tree).visits
        places := by
  have sound := sound_of_read accepted
  have neat := neat_of_read accepted
  refine ⟨reached .file tree, fun w t => mem_reached, ?_⟩
  refine (forall₂_mem_right (visits_reached path sound)).imp fun v p here => ⟨here.2, ?_⟩
  have reaches := mem_reached.mp here.1
  exact namesTypesOf_declared (sound.derived_reached reaches) (reaches.neat neat) here.2

/-- A class with an array of an inner class of a generic one as its superclass, two interfaces, a
field of a primitive array type and one of an inner class, for which it creates an object. -/
def innerTypes : List Char :=
  ("class A extends @B c.D<E.F>.@G/**/H<I>[]implements J.K,L<M>" ++
    "\x7bint[]x;N<O>.P y=new Q.R<S>();\x7d").toList

set_option maxRecDepth 100000 in
/-- The sample is read, and its only class names each type by the last of the names before its
arguments and brackets. -/
theorem read_innerTypes : ∃ tree, read innerTypes = .ok tree ∧
    (CompilationUnit.ofTree "A.java" tree).visits.map
        (fun v => (v.decl.extended, v.decl.implemented)) = [(["H"], ["K", "L"])] ∧
    (CompilationUnit.ofTree "A.java" tree).visits.map
        (fun v => (v.decl.fields, (v.decl.bodies.flatMap Body.calls).filterMap Call.created?)) =
      [([(none, ["x"]), (some "P", ["y"])], ["R"])] := by
  -- The text is read once, and all that is asked about it is evaluated together.
  refine exists_ok ?_
  decide +kernel

/-- The superclass of the sample is known neither by its qualifier nor by an argument or an
annotation, and the array of numbers has no name. -/
theorem CompilationUnit.types_named_as_written_innerTypes :
    ∃ tree, read innerTypes = .ok tree ∧
      (ofTree "A.java" tree).visits.map (fun v => (v.decl.extended, v.decl.implemented)) =
        [(["H"], ["K", "L"])] ∧
      (ofTree "A.java" tree).visits.map
          (fun v => (v.decl.fields, (v.decl.bodies.flatMap Body.calls).filterMap Call.created?)) =
        [([(none, ["x"]), (some "P", ["y"])], ["R"])] ∧
      ∃ places : List Place,
        (∀ w t, (w, t) ∈ places ↔ ReachesType .file tree w t) ∧
        List.Forall₂ (fun v p => v.At p ∧ v.decl.NamesTypesOf p.2)
          (ofTree "A.java" tree).visits places := by
  obtain ⟨tree, accepted, supertypes, members⟩ := read_innerTypes
  exact ⟨tree, accepted, supertypes, members, types_named_as_written "A.java" accepted⟩

end TypeGraph
