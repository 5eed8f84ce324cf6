import TypeGraph.Proofs.Declaration.Lowering
import TypeGraph.Proofs.Declaration.Unplaced
import TypeGraph.Proofs.Java.Bare

/-! What trees declare and call is the same without layout, but for the lines told. -/

namespace TypeGraph

open Java Java.Tree

/-- Lexemes have the same text wherever they stand. -/
theorem string_bare_of_isLeaf {t : Java.Tree} (lexeme : t.isLeaf) : t.bare.string = t.string := by
  rw [Java.Tree.string, text_bare_of_isLeaf lexeme, Java.Tree.string]

/-- Two bare trees after each other are bare trees in a row. -/
theorem bareAmong_reverse (parts : List Java.Tree) :
    bareAmong parts.reverse = (bareAmong parts).reverse := by
  simp [bareAmong_eq]

section

variable {α : Type} {parts : List Java.Tree} {wanted : Java.Tree → Bool}
  (found : (bareAmong parts).find? wanted = (parts.find? wanted).map bare)
include found

/-- What may come of a part that is found is the same if it is for any such part. -/
theorem bind_find?_bareAmong {f : Java.Tree → Option α}
    (same : ∀ part ∈ parts, wanted part → f part.bare = f part) :
    ((bareAmong parts).find? wanted).bind f = (parts.find? wanted).bind f := by
  -- The same part is found, if any is.
  rw [found]
  cases here : parts.find? wanted with
  | none => rfl
  | some part => exact same part (List.mem_of_find?_eq_some here) (List.find?_some here)

/-- What comes of a part that is found is the same if it is for any such part. -/
theorem map_find?_bareAmong {f : Java.Tree → α}
    (same : ∀ part ∈ parts, wanted part → f part.bare = f part) :
    ((bareAmong parts).find? wanted).map f = (parts.find? wanted).map f := by
  rw [Option.map_eq_bind, Option.map_eq_bind]
  exact bind_find?_bareAmong found fun part member here => congrArg some (same part member here)

end

/-- The text of a lexeme under some field is the same in any layout. -/
theorem textOf?_bareAmong {parts : List Java.Tree} (neat : ∀ part ∈ parts, part.Neat)
    {field : Field} (lexeme : ∀ part ∈ parts, part.field = some field → part.isLeaf) :
    textOf? (bareAmong parts) field = textOf? parts field :=
  map_find?_bareAmong (find?_field_bareAmong neat field) fun part member here =>
    string_bare_of_isLeaf (lexeme part member (by simpa using here))

/-- Only the last of some named parts gives a name. -/
theorem lastTypeName?_of_isNamed {parts : List Java.Tree}
    (named : ∀ part ∈ parts, part.label.isNamed) :
    lastTypeName? parts = parts.getLast?.bind typeName? := by
  -- A part before the end is passed over, since a named one comes later.
  induction parts with
  | nil => rfl
  | cons part rest ih =>
    obtain ⟨here, later⟩ := List.forall_mem_cons.mp named
    cases rest with
    | nil => simp [lastTypeName?, here]
    | cons next rest =>
      have further : (next :: rest).any fun later => later.label.isNamed := by
        simp [later next List.mem_cons_self]
      rw [lastTypeName?, if_pos further, ih later]
      rfl

/-- The last tree stays the last one if it is no comment. -/
theorem getLast?_bareAmong {parts : List Java.Tree}
    (last : ∀ part ∈ parts.getLast?, part.isComment = false) :
    (bareAmong parts).getLast? = parts.getLast?.map bare := by
  -- What is left out stands before the end.
  rcases List.eq_nil_or_concat parts with rfl | ⟨front, part, rfl⟩
  · rfl
  · have other : part.isComment = false := last part (by simp)
    simp [bareAmong_eq, other]

section

variable {parts : List Java.Tree} (same : ∀ part ∈ parts, typeName? part.bare = typeName? part)
include same

/-- The name of the type that is applied is the same in any layout. -/
theorem outerTypeName?_bareAmong : outerTypeName? (bareAmong parts) = outerTypeName? parts := by
  -- Comments are passed over, as they are neither names nor phrases.
  induction parts with
  | nil => rfl
  | cons part rest ih =>
    obtain ⟨here, later⟩ := List.forall_mem_cons.mp same
    by_cases comment : part.isComment
    · have other : ¬(part.label = .typeIdentifier ∨ part.isRule .scopedTypeIdentifier) := by
        rintro (name | phrase)
        · exact label_ne_of_isComment rfl comment name
        · simp [isRule_of_isComment comment] at phrase
      simpa [bareAmong, comment, outerTypeName?, other] using ih later
    · simp [bareAmong, comment, outerTypeName?, here, ih later]

/-- The name of the type of elements is the same in any layout. -/
theorem elementTypeName?_bareAmong (neat : ∀ part ∈ parts, part.Neat) :
    elementTypeName? (bareAmong parts) = elementTypeName? parts := by
  -- Comments are passed over, as they stand under no field.
  induction parts with
  | nil => rfl
  | cons part rest ih =>
    obtain ⟨here, later⟩ := List.forall_mem_cons.mp same
    obtain ⟨neatHere, neatLater⟩ := List.forall_mem_cons.mp neat
    by_cases comment : part.isComment
    · simpa [bareAmong, comment, elementTypeName?, neatHere.field_of_isComment comment]
        using ih later neatLater
    · simp [bareAmong, comment, elementTypeName?, here, ih later neatLater]

/-- The name of the type behind annotations is the same in any layout. -/
theorem lastTypeName?_bareAmong (named : ∀ part ∈ parts, part.label.isNamed)
    (last : ∀ part ∈ parts.getLast?, part.isComment = false) :
    lastTypeName? (bareAmong parts) = lastTypeName? parts := by
  -- The type is the very last part, and that is no comment.
  have bareNamed : ∀ part ∈ bareAmong parts, part.label.isNamed := by
    intro part member
    rw [bareAmong_eq] at member
    obtain ⟨old, inside, rfl⟩ := List.mem_map.mp member
    simpa using named old (List.mem_filter.mp inside).1
  rw [lastTypeName?_of_isNamed bareNamed, lastTypeName?_of_isNamed named, getLast?_bareAmong last]
  cases found : parts.getLast? with
  | none => rfl
  | some part => exact same part (List.mem_of_getLast? found)

end

/-- The name of a type is the same in any layout. -/
theorem typeName?_bare {t : Java.Tree} (derived : Derived t) (neat : t.Neat) :
    typeName? t.bare = typeName? t := by
  induction derived with
  | leaf => rfl
  | @node field r p parts member body fills inner ih =>
    have derived : Derived (.node field r parts) := .node member body fills inner
    cases neat with
    | node neatInner last =>
      have same : ∀ part ∈ parts, typeName? part.bare = typeName? part :=
        fun part member => ih part member (neatInner part member)
      rw [bare]
      unfold typeName?
      -- The rule of the phrase tells which of its parts has the name.
      split
      · rename_i other
        cases other
      · rename_i phrase
        cases phrase
        dsimp only
        rw [← bareAmong_reverse]
        refine map_find?_bareAmong (find?_label_bareAmong _ rfl) fun part _ here => ?_
        have name : part.label = .typeIdentifier := by simpa using here
        cases part with
        | leaf => exact string_bare_of_isLeaf rfl
        | node => cases name
      · rename_i phrase
        cases phrase
        exact outerTypeName?_bareAmong same
      · rename_i phrase
        cases phrase
        exact elementTypeName?_bareAmong same neatInner
      · rename_i phrase
        cases phrase
        have named := derived.forall_good (fun (_, label) => label.isNamed)
          [.annotationUses, .annotationUse, .unannotatedType]
          (by intro t comment; cases t <;> first | rfl | cases comment) (by decide +kernel)
        exact lastTypeName?_bareAmong same named (last (by simp))
      · rename_i other
        cases other
        simp_all

/-- What several trees come to in a row is the same without comments that come to nothing. -/
theorem flatMap_bareAmong {α : Type} {parts : List Java.Tree} {f g : Java.Tree → List α}
    (same : ∀ part ∈ parts, f part.bare = g part)
    (comments : ∀ part ∈ parts, part.isComment → g part = []) :
    (bareAmong parts).flatMap f = parts.flatMap g := by
  -- A comment is left out on one side and comes to nothing on the other.
  induction parts with
  | nil => rfl
  | cons part rest ih =>
    obtain ⟨here, later⟩ := List.forall_mem_cons.mp same
    obtain ⟨nothing, further⟩ := List.forall_mem_cons.mp comments
    by_cases comment : part.isComment
    · simp [bareAmong, comment, nothing comment, ih later further]
    · simp [bareAmong, comment, here, ih later further]

/-- What some of several trees come to is the same without comments that come to nothing. -/
theorem filterMap_bareAmong {α : Type} {parts : List Java.Tree} {f g : Java.Tree → Option α}
    (same : ∀ part ∈ parts, f part.bare = g part)
    (comments : ∀ part ∈ parts, part.isComment → g part = none) :
    (bareAmong parts).filterMap f = parts.filterMap g := by
  simp only [List.filterMap_eq_flatMap_toList]
  refine flatMap_bareAmong (fun part member => by rw [same part member]) ?_
  intro part member comment
  rw [comments part member comment]
  rfl

/-- A comment is a lexeme. -/
theorem exists_of_isComment {t : Java.Tree} (comment : t.isComment) :
    ∃ field u x, t = .leaf field (.lexeme u) x ∧ u.isComment := by
  -- Only lexemes of some terminals are comments.
  cases t with
  | leaf field label x =>
    cases label with
    | lexeme u => exact ⟨field, u, x, rfl, comment⟩
    | _ => cases comment
  | node => cases comment

/-- A comment is no type. -/
theorem typeName?_of_isComment {t : Java.Tree} (comment : t.isComment) : typeName? t = none := by
  obtain ⟨field, u, x, rfl, comment⟩ := exists_of_isComment comment
  have other : u ≠ .identifier := by
    rintro rfl
    cases comment
  simp [typeName?, isPlainName, Java.Tree.label, other]

/-- Types are listed part by part. -/
theorem listedTypesAmong_eq (parts : List Java.Tree) : listedTypesAmong parts =
    parts.flatMap fun part =>
      if part.isRule .typeList then listedTypes part else (typeName? part).toList := by
  induction parts with
  | nil => rfl
  | cons part rest ih => simp [listedTypesAmong, ih]

/-- Variables are declared part by part. -/
theorem declaredNames_eq (parts : List Java.Tree) : declaredNames parts =
    parts.flatMap fun part =>
      if part.isRule .variableDeclarator then (textOf? part.parts .name).toList else [] := by
  -- A part that declares no variable has no name to give.
  induction parts with
  | nil => rfl
  | cons part rest ih =>
    unfold declaredNames at ih ⊢
    by_cases declares : part.isRule .variableDeclarator
    · cases name : textOf? part.parts .name <;> simp [declares, name, ih]
    · simp [declares, ih]

/-- The types listed in a clause are the same in any layout. -/
theorem listedTypes_bare {t : Java.Tree} (derived : Derived t) (neat : t.Neat) :
    listedTypes t.bare = listedTypes t := by
  -- Comments in the clause are no types, and lists in it are treated alike.
  induction derived with
  | leaf => rfl
  | @node field r p parts member body fills inner ih =>
    cases neat with
    | node neatInner last =>
      rw [bare, listedTypes, listedTypes, listedTypesAmong_eq, listedTypesAmong_eq]
      refine flatMap_bareAmong (fun part member => ?_) fun part member comment => ?_
      · rw [isRule_bare, ih part member (neatInner part member),
          typeName?_bare (inner part member) (neatInner part member)]
      · simp [isRule_of_isComment comment, typeName?_of_isComment comment]

section

variable {field : Option Field} {rule : Rule} {parts : List Java.Tree}
  (derived : Derived (.node field rule parts)) (neat : ∀ part ∈ parts, part.Neat)
include derived neat

/-- A name is the same in any layout, unless it may be qualified. -/
theorem nameOf?_bareAmong (plain : rule ∉ Rule.qualifying) (known : Field)
    (naming : some known ∈ Field.naming) :
    textOf? (bareAmong parts) known = textOf? parts known :=
  textOf?_bareAmong neat fun part member same =>
    derived.isLeaf_of_name plain part member (same ▸ naming)

/-- The name on which a method is called is the same in any layout. -/
theorem receiver?_bareAmong : receiver? (bareAmong parts) = receiver? parts := by
  -- The part before the dot is a lexeme, a field of something, or nothing of interest.
  rw [receiver?, find?_field_bareAmong neat, receiver?]
  cases found : parts.find? fun part => part.field = some .object with
  | none => rfl
  | some part =>
    have member := List.mem_of_find?_eq_some found
    have derivedPart := derived.inner part member
    have neatPart := neat part member
    rw [Option.map_some]
    cases part with
    | leaf field label x =>
      by_cases plain : label = .lexeme .identifier
      · subst plain
        rfl
      · simp [bare, plain]
    | node field r inner =>
      cases neatPart with
      | node neatInner last =>
        by_cases access : r = .fieldAccess
        · -- Of a field of this object, only the name matters, which is a lexeme.
          subst access
          have name := nameOf?_bareAmong derivedPart neatInner (by decide) .member (by decide)
          simp only [bare, find?_field_bareAmong neatInner, name]
          cases inner.find? fun part => part.field = some .object with
          | none => rfl
          | some part =>
            cases part with
            | leaf field label x =>
              by_cases this : label = .lexeme .thisWord
              · subst this
                rfl
              · simp [bare, this]
            | node => rfl
        · simp [bare, access]

/-- The name of the type in a phrase is the same in any layout. -/
theorem namedType?_bareAmong :
    ((bareAmong parts).find? fun part => part.field = some .type).bind typeName? =
      (parts.find? fun part => part.field = some .type).bind typeName? :=
  bind_find?_bareAmong (find?_field_bareAmong neat .type) fun part member _ =>
    typeName?_bare (derived.inner part member) (neat part member)

/-- The call that a phrase makes itself is the same in any layout. -/
theorem callOf?_bareAmong : callOf? rule (bareAmong parts) = callOf? rule parts := by
  unfold callOf?
  split
  · rw [nameOf?_bareAmong derived neat (by decide) .name (by decide),
      receiver?_bareAmong derived neat]
  · rw [namedType?_bareAmong derived neat]
  · rfl

/-- The types in a clause are the same in any layout. -/
theorem clauseTypes_bareAmong (clause : Field) :
    clauseTypes (bareAmong parts) clause = clauseTypes parts clause := by
  have types := map_find?_bareAmong (find?_field_bareAmong neat clause) fun part member _ =>
    listedTypes_bare (derived.inner part member) (neat part member)
  rw [clauseTypes, types, clauseTypes]

/-- The types that a declaration extends are the same in any layout. -/
theorem extendedTypes_bareAmong (kind : TypeKind) :
    extendedTypes kind (bareAmong parts) = extendedTypes kind parts := by
  -- Classes and interfaces have different clauses, and other types have none.
  unfold extendedTypes
  split
  · exact clauseTypes_bareAmong derived neat .superclass
  · have clause : (bareAmong parts).find? (fun part => part.isRule .extendsInterfaces) =
        (parts.find? fun part => part.isRule .extendsInterfaces).map bare :=
      find?_label_bareAmong parts rfl
    have types := map_find?_bareAmong clause fun part member _ =>
      listedTypes_bare (derived.inner part member) (neat part member)
    rw [types]
  · rfl

/-- The variables of a field declaration are the same in any layout. -/
theorem declaredNames_bareAmong : declaredNames (bareAmong parts) = declaredNames parts := by
  rw [declaredNames_eq, declaredNames_eq]
  refine flatMap_bareAmong (fun part member => ?_) fun part member comment => ?_
  · -- The name of a variable is a lexeme.
    rw [isRule_bare, parts_bare]
    cases part with
    | leaf => rfl
    | node field r inner =>
      cases neat _ member with
      | node neatInner last =>
        by_cases declares : r = .variableDeclarator
        · subst declares
          have name := nameOf?_bareAmong (derived.inner _ member) neatInner (by decide) .name
            (by decide)
          simp [Java.Tree.parts, name]
        · simp [isRule, Java.Tree.label, declares]
  · simp [isRule_of_isComment comment]

/-- A type declaration is the same in any layout if its members are, but for the lines told. -/
theorem declare?_bareAmong (plain : rule ∉ Rule.qualifying) (kind : TypeKind)
    {members members' : List Member}
    (same : members'.map Member.unplaced = members.map Member.unplaced) :
    (kind.declare? (bareAmong parts) members').map TypeDecl.unplaced =
      (kind.declare? parts members).map TypeDecl.unplaced := by
  -- The name is a lexeme, and the clauses are the same.
  rw [TypeKind.declare?, nameOf?_bareAmong derived neat plain .name (by decide),
    extendedTypes_bareAmong derived neat, clauseTypes_bareAmong derived neat, TypeKind.declare?]
  cases textOf? parts .name with
  | none => rfl
  | some => simp [TypeDecl.unplaced, Member.unplacedAll_eq_map, same]

end

/-- What is lowered from a tree is the same in any layout, but for the lines told. -/
structure AnyLayout (t : Java.Tree) : Prop where
  members : (membersOf t.bare).map Member.unplaced = (membersOf t).map Member.unplaced
  code : (contentOf t.bare).unplaced = (contentOf t).unplaced
  content : (contentAt t.bare).unplaced = (contentAt t).unplaced
  member : (member? t.bare).map Member.unplaced = (member? t).map Member.unplaced
  declared : (declared? t.bare).map TypeDecl.unplaced = (declared? t).map TypeDecl.unplaced

section

variable {parts : List Java.Tree} (alike : ∀ part ∈ parts, AnyLayout part)
include alike

/-- The members among some parts are the same in any layout. -/
theorem membersAmong_bareAmong : (membersAmong (bareAmong parts)).map Member.unplaced =
    (membersAmong parts).map Member.unplaced := by
  -- A comment is no member, and holds none.
  induction parts with
  | nil => rfl
  | cons part rest ih =>
    obtain ⟨here, later⟩ := List.forall_mem_cons.mp alike
    by_cases comment : part.isComment
    · obtain ⟨field, u, x, rfl, -⟩ := exists_of_isComment comment
      rw [bareAmong, if_pos comment, ih later]
      rfl
    · rw [bareAmong, if_neg comment, membersAmong, membersAmong, List.map_append, List.map_append,
        ih later, isRule_bare]
      split
      · rw [here.members]
      · rw [← Option.toList_map, here.member, Option.toList_map]

/-- The content of some parts is the same in any layout. -/
theorem content_bareAmong : (content (bareAmong parts)).unplaced = (content parts).unplaced := by
  -- A comment has no content.
  induction parts with
  | nil => rfl
  | cons part rest ih =>
    obtain ⟨here, later⟩ := List.forall_mem_cons.mp alike
    by_cases comment : part.isComment
    · obtain ⟨field, u, x, rfl, -⟩ := exists_of_isComment comment
      rw [bareAmong, if_pos comment, ih later, TypeGraph.content, contentAt, Body.empty_append]
    · rw [bareAmong, if_neg comment, TypeGraph.content, TypeGraph.content, Body.unplaced_append,
        Body.unplaced_append, here.content, ih later]

variable (neat : ∀ part ∈ parts, part.Neat)
include neat

/-- The members in a body are the same in any layout. -/
theorem membersOfBody_bareAmong : (membersOfBody (bareAmong parts)).map Member.unplaced =
    (membersOfBody parts).map Member.unplaced := by
  rw [membersOfBody_eq, find?_field_bareAmong neat, membersOfBody_eq]
  cases found : parts.find? fun part => part.field = some .body with
  | none => rfl
  | some part => exact (alike part (List.mem_of_find?_eq_some found)).members

/-- The content of a method is the same in any layout. -/
theorem contentOfBody_bareAmong :
    (contentOfBody (bareAmong parts)).unplaced = (contentOfBody parts).unplaced := by
  rw [contentOfBody_eq, find?_field_bareAmong neat, contentOfBody_eq]
  cases found : parts.find? fun part => part.field = some .body with
  | none => rfl
  | some part => exact (alike part (List.mem_of_find?_eq_some found)).code

end

section

variable {field : Option Field} {rule : Rule} {parts : List Java.Tree}
  (derived : Derived (.node field rule parts)) (neat : ∀ part ∈ parts, part.Neat)
  (alike : ∀ part ∈ parts, AnyLayout part)
include derived neat alike

/-- A type that a phrase declares is the same in any layout. -/
theorem declareBody_bareAmong {kind : TypeKind} (known : TypeKind.ofRule? rule = some kind) :
    (kind.declare? (bareAmong parts) (membersOfBody (bareAmong parts))).map TypeDecl.unplaced =
      (kind.declare? parts (membersOfBody parts)).map TypeDecl.unplaced := by
  -- Type declarations are not among the phrases with qualified names.
  have plain : rule ∉ Rule.qualifying := by
    rintro member
    simp only [Rule.qualifying, List.mem_cons, List.not_mem_nil, or_false] at member
    rcases member with rfl | rfl | rfl <;> cases known
  exact declare?_bareAmong derived neat plain kind (membersOfBody_bareAmong alike neat)

/-- The content that a phrase makes up is the same in any layout. -/
theorem contentAt_bare : (contentAt (.node field rule (bareAmong parts))).unplaced =
    (contentAt (.node field rule parts)).unplaced := by
  -- A type is the content itself; any other phrase adds its call to that of its parts.
  cases known : TypeKind.ofRule? rule with
  | some kind =>
    have same := declareBody_bareAmong derived neat alike known
    have types := congrArg Option.toList same
    simp only [Option.toList_map] at types
    simp only [contentAt, known, Body.unplaced, TypeDecl.unplacedAll_eq_map]
    rw [types]
  | none =>
    simp only [contentAt, known, Body.unplaced_withCall, content_bareAmong alike,
      callOf?_bareAmong derived neat]

/-- The member that a phrase declares is the same in any layout. -/
theorem member?_bare : (member? (.node field rule (bareAmong parts))).map Member.unplaced =
    (member? (.node field rule parts)).map Member.unplaced := by
  have code := content_bareAmong alike
  have type := namedType?_bareAmong derived neat
  unfold member?
  split
  case h_1 =>
    rw [nameOf?_bareAmong derived neat (by decide) .name (by decide)]
    cases textOf? parts .name with
    | none => rfl
    | some => simp [Member.unplaced, contentOfBody_bareAmong alike neat]
  case h_9 =>
    -- By any other rule the part is a type or no member at all.
    cases known : TypeKind.ofRule? rule with
    | none => rfl
    | some kind =>
      have declared := declareBody_bareAmong derived neat alike known
      have same := congrArg (Option.map Member.type) declared
      simp only [Option.map_map] at same ⊢
      exact same
  all_goals simp [Member.unplaced, code, type, declaredNames_bareAmong derived neat]

end

/-- What is lowered from a derived tree is the same in any layout, but for the lines told. -/
theorem anyLayout {t : Java.Tree} (derived : Derived t) (neat : t.Neat) : AnyLayout t := by
  -- The induction is on the derivation; a phrase needs all facts about its parts.
  induction derived with
  | leaf => exact ⟨rfl, rfl, rfl, rfl, rfl⟩
  | @node field rule p parts member body fills inner ih =>
    have derived : Derived (.node field rule parts) := .node member body fills inner
    cases neat with
    | node neatInner last =>
      have alike : ∀ part ∈ parts, AnyLayout part :=
        fun part member => ih part member (neatInner part member)
      refine ⟨membersAmong_bareAmong alike, content_bareAmong alike,
        contentAt_bare derived neatInner alike, member?_bare derived neatInner alike, ?_⟩
      rw [bare, declared?, declared?]
      cases known : TypeKind.ofRule? rule with
      | none => rfl
      | some kind => exact declareBody_bareAmong derived neatInner alike known

end TypeGraph
