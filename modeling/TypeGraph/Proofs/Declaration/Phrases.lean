import TypeGraph.Proofs.Declaration.Standing
import TypeGraph.Proofs.Java.Parts

/-! What the phrases of the grammar declare and call. -/

namespace TypeGraph

open Java

namespace Java.Tree

/-- Whether a type is a class type: a name, a qualified name, or one applied to arguments. -/
def isClassType : Java.Tree → Bool
  | leaf _ label _ => label = .typeIdentifier
  | node _ rule _ => rule = .scopedTypeIdentifier || rule = .genericType

/-- Whether a phrase calls a method or creates an object of a class type. -/
def isCall : Java.Tree → Bool
  | leaf _ _ _ => false
  | node _ .methodInvocation _ => true
  | node _ .objectCreationExpression parts =>
    (parts.find? fun part => part.field = some .type).any isClassType
  | node _ _ _ => false

/-- The call that a tree makes itself, if it makes one. -/
def call? : Java.Tree → Option Call
  | leaf _ _ _ => none
  | node _ rule parts => callOf? rule parts

end Java.Tree

/-- The text of a part with some field is known if there is such a part. -/
theorem isSome_textOf? {parts : List Java.Tree} {field : Field}
    (known : ∃ part ∈ parts, part.field = some field) : (textOf? parts field).isSome := by
  -- The text is that of the first part with the field.
  simpa [textOf?] using known

/-- Every rule that declares a type gives the name and starts with a part without a field. -/
theorem TypeKind.ofRule?_names {r : Rule} (declares : (ofRule? r).isSome) :
    r.gives 1 (some .name) ∧
      ∀ p ∈ r.productions, (p.body.head?.bind Slot.mark?).map (·.1) = some none := by
  -- There are five rules to look at, one for each kind of type.
  unfold ofRule? at declares
  split at declares
  · decide +kernel
  · decide +kernel
  · decide +kernel
  · decide +kernel
  · decide +kernel
  · cases declares

/-- A derived type declaration declares a type with the members in its body. -/
theorem exists_declared {t : Java.Tree} (derived : Derived t) (declares : t.kind?.isSome) :
    ∃ d, declared? t = some d ∧ d.members = membersOfBody t.parts := by
  -- The name is the text of a part, and the grammar puts one there.
  cases t with
  | leaf => cases declares
  | node field rule parts =>
    have names := (TypeKind.ofRule?_names declares).1
    obtain ⟨kind, known⟩ := Option.isSome_iff_exists.mp declares
    obtain ⟨name, text⟩ := Option.isSome_iff_exists.mp
      (isSome_textOf? (derived.exists_field names))
    change TypeKind.ofRule? rule = some kind at known
    refine ⟨_, by simp only [declared?, known, TypeKind.declare?, text, Option.map_some]; rfl, rfl⟩

/-- A derived method has a name. -/
theorem isSome_methodName {field : Option Field} {parts : List Java.Tree}
    (derived : Derived (.node field .methodDeclaration parts)) :
    (textOf? parts .name).isSome :=
  isSome_textOf? (derived.exists_field (by decide +kernel : Rule.gives 4 (some .name) _))

/-- A derived phrase has a part with the field and the label of any slot that all productions of
its rule have, unless a hidden rule fills the slot. -/
theorem Java.Derived.exists_part {field : Option Field} {r : Rule} {parts : List Java.Tree}
    (derived : Derived (.node field r parts)) (marks : List (Option Field × Label))
    (known : ∀ p ∈ r.productions, ∃ slot ∈ p.body, ∃ mark ∈ marks, slot.mark? = some mark) :
    ∃ part ∈ parts, (part.field, part.label) ∈ marks := by
  -- The production of the phrase has one of the slots, and the slot is filled.
  cases derived with
  | node member _ fills _ =>
    obtain ⟨slot, inside, mark, listed, same⟩ := known _ member
    obtain ⟨part, among, shown⟩ := (fills.filled slot inside).exists_part same
    exact ⟨part, among, shown ▸ listed⟩

/-- A derived qualified type name ends in a name. -/
theorem isSome_typeName?_scoped {field : Option Field} {parts : List Java.Tree}
    (derived : Derived (.node field .scopedTypeIdentifier parts)) :
    (typeName? (.node field .scopedTypeIdentifier parts)).isSome := by
  -- The grammar ends a qualified type name in a simple one.
  obtain ⟨part, among, mark⟩ := derived.exists_part [(none, .typeIdentifier)]
    (by decide +kernel)
  have name : part.label = .typeIdentifier := congrArg Prod.snd (List.mem_singleton.mp mark)
  simp only [typeName?, Option.isSome_map, List.find?_isSome, List.mem_reverse]
  exact ⟨part, among, by simpa using name⟩

/-- The name of a class type is known if it is the first name or qualified name among the
parts. -/
theorem isSome_outerTypeName? {parts : List Java.Tree} (derived : ∀ part ∈ parts, Derived part)
    (named : ∃ part ∈ parts,
      part.label = .typeIdentifier ∨ part.label = .rule .scopedTypeIdentifier) :
    (outerTypeName? parts).isSome := by
  -- The first part that is a name or a qualified name decides, so the parts are gone through.
  induction parts with
  | nil => simp at named
  | cons part rest ih =>
    obtain ⟨here, later⟩ := List.forall_mem_cons.mp derived
    simp only [outerTypeName?, Java.Tree.isRule, Bool.or_eq_true, decide_eq_true_eq]
    split
    · rename_i name
      cases part with
      | leaf field label lexeme =>
        rcases name with plain | phrase
        · have plain : label = .typeIdentifier := plain
          simp [typeName?, isPlainName, Java.Tree.label, plain]
        · cases here with
          | leaf lexeme _ => exact absurd phrase (lexeme _)
      | node field rule parts =>
        rcases name with plain | phrase
        · cases plain
        · obtain rfl : rule = .scopedTypeIdentifier := by simpa [Java.Tree.label] using phrase
          exact isSome_typeName?_scoped here
    · rename_i other
      obtain ⟨named, among, name⟩ := named
      rcases List.mem_cons.mp among with rfl | among
      · exact absurd name other
      · exact ih later ⟨named, among, name⟩

/-- The labels of the types of which an object may be created. -/
def simpleTypes : List Label := [.typeIdentifier, .lexeme .voidWord, .lexeme .booleanWord,
  .rule .integralType, .rule .floatingPointType, .rule .scopedTypeIdentifier, .rule .genericType]

/-- A type that is created has a name if and only if it is a class type. -/
theorem isSome_typeName? {t : Java.Tree} (derived : Derived t)
    (simple : t.label ∈ simpleTypes) : (typeName? t).isSome = t.isClassType := by
  -- The labels are few: primitive types have no name, and the others are class types.
  cases t with
  | leaf field label lexeme =>
    have other : label ≠ .lexeme .identifier := by
      rintro rfl
      simp [simpleTypes, Java.Tree.label] at simple
    by_cases name : label = .typeIdentifier <;>
      simp [typeName?, isPlainName, Java.Tree.label, Java.Tree.isClassType, name, other]
  | node field rule parts =>
    simp only [simpleTypes, Java.Tree.label, List.mem_cons, List.not_mem_nil, or_false,
      reduceCtorEq, false_or, Label.rule.injEq] at simple
    rcases simple with rfl | rfl | rfl | rfl
    · rfl
    · rfl
    · simpa [Java.Tree.isClassType] using isSome_typeName?_scoped derived
    · obtain ⟨part, among, mark⟩ := derived.exists_part
        [(none, .typeIdentifier), (none, .rule .scopedTypeIdentifier)] (by decide +kernel)
      have named : part.label = .typeIdentifier ∨ part.label = .rule .scopedTypeIdentifier := by
        simp only [List.mem_cons, List.not_mem_nil, or_false, Prod.mk.injEq] at mark
        exact mark.imp And.right And.right
      have outer := isSome_outerTypeName? derived.inner ⟨part, among, named⟩
      simpa [typeName?, Java.Tree.isClassType] using outer

/-- A derived creation names a simple type. -/
theorem exists_createdType {field : Option Field} {parts : List Java.Tree}
    (derived : Derived (.node field .objectCreationExpression parts)) :
    ∃ part, (parts.find? fun part => part.field = some .type) = some part ∧ Derived part ∧
      part.label ∈ simpleTypes := by
  obtain ⟨part, among, type⟩ :=
    derived.exists_field (by decide +kernel : Rule.gives 2 (some .type) _)
  have found : (parts.find? fun part => part.field = some .type).isSome := by
    simpa using ⟨part, among, type⟩
  obtain ⟨created, first⟩ := Option.isSome_iff_exists.mp found
  have among := List.mem_of_find?_eq_some first
  have field : created.field = some .type := by simpa using List.find?_some first
  -- No other part of a creation, nor of the hidden rules in it, is known as a type.
  have simple := derived.forall_good
    (fun (field, label) => field ≠ some .type || simpleTypes.contains label)
    [.unqualifiedCreation, .primaryExpression, .annotationUses, .annotationUse, .literal,
      .reservedIdentifier] (by simp) (by decide +kernel) created among
  exact ⟨created, first, derived.inner created among, by simpa [field] using simple⟩

/-- A derived tree makes a call if and only if it calls a method or creates an object of a class
type. -/
theorem isSome_call? {t : Java.Tree} (derived : Derived t) : t.call?.isSome = t.isCall := by
  -- An invocation always has a name, and a creation a type, which may be no class type.
  cases t with
  | leaf => rfl
  | node field rule parts =>
    simp only [Java.Tree.call?, callOf?, Java.Tree.isCall]
    split
    · have name := isSome_textOf?
        (derived.exists_field (by decide +kernel : Rule.gives 3 (some .name) _))
      simpa using name
    · obtain ⟨created, first, inner, simple⟩ := exists_createdType derived
      simp [first, isSome_typeName? inner simple]
    · simp

end TypeGraph
