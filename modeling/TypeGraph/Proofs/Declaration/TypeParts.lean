import TypeGraph.Proofs.Declaration.Phrases
import TypeGraph.Proofs.Java.Fits

/-! The parts of which the grammar makes types, apart from comments between them. -/

namespace TypeGraph

open Java

/-- The labels of types that have names. -/
def classTypes : List Label := [.typeIdentifier, .rule .scopedTypeIdentifier, .rule .genericType]

/-- The labels of all types. -/
def anyTypes : List Label := simpleTypes ++ [.rule .arrayType, .rule .annotatedType]

/-- Whether a part of a type stands beside its name: type arguments, an annotation or a comment. -/
def Java.Tree.isAside (t : Java.Tree) : Bool :=
  t.isComment || t.isRule .typeArguments || t.isRule .annotationMarker || t.isRule .annotationCall

/-- A type does not stand beside a name. -/
theorem isAside_of_type {t : Java.Tree} (type : t.label ∈ anyTypes) : t.isAside = false := by
  have others : ∀ label ∈ anyTypes, (label.isComment || label = .rule .typeArguments ||
      label = .rule .annotationMarker || label = .rule .annotationCall) = false := by
    decide
  exact others _ type

theorem isAside_of_classType {t : Java.Tree} (type : t.label ∈ classTypes) : t.isAside = false := by
  have all : ∀ label ∈ classTypes, label ∈ anyTypes := by decide
  exact isAside_of_type (all _ type)

/-- The rules of an annotation and of several in a row. -/
def annotationRules : List Rule :=
  [.annotationUses, .annotationUse, .annotationMarker, .annotationCall]

/-- What fills slots for annotations stands beside the name of a type. -/
theorem Java.Fits.isAside {row : List Slot} {parts : List Java.Tree} (fits : Fits row parts)
    (annotations : ∀ slot ∈ row, ∃ r ∈ annotationRules, slot = ⟨.rule r, none, none⟩) :
    ∀ part ∈ parts, part.isAside := by
  -- Annotations in a row are parts of a hidden phrase, which has slots for annotations only.
  have closed : ∀ r ∈ annotationRules, r.isHidden → ∀ p ∈ r.productions, ∀ slot ∈ p.body,
      ∃ r ∈ annotationRules, slot = ⟨.rule r, none, none⟩ := by
    decide +kernel
  have single : ∀ r ∈ annotationRules, r.isHidden = false →
      r = .annotationMarker ∨ r = .annotationCall := by
    decide
  induction fits with
  | nil => simp
  | @shown _ _ part _ mark _ ih =>
    obtain ⟨⟨r, listed, rfl⟩, later⟩ := List.forall_mem_cons.mp annotations
    refine List.forall_mem_cons.mpr ⟨?_, ih later⟩
    simp only [Slot.mark?] at mark
    split at mark
    · cases mark
    · rename_i shown
      have label : part.label = .rule r := (congrArg Prod.snd (Option.some.inj mark)).symm
      rcases single r listed (by simpa using shown) with rfl | rfl <;>
        simp [Java.Tree.isAside, Java.Tree.isRule, label]
  | hidden symbol _ hidden listed _ _ ihInner ih =>
    obtain ⟨⟨r, rule, rfl⟩, later⟩ := List.forall_mem_cons.mp annotations
    refine List.forall_mem_append.mpr ⟨?_, ih later⟩
    obtain rfl := Symbol.rule.inj symbol
    rw [Slot.dress_eq_id rfl rfl, List.map_id]
    exact ihInner (closed _ rule hidden _ listed)

/-- A slot for a type without annotations has one type. -/
theorem Java.Fits.exists_type {slot : Slot} {row : List Slot} {parts : List Java.Tree}
    (fits : Fits (slot :: row) parts) (symbol : slot.symbol = .rule .unannotatedType)
    (unlabelled : slot.label = none) : ∃ type rest, parts = type :: rest ∧
      type.field = slot.field ∧ type.label ∈ anyTypes ∧ Fits row rest := by
  -- Each production of the hidden rule has one slot, for a type.
  have single : ∀ p ∈ Rule.unannotatedType.productions, ∃ label ∈ anyTypes,
      p.body.map Slot.mark? = [(none, label)].map some := by
    decide +kernel
  obtain ⟨p, member, inner, rest, rfl, fitsInner, later⟩ := fits.cons_hidden symbol rfl
  obtain ⟨label, type, marks⟩ := single p member
  obtain ⟨t, rfl, mark⟩ := List.map_eq_singleton_iff.mp (fitsInner.marks marks)
  obtain ⟨field, rfl⟩ := Prod.mk.inj mark
  refine ⟨slot.dress t, rest, rfl, ?_, ?_, later⟩
  · rw [Slot.field_dress, field]
    rfl
  · rwa [Slot.label_dress unlabelled]

section

variable {field : Option Field} {parts : List Java.Tree} (neat : ∀ part ∈ parts, part.Neat)
include neat

/-- A qualified name is a class type, a dot and an identifier, which may be annotated. -/
theorem Java.Derived.scopedParts (derived : Derived (.node field .scopedTypeIdentifier parts)) :
    ∃ qualifier dot asides name, Java.Tree.uncommented parts =
        [qualifier, .leaf none (.lexeme .dot) dot] ++
          (asides ++ [.leaf none .typeIdentifier name]) ∧
      qualifier.label ∈ classTypes ∧ ∀ part ∈ asides, part.isAside := by
  have rows : ∀ p ∈ Rule.scopedTypeIdentifier.productions, ∃ outer ∈ classTypes,
      ∃ uses ∈ [[], [⟨.rule .annotationUses, none, none⟩]],
      (p.body.take 2).map Slot.mark? = [(none, outer), (none, .lexeme .dot)].map some ∧
        p.body.drop 2 = uses ++ [⟨.terminal .identifier, none, some .typeIdentifier⟩] := by
    decide +kernel
  have annotations : ∀ uses ∈ [[], [(⟨.rule .annotationUses, none, none⟩ : Slot)]],
      ∀ slot ∈ uses, ∃ r ∈ annotationRules, slot = ⟨.rule r, none, none⟩ := by
    decide
  obtain ⟨p, member, fits⟩ := derived.exists_fits neat
  obtain ⟨_, outer, uses, optional, start, ending⟩ := rows p member
  -- The row is cut behind the dot, and what is left once more before the name.
  rw [← List.take_append_drop 2 p.body, ending] at fits
  obtain ⟨front, back, split, fitsFront, fitsBack⟩ := fits.of_append
  obtain ⟨asides, last, rfl, fitsAsides, fitsLast⟩ := fitsBack.of_append
  obtain ⟨qualifier, rest, rfl, first, second⟩ := List.map_eq_cons_iff.mp (fitsFront.marks start)
  obtain ⟨dot, rfl, isDot⟩ := List.map_eq_singleton_iff.mp second
  have ends : last.map _ = [(none, Label.typeIdentifier)] := fitsLast.marks rfl
  obtain ⟨name, rfl, isName⟩ := List.map_eq_singleton_iff.mp ends
  obtain ⟨x, rfl⟩ := Java.Tree.exists_leaf isName (by simp)
  obtain ⟨y, rfl⟩ := Java.Tree.exists_leaf isDot (by simp)
  obtain ⟨-, rfl⟩ := Prod.mk.inj first
  exact ⟨qualifier, y, asides, x, split, outer, fitsAsides.isAside (annotations uses optional)⟩

/-- Whether type arguments may be applied to a part: a name or a qualified name. -/
def Java.Tree.isOuterName (t : Java.Tree) : Bool :=
  t.label = .typeIdentifier || t.isRule .scopedTypeIdentifier

/-- A generic type is a name or a qualified name with type arguments. -/
theorem Java.Derived.genericParts (derived : Derived (.node field .genericType parts)) :
    ∃ outer arguments, Java.Tree.uncommented parts = [outer, arguments] ∧ outer.isOuterName ∧
      arguments.label = .rule .typeArguments := by
  have rows : ∀ p ∈ Rule.genericType.productions,
      ∃ outer ∈ [.typeIdentifier, .rule .scopedTypeIdentifier],
        p.body.map Slot.mark? = [(none, outer), (none, .rule .typeArguments)].map some := by
    decide +kernel
  obtain ⟨p, member, fits⟩ := derived.exists_fits neat
  obtain ⟨label, listed, marks⟩ := rows p member
  obtain ⟨outer, rest, split, first, second⟩ := List.map_eq_cons_iff.mp (fits.marks marks)
  obtain ⟨arguments, rfl, isArguments⟩ := List.map_eq_singleton_iff.mp second
  refine ⟨outer, arguments, split, ?_, congrArg Prod.snd isArguments⟩
  have known : outer.label = label := congrArg Prod.snd first
  simpa [Java.Tree.isOuterName, Java.Tree.isRule, known] using listed

/-- An array type is the type of its elements with dimensions. -/
theorem Java.Derived.arrayParts (derived : Derived (.node field .arrayType parts)) :
    ∃ element dimensions, Java.Tree.uncommented parts = [element, dimensions] ∧
      element.field = some .element ∧ element.label ∈ anyTypes ∧
      dimensions.label = .rule .dimensions := by
  have rows : ∀ p ∈ Rule.arrayType.productions, p.body =
      [⟨.rule .unannotatedType, some .element, none⟩, ⟨.rule .dimensions, none, none⟩] := by
    decide +kernel
  obtain ⟨p, member, fits⟩ := derived.exists_fits neat
  rw [rows p member] at fits
  obtain ⟨element, rest, split, known, type, later⟩ := fits.exists_type rfl rfl
  have ends : rest.map _ = [(none, Label.rule .dimensions)] := later.marks rfl
  obtain ⟨dimensions, rfl, isDimensions⟩ := List.map_eq_singleton_iff.mp ends
  exact ⟨element, dimensions, split, known, type, congrArg Prod.snd isDimensions⟩

/-- An annotated type is a type after annotations. -/
theorem Java.Derived.annotatedParts (derived : Derived (.node field .annotatedType parts)) :
    ∃ asides type, Java.Tree.uncommented parts = asides ++ [type] ∧
      (∀ part ∈ asides, part.isAside) ∧ type.label ∈ anyTypes := by
  have rows : ∀ p ∈ Rule.annotatedType.productions, p.body =
      [⟨.rule .annotationUses, none, none⟩] ++ [⟨.rule .unannotatedType, none, none⟩] := by
    decide +kernel
  obtain ⟨p, member, fits⟩ := derived.exists_fits neat
  rw [rows p member] at fits
  obtain ⟨asides, back, split, fitsAsides, fitsBack⟩ := fits.of_append
  obtain ⟨type, rest, rfl, -, isType, fitsNil⟩ := fitsBack.exists_type rfl rfl
  cases fitsNil
  exact ⟨asides, type, split, fitsAsides.isAside (by simp [annotationRules]), isType⟩

end

end TypeGraph
