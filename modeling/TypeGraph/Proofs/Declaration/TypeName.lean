import TypeGraph.Proofs.Declaration.Bare
import TypeGraph.Proofs.Declaration.TypeParts

/-! Types have the last name of the outermost qualified name by which they are written. -/

namespace TypeGraph

open Java

/-- A lexeme with which a type is written, by its label and its text. -/
abbrev Word := Label × String

namespace Java.Tree

mutual
/-- The words of a type, without those of anything beside its name. -/
def outline : Tree → List Word
  | leaf _ label x => [(label, String.ofList x.text)]
  | node _ _ parts => outlineAmong parts
/-- The words of the parts of a type, without those of anything beside its name. -/
def outlineAmong : List Tree → List Word
  | [] => []
  | t :: rest => (if t.isAside then [] else t.outline) ++ outlineAmong rest
end

theorem outlineAmong_append (front back : List Tree) :
    outlineAmong (front ++ back) = outlineAmong front ++ outlineAmong back := by
  induction front with
  | nil => rfl
  | cons t rest ih => rw [List.cons_append, outlineAmong, outlineAmong, ih, List.append_assoc]

theorem outlineAmong_of_isAside {parts : List Tree} (asides : ∀ part ∈ parts, part.isAside) :
    outlineAmong parts = [] := by
  induction parts with
  | nil => rfl
  | cons t rest ih =>
    obtain ⟨here, later⟩ := List.forall_mem_cons.mp asides
    rw [outlineAmong, if_pos here, ih later, List.nil_append]

/-- A part that is no aside is written as it is by itself. -/
theorem outlineAmong_singleton {t : Tree} (shown : t.isAside = false) :
    outlineAmong [t] = t.outline := by
  simp [outlineAmong, shown]

/-- Comments among the parts of a type do not matter to how it is written. -/
theorem outlineAmong_uncommented (parts : List Tree) :
    outlineAmong (uncommented parts) = outlineAmong parts := by
  induction parts with
  | nil => rfl
  | cons t rest ih =>
    cases comment : t.isComment with
    | true =>
      have aside : t.isAside := by simp [isAside, comment]
      rw [uncommented_cons_of_isComment comment, ih, outlineAmong, if_pos aside, List.nil_append]
    | false => rw [uncommented_cons comment, outlineAmong, outlineAmong, ih]

end Java.Tree

/-- How a qualified name is written: identifiers with dots between them, of which it is known by the
last. -/
inductive Qualified : String → List Word → Prop
  | simple (name : String) : Qualified name [(.typeIdentifier, name)]
  | dotted {outer : String} {qualifier : List Word} (dot name : String) :
      Qualified outer qualifier →
      Qualified name (qualifier ++ [(.lexeme .dot, dot), (.typeIdentifier, name)])

/-- The words for types that are no classes. -/
def primitiveWords : List Label := [.lexeme .voidWord, .lexeme .booleanWord, .lexeme .byteWord,
  .lexeme .shortWord, .lexeme .intWord, .lexeme .longWord, .lexeme .charWord, .lexeme .floatWord,
  .lexeme .doubleWord]

/-- Whether some words are the brackets of array dimensions. -/
def AreBrackets (words : List Word) : Prop :=
  ∀ word ∈ words, word.1 ∈ [Label.lexeme .leftBracket, Label.lexeme .rightBracket]

/-- The name by which a type is written, apart from what stands beside it: the last identifier of a
qualified name, and none for a primitive type, with or without array dimensions. -/
inductive Java.Tree.Names (t : Tree) : Option String → Prop
  | qualified {name : String} {words brackets : List Word} : t.outline = words ++ brackets →
      Qualified name words → AreBrackets brackets → t.Names (some name)
  | primitive {word : Word} {brackets : List Word} : t.outline = word :: brackets →
      word.1 ∈ primitiveWords → AreBrackets brackets → t.Names none

/-- Whether a type is written with some name or none, and so with no other. -/
def Java.Tree.NamesOnly (t : Tree) (name : Option String) : Prop :=
  ∀ other, t.Names other ↔ other = name

/-- The last identifier among some words. -/
def lastIdentifier? (words : List Word) : Option String :=
  (words.filter fun word => word.1 = .typeIdentifier).getLast?.map Prod.snd

/-- There are no identifiers among brackets. -/
theorem lastIdentifier?_append {words brackets : List Word} (areBrackets : AreBrackets brackets) :
    lastIdentifier? (words ++ brackets) = lastIdentifier? words := by
  have none : brackets.filter (fun word => word.1 = .typeIdentifier) = [] := by
    refine List.filter_eq_nil_iff.mpr fun word among same => ?_
    simpa [of_decide_eq_true same] using areBrackets word among
  rw [lastIdentifier?, List.filter_append, none, List.append_nil, lastIdentifier?]

/-- A qualified name is known by its last identifier. -/
theorem Qualified.lastIdentifier?_eq {name : String} {words : List Word}
    (qualified : Qualified name words) : lastIdentifier? words = some name := by
  cases qualified <;> simp [lastIdentifier?]

/-- The name by which a type is written is the last identifier of all, if there is one. -/
theorem Java.Tree.Names.eq_lastIdentifier? {t : Tree} {name : Option String}
    (names : t.Names name) : name = lastIdentifier? t.outline := by
  cases names with
  | qualified written qualified brackets =>
    rw [written, lastIdentifier?_append brackets, qualified.lastIdentifier?_eq]
  | @primitive word brackets written primitive after =>
    have other : word.1 ≠ .typeIdentifier := by
      rintro same
      simp [primitiveWords, same] at primitive
    rw [written, ← List.singleton_append, lastIdentifier?_append after]
    simp [lastIdentifier?, other]

/-- A type is written with one name at most. -/
theorem Java.Tree.Names.only {t : Tree} {name : Option String} (names : t.Names name) :
    t.NamesOnly name :=
  fun _ => ⟨fun others => others.eq_lastIdentifier?.trans names.eq_lastIdentifier?.symm,
    fun same => same ▸ names⟩

/-- The text of a lexeme in a tree is its own. -/
theorem Java.Tree.string_leaf (field : Option Field) (label : Label) (x : Lexeme) :
    (Java.Tree.leaf field label x).string = String.ofList x.text := by
  simp [string, text, lexemes]

/-- Type arguments are not applied to comments. -/
theorem isOuterName_of_isComment {t : Tree} (comment : t.isComment) : t.isOuterName = false := by
  have other : t.label ≠ .typeIdentifier := Tree.label_ne_of_isComment rfl comment
  simp [Tree.isOuterName, other, Tree.isRule_of_isComment comment]

/-- The name that type arguments are applied to is that of the first part that has one. -/
theorem outerTypeName?_eq (parts : List Tree) :
    outerTypeName? parts = (parts.find? Java.Tree.isOuterName).bind typeName? := by
  induction parts with
  | nil => rfl
  | cons part rest ih =>
    rw [outerTypeName?, ih, ← Java.Tree.isOuterName]
    by_cases known : part.isOuterName
    · rw [if_pos known, List.find?_cons_of_pos known, Option.bind_some]
    · rw [if_neg known, List.find?_cons_of_neg known]

/-- The name of the elements is that of the first part known as such. -/
theorem elementTypeName?_eq (parts : List Tree) : elementTypeName? parts =
    (parts.find? fun part => part.field = some .element).bind typeName? := by
  induction parts with
  | nil => rfl
  | cons part rest ih =>
    rw [elementTypeName?, ih]
    by_cases known : part.field = some .element
    · rw [if_pos known, List.find?_cons_of_pos (by simpa using known), Option.bind_some]
    · rw [if_neg known, List.find?_cons_of_neg (by simpa using known)]

/-- Whether a type is known by the qualified name as which it is written. -/
def Java.Tree.IsNamed (t : Tree) : Prop :=
  ∃ name, typeName? t = some name ∧ Qualified name t.outline

section

variable {field : Option Field} {parts : List Tree} (neat : ∀ part ∈ parts, part.Neat)
  (inner : ∀ part ∈ parts, part.label ∈ classTypes → part.IsNamed)
include neat inner

/-- A qualified name is known by its last identifier. -/
theorem isNamed_scoped (derived : Derived (.node field .scopedTypeIdentifier parts)) :
    (Java.Tree.node field .scopedTypeIdentifier parts).IsNamed := by
  obtain ⟨qualifier, dot, asides, name, split, outer, aside⟩ := derived.scopedParts neat
  have among : qualifier ∈ Tree.uncommented parts := by simp [split]
  obtain ⟨_, -, qualified⟩ := inner qualifier (List.mem_of_mem_filter among) outer
  refine ⟨String.ofList name.text, ?_, ?_⟩
  · -- Nothing but comments comes after the name.
    have found : parts.reverse.find? (fun part => part.label = .typeIdentifier) =
        some (.leaf none .typeIdentifier name) := by
      rw [← Tree.find?_uncommented fun part _ comment => by
        simpa using Tree.label_ne_of_isComment rfl comment, Tree.uncommented_reverse, split]
      simp [Tree.label]
    rw [typeName?, found, Option.map_some, Tree.string_leaf]
  · rw [Tree.outline, ← Tree.outlineAmong_uncommented, split, Tree.outlineAmong_append,
      Tree.outlineAmong_append, Tree.outlineAmong_of_isAside aside, Tree.outlineAmong,
      isAside_of_classType outer, List.append_assoc]
    exact .dotted _ _ qualified

/-- A generic type is known by the name to which the arguments are applied. -/
theorem isNamed_generic (derived : Derived (.node field .genericType parts)) :
    (Java.Tree.node field .genericType parts).IsNamed := by
  obtain ⟨outer, arguments, split, isOuter, isArguments⟩ := derived.genericParts neat
  have among : outer ∈ Tree.uncommented parts := by simp [split]
  have type : outer.label ∈ classTypes := by
    simp only [Tree.isOuterName, Tree.isRule, Bool.or_eq_true, decide_eq_true_eq] at isOuter
    rcases isOuter with label | label <;> simp [classTypes, label]
  obtain ⟨name, known, qualified⟩ := inner outer (List.mem_of_mem_filter among) type
  have aside : arguments.isAside := by simp [Tree.isAside, Tree.isRule, isArguments]
  refine ⟨name, ?_, ?_⟩
  · have found : parts.find? Tree.isOuterName = some outer := by
      rw [← Tree.find?_uncommented fun part _ comment => isOuterName_of_isComment comment, split,
        List.find?_cons_of_pos isOuter]
    rw [typeName?, outerTypeName?_eq, found, Option.bind_some, known]
  · rw [Tree.outline, ← Tree.outlineAmong_uncommented, split, Tree.outlineAmong,
      isAside_of_classType type, Tree.outlineAmong_of_isAside (by simpa using aside),
      List.append_nil]
    exact qualified

end

/-- A derived class type is known by the qualified name as which it is written. -/
theorem isNamed_of_classType {t : Tree} (derived : Derived t) (neat : t.Neat)
    (type : t.label ∈ classTypes) : t.IsNamed := by
  -- The induction is on the derivation; qualifiers and generic types are parts of the type.
  induction derived with
  | @leaf _ label x lexeme =>
    obtain rfl : label = .typeIdentifier := by simpa [classTypes, Tree.label, lexeme] using type
    exact ⟨_, by simp [typeName?, isPlainName, Tree.label], .simple _⟩
  | @node field r p parts member body fills inner ih =>
    have derived : Derived (.node field r parts) := .node member body fills inner
    cases neat with
    | node neatInner last =>
      have named : ∀ part ∈ parts, part.label ∈ classTypes → part.IsNamed :=
        fun part member => ih part member (neatInner part member)
      have rule : r = .scopedTypeIdentifier ∨ r = .genericType := by
        simpa [classTypes, Tree.label] using type
      rcases rule with rfl | rfl
      · exact isNamed_scoped neatInner named derived
      · exact isNamed_generic neatInner named derived

/-- A type that is known by a qualified name is written as it. -/
theorem Java.Tree.IsNamed.names {t : Tree} (named : t.IsNamed) : t.Names (typeName? t) := by
  obtain ⟨name, known, qualified⟩ := named
  rw [known]
  exact .qualified (List.append_nil _).symm qualified (by simp [AreBrackets])

/-- A type that is a single word has no name. -/
theorem names_none_of_word {t : Tree} {word : Word} (written : t.outline = [word])
    (primitive : word.1 ∈ primitiveWords) : t.Names none :=
  .primitive written primitive (by simp [AreBrackets])

/-- A derived phrase for numbers is a single word. -/
theorem exists_numberWord {field : Option Field} {r : Rule} {parts : List Tree}
    (derived : Derived (.node field r parts)) (neat : ∀ part ∈ parts, part.Neat)
    (number : r ∈ [.integralType, .floatingPointType]) :
    ∃ word : Word, (Java.Tree.node field r parts).outline = [word] ∧ word.1 ∈ primitiveWords := by
  have rows : ∀ r ∈ [Rule.integralType, .floatingPointType], ∀ p ∈ r.productions,
      ∃ word ∈ primitiveWords, p.body.map Slot.mark? = [(none, word)].map some := by
    decide +kernel
  have lexemes : ∀ word ∈ primitiveWords, (∀ r, word ≠ .rule r) ∧ word.isComment = false := by
    simp [primitiveWords, Label.isComment, Terminal.isComment]
  obtain ⟨p, member, fits⟩ := derived.exists_fits neat
  obtain ⟨word, primitive, marks⟩ := rows r number p member
  obtain ⟨part, split, mark⟩ := List.map_eq_singleton_iff.mp (fits.marks marks)
  obtain ⟨x, rfl⟩ := Tree.exists_leaf mark (lexemes word primitive).1
  have shown : (Java.Tree.leaf none word x).isAside = false := by
    simp [Tree.isAside, Tree.isComment, Tree.isRule, Tree.label, lexemes word primitive]
  refine ⟨(word, String.ofList x.text), ?_, primitive⟩
  rw [Tree.outline, ← Tree.outlineAmong_uncommented, split, Tree.outlineAmong_singleton shown]
  rfl

/-- A word of some parts is one of a part that is no aside. -/
theorem exists_mem_outline {parts : List Tree} {word : Word}
    (among : word ∈ Tree.outlineAmong parts) :
    ∃ part ∈ parts, part.isAside = false ∧ word ∈ part.outline := by
  induction parts with
  | nil => cases among
  | cons t rest ih =>
    rw [Tree.outlineAmong, List.mem_append] at among
    rcases among with here | later
    · cases aside : t.isAside with
      | true => simp [aside] at here
      | false => exact ⟨t, List.mem_cons_self, aside, by simpa [aside] using here⟩
    · obtain ⟨part, member, found⟩ := ih later
      exact ⟨part, List.mem_cons_of_mem _ member, found⟩

/-- Apart from annotations and comments, dimensions are brackets. -/
theorem areBrackets_dimensions {t : Tree} (derived : Derived t)
    (isDimensions : t.label = .rule .dimensions) : AreBrackets t.outline := by
  cases derived with
  | leaf lexeme => exact absurd isDimensions (lexeme _)
  | @node field r p parts member body fills inner =>
    obtain rfl : r = .dimensions := Label.rule.inj isDimensions
    have derived : Derived (.node field .dimensions parts) := .node member body fills inner
    -- The parts are annotations and brackets only.
    have labels := derived.forall_good (fun (_, label) => label.isComment ||
        [.rule .annotationMarker, .rule .annotationCall, .lexeme .leftBracket,
          .lexeme .rightBracket].contains label)
      [.emptyDimensions, .annotationUses, .annotationUse]
      (by intro t comment; simp [Label.isComment, comment]) (by decide +kernel)
    intro word among
    obtain ⟨part, member, shown, here⟩ := exists_mem_outline among
    have label := labels part member
    simp only [Tree.isAside, Tree.isComment, Tree.isRule, Bool.or_eq_false_iff,
      decide_eq_false_iff_not] at shown
    have bracket : part.label ∈ [Label.lexeme .leftBracket, .lexeme .rightBracket] := by
      simpa [shown] using label
    cases part with
    | leaf _ label x =>
      obtain rfl := List.mem_singleton.mp here
      exact bracket
    | node => simp [Tree.label] at bracket

/-- With brackets after it, a type keeps its name. -/
theorem Java.Tree.Names.append {t u : Tree} {name : Option String} {brackets : List Word}
    (names : t.Names name) (written : u.outline = t.outline ++ brackets)
    (more : AreBrackets brackets) : u.Names name := by
  cases names with
  | qualified known qualified before =>
    rw [known, List.append_assoc] at written
    exact .qualified written qualified (List.forall_mem_append.mpr ⟨before, more⟩)
  | primitive known primitive before =>
    rw [known, List.cons_append] at written
    exact .primitive written primitive (List.forall_mem_append.mpr ⟨before, more⟩)

section

variable {field : Option Field} {parts : List Tree} (neat : ∀ part ∈ parts, part.Neat)
  (inner : ∀ part ∈ parts, part.label ∈ anyTypes → part.Names (typeName? part))
include neat inner

/-- An array type is known by the name of the type of its elements. -/
theorem names_array (derived : Derived (.node field .arrayType parts)) :
    (Java.Tree.node field .arrayType parts).Names
      (typeName? (.node field .arrayType parts)) := by
  obtain ⟨element, dimensions, split, known, type, isDimensions⟩ := derived.arrayParts neat
  have member {part : Tree} (among : part ∈ [element, dimensions]) : part ∈ parts :=
    List.mem_of_mem_filter (split ▸ among)
  have found : parts.find? (fun part => part.field = some .element) = some element := by
    rw [← Tree.find?_uncommented fun part among comment => by
      simp [(neat part among).field_of_isComment comment], split, List.find?_cons_of_pos (by simpa)]
  have shown : dimensions.isAside = false := by
    simp [Tree.isAside, Tree.isComment, Tree.isRule, Label.isComment, isDimensions]
  rw [typeName?, elementTypeName?_eq, found, Option.bind_some]
  -- Its name is left as it is by the brackets that the dimensions come down to.
  refine (inner element (member (by simp)) type).append ?_
    (areBrackets_dimensions (derived.inner dimensions (member (by simp))) isDimensions)
  rw [Tree.outline, ← Tree.outlineAmong_uncommented, split, Tree.outlineAmong,
    isAside_of_type type, Tree.outlineAmong_singleton shown]
  rfl

/-- An annotated type is known by the name of the type after the annotations. -/
theorem names_annotated (derived : Derived (.node field .annotatedType parts))
    (last : ∀ part ∈ parts.getLast?, part.isComment = false) :
    (Java.Tree.node field .annotatedType parts).Names
      (typeName? (.node field .annotatedType parts)) := by
  obtain ⟨asides, type, split, aside, known⟩ := derived.annotatedParts neat
  have ending : parts.getLast? = some type := by
    rw [← Tree.getLast?_uncommented last, split, List.getLast?_concat]
  have named := derived.forall_good (fun (_, label) => label.isNamed)
    [.annotationUses, .annotationUse, .unannotatedType]
    (by intro t comment; cases t <;> first | rfl | cases comment) (by decide +kernel)
  rw [typeName?, lastTypeName?_of_isNamed named, ending, Option.bind_some]
  have written : Tree.outlineAmong parts = type.outline ++ [] := by
    rw [← Tree.outlineAmong_uncommented, split, Tree.outlineAmong_append,
      Tree.outlineAmong_of_isAside aside, Tree.outlineAmong_singleton (isAside_of_type known),
      List.nil_append, List.append_nil]
  exact (inner type (List.mem_of_getLast? ending) known).append written (by simp [AreBrackets])

end

/-- The name of a derived type is the one as which it is written, if it is written as one. -/
theorem names_typeName? {t : Tree} (derived : Derived t) (neat : t.Neat)
    (type : t.label ∈ anyTypes) : t.Names (typeName? t) := by
  -- The induction is on the derivation; arrays and annotated types have their types as parts.
  induction derived with
  | @leaf field label x lexeme nonempty =>
    by_cases named : label ∈ classTypes
    · exact (isNamed_of_classType (.leaf lexeme nonempty) neat named).names
    have primitive : label = .lexeme .voidWord ∨ label = .lexeme .booleanWord := by
      simp_all [anyTypes, simpleTypes, classTypes, Tree.label]
    rcases primitive with rfl | rfl <;>
      exact names_none_of_word rfl (by simp [primitiveWords])
  | @node field r p parts member body fills inner ih =>
    have derived : Derived (.node field r parts) := .node member body fills inner
    by_cases named : Label.rule r ∈ classTypes
    · exact (isNamed_of_classType derived neat named).names
    cases neat with
    | node neatInner last =>
      have names : ∀ part ∈ parts, part.label ∈ anyTypes → part.Names (typeName? part) :=
        fun part member => ih part member (neatInner part member)
      have rule : r = .integralType ∨ r = .floatingPointType ∨ r = .arrayType ∨
          r = .annotatedType := by
        simp_all [anyTypes, simpleTypes, classTypes, Tree.label]
      rcases rule with rfl | rfl | rfl | rfl
      · obtain ⟨word, written, primitive⟩ := exists_numberWord derived neatInner (by simp)
        exact names_none_of_word written primitive
      · obtain ⟨word, written, primitive⟩ := exists_numberWord derived neatInner (by simp)
        exact names_none_of_word written primitive
      · exact names_array neatInner names derived
      · exact names_annotated neatInner names derived (last (by simp))

end TypeGraph
