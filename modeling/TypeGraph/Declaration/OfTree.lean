import TypeGraph.Declaration.Basic
import TypeGraph.Java.Tree

/-! The declarations that a syntax tree holds. -/

namespace TypeGraph

open Java

/-- The text of a tree. -/
def Java.Tree.string (t : Tree) : String := String.ofList t.text

namespace TypeKind

/-- The kind of type that a rule declares. -/
def ofRule? : Rule → Option TypeKind
  | .classDeclaration => some .classType
  | .interfaceDeclaration => some .interfaceType
  | .enumDeclaration => some .enumType
  | .recordDeclaration => some .recordType
  | .annotationTypeDeclaration => some .annotationType
  | _ => none

end TypeKind

/-- Whether a part is the name of a type or of anything else. -/
def isPlainName (t : Tree) : Bool :=
  t.label = .typeIdentifier || t.label = .lexeme .identifier

mutual
/-- The last name of the outermost qualified name of a class type; primitive types have none. -/
def typeName? : Tree → Option String
  | .leaf field label lexeme =>
    if isPlainName (.leaf field label lexeme) then some (String.ofList lexeme.text) else none
  | .node _ .scopedTypeIdentifier parts =>
    (parts.reverse.find? fun part => part.label = .typeIdentifier).map (·.string)
  | .node _ .genericType parts => outerTypeName? parts
  | .node _ .arrayType parts => elementTypeName? parts
  | .node _ .annotatedType parts => lastTypeName? parts
  | .node _ _ _ => none
/-- The name of the type to which type arguments are applied. -/
def outerTypeName? : List Tree → Option String
  | [] => none
  | part :: rest =>
    if part.label = .typeIdentifier || part.isRule .scopedTypeIdentifier then typeName? part
    else outerTypeName? rest
/-- The name of the type of the elements of an array. -/
def elementTypeName? : List Tree → Option String
  | [] => none
  | part :: rest => if part.field = some .element then typeName? part else elementTypeName? rest
/-- The name that the last named part gives. -/
def lastTypeName? : List Tree → Option String
  | [] => none
  | part :: rest =>
    -- Annotations come before the type that they belong to.
    if rest.any fun later => later.label.isNamed then lastTypeName? rest
    else if part.label.isNamed then typeName? part
    else none
end

mutual
/-- The class types listed in a clause, in source order. -/
def listedTypes : Tree → List String
  | .leaf _ _ _ => []
  | .node _ _ parts => listedTypesAmong parts
/-- The class types listed among the parts of a clause. -/
def listedTypesAmong : List Tree → List String
  | [] => []
  | part :: rest =>
    (if part.isRule .typeList then listedTypes part else (typeName? part).toList) ++
      listedTypesAmong rest
end

/-- The types in the clause that a field names. -/
def clauseTypes (parts : List Tree) (field : Field) : List String :=
  ((parts.find? fun part => part.field = some field).map listedTypes).getD []

/-- The types that a declaration of some kind extends. -/
def extendedTypes (kind : TypeKind) (parts : List Tree) : List String :=
  match kind with
  | .classType => clauseTypes parts .superclass
  | .interfaceType =>
    ((parts.find? fun part => part.isRule .extendsInterfaces).map listedTypes).getD []
  | _ => []

/-- The text of the part that a field names. -/
def textOf? (parts : List Tree) (field : Field) : Option String :=
  (parts.find? fun part => part.field = some field).map (·.string)

/-- The name on which a method is called: a plain name, or a field of this object. -/
def receiver? (parts : List Tree) : Option String :=
  match parts.find? fun part => part.field = some .object with
  | some (.leaf _ (.lexeme .identifier) lexeme) => some (String.ofList lexeme.text)
  | some (.node _ .fieldAccess inner) =>
    -- Only a field of this object is followed, not one of any other.
    match inner.find? fun part => part.field = some .object with
    | some (.leaf _ (.lexeme .thisWord) _) => textOf? inner .member
    | _ => none
  | _ => none

/-- The call that a phrase makes itself, apart from those inside it. -/
def callOf? (rule : Rule) (parts : List Tree) : Option Call :=
  match rule with
  | .methodInvocation => (textOf? parts .name).map (.invocation (receiver? parts))
  | .objectCreationExpression =>
    ((parts.find? fun part => part.field = some .type).bind typeName?).map .creation
  | _ => none

/-- The lines from the first lexeme of a phrase to the last. -/
def spanOf (t : Tree) : Span := ⟨t.startRow + 1, t.stopRow + 1⟩

/-- The variables that a field declaration declares. -/
def declaredNames (parts : List Tree) : List String :=
  (parts.filter fun part => part.isRule .variableDeclarator).filterMap fun part =>
    textOf? part.parts .name

/-- The type that the parts of a declaration name, with members found elsewhere. -/
def TypeKind.declare? (kind : TypeKind) (parts : List Tree) (members : List Member) :
    Option TypeDecl :=
  (textOf? parts .name).map fun name =>
    .mk kind name (extendedTypes kind parts) (clauseTypes parts .interfaces) members

mutual
/-- The type that a phrase declares, if it is a type declaration. -/
def declared? : Tree → Option TypeDecl
  | .leaf _ _ _ => none
  | .node _ rule parts =>
    match TypeKind.ofRule? rule with
    | some kind => kind.declare? parts (membersOfBody parts)
    | none => none
/-- The members in the body among the parts of a declaration. -/
def membersOfBody : List Tree → List Member
  | [] => []
  | part :: rest =>
    if part.field = some .body then membersOf part else membersOfBody rest
/-- The members that a phrase holds as its parts. -/
def membersOf : Tree → List Member
  | .leaf _ _ _ => []
  | .node _ _ parts => membersAmong parts
/-- The members among some parts; those after the constants of an enum stand one level deeper. -/
def membersAmong : List Tree → List Member
  | [] => []
  | part :: rest =>
    (if part.isRule .enumBodyDeclarations then membersOf part else (member? part).toList) ++
      membersAmong rest
/-- The member that a part of a body declares. -/
def member? : Tree → Option Member
  | .leaf _ _ _ => none
  | .node field rule parts =>
    match rule with
    | .methodDeclaration => (textOf? parts .name).map fun name =>
      .method name (spanOf (.node field rule parts)) (contentOfBody parts)
    | .fieldDeclaration | .constantDeclaration =>
      some (.field ((parts.find? fun part => part.field = some .type).bind typeName?)
        (declaredNames parts) (content parts))
    | .constructorDeclaration | .compactConstructorDeclaration =>
      some (.construction (content parts))
    | .block | .staticInitializer | .enumConstant => some (.initializer (content parts))
    -- Any other part is a type, or no member at all.
    | rule => match TypeKind.ofRule? rule with
      | some kind => (kind.declare? parts (membersOfBody parts)).map .type
      | none => none
/-- The executable content of the body among the parts of a method. -/
def contentOfBody : List Tree → Body
  | [] => .empty
  | part :: rest => if part.field = some .body then contentOf part else contentOfBody rest
/-- The executable content of the parts of a phrase. -/
def contentOf : Tree → Body
  | .leaf _ _ _ => .empty
  | .node _ _ parts => content parts
/-- The calls and types among some parts and below, but not what lies inside those types. -/
def content : List Tree → Body
  | [] => .empty
  | part :: rest => (contentAt part).append (content rest)
/-- The calls and types that a part makes up or holds. -/
def contentAt : Tree → Body
  | .leaf _ _ _ => .empty
  | .node _ rule parts =>
    match TypeKind.ofRule? rule with
    -- A type keeps all that lies inside it to itself.
    | some kind => .mk [] (kind.declare? parts (membersOfBody parts)).toList
    | none => (content parts).withCall (callOf? rule parts)
end

/-- The name in a package or import declaration. -/
def qualifiedName? (parts : List Tree) : Option String :=
  ((parts.find? fun part => part.isRule .scopedIdentifier) <|>
    (parts.find? fun part => part.label = .lexeme .identifier)).map (·.string)

/-- The import that a phrase declares. -/
def import? (t : Tree) : Option Import :=
  if t.isRule .importDeclaration then
    (qualifiedName? t.parts).map fun path =>
      ⟨path, t.parts.any fun part => part.label = .lexeme .staticWord,
        t.parts.any fun part => part.isRule .asterisk⟩
  else none

/-- The package that the last package declaration names. -/
def packageOf (statements : List Tree) : Option String :=
  statements.foldl (fun package t =>
    if t.isRule .packageDeclaration then qualifiedName? t.parts else package) none

/-- The declarations of a source file. -/
def CompilationUnit.ofTree (path : String) (t : Tree) : CompilationUnit :=
  ⟨path, packageOf t.parts, t.parts.filterMap import?, t.parts.filterMap declared?⟩

end TypeGraph
