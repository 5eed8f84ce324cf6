/-! The declarations of a source file, reduced to what the type graph is made from. -/

namespace TypeGraph

/-- The lines that a declaration covers, counted from one. -/
structure Span where
  first : Nat
  last : Nat
deriving DecidableEq, Repr

/-- How many line ends a span holds. -/
def Span.lines (s : Span) : Nat := s.last - s.first

/-- The part of a dotted name after its last dot. -/
def lastSegment (name : String) : String :=
  String.ofList (name.toList.reverse.takeWhile (· ≠ '.')).reverse

/-- An import of a source file. -/
structure Import where
  /-- The dotted name as written, without a final asterisk. -/
  path : String
  isStatic : Bool
  isWildcard : Bool
deriving DecidableEq, Repr

/-- The name that an import of a single type brings into the file. -/
def Import.simpleName? (i : Import) : Option String :=
  if i.isWildcard || i.isStatic then none else some (lastSegment i.path)

/-- The kinds of type declarations. -/
inductive TypeKind where
  | classType | interfaceType | enumType | recordType | annotationType
deriving DecidableEq, Repr

/-- Something that executable code calls. -/
inductive Call where
  /-- A method, called on a receiver that has a plain name or on none. -/
  | invocation (receiver : Option String) (method : String)
  /-- A type of which an object is created. -/
  | creation (type : String)
deriving DecidableEq, Repr

mutual
/-- The declaration of a type; other types are referred to by simple names. -/
inductive TypeDecl where
  | mk (kind : TypeKind) (name : String) (extended implemented : List String)
      (members : List Member)
/-- A member of a type. -/
inductive Member where
  | method (name : String) (span : Span) (body : Body)
  /-- A field declaration, with the type unless it is primitive. -/
  | field (type : Option String) (names : List String) (body : Body)
  | construction (body : Body)
  | initializer (body : Body)
  | type (decl : TypeDecl)
/-- The executable content of a member: its calls and the types declared in it. -/
inductive Body where
  | mk (calls : List Call) (types : List TypeDecl)
end

namespace TypeDecl

/-- The kind of a declared type. -/
def kind : TypeDecl → TypeKind
  | mk kind _ _ _ _ => kind

/-- The simple name of a declared type. -/
def name : TypeDecl → String
  | mk _ name _ _ _ => name

/-- The types that a declaration extends, in source order. -/
def extended : TypeDecl → List String
  | mk _ _ extended _ _ => extended

/-- The types that a declaration implements, in source order. -/
def implemented : TypeDecl → List String
  | mk _ _ _ implemented _ => implemented

/-- The members of a declared type, in source order. -/
def members : TypeDecl → List Member
  | mk _ _ _ _ members => members

/-- The names and spans of the methods that a type declares itself. -/
def methods (d : TypeDecl) : List (String × Span) :=
  d.members.filterMap fun
    | .method name span _ => some (name, span)
    | _ => none

/-- The types and names of the field declarations of a type. -/
def fields (d : TypeDecl) : List (Option String × List String) :=
  d.members.filterMap fun
    | .field type names _ => some (type, names)
    | _ => none

end TypeDecl

namespace Body

/-- A body without content. -/
def empty : Body := mk [] []

/-- The calls of a body, in source order. -/
def calls : Body → List Call
  | mk calls _ => calls

/-- The types declared in a body, in source order. -/
def types : Body → List TypeDecl
  | mk _ types => types

/-- The content of two bodies in turn. -/
def append (first second : Body) : Body :=
  mk (first.calls ++ second.calls) (first.types ++ second.types)

/-- A body that starts with one more call, if there is one. -/
def withCall (call : Option Call) (b : Body) : Body :=
  match call with
  | some call => mk (call :: b.calls) b.types
  | none => b

end Body

/-- The executable content of a member; a type inside the member owns its content itself. -/
def Member.body? : Member → Option Body
  | .method _ _ body | .field _ _ body | .construction body | .initializer body => some body
  | .type _ => none

/-- The executable contents that belong to a type itself. -/
def TypeDecl.bodies (d : TypeDecl) : List Body := d.members.filterMap Member.body?

/-- The declarations of one source file. -/
structure CompilationUnit where
  path : String
  package : Option String
  imports : List Import
  types : List TypeDecl

end TypeGraph
