import TypeGraph.Declaration.Basic

/-! The types of a source file in the order of their declarations, with the places they stand in. -/

namespace TypeGraph

/-- Where a type declaration stands. -/
inductive Enclosing where
  /-- At the top of a file of some package. -/
  | unit (package : Option String)
  /-- Among the members of a type with a qualified name or none. -/
  | type (qualified : Option String)
  /-- In executable content. -/
  | body
deriving DecidableEq, Repr

/-- The qualified name of a type by its place; types in executable content have none. -/
def Enclosing.qualify : Enclosing → String → Option String
  | unit (some package), name => some (package ++ "." ++ name)
  | unit none, name => some name
  | type (some outer), name => some (outer ++ "." ++ name)
  -- What has no qualified name gives none to the types inside it.
  | type none, _ => none
  | body, _ => none

/-- A type met on a walk through the declarations. -/
structure Visit where
  decl : TypeDecl
  enclosing : Enclosing

/-- The qualified name of a type met on a walk. -/
def Visit.qualified? (v : Visit) : Option String := v.enclosing.qualify v.decl.name

mutual
/-- A declared type and all types inside it, outer ones first. -/
def TypeDecl.visits (enclosing : Enclosing) : TypeDecl → List Visit
  | .mk kind name extended implemented members =>
    ⟨.mk kind name extended implemented members, enclosing⟩ ::
      Member.visitsAll (.type (enclosing.qualify name)) members
/-- Several declared types of one place and all types inside them. -/
def TypeDecl.visitsAll (enclosing : Enclosing) : List TypeDecl → List Visit
  | [] => []
  | decl :: rest => decl.visits enclosing ++ TypeDecl.visitsAll enclosing rest
/-- The types in a member. -/
def Member.visits (enclosing : Enclosing) : Member → List Visit
  | .method _ _ body => body.visits
  | .field _ _ body => body.visits
  | .construction body => body.visits
  | .initializer body => body.visits
  | .type decl => decl.visits enclosing
/-- The types in several members. -/
def Member.visitsAll (enclosing : Enclosing) : List Member → List Visit
  | [] => []
  | member :: rest => member.visits enclosing ++ Member.visitsAll enclosing rest
/-- The types in executable content. -/
def Body.visits : Body → List Visit
  | .mk _ types => TypeDecl.visitsAll .body types
end

/-- The types of a source file, outer ones first. -/
def CompilationUnit.visits (u : CompilationUnit) : List Visit :=
  TypeDecl.visitsAll (.unit u.package) u.types

end TypeGraph
