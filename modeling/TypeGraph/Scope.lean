import TypeGraph.Declaration.Walk
import TypeGraph.Settings.Basic

/-! What simple names stand for in a source file. -/

namespace TypeGraph

/-- The names that a source file imports or declares, with what they stand for. -/
structure Scope where
  /-- Simple names of imported types, in source order. -/
  imported : List (String × String)
  /-- Simple names of declared types outside executable content, outer ones first. -/
  declared : List (String × String)
deriving DecidableEq, Repr

namespace Scope

/-- The names of a source file. -/
def ofUnit (u : CompilationUnit) : Scope where
  imported := u.imports.filterMap fun i => i.simpleName?.map (·, i.path)
  declared := u.visits.filterMap fun v => v.qualified?.map (v.decl.name, ·)

/-- What a simple name stands for: the last import of it, else the first type declared so. -/
def lookup (s : Scope) (simple : String) : Option String :=
  ((s.imported.reverse.find? fun entry => entry.1 == simple) <|>
    s.declared.find? fun entry => entry.1 == simple).map (·.2)

end Scope

/-- A way in which types and the targets of edges get qualified names. -/
inductive Resolver where
  /-- All names stay as written. -/
  | unresolved
  /-- Names are qualified as packages, imports and declarations tell, where this is asked for. -/
  | syntactic (types targets : Bool)
deriving DecidableEq, Repr

namespace Resolver

/-- The qualified name that a type goes by. -/
def typeName? : Resolver → Visit → Option String
  | unresolved, _ => none
  | syntactic types _, v => if types then v.qualified? else none

/-- The qualified name that a written name stands for. -/
def targetName? : Resolver → Scope → String → Option String
  | unresolved, _, _ => none
  | syntactic _ targets, scope, written => if targets then scope.lookup written else none

end Resolver

namespace Settings

/-- The resolver that settings ask for. -/
def resolver (s : Settings) : Resolver :=
  if s.resolveNames || s.resolveTargets then .syntactic s.resolveNames s.resolveTargets
  else .unresolved

@[simp] theorem typeName?_resolver (s : Settings) (v : Visit) :
    s.resolver.typeName? v = if s.resolveNames then v.qualified? else none := by
  -- What leaves all names as written does as what is asked to qualify none.
  unfold resolver
  cases s.resolveNames <;> cases s.resolveTargets <;> rfl

@[simp] theorem targetName?_resolver (s : Settings) (scope : Scope) (written : String) :
    s.resolver.targetName? scope written =
      if s.resolveTargets then scope.lookup written else none := by
  unfold resolver
  cases s.resolveNames <;> cases s.resolveTargets <;> rfl

/-- The qualified name that a type goes by, if types go by qualified names. -/
def className? (s : Settings) (v : Visit) : Option String := s.resolver.typeName? v

/-- The qualified name that a written name stands for, if targets go by qualified names. -/
def targetName? (s : Settings) (scope : Scope) (written : String) : Option String :=
  s.resolver.targetName? scope written

end Settings

end TypeGraph
