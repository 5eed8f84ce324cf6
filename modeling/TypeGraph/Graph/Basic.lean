import TypeGraph.Record

/-! The graph whose nodes are classes and the types outside the project that they depend on. -/

namespace TypeGraph

/-- A class of the project, or a type outside it. -/
structure Node where
  name : String
  /-- Whether the type is only known as the target of an edge. -/
  external : Bool
deriving DecidableEq, Repr

/-- A dependency between two nodes, told by their positions. -/
structure Edge where
  source : Nat
  target : Nat
  kind : EdgeKind
deriving DecidableEq, Repr

/-- A graph of types. -/
structure ClassGraph where
  nodes : List Node
  edges : List Edge
deriving DecidableEq, Repr

namespace ClassGraph

/-- How many classes, external types, and edges to either a graph has. -/
structure Summary where
  classes : Nat
  externalTargets : Nat
  internalEdges : Nat
  externalEdges : Nat
deriving DecidableEq, Repr

/-- Whether an edge leads to a type outside the project. -/
def leadsOutside (g : ClassGraph) (e : Edge) : Bool :=
  match g.nodes[e.target]? with
  | some node => node.external
  | none => false

/-- The counts of a graph. -/
def summary (g : ClassGraph) : Summary :=
  let outside := g.nodes.countP (·.external)
  let leading := g.edges.countP g.leadsOutside
  ⟨g.nodes.length - outside, outside, g.edges.length - leading, leading⟩

end ClassGraph

/-- A graph in the making. Simple names are kept for the first record of every class. -/
structure GraphBuilder where
  nodes : List Node
  /-- The simple name under which a class was added, with the position of its node. -/
  simpleNames : List (String × Nat)
  edges : List Edge
deriving DecidableEq, Repr

namespace GraphBuilder

/-- A graph without nodes. -/
def empty : GraphBuilder := ⟨[], [], []⟩

/-- The position of the node with exactly this name. -/
def indexOf? (b : GraphBuilder) (name : String) : Option Nat :=
  b.nodes.findIdx? fun node => node.name == name

/-- Add a class unless its name is known, and tell its position. -/
def addClass (b : GraphBuilder) (name simpleName : String) : GraphBuilder × Nat :=
  match b.indexOf? name with
  | some index => (b, index)
  | none =>
    let index := b.nodes.length
    ({ b with nodes := b.nodes ++ [⟨name, false⟩]
              simpleNames := b.simpleNames ++ [(simpleName, index)] }, index)

/-- The positions of the classes added under a simple name. -/
def indicesOf (b : GraphBuilder) (simpleName : String) : List Nat :=
  (b.simpleNames.filter fun entry => entry.1 == simpleName).map (·.2)

/-- The node that a name means: the one so named, else the only class with that simple name. -/
def resolve (b : GraphBuilder) (target : String) : Option Nat :=
  match b.indexOf? target with
  | some index => some index
  -- A simple name counts only if a single class goes by it.
  | none => match b.indicesOf target with
    | [only] => some only
    | _ => none

/-- The node that a name means, where an unknown name becomes an external type. -/
def resolveOrAdd (b : GraphBuilder) (target : String) : GraphBuilder × Nat :=
  match b.resolve target with
  | some index => (b, index)
  | none => ({ b with nodes := b.nodes ++ [⟨target, true⟩] }, b.nodes.length)

/-- Add a dependency of the class at a position. -/
def addDependency (b : GraphBuilder) (source : Nat) (d : Dependency) : GraphBuilder :=
  let (b, target) := b.resolveOrAdd d.target
  { b with edges := b.edges ++ [⟨source, target, d.kind⟩] }

/-- Add the classes of some records, with the position of each. -/
def addClasses (b : GraphBuilder) : List TypeRecord → GraphBuilder × List (Nat × TypeRecord)
  | [] => (b, [])
  | r :: rest =>
    let (b, index) := b.addClass r.className r.simpleName
    let (b, placed) := b.addClasses rest
    (b, (index, r) :: placed)

/-- The graph made so far. -/
def graph (b : GraphBuilder) : ClassGraph := ⟨b.nodes, b.edges⟩

end GraphBuilder

/-- The graph of a document: all classes come first, then the dependencies of each in turn. -/
def ClassGraph.ofDocument (d : Document) : ClassGraph :=
  -- What a target means is settled by all classes, so they are added before any edge.
  let (b, placed) := GraphBuilder.empty.addClasses d.classes
  (placed.foldl (fun b (source, r) =>
    r.dependencies.foldl (fun b dependency => b.addDependency source dependency) b) b).graph

end TypeGraph
