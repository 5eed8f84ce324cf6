import Mathlib.Data.List.Basic
import TypeGraph.Declaration.OfTree

/-! How the parts of a syntax tree stand to the type declarations around them. -/

namespace TypeGraph

open Java

/-- The way from a tree down to a part: at each step, the position of the part to go to. -/
abbrev Way := List Nat

/-- The kind of type that a tree declares, if it is a type declaration. -/
def Java.Tree.kind? : Java.Tree → Option TypeKind
  | .leaf _ _ _ => none
  | .node _ rule _ => TypeKind.ofRule? rule

/-- How a part of a syntax tree stands to the innermost type declaration around it. -/
inductive Standing where
  /-- It is the whole file. -/
  | file
  /-- It is the type declaration itself. -/
  | declaration
  /-- It holds members: the body of the type, or what follows the constants of an enum. -/
  | members
  /-- It is a method among the members. -/
  | method
  /-- It is executable: the body of a method, or a member of another kind. -/
  | code
  /-- It lies in something executable. -/
  | content
  /-- It is another type declaration, inside this one or the file. -/
  | type
deriving DecidableEq, Repr

/-- How a part of a body stands by its rule, if it is a member or holds members. -/
def Java.Rule.memberStanding? : Rule → Option Standing
  | .enumBodyDeclarations => some .members
  | .methodDeclaration => some .method
  | .fieldDeclaration | .constantDeclaration | .constructorDeclaration
  | .compactConstructorDeclaration | .block | .staticInitializer | .enumConstant => some .code
  | rule => if (TypeKind.ofRule? rule).isSome then some .type else none

/-- How a part of a body stands, if it is a member or holds members. -/
def Java.Tree.memberStanding? : Java.Tree → Option Standing
  | .leaf _ _ _ => none
  | .node _ rule _ => rule.memberStanding?

/-- How a part of something executable stands. -/
def Java.Tree.contentStanding (t : Java.Tree) : Standing :=
  if t.kind?.isSome then .type else .content

/-- The position of the part that the field of a body names. -/
def bodyIndex? (parts : List Java.Tree) : Option Nat :=
  parts.findIdx? fun part => part.field = some .body

/-- How the part at some position stands, if it matters, where the tree around it has some parts
and a standing of its own. What lies inside another type is a matter of that type. -/
def Standing.enter (s : Standing) (parts : List Java.Tree) (i : Nat) (part : Java.Tree) :
    Option Standing :=
  match s with
  | .file => if part.kind?.isSome then some .type else none
  | .declaration => if bodyIndex? parts = some i then some .members else none
  | .members => part.memberStanding?
  | .method => if bodyIndex? parts = some i then some .code else none
  | .code | .content => some part.contentStanding
  | .type => none

/-- In a tree of some standing, the part at the end of a way has a standing, too. -/
inductive Stands : Standing → Java.Tree → Way → Standing → Java.Tree → Prop where
  /-- The tree itself. -/
  | here {s : Standing} {t : Java.Tree} : Stands s t [] s t
  /-- What stands in a part of the tree. -/
  | part {s s' last : Standing} {t part far : Java.Tree} {i : Nat} {w : Way} :
      t.parts[i]? = some part → s.enter t.parts i part = some s' → Stands s' part w last far →
      Stands s t (i :: w) last far

/-- A part of a tree with the way to it and its standing. -/
structure Spot where
  way : Way
  standing : Standing
  tree : Java.Tree

/-- A spot seen from the tree around the part that it lies in. -/
def Spot.under (i : Nat) (x : Spot) : Spot := { x with way := i :: x.way }

mutual
/-- All spots of a tree of some standing, outer ones first. -/
def spots (s : Standing) : Java.Tree → List Spot
  | .leaf field label lexeme => [⟨[], s, .leaf field label lexeme⟩]
  | .node field rule parts => ⟨[], s, .node field rule parts⟩ :: spotsAmong (s.enter parts) 0 parts
/-- All spots in some parts, whose standings are given by their positions. -/
def spotsAmong (enter : Nat → Java.Tree → Option Standing) : Nat → List Java.Tree → List Spot
  | _, [] => []
  | i, part :: rest =>
    (match enter i part with
    | some s => (spots s part).map (Spot.under i)
    | none => []) ++ spotsAmong enter (i + 1) rest
end

mutual
/-- The spots of a tree are all parts that have a standing. -/
theorem mem_spots {s : Standing} {t : Java.Tree} {x : Spot} :
    x ∈ spots s t ↔ Stands s t x.way x.standing x.tree := by
  -- The list takes the same steps as the way: here, or on into a part with a standing.
  obtain ⟨way, standing, tree⟩ := x
  match t with
  | .leaf field label lexeme =>
    simp only [spots, List.mem_singleton, Spot.mk.injEq]
    constructor
    · rintro ⟨rfl, rfl, rfl⟩
      exact .here
    · intro stands
      cases stands with
      | here => exact ⟨rfl, rfl, rfl⟩
      | part found => simp [Java.Tree.parts] at found
  | .node field rule parts =>
    simp only [spots, List.mem_cons, Spot.mk.injEq]
    constructor
    · rintro (⟨rfl, rfl, rfl⟩ | inside)
      · exact .here
      · obtain ⟨j, part, s', w, found, entered, rfl, stands⟩ := mem_spotsAmong.mp inside
        rw [Nat.zero_add] at entered ⊢
        exact .part found entered stands
    · intro stands
      cases stands with
      | here => exact .inl ⟨rfl, rfl, rfl⟩
      | @part _ s' _ _ part _ i w found entered stands =>
        exact .inr (mem_spotsAmong.mpr
          ⟨i, part, s', w, found, by rwa [Nat.zero_add], by rw [Nat.zero_add], stands⟩)
/-- The spots in some parts are those of the parts that have a standing. -/
theorem mem_spotsAmong {enter : Nat → Java.Tree → Option Standing} {i : Nat}
    {parts : List Java.Tree} {x : Spot} : x ∈ spotsAmong enter i parts ↔
      ∃ j part s w, parts[j]? = some part ∧ enter (i + j) part = some s ∧
        x.way = (i + j) :: w ∧ Stands s part w x.standing x.tree := by
  -- A way enters the first part, or a later one, whose position is one higher.
  match parts with
  | [] => simp [spotsAmong]
  | part :: rest =>
    rw [spotsAmong, List.mem_append]
    have later : x ∈ spotsAmong enter (i + 1) rest ↔ _ := mem_spotsAmong
    rw [later]
    constructor
    · rintro (here | ⟨j, other, s, w, found, entered, way, stands⟩)
      · split at here
        · rename_i s entered
          obtain ⟨y, inside, rfl⟩ := List.mem_map.mp here
          exact ⟨0, part, s, y.way, rfl, entered, rfl, mem_spots.mp inside⟩
        · cases here
      · have shift : i + 1 + j = i + (j + 1) := by omega
        rw [shift] at entered way
        exact ⟨j + 1, other, s, w, found, entered, way, stands⟩
    · rintro ⟨j, other, s, w, found, entered, way, stands⟩
      cases j with
      | zero =>
        obtain rfl : part = other := Option.some.inj found
        left
        rw [Nat.add_zero] at entered way
        simp only [entered]
        exact List.mem_map.mpr ⟨⟨w, x.standing, x.tree⟩, mem_spots.mpr stands, by
          obtain ⟨_, _, _⟩ := x
          subst way
          rfl⟩
      | succ j =>
        have shift : i + (j + 1) = i + 1 + j := by omega
        rw [shift] at entered way
        exact .inr ⟨j, other, s, w, found, entered, way, stands⟩
end

/-- Spots of one part come in the order that they have within the part. -/
theorem pairwise_under {i : Nat} {xs : List Spot} (ordered : xs.Pairwise fun x y => x.way < y.way) :
    (xs.map (Spot.under i)).Pairwise fun x y => x.way < y.way := by
  -- A common first step does not matter to the order of ways.
  refine List.pairwise_map.mpr (ordered.imp fun before => ?_)
  exact List.cons_lt_cons_iff.mpr (.inr ⟨rfl, before⟩)

mutual
/-- The spots of a tree come in the order of their ways. -/
theorem pairwise_spots (s : Standing) (t : Java.Tree) :
    (spots s t).Pairwise fun x y => x.way < y.way := by
  -- The way to the tree itself is empty, and all others come after it.
  match t with
  | .leaf _ _ _ => exact List.pairwise_singleton _ _
  | .node _ _ parts =>
    refine List.pairwise_cons.mpr ⟨fun y inside => ?_, pairwise_spotsAmong _ 0 parts⟩
    obtain ⟨j, part, s', w, -, -, way, -⟩ := mem_spotsAmong.mp inside
    rw [way]
    exact List.nil_lt_cons _ _
/-- The spots in some parts come in the order of their ways. -/
theorem pairwise_spotsAmong (enter : Nat → Java.Tree → Option Standing) (i : Nat)
    (parts : List Java.Tree) : (spotsAmong enter i parts).Pairwise fun x y => x.way < y.way := by
  -- Within a part the order is known, and the parts come one after the other.
  match parts with
  | [] => exact List.Pairwise.nil
  | part :: rest =>
    refine List.pairwise_append.mpr ⟨?_, pairwise_spotsAmong enter (i + 1) rest, ?_⟩
    · split
      · exact pairwise_under (pairwise_spots _ part)
      · exact List.Pairwise.nil
    · -- The ways into a later part have a greater position at the first step.
      intro x here y later
      obtain ⟨j, other, s, w, -, -, way, -⟩ := mem_spotsAmong.mp later
      split at here
      · obtain ⟨z, -, rfl⟩ := List.mem_map.mp here
        rw [way]
        exact List.cons_lt_cons_iff.mpr (.inl (by omega))
      · cases here
end

/-- A way in two stretches leads through the part at the end of the first. -/
theorem Stands.split {s last : Standing} {t far : Java.Tree} {v w : Way}
    (stands : Stands s t (v ++ w) last far) :
    ∃ middle part, Stands s t v middle part ∧ Stands middle part w last far := by
  -- The first stretch is followed step by step.
  induction v generalizing s t with
  | nil => exact ⟨s, t, .here, stands⟩
  | cons i v ih =>
    cases stands with
    | part found entered stands =>
      obtain ⟨middle, part, first, second⟩ := ih stands
      exact ⟨middle, part, .part found entered first, second⟩

/-- One way leads to one part with one standing. -/
theorem Stands.unique {s last last' : Standing} {t far far' : Java.Tree} {w : Way}
    (stands : Stands s t w last far) (other : Stands s t w last' far') :
    last = last' ∧ far = far' := by
  -- At every step the position gives the part, and the part its standing.
  induction stands with
  | here =>
    cases other
    exact ⟨rfl, rfl⟩
  | part found entered _ ih =>
    cases other with
    | part found' entered' other =>
      rw [found] at found'
      obtain rfl := Option.some.inj found'
      rw [entered] at entered'
      obtain rfl := Option.some.inj entered'
      exact ih other

end TypeGraph
