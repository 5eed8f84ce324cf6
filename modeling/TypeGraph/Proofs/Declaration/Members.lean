import TypeGraph.Proofs.Declaration.Calls
import TypeGraph.Proofs.Java.Fits

/-! Members of each kind, such as the fields of a type, stand in the body of its declaration. -/

namespace TypeGraph

open Java

/-- A kind of members, such as fields: what there is to know about one of them, where it is
declared, and when what is known is true of its declaration. -/
structure MemberKind (α : Type) where
  of? : Member → Option α
  declares : Standing → Java.Tree → Bool
  tells : α → Java.Tree → Prop
  /-- A declaration of a type and its body are no members themselves. -/
  outside : ∀ s t, s = .declaration ∨ s = .members → declares s t = false

namespace MemberKind

variable {α : Type} (k : MemberKind α)

/-- Whether a member of the kind is declared at a spot. -/
def isAt (x : Spot) : Bool := k.declares x.standing x.tree

/-- Whether the members of the kind among some members are those declared at some spots, in their
order. -/
def At (members : List Member) (xs : List Spot) : Prop :=
  List.Forall₂ (fun a (x : Spot) => k.tells a x.tree) (members.filterMap k.of?) (xs.filter k.isAt)

variable {k}

namespace At

variable {members members' : List Member} {xs ys : List Spot}

theorem nil : k.At [] [] := List.Forall₂.nil

/-- Members in turn are declared at the spots in turn. -/
theorem append (front : k.At members xs) (back : k.At members' ys) :
    k.At (members ++ members') (xs ++ ys) := by
  rw [At, List.filterMap_append, List.filter_append]
  exact List.rel_append front back

/-- Seen from farther up, the spots declare the same. -/
theorem under (holds : k.At members xs) (i : Nat) : k.At members (xs.map (Spot.under i)) := by
  rw [At, List.filter_map, List.forall₂_map_right_iff]
  exact holds

/-- A spot where no member is declared adds none. -/
theorem idle (holds : k.At members xs) {x : Spot}
    (other : x.standing = .declaration ∨ x.standing = .members) : k.At members (x :: xs) := by
  rw [At, List.filter_cons_of_neg (by simp [isAt, k.outside _ _ other])]
  exact holds

/-- Members of other kinds stand where none of the kind is declared. -/
theorem of_none (others : ∀ m ∈ members, k.of? m = none) (spots : ∀ x ∈ xs, k.isAt x = false) :
    k.At members xs := by
  have empty : members.filterMap k.of? = [] := List.filterMap_eq_nil_iff.mpr others
  rw [At, empty, List.filter_eq_nil_iff.mpr (by simpa using spots)]
  exact .nil

end At

end MemberKind

/-- Where only the body of a declaration is entered, all spots are in it. -/
theorem spotsAmong_enter (around : Standing) {s : Standing} (parts : List Java.Tree)
    (enter : ∀ k part, around.enter parts k part =
      if bodyIndex? parts = some k then some s else none) :
    ∃ j, spotsAmong (around.enter parts) 0 parts =
      ((parts.find? fun part => part.field = some .body).map fun part =>
        (spots s part).map (Spot.under j)).getD [] := by
  have same : around.enter parts = _ := funext₂ enter
  rw [same]
  simpa using spotsAmong_body s parts 0

namespace MemberKind

variable {α : Type} {k : MemberKind α}

/-- The members of the kind among some parts stand there. -/
theorem at_membersAmong {parts : List Java.Tree}
    (each : ∀ part ∈ parts, k.At
      (if part.isRule .enumBodyDeclarations then membersOf part else (member? part).toList)
      ((part.memberStanding?.map fun s => spots s part).getD [])) (i : Nat) :
    k.At (membersAmong parts) (spotsAmong (fun _ part => part.memberStanding?) i parts) := by
  induction parts generalizing i with
  | nil => exact .nil
  | cons part rest ih =>
    obtain ⟨here, later⟩ := List.forall_mem_cons.mp each
    rw [membersAmong, spotsAmong]
    refine .append ?_ (ih later (i + 1))
    have holds := here.under i
    cases standing : part.memberStanding? with
    | none => simpa [standing] using holds
    | some s => simpa [standing] using holds

section

variable (lowered : ∀ part, Derived part → part.Neat → part.isRule .enumBodyDeclarations = false →
  k.At (member? part).toList ((part.memberStanding?.map fun s => spots s part).getD []))
include lowered

/-- The members of the kind that a derived phrase holds stand in it, if each stands where it is
lowered from. -/
theorem at_membersOf {t : Java.Tree} (derived : Derived t) (neat : t.Neat) :
    k.At (membersOf t) (spots .members t) := by
  -- The induction is on the derivation; what follows the constants of an enum holds members, too.
  induction derived with
  | leaf => exact At.nil.idle (.inr rfl)
  | @node field r p parts member body fills inner ih =>
    refine (at_membersAmong (fun part among => ?_) 0).idle (.inr rfl)
    cases holds : part.isRule .enumBodyDeclarations with
    | false => exact lowered part (inner part among) (neat.parts part among) holds
    | true =>
      have members := ih part among (neat.parts part among)
      cases part with
      | leaf =>
        cases inner _ among with
        | leaf lexeme =>
          have phrase := of_decide_eq_true holds
          exact absurd phrase (lexeme _)
      | node _ r parts =>
        obtain rfl : r = .enumBodyDeclarations := by
          simpa [Java.Tree.isRule, Java.Tree.label] using holds
        exact members

/-- The members of the kind that a declared type has stand in its declaration. -/
theorem at_declaration {t : Java.Tree} {d : TypeDecl} (derived : Derived t) (neat : t.Neat)
    (declared : declared? t = some d) : k.At d.members (spots .declaration t) := by
  obtain ⟨d', declared', members⟩ := exists_declared derived (declares_of_declared declared)
  obtain rfl : d = d' := Option.some.inj (declared.symm.trans declared')
  cases t with
  | leaf => cases declared
  | node field r parts =>
    -- All members stand in the body of the declaration.
    obtain ⟨j, spotted⟩ := spotsAmong_enter .declaration parts fun _ _ => rfl
    rw [members, Java.Tree.parts, membersOfBody_eq, spots, spotted]
    refine At.idle ?_ (.inl rfl)
    cases found : parts.find? fun part => part.field = some .body with
    | none => exact .nil
    | some part =>
      have among := List.mem_of_find?_eq_some found
      exact (at_membersOf lowered (derived.inner part among) (neat.parts part among)).under j

end

end MemberKind

end TypeGraph
