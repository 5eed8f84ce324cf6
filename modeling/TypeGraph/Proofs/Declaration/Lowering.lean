import Mathlib.Data.List.Forall2
import TypeGraph.Proofs.Declaration.Phrases

/-! What is lowered from a syntax tree: the types and calls that stand in it, in their order. -/

namespace TypeGraph

open Java

/-- What a member holds itself: its executable content, or the type that it declares. -/
def Member.gist : Member → Body
  | .type decl => .mk [] [decl]
  | .method _ _ body | .field _ _ body | .construction body | .initializer body => body

/-- What several members hold in turn. -/
def gistAll : List Member → Body
  | [] => .empty
  | member :: rest => member.gist.append (gistAll rest)

@[simp] theorem Body.empty_append (b : Body) : Body.empty.append b = b := by
  cases b
  rfl

@[simp] theorem Body.append_empty (b : Body) : b.append .empty = b := by
  cases b
  simp [append, empty, calls, types]

theorem gistAll_append (first second : List Member) :
    gistAll (first ++ second) = (gistAll first).append (gistAll second) := by
  -- Members are held in turn, one after the other.
  induction first with
  | nil => simp [gistAll]
  | cons member rest ih => simp [gistAll, ih, Body.append, Body.calls, Body.types]

/-- Whether content has the types and calls at some spots, in their order. -/
structure Shows (b : Body) (xs : List Spot) : Prop where
  types : List.Forall₂ (fun d (x : Spot) => declared? x.tree = some d) b.types
    (xs.filter fun x => x.standing = .type)
  calls : List.Forall₂ (fun c (x : Spot) => x.tree.call? = some c) b.calls
    (xs.filter fun x => x.standing = .content && x.tree.isCall)

namespace Shows

variable {b b' : Body} {xs ys : List Spot}

theorem empty : Shows .empty [] := ⟨.nil, .nil⟩

/-- Content in turn has the types and calls at the spots in turn. -/
theorem append (front : Shows b xs) (back : Shows b' ys) : Shows (b.append b') (xs ++ ys) where
  types := by
    rw [List.filter_append]
    exact List.rel_append front.types back.types
  calls := by
    rw [List.filter_append]
    exact List.rel_append front.calls back.calls

/-- Seen from farther up, the spots hold the same. -/
theorem under (shows : Shows b xs) (i : Nat) : Shows b (xs.map (Spot.under i)) where
  types := by
    rw [List.filter_map, List.forall₂_map_right_iff]
    exact shows.types
  calls := by
    rw [List.filter_map, List.forall₂_map_right_iff]
    exact shows.calls

/-- A spot that is neither a type nor a call adds nothing. -/
theorem idle (shows : Shows b xs) {x : Spot} (noType : x.standing ≠ .type)
    (noCall : x.standing = .content → ¬x.tree.isCall) : Shows b (x :: xs) where
  types := by simpa [noType] using shows.types
  calls := by
    rw [List.filter_cons_of_neg (by simpa using noCall)]
    exact shows.calls

/-- A spot that is a call adds that call in front. -/
theorem call (shows : Shows b xs) {x : Spot} {c : Call} (content : x.standing = .content)
    (isCall : x.tree.isCall) (known : x.tree.call? = some c) :
    Shows (b.withCall (some c)) (x :: xs) where
  types := by simpa [content, Body.withCall, Body.types] using shows.types
  calls := by simpa [content, isCall, Body.withCall, Body.calls, known] using shows.calls

end Shows

/-- No spot lies in parts of which none has a standing. -/
theorem spotsAmong_eq_nil {enter : Nat → Java.Tree → Option Standing} {i : Nat}
    (parts : List Java.Tree) (none : ∀ k part, i ≤ k → enter k part = none) :
    spotsAmong enter i parts = [] := by
  -- The positions only grow, so no later part has a standing either.
  induction parts generalizing i with
  | nil => rfl
  | cons part rest ih =>
    have later : spotsAmong enter (i + 1) rest = [] := ih fun k part after => none k part (by omega)
    simp [spotsAmong, none i part (Nat.le_refl i), later]

/-- Where only the part that the field of a body names has a standing, all spots lie in it. -/
theorem spotsAmong_body (s : Standing) (parts : List Java.Tree) (i : Nat) :
    ∃ j, spotsAmong
      (fun k _ => if (bodyIndex? parts).map (· + i) = some k then some s else none) i parts =
        ((parts.find? fun part => part.field = some .body).map fun part =>
          (spots s part).map (Spot.under j)).getD [] := by
  -- The field is searched from the first part on, while the positions are counted from the tree.
  induction parts generalizing i with
  | nil => exact ⟨i, rfl⟩
  | cons part rest ih =>
    by_cases body : part.field = some .body
    · have index : bodyIndex? (part :: rest) = some 0 := by
        simp [bodyIndex?, List.findIdx?_cons, body]
      have others : spotsAmong (fun k _ => if some (0 + i) = some k then some s else none) (i + 1)
          rest = [] := spotsAmong_eq_nil rest fun k _ after => if_neg (by simp; omega)
      refine ⟨i, ?_⟩
      rw [index, spotsAmong, Option.map_some, others]
      simp [body]
    · -- All positions are counted from one part later on.
      have index : (bodyIndex? (part :: rest)).map (· + i) =
          (bodyIndex? rest).map (· + (i + 1)) := by
        have shift : (fun k => k + i) ∘ (fun k => k + 1) = fun k => k + (i + 1) := by
          funext k
          change k + 1 + i = k + (i + 1)
          omega
        simp [bodyIndex?, List.findIdx?_cons, body, shift]
      have first : (bodyIndex? rest).map (· + (i + 1)) ≠ some i := by
        cases bodyIndex? rest <;> simp
        omega
      obtain ⟨j, later⟩ := ih (i + 1)
      refine ⟨j, ?_⟩
      rw [index, spotsAmong, if_neg first, later]
      simp [body]

/-- What stands in the part that the field of a body names is shown where only that part has a
standing. -/
theorem shows_body {s : Standing} {of : Java.Tree → Body} {parts : List Java.Tree}
    (each : ∀ part ∈ parts, Shows (of part) (spots s part)) (i : Nat) :
    Shows (((parts.find? fun part => part.field = some .body).map of).getD .empty)
      (spotsAmong (fun k _ => if (bodyIndex? parts).map (· + i) = some k then some s else none)
        i parts) := by
  obtain ⟨j, body⟩ := spotsAmong_body s parts i
  rw [body]
  cases found : parts.find? fun part => part.field = some .body with
  | none => exact .empty
  | some part => exact (each part (List.mem_of_find?_eq_some found)).under j

/-- The members in a body are those of the part that the field of a body names. -/
theorem membersOfBody_eq (parts : List Java.Tree) : membersOfBody parts =
    ((parts.find? fun part => part.field = some .body).map membersOf).getD [] := by
  -- Both stop at the first part with the field.
  induction parts with
  | nil => rfl
  | cons part rest ih =>
    rw [membersOfBody, List.find?_cons]
    split <;> simp_all

/-- The content of a body is that of the part that the field of a body names. -/
theorem contentOfBody_eq (parts : List Java.Tree) : contentOfBody parts =
    ((parts.find? fun part => part.field = some .body).map contentOf).getD .empty := by
  -- Both stop at the first part with the field.
  induction parts with
  | nil => rfl
  | cons part rest ih =>
    rw [contentOfBody, List.find?_cons]
    split <;> simp_all

/-- A spot at a type holds nothing but that type, as its inside is its own matter. -/
theorem spots_type (t : Java.Tree) : spots .type t = [⟨[], .type, t⟩] := by
  -- No part of a type has a standing where the type is a matter of its own.
  cases t with
  | leaf => rfl
  | node field rule parts =>
    have inside : spotsAmong (Standing.type.enter parts) 0 parts = [] :=
      spotsAmong_eq_nil parts fun _ _ _ => rfl
    rw [spots, inside]

/-- What is lowered from a tree is what stands in it, for any standing it may have. -/
structure Lowered (t : Java.Tree) : Prop where
  members : Shows (gistAll (membersOf t)) (spots .members t)
  code : Shows (contentOf t) (spots .code t)
  content : Shows (contentAt t) (spots t.contentStanding t)
  member : Shows (gistAll (if t.isRule .enumBodyDeclarations then membersOf t
      else (member? t).toList))
    ((t.memberStanding?.map fun s => spots s t).getD [])

section

variable {parts : List Java.Tree} (lowered : ∀ part ∈ parts, Lowered part)
include lowered

/-- The members among some parts are those that stand there. -/
theorem shows_membersAmong (i : Nat) : Shows (gistAll (membersAmong parts))
    (spotsAmong (fun _ part => part.memberStanding?) i parts) := by
  -- Part by part, what a member holds is followed by what the later members hold.
  induction parts generalizing i with
  | nil => exact .empty
  | cons part rest ih =>
    obtain ⟨here, later⟩ := List.forall_mem_cons.mp lowered
    rw [membersAmong, gistAll_append, spotsAmong]
    refine .append ?_ (ih later (i + 1))
    have shows := here.member.under i
    cases standing : part.memberStanding? with
    | none => simpa [standing] using shows
    | some s => simpa [standing] using shows

/-- The content of some parts is what stands in them. -/
theorem shows_content (i : Nat) : Shows (content parts)
    (spotsAmong (fun _ part => some part.contentStanding) i parts) := by
  -- Every part is content, so all of them are followed in turn.
  induction parts generalizing i with
  | nil => exact .empty
  | cons part rest ih =>
    obtain ⟨here, later⟩ := List.forall_mem_cons.mp lowered
    rw [TypeGraph.content, spotsAmong]
    exact .append (here.content.under i) (ih later (i + 1))

/-- The members of a declaration are those that stand in its body. -/
theorem shows_membersOfBody : Shows (gistAll (membersOfBody parts))
    (spotsAmong (Standing.declaration.enter parts) 0 parts) := by
  -- Only the part under the field of a body has a standing in a declaration.
  have shows := shows_body (fun part member => (lowered part member).members) 0
  have gist : gistAll (membersOfBody parts) = ((parts.find? fun part => part.field = some .body).map
      fun body => gistAll (membersOf body)).getD .empty := by
    rw [membersOfBody_eq]
    cases parts.find? fun part => part.field = some .body <;> rfl
  rw [gist]
  change Shows _ (spotsAmong (fun i _ => if bodyIndex? parts = some i then _ else none) 0 parts)
  simpa using shows

/-- The content of a method is what stands in its body. -/
theorem shows_contentOfBody : Shows (contentOfBody parts)
    (spotsAmong (Standing.method.enter parts) 0 parts) := by
  -- Only the part under the field of a body has a standing in a method, too.
  have shows := shows_body (fun part member => (lowered part member).code) 0
  rw [contentOfBody_eq]
  change Shows _ (spotsAmong (fun i _ => if bodyIndex? parts = some i then _ else none) 0 parts)
  simpa using shows

end

/-- What is lowered from a lexeme is nothing. -/
theorem lowered_leaf (field : Option Field) (label : Label) (x : Lexeme) :
    Lowered (.leaf field label x) where
  members := .idle .empty (by simp) (by simp)
  code := .idle .empty (by simp) (by simp)
  content := by
    have standing : (Java.Tree.leaf field label x).contentStanding = .content := rfl
    rw [standing]
    exact ⟨by simp [spots, contentAt, Body.empty, Body.types],
      by simp [spots, contentAt, Body.empty, Body.calls, Java.Tree.isCall]⟩
  member := by simpa [membersOf, member?, Java.Tree.memberStanding?, gistAll] using Shows.empty

section

variable {field : Option Field} {rule : Rule} {parts : List Java.Tree}
  (derived : Derived (.node field rule parts)) (inner : ∀ part ∈ parts, Lowered part)
include derived inner

/-- The content that a derived phrase makes up is what stands there. -/
theorem shows_contentAt : Shows (contentAt (.node field rule parts))
    (spots (Java.Tree.node field rule parts).contentStanding (.node field rule parts)) := by
  cases known : TypeKind.ofRule? rule with
  | some kind =>
    have declares : (Java.Tree.node field rule parts).kind?.isSome := by
      simp [Java.Tree.kind?, known]
    -- A type in content is the only thing there, whatever it holds itself.
    obtain ⟨d, declared, -⟩ := exists_declared derived declares
    have made : contentAt (.node field rule parts) = .mk [] [d] := by
      simp only [declared?, known] at declared
      simp [contentAt, known, declared]
    rw [Java.Tree.contentStanding, if_pos declares, spots_type, made]
    exact ⟨by simpa [Body.types] using declared, by simp [Body.calls]⟩
  | none =>
    have standing : (Java.Tree.node field rule parts).contentStanding = .content := by
      simp [Java.Tree.contentStanding, Java.Tree.kind?, known]
    have shows := shows_content inner 0
    have made : contentAt (.node field rule parts) =
        (content parts).withCall (callOf? rule parts) := by
      simp [contentAt, known]
    rw [standing, spots, made]
    -- The phrase adds a call of its own if and only if it is one.
    have call := isSome_call? derived
    cases made : callOf? rule parts with
    | none => exact shows.idle (by simp) (by simp [← call, Java.Tree.call?, made])
    | some c => exact shows.call rfl (by simp [← call, Java.Tree.call?, made]) made

/-- The members that a derived phrase declares are those that stand there. -/
theorem shows_member : Shows
    (gistAll (if (Java.Tree.node field rule parts).isRule .enumBodyDeclarations then
      membersOf (.node field rule parts) else (member? (.node field rule parts)).toList))
    ((rule.memberStanding?.map fun s => spots s (.node field rule parts)).getD []) := by
  have code : Shows (content parts) (spots .code (.node field rule parts)) :=
    (shows_content inner 0).idle (by simp) (by simp)
  have method : Shows (contentOfBody parts) (spots .method (.node field rule parts)) :=
    (shows_contentOfBody inner).idle (by simp) (by simp)
  have node : ∀ r, (Java.Tree.node field rule parts).isRule r = decide (rule = r) := by
    simp [Java.Tree.isRule, Java.Tree.label]
  by_cases enumBody : rule = .enumBodyDeclarations
  · subst enumBody
    exact (shows_membersAmong inner 0).idle (by simp) (by simp)
  rw [node, if_neg (by simpa using enumBody)]
  unfold member?
  -- A method shows its body, a type itself, and a member of any other kind all that it holds.
  split
  case h_1 =>
    obtain ⟨name, text⟩ := Option.isSome_iff_exists.mp (isSome_methodName derived)
    simpa [text, gistAll, Member.gist, Rule.memberStanding?] using method
  case h_9 =>
    -- By any other rule the part is a type or no member at all.
    have standing : rule.memberStanding? =
        if (TypeKind.ofRule? rule).isSome then some .type else none := by
      unfold Rule.memberStanding?
      split <;> simp_all
    rw [standing]
    cases known : TypeKind.ofRule? rule with
    | none => exact .empty
    | some kind =>
      obtain ⟨d, declared, -⟩ := exists_declared derived (by simp [Java.Tree.kind?, known])
      have made : kind.declare? parts (membersOfBody parts) = some d := by
        simpa only [declared?, known] using declared
      simp only [made, Option.map_some, Option.toList_some, Option.isSome_some, if_true,
        Option.getD_some, spots_type, gistAll, Member.gist, Body.append_empty]
      exact ⟨by simpa [Body.types] using declared, by simp [Body.calls]⟩
  all_goals simpa [gistAll, Member.gist, Rule.memberStanding?] using code

end

/-- What is lowered from a derived tree is what stands in it. -/
theorem Java.Derived.lowered {t : Java.Tree} (derived : Derived t) : Lowered t := by
  -- The induction is on the derivation; a phrase needs all four facts about its parts.
  induction derived with
  | leaf => exact lowered_leaf _ _ _
  | @node field rule p parts member body fills inner ih =>
    have derived : Derived (.node field rule parts) := .node member body fills inner
    exact ⟨.idle (shows_membersAmong ih 0) (by simp) (by simp),
      .idle (shows_content ih 0) (by simp) (by simp), shows_contentAt derived ih,
      shows_member derived ih⟩

end TypeGraph
