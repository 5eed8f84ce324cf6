import TypeGraph.Proofs.Declaration.Lowering

/-! The type declarations that are reached from a source file, through the types around them. -/

namespace TypeGraph

open Java

/-- A part of a tree with the way to it. -/
abbrev Place := Way × Java.Tree

/-- From a tree of some standing, the types in it are reached, and what is reached from those. -/
inductive ReachesType : Standing → Java.Tree → Way → Java.Tree → Prop where
  /-- A type directly in the tree. -/
  | here {s : Standing} {t inner : Java.Tree} {v : Way} : Stands s t v .type inner →
      ReachesType s t v inner
  /-- What is reached from such a type. -/
  | inside {s : Standing} {t inner far : Java.Tree} {v w : Way} : Stands s t v .type inner →
      ReachesType .declaration inner w far → ReachesType s t (v ++ w) far

/-- The types directly in a tree. -/
def typesIn (s : Standing) (t : Java.Tree) : List Place :=
  ((spots s t).filter fun x => x.standing = .type).map fun x => (x.way, x.tree)

/-- The types directly in a tree are the parts that stand there as types. -/
theorem mem_typesIn {s : Standing} {t inner : Java.Tree} {w : Way} :
    (w, inner) ∈ typesIn s t ↔ Stands s t w .type inner := by
  -- The spots of a tree are all parts that stand in it.
  simp only [typesIn, List.mem_map, List.mem_filter, decide_eq_true_eq, Prod.mk.injEq]
  constructor
  · rintro ⟨x, ⟨member, type⟩, rfl, rfl⟩
    exact type ▸ mem_spots.mp member
  · intro stands
    exact ⟨⟨w, .type, inner⟩, ⟨mem_spots.mpr stands, rfl⟩, rfl, rfl⟩

/-- A part of a tree is smaller than the tree. -/
theorem Java.Tree.sizeOf_part {t part : Java.Tree} {i : Nat} (found : t.parts[i]? = some part) :
    sizeOf part < sizeOf t := by
  -- Only a phrase has parts, and each is a member of its list.
  cases t with
  | leaf => simp [parts] at found
  | node field rule parts =>
    have smaller := List.sizeOf_lt_of_mem (List.mem_of_getElem? found)
    simp only [Java.Tree.parts] at smaller
    simp only [node.sizeOf_spec]
    omega

/-- What stands in a tree is the tree itself or smaller. -/
theorem Stands.sizeOf_le {s last : Standing} {t far : Java.Tree} {w : Way}
    (stands : Stands s t w last far) : sizeOf far ≤ sizeOf t := by
  -- Every step goes on to a smaller tree.
  induction stands with
  | here => exact Nat.le_refl _
  | part found _ _ ih => exact Nat.le_trans ih (Nat.le_of_lt (Java.Tree.sizeOf_part found))

/-- A type in a declaration is smaller than the declaration. -/
theorem sizeOf_typesIn {t : Java.Tree} {p : Place} (inside : p ∈ typesIn .declaration t) :
    sizeOf p.2 < sizeOf t := by
  -- The way has at least one step, since the declaration itself does not stand as a type.
  obtain ⟨w, inner⟩ := p
  cases mem_typesIn.mp inside with
  | part found _ stands => exact Nat.lt_of_le_of_lt stands.sizeOf_le (Java.Tree.sizeOf_part found)

/-- What holds of a tree if it holds of the types in it holds of all trees. -/
theorem typesIn_induction {motive : Java.Tree → Prop}
    (step : ∀ t, (∀ p ∈ typesIn .declaration t, motive p.2) → motive t) (t : Java.Tree) :
    motive t :=
  step t fun p _inside => typesIn_induction step p.2
termination_by sizeOf t
decreasing_by exact sizeOf_typesIn _inside

/-- A declaration, by the way to it, with all types reached from it, outer ones first. -/
def declarations (v : Way) (t : Java.Tree) : List Place :=
  (v, t) :: (typesIn .declaration t).attach.flatMap fun p => declarations (v ++ p.1.1) p.1.2
termination_by sizeOf t
decreasing_by exact sizeOf_typesIn p.2

/-- A declaration is followed by the declarations in it. -/
theorem declarations_eq (v : Way) (t : Java.Tree) : declarations v t =
    (v, t) :: (typesIn .declaration t).flatMap fun p => declarations (v ++ p.1) p.2 := by
  -- The membership that termination needs is forgotten again.
  rw [declarations, List.flatMap_subtype (g := fun p => declarations (v ++ p.1) p.2)
    (fun _ _ => rfl), List.unattach_attach]

/-- All types reached from a tree, outer ones first. -/
def reached (s : Standing) (t : Java.Tree) : List Place :=
  (typesIn s t).flatMap fun p => declarations p.1 p.2

/-- The declarations listed for a type are the type and those reached from it. -/
theorem mem_declarations {v w : Way} {t far : Java.Tree} : (w, far) ∈ declarations v t ↔
    (w = v ∧ far = t) ∨ ∃ u, w = v ++ u ∧ ReachesType .declaration t u far := by
  -- The induction is on the types inside: one step to such a type, and then the rest.
  induction t using typesIn_induction generalizing v w with
  | step t ih =>
    rw [declarations_eq, List.mem_cons, List.mem_flatMap, Prod.mk.injEq]
    refine or_congr_right ⟨?_, ?_⟩
    · rintro ⟨⟨u, inner⟩, inside, listed⟩
      have stands := mem_typesIn.mp inside
      rcases (ih _ inside).mp listed with ⟨rfl, rfl⟩ | ⟨u', rfl, later⟩
      · exact ⟨u, rfl, .here stands⟩
      · exact ⟨u ++ u', by simp, .inside stands later⟩
    · rintro ⟨u, rfl, later⟩
      cases later with
      | here stands =>
        have inside := mem_typesIn.mpr stands
        exact ⟨_, inside, (ih _ inside).mpr (.inl ⟨rfl, rfl⟩)⟩
      | inside stands later =>
        have inside := mem_typesIn.mpr stands
        exact ⟨_, inside, (ih _ inside).mpr (.inr ⟨_, by simp, later⟩)⟩

/-- The types listed for a tree are those reached from it. -/
theorem mem_reached {s : Standing} {w : Way} {t far : Java.Tree} :
    (w, far) ∈ reached s t ↔ ReachesType s t w far := by
  -- The first step leads to a type, and its declarations are those listed for it.
  rw [reached, List.mem_flatMap]
  constructor
  · rintro ⟨⟨v, inner⟩, inside, listed⟩
    have stands := mem_typesIn.mp inside
    rcases mem_declarations.mp listed with ⟨rfl, rfl⟩ | ⟨u, rfl, later⟩
    · exact .here stands
    · exact .inside stands later
  · intro reached
    cases reached with
    | here stands => exact ⟨_, mem_typesIn.mpr stands, mem_declarations.mpr (.inl ⟨rfl, rfl⟩)⟩
    | inside stands later =>
      exact ⟨_, mem_typesIn.mpr stands, mem_declarations.mpr (.inr ⟨_, rfl, later⟩)⟩

/-- What stands in a derived tree is derived. -/
theorem Stands.derived {s last : Standing} {t far : Java.Tree} {w : Way}
    (stands : Stands s t w last far) (derived : Derived t) : Derived far := by
  -- The parts of a derived phrase are derived, so every step keeps to derived trees.
  induction stands with
  | here => exact derived
  | part found _ _ ih =>
    refine ih ?_
    cases derived with
    | leaf => simp [Java.Tree.parts] at found
    | node _ _ _ inner => exact inner _ (List.mem_of_getElem? found)

/-- What is reached from a derived tree is derived. -/
theorem ReachesType.derived {s : Standing} {t far : Java.Tree} {w : Way}
    (reaches : ReachesType s t w far) (derived : Derived t) : Derived far := by
  -- Each type on the way stands in the one before.
  induction reaches with
  | here stands => exact stands.derived derived
  | inside stands _ ih => exact ih (stands.derived derived)

/-- A part that comes to stand as a type declares one. -/
theorem Standing.declares_of_enter {s : Standing} {parts : List Java.Tree} {i : Nat}
    {part : Java.Tree} (entered : s.enter parts i part = some .type) : part.kind?.isSome := by
  -- Wherever types are entered, it is by the rule of the part.
  cases s <;> simp only [enter] at entered
  case members =>
    cases part with
    | leaf => cases entered
    | node field rule parts =>
      simp only [Java.Tree.memberStanding?, Rule.memberStanding?] at entered
      split at entered <;> simp_all [Java.Tree.kind?, Option.isSome_iff_ne_none]
  case file => simp_all [Option.isSome_iff_ne_none]
  case code | content =>
    unfold Java.Tree.contentStanding at entered
    split at entered <;> simp_all
  all_goals simp_all

/-- What stands as a type in another tree declares one. -/
theorem Stands.declares {s : Standing} {t far : Java.Tree} {w : Way}
    (stands : Stands s t w .type far) (other : s ≠ .type) : far.kind?.isSome := by
  -- The last step of the way enters the type.
  generalize same : Standing.type = last at stands
  induction stands with
  | here => exact absurd same.symm other
  | @part s s' last t part far i w found entered later ih =>
    by_cases type : s' = .type
    · -- Nothing is entered from a type, so the way ends there.
      subst type
      cases later with
      | here => exact Standing.declares_of_enter entered
      | part _ beyond => cases beyond
    · exact ih type same

section

variable {g : Java.Tree → List Lexeme} {last : Standing}

mutual
/-- Where parts of some standing hold no others of it, lexemes that lie in such parts of a tree,
part by part, lie in the tree in that order. -/
theorem sublist_spots
    (alone : ∀ t, (spots last t).filter (fun x => x.standing = last) = [⟨[], last, t⟩])
    {s : Standing} {t : Java.Tree}
    (inside : ∀ x ∈ spots s t, x.standing = last → (g x.tree).Sublist x.tree.lexemes) :
    (((spots s t).filter fun x => x.standing = last).flatMap fun x => g x.tree).Sublist
      t.lexemes := by
  -- The tree itself may be such a part, and then it is the only one.
  by_cases same : s = last
  · subst same
    have here : (⟨[], s, t⟩ : Spot) ∈ spots s t := mem_spots.mpr .here
    simpa [alone] using inside _ here rfl
  · match t with
    | .leaf field label x => simp [spots, same]
    | .node field rule parts =>
      simp only [spots, List.forall_mem_cons] at inside
      simpa [spots, same, Java.Tree.lexemes] using sublist_spotsAmong alone inside.2
/-- Lexemes that lie in parts of some standing, part by part, lie in the parts around them in that
order. -/
theorem sublist_spotsAmong
    (alone : ∀ t, (spots last t).filter (fun x => x.standing = last) = [⟨[], last, t⟩])
    {enter : Nat → Java.Tree → Option Standing} {i : Nat} {parts : List Java.Tree}
    (inside : ∀ x ∈ spotsAmong enter i parts,
      x.standing = last → (g x.tree).Sublist x.tree.lexemes) :
    (((spotsAmong enter i parts).filter fun x => x.standing = last).flatMap fun x =>
      g x.tree).Sublist (Java.Tree.lexemesAll parts) := by
  -- The lexemes of the parts come one part after the other, as the spots do.
  match parts with
  | [] => simp [spotsAmong]
  | part :: rest =>
    rw [spotsAmong] at inside ⊢
    obtain ⟨here, later⟩ := List.forall_mem_append.mp inside
    rw [List.filter_append, List.flatMap_append, Java.Tree.lexemesAll]
    refine List.Sublist.append ?_ (sublist_spotsAmong alone later)
    split at here
    · rename_i s entered
      rw [List.forall_mem_map] at here
      rw [List.filter_map, List.flatMap_map]
      exact sublist_spots alone here
    · simp
end

end

/-- A type holds no other types but as its own matter. -/
theorem filter_spots_type (t : Java.Tree) :
    (spots .type t).filter (fun x => x.standing = .type) = [⟨[], .type, t⟩] := by
  rw [spots_type]
  rfl

/-- The first lexemes of a declaration and of all types reached from it, outer ones first. -/
def firsts (t : Java.Tree) : List Lexeme :=
  ((declarations [] t).map (·.2)).filterMap Java.Tree.first?

/-- The trees listed for a declaration do not depend on the way to it. -/
theorem declarations_trees (v : Way) (t : Java.Tree) :
    (declarations v t).map (·.2) = (declarations [] t).map (·.2) := by
  -- The way is only put in front of the ways inside.
  induction t using typesIn_induction generalizing v with
  | step t ih =>
    have trees : ∀ u, (declarations u t).map (·.2) =
        t :: (typesIn .declaration t).flatMap fun p => (declarations [] p.2).map (·.2) := by
      intro u
      rw [declarations_eq, List.map_cons, List.map_flatMap]
      congr 1
      exact List.flatMap_congr fun p inside => ih p inside _
    rw [trees v, trees []]

/-- The first lexeme of a declaration is followed by those of the types in it. -/
theorem firsts_eq (t : Java.Tree) :
    firsts t = t.first?.toList ++ (typesIn .declaration t).flatMap fun p => firsts p.2 := by
  -- The trees inside are the same whether their ways start here or farther up.
  have inner : ∀ p : Place, ((declarations ([] ++ p.1) p.2).map (·.2)).filterMap Java.Tree.first? =
      firsts p.2 := fun p => by rw [declarations_trees]; rfl
  rw [firsts, declarations_eq, List.map_cons, List.map_flatMap, List.filterMap_cons,
    List.filterMap_flatMap]
  simp only [inner]
  cases t.first? <;> rfl

/-- The lexemes of a declaration start with its own first one, and those of the types reached
from it come behind in order. -/
theorem firsts_sublist {t : Java.Tree} (derived : Derived t) (declares : t.kind?.isSome) :
    (firsts t).Sublist t.lexemes := by
  induction t using typesIn_induction with
  | step t ih =>
    have inside : ∀ p ∈ typesIn .declaration t, (firsts p.2).Sublist p.2.lexemes := by
      intro p member
      have stands := mem_typesIn.mp member
      exact ih p member (stands.derived derived) (stands.declares (by simp))
    cases t with
    | leaf => cases declares
    | node field rule parts =>
      -- The part before the body starts the declaration and holds no type.
      obtain ⟨first, rest, rfl, bare⟩ :=
        derived.first_field (TypeKind.ofRule?_names declares).2
      obtain ⟨x, start⟩ := (derived.inner first List.mem_cons_self).first
      obtain ⟨more, lexemes⟩ := List.head?_eq_some_iff.mp (first.first?_eq_head? ▸ start)
      have outside : Standing.declaration.enter (first :: rest) 0 first = none := by
        have later : bodyIndex? (first :: rest) ≠ some 0 := by
          simp [bodyIndex?, List.findIdx?_cons, bare]
        simp [Standing.enter, later]
      have types : typesIn .declaration (.node field rule (first :: rest)) =
          ((spotsAmong (Standing.declaration.enter (first :: rest)) 1 rest).filter fun x =>
            x.standing = .type).map fun x => (x.way, x.tree) := by
        simp [typesIn, spots, spotsAmong, outside]
      rw [types, List.forall_mem_map] at inside
      have later := sublist_spotsAmong filter_spots_type fun y member type =>
        inside y (List.mem_filter.mpr ⟨member, by simpa using type⟩)
      rw [firsts_eq, types, List.flatMap_map, Java.Tree.lexemes, Java.Tree.lexemesAll, lexemes]
      simp only [Java.Tree.first?, Java.Tree.firstAmong?, start, Option.toList_some]
      exact (later.trans (List.sublist_append_right more _)).cons_cons x

end TypeGraph
