import TypeGraph.Proofs.Declaration.Visits

/-! Every call in a source file belongs to the innermost type declaration around it. -/

namespace TypeGraph

open Java

/-- Whether a call is made in the executable members of a declaration, outside of other types. -/
def OwnCall (t : Java.Tree) (w : Way) (call : Java.Tree) : Prop :=
  Stands .declaration t w .content call ∧ call.isCall

/-- The calls made in a declaration itself, outer ones first. -/
def callsIn (t : Java.Tree) : List Place :=
  ((spots .declaration t).filter fun x => x.standing = .content && x.tree.isCall).map fun x =>
    (x.way, x.tree)

theorem mem_callsIn {t call : Java.Tree} {w : Way} : (w, call) ∈ callsIn t ↔ OwnCall t w call := by
  -- The spots of the declaration that make calls are listed with their ways.
  simp only [callsIn, OwnCall, List.mem_map, List.mem_filter, Bool.and_eq_true,
    decide_eq_true_eq, Prod.mk.injEq]
  constructor
  · rintro ⟨x, ⟨member, content, isCall⟩, rfl, rfl⟩
    exact ⟨content ▸ mem_spots.mp member, isCall⟩
  · rintro ⟨stands, isCall⟩
    exact ⟨⟨w, .content, call⟩, ⟨mem_spots.mpr stands, rfl, isCall⟩, rfl, rfl⟩

/-- The calls made in a declaration itself come in the order of their ways. -/
theorem pairwise_callsIn (t : Java.Tree) : (callsIn t).Pairwise fun p q => p.1 < q.1 :=
  List.pairwise_map.mpr ((pairwise_spots .declaration t).filter _)

/-- The calls in the executable members are those that the members hold. -/
theorem TypeDecl.bodies_calls (d : TypeDecl) :
    d.bodies.flatMap Body.calls = (gistAll d.members).calls := by
  -- A member without a body holds no calls, as a type makes its own.
  unfold bodies
  induction d.members with
  | nil => rfl
  | cons m rest ih =>
    have here : m.body?.toList.flatMap Body.calls = m.gist.calls := by
      cases m <;> simp [Member.body?, Member.gist, Body.calls]
    have all : (gistAll (m :: rest)).calls = m.gist.calls ++ (gistAll rest).calls := rfl
    rw [all, ← here, ← ih]
    cases body : m.body? <;> simp [body]

/-- Whether some calls are those made in a declaration itself, one for one and outer ones first. -/
def Java.Tree.MakesItself (t : Java.Tree) (calls : List Call) : Prop :=
  ∃ places : List Place, (∀ w call, (w, call) ∈ places ↔ OwnCall t w call) ∧
    (places.Pairwise fun p q => p.1 < q.1) ∧
    List.Forall₂ (fun call (p : Place) => p.2.call? = some call) calls places

/-- The calls of a declared type are those made in its declaration itself. -/
theorem makesItself_of_declared {t : Java.Tree} {d : TypeDecl} (derived : Derived t)
    (declared : declared? t = some d) : t.MakesItself (d.bodies.flatMap Body.calls) := by
  -- What is lowered from a declaration shows the calls that stand in it.
  refine ⟨callsIn t, fun w call => mem_callsIn, pairwise_callsIn t, ?_⟩
  rw [d.bodies_calls, callsIn, List.forall₂_map_right_iff]
  exact (shows_declaration derived declared).calls

/-- Nothing stands below a type but in that type itself. -/
theorem Stands.of_type {t far : Java.Tree} {w : Way} {last : Standing}
    (stands : Stands .type t w last far) : w = [] ∧ last = .type := by
  -- No part of a type has a standing there.
  cases stands with
  | here => exact ⟨rfl, rfl⟩
  | part _ entered => cases entered

/-- Nothing of what stands in a tree stands farther down on the way through a type. -/
theorem Stands.end_at_type {s last : Standing} {t inner far : Java.Tree} {v w : Way}
    (type : Stands s t v .type inner) (stands : Stands s t (v ++ w) last far) :
    w = [] ∧ last = .type := by
  -- The way passes the type at its first stretch, and there it ends.
  obtain ⟨middle, part, first, second⟩ := stands.split
  obtain ⟨rfl, -⟩ := first.unique type
  exact second.of_type

/-- Two types directly in a tree lie on one way only if they are the same. -/
theorem Stands.same_type {s : Standing} {t inner inner' : Java.Tree} {v v' w w' : Way}
    (type : Stands s t v .type inner) (type' : Stands s t v' .type inner')
    (same : v ++ w = v' ++ w') : v = v' ∧ inner = inner' ∧ w = w' := by
  -- One way is the start of the other, and neither goes on through a type.
  have ways : v = v' := by
    rcases List.append_eq_append_iff.mp same with ⟨a, rfl, -⟩ | ⟨a, rfl, -⟩
    · simp [(type.end_at_type type').1]
    · simp [(type'.end_at_type type).1]
  subst ways
  exact ⟨rfl, (type.unique type').2, List.append_cancel_left same⟩

/-- Between two types reached on one way there is a type directly in the first of them. -/
theorem ReachesType.between {s : Standing} {t far far' : Java.Tree} {w u : Way}
    (reaches : ReachesType s t w far) (farther : ReachesType s t (w ++ u) far') :
    u = [] ∨ ∃ v inner, v <+: u ∧ Stands .declaration far v .type inner := by
  -- Both ways lead through the same types as long as the shorter one goes, by induction on
  -- it; then either nothing is left or the next type lies directly in the first.
  induction reaches with
  | @here s t inner v type =>
    generalize same : v ++ u = way at farther
    cases farther with
    | here type' =>
      subst same
      exact .inl (type.end_at_type type').1
    | @inside _ _ inner' _ v' w' type' later =>
      obtain ⟨rfl, rfl, rfl⟩ := type.same_type type' same
      right
      -- The first type on the rest of the way lies directly in the declaration.
      cases later with
      | here next => exact ⟨_, _, List.prefix_rfl, next⟩
      | inside next _ => exact ⟨_, _, List.prefix_append _ _, next⟩
  | @inside s t inner far v w type _ ih =>
    generalize same : v ++ w ++ u = way at farther
    rw [List.append_assoc] at same
    cases farther with
    | here type' =>
      subst same
      exact .inl (List.append_eq_nil_iff.mp (type.end_at_type type').1).2
    | @inside _ _ inner' _ v' w' type' later =>
      obtain ⟨rfl, rfl, rfl⟩ := type.same_type type' same
      exact ih later

/-- A declaration reached on the way to a call made in another one itself is that other one. -/
theorem OwnCall.innermost {s : Standing} {t far far' call : Java.Tree} {w u v : Way}
    (reaches : ReachesType s t w far) (farther : ReachesType s t (w ++ u) far')
    (own : OwnCall far (u ++ v) call) : u = [] := by
  -- If the ways differ, there is a type between, and no own call lies in it.
  rcases reaches.between farther with rfl | ⟨v', inner, ⟨rest, rfl⟩, type⟩
  · rfl
  · -- The way to the call would lead through another type.
    rw [List.append_assoc] at own
    cases (type.end_at_type own.1).2

/-- The calls of each type that a file declares are those made in its declaration itself: the
method calls and the creations of objects of class types in its executable members, in pre-order
and outside of all types inside it. So no call belongs to two types. -/
theorem CompilationUnit.calls_of_innermost (path : String) {text : List Char} {tree : Java.Tree}
    (accepted : read text = .ok tree) :
    ∃ places : List Place,
      (∀ w t, (w, t) ∈ places ↔ ReachesType .file tree w t) ∧
      List.Forall₂ (fun v p => v.At p ∧ p.2.MakesItself (v.decl.bodies.flatMap Body.calls))
        (ofTree path tree).visits places ∧
      ∀ p ∈ places, ∀ q ∈ places, ∀ v c v' c', OwnCall p.2 v c → OwnCall q.2 v' c' →
        p.1 ++ v = q.1 ++ v' → p.1 = q.1 := by
  have sound := sound_of_read accepted
  refine ⟨reached .file tree, fun w t => mem_reached, ?_, ?_⟩
  · -- Each visit is to a declaration that is reached, and holds the calls made there.
    refine (forall₂_mem_right (visits_reached path sound)).imp fun v p here => ⟨here.2, ?_⟩
    have derived := sound.derived_reached (mem_reached.mp here.1)
    exact makesItself_of_declared derived here.2
  · rintro ⟨w, t⟩ member ⟨w', t'⟩ member' v c v' c' own own' same
    -- Of two ways to the same call, one is the start of the other.
    have reaches := mem_reached.mp member
    have reaches' := mem_reached.mp member'
    rcases List.append_eq_append_iff.mp same with ⟨u, rfl, rfl⟩ | ⟨u, rfl, rfl⟩
    · simpa using own.innermost reaches reaches'
    · simpa using own'.innermost reaches' reaches

/-- The call before a local class belongs to the class around both, and that after it, too. -/
theorem CompilationUnit.calls_of_innermost_localClass :
    ∃ tree, read localClass = .ok tree ∧
      (ofTree "A.java" tree).visits.map (fun v => v.decl.bodies.flatMap Body.calls) =
        [[.invocation none "f", .creation "B"], [.invocation none "g"]] ∧
      ∃ places : List Place,
        (∀ w t, (w, t) ∈ places ↔ ReachesType .file tree w t) ∧
        List.Forall₂ (fun v p => v.At p ∧ p.2.MakesItself (v.decl.bodies.flatMap Body.calls))
          (ofTree "A.java" tree).visits places ∧
        ∀ p ∈ places, ∀ q ∈ places, ∀ v c v' c', OwnCall p.2 v c → OwnCall q.2 v' c' →
          p.1 ++ v = q.1 ++ v' → p.1 = q.1 := by
  obtain ⟨tree, accepted, -, calls⟩ := read_localClass
  exact ⟨tree, accepted, calls, calls_of_innermost "A.java" accepted⟩

end TypeGraph
