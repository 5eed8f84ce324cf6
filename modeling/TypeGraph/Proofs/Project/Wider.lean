import Mathlib.Data.List.Basic
import Mathlib.Data.List.Flatten
import TypeGraph.Extract

/-! Settings that ask for more edges only add dependencies between those that are there. -/

namespace TypeGraph

namespace Settings

/-- Whether some settings resolve names as others do and ask for no more edges: each kind is
recorded there as well, and the same supertypes count or all of them do. -/
structure Within (s t : Settings) : Prop where
  names : s.resolveNames = t.resolveNames
  targets : s.resolveTargets = t.resolveTargets
  kinds : ∀ kind, s.emits kind → t.emits kind
  supertypes : t.supertypes = .all ∨ t.supertypes = s.supertypes

/-- Settings that resolve names alike qualify them alike. -/
theorem targetName?_congr {s t : Settings} (targets : s.resolveTargets = t.resolveTargets)
    (scope : Scope) : s.targetName? scope = t.targetName? scope := by
  funext written
  simp only [targetName?, targetName?_resolver, targets]

end Settings

/-- The supertypes that count are among all supertypes, in their order. -/
theorem TypeDecl.supertypes_sublist (d : TypeDecl) (choice : Supertypes) :
    (d.supertypes choice).Sublist (d.supertypes .all) := by
  cases choice with
  | all => exact List.Sublist.refl _
  | first =>
    -- The first type that is extended stands at the head of all.
    have head : d.extended.head?.toList.Sublist d.extended := by
      cases d.extended with
      | nil => exact List.nil_sublist _
      | cons first rest => exact List.singleton_sublist.mpr List.mem_cons_self
    exact head.trans (List.sublist_append_left _ _)

namespace Settings

variable {s t : Settings}

/-- Under wider settings a type depends in each way on what it depends on, with more between. -/
theorem Within.dependsOn_sublist (within : s.Within t) (d : TypeDecl) (kind : EdgeKind) :
    (s.dependsOn d kind).Sublist (t.dependsOn d kind) := by
  cases kind with
  | inherit =>
    -- Only the supertypes are chosen by settings.
    show (d.supertypes s.supertypes).Sublist (d.supertypes t.supertypes)
    rcases within.supertypes with all | same
    · exact all ▸ d.supertypes_sublist s.supertypes
    · exact same ▸ List.Sublist.refl _
  | reference => exact List.Sublist.refl _
  | call => exact List.Sublist.refl _

/-- Under wider settings the dependencies of each kind are there, with more between. -/
theorem Within.dependenciesOf_sublist (within : s.Within t) (scope : Scope) (d : TypeDecl)
    (kind : EdgeKind) :
    (s.dependenciesOf scope d kind).Sublist (t.dependenciesOf scope d kind) := by
  unfold dependenciesOf
  rw [targetName?_congr within.targets]
  by_cases recorded : s.emits kind
  · rw [if_pos recorded, if_pos (within.kinds kind recorded)]
    exact (within.dependsOn_sublist d kind).map _
  · rw [if_neg recorded]
    exact List.nil_sublist _

/-- Under wider settings all dependencies are there in their order, with more between. -/
theorem Within.sublist (within : s.Within t) (scope : Scope) (d : TypeDecl) :
    (s.dependencies scope d).Sublist (t.dependencies scope d) :=
  -- Each kind has its own stretch, whatever the settings.
  List.Sublist.flatMap_right _ fun kind _ => within.dependenciesOf_sublist scope d kind

/-- Where a recorded kind is the only one, its dependencies are those that it has anyway. -/
theorem dependencies_alone (scope : Scope) (d : TypeDecl) {kind : EdgeKind}
    (recorded : s.emits kind) :
    dependencies { s with edgeKinds := [kind] } scope d = s.dependenciesOf scope d kind := by
  -- The stretches of the other kinds are empty.
  have stretch (other : EdgeKind) :
      dependenciesOf { s with edgeKinds := [kind] } scope d other =
        if other = kind then s.dependenciesOf scope d kind else [] := by
    by_cases same : other = kind
    · subst same
      have alone : emits { s with edgeKinds := [other] } other := by simp [emits]
      rw [dependenciesOf, dependenciesOf, if_pos alone, if_pos recorded, if_pos rfl]
      rfl
    · simp [dependenciesOf, emits, same]
  simp only [dependencies, List.flatMap_cons, List.flatMap_nil, List.append_nil, stretch]
  cases kind <;> simp

/-- Of a type and the names around it: wider settings only add dependencies between those that are
there, which keep their targets and their order. Of the list of recorded kinds it only matters which
ones are in it. All inherit edges come before all references, and these before all calls. The
dependencies of one recorded kind are what there is if that kind alone is recorded. -/
theorem dependencies_wider (scope : Scope) (d : TypeDecl) :
    (∀ s t : Settings, s.Within t → (s.dependencies scope d).Sublist (t.dependencies scope d)) ∧
    (∀ (s : Settings) kinds, (∀ kind, kind ∈ kinds ↔ kind ∈ s.edgeKinds) →
      dependencies { s with edgeKinds := kinds } scope d = s.dependencies scope d) ∧
    (∀ s : Settings,
      let edges (kind : EdgeKind) := (s.dependencies scope d).filter fun e => e.kind = kind
      s.dependencies scope d = edges .inherit ++ (edges .reference ++ edges .call)) ∧
    ∀ (s : Settings) kind, s.emits kind →
      (s.dependencies scope d).filter (fun e => e.kind = kind) =
        dependencies { s with edgeKinds := [kind] } scope d := by
  refine ⟨fun s t within => within.sublist scope d, ?_, ?_, ?_⟩
  · -- Settings with the same kinds are within each other.
    intro s kinds same
    have fewer : Within { s with edgeKinds := kinds } s :=
      ⟨rfl, rfl, fun kind => by simpa [emits] using (same kind).mp, .inr rfl⟩
    have more : s.Within { s with edgeKinds := kinds } :=
      ⟨rfl, rfl, fun kind => by simpa [emits] using (same kind).mpr, .inr rfl⟩
    exact (fewer.sublist scope d).antisymm (more.sublist scope d)
  · intro s edges
    simp only [edges, filter_dependencies]
    simp [dependencies]
  · intro s kind recorded
    rw [filter_dependencies, dependencies_alone scope d recorded]

/-- A class with a superclass, an interface, and a field on which it calls a method before it
creates an object. -/
def busyClass : TypeDecl :=
  .mk .classType "A" ["B"] ["C"] [.field (some "D") ["d"] .empty,
    .method "f" ⟨1, 3⟩ (.mk [.invocation (some "d") "g", .creation "B"] [])]

/-- With all edges asked for, the one that there was by default is the first of five. -/
theorem dependencies_wider_busyClass :
    let s : Settings := {}
    let t : Settings := { supertypes := .all, edgeKinds := [.call, .reference, .inherit, .call] }
    let scope : Scope := ⟨[], []⟩
    s.Within t ∧ (∀ kind, kind ∈ [EdgeKind.reference, .inherit, .call] ↔ kind ∈ t.edgeKinds) ∧
      t.emits .call ∧ s.dependencies scope busyClass = [⟨.inherit, "B"⟩] ∧
      t.dependencies scope busyClass = [⟨.inherit, "B"⟩, ⟨.inherit, "C"⟩, ⟨.reference, "D"⟩,
        ⟨.call, "D"⟩, ⟨.call, "B"⟩] ∧
      (s.dependencies scope busyClass).Sublist (t.dependencies scope busyClass) ∧
      dependencies { t with edgeKinds := [.reference, .inherit, .call] } scope busyClass =
        t.dependencies scope busyClass ∧
      (t.dependencies scope busyClass).filter (fun e => e.kind = .call) =
        dependencies { t with edgeKinds := [.call] } scope busyClass := by
  intro s t scope
  have within : s.Within t := ⟨rfl, rfl, by intro kind; cases kind <;> decide, .inl rfl⟩
  have kinds : ∀ kind, kind ∈ [EdgeKind.reference, .inherit, .call] ↔ kind ∈ t.edgeKinds := by
    intro kind
    cases kind <;> decide
  obtain ⟨sublist, reordered, -, alone⟩ := dependencies_wider scope busyClass
  exact ⟨within, kinds, rfl, by decide, by decide, sublist s t within, reordered t _ kinds,
    alone t .call rfl⟩

end Settings

end TypeGraph
