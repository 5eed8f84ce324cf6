import TypeGraph.Proofs.Toml.Names
import TypeGraph.Settings.OfToml

/-! Settings come from layers: what one layer leaves open the next one may set, and the defaults come
last. A document is one layer, whatever the order of its members. -/

namespace TypeGraph

open Toml

namespace Toml.Members

/-- The value under a name that no member has is none. -/
theorem find?_eq_none {m : Members} {name : String} (fresh : name ∉ m.map (·.1.name)) :
    m.find? name = none := by
  rw [find?, Option.map_eq_none_iff, List.find?_eq_none]
  rintro entry member same
  exact fresh (List.mem_map.mpr ⟨entry, member, by simpa using same⟩)

/-- The value under a name is that of the first member if it has the name. -/
theorem find?_cons (first : Key × Item) (rest : Members) (name : String) :
    Members.find? (first :: rest) name =
      if first.1.name = name then some first.2 else Members.find? rest name := by
  by_cases same : first.1.name = name <;> simp [find?, same]

/-- Where no name comes twice, what is under a name does not depend on the order of members. -/
theorem find?_perm {m m' : Members} (rearranged : m'.Perm m) (distinct : (m.map (·.1.name)).Nodup)
    (name : String) : m'.find? name = m.find? name := by
  induction rearranged with
  | nil => rfl
  | cons first _ ih =>
    rw [find?_cons, find?_cons, ih (List.nodup_cons.mp distinct).2]
  | swap first second rest =>
    have different : first.1.name ≠ second.1.name := by
      simp only [List.map_cons, List.nodup_cons, List.mem_cons, not_or] at distinct
      exact distinct.1.1
    rw [find?_cons, find?_cons, find?_cons, find?_cons]
    by_cases same : first.1.name = name
    · -- The name is that of the first one, so it is not that of the second.
      rw [if_pos same, if_neg (fun other => different (same.trans other.symm)), if_pos same]
    · rw [if_neg same, if_neg same]
  | trans _ earlier ih later =>
    have between := (earlier.map (·.1.name)).nodup_iff.mpr distinct
    rw [ih between, later distinct]

end Toml.Members

namespace Settings

/-- A layer of settings: each is set in it or left open. -/
structure Layer where
  extension : Option String
  followLinks : Option Bool
  parallel : Option Bool
  resolveNames : Option Bool
  resolveTargets : Option Bool
  supertypes : Option Supertypes
  edgeKinds : Option (List EdgeKind)

namespace Layer

/-- A layer before another one, which counts for what the first one leaves open. -/
def before (l next : Layer) : Layer where
  extension := l.extension.or next.extension
  followLinks := l.followLinks.or next.followLinks
  parallel := l.parallel.or next.parallel
  resolveNames := l.resolveNames.or next.resolveNames
  resolveTargets := l.resolveTargets.or next.resolveTargets
  supertypes := l.supertypes.or next.supertypes
  edgeKinds := l.edgeKinds.or next.edgeKinds

/-- The settings of a layer over given settings. -/
def onto (l : Layer) (s : Settings) : Settings where
  extension := l.extension.getD s.extension
  followLinks := l.followLinks.getD s.followLinks
  parallel := l.parallel.getD s.parallel
  resolveNames := l.resolveNames.getD s.resolveNames
  resolveTargets := l.resolveTargets.getD s.resolveTargets
  supertypes := l.supertypes.getD s.supertypes
  edgeKinds := l.edgeKinds.getD s.edgeKinds

/-- The settings of a layer over the defaults. -/
def settings (l : Layer) : Settings :=
  l.onto {
    extension := "java", followLinks := false, parallel := true, resolveNames := true,
    resolveTargets := false, supertypes := .first, edgeKinds := [.inherit] }

/-- What members of a document say under a name, read as a value of some kind. -/
def said? {α : Type} (m : Members) (name : String) (read : Item → Except Fault α) : Option α :=
  (m.find? name).bind fun item => (read item).toOption

/-- The layer that members of a document make. -/
def ofMembers (m : Members) : Layer where
  extension := said? m "extension" string
  followLinks := said? m "follow_links" boolean
  parallel := said? m "parallel" boolean
  resolveNames := said? m "resolve_names" boolean
  resolveTargets := said? m "resolve_targets" boolean
  supertypes :=
    said? m "supertypes" (variant ([.first, .all].map Supertypes.name) Supertypes.ofName?)
  edgeKinds := said? m "edge_kinds" (variants (EdgeKind.all.map EdgeKind.name) EdgeKind.ofName?)

theorem onto_before (l next : Layer) (s : Settings) :
    (l.before next).onto s = l.onto (next.onto s) := by
  simp [onto, before, Option.getD_or]

/-- A member that is taken in counts like one of the layer, if none of the same name follows it. -/
theorem onto_cons {s s' : Settings} {key : Key} {item : Item} {rest : Members}
    (fresh : key.name ∉ rest.map (·.1.name)) (taken : withMember s (key, item) = .ok s') :
    (ofMembers ((key, item) :: rest)).onto s = (ofMembers rest).onto s' := by
  have none := Members.find?_eq_none fresh
  unfold withMember at taken
  dsimp only at taken
  split at taken
  case h_8 => cases taken
  -- Whichever setting it is, the member sets this one and says nothing of the others.
  all_goals
    rename_i name
    obtain ⟨value, read, done⟩ := bind_eq_ok_iff.mp taken
    cases done
    simp [ofMembers, said?, Members.find?_cons, name ▸ none, name, read, onto, Except.toOption,
      -List.map_cons]

/-- Where no name comes twice, settings that members give are those of the layer that they make. -/
theorem eq_onto_of_foldlM {m : Members} (distinct : (m.map (·.1.name)).Nodup) {s s' : Settings}
    (folded : m.foldlM withMember s = .ok s') : s' = (ofMembers m).onto s := by
  induction m generalizing s with
  | nil => exact (Except.ok.inj folded).symm
  | cons first rest ih =>
    obtain ⟨fresh, others⟩ := List.nodup_cons.mp distinct
    rw [List.foldlM_cons] at folded
    obtain ⟨next, taken, folded⟩ := bind_eq_ok_iff.mp folded
    rw [ih others folded, onto_cons fresh taken]

end Layer

/-- A member that is taken into some settings is taken into any. -/
theorem exists_withMember {member : Key × Item} {s t : Settings}
    (taken : withMember s member = .ok t) (other : Settings) :
    ∃ t, withMember other member = .ok t := by
  obtain ⟨key, item⟩ := member
  unfold withMember at taken ⊢
  dsimp only at taken ⊢
  split at taken
  case h_8 => cases taken
  -- Whichever setting it is, its value is read from the member alone.
  all_goals
    obtain ⟨value, read, -⟩ := bind_eq_ok_iff.mp taken
    rw [read]
    exact ⟨_, rfl⟩

/-- Members give settings if each of them can be taken in. -/
theorem exists_foldlM_iff {m : Members} {s : Settings} :
    (∃ t, m.foldlM withMember s = .ok t) ↔ ∀ member ∈ m, ∃ t, withMember {} member = .ok t := by
  induction m generalizing s with
  | nil => exact iff_of_true ⟨s, rfl⟩ (by simp)
  | cons first rest ih =>
    simp only [List.foldlM_cons, List.forall_mem_cons, bind_eq_ok_iff]
    constructor
    · rintro ⟨t, next, taken, folded⟩
      exact ⟨exists_withMember taken {}, ih.mp ⟨t, folded⟩⟩
    · rintro ⟨⟨t, taken⟩, others⟩
      obtain ⟨next, taken⟩ := exists_withMember taken s
      obtain ⟨last, folded⟩ := (ih (s := next)).mpr others
      exact ⟨last, next, taken, folded⟩

/-- Where no name comes twice, members give the settings of the layer that they make. -/
theorem eq_settings_of_ofMembers {m : Members} (distinct : (m.map (·.1.name)).Nodup)
    {base : Settings} (given : ofMembers m = .ok base) : base = (Layer.ofMembers m).settings :=
  Layer.eq_onto_of_foldlM distinct given

/-- Where no name comes twice, members in another order make the same layer. -/
theorem Layer.ofMembers_perm {m m' : Members} (rearranged : m'.Perm m)
    (distinct : (m.map (·.1.name)).Nodup) : ofMembers m' = ofMembers m := by
  simp only [ofMembers, said?, Members.find?_perm rearranged distinct]

/-- Where no name comes twice, members in another order give the same settings. -/
theorem ofMembers_perm {m m' : Members} (rearranged : m'.Perm m)
    (distinct : (m.map (·.1.name)).Nodup) {base : Settings} (given : ofMembers m = .ok base) :
    ofMembers m' = .ok base := by
  obtain ⟨base', given'⟩ : ∃ base', ofMembers m' = .ok base' :=
    exists_foldlM_iff.mpr fun member inside =>
      exists_foldlM_iff.mp ⟨base, given⟩ member (rearranged.mem_iff.mp inside)
  have distinct' := (rearranged.map (·.1.name)).nodup_iff.mpr distinct
  rw [given', eq_settings_of_ofMembers distinct' given', eq_settings_of_ofMembers distinct given,
    Layer.ofMembers_perm rearranged distinct]

end Settings

end TypeGraph
