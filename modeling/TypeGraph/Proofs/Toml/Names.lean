import TypeGraph.Proofs.Files.Walk
import TypeGraph.Toml.Document

/-! No name comes twice among the members that a TOML document gives. -/

namespace TypeGraph.Toml

namespace Members

/-- Whether members come in the order of their names, none twice. -/
def Ordered (m : Members) : Prop := m.Pairwise fun first second => first.1.name < second.1.name

/-- A member with a value put in its place is an old one or has the name of the new one. -/
theorem mem_set {key : Key} {item : Item} {m : Members} {entry : Key × Item}
    (member : entry ∈ m.set key item) : entry ∈ m ∨ entry.1.name = key.name := by
  induction m with
  | nil => exact .inr (by simpa [set] using congrArg (·.1.name) (List.mem_singleton.mp member))
  | cons first rest ih =>
    obtain ⟨other, old⟩ := first
    unfold set at member
    split at member
    · rename_i same
      rcases List.mem_cons.mp member with rfl | later
      · exact .inr same.symm
      · exact .inl (List.mem_cons_of_mem _ later)
    · split at member
      · rcases List.mem_cons.mp member with rfl | later
        · exact .inr rfl
        · exact .inl later
      · rcases List.mem_cons.mp member with rfl | later
        · exact .inl List.mem_cons_self
        · exact (ih later).imp_left (List.mem_cons_of_mem _)

/-- Putting a value in its place keeps members in order. -/
theorem Ordered.set {m : Members} (ordered : m.Ordered) (key : Key) (item : Item) :
    (m.set key item).Ordered := by
  induction m with
  | nil => exact List.pairwise_singleton _ _
  | cons first rest ih =>
    obtain ⟨other, old⟩ := first
    obtain ⟨later, others⟩ := List.pairwise_cons.mp ordered
    unfold Members.set
    split
    · exact List.pairwise_cons.mpr ⟨later, others⟩
    · rename_i different
      split
      · rename_i before
        refine List.pairwise_cons.mpr ⟨fun entry member => ?_, ordered⟩
        rcases List.mem_cons.mp member with rfl | member
        · exact before
        · exact String.lt_trans before (later entry member)
      · rename_i after
        refine List.pairwise_cons.mpr ⟨fun entry member => ?_, ih others⟩
        rcases mem_set member with old | same
        · exact later entry old
        · -- A name that is not before another one and not the same comes behind it.
          rw [same]
          refine String.not_le.mp fun le => different ?_
          exact String.le_antisymm le (String.not_lt.mp after)

/-- Putting a value in its place keeps members in order, once the value can be told. -/
theorem Ordered.of_set {m m' : Members} (ordered : m.Ordered) {α : Type} {x : Except Range α}
    {key : Key} {item : α → Item} (done : (do return m.set key (item (← x))) = .ok m') :
    m'.Ordered := by
  obtain ⟨a, -, same⟩ := bind_eq_ok_iff.mp done
  exact Except.ok.inj same ▸ ordered.set key (item a)

/-- Adding an entry puts at most one value in its place. -/
theorem Ordered.addEntry {m m' : Members} (ordered : m.Ordered) {item : Item} {path : List Key}
    (added : Members.addEntry item path m = .ok m') : m'.Ordered := by
  -- Whatever is found under the first key, what is in it changes at most.
  unfold Members.addEntry at added
  split at added
  · exact Except.ok.inj added ▸ ordered
  · split at added
    · exact Except.ok.inj added ▸ ordered.set _ _
    · cases added
  · split at added
    · exact ordered.of_set added
    · exact ordered.of_set added
    · cases added

/-- Changing what a header leads to puts at most one value in its place. -/
theorem Ordered.atHeader {m m' : Members} (ordered : m.Ordered)
    {change : Key → Option Item → Except Range Item} {path : List Key}
    (changed : Members.atHeader change path m = .ok m') : m'.Ordered := by
  unfold Members.atHeader at changed
  split at changed
  · exact Except.ok.inj changed ▸ ordered
  · exact ordered.of_set changed
  · split at changed
    · exact ordered.of_set changed
    · cases changed
    · exact ordered.of_set changed
    · split at changed
      · exact ordered.of_set changed
      · cases changed
    · cases changed

end Members

namespace Reader

/-- A line keeps the members of a document in order. -/
theorem Line.ordered {opened opened' : List Key} {m m' : Members} (ordered : m.Ordered) {l : Line}
    (added : l.addTo opened m = .ok (opened', m')) : m'.Ordered := by
  -- Each line adds an entry or goes to a header.
  unfold addTo at added
  split at added
  · obtain ⟨_, changed, done⟩ := bind_eq_ok_iff.mp added
    cases done
    exact ordered.atHeader changed
  · obtain ⟨_, changed, done⟩ := bind_eq_ok_iff.mp added
    cases done
    exact ordered.atHeader changed
  · split at added
    · obtain ⟨_, changed, done⟩ := bind_eq_ok_iff.mp added
      cases done
      exact ordered.addEntry changed
    · obtain ⟨_, changed, done⟩ := bind_eq_ok_iff.mp added
      cases done
      exact ordered.atHeader changed

/-- The members that lines add up to are in order. -/
theorem ordered_document {stop fuel : Nat} {opened : List Key} {m m' : Members}
    (ordered : m.Ordered) {tokens : List Token}
    (read : document stop fuel opened m tokens = .ok m') : m'.Ordered := by
  -- The induction is along the lines, of which each keeps the order.
  fun_induction document stop fuel opened m tokens generalizing m' with
  | case1 => exact Except.ok.inj read ▸ ordered
  | case2 => cases read
  | case3 _ _ _ _ _ ih => exact ih ordered read
  | case4 _ _ _ _ _ _ ih =>
    obtain ⟨⟨next, rest⟩, -, read⟩ := bind_eq_ok_iff.mp read
    obtain ⟨⟨opened, earlier⟩, added, read⟩ := bind_eq_ok_iff.mp read
    have kept := Line.ordered ordered added
    simp only at read
    split at read
    · exact Except.ok.inj read ▸ kept
    · exact ih _ _ _ kept read
    · cases read

end Reader

/-- A document gives no name twice. -/
theorem nodup_names_of_parse {text : List Char} {m : Members} (parsed : parse text = .ok m) :
    (m.map (·.1.name)).Nodup := by
  obtain ⟨tokens, -, read⟩ := bind_eq_ok_iff.mp parsed
  have ordered : m.Ordered := Reader.ordered_document List.Pairwise.nil read
  refine List.pairwise_map.mpr (ordered.imp fun less same => ?_)
  rw [same] at less
  exact String.lt_irrefl _ less

end TypeGraph.Toml
