import Mathlib.Tactic.SplitIfs
import TypeGraph.Java.Automaton

/-! Laws of the reader's states: they hold productions of the grammar and reduce by no others. -/

namespace TypeGraph.Java

/-- What holds of a new value and of all old ones holds of all values of the changed table. -/
theorem Table.set_get {α : Type} {good : α → Prop} {a : α} (new : good a) (digits n m : Nat)
    (t : Table α) (old : ∀ k, good (t.get k)) : good ((set a digits n t).get m) := by
  -- Wherever the way down to a number ends, the new value or an old one stands.
  induction digits generalizing n m t with
  | zero => exact new
  | succ digits ih =>
    cases t with
    | all b =>
      have stays : good b := old 0
      by_cases even : n % 2 = 0 <;> by_cases even' : m % 2 = 0 <;>
        simp only [set, get, even, even', if_true, if_false]
      all_goals first
        | exact stays
        | exact ih _ _ (.all b) fun _ => stays
    | fork evens odds =>
      have even_old : ∀ k, good (evens.get k) := fun k => by simpa [get] using old (2 * k)
      have odd_old : ∀ k, good (odds.get k) := fun k => by
        have half : (2 * k + 1) / 2 = k := by omega
        simpa [get, half, Nat.add_mod] using old (2 * k + 1)
      by_cases even : n % 2 = 0 <;> by_cases even' : m % 2 = 0 <;>
        simp only [set, get, even, even', if_true, if_false]
      all_goals first
        | exact even_old _
        | exact odd_old _
        | exact ih _ _ evens even_old
        | exact ih _ _ odds odd_old

namespace Rule

/-- What holds of the default and of the value of every rule holds of all values of a table. -/
theorem tabulate_get {α : Type} (good : α → Prop) {default : α} {f : Rule → α}
    (base : good default) (each : ∀ r, good (f r)) (n : Nat) :
    good ((tabulate default f).get n) := by
  -- The table is made by putting in one value after the other.
  suffices ∀ (rules : List Rule) (t : Table α), (∀ k, good (t.get k)) → ∀ k,
      good ((rules.foldl (fun t r => t.set (f r) ruleDigits r.index) t).get k) from
    this all (.all default) (fun _ => base) n
  intro rules
  induction rules with
  | nil => exact fun _ old => old
  | cons r rest ih =>
    intro t old
    exact ih (t.set (f r) ruleDigits r.index) fun k => Table.set_get (each r) _ _ _ t old

/-- The productions of a rule have the rule as their head. -/
theorem head_of_mem {r : Rule} {p : Production} (member : p ∈ r.productions) : p.head = r := by
  -- Every production is built with the rule at its head.
  simp only [productions, Definition.productions, List.mem_flatMap, List.mem_map] at member
  obtain ⟨ranked, -, row, -, rfl⟩ := member
  rfl

end Rule

/-- Whether a production belongs to the grammar. -/
def Production.Listed (p : Production) : Prop := p ∈ p.head.productions

/-- The productions of a rule belong to the grammar. -/
theorem Rule.listed_of_mem {r : Rule} {p : Production} (member : p ∈ r.productions) :
    p.Listed := by
  have head : p.head = r := head_of_mem member
  simpa [Production.Listed, head] using member

/-- The productions that are looked up belong to the grammar. -/
theorem Rule.listed_of_table {n : Nat} {p : Production} (member : p ∈ productionTable.get n) :
    p.Listed := by
  -- Every entry of the table is empty or has the productions of some rule.
  unfold productionTable at member
  refine tabulate_get (fun ps => p ∈ ps → p.Listed) ?_ (fun r => ?_) n member
  · exact fun none => absurd none List.not_mem_nil
  · exact listed_of_mem

namespace State

/-- Whether a state holds productions of the grammar only. -/
def Sound (s : State) : Prop := ∀ item ∈ s.items, item.production.Listed

/-- The first state holds the productions of whole texts. -/
theorem sound_start : start.Sound := by
  -- All items of the first state are made from the productions of one rule.
  intro item member
  simp only [start, List.mem_map] at member
  obtain ⟨p, inside, rfl⟩ := member
  exact Rule.listed_of_mem inside

/-- One more symbol leads from a state of the grammar to another. -/
theorem Sound.advance {s : State} (sound : s.Sound) (symbol : Symbol) :
    (s.advance symbol).Sound := by
  intro item member
  simp only [State.advance, List.mem_append, List.mem_filterMap, List.mem_flatMap,
    List.mem_map] at member
  -- An item has been there before, or its production has just been looked up.
  rcases member with ⟨old, inside, moved⟩ | ⟨entry, -, p, opened, rfl⟩
  · have same : item.production = old.production := by
      cases rest : old.rest with
      | nil => simp [rest] at moved
      | cons slot slots =>
        simp only [rest] at moved
        split at moved
        · cases moved
          rfl
        · cases moved
    rw [same]
    exact sound old inside
  · exact Rule.listed_of_table (List.mem_filter.mp opened).1

/-- A complete production is one of the state. -/
theorem Sound.complete {s : State} (sound : s.Sound) {t : Terminal} {p : Production}
    (complete : p ∈ s.complete t) : p.Listed := by
  -- A complete production is that of an item with no slot left.
  simp only [State.complete, List.mem_filterMap] at complete
  obtain ⟨item, member, rest⟩ := complete
  split at rest
  · cases rest
    exact sound item member
  · cases rest

end State

/-- Inserting a production adds no other. -/
theorem mem_insertByRule {p q : Production} {ps : List Production} :
    q ∈ insertByRule p ps ↔ q = p ∨ q ∈ ps := by
  -- The production goes in front of the first one that it must not follow.
  induction ps with
  | nil => simp [insertByRule]
  | cons first rest ih =>
    simp only [insertByRule]
    split
    · simp
    · rw [List.mem_cons, ih, List.mem_cons, or_left_comm]

/-- The reductions of a state are among its complete productions. -/
theorem State.complete_of_mem_reductions {s : State} {t : Terminal} {p : Production}
    (member : p ∈ (s.moves t).reductions) : p ∈ s.complete t := by
  -- The candidates are the strongest of the complete productions, put in order.
  have candidates : ∀ q,
      q ∈ (strongest (s.complete t)).foldr insertByRule [] → q ∈ s.complete t := by
    intro q inside
    have kept : ∀ ps : List Production, q ∈ ps.foldr insertByRule [] → q ∈ ps := by
      intro ps
      induction ps with
      | nil => exact id
      | cons first rest ih =>
        intro inside
        rcases mem_insertByRule.mp inside with rfl | later
        · exact List.mem_cons_self
        · exact List.mem_cons_of_mem _ (ih later)
    exact (List.mem_filter.mp (kept _ inside)).1
  -- The moves keep all of the candidates or none.
  apply candidates
  unfold State.moves at member
  generalize (strongest (s.complete t)).foldr insertByRule [] = reductions at member ⊢
  cases reductions with
  | nil => simp at member
  | cons top others =>
    cases levels : s.ongoing t with
    | nil => simpa [levels] using member
    | cons level rest =>
      simp only [levels] at member
      split_ifs at member <;> simp_all

end TypeGraph.Java
