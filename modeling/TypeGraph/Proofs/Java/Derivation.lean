import TypeGraph.Java.Reading
import TypeGraph.Proofs.Java.Automaton

/-! Trees that the grammar derives: which parts a phrase has, and that it holds some text. -/

namespace TypeGraph.Java

/-- The trees that a rule makes of the parts it derives. -/
def Rule.wrap (r : Rule) (parts : List Tree) : List Tree :=
  if r.isHidden then parts else [.node none r parts]

/-- A tree as it looks in a slot. -/
def Slot.dress (slot : Slot) (t : Tree) : Tree := (t.relabelled slot.label).named slot.field

@[simp] theorem Slot.dress_leaf (slot : Slot) (field : Option Field) (label : Label)
    (x : Lexeme) : slot.dress (.leaf field label x) =
      .leaf (field <|> slot.field) (slot.label.getD label) x := by
  -- A slot may show a lexeme by another label and under a field.
  cases shown : slot.label <;> simp [dress, Tree.relabelled, Tree.named, shown]

@[simp] theorem Slot.dress_node (slot : Slot) (field : Option Field) (r : Rule)
    (parts : List Tree) : slot.dress (.node field r parts) =
      .node (field <|> slot.field) r parts := by
  -- Only the field of a phrase can change, as labels are for lexemes.
  cases slot.label <;> simp [dress, Tree.relabelled, Tree.named]

/-- A part in a slot keeps a field that it has, and else gets that of the slot. -/
@[simp] theorem Slot.field_dress (slot : Slot) (t : Tree) :
    (slot.dress t).field = (t.field <|> slot.field) := by
  cases t <;> simp [Tree.field]

/-- Trees adopted by a slot look as the slot has them, one by one. -/
theorem Reading.adopt_eq_map (slot : Slot) (trees : List Tree) :
    adopt slot trees = trees.map slot.dress := by
  -- A slot without a field and a label leaves every tree as it is.
  unfold adopt
  split
  · rename_i idle
    simp only [Bool.and_eq_true, Option.isNone_iff_eq_none] at idle
    have same : slot.dress = id := by
      funext t
      cases t <;> simp [Slot.dress, Tree.relabelled, Tree.named, idle.1, idle.2]
    rw [same, List.map_id]
  · rfl

/-- Whether no lexeme in a slot is shown as a phrase. -/
def Slot.Honest (slot : Slot) : Prop := ∀ r, slot.label ≠ some (.rule r)

/-- How trees fill a row of slots; comments may stand between them. -/
inductive Fills : List Slot → List Tree → Prop where
  /-- No slot is left. -/
  | nil : Fills [] []
  /-- A comment fills no slot. -/
  | comment {row : List Slot} {parts : List Tree} {x : Lexeme} : x.terminal.isComment →
      x.text ≠ [] → Fills row parts → Fills row (.leaf none (.lexeme x.terminal) x :: parts)
  /-- A lexeme fills the slot of its terminal. -/
  | lexeme {slot : Slot} {row : List Slot} {parts : List Tree} {t : Terminal} {x : Lexeme} :
      slot.symbol = .terminal t → slot.Honest → x.text ≠ [] → Fills row parts →
      Fills (slot :: row) (slot.dress (.leaf none (.lexeme t) x) :: parts)
  /-- What a production derives fills the slot of its head. -/
  | phrase {slot : Slot} {row : List Slot} {inner parts : List Tree} {p : Production} :
      slot.symbol = .rule p.head → slot.Honest → p.Listed → p.body ≠ [] → Fills p.body inner →
      Fills row parts → Fills (slot :: row) ((p.head.wrap inner).map slot.dress ++ parts)

/-- Trees of lexemes that are not empty and of phrases that the grammar derives. -/
inductive Derived : Tree → Prop where
  | leaf {field : Option Field} {label : Label} {x : Lexeme} : (∀ r, label ≠ .rule r) →
      x.text ≠ [] → Derived (.leaf field label x)
  | node {field : Option Field} {r : Rule} {p : Production} {parts : List Tree} :
      p ∈ r.productions → p.body ≠ [] → Fills p.body parts → (∀ part ∈ parts, Derived part) →
      Derived (.node field r parts)

/-- A tree is still derived as it looks in a slot. -/
theorem Derived.dress {t : Tree} (derived : Derived t) {slot : Slot} (honest : slot.Honest) :
    Derived (slot.dress t) := by
  -- A field matters to no derivation, and an honest slot shows no lexeme as a phrase.
  cases derived with
  | leaf lexeme nonempty =>
    rw [Slot.dress_leaf]
    refine .leaf (fun r phrase => ?_) nonempty
    cases shown : slot.label with
    | none => exact lexeme r (by simpa [shown] using phrase)
    | some label => exact honest r (by simpa [shown] using phrase)
  | node member body fills parts => simpa using .node member body fills parts

namespace Fills

variable {row : List Slot} {parts : List Tree}

/-- Two rows are filled in turn. -/
theorem append {row' : List Slot} {parts' : List Tree} (front : Fills row parts)
    (back : Fills row' parts') : Fills (row ++ row') (parts ++ parts') := by
  -- What fills the first row is kept, and the second goes on where it ends.
  induction front with
  | nil => exact back
  | comment comment nonempty _ ih => exact .comment comment nonempty ih
  | lexeme symbol honest nonempty _ ih => exact .lexeme symbol honest nonempty ih
  | phrase symbol honest listed body inner _ _ ih =>
    rw [List.append_assoc]
    exact .phrase symbol honest listed body inner ih

/-- What fills a row of at least one slot is not empty. -/
theorem ne_nil (fills : Fills row parts) (slots : row ≠ []) : parts ≠ [] := by
  induction fills with
  | nil => exact absurd rfl slots
  | comment => simp
  | lexeme => simp
  | phrase _ _ _ body _ _ inner _ =>
    -- A phrase is wrapped up or stands for its parts, of which there are some.
    have := inner body
    unfold Rule.wrap
    split <;> simp_all

/-- What fills a row is derived part by part. -/
theorem derived (fills : Fills row parts) : ∀ part ∈ parts, Derived part := by
  -- The parts are those of the slots, and a hidden phrase is replaced by its own parts.
  induction fills with
  | nil => simp
  | comment _ nonempty _ ih => exact List.forall_mem_cons.mpr ⟨.leaf (by simp) nonempty, ih⟩
  | lexeme _ honest nonempty _ ih =>
    exact List.forall_mem_cons.mpr ⟨.dress (.leaf (by simp) nonempty) honest, ih⟩
  | @phrase slot _ inner _ p _ honest listed body fills _ derived ih =>
    have wrapped : ∀ t ∈ p.head.wrap inner, Derived t := by
      unfold Rule.wrap
      split
      · exact derived
      · simpa using Derived.node listed body fills derived
    intro part member
    rcases List.mem_append.mp member with here | later
    · obtain ⟨t, inside, rfl⟩ := List.mem_map.mp here
      exact (wrapped t inside).dress honest
    · exact ih part later

end Fills

/-- What is derived starts with a lexeme. -/
theorem Derived.first {t : Tree} (derived : Derived t) : ∃ x, t.first? = some x := by
  -- A phrase is not empty, so its first part starts with a lexeme.
  induction derived with
  | leaf => exact ⟨_, rfl⟩
  | @node _ _ _ parts _ body fills _ ih =>
    obtain ⟨part, rest, rfl⟩ := List.exists_cons_of_ne_nil (fills.ne_nil body)
    obtain ⟨x, first⟩ := ih part List.mem_cons_self
    exact ⟨x, by simp [Tree.first?, Tree.firstAmong?, first]⟩

mutual
/-- The first lexeme of a tree is the first of all its lexemes. -/
theorem Tree.first?_eq_head? (t : Tree) : t.first? = t.lexemes.head? := by
  match t with
  | .leaf _ _ _ => rfl
  | .node _ _ parts => exact firstAmong?_eq_head? parts
/-- The first lexeme of several trees is the first of all their lexemes. -/
theorem Tree.firstAmong?_eq_head? (parts : List Tree) :
    firstAmong? parts = (lexemesAll parts).head? := by
  match parts with
  | [] => rfl
  | t :: rest =>
    simp only [firstAmong?, lexemesAll, List.head?_append, first?_eq_head? t,
      firstAmong?_eq_head? rest]
    cases t.lexemes.head? <;> rfl
end

/-- What is derived has lexemes. -/
theorem Derived.lexemes_ne_nil {t : Tree} (derived : Derived t) : t.lexemes ≠ [] := by
  obtain ⟨x, first⟩ := derived.first
  rw [Tree.first?_eq_head?] at first
  exact List.ne_nil_of_mem (List.mem_of_head? first)

/-- The lexemes of several trees are those of one after the other. -/
theorem Tree.lexemesAll_eq_flatMap (parts : List Tree) :
    lexemesAll parts = parts.flatMap lexemes := by
  induction parts with
  | nil => rfl
  | cons t rest ih => simp [lexemesAll, ih]

/-- No lexeme of a derived tree is empty. -/
theorem Derived.text_ne_nil {t : Tree} (derived : Derived t) : ∀ x ∈ t.lexemes, x.text ≠ [] := by
  -- The lexemes of a phrase are those of its parts.
  induction derived with
  | leaf _ nonempty => simpa [Tree.lexemes] using nonempty
  | node _ _ _ _ ih =>
    intro x member
    rw [Tree.lexemes, Tree.lexemesAll_eq_flatMap] at member
    obtain ⟨part, inside, within⟩ := List.mem_flatMap.mp member
    exact ih part inside x within

end TypeGraph.Java
