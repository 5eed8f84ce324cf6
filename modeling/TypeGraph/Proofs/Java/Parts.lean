import TypeGraph.Proofs.Java.Derivation

/-! What the productions of the grammar say about the parts of a phrase. -/

namespace TypeGraph.Java

/-- The list of all rules leaves none out. -/
theorem Rule.mem_all (r : Rule) : r ∈ all := by
  cases r <;> decide +kernel

/-- Only a whole text may be empty. -/
theorem Rule.body_ne_nil {r : Rule} {p : Production} (member : p ∈ r.productions)
    (inner : r ≠ .program) : p.body ≠ [] := by
  -- The grammar is finite, so all its productions can be looked at.
  have checked : ∀ r ∈ Rule.all, ∀ p ∈ r.productions, r ≠ .program → p.body ≠ [] := by
    decide +kernel
  exact checked r r.mem_all p member inner

/-- Whether neither a whole text nor the end of one fills a slot, and all is shown as it is. -/
structure Slot.Inner (slot : Slot) : Prop where
  whole : slot.symbol ≠ .rule .program
  last : slot.symbol ≠ .terminal .endOfText
  honest : slot.Honest

/-- All slots of the grammar are filled from inside a text. -/
theorem Production.Listed.inner {p : Production} (listed : p.Listed) {slot : Slot}
    (member : slot ∈ p.body) : slot.Inner := by
  -- Again every slot of the grammar is looked at, now for its symbol and its label.
  have checked : ∀ r ∈ Rule.all, ∀ p ∈ r.productions, ∀ slot ∈ p.body,
      slot.symbol ≠ .rule .program ∧ slot.symbol ≠ .terminal .endOfText ∧
        slot.label ∈ [none, some .typeIdentifier, some (.lexeme .identifier)] := by
    decide +kernel
  obtain ⟨whole, last, label⟩ := checked p.head p.head.mem_all p listed slot member
  exact ⟨whole, last, fun r phrase => by simp [phrase] at label⟩

/-- The field and the label of what fills a slot, unless a hidden rule does. -/
def Slot.mark? (slot : Slot) : Option (Option Field × Label) :=
  match slot.symbol with
  | .terminal t => some (slot.field, slot.label.getD (.lexeme t))
  | .rule r => if r.isHidden then none else some (slot.field, .rule r)

/-- How a slot may be filled among some parts. -/
inductive Slot.Filled (slot : Slot) (parts : List Tree) : Prop where
  | lexeme (t : Terminal) (x : Lexeme) : slot.symbol = .terminal t →
      slot.dress (.leaf none (.lexeme t) x) ∈ parts → slot.Filled parts
  | phrase (p : Production) (inner : List Tree) : slot.symbol = .rule p.head → p.Listed →
      Fills p.body inner → (∀ t ∈ p.head.wrap inner, slot.dress t ∈ parts) → slot.Filled parts

/-- What fills a slot among some parts fills it among more parts. -/
theorem Slot.Filled.mono {slot : Slot} {parts more : List Tree} (filled : slot.Filled parts)
    (among : parts ⊆ more) : slot.Filled more := by
  -- The parts that fill the slot are still there.
  cases filled with
  | lexeme t x symbol there => exact .lexeme t x symbol (among there)
  | phrase p inner symbol listed fills there =>
    exact .phrase p inner symbol listed fills fun t wrapped => among (there t wrapped)

/-- Every slot of a row is filled among the parts that fill the row. -/
theorem Fills.filled {row : List Slot} {parts : List Tree} (fills : Fills row parts) :
    ∀ slot ∈ row, slot.Filled parts := by
  -- Each slot is filled where it stands, which later parts do not change.
  induction fills with
  | nil => simp
  | comment _ _ _ ih => exact fun slot member => (ih slot member).mono (List.subset_cons_self _ _)
  | @lexeme _ _ _ t x symbol _ _ _ ih =>
    refine List.forall_mem_cons.mpr ⟨.lexeme t x symbol List.mem_cons_self, ?_⟩
    exact fun slot member => (ih slot member).mono (List.subset_cons_self _ _)
  | @phrase _ _ inner _ p symbol _ listed _ fills _ _ ih =>
    refine List.forall_mem_cons.mpr ⟨.phrase p inner symbol listed fills ?_, ?_⟩
    · exact fun t wrapped => List.mem_append_left _ (List.mem_map_of_mem wrapped)
    · exact fun slot member => (ih slot member).mono (List.subset_append_right _ _)

/-- A slot that no hidden rule fills has a part with its field and its label. -/
theorem Slot.Filled.exists_part {slot : Slot} {parts : List Tree} (filled : slot.Filled parts)
    {mark : Option Field × Label} (known : slot.mark? = some mark) :
    ∃ part ∈ parts, (part.field, part.label) = mark := by
  -- A lexeme or a phrase of its own shows the field and the label of the slot.
  cases filled with
  | lexeme t x symbol there =>
    refine ⟨_, there, ?_⟩
    simpa [mark?, symbol, Tree.field, Tree.label] using known
  | phrase p inner symbol listed fills there =>
    simp only [mark?, symbol] at known
    split at known
    · cases known
    · rename_i shown
      refine ⟨_, there (.node none p.head inner) (by simp [Rule.wrap, shown]), ?_⟩
      simpa [Tree.field, Tree.label] using known

/-- Whether every phrase of a rule has a part with some field or, as one may ask, without any,
where hidden rules are followed to some depth. -/
def Rule.gives : Nat → Option Field → Rule → Bool
  | 0, _, _ => false
  | depth + 1, field, r => r.productions.all fun p => p.body.any fun slot =>
    match slot.symbol, slot.mark? with
    | _, some mark => mark.1 = field
    | .rule inner, none => (slot.field = field && gives depth none inner) ||
        (slot.field.isNone && gives depth field inner)
    | .terminal _, none => false

/-- A phrase of a rule that gives a field has a part with that field. -/
theorem Fills.exists_field {p : Production} {parts : List Tree} (fills : Fills p.body parts)
    (listed : p.Listed) {depth : Nat} {field : Option Field}
    (gives : p.head.gives depth field) : ∃ part ∈ parts, part.field = field := by
  -- The slot that gives the field has it itself or is filled by a hidden rule that gives it.
  induction depth generalizing p parts field with
  | zero => simp [Rule.gives] at gives
  | succ depth ih =>
    simp only [Rule.gives, List.all_eq_true] at gives
    obtain ⟨slot, member, here⟩ := List.any_eq_true.mp (gives p listed)
    have filled : slot.Filled parts := fills.filled slot member
    cases mark : slot.mark? with
    | some mark =>
      obtain ⟨part, inside, same⟩ := filled.exists_part mark
      exact ⟨part, inside, by simp_all [Prod.ext_iff]⟩
    | none =>
      cases filled with
      | lexeme t x symbol => simp [mark, symbol] at here
      | phrase q inner symbol listed fills there =>
        have hidden : q.head.wrap inner = inner := by
          simp only [Slot.mark?, symbol] at mark
          simp_all [Rule.wrap]
        rw [hidden] at there
        simp only [mark, symbol, Bool.or_eq_true, Bool.and_eq_true, decide_eq_true_eq,
          Option.isNone_iff_eq_none] at here
        rcases here with ⟨own, bare⟩ | ⟨none, given⟩
        · obtain ⟨part, inside, same⟩ := ih fills listed bare
          exact ⟨_, there part inside, by simp [same, own]⟩
        · obtain ⟨part, inside, same⟩ := ih fills listed given
          exact ⟨_, there part inside, by simp [same, none]⟩

/-- Whether what fills a slot has a good field and label, where some hidden rules are good. -/
def Slot.keeps (good : Option Field × Label → Bool) (hidden : List Rule) (slot : Slot) : Bool :=
  match slot.symbol, slot.mark? with
  | _, some mark => good mark
  | .rule r, none => slot.field.isNone && slot.label.isNone && hidden.contains r
  | .terminal _, none => false

/-- If the slots of a row and those of the hidden rules in it keep to good fields and labels, so
do all parts that fill the row. -/
theorem Fills.forall_good {row : List Slot} {parts : List Tree} (fills : Fills row parts)
    {good : Option Field × Label → Bool} {hidden : List Rule}
    (comments : ∀ t : Terminal, t.isComment → good (none, .lexeme t))
    (closed : ∀ r ∈ hidden, ∀ p ∈ r.productions, ∀ slot ∈ p.body, slot.keeps good hidden)
    (keeps : ∀ slot ∈ row, slot.keeps good hidden) :
    ∀ part ∈ parts, good (part.field, part.label) := by
  -- The induction is on what fills the row; the parts of a hidden phrase are good by the
  -- hypothesis for its own body, since no slot with a hidden rule changes them.
  induction fills with
  | nil => simp
  | comment comment _ _ ih => exact List.forall_mem_cons.mpr ⟨comments _ comment, ih keeps⟩
  | lexeme symbol _ _ _ ih =>
    obtain ⟨here, later⟩ := List.forall_mem_cons.mp keeps
    refine List.forall_mem_cons.mpr ⟨?_, ih later⟩
    simpa [Slot.keeps, Slot.mark?, symbol, Tree.field, Tree.label] using here
  | @phrase slot row inner parts p symbol _ listed _ fills _ innerGood ih =>
    obtain ⟨here, later⟩ := List.forall_mem_cons.mp keeps
    refine List.forall_mem_append.mpr ⟨?_, ih later⟩
    cases shown : p.head.isHidden with
    | true =>
      simp only [Slot.keeps, Slot.mark?, symbol, shown, if_true, Bool.and_eq_true,
        Option.isNone_iff_eq_none, List.contains_iff_mem] at here
      obtain ⟨⟨bare, plain⟩, member⟩ := here
      intro part inside
      simp only [Rule.wrap, shown, if_true, List.mem_map] at inside
      obtain ⟨t, inside, rfl⟩ := inside
      have same : slot.dress t = t := by
        cases t <;> simp [bare, plain]
      rw [same]
      exact innerGood (closed p.head member p listed) t inside
    | false => simpa [Slot.keeps, Slot.mark?, symbol, Rule.wrap, shown, Tree.field,
        Tree.label] using here

/-- If a row starts with a slot without a field, so does what fills it. -/
theorem Fills.first_field {slot : Slot} {row : List Slot} {parts : List Tree} {label : Label}
    (fills : Fills (slot :: row) parts) (bare : slot.mark? = some (none, label)) :
    ∃ first rest, parts = first :: rest ∧ first.field = none := by
  -- A comment in front has no field either.
  cases fills with
  | comment => exact ⟨_, _, rfl, rfl⟩
  | lexeme symbol =>
    simp only [Slot.mark?, symbol, Option.some.injEq, Prod.mk.injEq] at bare
    exact ⟨_, _, rfl, by simp [Tree.field, bare.1]⟩
  | @phrase _ _ inner rest p symbol =>
    simp only [Slot.mark?, symbol] at bare
    split at bare
    · cases bare
    · rename_i shown
      simp only [Option.some.injEq, Prod.mk.injEq] at bare
      exact ⟨slot.dress (.node none p.head inner), rest, by simp [Rule.wrap, shown],
        by simp [Tree.field, bare.1]⟩

namespace Derived

variable {field : Option Field} {r : Rule} {parts : List Tree}

/-- The parts of a derived phrase are derived, too. -/
theorem inner (derived : Derived (.node field r parts)) : ∀ part ∈ parts, Derived part := by
  cases derived with
  | node _ _ _ inner => exact inner

/-- A derived phrase has a part with any field that its rule gives. -/
theorem exists_field (derived : Derived (.node field r parts)) {depth : Nat} {known : Option Field}
    (gives : r.gives depth known) : ∃ part ∈ parts, part.field = known := by
  -- The production of the phrase is one of its rule, where the check applies.
  cases derived with
  | node member _ fills _ =>
    have head := Rule.head_of_mem member
    exact fills.exists_field (Rule.listed_of_mem member) (head ▸ gives)

/-- The parts of a derived phrase have good fields and labels if the slots of its rule and of
the hidden rules in it do. -/
theorem forall_good (derived : Derived (.node field r parts))
    (good : Option Field × Label → Bool) (hidden : List Rule)
    (comments : ∀ t : Terminal, t.isComment → good (none, .lexeme t))
    (closed : ∀ r' ∈ r :: hidden, ∀ p ∈ r'.productions, ∀ slot ∈ p.body,
      slot.keeps good hidden) :
    ∀ part ∈ parts, good (part.field, part.label) := by
  -- The own slots of the rule are checked as those of the hidden rules are.
  obtain ⟨own, inner⟩ := List.forall_mem_cons.mp closed
  cases derived with
  | node member _ fills _ => exact fills.forall_good comments inner (own _ member)

/-- A derived phrase starts with a part without a field if the productions of its rule do. -/
theorem first_field (derived : Derived (.node field r parts))
    (bare : ∀ p ∈ r.productions, (p.body.head?.bind Slot.mark?).map (·.1) = some none) :
    ∃ first rest, parts = first :: rest ∧ first.field = none := by
  -- The check looks at the first slot of every production.
  cases derived with
  | @node _ _ p _ member _ fills _ =>
    have start := bare p member
    cases body : p.body with
    | nil => simp [body] at start
    | cons slot row =>
      rw [body] at fills
      simp only [body, List.head?_cons, Option.bind_some, Option.map_eq_some_iff] at start
      obtain ⟨⟨known, label⟩, mark, rfl⟩ := start
      exact fills.first_field mark

end Derived

end TypeGraph.Java
