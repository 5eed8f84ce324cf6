import TypeGraph.Proofs.Java.Bare
import TypeGraph.Proofs.Java.Parts

/-! Rows of slots and the trees that fill them, where comments between the trees are passed over. -/

namespace TypeGraph.Java

namespace Tree

/-- The trees among some that are no comments. -/
def uncommented (parts : List Tree) : List Tree := parts.filter fun part => !part.isComment

theorem uncommented_append (front back : List Tree) :
    uncommented (front ++ back) = uncommented front ++ uncommented back :=
  List.filter_append front back

theorem uncommented_cons_of_isComment {t : Tree} (comment : t.isComment) (rest : List Tree) :
    uncommented (t :: rest) = uncommented rest :=
  List.filter_cons_of_neg (by simpa using comment)

theorem uncommented_cons {t : Tree} (part : t.isComment = false) (rest : List Tree) :
    uncommented (t :: rest) = t :: uncommented rest :=
  List.filter_cons_of_pos (by simpa using part)

theorem uncommented_reverse (parts : List Tree) :
    uncommented parts.reverse = (uncommented parts).reverse :=
  List.filter_reverse

/-- The last tree stays the last one if it is no comment. -/
theorem getLast?_uncommented {parts : List Tree}
    (last : ∀ part ∈ parts.getLast?, part.isComment = false) :
    (uncommented parts).getLast? = parts.getLast? := by
  -- What is left out stands before the end.
  rcases List.eq_nil_or_concat parts with rfl | ⟨front, part, rfl⟩
  · rfl
  · have other : part.isComment = false := last part (by simp)
    rw [List.concat_eq_append, uncommented_append, uncommented_cons other,
      List.getLast?_append, List.getLast?_append]
    rfl

/-- What is no comment is found where it is found among all trees. -/
theorem find?_uncommented {parts : List Tree} {wanted : Tree → Bool}
    (comments : ∀ part ∈ parts, part.isComment → wanted part = false) :
    (uncommented parts).find? wanted = parts.find? wanted := by
  induction parts with
  | nil => rfl
  | cons t rest ih =>
    obtain ⟨here, later⟩ := List.forall_mem_cons.mp comments
    cases comment : t.isComment with
    | true => rw [uncommented_cons_of_isComment comment, ih later,
        List.find?_cons_of_neg (by simp [here comment])]
    | false => rw [uncommented_cons comment, List.find?_cons, List.find?_cons, ih later]

/-- What is shown as a lexeme is one. -/
theorem exists_leaf {t : Tree} {field : Option Field} {label : Label}
    (shown : (t.field, t.label) = (field, label)) (lexeme : ∀ r, label ≠ .rule r) :
    ∃ x, t = .leaf field label x := by
  obtain ⟨rfl, rfl⟩ := Prod.mk.inj shown
  cases t with
  | leaf _ _ x => exact ⟨x, rfl⟩
  | node _ r => exact absurd rfl (lexeme r)

end Tree

/-- How trees fill a row of slots without any comments. -/
inductive Fits : List Slot → List Tree → Prop where
  /-- No slot is left. -/
  | nil : Fits [] []
  /-- A tree has the field and the label of its slot. -/
  | shown {slot : Slot} {row : List Slot} {part : Tree} {parts : List Tree} :
      slot.mark? = some (part.field, part.label) → Fits row parts →
      Fits (slot :: row) (part :: parts)
  /-- The slot of a hidden rule is filled by the trees of one of its productions. -/
  | hidden {slot : Slot} {row : List Slot} {p : Production} {inner parts : List Tree} :
      slot.symbol = .rule p.head → slot.label = none → p.head.isHidden → p.Listed →
      Fits p.body inner → Fits row parts → Fits (slot :: row) (inner.map slot.dress ++ parts)

/-- Only lexemes are shown by another label than their own. -/
theorem Production.Listed.unlabelled {p : Production} (listed : p.Listed) {slot : Slot}
    (member : slot ∈ p.body) : slot.symbol.isTerminal ∨ slot.label = none := by
  -- Every slot of the grammar is looked at.
  have checked : ∀ r ∈ Rule.all, ∀ p ∈ r.productions, ∀ slot ∈ p.body,
      slot.symbol.isTerminal ∨ slot.label = none := by
    decide +kernel
  exact checked p.head p.head.mem_all p listed slot member

namespace Slot

variable {slot : Slot}

/-- A slot without field and label leaves trees as they are. -/
theorem dress_eq_id (unnamed : slot.field = none) (unlabelled : slot.label = none) :
    slot.dress = id := by
  funext t
  cases t <;> simp [unnamed, unlabelled]

variable (unlabelled : slot.label = none)
include unlabelled

/-- A slot without a label leaves those of its trees. -/
theorem label_dress (t : Tree) : (slot.dress t).label = t.label := by
  cases t <;> simp [Tree.label, unlabelled]

/-- What is neat in a slot without a label is so by itself. -/
theorem neat_of_dress {t : Tree} (neat : (slot.dress t).Neat) : t.Neat := by
  -- A comment in the slot has no field, so it had none before.
  cases t with
  | leaf field label x =>
    refine .leaf fun comment => ?_
    have bare := neat.field_of_isComment (by simpa [Tree.isComment, Tree.label, unlabelled])
    rw [field_dress] at bare
    cases field with
    | none => rfl
    | some => cases bare
  | node field r parts =>
    rw [dress_node] at neat
    cases neat with
    | node inner last => exact .node inner last

/-- Comments are the same before and after their slot is known. -/
theorem uncommented_dress (inner : List Tree) :
    Tree.uncommented (inner.map slot.dress) = (Tree.uncommented inner).map slot.dress := by
  induction inner with
  | nil => rfl
  | cons t rest ih =>
    have same : (slot.dress t).isComment = t.isComment := by
      rw [Tree.isComment, label_dress unlabelled, Tree.isComment]
    cases comment : t.isComment with
    | true => rw [List.map_cons, Tree.uncommented_cons_of_isComment (same.trans comment), ih,
        Tree.uncommented_cons_of_isComment comment]
    | false => rw [List.map_cons, Tree.uncommented_cons (same.trans comment), ih,
        Tree.uncommented_cons comment, List.map_cons]

end Slot

/-- Trees that fill a row with comments in place fill it without the comments. -/
theorem Fills.fits {row : List Slot} {parts : List Tree} (fills : Fills row parts)
    (careful : ∀ slot ∈ row, slot.Careful)
    (unlabelled : ∀ slot ∈ row, slot.symbol.isTerminal ∨ slot.label = none)
    (neat : ∀ part ∈ parts, part.Neat) : Fits row (Tree.uncommented parts) := by
  induction fills with
  | nil => exact .nil
  | @comment _ _ x comment _ _ ih =>
    obtain ⟨-, later⟩ := List.forall_mem_cons.mp neat
    have here : (Tree.leaf none (.lexeme x.terminal) x).isComment := comment
    rw [Tree.uncommented_cons_of_isComment here]
    exact ih careful unlabelled later
  | @lexeme slot _ _ t x symbol _ _ _ ih =>
    obtain ⟨care, others⟩ := List.forall_mem_cons.mp careful
    obtain ⟨-, free⟩ := List.forall_mem_cons.mp unlabelled
    obtain ⟨-, later⟩ := List.forall_mem_cons.mp neat
    have inner := care.symbol
    rw [symbol] at inner
    have part : (slot.dress (.leaf none (.lexeme t) x)).isComment = false :=
      care.isComment_dress (by simpa [Symbol.isInner, Label.isComment] using inner)
    rw [Tree.uncommented_cons part]
    refine .shown ?_ (ih others free later)
    simp [Slot.mark?, symbol, Tree.field, Tree.label]
  | @phrase slot _ inner _ p symbol _ listed _ _ _ ihInner ih =>
    obtain ⟨care, others⟩ := List.forall_mem_cons.mp careful
    obtain ⟨own, free⟩ := List.forall_mem_cons.mp unlabelled
    obtain ⟨here, later⟩ := List.forall_mem_append.mp neat
    have own : slot.label = none := own.resolve_left (by simp [symbol, Symbol.isTerminal])
    rw [Tree.uncommented_append]
    cases shown : p.head.isHidden with
    | true =>
      -- The trees of a hidden phrase are neat by themselves, since its slot does no more than name
      -- them.
      have wrap : p.head.wrap inner = inner := by simp [Rule.wrap, shown]
      rw [wrap] at here ⊢
      have neatInner : ∀ t ∈ inner, t.Neat := fun t member =>
        Slot.neat_of_dress own (here _ (List.mem_map_of_mem member))
      have fits := ihInner (fun slot member => listed.careful member)
        (fun slot member => listed.unlabelled member) neatInner
      rw [Slot.uncommented_dress own]
      exact .hidden symbol own shown listed fits (ih others free later)
    | false =>
      have wrap : p.head.wrap inner = [.node none p.head inner] := by simp [Rule.wrap, shown]
      rw [wrap, List.map_singleton, Tree.uncommented_cons (by simp)]
      refine .shown ?_ (ih others free later)
      simp [Slot.mark?, symbol, shown, Tree.field, Tree.label]

/-- The parts of a derived tree are derived, too. -/
theorem Derived.parts {t : Tree} (derived : Derived t) : ∀ part ∈ t.parts, Derived part := by
  cases derived with
  | leaf => simp [Tree.parts]
  | node _ _ _ inner => exact inner

/-- A derived phrase with comments in place has parts that fit a production of its rule. -/
theorem Derived.exists_fits {field : Option Field} {r : Rule} {parts : List Tree}
    (derived : Derived (.node field r parts)) (neat : ∀ part ∈ parts, part.Neat) :
    ∃ p ∈ r.productions, Fits p.body (Tree.uncommented parts) := by
  cases derived with
  | @node _ _ p _ member _ fills _ =>
    have listed := Rule.listed_of_mem member
    exact ⟨p, member, fills.fits (fun slot => listed.careful) (fun slot => listed.unlabelled) neat⟩

namespace Fits

variable {slot : Slot} {row : List Slot} {parts : List Tree}

/-- A slot of a hidden rule has the trees of a production of that rule. -/
theorem cons_hidden (fits : Fits (slot :: row) parts) {r : Rule} (symbol : slot.symbol = .rule r)
    (hidden : r.isHidden) : ∃ p ∈ r.productions, ∃ inner rest,
      parts = inner.map slot.dress ++ rest ∧ Fits p.body inner ∧ Fits row rest := by
  cases fits with
  | shown same => simp [Slot.mark?, symbol, hidden] at same
  | hidden symbol' _ _ listed inner later =>
    obtain rfl := Symbol.rule.inj (symbol.symm.trans symbol')
    exact ⟨_, listed, _, _, rfl, inner, later⟩

/-- Two rows are filled in turn. -/
theorem of_append {row' : List Slot} (fits : Fits (row ++ row') parts) :
    ∃ front back, parts = front ++ back ∧ Fits row front ∧ Fits row' back := by
  induction row generalizing parts with
  | nil => exact ⟨[], parts, rfl, .nil, fits⟩
  | cons slot row ih =>
    cases fits with
    | shown same later =>
      obtain ⟨front, back, rfl, first, second⟩ := ih later
      exact ⟨_ :: front, back, rfl, .shown same first, second⟩
    | hidden symbol unlabelled hidden listed inner later =>
      obtain ⟨front, back, rfl, first, second⟩ := ih later
      exact ⟨_ ++ front, back, (List.append_assoc ..).symm,
        .hidden symbol unlabelled hidden listed inner first, second⟩

/-- A row without hidden rules has one tree for each slot. -/
theorem marks (fits : Fits row parts) {marks : List (Option Field × Label)}
    (known : row.map Slot.mark? = marks.map some) :
    parts.map (fun part => (part.field, part.label)) = marks := by
  induction fits generalizing marks with
  | nil => simpa using known.symm
  | shown same _ ih =>
    rcases marks with _ | ⟨mark, marks⟩
    · cases known
    · obtain ⟨first, later⟩ := List.cons.inj known
      rw [List.map_cons, ih later, Option.some.inj (same.symm.trans first)]
  | hidden symbol _ hidden =>
    rcases marks with _ | ⟨mark, marks⟩
    · cases known
    · simp [Slot.mark?, symbol, hidden] at known

end Fits

/-- Whether what fills a slot has a good field and label where the phrase with the slot is known by
some field, and hidden rules are good for phrases known by some fields. -/
def Slot.keepsUnder (good : Option Field × Label → Bool) (hidden : List (Option Field × Rule))
    (around : Option Field) (slot : Slot) : Bool :=
  match slot.symbol, slot.mark? with
  | _, some mark => good (mark.1 <|> around, mark.2)
  | .rule r, none => hidden.contains (slot.field <|> around, r)
  | .terminal _, none => false

/-- If the slots of a row and those of the hidden rules in it keep to good fields and labels, so
do all trees that fill the row, also where a hidden rule has a field of its own. -/
theorem Fits.forall_good {row : List Slot} {parts : List Tree} (fits : Fits row parts)
    {good : Option Field × Label → Bool} {hidden : List (Option Field × Rule)}
    (closed : ∀ h ∈ hidden, ∀ p ∈ h.2.productions, ∀ slot ∈ p.body,
      slot.keepsUnder good hidden h.1)
    {around : Option Field} (keeps : ∀ slot ∈ row, slot.keepsUnder good hidden around) :
    ∀ part ∈ parts, good (part.field <|> around, part.label) := by
  -- Inside a hidden phrase the field of its slot comes before that of the phrase around.
  induction fits generalizing around with
  | nil => simp
  | shown mark _ ih =>
    obtain ⟨here, later⟩ := List.forall_mem_cons.mp keeps
    refine List.forall_mem_cons.mpr ⟨?_, ih later⟩
    simpa [Slot.keepsUnder, mark] using here
  | @hidden slot _ p inner _ symbol unlabelled isHidden listed _ _ ihInner ih =>
    obtain ⟨here, later⟩ := List.forall_mem_cons.mp keeps
    refine List.forall_mem_append.mpr ⟨?_, ih later⟩
    have known : (slot.field <|> around, p.head) ∈ hidden := by
      simpa [Slot.keepsUnder, Slot.mark?, symbol, isHidden] using here
    intro part member
    obtain ⟨t, inside, rfl⟩ := List.mem_map.mp member
    have good := ihInner (closed _ known p listed) t inside
    rw [Slot.field_dress, Slot.label_dress unlabelled]
    cases own : t.field <;> simpa [own] using good

/-- The parts of a derived phrase, apart from comments, have good fields and labels if the slots of
its rule and of the hidden rules in it do. -/
theorem Derived.uncommented_good {field : Option Field} {r : Rule} {parts : List Tree}
    (derived : Derived (.node field r parts)) (neat : ∀ part ∈ parts, part.Neat)
    (good : Option Field × Label → Bool) (hidden : List (Option Field × Rule))
    (closed : ∀ h ∈ (none, r) :: hidden, ∀ p ∈ h.2.productions, ∀ slot ∈ p.body,
      slot.keepsUnder good hidden h.1) :
    ∀ part ∈ parts, part.isComment = false → good (part.field, part.label) := by
  obtain ⟨own, inner⟩ := List.forall_mem_cons.mp closed
  obtain ⟨p, member, fits⟩ := derived.exists_fits neat
  intro part among other
  have shown : part ∈ Tree.uncommented parts := List.mem_filter.mpr ⟨among, by simpa using other⟩
  simpa using fits.forall_good inner (own p member) part shown

end TypeGraph.Java
