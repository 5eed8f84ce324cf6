import TypeGraph.Proofs.Java.Comments

/-! Trees without layout: comments left out, and lexemes without blanks before them and places. -/

namespace TypeGraph.Java

/-- A lexeme wherever it stands. -/
def Lexeme.bare (x : Lexeme) : Lexeme := { x with gap := [], start := .start }

namespace Tree

mutual
/-- A tree without comments in it, its lexemes wherever they stand. -/
def bare : Tree → Tree
  | leaf field label x => leaf field label x.bare
  | node field r parts => node field r (bareAmong parts)
/-- Trees that are no comments, without comments in them. -/
def bareAmong : List Tree → List Tree
  | [] => []
  | t :: rest => if t.isComment then bareAmong rest else t.bare :: bareAmong rest
end

@[simp] theorem field_bare (t : Tree) : t.bare.field = t.field := by cases t <;> rfl

@[simp] theorem label_bare (t : Tree) : t.bare.label = t.label := by cases t <;> rfl

@[simp] theorem parts_bare (t : Tree) : t.bare.parts = bareAmong t.parts := by cases t <;> rfl

@[simp] theorem isRule_bare (t : Tree) (r : Rule) : t.bare.isRule r = t.isRule r := by
  simp [isRule]

@[simp] theorem isComment_bare (t : Tree) : t.bare.isComment = t.isComment := by
  simp [isComment]

/-- Comments are left out, and the others remain in order. -/
theorem bareAmong_eq (parts : List Tree) :
    bareAmong parts = (parts.filter fun part => !part.isComment).map bare := by
  induction parts with
  | nil => rfl
  | cons t rest ih => by_cases comment : t.isComment <;> simp [bareAmong, comment, ih]

section

variable {parts : List Tree} {wanted : Tree → Bool}
  (layout : ∀ t : Tree, wanted t.bare = wanted t)
  (comments : ∀ part ∈ parts, part.isComment → wanted part = false)
include layout comments

/-- What is no comment is found among bare trees where it is found among the trees. -/
theorem find?_bareAmong : (bareAmong parts).find? wanted = (parts.find? wanted).map bare := by
  -- A comment is left out on one side and passed over on the other.
  induction parts with
  | nil => rfl
  | cons t rest ih =>
    obtain ⟨here, later⟩ := List.forall_mem_cons.mp comments
    by_cases comment : t.isComment
    · simp [bareAmong, comment, here comment, ih later]
    · cases found : wanted t <;> simp [bareAmong, comment, layout, found, ih later]

/-- What is no comment is among bare trees if it is among the trees. -/
theorem any_bareAmong : (bareAmong parts).any wanted = parts.any wanted := by
  induction parts with
  | nil => rfl
  | cons t rest ih =>
    obtain ⟨here, later⟩ := List.forall_mem_cons.mp comments
    by_cases comment : t.isComment <;> simp [bareAmong, comment, layout, ih later, here]

end

/-- The parts of a tree with comments in place are such trees. -/
theorem Neat.parts {t : Tree} (neat : t.Neat) : ∀ part ∈ t.parts, part.Neat := by
  cases neat with
  | leaf => simp [Tree.parts]
  | node inner => exact inner

/-- A comment in its place has no field. -/
theorem Neat.field_of_isComment {t : Tree} (neat : t.Neat) (comment : t.isComment) :
    t.field = none := by
  cases neat with
  | leaf bare => exact bare comment
  | node => cases comment

/-- What has a field is no comment in its place. -/
theorem Neat.isComment_of_field {t : Tree} {field : Field} (neat : t.Neat)
    (known : t.field = some field) : t.isComment = false := by
  refine Bool.eq_false_iff.mpr fun comment => ?_
  rw [neat.field_of_isComment comment] at known
  cases known

/-- What is known by a field is found as it is found among the trees with comments. -/
theorem find?_field_bareAmong {parts : List Tree} (neat : ∀ part ∈ parts, part.Neat)
    (field : Field) : (bareAmong parts).find? (fun part => part.field = some field) =
      (parts.find? fun part => part.field = some field).map bare :=
  find?_bareAmong (by simp) fun part member comment => by
    simp [(neat part member).field_of_isComment comment]

/-- A comment is labelled as such. -/
theorem label_ne_of_isComment {t : Tree} {label : Label} (other : label.isComment = false)
    (comment : t.isComment) : t.label ≠ label := by
  rintro rfl
  rw [isComment, other] at comment
  cases comment

/-- A comment is no phrase. -/
theorem isRule_of_isComment {t : Tree} (comment : t.isComment) (r : Rule) : t.isRule r = false :=
  decide_eq_false (label_ne_of_isComment rfl comment)

section

variable (parts : List Tree) {label : Label} (other : label.isComment = false)
include other

/-- What has a label, if not that of a comment, is found as it is found with comments. -/
theorem find?_label_bareAmong : (bareAmong parts).find? (fun part => part.label = label) =
    (parts.find? fun part => part.label = label).map bare :=
  find?_bareAmong (by simp) fun part _ comment => by
    simpa using label_ne_of_isComment other comment

/-- Whether any part has a label, if not that of a comment, does not depend on comments. -/
theorem any_label_bareAmong : ((bareAmong parts).any fun part => part.label = label) =
    parts.any fun part => part.label = label :=
  any_bareAmong (by simp) fun part _ comment => by
    simpa using label_ne_of_isComment other comment

end

/-- Whether a part is a lexeme. -/
def isLeaf : Tree → Bool
  | leaf _ _ _ => true
  | node _ _ _ => false

/-- The text of a lexeme is the same wherever it stands. -/
theorem text_bare_of_isLeaf {t : Tree} (lexeme : t.isLeaf) : t.bare.text = t.text := by
  cases t with
  | leaf => rfl
  | node => cases lexeme

end Tree

/-! ### Names are lexemes -/

/-- The fields under which names are known. -/
def Field.naming : List (Option Field) := [some .name, some .member]

/-- Rules whose phrases may have qualified names. -/
def Rule.qualifying : List Rule := [.annotationMarker, .annotationCall, .moduleDeclaration]

/-- Whether a symbol stands for lexemes only. -/
def Symbol.isTerminal : Symbol → Bool
  | terminal _ => true
  | rule _ => false

/-- Whether a symbol stands for single names, among them reserved words. -/
def Symbol.isName (s : Symbol) : Bool := s.isTerminal || s = .rule .reservedIdentifier

/-- Names are lexemes in all phrases but some. -/
theorem Production.Listed.isName {p : Production} (listed : p.Listed)
    (plain : p.head ∉ Rule.qualifying) :
    ∀ slot ∈ p.body, slot.field ∈ Field.naming → slot.symbol.isName := by
  -- The slots of the grammar are looked at for the field of a name with any other symbol.
  have checked : ∀ r ∈ Rule.all, r ∉ Rule.qualifying → ∀ p ∈ r.productions, ∀ slot ∈ p.body,
      slot.field ∈ Field.naming → slot.symbol.isName := by
    decide +kernel
  exact checked p.head p.head.mem_all plain p listed

namespace Fills

variable {row : List Slot} {parts : List Tree}

/-- Lexemes fill the slots of terminals. -/
theorem isLeaf_of_terminal (fills : Fills row parts)
    (terminal : ∀ slot ∈ row, slot.symbol.isTerminal) : ∀ part ∈ parts, part.isLeaf := by
  -- A terminal is filled by a lexeme, and what goes between is comments.
  induction fills with
  | nil => simp
  | comment _ _ _ ih => exact List.forall_mem_cons.mpr ⟨rfl, ih terminal⟩
  | lexeme _ _ _ _ ih =>
    obtain ⟨-, later⟩ := List.forall_mem_cons.mp terminal
    exact List.forall_mem_cons.mpr ⟨by simp [Tree.isLeaf], ih later⟩
  | phrase symbol =>
    have other := terminal _ List.mem_cons_self
    rw [symbol] at other
    cases other

/-- Names are lexemes among the parts of a row whose slots have lexemes as names. -/
theorem isLeaf_of_name (fills : Fills row parts)
    (plain : ∀ slot ∈ row, slot.field ∈ Field.naming → slot.symbol.isName) :
    ∀ part ∈ parts, part.field ∈ Field.naming → part.isLeaf := by
  induction fills with
  | nil => simp
  | comment _ _ _ ih => exact List.forall_mem_cons.mpr ⟨fun _ => rfl, ih plain⟩
  | lexeme _ _ _ _ ih =>
    obtain ⟨-, later⟩ := List.forall_mem_cons.mp plain
    exact List.forall_mem_cons.mpr ⟨fun _ => by simp [Tree.isLeaf], ih later⟩
  | @phrase slot row inner parts p symbol _ listed _ fills _ ihInner ih =>
    obtain ⟨here, later⟩ := List.forall_mem_cons.mp plain
    refine List.forall_mem_append.mpr ⟨fun part member name => ?_, ih later⟩
    obtain ⟨t, inside, rfl⟩ := List.mem_map.mp member
    have lexeme : t.isLeaf → (slot.dress t).isLeaf := by cases t <;> simp [Tree.isLeaf]
    by_cases naming : slot.field ∈ Field.naming
    · -- What is a name as a whole is a reserved word.
      have word : p.head = .reservedIdentifier := by
        simpa [symbol, Symbol.isName, Symbol.isTerminal] using here naming
      have words : ∀ p ∈ Rule.reservedIdentifier.productions, ∀ slot ∈ p.body,
          slot.symbol.isTerminal := by
        decide +kernel
      rw [word, Rule.wrap, if_pos (by rfl)] at inside
      exact lexeme (fills.isLeaf_of_terminal (words p (word ▸ listed)) t inside)
    · -- What is not has its own names, if it is hidden.
      rw [Slot.field_dress] at name
      unfold Rule.wrap at inside
      split at inside
      · rename_i hidden
        have unqualified : p.head ∉ Rule.qualifying := fun member => by
          simp only [Rule.qualifying, List.mem_cons, List.not_mem_nil, or_false] at member
          rcases member with same | same | same <;> simp [same, Rule.isHidden] at hidden
        cases own : t.field with
        | none => exact absurd (by simpa [own] using name) naming
        | some field =>
          exact lexeme (ihInner (listed.isName unqualified) t inside (by simpa [own] using name))
      · obtain rfl := List.mem_singleton.mp inside
        exact absurd (by simpa [Tree.field] using name) naming

end Fills

/-- Names are lexemes among the parts of a derived phrase, for all rules but some. -/
theorem Derived.isLeaf_of_name {field : Option Field} {r : Rule} {parts : List Tree}
    (derived : Derived (.node field r parts)) (plain : r ∉ Rule.qualifying) :
    ∀ part ∈ parts, part.field ∈ Field.naming → part.isLeaf := by
  -- The phrase fills the body of a production of its rule.
  cases derived with
  | @node _ _ p _ member _ fills _ =>
    have head := Rule.head_of_mem member
    exact fills.isLeaf_of_name ((Rule.listed_of_mem member).isName (by rwa [head]))

end TypeGraph.Java
