import TypeGraph.Java.Symbol

/-! Right-hand sides of grammar rules and the flat productions that they stand for. -/

namespace TypeGraph.Java

/-- What may stand on the right-hand side of a rule. -/
inductive Phrase where
  /-- Nothing. -/
  | nothing
  /-- One symbol. -/
  | symbol (s : Symbol)
  /-- One phrase followed by another. -/
  | both (first second : Phrase)
  /-- One of two phrases. -/
  | either (first second : Phrase)
  /-- A phrase whose parts are known by a field name. -/
  | labelled (field : Field) (p : Phrase)
  /-- A phrase whose parts are shown under another label. -/
  | renamed (label : Label) (p : Phrase)
deriving Repr

instance : Coe Symbol Phrase := ⟨Phrase.symbol⟩
instance : Coe Terminal Phrase := ⟨fun t => .symbol (.terminal t)⟩
instance : Coe Rule Phrase := ⟨fun r => .symbol (.rule r)⟩

/-- One place in a production. -/
structure Slot where
  /-- The symbol expected there. -/
  symbol : Symbol
  /-- The field name of the part that fills the place. -/
  field : Option Field
  /-- The label of the part, where it is not that of the symbol. -/
  label : Option Label
deriving DecidableEq, Repr

namespace Phrase

/-- Several phrases in a row. -/
def seq : List Phrase → Phrase
  | [] => nothing
  | [p] => p
  | p :: rest => both p (seq rest)

/-- Any one of several phrases. -/
def oneOf : List Phrase → Phrase
  | [] => nothing
  | [p] => p
  | p :: rest => either p (oneOf rest)

/-- A phrase or nothing. -/
def opt (p : Phrase) : Phrase := either p nothing

/-- The rows of slots that a phrase allows. -/
def rows : Phrase → List (List Slot)
  | nothing => [[]]
  | symbol s => [[⟨s, none, none⟩]]
  | both first second => first.rows.flatMap fun front => second.rows.map fun back => front ++ back
  | either first second => first.rows ++ second.rows
  | labelled field p => p.rows.map fun row => row.map fun slot =>
      { slot with field := slot.field <|> some field }
  | renamed label p => p.rows.map fun row => row.map fun slot => { slot with label := some label }

end Phrase

/-- The side to which operators of one strength group. -/
inductive Side where
  | left | right
deriving DecidableEq, Repr

/-- How a production fares against others that fit the same text. -/
structure Rank where
  /-- Of two readings at one place, the one with the higher level is taken. -/
  level : Int
  /-- How readings of one level group. -/
  side : Option Side
  /-- Of two readings of a whole stretch, the one with more favour is taken. -/
  favour : Nat
deriving DecidableEq, Repr

/-- A rule in flat form: a head, a row of slots and a rank. -/
structure Production where
  head : Rule
  body : List Slot
  rank : Rank
deriving DecidableEq, Repr

/-- The right-hand side of a rule: phrases with their ranks. -/
abbrev Definition := List (Rank × Phrase)

namespace Definition

/-- A phrase without a rank of its own. -/
def plain (p : Phrase) : Definition := [(⟨0, none, 0⟩, p)]

/-- A phrase of a given level. -/
def ranked (level : Int) (p : Phrase) : Definition := [(⟨level, none, 0⟩, p)]

/-- A phrase of a given level that groups to the left. -/
def leftward (level : Int) (p : Phrase) : Definition := [(⟨level, some .left, 0⟩, p)]

/-- A phrase of a given level that groups to the right. -/
def rightward (level : Int) (p : Phrase) : Definition := [(⟨level, some .right, 0⟩, p)]

/-- A phrase that is favoured among readings of the same stretch. -/
def favoured (favour : Nat) (p : Phrase) : Definition := [(⟨0, none, favour⟩, p)]

/-- A list of one or more items, as its shorter list followed by one item. -/
def oneOrMore (list : Rule) (item : Phrase) : Definition :=
  plain (.either (.both (.symbol (.rule list)) item) item)

/-- The productions of a rule with this right-hand side. -/
def productions (d : Definition) (head : Rule) : List Production :=
  d.flatMap fun ranked => ranked.2.rows.map fun row => ⟨head, row, ranked.1⟩

end Definition

end TypeGraph.Java
