import TypeGraph.Java.Lexeme
import TypeGraph.Java.Marked
import TypeGraph.Java.Symbol

/-! Trees of Java source texts: every lexeme is a leaf, so a tree keeps the text it is read from. -/

namespace TypeGraph.Java

/-- A part of a source text, known to the node around it by an optional field. -/
inductive Tree where
  /-- A lexeme, or the stand-in for a fault. -/
  | leaf (field : Option Field) (label : Label) (lexeme : Lexeme)
  /-- A phrase that a rule derives, with its parts in order. -/
  | node (field : Option Field) (rule : Rule) (parts : List Tree)
deriving Repr

namespace Tree

mutual
/-- Trees are compared part by part. -/
def decideEq : (t u : Tree) → Decidable (t = u)
  | leaf field label lexeme, leaf field' label' lexeme' =>
    decidable_of_iff (field = field' ∧ label = label' ∧ lexeme = lexeme') (by simp)
  | node field rule parts, node field' rule' parts' =>
    have := decideEqAll parts parts'
    decidable_of_iff (field = field' ∧ rule = rule' ∧ parts = parts') (by simp)
  | leaf _ _ _, node _ _ _ => isFalse nofun
  | node _ _ _, leaf _ _ _ => isFalse nofun
/-- Trees in a row are compared one by one. -/
def decideEqAll : (ts us : List Tree) → Decidable (ts = us)
  | [], [] => isTrue rfl
  | t :: ts, u :: us =>
    have := decideEq t u
    have := decideEqAll ts us
    decidable_of_iff (t = u ∧ ts = us) (by simp)
  | [], _ :: _ => isFalse nofun
  | _ :: _, [] => isFalse nofun
end

instance : DecidableEq Tree := decideEq

/-- The field by which the node around a part knows it. -/
def field : Tree → Option Field
  | leaf field _ _ => field
  | node field _ _ => field

/-- What a part is. -/
def label : Tree → Label
  | leaf _ label _ => label
  | node _ rule _ => .rule rule

/-- The direct parts of a phrase. -/
def parts : Tree → List Tree
  | leaf _ _ _ => []
  | node _ _ parts => parts

/-- Whether a part was derived by a given rule. -/
def isRule (t : Tree) (r : Rule) : Bool := t.label = .rule r

/-- Name a part that has no field yet. -/
def named (t : Tree) (field : Option Field) : Tree :=
  match t with
  | leaf old label lexeme => leaf (old <|> field) label lexeme
  | node old rule parts => node (old <|> field) rule parts

/-- Show a leaf under another label. -/
def relabelled (t : Tree) (label : Option Label) : Tree :=
  match t, label with
  | leaf field _ lexeme, some label => leaf field label lexeme
  | t, _ => t

mutual
/-- The lexemes of a tree from left to right. -/
def lexemes : Tree → List Lexeme
  | leaf _ _ lexeme => [lexeme]
  | node _ _ parts => lexemesAll parts
/-- The lexemes of several trees from left to right. -/
def lexemesAll : List Tree → List Lexeme
  | [] => []
  | t :: rest => lexemes t ++ lexemesAll rest
end

mutual
/-- The first lexeme of a tree. -/
def first? : Tree → Option Lexeme
  | leaf _ _ lexeme => some lexeme
  | node _ _ parts => firstAmong? parts
/-- The first lexeme of several trees. -/
def firstAmong? : List Tree → Option Lexeme
  | [] => none
  | t :: rest => match first? t with
    | some lexeme => some lexeme
    | none => firstAmong? rest
end

mutual
/-- The last lexeme of a tree. -/
def last? : Tree → Option Lexeme
  | leaf _ _ lexeme => some lexeme
  | node _ _ parts => lastAmong? parts
/-- The last lexeme of several trees. -/
def lastAmong? : List Tree → Option Lexeme
  | [] => none
  | t :: rest => match lastAmong? rest with
    | some lexeme => some lexeme
    | none => last? t
end

/-- The text from the first lexeme of a tree to the last, with the blanks between them. -/
def text (t : Tree) : List Char :=
  match t.lexemes with
  | [] => []
  | lexeme :: rest => lexeme.text ++ rest.flatMap fun next => next.gap ++ next.text

/-- The row on which a tree starts, counted from zero. -/
def startRow (t : Tree) : Nat := (t.first?.map (·.start.row)).getD 0

/-- The row on which a tree ends, counted from zero. -/
def stopRow (t : Tree) : Nat := (t.last?.map (·.stop.row)).getD 0

/-- The parts with a label of their own, which marks and plain words lack. -/
def namedParts (t : Tree) : List Tree := t.parts.filter fun part => part.label.isNamed

/-- The part that a field names. -/
def part? (t : Tree) (field : Field) : Option Tree :=
  t.parts.find? fun part => part.field = some field

/-- The place where a tree starts. -/
def place (t : Tree) : Text.Position := (t.first?.map (·.start)).getD .start

/-- Whether a part stands for a fault. -/
def isFault (t : Tree) : Bool := t.label.isFault

mutual
/-- A tree with marks at all parts in which a fault stands. -/
def marked : Tree → Marked Tree
  | leaf field label lexeme => .above isFault (leaf field label lexeme) []
  | node field rule parts => .above isFault (node field rule parts) (markedAll parts)
/-- Several trees with marks. -/
def markedAll : List Tree → List (Marked Tree)
  | [] => []
  | t :: rest => marked t :: markedAll rest
end

end Tree

end TypeGraph.Java
