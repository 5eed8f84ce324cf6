import TypeGraph.Java.Parse

/-! Where and why a source text cannot be read. -/

namespace TypeGraph.Java

/-- What keeps a text from being a source text. -/
inductive SyntaxFault where
  /-- A fault at a place, with what is missing there, unless something stands there that cannot
  follow. -/
  | standing (place : Text.Position) (missing : Option Terminal)
  /-- A fault of which the place is not known. -/
  | somewhere

namespace SyntaxFault

/-- The text of a fault; lines and columns are counted from one. -/
def message : SyntaxFault → String
  | standing place missing =>
    let what := match missing with
      | some t => "missing `" ++ t.name ++ "`"
      | none => "unexpected input"
    "syntax error at line " ++ toString (place.row + 1) ++ ", column " ++
      toString (place.column + 1) ++ ": " ++ what
  | somewhere => "syntax error"

/-- The fault that a part of a tree stands for. -/
def ofPart (part : Tree) : SyntaxFault :=
  match part.label with
  | .missing t => standing part.place (some t)
  | _ => standing part.place none

end SyntaxFault

namespace Tree

/-- A tree itself, or the first fault in it. -/
def checked (t : Tree) : Except SyntaxFault Tree :=
  match t.marked.verdict isFault with
  | .sound => .ok t
  | .faultAt fault => .error (.ofPart fault.content)
  | .faultSomewhere => .error .somewhere

/-- A tree passes its check if it is not marked. -/
theorem checked_eq_ok_iff {t checked : Tree} :
    t.checked = .ok checked ↔ t = checked ∧ t.marked.mark = false := by
  unfold Tree.checked Marked.verdict
  cases marked : t.marked.mark with
  | false => simp
  | true => cases t.marked.firstFault? isFault <;> simp

end Tree

/-- The tree of a source text, or the first fault in it. -/
def read (text : List Char) : Except SyntaxFault Tree := (parse text).checked

/-- A text is read into its tree if no fault is marked in the tree. -/
theorem read_eq_ok_iff {text : List Char} {tree : Tree} :
    read text = .ok tree ↔ parse text = tree ∧ tree.marked.mark = false := by
  rw [read, Tree.checked_eq_ok_iff]
  exact and_congr_right fun same => by rw [same]

end TypeGraph.Java
