import TypeGraph.Text.Case

/-! What a method is for, guessed from its name. -/

namespace TypeGraph

/-- The purposes that a method may have. -/
inductive Responsibility where
  | persistence | presentation | security | businessLogic
deriving DecidableEq, Repr

namespace Responsibility

/-- The name of a purpose. -/
def name : Responsibility → String
  | persistence => "Persistence"
  | presentation => "Presentation"
  | security => "Security"
  | businessLogic => "BusinessLogic"

/-- The keywords of the purposes, in the order in which they are looked for. -/
def rules : List (List String × Responsibility) :=
  [(["save", "db", "query"], persistence),
   (["render", "view", "ui"], presentation),
   (["validate", "auth"], security)]

/-- Whether a text occurs in another as a whole. -/
def occursIn (part : List Char) : List Char → Bool
  | [] => part.isEmpty
  | c :: rest => part.isPrefixOf (c :: rest) || occursIn part rest

/-- The purpose of the first rule with a keyword in the name, where case does not count. -/
def infer (method : String) : Responsibility :=
  let lower := Text.lowerCase method.toList
  match rules.find? fun rule => rule.1.any fun keyword => occursIn keyword.toList lower with
  | some (_, purpose) => purpose
  | none => businessLogic

end Responsibility

end TypeGraph
