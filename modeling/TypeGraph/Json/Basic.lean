/-! Values of the JSON data format and their text. -/

namespace TypeGraph

/-- A JSON value without fractions; the members of an object keep their order. -/
inductive Json where
  | bool (value : Bool)
  | number (value : Nat)
  | string (value : String)
  | array (items : List Json)
  | object (members : List (String × Json))

namespace Json

/-- A hexadecimal digit in lower case. -/
def hexDigit (n : Nat) : Char := Nat.digitChar n

/-- A character as it stands inside a string literal. -/
def escapeChar (c : Char) : List Char :=
  if c = '"' then ['\\', '"']
  else if c = '\\' then ['\\', '\\']
  else if c = '\x08' then ['\\', 'b']
  else if c = '\x0c' then ['\\', 'f']
  else if c = '\n' then ['\\', 'n']
  else if c = '\r' then ['\\', 'r']
  else if c = '\t' then ['\\', 't']
  else if c.toNat < 32 then
    ['\\', 'u', '0', '0', hexDigit (c.toNat / 16), hexDigit (c.toNat % 16)]
  else [c]

/-- A text as a string literal. -/
def quote (s : String) : List Char := '"' :: s.toList.flatMap escapeChar ++ ['"']

/-- How the parts of a value are set apart. -/
inductive Layout where
  /-- Without any blanks. -/
  | compact
  /-- One part a line, indented by two blanks for each level. -/
  | pretty
deriving DecidableEq, Repr

namespace Layout

/-- What stands before a part of a value at some depth. -/
def newline : Layout → Nat → List Char
  | compact, _ => []
  | pretty, depth => '\n' :: List.replicate (2 * depth) ' '

/-- What stands between a name and its value. -/
def colon : Layout → List Char
  | compact => [':']
  | pretty => [':', ' ']

end Layout

/-- Parts in brackets, separated by commas. -/
def bracketed (layout : Layout) (depth : Nat) (left right : Char) : List (List Char) → List Char
  | [] => [left, right]
  | part :: parts =>
    left :: layout.newline (depth + 1) ++ part ++
      (parts.flatMap fun part => ',' :: layout.newline (depth + 1) ++ part) ++
      layout.newline depth ++ [right]

mutual
/-- The text of a value that stands at some depth. -/
def print (layout : Layout) (depth : Nat) : Json → List Char
  | bool true => "true".toList
  | bool false => "false".toList
  | number n => Nat.toDigits 10 n
  | string s => quote s
  | array items => bracketed layout depth '[' ']' (printAll layout (depth + 1) items)
  | object members =>
    bracketed layout depth '\x7b' '\x7d' (printMembers layout (depth + 1) members)
/-- The texts of several values at some depth. -/
def printAll (layout : Layout) (depth : Nat) : List Json → List (List Char)
  | [] => []
  | item :: rest => item.print layout depth :: printAll layout depth rest
/-- The texts of several members of an object at some depth. -/
def printMembers (layout : Layout) (depth : Nat) : List (String × Json) → List (List Char)
  | [] => []
  | (name, value) :: rest =>
    (quote name ++ layout.colon ++ value.print layout depth) :: printMembers layout depth rest
end

/-- The text of a value. -/
def render (layout : Layout) (value : Json) : String := String.ofList (value.print layout 0)

end Json

end TypeGraph
