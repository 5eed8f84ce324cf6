import TypeGraph.Text.Letter

/-! Regular expressions over characters and the longest start of a text that one describes. -/

namespace TypeGraph.Text

/-- A set of characters that a regular expression can name. -/
inductive CharSet where
  /-- One character. -/
  | one (c : Char)
  /-- The characters of a closed interval. -/
  | range (first last : Char)
  /-- Every character but the listed ones and the null character. -/
  | except (excluded : List Char)
  /-- The characters that may start a Java name. -/
  | nameStart
  /-- The characters that may continue a Java name. -/
  | namePart
deriving DecidableEq, Repr

/-- Whether a character belongs to the set. -/
def CharSet.contains : CharSet → Char → Bool
  | one d, c => c == d
  | range first last, c => first ≤ c && c ≤ last
  | except excluded, c => c != '\x00' && !excluded.contains c
  | nameStart, c => isNameStart c
  | namePart, c => isNamePart c

/-- A regular expression. -/
inductive Regex where
  /-- No text. -/
  | never
  /-- The empty text only. -/
  | empty
  /-- One character of a set. -/
  | char (set : CharSet)
  /-- A text of the first followed by one of the second. -/
  | seq (first second : Regex)
  /-- A text of either. -/
  | alt (first second : Regex)
  /-- Any number of texts in a row. -/
  | star (body : Regex)
deriving DecidableEq, Repr

namespace Regex

/-- The expression for one fixed text. -/
def ofList : List Char → Regex
  | [] => empty
  | c :: rest => seq (char (.one c)) (ofList rest)

/-- The expression for one fixed text. -/
def text (s : String) : Regex := ofList s.toList

/-- Several expressions in a row. -/
def inOrder : List Regex → Regex
  | [] => empty
  | [r] => r
  | r :: rest => seq r (inOrder rest)

/-- Any one of several expressions. -/
def oneOf : List Regex → Regex
  | [] => never
  | [r] => r
  | r :: rest => alt r (oneOf rest)

/-- The expression or nothing. -/
def optional (r : Regex) : Regex := alt r empty

/-- The expression once or more. -/
def many (r : Regex) : Regex := seq r (star r)

/-- The expression once or more with a separator between the occurrences. -/
def separated (r separator : Regex) : Regex := seq r (star (seq separator r))

/-- Whether the empty text is described. -/
def nullable : Regex → Bool
  | never => false
  | empty => true
  | char _ => false
  | seq a b => a.nullable && b.nullable
  | alt a b => a.nullable || b.nullable
  | star _ => true

/-- A sequence without idle parts. -/
def join : Regex → Regex → Regex
  | never, _ => never
  | _, never => never
  | empty, b => b
  | a, empty => a
  | a, b => seq a b

/-- A choice without idle or repeated parts. -/
def merge (a b : Regex) : Regex :=
  if a = never then b
  else if b = never then a
  else if a = b then a
  else alt a b

/-- What may follow once the expression has taken a character. -/
def derive : Regex → Char → Regex
  | never, _ => never
  | empty, _ => never
  | char set, c => if set.contains c then empty else never
  | seq a b, c =>
    if a.nullable then merge (join (a.derive c) b) (b.derive c) else join (a.derive c) b
  | alt a b, c => merge (a.derive c) (b.derive c)
  | star a, c => join (a.derive c) (star a)

/-- The greatest length of a described start, given the best found after `taken` characters. -/
def longestFrom (r : Regex) (best : Option Nat) (taken : Nat) : List Char → Option Nat
  | [] => if r.nullable then some taken else best
  | c :: rest =>
    let best := if r.nullable then some taken else best
    match r.derive c with
    | never => best
    | next => longestFrom next best (taken + 1) rest

/-- The length of the longest start of a text that the expression describes. -/
def longest (r : Regex) (chars : List Char) : Option Nat :=
  longestFrom r none 0 chars

end Regex

end TypeGraph.Text
