import TypeGraph.Toml.Value

/-! What can be wrong with a TOML document, and how it is told with a view of the line. -/

namespace TypeGraph.Toml

/-- A text in double quotes, in which quotes, backslashes and control characters are escaped. -/
def quoted (s : String) : String :=
  let escape (c : Char) : List Char := match c with
    | '"' => ['\\', '"']
    | '\\' => ['\\', '\\']
    | '\n' => ['\\', 'n']
    | '\r' => ['\\', 'r']
    | '\t' => ['\\', 't']
    | '\x00' => ['\\', '0']
    | c =>
      if c < ' ' || c = '\x7f' then
        "\\u\x7b".toList ++ Nat.toDigits 16 c.toNat ++ ['\x7d']
      else [c]
  "\"" ++ String.ofList (s.toList.flatMap escape) ++ "\""

/-- What kind of value something is, with the value itself if it is short. -/
def Value.describe : Value → String
  | string s => "string " ++ quoted s
  | integer n => "integer `" ++ toString n ++ "`"
  | float text => "floating point `" ++ text ++ "`"
  | boolean b => "boolean `" ++ (if b then "true" else "false") ++ "`"
  | moment _ => "map"
  | array _ _ => "sequence"
  | table _ _ => "map"

/-- Some names in backquotes, as a choice. -/
def choice (names : List String) : String :=
  let marked := names.map fun name => "`" ++ name ++ "`"
  match marked with
  | [first, second] => first ++ " or " ++ second
  | marked => "one of " ++ ", ".intercalate marked

/-- What can be wrong with a document. -/
inductive Problem where
  /-- A place that no document can have. -/
  | malformed
  | unknownField (name : String) (known : List String)
  | unknownVariant (name : String) (known : List String)
  | wrongType (found : Value) (expected : String)
  /-- A table that stands for a name has other than one member. -/
  | variantCount (found : Nat)
  /-- A value that stands for no name. -/
  | noVariant
  /-- A name is given with a content, where it has none. -/
  | variantContent

/-- The text of a problem. -/
def Problem.message : Problem → String
  | malformed => "unexpected text"
  | unknownField name known => "unknown field `" ++ name ++ "`, expected " ++ choice known
  | unknownVariant name known => "unknown variant `" ++ name ++ "`, expected " ++ choice known
  | wrongType found expected => "invalid type: " ++ found.describe ++ ", expected " ++ expected
  | variantCount 0 => "wanted exactly 1 element, found 0 elements"
  | variantCount _ => "wanted exactly 1 element, more than 1 element"
  | noVariant => "wanted string or table"
  | variantContent => "expected empty table"

/-- Something wrong with a document, and where. -/
structure Fault where
  range : Range
  problem : Problem

/-- The text of a fault of a document: where it is, a view of the line, and what is wrong. -/
def Fault.message (text : List Char) (fault : Fault) : String :=
  let before := text.take fault.range.start
  let row := before.count '\n'
  let column := (before.reverse.takeWhile (· ≠ '\n')).length
  let line := (text.drop (before.length - column)).takeWhile (· ≠ '\n')
  let bytes (part : List Char) : Nat := (String.ofList part).utf8ByteSize
  let marked := (text.drop fault.range.start).take (fault.range.stop - fault.range.start)
  let width := max 1 (min (bytes marked) (bytes line - column))
  let number := toString (row + 1)
  let gutter := "".pushn ' ' (number.length + 1) ++ "|"
  "TOML parse error at line " ++ number ++ ", column " ++ toString (column + 1) ++ "\n" ++
    gutter ++ "\n" ++
    number ++ " | " ++ String.ofList line ++ "\n" ++
    gutter ++ "".pushn ' ' (column + 1) ++ "".pushn '^' width ++ "\n" ++
    fault.problem.message ++ "\n"

end TypeGraph.Toml
