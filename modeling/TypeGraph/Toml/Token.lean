/-! The tokens of a TOML document: strings, words, marks and line ends, with their places. -/

namespace TypeGraph.Toml

/-- A stretch of a text, told by how many characters lie before its start and its end. -/
structure Range where
  start : Nat
  stop : Nat
deriving DecidableEq, Repr

/-- The marks of the notation. -/
inductive Mark where
  | dot | equals | comma | leftBracket | rightBracket | leftBrace | rightBrace
deriving DecidableEq, Repr

/-- The mark that a character is. -/
def Mark.ofChar? : Char → Option Mark
  | '.' => some .dot
  | '=' => some .equals
  | ',' => some .comma
  | '[' => some .leftBracket
  | ']' => some .rightBracket
  | '\x7b' => some .leftBrace
  | '\x7d' => some .rightBrace
  | _ => none

/-- What a token is. -/
inductive TokenKind where
  | mark (m : Mark)
  /-- A string in quotes, on one line or on several. -/
  | quoted (content : List Char) (multiline : Bool)
  /-- A run of characters that are no marks, quotes or blanks. -/
  | word (text : List Char)
  | lineEnd
  /-- Blanks and comments. -/
  | trivia
deriving DecidableEq, Repr

/-- A token with its place. -/
structure Token where
  kind : TokenKind
  range : Range
deriving DecidableEq, Repr

namespace Token

/-- Whether a character may stand in a string or a comment as itself. -/
def isPlain (c : Char) : Bool := c = '\t' || (' ' ≤ c && c ≠ '\x7f')

/-- Whether a character is a space or a tab. -/
def isBlank (c : Char) : Bool := c = ' ' || c = '\t'

/-- Whether a character belongs to a word. -/
def isWordChar (c : Char) : Bool :=
  isPlain c && !isBlank c && c ≠ '#' && c ≠ '"' && c ≠ '\'' && (Mark.ofChar? c).isNone

/-- The value of a hexadecimal digit. -/
def hexDigit? (c : Char) : Option Nat :=
  if '0' ≤ c && c ≤ '9' then some (c.toNat - '0'.toNat)
  else if 'a' ≤ c && c ≤ 'f' then some (c.toNat - 'a'.toNat + 10)
  else if 'A' ≤ c && c ≤ 'F' then some (c.toNat - 'A'.toNat + 10)
  else none

/-- The number that hexadecimal digits stand for. -/
def hexNumber? (digits : List Char) : Option Nat :=
  digits.foldl (fun sum c => do return 16 * (← sum) + (← hexDigit? c)) (some 0)

/-- The character whose number is given by a fixed count of hexadecimal digits. -/
def hexChar? (count : Nat) (text : List Char) : Option Char := do
  let digits := text.take count
  let number ← hexNumber? digits
  if digits.length = count ∧ number.isValidChar then some (Char.ofNat number) else none

/-- The character that an escape stands for, and the length of the escape after its backslash. -/
def escape? : List Char → Option (Char × Nat)
  | 'b' :: _ => some ('\x08', 1)
  | 't' :: _ => some ('\t', 1)
  | 'n' :: _ => some ('\n', 1)
  | 'f' :: _ => some ('\x0c', 1)
  | 'r' :: _ => some ('\r', 1)
  | 'e' :: _ => some ('\x1b', 1)
  | '"' :: _ => some ('"', 1)
  | '\\' :: _ => some ('\\', 1)
  | 'x' :: rest => (hexChar? 2 rest).map (·, 3)
  | 'u' :: rest => (hexChar? 4 rest).map (·, 5)
  | 'U' :: rest => (hexChar? 8 rest).map (·, 9)
  | _ => none

/-- The length of the line end at the start of a text. -/
def lineEnd? : List Char → Option Nat
  | '\n' :: _ => some 1
  | '\r' :: '\n' :: _ => some 2
  | _ => none

/-- How many characters a backslash at the end of a line takes away after itself. -/
def continuation? (text : List Char) : Option Nat :=
  let blanks := (text.takeWhile isBlank).length
  (lineEnd? (text.drop blanks)).map fun _ =>
    (text.takeWhile fun c => isBlank c || c = '\n' || c = '\r').length

/-- The content of a string in double quotes on one line, and its length with the last quote. -/
def basic? (text : List Char) : Option (List Char × Nat) :=
  match text with
  | [] => none
  | '"' :: _ => some ([], 1)
  | '\\' :: rest => match escape? rest with
    | some (c, n) => (basic? (rest.drop n)).map fun (content, m) => (c :: content, m + n + 1)
    | none => none
  | c :: rest =>
    if isPlain c then (basic? rest).map fun (content, m) => (c :: content, m + 1) else none
termination_by text.length

/-- The content of a string in single quotes on one line, and its length with the last quote. -/
def literal? : List Char → Option (List Char × Nat)
  | [] => none
  | '\'' :: _ => some ([], 1)
  | c :: rest =>
    if isPlain c then (literal? rest).map fun (content, m) => (c :: content, m + 1) else none

/-- The quotes, two at most, that stand before the last three of a string on several lines. -/
def inner (quote : Char) (text : List Char) : List Char := (text.take 2).takeWhile (· = quote)

/-- The content of a string in three double quotes, and its length with the last quotes. -/
def basicLines? (text : List Char) : Option (List Char × Nat) :=
  match text with
  | [] => none
  | '"' :: '"' :: '"' :: rest => some (inner '"' rest, (inner '"' rest).length + 3)
  | '\\' :: rest => match escape? rest with
    | some (c, n) =>
      (basicLines? (rest.drop n)).map fun (content, m) => (c :: content, m + n + 1)
    | none => match continuation? rest with
      | some n => (basicLines? (rest.drop n)).map fun (content, m) => (content, m + n + 1)
      | none => none
  | c :: rest =>
    if isPlain c || (lineEnd? (c :: rest)).isSome then
      (basicLines? rest).map fun (content, m) => (c :: content, m + 1)
    else none
termination_by text.length

/-- The content of a string in three single quotes, and its length with the last quotes. -/
def literalLines? : List Char → Option (List Char × Nat)
  | [] => none
  | '\'' :: '\'' :: '\'' :: rest => some (inner '\'' rest, (inner '\'' rest).length + 3)
  | c :: rest =>
    if isPlain c || (lineEnd? (c :: rest)).isSome then
      (literalLines? rest).map fun (content, m) => (c :: content, m + 1)
    else none

/-- A string on several lines, of which a line end right at the start is left out. -/
def lines? (body : List Char → Option (List Char × Nat)) (text : List Char) :
    Option (TokenKind × Nat) :=
  let skipped := (lineEnd? text).getD 0
  (body (text.drop skipped)).map fun (content, n) => (.quoted content true, skipped + n + 3)

/-- The token at the start of a text, and its length. -/
def next? : List Char → Option (TokenKind × Nat)
  | '"' :: '"' :: '"' :: rest => lines? basicLines? rest
  | '\'' :: '\'' :: '\'' :: rest => lines? literalLines? rest
  | '"' :: rest => (basic? rest).map fun (content, n) => (.quoted content false, n + 1)
  | '\'' :: rest => (literal? rest).map fun (content, n) => (.quoted content false, n + 1)
  | '#' :: rest => some (.trivia, (rest.takeWhile isPlain).length + 1)
  | c :: rest =>
    match lineEnd? (c :: rest), Mark.ofChar? c with
    | some n, _ => some (.lineEnd, n)
    | none, some m => some (.mark m, 1)
    | none, none =>
      if isBlank c then some (.trivia, 1)
      else if isWordChar c then
        let text := (c :: rest).takeWhile isWordChar
        some (.word text, text.length)
      else none
  | [] => none

/-- The tokens of a text that starts at some offset, or the place where there is none. -/
def scan (offset : Nat) (text : List Char) : Except Range (List Token) :=
  match text with
  | [] => .ok []
  | c :: rest => match next? (c :: rest) with
    | none => .error ⟨offset, offset + 1⟩
    | some (kind, n) =>
      let token : Token := ⟨kind, offset, offset + n⟩
      match scan (offset + max n 1) (rest.drop (n - 1)) with
      | .ok tokens => .ok (if kind = .trivia then tokens else token :: tokens)
      | .error range => .error range
termination_by text.length

end Token

end TypeGraph.Toml
