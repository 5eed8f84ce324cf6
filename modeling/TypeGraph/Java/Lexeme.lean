import TypeGraph.Java.Terminal
import TypeGraph.Text.Position
import TypeGraph.Text.Regex

/-! Lexemes: how the terminals are written, and which one a text starts with. -/

namespace TypeGraph.Java

open Text

/-- A set of terminals, as the number whose binary digits mark the members. -/
abbrev TerminalSet := Nat

namespace TerminalSet

/-- The set of one terminal. -/
def single (t : Terminal) : TerminalSet := 1 <<< t.index

/-- Whether a terminal belongs to the set. -/
def has (s : TerminalSet) (t : Terminal) : Bool := Nat.testBit s t.index

/-- The terminals that belong to either set. -/
def union (s other : TerminalSet) : TerminalSet := Nat.lor s other

/-- The set of some terminals. -/
def ofList (ts : List Terminal) : TerminalSet := ts.foldl (fun s t => s.union (single t)) 0

end TerminalSet

namespace Terminal

open Regex

private def digit : Regex := char (.range '0' '9')
private def octalDigit : Regex := char (.range '0' '7')
private def hexDigit : Regex := oneOf [digit, char (.range 'a' 'f'), char (.range 'A' 'F')]
private def underscores : Regex := many (char (.one '_'))

/-- Digits in groups that single underscores separate. -/
private def grouped (digit : Regex) : Regex := separated (many digit) (char (.one '_'))

/-- A number without a leading zero, in groups that underscores separate. -/
private def decimalDigits : Regex := oneOf [
  char (.one '0'),
  seq (char (.range '1' '9'))
    (optional (seq (optional (char (.one '_'))) (separated (many digit) underscores)))]

private def anyOf (s : String) : Regex := oneOf (s.toList.map fun c => char (.one c))
private def longMark : Regex := optional (anyOf "lL")
private def sign : Regex := optional (anyOf "-+")
private def exponent : Regex := inOrder [anyOf "eE", sign, grouped digit]
private def floatMark : Regex := anyOf "fFdD"

private def decimalFloatPattern : Regex := oneOf [
  inOrder [grouped digit, char (.one '.'), optional (grouped digit), optional exponent,
    optional floatMark],
  inOrder [char (.one '.'), grouped digit, optional exponent, optional floatMark],
  inOrder [decimalDigits, anyOf "eEpP", sign, grouped digit, optional floatMark],
  inOrder [decimalDigits, optional exponent, floatMark]]

private def hexFloatPattern : Regex := inOrder [
  char (.one '0'), anyOf "xX",
  oneOf [
    seq (grouped hexDigit) (optional (char (.one '.'))),
    inOrder [optional (grouped hexDigit), char (.one '.'), grouped hexDigit]],
  optional (inOrder [anyOf "eEpP", sign, decimalDigits, optional floatMark])]

private def characterPattern : Regex := inOrder [
  char (.one '\''),
  many (oneOf [
    char (.except ['\\', '\'', '\n']),
    seq (char (.one '\\')) (char (.except ['\n'])),
    seq (char (.one '\\')) (char (.one '\n'))]),
  char (.one '\'')]

private def escapePattern : Regex := seq (char (.one '\\')) <| oneOf [
  char (.except ['x', 'u', '0', '1', '2', '3', '4', '5', '6', '7']),
  inOrder [octalDigit, optional octalDigit, optional octalDigit],
  inOrder [char (.one 'x'), hexDigit, hexDigit],
  inOrder [char (.one 'u'), hexDigit, hexDigit, hexDigit, hexDigit],
  inOrder [char (.one 'u'), char (.one '\x7b'), many hexDigit, char (.one '\x7d')]]

private def blockCommentPattern : Regex :=
  let toStars := seq (star (char (.except ['*']))) (many (char (.one '*')))
  inOrder [text "/*", toStars, star (seq (char (.except ['/', '*'])) toStars), char (.one '/')]

/-- How the lexemes of a terminal are written. -/
def pattern : Terminal → Regex
  | identifier => seq (char .nameStart) (star (char .namePart))
  | decimalInteger => seq decimalDigits longMark
  | hexInteger => inOrder [char (.one '0'), anyOf "xX", grouped hexDigit, longMark]
  | octalInteger =>
    inOrder [char (.one '0'), optional (anyOf "oO"), grouped octalDigit, longMark]
  | binaryInteger =>
    inOrder [char (.one '0'), anyOf "bB", grouped (char (.range '0' '1')), longMark]
  | decimalFloat => decimalFloatPattern
  | hexFloat => hexFloatPattern
  | characterLiteral => characterPattern
  | stringFragment => many (char (.except ['"', '\\']))
  | textFragment => many (char (.except ['"', '\\']))
  | quotedTextFragment =>
    seq (char (.one '"')) (star (oneOf [char (.except ['"', '\\']), text "\\\""]))
  | textEscape => seq (char (.one '\\'))
      (char (.except ['a', 'b', 'f', 'n', 'r', 't', 'v', 'x', 'u', '\'', '"', '\\', '?']))
  | escapeSequence => escapePattern
  | lineComment => seq (text "//") (star (char (.except ['\n'])))
  | blockComment => blockCommentPattern
  | t => match t.spelling? with
    | some s => text s
    | none => never

/-- Terminals whose lexemes begin right after the one before, even with a blank. -/
def isAttached : Terminal → Bool
  | stringFragment | textFragment | textEscape | escapeSequence => true
  | _ => false

/-- The terminals that are told by their form: for one length the earlier one is meant. -/
def formed : List Terminal :=
  all.filter (fun t => t.spelling?.isSome && !words.contains t) ++
    [textEscape, escapeSequence, identifier, decimalInteger, hexInteger, octalInteger,
      binaryInteger, decimalFloat, hexFloat, characterLiteral, stringFragment, textFragment,
      quotedTextFragment, lineComment, blockComment]

/-- The patterns of the terminals that are told by their form. -/
def formedPatterns : List (Terminal × Regex) :=
  formed.map fun t => (t, t.pattern)

/-- The spellings of the words. -/
def wordSpellings : List (List Char × Terminal) :=
  words.map fun t => ((t.spelling?.getD "").toList, t)

/-- The word that is spelled like a name, if there is one. -/
def word? (spelling : List Char) : Option Terminal :=
  (wordSpellings.find? fun entry => entry.1 == spelling).map (·.2)

/-- The terminals that may stand between any two lexemes. -/
def comments : TerminalSet := .ofList [lineComment, blockComment]

/-- The words together with the names they are spelled like. -/
def nameLike : TerminalSet := .ofList (identifier :: words)

end Terminal

/-- Whether a character only keeps lexemes apart. -/
def isBlank (c : Char) : Bool :=
  c == ' ' || ('\t' ≤ c && c ≤ '\r')

/-- The rest of a source text from some place on. -/
structure Remaining where
  /-- The characters still to be read. -/
  chars : List Char
  /-- Where they start. -/
  place : Position
deriving DecidableEq, Repr

namespace Remaining

/-- A source text before anything is read: a leading byte order mark does not count. -/
def ofText (text : List Char) : Remaining :=
  match text with
  | '\uFEFF' :: rest => ⟨rest, Position.start.step '\uFEFF'⟩
  | _ => ⟨text, .start⟩

/-- What remains after some more characters. -/
def drop (r : Remaining) (count : Nat) : Remaining :=
  ⟨r.chars.drop count, r.place.advance (r.chars.take count)⟩

end Remaining

/-- A lexeme as it stands in a text. -/
structure Lexeme where
  /-- What it is a lexeme of. -/
  terminal : Terminal
  /-- The blanks before it. -/
  gap : List Char
  /-- The characters of the lexeme. -/
  text : List Char
  /-- The place of its first character. -/
  start : Position
deriving DecidableEq, Repr

/-- The place after the last character of a lexeme. -/
def Lexeme.stop (l : Lexeme) : Position := l.start.advance l.text

namespace Remaining

/-- The blanks that come next. -/
def blanks (r : Remaining) : List Char := r.chars.takeWhile isBlank

/-- The longest lexemes that the rest may start with, one for each expected terminal, with the
number of blanks before it and its length. -/
def candidates (r : Remaining) (expected : TerminalSet) : List (Terminal × Nat × Nat) :=
  let skip := r.blanks.length
  let body := r.chars.drop skip
  Terminal.formedPatterns.filterMap fun entry =>
    if expected.has entry.1 then
      -- An attached terminal takes the blanks before it as its own characters.
      let gap := if entry.1.isAttached then 0 else skip
      match entry.2.longest (if entry.1.isAttached then r.chars else body) with
      | some (size + 1) => some (entry.1, gap, size + 1)
      | _ => none
    else none

/-- The candidate that reaches farthest, the first of several. -/
def farthest : List (Terminal × Nat × Nat) → Option (Terminal × Nat × Nat)
  | [] => none
  | c :: rest => match farthest rest with
    | some d => if c.2.1 + c.2.2 < d.2.1 + d.2.2 then some d else some c
    | none => some c

/-- The candidate that is meant: plain text inside quotes goes before all else. -/
def meant (cs : List (Terminal × Nat × Nat)) : Option (Terminal × Nat × Nat) :=
  match cs.find? (fun c => c.1 == .stringFragment) with
  | some c => some c
  | none => farthest cs

/-- Cut off one lexeme after its blanks. -/
def cut (r : Remaining) (t : Terminal) (gap size : Nat) : Lexeme × Remaining :=
  let after := r.drop gap
  (⟨t, r.chars.take gap, after.chars.take size, after.place⟩, after.drop size)

/-- Read one lexeme where some terminals are expected. A word counts as such only if it is expected
itself; otherwise it is an identifier. -/
def next (r : Remaining) (expected : TerminalSet) : Option (Lexeme × Remaining) :=
  -- Words are read as names first, so a name is wanted wherever a word is.
  let wanted := expected.union Terminal.comments
  let wanted :=
    if Nat.land expected Terminal.nameLike = 0 then wanted
    else wanted.union (.single .identifier)
  match meant (r.candidates wanted) with
  | some (.identifier, gap, size) =>
    let (lexeme, rest) := r.cut .identifier gap size
    match Terminal.word? lexeme.text with
    | some word =>
      some (if expected.has word then { lexeme with terminal := word } else lexeme, rest)
    | none => some (lexeme, rest)
  | some (t, gap, size) => some (r.cut t gap size)
  | none =>
    -- The end is reached if only blanks remain.
    let skip := r.blanks.length
    if skip = r.chars.length then some (r.cut .endOfText skip 0) else none

end Remaining

end TypeGraph.Java
