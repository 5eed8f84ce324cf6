import TypeGraph.Toml.Scalar

/-! The reading of a TOML document: its lines, from the tokens on, and the table they make. -/

namespace TypeGraph.Toml

namespace Reader

/-- What has been read from the start of some tokens, and the tokens that are left. -/
abbrev Parsed (α : Type) := α × List Token

/-- The place of the first token; after the last one an empty range at the end of the text. -/
def place (stop : Nat) : List Token → Range
  | [] => ⟨stop, stop⟩
  | token :: _ => token.range

/-- The tokens after the line ends at the start. -/
def skipLines (tokens : List Token) : List Token :=
  tokens.dropWhile fun token => token.kind = .lineEnd

/-- Whether a character may stand in a key without quotes. -/
def isKeyChar (c : Char) : Bool := c.isAlphanum || c = '-' || c = '_'

/-- The key that a token is. -/
def key? (token : Token) : Option Key :=
  match token.kind with
  | .word text => if text.all isKeyChar then some ⟨String.ofList text, token.range⟩ else none
  | .quoted content false => some ⟨String.ofList content, token.range⟩
  | _ => none

/-- A key, or several with dots between them. -/
def keys (stop : Nat) : List Token → Except Range (Parsed (List Key))
  | [] => .error ⟨stop, stop⟩
  | token :: rest => match key? token with
    | none => .error token.range
    | some key => match rest with
      | ⟨.mark .dot, _⟩ :: more => do
        let (path, rest) ← keys stop more
        return (key :: path, rest)
      | _ => .ok ([key], rest)

/-- The words and dots that follow an offset without any gap, joined, with their end. -/
def joined (offset : Nat) : List Token → List Char × Nat × List Token
  | ⟨.word text, range⟩ :: rest =>
    if range.start = offset then
      let (more, stop, rest) := joined range.stop rest
      (text ++ more, stop, rest)
    else ([], offset, ⟨.word text, range⟩ :: rest)
  | ⟨.mark .dot, range⟩ :: rest =>
    if range.start = offset then
      let (more, stop, rest) := joined range.stop rest
      ('.' :: more, stop, rest)
    else ([], offset, ⟨.mark .dot, range⟩ :: rest)
  | rest => ([], offset, rest)

/-- A time that follows a date after one blank. -/
def timeAfter (text : List Char) (stop : Nat) (rest : List Token) :
    List Char × Nat × List Token :=
  let (time, timeStop, timeRest) := joined (stop + 1) rest
  if Scalar.afterDate? text = some [] && (Scalar.afterMinutes? time).isSome then
    (text ++ ' ' :: time, timeStop, timeRest)
  else (text, stop, rest)

/-- A value that is written as a bare word. -/
def scalar (start : Nat) (tokens : List Token) : Except Range (Parsed Item) :=
  let (text, stop, rest) := joined start tokens
  let (text, stop, rest) := timeAfter text stop rest
  match Value.ofWord? text with
  | some value => .ok ((⟨start, stop⟩, value), rest)
  | none => .error ⟨start, stop⟩

mutual
/-- A value; the fuel bounds the number of steps. -/
def value (stop : Nat) : Nat → List Token → Except Range (Parsed Item)
  | 0, tokens => .error (place stop tokens)
  | _, [] => .error ⟨stop, stop⟩
  | fuel + 1, token :: rest => match token.kind with
    | .quoted content _ => .ok ((token.range, .string (String.ofList content)), rest)
    | .word _ => scalar token.range.start (token :: rest)
    | .mark .leftBracket => do
      let ((items, last), rest) ← items stop fuel (skipLines rest)
      return ((⟨token.range.start, last⟩, .array false items), rest)
    | .mark .leftBrace => do
      let ((members, last), rest) ← members stop fuel [] (skipLines rest)
      return ((⟨token.range.start, last⟩, .table .inline members), rest)
    | _ => .error token.range
/-- The items of an array from some point on, and the end of its closing bracket. -/
def items (stop : Nat) : Nat → List Token → Except Range (Parsed (List Item × Nat))
  | 0, tokens => .error (place stop tokens)
  | _, ⟨.mark .rightBracket, range⟩ :: rest => .ok (([], range.stop), rest)
  | fuel + 1, tokens => do
    let (item, rest) ← value stop fuel tokens
    match skipLines rest with
    | ⟨.mark .comma, _⟩ :: rest =>
      let ((more, last), rest) ← items stop fuel (skipLines rest)
      return ((item :: more, last), rest)
    | ⟨.mark .rightBracket, range⟩ :: rest => return (([item], range.stop), rest)
    | rest => .error (place stop rest)
/-- The members of a table in braces, added to earlier ones, and the end of its closing brace. -/
def members (stop : Nat) : Nat → Members → List Token → Except Range (Parsed (Members × Nat))
  | 0, _, tokens => .error (place stop tokens)
  | _, earlier, ⟨.mark .rightBrace, range⟩ :: rest => .ok ((earlier, range.stop), rest)
  | fuel + 1, earlier, tokens => do
    let (path, rest) ← keys stop tokens
    let (item, rest) ← match rest with
      | ⟨.mark .equals, _⟩ :: rest => value stop fuel rest
      | rest => .error (place stop rest)
    let earlier ← Members.addEntry item path earlier
    match skipLines rest with
    | ⟨.mark .comma, _⟩ :: rest => members stop fuel earlier (skipLines rest)
    | ⟨.mark .rightBrace, range⟩ :: rest => return ((earlier, range.stop), rest)
    | rest => .error (place stop rest)
end

/-- What stands on one line. -/
inductive Line where
  /-- The header of a table, or of one more table of a list. -/
  | header (element : Bool) (path : List Key) (range : Range)
  | entry (path : List Key) (item : Item)

/-- The key in brackets and the end of the closing bracket. -/
def header (stop : Nat) (tokens : List Token) : Except Range (Parsed (List Key × Nat)) := do
  let (path, rest) ← keys stop tokens
  match rest with
  | ⟨.mark .rightBracket, range⟩ :: rest => return ((path, range.stop), rest)
  | rest => .error (place stop rest)

/-- The line at the start of some tokens, which do not start with a line end. -/
def line (stop : Nat) : List Token → Except Range (Parsed Line)
  | ⟨.mark .leftBracket, first⟩ :: ⟨.mark .leftBracket, second⟩ :: rest => do
    if second.start ≠ first.stop then .error second
    let ((path, last), rest) ← header stop rest
    match rest with
    | ⟨.mark .rightBracket, range⟩ :: rest =>
      if range.start = last then return (.header true path ⟨first.start, range.stop⟩, rest)
      else .error range
    | rest => .error (place stop rest)
  | ⟨.mark .leftBracket, first⟩ :: rest => do
    let ((path, last), rest) ← header stop rest
    return (.header false path ⟨first.start, last⟩, rest)
  | tokens => do
    let (path, rest) ← keys stop tokens
    match rest with
    | ⟨.mark .equals, _⟩ :: rest =>
      let (item, rest) ← value stop (2 * rest.length) rest
      return (.entry path item, rest)
    | rest => .error (place stop rest)

/-- Add a line to a document, of which the table with some path was opened last. -/
def Line.addTo (opened : List Key) (document : Members) : Line → Except Range (List Key × Members)
  | .header false path range => do
    return (path, ← Members.atHeader (Members.openTable range) path document)
  | .header true path range => do
    return (path, ← Members.atHeader (Members.openElement range) path document)
  | .entry path item => match opened with
    | [] => do return ([], ← Members.addEntry item path document)
    | opened => do
      let change := Members.inOpened (Members.addEntry item path)
      return (opened, ← Members.atHeader change opened document)

/-- The document that lines add up to; the fuel bounds their number. -/
def document (stop : Nat) : Nat → List Key → Members → List Token → Except Range Members
  | _, _, earlier, [] => .ok earlier
  | 0, _, _, tokens => .error (place stop tokens)
  | fuel + 1, opened, earlier, ⟨.lineEnd, _⟩ :: rest => document stop fuel opened earlier rest
  | fuel + 1, opened, earlier, tokens => do
    let (next, rest) ← line stop tokens
    let (opened, earlier) ← next.addTo opened earlier
    match rest with
    | [] => return earlier
    | ⟨.lineEnd, _⟩ :: rest => document stop fuel opened earlier rest
    | rest => .error (place stop rest)

end Reader

/-- The members of the table that a document describes, or the place where it goes wrong. -/
def parse (text : List Char) : Except Range Members := do
  let skipped := if text.head? = some '\uFEFF' then 1 else 0
  let tokens ← Token.scan skipped (text.drop skipped)
  Reader.document text.length tokens.length [] [] tokens

end TypeGraph.Toml
