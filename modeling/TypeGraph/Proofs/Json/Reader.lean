/-! A reader for texts of the JSON data format, which takes whatever its grammar allows. -/

namespace TypeGraph.Json

/-- A decimal number: a whole number, shifted by some decimal places. -/
structure Decimal where
  mantissa : Int
  exponent : Int
deriving DecidableEq, Repr

/-- A value that a JSON text may stand for; the members of an object keep their order. -/
inductive Value where
  | null
  | bool (value : Bool)
  | number (value : Decimal)
  | string (text : String)
  | array (items : List Value)
  | object (members : List (String × Value))

/-- Blanks may stand around the signs of a text. -/
def isBlank (c : Char) : Bool := c = ' ' || c = '\t' || c = '\n' || c = '\r'

/-- What follows blanks. -/
def skip (text : List Char) : List Char := text.dropWhile isBlank

/-- Some digits, as many as there are. -/
def readDigits (text : List Char) : Option (List Char × List Char) :=
  match text.takeWhile Char.isDigit with
  | [] => none
  | digits => some (digits, text.dropWhile Char.isDigit)

/-- The digits of a whole number. A zero in front stands alone. -/
def readWhole (text : List Char) : Option (List Char × List Char) := do
  let (digits, rest) ← readDigits text
  if digits.head? = some '0' && digits.length != 1 then none else return (digits, rest)

/-- The digits after a decimal point, if there is one. -/
def readFraction : List Char → Option (List Char × List Char)
  | '.' :: rest => readDigits rest
  | text => some ([], text)

/-- A power of ten, which may have a sign. -/
def readPower : List Char → Option (Int × List Char)
  | '+' :: rest => (readDigits rest).map fun (digits, rest) => (Nat.ofDigitChars 10 digits 0, rest)
  | '-' :: rest => (readDigits rest).map fun (digits, rest) => (-Nat.ofDigitChars 10 digits 0, rest)
  | text => (readDigits text).map fun (digits, rest) => (Nat.ofDigitChars 10 digits 0, rest)

/-- The power of ten of a number, if one is given. -/
def readExponent : List Char → Option (Int × List Char)
  | 'e' :: rest | 'E' :: rest => readPower rest
  | text => some (0, text)

/-- A number without a sign. -/
def readUnsigned (text : List Char) : Option (Decimal × List Char) := do
  let (whole, text) ← readWhole text
  let (fraction, text) ← readFraction text
  let (exponent, text) ← readExponent text
  return (⟨Nat.ofDigitChars 10 (whole ++ fraction) 0, exponent - fraction.length⟩, text)

/-- A number, which may have a minus sign. -/
def readNumber : List Char → Option (Decimal × List Char)
  | '-' :: rest => (readUnsigned rest).map fun (d, rest) => (⟨-d.mantissa, d.exponent⟩, rest)
  | text => readUnsigned text

/-- What a hexadecimal digit counts. -/
def hexValue? (c : Char) : Option Nat :=
  if c.isDigit then some (c.toNat - '0'.toNat)
  else if 'a' ≤ c ∧ c ≤ 'f' then some (c.toNat - 'a'.toNat + 10)
  else if 'A' ≤ c ∧ c ≤ 'F' then some (c.toNat - 'A'.toNat + 10)
  else none

/-- Four hexadecimal digits. -/
def readHex : List Char → Option (Nat × List Char)
  | a :: b :: c :: d :: rest => do
    return (((← hexValue? a) * 16 + (← hexValue? b)) * 256 + (← hexValue? c) * 16 + (← hexValue? d),
      rest)
  | _ => none

/-- The second half of a character that is written in two halves. -/
def readLow (high : Nat) : List Char → Option (Char × List Char)
  | '\\' :: 'u' :: rest => do
    let (low, rest) ← readHex rest
    if 0xDC00 ≤ low && low < 0xE000 then
      return (Char.ofNat (0x10000 + (high - 0xD800) * 0x400 + (low - 0xDC00)), rest)
    else none
  | _ => none

/-- The characters for which a single letter may stand after a backslash. -/
def shortEscapes : List (Char × Char) :=
  [('"', '"'), ('\\', '\\'), ('/', '/'), ('b', '\x08'), ('f', '\x0c'), ('n', '\n'), ('r', '\r'),
    ('t', '\t')]

/-- The character that what follows a backslash stands for. -/
def readEscape : List Char → Option (Char × List Char)
  | 'u' :: rest => do
    let (code, rest) ← readHex rest
    if 0xD800 ≤ code && code < 0xDC00 then readLow code rest
    else if 0xDC00 ≤ code && code < 0xE000 then none
    else return (Char.ofNat code, rest)
  | c :: rest => (shortEscapes.lookup c).map (·, rest)
  | [] => none

/-- A character of a string. Control characters may not stand for themselves. -/
def readChar : List Char → Option (Char × List Char)
  | '\\' :: rest => readEscape rest
  | c :: rest => if c.toNat < 32 then none else some (c, rest)
  | [] => none

/-- The characters up to a closing quotation mark, of which there may be as many as said. -/
def readChars : Nat → List Char → Option (List Char × List Char)
  | 0, _ => none
  | count + 1, text => match text with
    | '"' :: rest => some ([], rest)
    | _ => do
      let (c, text) ← readChar text
      let (others, rest) ← readChars count text
      return (c :: others, rest)

/-- A string without its opening quotation mark. -/
def readString (text : List Char) : Option (String × List Char) :=
  (readChars text.length text).map fun (chars, rest) => (String.ofList chars, rest)

section

variable {α : Type} (item : List Char → Option (α × List Char)) (close : Char)

/-- One item or more up to a closing bracket, with commas between, as many as said at most. -/
def readItems : Nat → List Char → Option (List α × List Char)
  | 0, _ => none
  | count + 1, text => do
    let (first, text) ← item text
    match skip text with
    | ',' :: rest => do
      let (others, rest) ← readItems count (skip rest)
      return (first :: others, rest)
    | c :: rest => if c = close then some ([first], rest) else none
    | [] => none

/-- Items up to a closing bracket. -/
def readList (text : List Char) : Option (List α × List Char) :=
  match skip text with
  | c :: rest =>
    if c = close then some ([], rest) else readItems item close text.length (c :: rest)
  | [] => none

end

/-- A member of an object: a name and a value of some sort. -/
def readMember (value : List Char → Option (Value × List Char)) :
    List Char → Option ((String × Value) × List Char)
  | '"' :: rest => do
    let (name, text) ← readString rest
    match skip text with
    | ':' :: rest => do
      let (v, rest) ← value (skip rest)
      return ((name, v), rest)
    | _ => none
  | _ => none

/-- A value in which lists and objects may be as deep as said. -/
def readValue : Nat → List Char → Option (Value × List Char)
  | 0, _ => none
  | depth + 1, text => match text with
    | '"' :: rest => (readString rest).map fun (s, rest) => (.string s, rest)
    | '[' :: rest =>
      (readList (readValue depth) ']' rest).map fun (items, rest) => (.array items, rest)
    | '\x7b' :: rest =>
      (readList (readMember (readValue depth)) '\x7d' rest).map fun (members, rest) =>
        (.object members, rest)
    | 't' :: 'r' :: 'u' :: 'e' :: rest => some (.bool true, rest)
    | 'f' :: 'a' :: 'l' :: 's' :: 'e' :: rest => some (.bool false, rest)
    | 'n' :: 'u' :: 'l' :: 'l' :: rest => some (.null, rest)
    | text => (readNumber text).map fun (d, rest) => (.number d, rest)

/-- The value for which a text stands, if it is a JSON text. -/
def read (text : String) : Option Value := do
  -- Brackets that are opened take up a character each, so values are not as deep as texts are long.
  let (value, rest) ← readValue text.length (skip text.toList)
  if (skip rest).isEmpty then return value else none

end TypeGraph.Json
