import TypeGraph.Toml.Value

/-! The values that are written as bare words: truth values, numbers, dates and times. -/

namespace TypeGraph.Toml

namespace Scalar

/-- The value of a digit of some base. -/
def digit? (base : Nat) (c : Char) : Option Nat := (Token.hexDigit? c).filter (· < base)

/-- The number that digits of some base stand for; single underscores may stand between digits. -/
def digits? (base : Nat) (sum : Nat) : List Char → Option Nat
  | [] => none
  | [c] => (digit? base c).map (base * sum + ·)
  | c :: '_' :: rest => do digits? base (base * sum + (← digit? base c)) rest
  | c :: rest => do digits? base (base * sum + (← digit? base c)) rest

/-- A decimal number without leading zeros. -/
def decimal? : List Char → Option Nat
  | ['0'] => some 0
  | '0' :: _ => none
  | text => digits? 10 0 text

/-- The integer that a word stands for. -/
def integer? : List Char → Option Int
  | '+' :: rest => (decimal? rest).map Int.ofNat
  | '-' :: rest => (decimal? rest).map fun n => -Int.ofNat n
  | '0' :: 'x' :: rest => (digits? 16 0 rest).map Int.ofNat
  | '0' :: 'o' :: rest => (digits? 8 0 rest).map Int.ofNat
  | '0' :: 'b' :: rest => (digits? 2 0 rest).map Int.ofNat
  | text => (decimal? text).map Int.ofNat

/-- A word without the sign that it may start with. -/
def unsigned : List Char → List Char
  | '+' :: rest | '-' :: rest => rest
  | text => text

/-- Whether a character starts an exponent. -/
def isExponentMark (c : Char) : Bool := c = 'e' || c = 'E'

/-- Whether a text is an exponent with its mark, or empty. -/
def isExponent : List Char → Bool
  | [] => true
  | c :: rest => isExponentMark c && (digits? 10 0 (unsigned rest)).isSome

/-- Whether a word is a number with a fraction or an exponent, or stands for no finite number. -/
def isFloat (text : List Char) : Bool :=
  let body := unsigned text
  if body = "inf".toList || body = "nan".toList then true
  else
    let whole := body.takeWhile fun c => c ≠ '.' && !isExponentMark c
    let rest := body.drop whole.length
    (decimal? whole).isSome && match rest with
      | '.' :: tail =>
        let fraction := tail.takeWhile fun c => !isExponentMark c
        (digits? 10 0 fraction).isSome && isExponent (tail.drop fraction.length)
      | _ => !rest.isEmpty && isExponent rest

/-- The number that exactly some digits at the start of a text stand for, and what follows. -/
def fixed? (count : Nat) (text : List Char) : Option (Nat × List Char) :=
  let digits := text.take count
  if digits.length = count && digits.all Char.isDigit then
    (digits? 10 0 digits).map (·, text.drop count)
  else none

/-- How many days a month has. -/
def daysIn (year month : Nat) : Nat :=
  if month = 2 then
    if year % 4 = 0 && (year % 100 ≠ 0 || year % 400 = 0) then 29 else 28
  else if month = 4 || month = 6 || month = 9 || month = 11 then 30
  else 31

/-- What follows the date at the start of a text. -/
def afterDate? (text : List Char) : Option (List Char) := do
  let (year, rest) ← fixed? 4 text
  let '-' :: rest := rest | none
  let (month, rest) ← fixed? 2 rest
  let '-' :: rest := rest | none
  let (day, rest) ← fixed? 2 rest
  if 1 ≤ month && month ≤ 12 && 1 ≤ day && day ≤ daysIn year month then some rest else none

/-- What follows hours and minutes at the start of a text. -/
def afterMinutes? (text : List Char) : Option (List Char) := do
  let (hours, rest) ← fixed? 2 text
  let ':' :: rest := rest | none
  let (minutes, rest) ← fixed? 2 rest
  if hours < 24 && minutes < 60 then some rest else none

/-- What follows the time at the start of a text; seconds and their fraction may be missing. -/
def afterTime? (text : List Char) : Option (List Char) := do
  let rest ← afterMinutes? text
  let ':' :: seconds := rest | some rest
  let (count, rest) ← fixed? 2 seconds
  if 60 < count then none
  else match rest with
    | '.' :: fraction =>
      let digits := fraction.takeWhile Char.isDigit
      if digits.isEmpty then none else some (fraction.drop digits.length)
    | _ => some rest

/-- Whether a text is a distance from universal time, or empty. -/
def isZone : List Char → Bool
  | [] | ['Z'] | ['z'] => true
  | '+' :: rest | '-' :: rest => afterMinutes? rest = some []
  | _ => false

/-- Whether a word is a date, a time, or both. -/
def isMoment (text : List Char) : Bool :=
  match afterDate? text with
  | none => afterTime? text = some []
  | some [] => true
  | some (mark :: time) =>
    (mark = 'T' || mark = 't' || mark = ' ') &&
      match afterTime? time with
      | some zone => isZone zone
      | none => false

end Scalar

/-- The value that a bare word stands for. -/
def Value.ofWord? (text : List Char) : Option Value :=
  if text = "true".toList then some (.boolean true)
  else if text = "false".toList then some (.boolean false)
  else match Scalar.integer? text with
    | some n => some (.integer n)
    | none =>
      if Scalar.isFloat text then some (.float (String.ofList text))
      else if Scalar.isMoment text then some (.moment (String.ofList text))
      else none

end TypeGraph.Toml
