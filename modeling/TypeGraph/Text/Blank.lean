/-! Blank characters and the removal of blanks around a text. -/

namespace TypeGraph.Text

/-- Whether a character is white space in the sense of Unicode. -/
def isWhiteSpace (c : Char) : Bool :=
  ('\t' ≤ c && c ≤ '\r') || c == ' ' || c == '\u0085' || c == '\u00A0' || c == '\u1680' ||
    ('\u2000' ≤ c && c ≤ '\u200A') || c == '\u2028' || c == '\u2029' || c == '\u202F' ||
    c == '\u205F' || c == '\u3000'

/-- A text without white space at its start. -/
def trimStart (text : List Char) : List Char := text.dropWhile isWhiteSpace

/-- A text without white space at its end. -/
def trimEnd (text : List Char) : List Char := (text.reverse.dropWhile isWhiteSpace).reverse

/-- A text without white space around it. -/
def trim (text : List Char) : List Char := trimEnd (trimStart text)

end TypeGraph.Text
