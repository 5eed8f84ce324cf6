/-! Sets of code points as lists of closed intervals. -/

namespace TypeGraph.Text

/-- Whether a code point lies in one of some closed intervals. -/
def liesIn (ranges : List (Nat × Nat)) (code : Nat) : Bool :=
  ranges.any fun range => range.1 ≤ code && code ≤ range.2

end TypeGraph.Text
