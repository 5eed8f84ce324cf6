import TypeGraph.Toml.Token

/-! The values of a TOML document, and how its lines build up tables. -/

namespace TypeGraph.Toml

/-- How a table came into being, which decides what may be added to it. -/
inductive TableOrigin where
  /-- Needed by the header of a table inside it. -/
  | implied
  /-- Opened by a header of its own. -/
  | header
  /-- Needed by a dotted key. -/
  | dotted
  /-- Written in braces, all at once. -/
  | inline
deriving DecidableEq, Repr

/-- A key with its place. -/
structure Key where
  name : String
  range : Range
deriving DecidableEq, Repr

/-- A value; the parts of arrays and tables have places of their own. -/
inductive Value where
  | string (s : String)
  | integer (n : Int)
  /-- A number with a fraction or an exponent, as written. -/
  | float (text : String)
  | boolean (b : Bool)
  /-- A date, a time or both, as written. -/
  | moment (text : String)
  /-- A list of values, to which headers in double brackets may add or not. -/
  | array (growing : Bool) (items : List (Range × Value))
  /-- Members in the order of their names. -/
  | table (origin : TableOrigin) (members : List (Key × Range × Value))

/-- A value with its place. -/
abbrev Item := Range × Value

/-- The members of a table, in the order of their names. -/
abbrev Members := List (Key × Item)

namespace Members

/-- The value under a name. -/
def find? (m : Members) (name : String) : Option Item :=
  (List.find? (fun entry => entry.1.name == name) m).map (·.2)

/-- The members with a value put in its place; the key of an earlier value is kept. -/
def set (key : Key) (item : Item) : Members → Members
  | [] => [(key, item)]
  | (other, old) :: rest =>
    if key.name = other.name then (other, item) :: rest
    else if key.name < other.name then (key, item) :: (other, old) :: rest
    else (other, old) :: set key item rest

/-- Add a value under a dotted key, which may lead through tables made by dotted keys only. -/
def addEntry (item : Item) : List Key → Members → Except Range Members
  | [], m => .ok m
  | [key], m => match m.find? key.name with
    | none => .ok (m.set key item)
    | some _ => .error key.range
  | key :: next :: path, m => match m.find? key.name with
    | none => do
      let inside ← addEntry item (next :: path) []
      return m.set key (key.range, .table .dotted inside)
    | some (range, .table .dotted members) => do
      let inside ← addEntry item (next :: path) members
      return m.set key (range, .table .dotted inside)
    | some _ => .error key.range

/-- Go to the table under a dotted key, as headers may, and change what its last key holds. -/
def atHeader (change : Key → Option Item → Except Range Item) :
    List Key → Members → Except Range Members
  | [], m => .ok m
  | [key], m => do return m.set key (← change key (m.find? key.name))
  | key :: next :: path, m => match m.find? key.name with
    | none => do
      let inside ← atHeader change (next :: path) []
      return m.set key (key.range, .table .implied inside)
    | some (range, .table .inline _) => .error range
    | some (range, .table origin members) => do
      let inside ← atHeader change (next :: path) members
      return m.set key (range, .table origin inside)
    | some (range, .array true items) => match items.reverse with
      | (last, .table origin members) :: before => do
        let inside ← atHeader change (next :: path) members
        let items := before.reverse ++ [(last, .table origin inside)]
        return m.set key (range, .array true items)
      | _ => .error key.range
    | some _ => .error key.range

/-- Open a table, which may have been implied before. -/
def openTable (range : Range) (key : Key) : Option Item → Except Range Item
  | none => .ok (range, .table .header [])
  | some (_, .table .implied members) => .ok (range, .table .header members)
  | some _ => .error key.range

/-- Open one more table of a list. -/
def openElement (range : Range) (key : Key) : Option Item → Except Range Item
  | none => .ok (range, .array true [(range, .table .header [])])
  | some (first, .array true items) =>
    .ok (first, .array true (items ++ [(range, .table .header [])]))
  | some _ => .error key.range

/-- Change the members of the table that was opened last. -/
def inOpened (change : Members → Except Range Members) (key : Key) :
    Option Item → Except Range Item
  | some (range, .table origin members) => do return (range, .table origin (← change members))
  | some (range, .array growing items) => match items.reverse with
    | (last, .table origin members) :: before => do
      let inside ← change members
      return (range, .array growing (before.reverse ++ [(last, .table origin inside)]))
    | _ => .error key.range
  | _ => .error key.range

/-- The value set under a key is found under its name. -/
theorem find?_set (key : Key) (item : Item) (m : Members) :
    (set key item m).find? key.name = some item := by
  -- Setting passes over other names only.
  induction m with
  | nil => simp [set, find?]
  | cons first rest ih =>
    obtain ⟨other, old⟩ := first
    unfold set
    split
    · rename_i same; simp [find?, same]
    · rename_i different
      split
      · simp [find?]
      · simp only [find?] at ih ⊢
        simp [Ne.symm different, ih]

end Members

end TypeGraph.Toml
