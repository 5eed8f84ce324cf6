import TypeGraph.Java.Automaton
import TypeGraph.Java.Tree

/-! Reading a source text into a tree, following every reading that the grammar leaves open. -/

namespace TypeGraph.Java

/-- A finished part of a reading, not yet joined with its neighbours. -/
structure Piece where
  /-- The symbol that the part fills, if it is not a comment. -/
  symbol : Option Symbol
  /-- The trees of the part, the last one first. -/
  trees : List Tree
  /-- How much the part is favoured. -/
  favour : Nat
  /-- The state after the part. -/
  state : State
deriving Repr

/-- One way to understand the text read so far. -/
structure Reading where
  /-- The finished parts, the last one first. -/
  pieces : List Piece
  /-- The lexeme under consideration with the text after it. -/
  ahead : Option (Lexeme × Remaining)
  /-- The text after the finished parts. -/
  rest : Remaining
deriving Repr

/-- The state after some pieces, the last one first. -/
def stateAfter : List Piece → State
  | [] => .start
  | piece :: _ => piece.state

namespace Reading

/-- The reading before anything is read. -/
def start (text : List Char) : Reading := ⟨[], none, .ofText text⟩

/-- The state of a reading. -/
def state (r : Reading) : State := stateAfter r.pieces

/-- The symbols of the finished parts, where comments have none. -/
def symbols (r : Reading) : List Symbol := r.pieces.filterMap (·.symbol)

/-- How much a reading is favoured as a whole. -/
def favour (r : Reading) : Nat := r.pieces.foldl (fun sum piece => sum + piece.favour) 0

/-- The trees of the finished parts from left to right. -/
def trees (r : Reading) : List Tree := (r.pieces.flatMap (·.trees)).reverse

/-- Give the trees that fill a slot the field and the label of the slot. -/
def adopt (slot : Slot) (trees : List Tree) : List Tree :=
  if slot.label.isNone && slot.field.isNone then trees
  else trees.map fun t => (t.relabelled slot.label).named slot.field

/-- Take the pieces that fill some slots, last slot first, off the finished ones. The trees of the
pieces taken so far are given, the last one first, as are those of all pieces in the end. -/
def take : List Slot → List Piece → List Tree → Nat → Option (List Tree × Nat × List Piece)
  | [], pieces, trees, favour => some (trees, favour, pieces)
  | _ :: _, [], _, _ => none
  | slot :: slots, piece :: pieces, trees, favour =>
    match piece.symbol with
    -- A comment between the parts goes along with them, whatever the slot.
    | none => take (slot :: slots) pieces (trees ++ piece.trees) favour
    | some symbol =>
      if symbol = slot.symbol then
        take slots pieces (trees ++ adopt slot piece.trees) (favour + piece.favour)
      else none

/-- Join the last pieces by a production; comments at the end stay outside. -/
def join (p : Production) (pieces : List Piece) : Option (List Piece) :=
  let trailing := pieces.takeWhile fun piece => piece.symbol.isNone
  match take p.body.reverse (pieces.dropWhile fun piece => piece.symbol.isNone) [] 0 with
  | none => none
  | some (trees, favour, below) =>
    let state := (stateAfter below).advance (.rule p.head)
    -- A hidden phrase leaves its parts where they are, for the phrase around it.
    let trees := if p.head.isHidden then trees else [.node none p.head trees.reverse]
    let joined : Piece := ⟨some (.rule p.head), trees, favour + p.rank.favour, state⟩
    -- The comments behind the phrase now stand in the state after it.
    some (trailing.map (fun piece => { piece with state := state }) ++ joined :: below)

/-- Add a lexeme as a part. -/
def push (pieces : List Piece) (t : Terminal) (lexeme : Lexeme) : List Piece :=
  let state := (stateAfter pieces).advance (.terminal t)
  ⟨some (.terminal t), [.leaf none (.lexeme t) { lexeme with terminal := t }], 0, state⟩ :: pieces

/-- Add a comment, which leaves the state as it is. -/
def pushComment (pieces : List Piece) (lexeme : Lexeme) : List Piece :=
  ⟨none, [.leaf none (.lexeme lexeme.terminal) lexeme], 0, stateAfter pieces⟩ :: pieces

end Reading

/-- What one step makes of a reading. -/
inductive Progress where
  /-- It goes on, possibly with others beside it. -/
  | onward (reading : Reading) (others : List Reading)
  /-- It is a tree of the whole text. -/
  | finished (tree : Tree) (favour : Nat)
  /-- The text cannot go on like this. -/
  | stuck (reading : Reading)
deriving Repr

namespace Reading

/-- The moves of a reading about a lexeme. A word that cannot stand here is an identifier. -/
def moves (r : Reading) (lexeme : Lexeme) : Terminal × Moves :=
  let moves := r.state.moves lexeme.terminal
  if moves.shift || !moves.reductions.isEmpty || !Terminal.words.contains lexeme.terminal then
    (lexeme.terminal, moves)
  else (.identifier, r.state.moves .identifier)

/-- Take the comments that come next and look at the lexeme after them; without one the reading is
stuck. There are no more comments than a bound has characters. -/
def lookWithin : List Char → Reading → Except Reading (Reading × Lexeme × Remaining)
  | [], r => .error r
  | _ :: bound, r => match r.rest.next r.state.expected with
    | none => .error r
    | some (lexeme, rest) =>
      if lexeme.terminal.isComment then lookWithin bound ⟨pushComment r.pieces lexeme, none, rest⟩
      else .ok (r, lexeme, rest)

/-- Take the comments that come next and look at the lexeme after them. -/
def look (r : Reading) : Except Reading (Reading × Lexeme × Remaining) :=
  r.lookWithin (' ' :: r.rest.chars)

/-- The tree of a text whose parts are all finished. -/
def whole? (r : Reading) (p : Production) : Option (Tree × Nat) :=
  if p.head = .program then some (.node none .program r.trees, r.favour) else none

/-- One step: look at a lexeme, take it, or join parts before it. -/
def step (r : Reading) : Progress :=
  match r.ahead with
  | none => match r.look with
    | .error r => .stuck r
    | .ok (r, ahead) => .onward { r with ahead := some ahead } []
  | some (lexeme, rest) =>
    let (t, moves) := r.moves lexeme
    let joined := moves.reductions.filterMap fun p => (join p r.pieces).map (p, ·)
    if moves.shift then
      -- Where levels and sides do not decide, every way to join is followed as well.
      .onward ⟨push r.pieces t lexeme, none, rest⟩
        (joined.reverse.map fun (_, pieces) => ⟨pieces, none, r.rest⟩)
    else match moves.reductions.findSome? r.whole?, joined with
      | some (tree, favour), _ => .finished tree favour
      -- The first way to join keeps the lexeme; the others look at the text again.
      | none, (_, pieces) :: others =>
        .onward ⟨pieces, some ({ lexeme with terminal := t }, rest), r.rest⟩
          (others.reverse.map fun (_, pieces) => ⟨pieces, none, r.rest⟩)
      | none, [] => .stuck r

end Reading

/-- The readings still to be followed, and what has come of the others. -/
structure Search where
  /-- The readings still to be followed. -/
  pool : List Reading
  /-- The most favoured tree of the whole text so far. -/
  best : Option (Tree × Nat)
  /-- Of the readings that cannot go on, the first that has come the farthest. -/
  foremost : Option Reading
deriving Repr

namespace Search

/-- The readings before and after the first of those that have read the least. -/
def rearmost? : List Reading → Option (List Reading × Reading × List Reading)
  | [] => none
  | r :: rest => match rearmost? rest with
    | some (before, s, after) =>
      if s.rest.place.offset < r.rest.place.offset then some (r :: before, s, after)
      else some ([], r, rest)
    | none => some ([], r, rest)

/-- Whether two readings have the same parts at the same place, so that only one need go on. -/
def agree (r s : Reading) : Bool :=
  r.ahead.isNone && s.ahead.isNone && r.rest.place.offset == s.rest.place.offset &&
    r.symbols == s.symbols

/-- Put a reading between others; of two that agree the more favoured one stays, else the first. -/
def place (before : List Reading) (r : Reading) (after : List Reading) : List Reading :=
  match before.findIdx? (agree r) with
  | some i => before.modify i (fun s => if s.favour < r.favour then r else s) ++ after
  | none => match after.find? (agree r) with
    | some s => before ++ (if r.favour < s.favour then s else r) :: after.filter (!agree r ·)
    | none => before ++ r :: after

/-- Keep the more favoured of two trees, the first one in a draw. -/
def prefer (best : Option (Tree × Nat)) (tree : Tree) (favour : Nat) : Option (Tree × Nat) :=
  match best with
  | some (_, top) => if top < favour then some (tree, favour) else best
  | none => some (tree, favour)

/-- Keep the reading that has come farther, the first one in a draw. -/
def farther (foremost : Option Reading) (r : Reading) : Option Reading :=
  match foremost with
  | some s => if s.rest.place.offset < r.rest.place.offset then some r else some s
  | none => some r

/-- One step of the rearmost reading, or nothing if none is left. -/
def step? (s : Search) : Option Search :=
  (rearmost? s.pool).map fun (before, r, after) =>
    match r.step with
    | .onward next others => { s with pool := place before next after ++ others }
    | .finished tree favour =>
      { s with pool := before ++ after, best := prefer s.best tree favour }
    | .stuck r => { s with pool := before ++ after, foremost := farther s.foremost r }

/-- Steps until no reading is left. -/
def run : Nat → Search → Search
  | 0, s => s
  | fuel + 1, s => match s.step? with
    | some next => run fuel next
    | none => s

end Search

/-- How many steps a search may take, whatever the text: more than any machine can make. -/
def stepLimit : Nat := 1 <<< 62

/-- All readings of a text. -/
def search (text : List Char) : Search :=
  Search.run stepLimit ⟨[.start text], none, none⟩

end TypeGraph.Java
