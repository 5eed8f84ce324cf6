import TypeGraph.Java.Reading

/-! The tree of a source text, where a fault stands for the first place no reading gets past. -/

namespace TypeGraph.Java

namespace Reading

/-- The ways to join the last pieces by any complete production, whatever comes next. -/
def joins (pieces : List Piece) : List (List Piece) :=
  ((stateAfter pieces).items.filter fun item => item.rest.isEmpty).filterMap fun item =>
    join item.production pieces

/-- The pieces themselves, followed by all that can be made of them by joining. -/
def collapses : Nat → List (List Piece) → List (List Piece)
  | 0, _ => []
  | _, [] => []
  | fuel + 1, pieces :: work => pieces :: collapses fuel (work ++ joins pieces)

/-- Whether a terminal can be taken after joining pieces as the grammar asks. -/
def accepts (t : Terminal) : Nat → List (List Piece) → Bool
  | 0, _ => false
  | _, [] => false
  | fuel + 1, pieces :: work =>
    let moves := (stateAfter pieces).moves t
    moves.shift || (moves.reductions.any fun p => p.head = .program) ||
      accepts t fuel (work ++ moves.reductions.filterMap fun p => join p pieces)

/-- Whether a missing terminal would complete a phrase that the next lexeme can follow. -/
def bridges (pieces : List Piece) (missing next : Terminal) (place : Text.Position) : Bool :=
  let after := push pieces missing ⟨missing, [], [], place⟩
  ((stateAfter pieces).moves missing).shift &&
    !((stateAfter after).complete next).isEmpty && accepts next 64 [after]

/-- The first terminal whose absence alone keeps the next lexeme from following. -/
def missing? (r : Reading) (next : Terminal) : Option (List Piece × Terminal) :=
  (collapses 64 [r.pieces]).findSome? fun pieces =>
    (Terminal.all.find? fun t => bridges pieces t next r.rest.place).map (pieces, ·)

/-- The terminals that may have blanks before them. -/
def detached : TerminalSet := .ofList (Terminal.all.filter fun t => !t.isAttached)

/-- The lexeme at which a reading is stuck, if the text goes on with one. -/
def obstacle? (r : Reading) : Option Lexeme :=
  match r.ahead with
  | some (lexeme, _) => some lexeme
  | none => (r.rest.next detached).map (·.1)

/-- The tree of a stuck reading, which ends with a fault. -/
def faulty (r : Reading) : Tree :=
  let broken (lexeme : Lexeme) : Tree :=
    .node none .program (r.trees ++ [.leaf none .unexpected lexeme])
  match r.obstacle? with
  | none => broken (r.rest.cut .endOfText r.rest.blanks.length 0).1
  | some lexeme => match r.missing? lexeme.terminal with
    | some (pieces, t) =>
      .node none .program ((⟨pieces, none, r.rest⟩ : Reading).trees ++
        [.leaf none (.missing t) ⟨t, [], [], r.rest.place⟩])
    | none => broken lexeme

end Reading

namespace Search

/-- The tree that a search has come to. -/
def tree (s : Search) : Tree :=
  match s.best, s.foremost with
  | some (tree, _), _ => tree
  | none, some r => r.faulty
  | none, none => .node none .program []

end Search

/-- The tree of a source text. -/
def parse (text : List Char) : Tree := (search text).tree

end TypeGraph.Java
