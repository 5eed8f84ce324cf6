import TypeGraph.Java.Grammar
import TypeGraph.Java.Lexeme
import TypeGraph.Java.Table

/-! The states of a reader of the grammar, worked out one from the other when they are reached. -/

namespace TypeGraph.Java

/-- How many binary digits are enough to number the rules. -/
def ruleDigits : Nat := 8

/-- A table of something for every rule. -/
def Rule.tabulate {α : Type} (default : α) (f : Rule → α) : Table α :=
  all.foldl (fun table r => table.set (f r) ruleDigits r.index) (.all default)

/-- The symbols with which a rule may start. -/
structure Leads where
  /-- The terminals among them. -/
  terminals : TerminalSet
  /-- The positions of the rules among them, as the ones of a binary number. -/
  positions : Nat
  /-- The rules among them, each once. -/
  rules : List Rule
deriving Repr

namespace Leads

/-- Leads with one more symbol. -/
def add (l : Leads) : Symbol → Leads
  | .terminal t => { l with terminals := l.terminals.union (.single t) }
  | .rule r =>
    if l.positions.testBit r.index then l
    else { l with positions := l.positions + 1 <<< r.index, rules := r :: l.rules }

/-- Whether a symbol is among the leads. -/
def has (l : Leads) : Symbol → Bool
  | .terminal t => l.terminals.has t
  | .rule r => l.positions.testBit r.index

end Leads

namespace Rule

/-- The productions of all rules. -/
def productionTable : Table (List Production) := tabulate [] productions

/-- The symbols with which a rule may start. -/
def leadsOf (r : Rule) : Leads :=
  (productionTable.get r.index).foldl (fun leads p => match p.body with
    | slot :: _ => leads.add slot.symbol
    | [] => leads) ⟨0, 0, []⟩

/-- The symbols with which all rules may start. -/
def leadTable : Table Leads := tabulate ⟨0, 0, []⟩ leadsOf

/-- The symbols with which a rule may start, looked up. -/
def leads (r : Rule) : Leads := leadTable.get r.index

/-- One round of learning with which terminals every rule may start, and whether it was of use. -/
def learnFirst (known : Table TerminalSet) : Table TerminalSet × Bool :=
  all.foldr (fun r (known, useful) =>
    let sum := r.leads.rules.foldl (fun set c => set.union (known.get c.index)) r.leads.terminals
    if sum = known.get r.index then (known, useful)
    else (known.set sum ruleDigits r.index, true)) (known, false)

/-- Rounds of learning until nothing new turns up. -/
def learnAllFirst : Nat → Table TerminalSet → Table TerminalSet
  | 0, known => known
  | rounds + 1, known => match learnFirst known with
    | (known, true) => learnAllFirst rounds known
    | (known, false) => known

/-- The terminals with which all rules may start. -/
def firstTable : Table TerminalSet := learnAllFirst all.length (.all 0)

/-- The terminals with which a rule may start. -/
def first (r : Rule) : TerminalSet := firstTable.get r.index

end Rule

/-- The terminals with which a symbol may start. -/
def Symbol.first : Symbol → TerminalSet
  | terminal t => .single t
  | rule r => r.first

/-- A rule that may begin where another is expected. -/
structure Corner where
  /-- The rule that may begin. -/
  rule : Rule
  /-- Terminals that may follow it from inside the expected rule. -/
  ahead : TerminalSet
  /-- Whether it may also reach to the end of the expected rule. -/
  reaches : Bool
deriving DecidableEq, Repr

namespace Corner

/-- Add a corner to others, where corners of one rule become one. -/
def addTo (c : Corner) : List Corner → List Corner
  | [] => [c]
  | d :: rest =>
    if d.rule.index = c.rule.index then
      ⟨d.rule, d.ahead.union c.ahead, d.reaches || c.reaches⟩ :: rest
    else d :: addTo c rest

/-- A corner of a corner, as a corner of the rule expected in the first place. -/
def within (c outer : Corner) : Corner :=
  ⟨c.rule, if c.reaches then c.ahead.union outer.ahead else c.ahead, c.reaches && outer.reaches⟩

end Corner

namespace Rule

/-- The rules that may directly begin a rule, with what may follow them there. -/
def edgesOf (r : Rule) : List Corner :=
  (productionTable.get r.index).foldl (fun corners p => match p.body with
    -- What follows the beginning is told by the next slot, or else by what is around the rule.
    | ⟨.rule c, _, _⟩ :: next :: _ => Corner.addTo ⟨c, next.symbol.first, false⟩ corners
    | [⟨.rule c, _, _⟩] => Corner.addTo ⟨c, 0, true⟩ corners
    | _ => corners) []

/-- The direct beginnings of all rules. -/
def edgeTable : Table (List Corner) := tabulate [] edgesOf

/-- Corners learned so far, by rule, with the rules still to be looked at. -/
abbrev Learned := Table (Option Corner) × List Rule

/-- Take in a corner; its rule is to be looked at if that brings anything new. -/
def learnCorner (learned : Learned) (c : Corner) : Learned :=
  match learned.1.get c.rule.index with
  | none => (learned.1.set (some c) ruleDigits c.rule.index, c.rule :: learned.2)
  | some old =>
    let sum : Corner := ⟨c.rule, old.ahead.union c.ahead, old.reaches || c.reaches⟩
    -- Only a corner that has grown is looked at again, so the work comes to an end.
    if sum.ahead = old.ahead && sum.reaches = old.reaches then learned
    else (learned.1.set (some sum) ruleDigits c.rule.index, c.rule :: learned.2)

/-- Follow direct beginnings from the rules still to be looked at. -/
def spread : Nat → Learned → Table (Option Corner)
  | 0, (known, _) => known
  | _, (known, []) => known
  | fuel + 1, (known, r :: work) => match known.get r.index with
    | none => spread fuel (known, work)
    | some outer => spread fuel <| (edgeTable.get r.index).foldl
        (fun learned c => learnCorner learned (c.within outer)) (known, work)

/-- All rules that may begin where a rule is expected, itself included. -/
def cornersOf (r : Rule) : List Corner :=
  let known := spread 100000 (learnCorner (.all none, []) ⟨r, 0, true⟩)
  all.filterMap fun c => known.get c.index

/-- The corners of all rules. -/
def cornerTable : Table (List Corner) := tabulate [] cornersOf

/-- The rules that start with a symbol and may begin where a rule is expected. -/
def corners (r : Rule) (lead : Symbol) : List Corner :=
  (cornerTable.get r.index).filter fun c => c.rule.leads.has lead

/-- The productions of a rule that start with a symbol. -/
def startingWith (r : Rule) (lead : Symbol) : List Production :=
  (productionTable.get r.index).filter fun p => p.body.head?.map (·.symbol) = some lead

end Rule

/-- A production of which a part has been read. -/
structure Item where
  /-- The production. -/
  production : Production
  /-- The slots still to be filled. -/
  rest : List Slot
  /-- The terminals that may follow the whole. -/
  ahead : TerminalSet
deriving DecidableEq, Repr

/-- What a reader may be in the middle of. -/
structure State where
  items : List Item
deriving DecidableEq, Repr

/-- Terminal sets kept by rule. -/
abbrev Outlook := List (Rule × TerminalSet)

/-- Let a rule be followed by more terminals. -/
def Outlook.add (o : Outlook) (r : Rule) (ahead : TerminalSet) : Outlook :=
  match o with
  | [] => [(r, ahead)]
  | (s, old) :: rest =>
    if s = r then (s, old.union ahead) :: rest else (s, old) :: Outlook.add rest r ahead

namespace State

/-- The state before anything is read. -/
def start : State :=
  ⟨Rule.program.productions.map fun p => ⟨p, p.body, .single .endOfText⟩⟩

/-- The rules expected next, with what may follow them. -/
def wanted (s : State) : Outlook :=
  s.items.foldl (fun o item => match item.rest with
    | [⟨.rule r, _, _⟩] => o.add r item.ahead
    | ⟨.rule r, _, _⟩ :: next :: _ => o.add r next.symbol.first
    | _ => o) []

/-- The rules that start with a symbol here, with what may follow them. -/
def beginning (s : State) (lead : Symbol) : Outlook :=
  s.wanted.foldl (fun o want =>
    (want.1.corners lead).foldl (fun o c =>
      o.add c.rule (if c.reaches then c.ahead.union want.2 else c.ahead)) o) []

/-- The state after one more symbol. -/
def advance (s : State) (symbol : Symbol) : State :=
  -- Productions under way go on, and those that begin with the symbol are opened at once.
  let moved := s.items.filterMap fun item => match item.rest with
    | slot :: rest => if slot.symbol = symbol then some { item with rest := rest } else none
    | [] => none
  let opened := (s.beginning symbol).flatMap fun entry =>
    (entry.1.startingWith symbol).map fun p => ⟨p, p.body.tail, entry.2⟩
  ⟨moved ++ opened⟩

/-- The terminals that may come next. -/
def expected (s : State) : TerminalSet :=
  s.items.foldl (fun all item => all.union <|
    match item.rest with
    | slot :: _ => slot.symbol.first
    | [] => item.ahead) 0

/-- The productions that are complete when a terminal comes next. -/
def complete (s : State) (t : Terminal) : List Production :=
  s.items.filterMap fun item =>
    if item.rest.isEmpty && item.ahead.has t then some item.production else none

/-- The levels of the productions that go on with a terminal. -/
def ongoing (s : State) (t : Terminal) : List Int :=
  s.items.filterMap fun item => match item.rest with
    | slot :: _ => if slot.symbol.first.has t then some item.production.rank.level else none
    | [] => none

end State

/-- What a reader may do about a terminal: take it, or first complete one of some productions. -/
structure Moves where
  shift : Bool
  reductions : List Production
deriving DecidableEq, Repr

/-- The productions of the highest level. -/
def strongest (ps : List Production) : List Production :=
  ps.filter fun p => ps.all fun q => q.rank.level ≤ p.rank.level

/-- Insert a production before those of earlier rules. -/
def insertByRule (p : Production) : List Production → List Production
  | [] => [p]
  | q :: rest => if q.head.index < p.head.index then p :: q :: rest else q :: insertByRule p rest

/-- The moves that remain after levels and sides have been compared. -/
def State.moves (s : State) (t : Terminal) : Moves :=
  let reductions := (strongest (s.complete t)).foldr insertByRule []
  let levels := s.ongoing t
  match reductions, levels with
  | [], levels => ⟨!levels.isEmpty, []⟩
  | _, [] => ⟨false, reductions⟩
  | top :: _, _ =>
    -- Levels are compared first, and in a draw the sides of the productions decide.
    let stronger := levels.any fun level => top.rank.level < level
    let weaker := levels.any fun level => level < top.rank.level
    if stronger && !weaker then ⟨true, []⟩
    else if weaker && !stronger then ⟨false, reductions⟩
    else if !stronger && reductions.all (fun p => p.rank.side = some .left) then ⟨false, reductions⟩
    else if !stronger && reductions.all (fun p => p.rank.side = some .right) then ⟨true, []⟩
    else ⟨true, reductions⟩

end TypeGraph.Java
