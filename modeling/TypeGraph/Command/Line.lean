import TypeGraph.Command.Option

/-! The reading of a command line. -/

namespace TypeGraph.Command

/-- What a command line gives, in the order in which it is given. -/
structure Given where
  switches : List Switch := []
  values : List (Parameter × String) := []
deriving DecidableEq, Repr

/-- Why a command line does not lead to a run. -/
inductive Stop where
  | usage | help | version
deriving DecidableEq, Repr

namespace Given

/-- The value given to an option that has at most one. -/
def value? (g : Given) (p : Parameter) : Option String :=
  (g.values.find? fun entry => entry.1 = p).map (·.2)

/-- The kinds of edges that are given, if any are. -/
def edges? (g : Given) : Option (List EdgeKind) :=
  match g.values.filter fun entry => entry.1 = .edges with
  | [] => none
  | entries => some (entries.flatMap fun entry => (edgeKinds? entry.2).getD [])

/-- Whether an option that stands alone is given. -/
def has (g : Given) (s : Switch) : Bool := g.switches.contains s

/-- Take in an option that stands alone, which may be given once. -/
def addSwitch (g : Given) : Switch → Except Stop Given
  | .help => .error .help
  | .version => .error .version
  | s => if g.has s then .error .usage else .ok { g with switches := g.switches ++ [s] }

/-- Take in an option with a value; all but the kinds of edges may be given once. -/
def addValue (g : Given) (p : Parameter) (value : String) : Except Stop Given :=
  if !p.accepts value || (p ≠ .edges && (g.value? p).isSome) then .error .usage
  else .ok { g with values := g.values ++ [(p, value)] }

end Given

/-- What an argument of options with names of one letter gives, or the option that is left
without a value at its end. -/
def readCluster (g : Given) : List Char → Except Stop (Given × Option Parameter)
  | [] => .ok (g, none)
  | c :: rest => match Choice.ofShort? c with
    | none => .error .usage
    | some (.switch s) => do readCluster (← g.addSwitch s) rest
    | some (.parameter p) => match rest with
      | [] => .ok (g, some p)
      | '=' :: value => do return (← g.addValue p (String.ofList value), none)
      | value => do return (← g.addValue p (String.ofList value), none)

/-- What an argument of one option with a long name gives, or the option that is left without a
value. -/
def readLong (g : Given) (text : List Char) : Except Stop (Given × Option Parameter) :=
  let name := text.takeWhile (· ≠ '=')
  match Choice.ofLong? (String.ofList name), text.drop name.length with
  | some (.switch s), [] => do return (← g.addSwitch s, none)
  | some (.parameter p), [] => .ok (g, some p)
  | some (.parameter p), _ :: value => do return (← g.addValue p (String.ofList value), none)
  | _, _ => .error .usage

/-- What a command line gives after all that has been read before. An argument that could be an
option is never taken for a value, and no argument stands alone without being an option. -/
def readArguments (g : Given) : List String → Except Stop Given
  | [] => .ok g
  | argument :: rest => do
    let (g, pending) ← match argument.toList with
      | ['-', '-'] => if rest.isEmpty then return g else .error .usage
      | '-' :: '-' :: text => readLong g text
      | '-' :: c :: text => readCluster g (c :: text)
      | _ => .error .usage
    match pending, rest with
    | none, rest => readArguments g rest
    | some _, [] => .error .usage
    | some p, value :: rest =>
      if isOption value then .error .usage else do readArguments (← g.addValue p value) rest
where
  /-- Whether an argument could be an option. -/
  isOption (argument : String) : Bool :=
    match argument.toList with
    | '-' :: _ :: _ => true
    | _ => false

/-- What a run has been asked to do. -/
structure Request where
  input : String
  output : String
  /-- The settings file. -/
  config : Option String
  edges : Option (List EdgeKind)
  extension : Option String
  allSupertypes : Bool
  resolveTargets : Bool
  noResolve : Bool
  sequential : Bool
  followLinks : Bool
  verbose : Bool
deriving DecidableEq, Repr

/-- The request that a command line makes; a settings file may also be named beforehand. -/
def Request.ofArguments (presetConfig : Option String) (arguments : List String) :
    Except Stop Request := do
  let given ← readArguments {} arguments
  let config := given.value? .config <|> presetConfig
  let some input := given.value? .input | .error .usage
  if config = some "" then .error .usage
  return {
    input
    output := (given.value? .output).getD "abstraction.json"
    config
    edges := given.edges?
    extension := given.value? .extension
    allSupertypes := given.has .allSupertypes
    resolveTargets := given.has .resolveTargets
    noResolve := given.has .noResolve
    sequential := given.has .sequential
    followLinks := given.has .followLinks
    verbose := given.has .verbose }

end TypeGraph.Command
