import TypeGraph.Settings.Basic
import TypeGraph.Text.Split

/-! The options of the command line: their names, and what each may be given. -/

namespace TypeGraph.Command

/-- The options that stand alone. -/
inductive Switch where
  | allSupertypes | resolveTargets | noResolve | sequential | followLinks | verbose
  | help | version
deriving DecidableEq, Repr

/-- The options that are given a value. -/
inductive Parameter where
  | input | output | config | edges | extension
deriving DecidableEq, Repr

/-- An option of either sort. -/
inductive Choice where
  | switch (s : Switch)
  | parameter (p : Parameter)
deriving DecidableEq, Repr

namespace Choice

/-- The option with a long name. -/
def ofLong? : String → Option Choice
  | "all-supertypes" => some (switch .allSupertypes)
  | "resolve-targets" => some (switch .resolveTargets)
  | "no-resolve" => some (switch .noResolve)
  | "sequential" => some (switch .sequential)
  | "follow-links" => some (switch .followLinks)
  | "verbose" => some (switch .verbose)
  | "help" => some (switch .help)
  | "version" => some (switch .version)
  | "input" => some (parameter .input)
  | "output" => some (parameter .output)
  | "config" => some (parameter .config)
  | "edges" => some (parameter .edges)
  | "extension" => some (parameter .extension)
  | _ => none

/-- The option with a name of one letter. -/
def ofShort? : Char → Option Choice
  | 'v' => some (switch .verbose)
  | 'h' => some (switch .help)
  | 'V' => some (switch .version)
  | 'i' => some (parameter .input)
  | 'o' => some (parameter .output)
  | 'c' => some (parameter .config)
  | _ => none

end Choice

/-- The kinds of edges that a text names, with commas between the names. -/
def edgeKinds? (text : String) : Option (List EdgeKind) :=
  (Text.pieces ',' text.toList).mapM fun piece => EdgeKind.ofName? (String.ofList piece)

/-- Whether an option accepts a value. -/
def Parameter.accepts : Parameter → String → Bool
  | .input, value | .output, value | .config, value => value ≠ ""
  | .edges, value => (edgeKinds? value).isSome
  | .extension, _ => true

end TypeGraph.Command
