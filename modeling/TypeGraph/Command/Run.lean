import TypeGraph.Command.Line
import TypeGraph.Graph.Basic
import TypeGraph.Project.Extract
import TypeGraph.Project.Save

/-! A run of the command: settings, extraction, a printed summary, and the saved document. -/

namespace TypeGraph.Command

open Files

/-- What a run was doing when it failed. -/
inductive Stage where
  | loading (path : String)
  | checking
  | extracting (path : String)
  | saving (path : String)
deriving DecidableEq, Repr

/-- What is said of a failure at some stage. -/
def Stage.complaint : Stage → String
  | loading path => "failed to load config " ++ path
  | checking => "invalid settings"
  | extracting path => "failed to extract " ++ path
  | saving path => "failed to write " ++ path

/-- The text about a failure at some stage: the stage, the failure, and what lies behind it. -/
def report (stage : Stage) (failure : Failure) : String :=
  ": ".intercalate (["Error", stage.complaint, failure.message] ++ failure.cause?.toList)

/-- What a run comes to. -/
structure Outcome where
  /-- Zero for success, one for a failure, two for a command line that cannot be read. -/
  exitCode : Nat
  /-- The printed lines. -/
  printed : List String
  /-- The text about a failure. -/
  complaint : Option String
  /-- The files afterwards. -/
  files : FileTree

namespace Request

/-- Settings in which what the request asks for takes the place of what was there. -/
def override (r : Request) (s : Settings) : Settings where
  extension := r.extension.getD s.extension
  followLinks := s.followLinks || r.followLinks
  parallel := s.parallel && !r.sequential
  resolveNames := s.resolveNames && !r.noResolve
  resolveTargets := s.resolveTargets || r.resolveTargets
  supertypes := if r.allSupertypes then .all else s.supertypes
  edgeKinds := r.edges.getD s.edgeKinds

/-- The settings for a request, or the stage at which they fail and why. -/
def settings (r : Request) (files : FileTree) : Except (Stage × Failure) Settings := do
  let base ← match r.config with
    | some path => (Settings.load files path).mapError fun failure => (.loading path, failure)
    | none => pure {}
  let origin := r.config.getD "<command line>"
  ((r.override base).checked origin).mapError fun failure => (.checking, failure)

/-- The lines that say what a run is about to do. -/
def announcement (r : Request) : List String :=
  ["archgraph - Architecture Graph Extraction", "Input: " ++ r.input, "Output: " ++ r.output]

/-- The lines that sum up an extraction. -/
def summary (s : Settings) (extraction : Extraction) : List String :=
  let counts := (ClassGraph.ofDocument extraction.document).summary
  let kinds := ",".intercalate (s.edgeKinds.map EdgeKind.name)
  ["Files: " ++ toString extraction.filesScanned ++ " scanned, " ++
      toString extraction.failures.length ++ " skipped",
    "Classes: " ++ toString counts.classes ++ ", edges: " ++
      toString extraction.document.edgeCount ++ " (" ++ kinds ++ ") - " ++
      toString counts.internalEdges ++ " internal, " ++ toString counts.externalEdges ++
      " to " ++ toString counts.externalTargets ++ " external targets"]

/-- What doing as requested comes to. -/
def run (r : Request) (files : FileTree) (schedule : Schedule := .inTurn)
    (mishaps : Mishaps := {}) : Outcome :=
  match r.settings files with
  | .error (stage, failure) => ⟨1, [], some (report stage failure), files⟩
  | .ok s => match s.extract files r.input schedule with
    | .error failure =>
      ⟨1, r.announcement, some (report (.extracting r.input) failure), files⟩
    | .ok extraction =>
      let printed := r.announcement ++ summary s extraction
      let saved := extraction.document.save .pretty files r.output mishaps
      match saved.failure with
      | some failure => ⟨1, printed, some (report (.saving r.output) failure), saved.files⟩
      | none =>
        ⟨0, printed ++ ["Extraction complete. Saved to: " ++ r.output], none, saved.files⟩

end Request

/-- The lines that say how the command is used. -/
def usage : List String :=
  ["Extracts an architecture graph (classes, metrics, dependencies) from Java sources", "",
    "Usage: archgraph [OPTIONS] --input <PATH>", "",
    "Options:",
    "  -i, --input <PATH>     Root directory of the sources to analyze",
    "  -o, --output <FILE>    Output file for the JSON document [default: abstraction.json]",
    "  -c, --config <FILE>    TOML file with extractor settings [env: ARCHGRAPH_CONFIG=]",
    "      --edges <KINDS>    Comma-separated edge kinds to emit",
    "      --all-supertypes   Emit an inherit edge for every extended and implemented type",
    "      --resolve-targets  Qualify edge targets through imports and same-file declarations",
    "      --no-resolve       Keep simple class names instead of package-qualified ones",
    "      --sequential       Process files one at a time",
    "      --extension <EXT>  Source file extension",
    "      --follow-links     Follow symbolic links while scanning",
    "  -v, --verbose          Debug logging",
    "  -h, --help             Print help",
    "  -V, --version          Print version"]

/-- What a command line comes to; a settings file may also be named beforehand. -/
def runArguments (presetConfig : Option String) (arguments : List String) (files : FileTree) :
    Outcome :=
  match Request.ofArguments presetConfig arguments with
  | .ok request => request.run files
  | .error .help => ⟨0, usage, none, files⟩
  | .error .version => ⟨0, ["archgraph 0.1.0"], none, files⟩
  | .error .usage => ⟨2, [], some "Error: the arguments cannot be read; try --help", files⟩

end TypeGraph.Command
