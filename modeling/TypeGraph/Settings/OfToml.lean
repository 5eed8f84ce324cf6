import TypeGraph.Settings.Basic
import TypeGraph.Toml.Document
import TypeGraph.Toml.Fault

/-! The settings that a TOML document gives; what it does not mention keeps its default. -/

namespace TypeGraph

open Toml

namespace Settings

/-- The names of all settings. -/
def fieldNames : List String :=
  ["extension", "follow_links", "parallel", "resolve_names", "resolve_targets", "supertypes",
    "edge_kinds"]

/-- The truth value that an item is. -/
def boolean : Item → Except Fault Bool
  | (_, .boolean b) => .ok b
  | (range, found) => .error ⟨range, .wrongType found "a boolean"⟩

/-- The string that an item is. -/
def string : Item → Except Fault String
  | (_, .string s) => .ok s
  | (range, found) => .error ⟨range, .wrongType found "a string"⟩

/-- Whether a value has no content. -/
def isVacant : Value → Bool
  | .array _ items => items.isEmpty
  | .table _ members => members.isEmpty
  | _ => false

/-- The choice that an item names: by a string, or by the only key of a table, without content. -/
def variant {α : Type} (known : List String) (ofName? : String → Option α) :
    Item → Except Fault α
  | (range, .string name) => named range name
  | (_, .table _ [(key, range, content)]) => do
    let choice ← named key.range key.name
    if isVacant content then return choice else .error ⟨range, .variantContent⟩
  | (range, .table _ members) => .error ⟨range, .variantCount members.length⟩
  | (range, _) => .error ⟨range, .noVariant⟩
where
  /-- The choice with a name. -/
  named (range : Range) (name : String) : Except Fault α :=
    match ofName? name with
    | some choice => .ok choice
    | none => .error ⟨range, .unknownVariant name known⟩

/-- The choices that the parts of an array name. -/
def variants {α : Type} (known : List String) (ofName? : String → Option α) :
    Item → Except Fault (List α)
  | (_, .array _ items) => items.mapM (variant known ofName?)
  | (range, found) => .error ⟨range, .wrongType found "a sequence"⟩

/-- The settings with one member of a document taken in. -/
def withMember (s : Settings) : Key × Item → Except Fault Settings
  | (key, item) => match key.name with
    | "extension" => do return { s with extension := ← string item }
    | "follow_links" => do return { s with followLinks := ← boolean item }
    | "parallel" => do return { s with parallel := ← boolean item }
    | "resolve_names" => do return { s with resolveNames := ← boolean item }
    | "resolve_targets" => do return { s with resolveTargets := ← boolean item }
    | "supertypes" => do
      let known := [Supertypes.first, .all].map Supertypes.name
      return { s with supertypes := ← variant known Supertypes.ofName? item }
    | "edge_kinds" => do
      let known := EdgeKind.all.map EdgeKind.name
      return { s with edgeKinds := ← variants known EdgeKind.ofName? item }
    | name => .error ⟨key.range, .unknownField name fieldNames⟩

/-- The settings that the members of a document give. -/
def ofMembers (members : Members) : Except Fault Settings :=
  members.foldlM withMember {}

/-- The settings that the text of a document gives. -/
def ofToml (text : List Char) : Except Fault Settings :=
  match Toml.parse text with
  | .ok members => ofMembers members
  | .error range => .error ⟨range, .malformed⟩

end Settings

end TypeGraph
