import Mathlib
import TypeGraph.Proofs.Command.Run
import TypeGraph.Proofs.Settings.Layer

/-! The settings of a run are merged from the command line, the settings file and the defaults, and
those of the file have to be usable on their own. -/

namespace TypeGraph

open Files Toml

namespace Settings

/-- Whether settings can be used: they have an extension and a kind of edges. -/
def Usable (s : Settings) : Prop := s.normalizedExtension ≠ "" ∧ s.edgeKinds ≠ []

instance (s : Settings) : Decidable s.Usable := inferInstanceAs (Decidable (_ ∧ _))

/-- Settings can be used if there is no fault in them. -/
theorem fault?_eq_none_iff {s : Settings} : s.fault? = none ↔ s.Usable := by
  unfold fault? Usable
  split_ifs with empty kinds <;> simp_all

end Settings

namespace Command.Request

/-- The members of the settings file that a request names; without a file there are none. -/
def Reads (r : Request) (files : FileTree) (m : Members) : Prop :=
  match r.config with
  | some path => ∃ text, files.readText path = .ok text ∧ Toml.parse text.toList = .ok m
  | none => m = []

/-- The settings that a request asks for, each set or left open. -/
def layer (r : Request) : Settings.Layer where
  extension := r.extension
  followLinks := if r.followLinks then some true else none
  parallel := if r.sequential then some false else none
  resolveNames := if r.noResolve then some false else none
  resolveTargets := if r.resolveTargets then some true else none
  supertypes := if r.allSupertypes then some .all else none
  edgeKinds := r.edges

/-- What a request asks for takes its place as a layer. -/
theorem override_eq (r : Request) (s : Settings) : r.override s = r.layer.onto s := by
  unfold override layer Settings.Layer.onto
  cases r.followLinks <;> cases r.sequential <;> cases r.noResolve <;> cases r.resolveTargets <;>
    cases r.allSupertypes <;> simp

variable {r : Request} {files : FileTree} {m : Members}

/-- No name comes twice in a settings file. -/
theorem Reads.nodup (reads : r.Reads files m) : (m.map (·.1.name)).Nodup := by
  unfold Reads at reads
  split at reads
  · obtain ⟨text, -, parsed⟩ := reads
    exact nodup_names_of_parse parsed
  · rw [reads]
    exact List.nodup_nil

/-- Where the members of the file give settings, a request goes on from these if they can be used. -/
theorem Reads.starts_iff (reads : r.Reads files m) {base : Settings}
    (given : Settings.ofMembers m = .ok base) {start : Settings} :
    r.Starts files start ↔ start = base ∧ base.Usable := by
  unfold Reads at reads
  unfold Starts
  generalize r.config = config at reads ⊢
  cases config with
  | some path =>
    obtain ⟨text, content, parsed⟩ := reads
    have read : Settings.ofToml text.toList = .ok base := by
      rw [Settings.ofToml, parsed]
      exact given
    simp only [Settings.load, bind_eq_ok_iff, mapError_eq_ok_iff, content, read, Except.ok.injEq,
      exists_eq_left', Settings.checked_eq_ok_iff, Settings.fault?_eq_none_iff]
    rw [and_comm, eq_comm]
  | none =>
    subst reads
    obtain rfl : ({} : Settings) = base := Except.ok.inj given
    have usable : ({} : Settings).Usable := by decide
    simp only [usable, and_true]

/-- From settings that it can go on from, a request comes to what it asks for over these, if that
can be used. -/
theorem settings_eq {base : Settings} (starts : r.Starts files base) :
    r.settings files = ((r.override base).checked (r.config.getD "<command line>")).mapError
      fun failure => (.checking, failure) := by
  unfold Starts at starts
  unfold settings
  generalize r.config = config at starts ⊢
  cases config with
  | some path => simp only [starts, Except.mapError, bind, Except.bind]
  | none => simp only [starts, pure, Except.pure, bind, Except.bind]

/-- Each setting of a run is the one that the request asks for, else the one that the settings file
says, else the default, in whatever order the members of the file come. There are settings exactly
if these can be used and those of the file alone can be used, too. Among files that can be used, what
a request comes to depends on the merged settings only, not on what the request replaces. -/
theorem settings_by_layers (reads : r.Reads files m) {base : Settings}
    (given : Settings.ofMembers m = .ok base) :
    let merged := (r.layer.before (.ofMembers m)).settings
    base = (Settings.Layer.ofMembers m).settings ∧
      (∀ s, r.settings files = .ok s ↔ s = merged ∧ merged.Usable ∧ base.Usable) ∧
      (∀ m', m'.Perm m →
        Settings.Layer.ofMembers m' = .ofMembers m ∧ Settings.ofMembers m' = .ok base) ∧
      ∀ files' m' base', r.Reads files' m' → Settings.ofMembers m' = .ok base' →
        base.Usable → base'.Usable → (r.layer.before (.ofMembers m')).settings = merged →
          r.settings files' = r.settings files := by
  intro merged
  -- Whatever file is read, the request overrides the settings of its layer.
  have overridden {m : Members} {base : Settings} {files : FileTree} (reads : r.Reads files m)
      (given : Settings.ofMembers m = .ok base) :
      r.override base = (r.layer.before (.ofMembers m)).settings := by
    rw [override_eq, Settings.eq_settings_of_ofMembers reads.nodup given]
    exact (Settings.Layer.onto_before _ _ _).symm
  refine ⟨Settings.eq_settings_of_ofMembers reads.nodup given, fun s => ?_, fun m' rearranged => ?_,
    fun files' m' base' reads' given' usable usable' same => ?_⟩
  · rw [settings_eq_ok_iff]
    simp only [reads.starts_iff given, Settings.fault?_eq_none_iff]
    constructor
    · rintro ⟨_, ⟨rfl, own⟩, usable, rfl⟩
      rw [overridden reads given] at usable ⊢
      exact ⟨rfl, usable, own⟩
    · rintro ⟨rfl, usable, own⟩
      have same : r.override base = merged := overridden reads given
      exact ⟨base, ⟨rfl, own⟩, by rwa [same], same⟩
  · exact ⟨Settings.Layer.ofMembers_perm rearranged reads.nodup,
      Settings.ofMembers_perm rearranged reads.nodup given⟩
  · rw [settings_eq ((reads.starts_iff given).mpr ⟨rfl, usable⟩),
      settings_eq ((reads'.starts_iff given').mpr ⟨rfl, usable'⟩), overridden reads given,
      overridden reads' given', same]

/-- A directory with nothing in it but a settings file. -/
def settingsFile (text : String) : FileTree := ⟨.directory [("c.toml", .file text.toUTF8)], []⟩

/-- The text of the settings file can be read. -/
theorem readText_settingsFile (text : String) :
    (settingsFile text).readText "c.toml" = .ok text := by
  have leads : (settingsFile text).locate true "c.toml" = .ok ["c.toml"] :=
    FileTree.locate_step true (by decide) (by decide) (by decide) rfl nofun
  have here : (settingsFile text).entry "c.toml" = .ok (.file text.toUTF8) :=
    FileTree.entry_eq_ok_iff.mpr ⟨_, leads, rfl⟩
  have content : (settingsFile text).read "c.toml" = .ok text.toUTF8 := by
    rw [FileTree.read, here]
    rfl
  have decoded : String.fromUTF8? text.toUTF8 = some text := dif_pos text.isValidUTF8
  rw [FileTree.readText, content]
  simp only [bind, Except.bind, decoded]
  rfl

/-- A request for calls, one file at a time, that names the settings file. -/
def callsInTurn : Request where
  input := "src"
  output := "abstraction.json"
  config := some "c.toml"
  edges := some [.call]
  extension := none
  allSupertypes := false
  resolveTargets := false
  noResolve := false
  sequential := true
  followLinks := false
  verbose := false

/-- It does not matter whether a settings file that can be used names kinds of edges, if the request
asks for others. -/
theorem settings_by_layers_replaced :
    let s : Settings := { extension := ".kt", parallel := false, edgeKinds := [.call] }
    callsInTurn.settings (settingsFile "extension = '.kt'\nedge_kinds = ['reference']") = .ok s ∧
      callsInTurn.settings (settingsFile "extension = '.kt'") = .ok s := by
  intro s
  let unnamed : Members := [(⟨"extension", 0, 9⟩, ⟨12, 17⟩, .string ".kt")]
  let named : Members :=
    (⟨"edge_kinds", 18, 28⟩, ⟨31, 44⟩, .array false [(⟨32, 43⟩, .string "reference")]) :: unnamed
  have reads : callsInTurn.Reads
      (settingsFile "extension = '.kt'\nedge_kinds = ['reference']") named :=
    ⟨_, readText_settingsFile _, by cbv⟩
  have reads' : callsInTurn.Reads (settingsFile "extension = '.kt'") unnamed :=
    ⟨_, readText_settingsFile _, by cbv⟩
  obtain ⟨-, loads, -, only⟩ := settings_by_layers reads
    (show Settings.ofMembers named = .ok { extension := ".kt", edgeKinds := [.reference] } by rfl)
  have loaded : callsInTurn.settings _ = .ok s := (loads s).mpr ⟨rfl, by decide, by decide⟩
  refine ⟨loaded, ?_⟩
  rw [only _ _ { extension := ".kt" } reads' rfl (by decide) (by decide) rfl]
  exact loaded

/-- A settings file without any kind of edges keeps a request from its settings, though the request
asks for kinds and what is merged can be used. -/
theorem replaced_file_value_counts :
    let m : Members := [(⟨"edge_kinds", 0, 10⟩, ⟨13, 15⟩, .array false [])]
    callsInTurn.Reads (settingsFile "edge_kinds = []") m ∧
      Settings.ofMembers m = .ok { edgeKinds := [] } ∧
      (callsInTurn.layer.before (.ofMembers m)).settings.Usable ∧
      ∀ s, callsInTurn.settings (settingsFile "edge_kinds = []") ≠ .ok s := by
  intro m
  have reads : callsInTurn.Reads (settingsFile "edge_kinds = []") m :=
    ⟨_, readText_settingsFile _, by cbv⟩
  have given : Settings.ofMembers m = .ok { edgeKinds := [] } := rfl
  refine ⟨reads, given, by decide, fun s loaded => ?_⟩
  obtain ⟨start, starts, -⟩ := settings_eq_ok_iff.mp loaded
  exact ((reads.starts_iff given).mp starts).2.2 rfl

end Command.Request

end TypeGraph
