import TypeGraph.Proofs.Declaration.Calls

/-! Which types method calls are about, by how the receivers of the calls are written. -/

namespace TypeGraph

open Java

/-- What a method is called on, as it is written. -/
inductive Receiver where
  /-- Nothing: the method is called by its name alone. -/
  | absent
  /-- A plain name. -/
  | plain (name : String)
  /-- A field of this object. -/
  | ofThis (name : String)
  /-- Any other expression. -/
  | expression
deriving DecidableEq, Repr

/-- The name of a receiver that is a plain name or a field of this object. -/
def Receiver.name? : Receiver → Option String
  | plain name | ofThis name => some name
  | absent | expression => none

/-- How the receiver of a method call is written. -/
def Java.Tree.receiver (t : Java.Tree) : Receiver :=
  match t.part? .object with
  | none => .absent
  | some object =>
    if object.label = .lexeme .identifier then .plain object.string
    else if object.isRule .fieldAccess ∧
        (object.part? .object).map Java.Tree.label = some (.lexeme .thisWord) then
      ((object.part? .member).map fun member => .ofThis member.string).getD .expression
    else .expression

/-- The name on which a call is lowered is that of its receiver. -/
theorem receiver?_eq (t : Java.Tree) : receiver? t.parts = t.receiver.name? := by
  rw [receiver?, Java.Tree.receiver, Java.Tree.part?]
  cases t.parts.find? fun part => part.field = some .object with
  | none => rfl
  | some object =>
    cases object with
    | leaf field label x =>
      by_cases name : label = .lexeme .identifier
      · subst name
        simp [Java.Tree.label, Receiver.name?, Java.Tree.string, Java.Tree.text,
          Java.Tree.lexemes]
      · -- A lexeme has no parts, so it is no field of anything.
        simp [Java.Tree.label, Java.Tree.part?, Java.Tree.parts, name, Receiver.name?]
    | node field rule parts =>
      by_cases access : rule = .fieldAccess
      · subst access
        -- Of the field accesses, only one on this object gives a name.
        simp only [Java.Tree.label, Java.Tree.isRule, Java.Tree.part?, Java.Tree.parts, textOf?]
        cases parts.find? fun part => part.field = some .object with
        | none => rfl
        | some inner =>
          cases inner with
          | node => rfl
          | leaf _ label _ =>
            by_cases this : label = .lexeme .thisWord
            · subst this
              cases parts.find? fun part => part.field = some .member <;> rfl
            · simp [Java.Tree.label, this, Receiver.name?]
      · simp [Java.Tree.label, Java.Tree.isRule, access, Receiver.name?]

/-- A type declares a field with a name itself, of a class type or of none. -/
def TypeDecl.HasField (d : TypeDecl) (name : String) (type : Option String) : Prop :=
  ∃ names, (type, names) ∈ d.fields ∧ name ∈ names

namespace TypeDecl

variable {d : TypeDecl} {name : String}

/-- The table of field types holds the fields of class types. -/
theorem mem_fieldTypes {type : String} :
    (name, type) ∈ d.fieldTypes ↔ d.HasField name (some type) := by
  simp only [fieldTypes, HasField, List.mem_flatMap, Prod.exists]
  constructor
  · intro listed
    obtain ⟨declared, names, field, inside⟩ := listed
    cases declared with
    | none => cases inside
    | some declared =>
      obtain ⟨other, among, same⟩ := List.mem_map.mp inside
      cases same
      exact ⟨names, field, among⟩
  · intro declared
    obtain ⟨names, field, among⟩ := declared
    exact ⟨some type, names, field, List.mem_map.mpr ⟨name, among, rfl⟩⟩

/-- A field type that is found is that of a field of the name. -/
theorem hasField_of_fieldType? {type : String} (found : d.fieldType? name = some type) :
    d.HasField name (some type) := by
  -- What is found is an entry of the table for that name.
  obtain ⟨entry, first, rfl⟩ := Option.map_eq_some_iff.mp found
  have named : entry.1 = name := by simpa using List.find?_some first
  have listed : entry ∈ d.fieldTypes := List.mem_reverse.mp (List.mem_of_find?_eq_some first)
  subst named
  exact mem_fieldTypes.mp listed

/-- No field type is found if no field of the name has a class type. -/
theorem fieldType?_eq_none_iff :
    d.fieldType? name = none ↔ ∀ type, ¬d.HasField name (some type) := by
  constructor
  · intro absent type declared
    have none := List.find?_eq_none.mp (Option.map_eq_none_iff.mp absent)
    exact none _ (List.mem_reverse.mpr (mem_fieldTypes.mpr declared)) (by simp)
  · intro none
    rw [Option.eq_none_iff_forall_ne_some]
    intro type found
    exact none type (hasField_of_fieldType? found)

end TypeDecl

/-- Which type, if any, a method call in a type is about, by how its receiver is written. -/
structure TypeDecl.CallsOn (d : TypeDecl) (receiver : Receiver) (target : Option String) :
    Prop where
  /-- A call on a field of a class type is about the class type of a field so named. -/
  field : ∀ name ∈ receiver.name?, ∀ type, d.HasField name (some type) →
    ∃ type, d.HasField name (some type) ∧ target = some type
  /-- A call on a field without class type, or on a field of this object that the type does not
  declare, is about no type if the name does not look like that of one. -/
  value : ∀ name ∈ receiver.name?, (∀ type, ¬d.HasField name (some type)) →
    d.HasField name none ∨ receiver = .ofThis name → looksLikeType name = false → target = none
  /-- If the name looks like that of a type, it is taken for one, though it is that of a value. -/
  mistaken : ∀ name ∈ receiver.name?, (∀ type, ¬d.HasField name (some type)) →
    d.HasField name none ∨ receiver = .ofThis name → looksLikeType name = true →
    target = some name
  /-- A plain name that is that of no field is taken for a type if it looks like one. -/
  static : ∀ name, receiver = .plain name → (∀ type, ¬d.HasField name type) →
    target = if looksLikeType name then some name else none
  /-- A call on nothing or on any other expression is about no type. -/
  other : receiver.name? = none → target = none

/-- What a method call is about follows from its receiver. -/
theorem TypeDecl.callsOn (d : TypeDecl) (receiver : Receiver) (method : String) :
    d.CallsOn receiver (Call.target? d (.invocation receiver.name? method)) := by
  -- The fields of class types are asked first, and what they do not tell is judged by the name.
  have meant (name : String) (known : receiver.name? = some name) :
      Call.target? d (.invocation receiver.name? method) =
        (d.fieldType? name <|> if looksLikeType name then some name else none) := by
    rw [known]
    rfl
  have untyped (name : String) (known : receiver.name? = some name)
      (none : ∀ type, ¬d.HasField name (some type)) :
      Call.target? d (.invocation receiver.name? method) =
        if looksLikeType name then some name else Option.none := by
    rw [meant name known, fieldType?_eq_none_iff.mpr none]
    rfl
  constructor
  · intro name known type declared
    cases found : d.fieldType? name with
    | none => exact absurd declared (fieldType?_eq_none_iff.mp found type)
    | some type' =>
      exact ⟨type', hasField_of_fieldType? found, by rw [meant name known, found]; rfl⟩
  · intro name known none _ lower
    rw [untyped name known none, lower]
    rfl
  · -- Neither the field nor `this` before it keeps the name from being judged.
    intro name known none _ upper
    rw [untyped name known none, upper]
    rfl
  · intro name plain free
    exact untyped name (by rw [plain]; rfl) fun type => free (some type)
  · intro unnamed
    rw [unnamed]
    rfl

/-- What is made of the calls in order is made of the trees that make them. -/
theorem filterMap_calls {α : Type} {f : Call → Option α} {calls : List Call} {places : List Place}
    (told : List.Forall₂ (fun call (p : Place) => p.2.call? = some call) calls places) :
    calls.filterMap f = places.filterMap fun p => p.2.call?.bind f := by
  induction told with
  | nil => rfl
  | cons here _ ih =>
    rw [List.filterMap_cons, List.filterMap_cons, here, Option.bind_some, ih]

/-- A tree that invokes a method makes a call on the name of its receiver. -/
theorem call?_of_invocation {t : Java.Tree} {call : Call} (invokes : t.isRule .methodInvocation)
    (made : t.call? = some call) : ∃ method, call = .invocation t.receiver.name? method := by
  cases t with
  | leaf => cases made
  | node field rule parts =>
    obtain rfl : rule = .methodInvocation := by
      simpa [Java.Tree.isRule, Java.Tree.label] using invokes
    obtain ⟨method, -, rfl⟩ := Option.map_eq_some_iff.mp made
    have receiver := receiver?_eq (.node field .methodInvocation parts)
    exact ⟨method, congrArg (Call.invocation · method) receiver⟩

/-- The calls made in each type of a file itself are gone through in order, each with the type that
it is about, if it is about one. For a method call this follows from the receiver. The call
dependencies of the type are those on the types that its calls are about, if calls are recorded. -/
theorem CompilationUnit.calls_by_receiver (path : String) {text : List Char} {tree : Java.Tree}
    (accepted : read text = .ok tree) :
    ∃ places : List Place,
      (∀ w t, (w, t) ∈ places ↔ ReachesType .file tree w t) ∧
      List.Forall₂ (fun v p => v.At p ∧ ∃ calls : List (Place × Option String),
        (∀ w call, (w, call) ∈ calls.map (·.1) ↔ OwnCall p.2 w call) ∧
        (calls.Pairwise fun a b => a.1.1 < b.1.1) ∧
        (∀ c ∈ calls, c.1.2.isRule .methodInvocation → v.decl.CallsOn c.1.2.receiver c.2) ∧
        ∀ (s : Settings) scope,
          (s.dependencies scope v.decl).filter (fun e => e.kind = .call) =
            if s.emits .call then (calls.filterMap (·.2)).map fun written =>
              ⟨.call, (s.targetName? scope written).getD written⟩
            else []) (ofTree path tree).visits places := by
  have sound := sound_of_read accepted
  refine ⟨reached .file tree, fun w t => mem_reached, ?_⟩
  refine (forall₂_mem_right (visits_reached path sound)).imp ?_
  intro v p here
  obtain ⟨inside, declares⟩ := here
  refine ⟨declares, ?_⟩
  have derived := sound.derived_reached (mem_reached.mp inside)
  obtain ⟨made, listed, ordered, told⟩ := makesItself_of_declared derived declares
  -- Each tree that makes a call is put beside the type that the call is about.
  refine ⟨made.map fun c => (c, c.2.call?.bind (Call.target? v.decl)), ?_, ?_, ?_, ?_⟩
  · intro w call
    rw [List.map_map, ← listed]
    simp
  · exact List.pairwise_map.mpr ordered
  · intro c member invokes
    obtain ⟨c, among, rfl⟩ := List.mem_map.mp member
    -- Every tree in the list makes one of the calls that the type holds.
    obtain ⟨call, makes⟩ : ∃ call, c.2.call? = some call := by
      obtain ⟨i, within, rfl⟩ := List.getElem_of_mem among
      obtain ⟨length, each⟩ := List.forall₂_iff_get.mp told
      exact ⟨_, each i (length ▸ within) within⟩
    obtain ⟨method, rfl⟩ := call?_of_invocation invokes makes
    simpa [makes] using v.decl.callsOn c.2.receiver method
  · intro s scope
    have types : v.decl.calledTypes =
        made.filterMap fun c => c.2.call?.bind (Call.target? v.decl) := by
      rw [← filterMap_calls told, List.filterMap_flatMap]
      rfl
    rw [s.filter_dependencies, List.filterMap_map, Settings.dependenciesOf, Settings.dependsOn,
      types]
    rfl

/-- A class with a field of a class type and one without, which calls methods on the two and on a
field of its superclass. -/
def fieldsInCapitals : List Char :=
  "class A extends B\x7bL l;int[]D;\x7bl.f();D.clone();this.E.g();\x7d\x7d".toList

set_option maxRecDepth 100000 in
/-- The sample is read, and its only class has the two fields and a dependency for each of its three
calls. -/
theorem read_fieldsInCapitals : ∃ tree, read fieldsInCapitals = .ok tree ∧
    (typesIn .file tree).map (fun p => (callsIn p.2).map (·.2.receiver)) =
      [[.plain "l", .plain "D", .ofThis "E"]] ∧
    (CompilationUnit.ofTree "A.java" tree).visits.map
        (fun v => (v.decl.fields, Settings.dependencies { edgeKinds := [.call] }
          (.ofUnit (CompilationUnit.ofTree "A.java" tree)) v.decl)) =
      [([(some "L", ["l"]), (none, ["D"])], [⟨.call, "L"⟩, ⟨.call, "D"⟩, ⟨.call, "E"⟩])] := by
  -- The text is read once, and all that is asked about it is evaluated together.
  refine exists_ok ?_
  decide +kernel

/-- Of the calls in the sample two are on fields that its class declares and one is on a field of
this object that it does not declare. -/
theorem CompilationUnit.calls_by_receiver_fieldsInCapitals :
    ∃ tree, read fieldsInCapitals = .ok tree ∧
      (typesIn .file tree).map (fun p => (callsIn p.2).map (·.2.receiver)) =
        [[.plain "l", .plain "D", .ofThis "E"]] ∧
      ∃ places : List Place,
        (∀ w t, (w, t) ∈ places ↔ ReachesType .file tree w t) ∧
        List.Forall₂ (fun v p => v.At p ∧ ∃ calls : List (Place × Option String),
          (∀ w call, (w, call) ∈ calls.map (·.1) ↔ OwnCall p.2 w call) ∧
          (calls.Pairwise fun a b => a.1.1 < b.1.1) ∧
          (∀ c ∈ calls, c.1.2.isRule .methodInvocation → v.decl.CallsOn c.1.2.receiver c.2) ∧
          ∀ (s : Settings) scope,
            (s.dependencies scope v.decl).filter (fun e => e.kind = .call) =
              if s.emits .call then (calls.filterMap (·.2)).map fun written =>
                ⟨.call, (s.targetName? scope written).getD written⟩
              else []) (ofTree "A.java" tree).visits places := by
  obtain ⟨tree, accepted, receivers, -⟩ := read_fieldsInCapitals
  exact ⟨tree, accepted, receivers, calls_by_receiver "A.java" accepted⟩

/-- The class of the sample has a field of an array type and does not declare the one of its
superclass, and calls on the two make it depend on types of their names. -/
theorem CompilationUnit.dependencies_fieldsInCapitals :
    ∃ tree, read fieldsInCapitals = .ok tree ∧
      (typesIn .file tree).map (fun p => (callsIn p.2).map (·.2.receiver)) =
        [[.plain "l", .plain "D", .ofThis "E"]] ∧
      ∃ v, (ofTree "A.java" tree).visits = [v] ∧
        v.decl.HasField "D" none ∧ (∀ type, ¬v.decl.HasField "E" type) ∧
        Settings.dependencies { edgeKinds := [.call] } (.ofUnit (ofTree "A.java" tree)) v.decl =
          [⟨.call, "L"⟩, ⟨.call, "D"⟩, ⟨.call, "E"⟩] := by
  obtain ⟨tree, accepted, receivers, made⟩ := read_fieldsInCapitals
  obtain ⟨v, visits, made⟩ := List.map_eq_singleton_iff.mp made
  obtain ⟨fields, depends⟩ := Prod.mk.inj made
  refine ⟨tree, accepted, receivers, v, visits, ?_, ?_, depends⟩
  · exact ⟨["D"], by simp [fields], by simp⟩
  · intro type declared
    obtain ⟨names, field, among⟩ := declared
    -- Neither declaration of a field has the name.
    simp only [fields, List.mem_cons, List.not_mem_nil, or_false, Prod.mk.injEq] at field
    obtain ⟨-, rfl⟩ | ⟨-, rfl⟩ := field <;> simp at among

end TypeGraph
