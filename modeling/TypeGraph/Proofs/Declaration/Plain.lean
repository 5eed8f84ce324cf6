import TypeGraph.Failure
import TypeGraph.Proofs.Declaration.Visits
import TypeGraph.Proofs.Java.Spelling

/-! The types that a source text declares have names without dots. -/

namespace TypeGraph

open Java

/-- Whether the names of all types in a source file are without dots. -/
def CompilationUnit.Plain (u : CompilationUnit) : Prop := ∀ v ∈ u.visits, '.' ∉ v.decl.name.toList

instance (u : CompilationUnit) : Decidable u.Plain :=
  inferInstanceAs (Decidable (∀ v ∈ u.visits, '.' ∉ v.decl.name.toList))

/-- What stands in a tree is spelled as the tree is. -/
theorem Stands.spelled {s last : Standing} {t far : Java.Tree} {w : Way}
    (stands : Stands s t w last far) (spelled : t.Spelled) : far.Spelled := by
  -- Each step leads to a part of the tree before it.
  induction stands with
  | here => exact spelled
  | part found _ _ ih =>
    cases spelled with
    | leaf => simp [Java.Tree.parts] at found
    | node parts => exact ih (parts _ (List.mem_of_getElem? found))

/-- What is reached in a tree is spelled as the tree is. -/
theorem ReachesType.spelled {s : Standing} {t far : Java.Tree} {w : Way}
    (reaches : ReachesType s t w far) (spelled : t.Spelled) : far.Spelled := by
  -- The induction is along the types on the way.
  induction reaches with
  | here stands => exact stands.spelled spelled
  | inside stands _ ih => exact ih (stands.spelled spelled)

/-- Every rule that declares a type shows the name as an identifier. -/
theorem TypeKind.ofRule?_identifier {r : Rule} (declares : (ofRule? r).isSome) :
    ∀ r' ∈ [r], ∀ p ∈ r'.productions, ∀ slot ∈ p.body,
      slot.keeps (fun mark => mark.1 ≠ some .name || mark.2 = .lexeme .identifier) [] := by
  -- There are five rules to look at, one for each kind of type.
  unfold ofRule? at declares
  split at declares
  · decide +kernel
  · decide +kernel
  · decide +kernel
  · decide +kernel
  · decide +kernel
  · cases declares

/-- The name of a declared type is spelled like a name. -/
theorem isName_of_declared {t : Java.Tree} {d : TypeDecl} (derived : Derived t)
    (spelled : t.Spelled) (declared : declared? t = some d) : Text.IsName d.name.toList := by
  have declares := declares_of_declared declared
  cases t with
  | leaf => cases declares
  | node field rule parts =>
    -- In a derived declaration, the part that is known as the name is an identifier.
    have good := derived.forall_good _ [] (fun t _ => by simp)
      (TypeKind.ofRule?_identifier declares)
    simp only [declared?] at declared
    split at declared
    · -- The name is the text of a part that is shown as an identifier.
      obtain ⟨name, text, rfl⟩ := Option.map_eq_some_iff.mp declared
      obtain ⟨part, found, rfl⟩ := Option.map_eq_some_iff.mp text
      have inside := List.mem_of_find?_eq_some found
      have known : part.field = some .name := by simpa using List.find?_some found
      have label : part.label = .lexeme .identifier := by simpa [known] using good part inside
      cases spelled with
      | node all =>
        cases all part inside with
        | node => cases label
        | leaf spelling =>
          have shown := spelling (congrArg Label.isName label)
          simpa [TypeDecl.name, Java.Tree.string, Java.Tree.text, Java.Tree.lexemes] using shown
    · cases declared

/-- The declarations of a source text are those of the tree that it is read into. -/
theorem CompilationUnit.ofText_eq_ok {path : String} {text : List Char} {u : CompilationUnit}
    (made : ofText path text = .ok u) : ∃ tree, read text = .ok tree ∧ u = ofTree path tree := by
  -- The definition is opened apart from the text, which would be read in place otherwise.
  generalize same : ofText = f at made
  delta ofText at same
  subst same
  beta_reduce at made
  -- Only the outcome of the reading matters, not how it comes about.
  generalize read text = outcome at made
  cases outcome with
  | ok tree => exact ⟨tree, rfl, (Except.ok.inj made).symm⟩
  | error => cases made

/-- All types that a source text declares have names without dots. -/
theorem CompilationUnit.plain_of_ofText {path : String} {text : List Char} {u : CompilationUnit}
    (made : ofText path text = .ok u) : u.Plain := by
  obtain ⟨tree, accepted, rfl⟩ := ofText_eq_ok made
  have sound := sound_of_read accepted
  -- Every type that is visited is declared by a tree that is reached from the file.
  intro v visited
  obtain ⟨i, within, rfl⟩ := List.getElem_of_mem visited
  obtain ⟨length, declares⟩ := List.forall₂_iff_get.mp (visits_reached path sound)
  have bound : i < (reached .file tree).length := length ▸ within
  have reaches := mem_reached.mp (List.getElem_mem bound)
  have name := isName_of_declared (sound.derived_reached reaches)
    (reaches.spelled (spelled_of_read accepted)) (declares i within bound)
  exact name.plain

end TypeGraph
