import Mathlib.Data.List.Induction
import TypeGraph.Proofs.Declaration.Bare
import TypeGraph.Proofs.Declaration.Visits

/-! Source files in different layouts declare the same, but for what is in their dotted names. -/

namespace TypeGraph

open Java Java.Tree

/-- Whether no dotted name of an import or package has blanks or comments in it. -/
def Java.Tree.NamesDense (t : Java.Tree) : Prop :=
  ∀ statement ∈ t.parts,
    statement.isRule .importDeclaration ∨ statement.isRule .packageDeclaration →
      ∀ name ∈ statement.parts, name.isRule .scopedIdentifier → name.bare.text = name.text

instance (t : Java.Tree) : Decidable t.NamesDense :=
  inferInstanceAs (Decidable (∀ statement ∈ t.parts, _ → ∀ name ∈ statement.parts, _ → _ = _))

/-- What an import does, apart from the name that it is about. -/
def Import.manner (i : Import) : Bool × Bool := (i.isStatic, i.isWildcard)

/-- A tree declares the same kind of type without layout. -/
theorem kind?_bare (t : Java.Tree) : t.bare.kind? = t.kind? := by cases t <;> rfl

/-! ### Names -/

/-- The name in a declaration is a dotted one, if there is one, else a plain one. -/
theorem qualifiedName?_eq (parts : List Java.Tree) : qualifiedName? parts =
    ((parts.find? fun part => part.isRule .scopedIdentifier).map (·.string) <|>
      (parts.find? fun part => part.label = .lexeme .identifier).map (·.string)) := by
  -- With a dotted name the plain ones do not matter, on either side.
  rw [qualifiedName?]
  cases parts.find? fun part => part.isRule .scopedIdentifier <;> rfl

section

variable {parts : List Java.Tree}

/-- A dotted name in a declaration is found where it is found with comments. -/
theorem find?_dotted_bareAmong :
    (bareAmong parts).find? (fun part => part.isRule .scopedIdentifier) =
      (parts.find? fun part => part.isRule .scopedIdentifier).map bare :=
  find?_label_bareAmong parts rfl

/-- Whether a name is in a declaration does not depend on layout. -/
theorem isSome_qualifiedName?_bareAmong :
    (qualifiedName? (bareAmong parts)).isSome = (qualifiedName? parts).isSome := by
  rw [qualifiedName?_eq, qualifiedName?_eq, find?_dotted_bareAmong, find?_label_bareAmong parts rfl]
  simp

/-- A name without blanks and comments is the same in any layout. -/
theorem qualifiedName?_bareAmong
    (dense : ∀ name ∈ parts, name.isRule .scopedIdentifier → name.bare.text = name.text) :
    qualifiedName? (bareAmong parts) = qualifiedName? parts := by
  have dotted : ((bareAmong parts).find? fun part => part.isRule .scopedIdentifier).map
      Java.Tree.string =
        (parts.find? fun part => part.isRule .scopedIdentifier).map Java.Tree.string :=
    map_find?_bareAmong find?_dotted_bareAmong fun name member here =>
      congrArg String.ofList (dense name member here)
  -- A name without dots is a lexeme, which holds neither blanks nor comments.
  have plain : ((bareAmong parts).find? fun part => part.label = .lexeme .identifier).map
      Java.Tree.string =
        (parts.find? fun part => part.label = .lexeme .identifier).map Java.Tree.string := by
    refine map_find?_bareAmong (find?_label_bareAmong parts rfl) fun name _ here => ?_
    have known : name.label = .lexeme .identifier := by simpa using here
    cases name with
    | leaf => exact string_bare_of_isLeaf rfl
    | node => cases known
  rw [qualifiedName?_eq, qualifiedName?_eq, dotted, plain]

end

/-! ### Imports and the package -/

/-- An import is found in any layout, with the name that it has there. -/
theorem import?_bare (t : Java.Tree) : import? t.bare =
    if t.isRule .importDeclaration then
      (qualifiedName? (bareAmong t.parts)).map fun path =>
        ⟨path, t.parts.any fun part => part.label = .lexeme .staticWord,
          t.parts.any fun part => part.isRule .asterisk⟩
    else none := by
  -- The words of an import are no comments, so they are there in any layout.
  have wildcard : ((bareAmong t.parts).any fun part => part.isRule .asterisk) =
      t.parts.any fun part => part.isRule .asterisk := any_label_bareAmong t.parts rfl
  rw [import?, isRule_bare, parts_bare, wildcard, any_label_bareAmong t.parts rfl]

/-- A comment is no import. -/
theorem import?_of_isComment {t : Java.Tree} (comment : t.isComment) : import? t = none := by
  simp [import?, isRule_of_isComment comment]

/-- What an import does is the same in any layout. -/
theorem manner_import?_bare (t : Java.Tree) :
    (import? t.bare).map Import.manner = (import? t).map Import.manner := by
  have named : (qualifiedName? (bareAmong t.parts)).isSome = (qualifiedName? t.parts).isSome :=
    isSome_qualifiedName?_bareAmong
  -- A name is there in both layouts or in neither, and no more than that matters.
  rw [import?_bare, import?]
  split
  · cases bareName : qualifiedName? (bareAmong t.parts) <;>
      cases name : qualifiedName? t.parts <;> simp_all [Import.manner]
  · rfl

/-- The package is what the last package declaration names. -/
theorem packageOf_eq (statements : List Java.Tree) : packageOf statements =
    (statements.reverse.find? fun t => t.isRule .packageDeclaration).bind
      fun t => qualifiedName? t.parts := by
  -- The induction is from the end, as a later declaration replaces the package so far.
  induction statements using List.reverseRecOn with
  | nil => rfl
  | append_singleton front t ih =>
    unfold packageOf at ih ⊢
    rw [List.foldl_append, List.reverse_concat, List.find?_cons]
    cases package : t.isRule .packageDeclaration <;> simp [package, ih]

/-- The package is named by the same declaration in any layout. -/
theorem packageOf_bareAmong (statements : List Java.Tree) : packageOf (bareAmong statements) =
    (statements.reverse.find? fun t => t.isRule .packageDeclaration).bind
      fun t => qualifiedName? (bareAmong t.parts) := by
  -- A comment is no package declaration, so the last one is the same.
  have last : (bareAmong statements.reverse).find? (fun t => t.isRule .packageDeclaration) =
      (statements.reverse.find? fun t => t.isRule .packageDeclaration).map bare :=
    find?_label_bareAmong _ rfl
  rw [packageOf_eq, ← bareAmong_reverse, last, Option.bind_map]
  simp only [Function.comp_def, parts_bare]

namespace CompilationUnit

variable {t : Java.Tree} (path : String)

/-- What the imports of a file do is the same without layout. -/
theorem manner_imports_bare : (ofTree path t.bare).imports.map Import.manner =
    (ofTree path t).imports.map Import.manner := by
  -- The imports are taken one by one, and comments are none.
  simp only [ofTree, List.map_filterMap, parts_bare]
  refine filterMap_bareAmong (fun statement _ => manner_import?_bare statement) ?_
  rintro statement - comment
  rw [import?_of_isComment comment]
  rfl

/-- Whether a file is in a package does not depend on layout. -/
theorem isSome_package_bare :
    (ofTree path t.bare).package.isSome = (ofTree path t).package.isSome := by
  -- The same declaration names the package, with or without layout in the name.
  change (packageOf t.bare.parts).isSome = (packageOf t.parts).isSome
  rw [parts_bare, packageOf_bareAmong, packageOf_eq]
  cases t.parts.reverse.find? fun t => t.isRule .packageDeclaration with
  | none => rfl
  | some => exact isSome_qualifiedName?_bareAmong

/-- With dense names, the imports of a file are the same without layout. -/
theorem imports_bare (dense : t.NamesDense) :
    (ofTree path t.bare).imports = (ofTree path t).imports := by
  -- The imports are taken one by one, each with a dense name.
  simp only [ofTree, parts_bare]
  refine filterMap_bareAmong (fun statement member => ?_) fun _ _ => import?_of_isComment
  rw [import?_bare, import?]
  split
  · rename_i found
    rw [qualifiedName?_bareAmong (dense statement member (.inl found))]
  · rfl

/-- With a dense name, the package of a file is the same without layout. -/
theorem package_bare (dense : t.NamesDense) :
    (ofTree path t.bare).package = (ofTree path t).package := by
  -- The same declaration names the package, and its name is dense.
  change packageOf t.bare.parts = packageOf t.parts
  rw [parts_bare, packageOf_bareAmong, packageOf_eq]
  cases found : t.parts.reverse.find? fun t => t.isRule .packageDeclaration with
  | none => rfl
  | some statement =>
    have member := List.mem_reverse.mp (List.mem_of_find?_eq_some found)
    have known : statement.isRule .packageDeclaration := by simpa using List.find?_some found
    exact qualifiedName?_bareAmong (dense statement member (.inr known))

section

variable (sound : t.Sound) (neat : t.Neat)
include sound neat

/-- The types of a file are the same without layout, but for the lines told. -/
theorem types_bare : (ofTree path t.bare).types.map TypeDecl.unplaced =
    (ofTree path t).types.map TypeDecl.unplaced := by
  simp only [ofTree, List.map_filterMap, parts_bare]
  refine filterMap_bareAmong (fun part member => ?_) fun part _ comment => ?_
  · -- Below the root, what declares a type is derived.
    by_cases declares : part.kind?.isSome
    · exact (anyLayout (sound.derived_part member declares) (neat.parts part member)).declared
    · have other : part.kind? = none := by simpa using declares
      rw [declared?_eq_none other, declared?_eq_none ((kind?_bare part).trans other)]
  · -- A comment declares nothing.
    obtain ⟨field, u, x, rfl, -⟩ := exists_of_isComment comment
    rfl

/-- With dense names, a file is the same without layout, but for the lines told. -/
theorem unplaced_bare (dense : t.NamesDense) :
    (ofTree path t.bare).unplaced = (ofTree path t).unplaced := by
  have types := types_bare path sound neat
  simp only [unplaced, TypeDecl.unplacedAll_eq_map, imports_bare path dense,
    package_bare path dense, types]
  rfl

end

/-- Two texts that are read into the same tree, but for comments and the blanks between lexemes,
declare the same types, and have a package and do imports in the same ways. If the dotted names of
imports and packages are dense in both, then the files, what their simple names stand for and the
records made of them are the same, but for lines and lengths in lines. -/
theorem ofTree_layout {text text' : List Char} {tree tree' : Java.Tree}
    (first : read text = .ok tree) (second : read text' = .ok tree')
    (same : tree.bare = tree'.bare) :
    let u := ofTree path tree
    let u' := ofTree path tree'
    u.types.map TypeDecl.unplaced = u'.types.map TypeDecl.unplaced ∧
    u.package.isSome = u'.package.isSome ∧
    u.imports.map Import.manner = u'.imports.map Import.manner ∧
    (tree.NamesDense → tree'.NamesDense →
      u.unplaced = u'.unplaced ∧
      Scope.ofUnit u = Scope.ofUnit u' ∧
      ∀ s, (u.records s).map TypeRecord.unmeasured = (u'.records s).map TypeRecord.unmeasured) := by
  intro u u'
  have sound := sound_of_read first
  have sound' := sound_of_read second
  have neat := neat_of_read first
  have neat' := neat_of_read second
  -- Either file is compared with the one that their common tree without layout gives.
  refine ⟨?_, ?_, ?_, fun dense dense' => ?_⟩
  · rw [← types_bare path sound neat, same, types_bare path sound' neat']
  · rw [← isSome_package_bare path, same, isSome_package_bare path]
  · rw [← manner_imports_bare path, same, manner_imports_bare path]
  · have units : u.unplaced = u'.unplaced := by
      rw [← unplaced_bare path sound neat dense, same, unplaced_bare path sound' neat' dense']
    refine ⟨units, ?_, fun s => ?_⟩
    · rw [← scope_unplaced, units, scope_unplaced]
    · rw [← records_unplaced, units, records_unplaced]

/-- An imported class is extended, with no blanks but those that are needed. -/
def denseImport : List Char := "import p.q.R;class A extends R\x7b\x7d".toList

/-- The same with a line and a comment between lexemes, but not in the dotted name. -/
def airyImport : List Char := "import p.q.R ;\nclass A extends R /* r */ \x7b\x7d".toList

/-- The same with blanks in the dotted name. -/
def spreadImport : List Char := "import p . q . R;class A extends R\x7b\x7d".toList

/-- Two results of which something is known together are there. -/
theorem exists_ok_pair {ε α : Type} {result result' : Except ε α} {P : α → α → Prop}
    [∀ a b, Decidable (P a b)]
    (known : result.toOption.any fun a => result'.toOption.any fun b => P a b) :
    ∃ a b, result = .ok a ∧ result' = .ok b ∧ P a b := by
  -- A fault in the first place would have left nothing to know.
  cases result with
  | error => cases known
  | ok a =>
    obtain ⟨b, second, known⟩ := exists_ok known
    exact ⟨a, b, rfl, second, known⟩

set_option maxRecDepth 100000 in
/-- The lookups and records of two layouts agree, as the dotted name is dense in both. -/
theorem ofTree_layout_airyImport : ∃ tree tree', read denseImport = .ok tree ∧
    read airyImport = .ok tree' ∧ tree.NamesDense ∧ tree'.NamesDense ∧
    Scope.ofUnit (ofTree "A.java" tree) = Scope.ofUnit (ofTree "A.java" tree') ∧
    ∀ s, ((ofTree "A.java" tree).records s).map TypeRecord.unmeasured =
      ((ofTree "A.java" tree').records s).map TypeRecord.unmeasured := by
  have known : (read denseImport).toOption.any fun tree =>
      (read airyImport).toOption.any fun tree' =>
        tree.bare = tree'.bare ∧ tree.NamesDense ∧ tree'.NamesDense := by
    decide +kernel
  obtain ⟨tree, tree', first, second, same, dense, dense'⟩ := exists_ok_pair known
  have layout := ofTree_layout "A.java" first second same
  exact ⟨tree, tree', first, second, dense, dense', (layout.2.2.2 dense dense').2⟩

set_option maxRecDepth 100000 in
/-- With blanks in its dotted name, an import no longer tells what its simple name stands for. -/
theorem lookup_spreadImport : ∃ tree tree', read denseImport = .ok tree ∧
    read spreadImport = .ok tree' ∧ tree.bare = tree'.bare ∧
    (Scope.ofUnit (ofTree "A.java" tree)).lookup "R" = some "p.q.R" ∧
    (Scope.ofUnit (ofTree "A.java" tree')).lookup "R" = none := by
  refine exists_ok_pair ?_
  decide +kernel

end CompilationUnit

end TypeGraph
