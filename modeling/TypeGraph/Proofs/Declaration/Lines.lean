import Mathlib.Algebra.Order.Ring.Nat
import TypeGraph.Proofs.Declaration.Written
import TypeGraph.Proofs.Java.Tiling

/-! The lines of a method are the line feeds within its declaration, so all methods of a type have
no more lines than the file has line feeds. -/

namespace TypeGraph

open Java

/-- The name and the span of the method that a member declares. -/
def Member.method? : Member → Option (String × Span)
  | .method name span _ => some (name, span)
  | _ => none

/-- The methods of a type are those of its members. -/
theorem TypeDecl.methods_eq (d : TypeDecl) : d.methods = d.members.filterMap Member.method? := by
  unfold methods
  congr 1

/-- Methods, with the names and the ends of their declarations. -/
def MemberKind.method : MemberKind (String × Span) where
  of? := Member.method?
  declares s _ := s = .method
  tells m t := textOf? t.parts .name = some m.1 ∧ m.2 = spanOf t
  outside s _ other := by rcases other with rfl | rfl <;> rfl

/-- Standings below which no method of the same type is. -/
def Standing.isInner (s : Standing) : Bool := s = .code || s = .content || s = .type

/-- A member that is no method and holds no members is executable or another type. -/
theorem Java.Rule.isInner_memberStanding? {r : Rule} {s : Standing}
    (standing : r.memberStanding? = some s) (single : r ≠ .enumBodyDeclarations)
    (other : r ≠ .methodDeclaration) : s.isInner := by
  -- Rule by rule: the other kinds of members are executable, and all else that stands is a type.
  unfold memberStanding? at standing
  split at standing
  case h_1 => exact absurd rfl single
  case h_2 => exact absurd rfl other
  case h_10 =>
    split at standing
    · obtain rfl := Option.some.inj standing
      rfl
    · cases standing
  all_goals
    obtain rfl := Option.some.inj standing
    rfl

/-- Nothing executable and no other type holds a method of the type. -/
theorem Stands.ne_method {s last : Standing} {t far : Java.Tree} {w : Way}
    (stands : Stands s t w last far) (inside : s.isInner) : last ≠ .method := by
  induction stands with
  | here =>
    rintro rfl
    cases inside
  | @part s s' last t part far i w found entered _ ih =>
    refine ih ?_
    cases s with
    | code | content =>
      obtain rfl := Option.some.inj entered
      unfold Java.Tree.contentStanding
      split <;> rfl
    | type => cases entered
    | file | declaration | members | method => cases inside

/-- A method holds no other methods of the type. -/
theorem filter_spots_method (t : Java.Tree) :
    (spots .method t).filter (fun x => x.standing = .method) = [⟨[], .method, t⟩] := by
  cases t with
  | leaf => rfl
  | node field rule parts =>
    have inside : (spotsAmong (Standing.method.enter parts) 0 parts).filter
        (fun x => x.standing = .method) = [] := by
      refine List.filter_eq_nil_iff.mpr fun x member => ?_
      obtain ⟨j, part, s, w, -, entered, -, stands⟩ := mem_spotsAmong.mp member
      -- Only the body of the method is entered, which is executable.
      have code : s.isInner := by
        simp only [Standing.enter] at entered
        split at entered
        · obtain rfl := Option.some.inj entered
          rfl
        · cases entered
      simpa using stands.ne_method code
    rw [spots, List.filter_cons, inside]
    rfl

/-- The method that a member declares stands where the member does. -/
theorem methodsAt_member {part : Java.Tree} (derived : Derived part)
    (other : part.isRule .enumBodyDeclarations = false) :
    MemberKind.method.At (member? part).toList
      ((part.memberStanding?.map fun s => spots s part).getD []) := by
  cases part with
  | leaf => exact .nil
  | node field rule parts =>
    by_cases declares : rule = .methodDeclaration
    · subst declares
      obtain ⟨name, text⟩ := Option.isSome_iff_exists.mp (isSome_methodName derived)
      have made : member? (.node field .methodDeclaration parts) =
          some (.method name (spanOf (.node field .methodDeclaration parts))
            (contentOfBody parts)) := by
        rw [member?, text, Option.map_some]
      rw [made]
      change List.Forall₂ _ [(name, _)] ((spots .method _).filter fun x => x.standing = .method)
      rw [filter_spots_method]
      exact .cons ⟨text, rfl⟩ .nil
    · refine .of_none (fun m member => ?_) (fun x member => ?_)
      · -- By any other rule the part is a member of another kind, or none.
        unfold member? at member
        split at member
        case h_1 => exact absurd rfl declares
        case h_9 =>
          split at member
          · obtain ⟨d, -, rfl⟩ := Option.map_eq_some_iff.mp (Option.mem_toList.mp member)
            rfl
          · cases member
        all_goals
          obtain rfl := List.mem_singleton.mp member
          rfl
      · cases standing : (Java.Tree.node field rule parts).memberStanding? with
        | none => simp [standing] at member
        | some s =>
          rw [standing, Option.map_some, Option.getD_some] at member
          have inside := Java.Rule.isInner_memberStanding? standing 
            (by simpa [Java.Tree.isRule, Java.Tree.label] using other) declares
          simpa [MemberKind.isAt, MemberKind.method] using (mem_spots.mp member).ne_method inside

/-- The methods of a declared type are those that stand in its declaration. -/
theorem methodsAt_declaration {t : Java.Tree} {d : TypeDecl} (derived : Derived t) (neat : t.Neat)
    (declared : declared? t = some d) : MemberKind.method.At d.members (spots .declaration t) :=
  MemberKind.at_declaration (fun _ derived _ => methodsAt_member derived) derived neat declared

/-- What stands in a tree has lexemes of the tree, one behind the other. -/
theorem Stands.lexemes_within {s last : Standing} {t far : Java.Tree} {w : Way}
    (stands : Stands s t w last far) : far.lexemes <:+: t.lexemes := by
  -- Every step goes on to a part, whose lexemes lie between those of the parts around it.
  induction stands with
  | here => exact List.infix_rfl
  | @part s s' last t part far i w found _ _ ih =>
    refine ih.trans ?_
    cases t with
    | leaf => simp [Java.Tree.parts] at found
    | node field rule parts =>
      obtain ⟨before, after, rfl⟩ := List.append_of_mem (List.mem_of_getElem? found)
      refine ⟨Java.Tree.lexemesAll before, Java.Tree.lexemesAll after, ?_⟩
      simp [Java.Tree.lexemes, Java.Tree.lexemesAll_append, Java.Tree.lexemesAll]

/-- What is reached from a tree has lexemes of the tree, one behind the other. -/
theorem ReachesType.lexemes_within {s : Standing} {t far : Java.Tree} {w : Way}
    (reaches : ReachesType s t w far) : far.lexemes <:+: t.lexemes := by
  induction reaches with
  | here stands => exact stands.lexemes_within
  | inside stands _ ih => exact ih.trans stands.lexemes_within

/-- A phrase that covers a stretch of a text has as many lines as the stretch has line feeds. -/
theorem Java.Tree.Covers.lines {t : Java.Tree} {text stretch : List Char}
    (covers : t.Covers text stretch) : (spanOf t).lines = stretch.count '\n' := by
  -- Both rows count the line feeds before the phrase, and only the later one those in it.
  obtain ⟨before, after, first, last, -, starts, start, ends, stop⟩ := covers
  simp only [Span.lines, spanOf, Java.Tree.startRow, Java.Tree.stopRow, starts, ends, start, stop,
    Option.map_some, Option.getD_some, Text.Position.row_advance, List.count_append]
  omega

/-- Whether a record is that of a method in a text: it has its name, and as many lines as there are
line feeds in the stretch of the text from the first character of the method to its last one. -/
def MethodRecord.Measures (r : MethodRecord) (text : List Char) (t : Java.Tree) : Prop :=
  textOf? t.parts .name = some r.name ∧
    ∃ stretch, t.Covers text stretch ∧ r.lines = stretch.count '\n'

section

variable {text : List Char} {tree t : Java.Tree} {w : Way} {d : TypeDecl}
  (accepted : read text = .ok tree) (reaches : ReachesType .file tree w t)
  (declared : declared? t = some d)
include accepted reaches declared

/-- The records of methods are those of the methods that stand in a declaration. -/
theorem methodRecords_declared :
    List.Forall₂ (fun (r : MethodRecord) (p : Place) => textOf? p.2.parts .name = some r.name ∧
      p.2.Covers text p.2.text ∧ r.lines = p.2.text.count '\n')
    d.methodRecords (placesIn .method (fun _ => true) t) := by
  have derived := (sound_of_read accepted).derived_reached reaches
  have methods := methodsAt_declaration derived (reaches.neat (neat_of_read accepted)) declared
  have spotted : (spots .declaration t).filter MemberKind.method.isAt =
      (spots .declaration t).filter fun x => x.standing = .method && true :=
    List.filter_congr fun x _ => (Bool.and_true _).symm
  rw [MemberKind.At, spotted] at methods
  rw [TypeDecl.methodRecords, d.methods_eq, List.forall₂_map_left_iff, placesIn,
    List.forall₂_map_right_iff]
  refine (forall₂_mem_right methods).imp ?_
  rintro ⟨name, span⟩ x ⟨member, named, rfl⟩
  have stands := mem_spots.mp (List.mem_filter.mp member).1
  have covers := covers_of_read accepted (stands.lexemes_within.trans reaches.lexemes_within)
    (stands.derived derived).lexemes_ne_nil
  exact ⟨named, covers, covers.lines⟩

/-- All methods of a type together have no more lines than the text has line feeds, since they lie
one behind the other. -/
theorem sum_lines_le : (d.methodRecords.map (·.lines)).sum ≤ text.count '\n' := by
  have methods := methodRecords_declared accepted reaches declared
  -- The sum of the lines is the number of line feeds in all methods together.
  have lines : d.methodRecords.map (·.lines) =
      (placesIn .method (fun _ => true) t).map fun p => p.2.text.count '\n' := by
    rw [← List.forall₂_eq_eq_eq, List.forall₂_map_left_iff, List.forall₂_map_right_iff]
    exact methods.imp fun r p here => here.2.2
  -- The declarations of the methods have lexemes of the text, one method after the other.
  have behind : (((placesIn .method (fun _ => true) t).map (·.2)).flatMap
      Java.Tree.lexemes).Sublist tree.lexemes := by
    have inside : (((spots .declaration t).filter fun x => x.standing = .method).flatMap
        fun x => x.tree.lexemes).Sublist t.lexemes :=
      sublist_spots filter_spots_method fun x _ _ => List.Sublist.refl _
    simp only [placesIn, Bool.and_true, List.map_map, List.flatMap_map]
    exact inside.trans reaches.lexemes_within.sublist
  obtain ⟨mark, rest, cut, -⟩ := tiled_of_read accepted
  calc (d.methodRecords.map (·.lines)).sum
      = (((placesIn .method (fun _ => true) t).map (·.2)).flatMap Java.Tree.text).count '\n' := by
        rw [lines, List.count_flatMap, List.map_map]
        rfl
    _ ≤ (tree.lexemes.flatMap Lexeme.whole).count '\n' :=
        (flatMap_text_sublist behind).count_le '\n'
    _ ≤ text.count '\n' := by
        rw [cut, List.count_append, List.count_append]
        omega

end

/-- A record has the methods of the type for which it is made. -/
theorem Visit.methods_of_record {s : Settings} {scope : Scope} {v : Visit} {r : TypeRecord}
    (made : v.record? s scope = some r) : r.methods = v.decl.methodRecords := by
  unfold record? at made
  split at made <;> cases made <;> rfl

/-- The lines of a recorded method are the line feeds within its declaration, from the first
character, be it of a modifier or an annotation, to the last one. All methods that are recorded of
one type together have no more lines than the file has line feeds. -/
theorem CompilationUnit.method_lines (path : String) (s : Settings) {text : List Char}
    {tree : Java.Tree} (accepted : read text = .ok tree) :
    let u := ofTree path tree
    ∃ places : List Place,
      (∀ w t, (w, t) ∈ places ↔ ReachesType .file tree w t ∧ t.isRecorded) ∧
      List.Forall₂ (fun r p => (∃ v : Visit, v.At p ∧ v.record? s (.ofUnit u) = some r) ∧
        (∃ methods : List Place,
          (∀ w m, (w, m) ∈ methods ↔ Stands .declaration p.2 w .method m) ∧
          (methods.Pairwise fun q q' => q.1 < q'.1) ∧
          List.Forall₂ (fun m (q : Place) => m.Measures text q.2) r.methods methods) ∧
        (r.methods.map (·.lines)).sum ≤ text.count '\n') (u.records s) places := by
  -- Records are made of the visits, and these are to the declarations that are reached.
  intro u
  have visits : List.Forall₂ Visit.At u.visits (reached .file tree) :=
    visits_reached path (sound_of_read accepted)
  have records := forall₂_filterMap (forall₂_mem_right visits)
    fun v p here => here.2.isSome_record? s (.ofUnit u)
  refine ⟨(reached .file tree).filter fun p => p.2.isRecorded, fun w t => ?_, records.imp ?_⟩
  · rw [List.mem_filter, mem_reached]
  · rintro r p ⟨v, ⟨member, here⟩, made⟩
    have reaches := mem_reached.mp member
    rw [Visit.methods_of_record made]
    refine ⟨⟨v, here, made⟩, ⟨placesIn .method (fun _ => true) p.2, fun w m => ?_,
      pairwise_placesIn _ _ _, ?_⟩, sum_lines_le accepted reaches here⟩
    · rw [mem_placesIn]
      exact and_iff_left rfl
    · exact (methodRecords_declared accepted reaches here).imp
        fun m q ⟨named, covers, lines⟩ => ⟨named, q.2.text, covers, lines⟩

/-- A class with line feeds before, after and between its methods, two of which share a line, and
with a carriage return before some of the line feeds and one by itself. -/
def sharedLines : List Char :=
  "class A\x7b\r\n@B\r\nvoid f()\x7b\r\n\x7dint g()\x7b\x7d\nint h(\n)\x7b\r\x7d\x7d\n".toList

set_option maxRecDepth 100000 in
/-- The sample is read, and of its six line feeds two are counted for the first method, none for the
second and one for the third. -/
theorem read_sharedLines : ∃ tree, read sharedLines = .ok tree ∧
    ((CompilationUnit.ofTree "A.java" tree).records {}).map
        (fun r => r.methods.map fun m => (m.name, m.lines)) =
      [[("f", 2), ("g", 0), ("h", 1)]] ∧ sharedLines.count '\n' = 6 := by
  -- The text is read once, and all that is asked about it is evaluated together.
  refine exists_ok ?_
  decide +kernel

/-- The annotation of the first method of the sample counts, and line feeds outside of the methods
do not. -/
theorem CompilationUnit.method_lines_sharedLines :
    ∃ tree, read sharedLines = .ok tree ∧
      ((ofTree "A.java" tree).records {}).map
          (fun r => r.methods.map fun m => (m.name, m.lines)) =
        [[("f", 2), ("g", 0), ("h", 1)]] ∧ sharedLines.count '\n' = 6 ∧
      ∃ places : List Place,
        (∀ w t, (w, t) ∈ places ↔ ReachesType .file tree w t ∧ t.isRecorded) ∧
        List.Forall₂ (fun r p =>
            (∃ v : Visit, v.At p ∧ v.record? {} (.ofUnit (ofTree "A.java" tree)) = some r) ∧
            (∃ methods : List Place,
              (∀ w m, (w, m) ∈ methods ↔ Stands .declaration p.2 w .method m) ∧
              (methods.Pairwise fun q q' => q.1 < q'.1) ∧
              List.Forall₂ (fun m (q : Place) => m.Measures sharedLines q.2) r.methods methods) ∧
            (r.methods.map (·.lines)).sum ≤ sharedLines.count '\n')
          ((ofTree "A.java" tree).records {}) places := by
  obtain ⟨tree, accepted, methods, feeds⟩ := read_sharedLines
  exact ⟨tree, accepted, methods, feeds, method_lines "A.java" {} accepted⟩

end TypeGraph
