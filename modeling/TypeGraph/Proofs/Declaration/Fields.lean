import TypeGraph.Proofs.Declaration.Members

/-! The fields of a type are those of the field declarations that stand in its body. -/

namespace TypeGraph

open Java

/-- The type and the names of the fields that a member declares. -/
def Member.field? : Member → Option (Option String × List String)
  | .field declared names _ => some (declared, names)
  | _ => none

/-- The fields of a type are those of its members. -/
theorem TypeDecl.fields_eq (d : TypeDecl) : d.fields = d.members.filterMap Member.field? := by
  unfold fields
  congr 1

/-- Whether a phrase declares fields, of a class or of an interface. -/
def Java.Tree.isField (t : Java.Tree) : Bool :=
  t.isRule .fieldDeclaration || t.isRule .constantDeclaration

/-- Fields, with the types that their declarations name. -/
def MemberKind.field : MemberKind (Option String × List String) where
  of? := Member.field?
  declares s t := s = .code && t.isField
  tells f t := f.1 = (t.part? .type).bind typeName?
  outside s t other := by rcases other with rfl | rfl <;> rfl

/-- Whether fields are declared at a spot. -/
def Spot.isField (x : Spot) : Bool := x.standing = .code && x.tree.isField

/-- Nothing in executable content or in another type stands as a member. -/
theorem Stands.ne_code {s last : Standing} {t far : Java.Tree} {w : Way}
    (stands : Stands s t w last far) (inside : s = .content ∨ s = .type) : last ≠ .code := by
  induction stands with
  | here => rcases inside with rfl | rfl <;> simp
  | part _ entered _ ih =>
    refine ih ?_
    rcases inside with rfl | rfl
    · obtain rfl := Option.some.inj entered
      unfold Java.Tree.contentStanding
      split <;> simp
    · cases entered

/-- Of the spots of an executable member only the member itself may declare fields. -/
theorem isField_spots_code {t : Java.Tree} :
    (spots .code t).filter Spot.isField = if t.isField then [⟨[], .code, t⟩] else [] := by
  have here : (⟨[], .code, t⟩ : Spot).isField = t.isField := by simp [Spot.isField]
  cases t with
  | leaf => rw [spots, List.filter_cons, here, List.filter_nil]
  | node field r parts =>
    have inside : (spotsAmong (Standing.code.enter parts) 0 parts).filter Spot.isField = [] := by
      refine List.filter_eq_nil_iff.mpr fun x member => ?_
      obtain ⟨j, part, s, w, -, entered, -, stands⟩ := mem_spotsAmong.mp member
      have standing : s = .content ∨ s = .type := by
        obtain rfl := Option.some.inj entered
        unfold Java.Tree.contentStanding
        split <;> simp
      simp [Spot.isField, stands.ne_code standing]
    rw [spots, List.filter_cons, inside, here]

/-- The body of a derived method declares no fields. -/
theorem isField_methodBody {field : Option Field} {parts : List Java.Tree}
    (derived : Derived (.node field .methodDeclaration parts)) (neat : ∀ part ∈ parts, part.Neat) :
    ∀ part ∈ parts, part.field = some .body → part.isField = false := by
  -- No other part of a method, nor of the hidden rules in it, is known as its body.
  have good := derived.uncommented_good neat
    (fun (field, label) => field ≠ some .body || label = .rule .block)
    [(none, .methodHeader), (some .type, .unannotatedType), (none, .methodDeclarator),
      (some .name, .reservedIdentifier), (none, .annotationUses), (none, .annotationUse)]
    (by decide +kernel)
  intro part among body
  have block : part.label = .rule .block := by
    simpa [body] using good part among ((neat part among).isComment_of_field body)
  simp [Java.Tree.isField, Java.Tree.isRule, block]

/-- A method has no spots where fields are declared. -/
theorem isField_spots_method {field : Option Field} {parts : List Java.Tree}
    (derived : Derived (.node field .methodDeclaration parts)) (neat : ∀ part ∈ parts, part.Neat) :
    ∀ x ∈ spots .method (.node field .methodDeclaration parts), x.isField = false := by
  obtain ⟨j, spotted⟩ := spotsAmong_enter .method parts fun _ _ => rfl
  rw [spots, spotted]
  refine List.forall_mem_cons.mpr ⟨rfl, ?_⟩
  cases found : parts.find? fun part => part.field = some .body with
  | none => simp
  | some part =>
    have body : part.isField = false := isField_methodBody derived neat part
      (List.mem_of_find?_eq_some found) (by simpa using List.find?_some found)
    have none := isField_spots_code (t := part)
    rw [body, if_neg (by simp), List.filter_eq_nil_iff] at none
    simpa [Spot.under, Spot.isField] using none

/-- The field that a member declares stands where the member does. -/
theorem fieldsAt_member {part : Java.Tree} (derived : Derived part) (neat : part.Neat)
    (other : part.isRule .enumBodyDeclarations = false) :
    MemberKind.field.At (member? part).toList
      ((part.memberStanding?.map fun s => spots s part).getD []) := by
  cases part with
  | leaf => exact .nil
  | node field rule parts =>
    have code := isField_spots_code (t := .node field rule parts)
    have plain (notField : (Java.Tree.node field rule parts).isField = false) :
        ∀ x ∈ spots .code (.node field rule parts), x.isField = false := by
      rw [notField, if_neg (by simp), List.filter_eq_nil_iff] at code
      simpa using code
    unfold member?
    -- A method has its body to itself, and another member that is no field has only content.
    split
    case h_1 =>
      refine .of_none (fun m member => ?_) (isField_spots_method derived neat.parts)
      obtain ⟨name, -, rfl⟩ := Option.map_eq_some_iff.mp (Option.mem_toList.mp member)
      rfl
    case h_2 | h_3 =>
      change List.Forall₂ _ _ ((spots .code _).filter Spot.isField)
      rw [code]
      exact .cons rfl .nil
    case h_9 =>
      -- By any other rule the part is a type or no member at all.
      have standing : rule.memberStanding? =
          if (TypeKind.ofRule? rule).isSome then some .type else none := by
        simp only [Java.Tree.isRule, Java.Tree.label] at other
        unfold Rule.memberStanding?
        split <;> simp_all
      refine .of_none (fun m member => ?_) (fun x member => ?_)
      · split at member
        · obtain ⟨d, -, rfl⟩ := Option.map_eq_some_iff.mp (Option.mem_toList.mp member)
          rfl
        · cases member
      · rw [Java.Tree.memberStanding?, standing] at member
        split at member
        · rw [Option.map_some, Option.getD_some, spots_type] at member
          obtain rfl := List.mem_singleton.mp member
          rfl
        · cases member
    all_goals exact .of_none (by simp [MemberKind.field, Member.field?]) (plain rfl)

/-- The fields of a declared type are those of the field declarations that stand in it. -/
theorem fieldsAt_declaration {t : Java.Tree} {d : TypeDecl} (derived : Derived t) (neat : t.Neat)
    (declared : declared? t = some d) : MemberKind.field.At d.members (spots .declaration t) :=
  MemberKind.at_declaration (fun _ => fieldsAt_member) derived neat declared

end TypeGraph
