import TypeGraph.Files.Tree
import TypeGraph.Proofs.Files.Sight

/-! Where paths lead depends on what can be seen, and one new file leads no path elsewhere. -/

namespace TypeGraph

/-- Two operations in turn come to something if the second does with what the first comes to. -/
theorem bind_eq_ok_iff {ε α β : Type} {first : Except ε α} {second : α → Except ε β} {b : β} :
    (first >>= second) = .ok b ↔ ∃ a, first = .ok a ∧ second a = .ok b := by
  cases first <;> simp [bind, Except.bind]

namespace Files.FileTree

open Entry

/-- An entry is that to which a path leads. -/
theorem entry_eq_ok_iff {t : FileTree} {path : String} {e : Entry} :
    t.entry path = .ok e ↔ ∃ place, t.locate true path = .ok place ∧ t.top.at? place = some e := by
  rw [entry, bind_eq_ok_iff]
  refine exists_congr fun place => and_congr_right fun _ => ?_
  cases t.top.at? place <;> simp [pure, Except.pure]

/-- Without steps a walk ends where it starts. -/
theorem walk_nil (top : Entry) (followLast : Bool) (links : Nat) (place : Location) :
    walk top followLast links place [] = .ok place := by
  rw [walk]

/-- A walk looks only at what can be seen here and under the next name. -/
theorem walk_cons (top : Entry) (followLast : Bool) (links : Nat) (place : Location)
    (step : String) (rest : List String) :
    walk top followLast links place (step :: rest) =
      if top.sight? place = some .directory then
        if step = "." then walk top followLast links place rest
        else if step = ".." then walk top followLast links place.dropLast rest
        else if nameLimit < step.utf8ByteSize then .error .nameTooLong
        else match top.sight? (place ++ [step]) with
          | none => .error .absent
          | some (.link target) =>
            if rest.isEmpty && !followLast then .ok (place ++ [step])
            else match links with
              | 0 => .error .tooManyLinks
              | links + 1 =>
                walk top followLast links (origin place target) (Path.steps target ++ rest)
          | some _ => walk top followLast links (place ++ [step]) rest
      else .error .notDirectory := by
  -- In a directory, what a name stands for is what can be seen under it.
  rw [walk]
  cases here : top.at? place with
  | none => simp [sight?, here]
  | some found => cases found with
    | file | link => simp [sight?, here, sight]
    | directory entries =>
      have directory : top.sight? place = some .directory := sight?_eq_directory.mpr ⟨_, here⟩
      rw [if_pos directory, sight?_concat here]
      dsimp only
      cases entries.lookup step with
      | none => rfl
      | some child => cases child <;> rfl

/-- A path of a single step leads to what stands under it where paths start, unless it is a link. -/
theorem locate_step {t : FileTree} {name : String} {e : Entry} (followLast : Bool)
    (single : Path.steps name = [name] ∧ ¬Path.isAbsolute name)
    (proper : name ≠ "" ∧ name ≠ "." ∧ name ≠ ".." ∧ '\x00' ∉ name.toList)
    (short : name.utf8ByteSize ≤ nameLimit) (listed : t.top.at? (t.here ++ [name]) = some e)
    (direct : ∀ target, e ≠ .link target) : t.locate followLast name = .ok (t.here ++ [name]) := by
  obtain ⟨nonempty, onSpot, back, clear⟩ := proper
  have seen : t.top.sight? (t.here ++ [name]) = some e.sight := by rw [sight?, listed]; rfl
  have directory : t.top.sight? t.here = some .directory :=
    sight?_eq_directory_of_below (seen ▸ Option.some_ne_none _)
  have fits : ¬pathLimit < name.utf8ByteSize :=
    Nat.not_lt.mpr (Nat.le_trans short (show nameLimit ≤ pathLimit by decide))
  rw [locate, if_neg nonempty, if_neg (by simpa using clear), if_neg fits, origin,
    if_neg single.2, single.1, walk_cons, if_pos directory, if_neg onSpot, if_neg back,
    if_neg (Nat.not_lt.mpr short), seen]
  cases e with
  | link target => exact absurd rfl (direct target)
  | file | directory => exact walk_nil _ _ _ _

/-- Behind steps that end with one on the spot there is a directory. -/
theorem sight?_of_walk {top : Entry} {followLast : Bool} {links : Nat} {place last : Location}
    {steps : List String} (ends : steps.getLast? = some ".")
    (leads : walk top followLast links place steps = .ok last) :
    top.sight? last = some .directory := by
  -- Unless the step on the spot is the only one left, it is still the last one after a step.
  have later : ∀ {step : String} {rest : List String}, step ≠ "." →
      (step :: rest).getLast? = some "." → rest ≠ [] ∧ rest.getLast? = some "." := by
    intro step rest other ends
    cases rest with
    | nil => exact absurd (Option.some.inj ends) other
    | cons => exact ⟨by simp, by simpa using ends⟩
  fun_induction walk top followLast links place steps with
  | case1 => cases ends
  | case2 links place rest entries here ih =>
    cases rest with
    | nil =>
      rw [walk_nil] at leads
      cases leads
      exact sight?_eq_directory.mpr ⟨entries, here⟩
    | cons => exact ih (by simpa using ends) leads
  | case3 _ _ _ _ _ other ih => exact ih (later other ends).2 leads
  | case6 _ _ step rest _ _ other _ _ target _ final =>
    have none : rest = [] := by simp_all
    exact absurd none (later other ends).1
  | case8 _ step rest _ _ other _ _ target _ _ links ih =>
    have ends := (later other ends).2
    exact ih (by rw [List.getLast?_append, ends, Option.some_or]) leads
  | case9 _ _ _ _ _ _ other _ _ _ _ _ ih => exact ih (later other ends).2 leads
  | case4 | case5 | case7 | case10 => cases leads

/-- Whether a path is one that can be looked at all. -/
def Usable (path : String) : Prop :=
  path ≠ "" ∧ '\x00' ∉ path.toList ∧ path.utf8ByteSize ≤ pathLimit

/-- The last name of a path is a proper one, and steps lead to the directory in which it stands. -/
theorem slot_eq_ok_iff {t : FileTree} {path : String} {location : Location} :
    t.slot path = .ok location ↔ Usable path ∧ ∃ name before,
      ((Path.pieces path).filter (· ≠ "")).reverse = name :: before ∧
        (name ≠ "." ∧ name ≠ "..") ∧ name.utf8ByteSize ≤ nameLimit ∧
        ∃ place, walk t.top true linkLimit (origin t.here path) (before.reverse ++ ["."]) =
          .ok place ∧ place ++ [name] = location := by
  -- The checks come in this order; what is left after them is the way to the directory.
  unfold slot
  split
  · simp_all [Usable]
  split
  · simp_all [Usable]
  split
  · rename_i long
    simp [Usable, Nat.not_le.mpr long]
  rename_i nonempty plain short
  have usable : Usable path := ⟨nonempty, by simpa using plain, Nat.not_lt.mp short⟩
  split
  · rename_i none
    constructor
    · intro found
      cases found
    · rintro ⟨-, name, before, named, -⟩
      cases none.symm.trans named
  · rename_i name before named
    simp only [usable, named, List.cons.injEq, bind_eq_ok_iff, true_and]
    constructor
    · rintro ⟨place, walked, rest⟩
      split at rest
      · cases rest
      split at rest
      · cases rest
      rename_i proper short
      cases rest
      exact ⟨name, before, ⟨rfl, rfl⟩, by simpa using proper, Nat.not_lt.mp short, place, walked,
        rfl⟩
    · rintro ⟨name, before, ⟨rfl, rfl⟩, proper, short, place, walked, rfl⟩
      refine ⟨place, walked, ?_⟩
      simp [proper, Nat.not_lt.mpr short, pure, Except.pure]

/-- What holds of no steps, and of steps if it holds of all but the first and of all steps with
fewer links, holds of all steps. -/
theorem walk_induction {holds : Nat → List String → Prop} (nil : ∀ links, holds links [])
    (cons : ∀ links step rest, holds links rest → (∀ fewer < links, ∀ steps, holds fewer steps) →
      holds links (step :: rest)) (links : Nat) (steps : List String) : holds links steps := by
  -- A link gives new steps, but then there is one link less to be followed.
  induction links using Nat.strongRecOn generalizing steps with
  | _ links before =>
    induction steps with
    | nil => exact nil links
    | cons step rest ih => exact cons links step rest ih before

/-- Steps behind others are taken from where the others lead, unless these lead nowhere at all. -/
theorem walk_append (top : Entry) (links : Nat) (place : Location) (first : List String) :
    (∃ cause, ∀ second, walk top true links place (first ++ second) = .error cause) ∨
      ∃ fewer last, ∀ second,
        walk top true links place (first ++ second) = walk top true fewer last second := by
  induction links, first using walk_induction generalizing place with
  | nil links => exact .inr ⟨links, place, fun _ => rfl⟩
  | cons links step rest ih fewer =>
    simp only [List.cons_append, walk_cons]
    by_cases here : top.sight? place = some .directory
    · simp only [here, if_true]
      by_cases stay : step = "."
      · simpa [stay] using ih place
      by_cases up : step = ".."
      · simpa [up] using ih place.dropLast
      by_cases long : nameLimit < step.utf8ByteSize
      · exact .inl ⟨.nameTooLong, by simp [stay, up, long]⟩
      simp only [stay, up, long, if_false]
      cases top.sight? (place ++ [step]) with
      | none => exact .inl ⟨.absent, fun _ => rfl⟩
      | some seen =>
        cases seen with
        | file | directory => exact ih _
        | link target =>
          -- The steps of the link come before the rest, with one link less to be followed.
          cases links with
          | zero => exact .inl ⟨.tooManyLinks, by simp⟩
          | succ links =>
            simpa using fewer links (Nat.lt_succ_self _) (Path.steps target ++ rest) _
    · exact .inl ⟨.notDirectory, by simp [here]⟩

/-- A tree has a file more than another at some locations, and elsewhere the two differ at most in
the contents of files. -/
structure More (top more : Entry) (fresh : Location → Prop) : Prop where
  absent : ∀ place, fresh place → top.sight? place = none
  file : ∀ place, fresh place → ∃ content, more.sight? place = some (.file content)
  others : ∀ place, ¬fresh place →
    (more.sight? place).map Sight.form = (top.sight? place).map Sight.form

namespace More

variable {top more : Entry} {fresh : Location → Prop}

/-- What can be seen without the new files does not lie at one of them. -/
theorem not_fresh_of_seen (new : More top more fresh) {place : Location} {seen : Sight}
    (here : top.sight? place = some seen) : ¬fresh place := fun reached => by
  rw [new.absent place reached] at here
  cases here

/-- The same directories can be seen. -/
theorem directory_iff (new : More top more fresh) {place : Location} :
    more.sight? place = some .directory ↔ top.sight? place = some .directory := by
  -- A new file is no directory, and elsewhere both trees look alike.
  by_cases reached : fresh place
  · obtain ⟨content, file⟩ := new.file place reached
    simp [new.absent place reached, file]
  · have form : ∀ seen : Option Sight,
        seen = some .directory ↔ seen.map Sight.form = some .directory := by
      simp
    rw [form, new.others place reached, ← form]

/-- The directory above a directory is not a new file. -/
theorem not_fresh_above (new : More top more fresh) {place : Location}
    (here : top.sight? place = some .directory) : ¬fresh place.dropLast := by
  rcases List.eq_nil_or_concat place with rfl | ⟨above, name, rfl⟩
  · exact new.not_fresh_of_seen here
  · rw [List.concat_eq_append] at here ⊢
    rw [List.dropLast_concat]
    exact new.not_fresh_of_seen (sight?_eq_directory_of_below (here ▸ Option.some_ne_none _))

/-- From a new file no step leads on. -/
theorem walk_fresh (new : More top more fresh) {followLast : Bool} {links : Nat}
    {place last : Location} {steps : List String} (reached : fresh place)
    (leads : walk more followLast links place steps = .ok last) : fresh last := by
  -- A file has no names in it, not even the one for itself.
  cases steps with
  | nil =>
    rw [walk_nil] at leads
    cases leads
    exact reached
  | cons step rest =>
    obtain ⟨content, file⟩ := new.file place reached
    simp [walk_cons, file] at leads

/-- Steps lead to the same place with and without the new files, unless they lead to one. -/
theorem walk_eq (new : More top more fresh) (followLast : Bool) (links : Nat) (place : Location)
    (outside : ¬fresh place) (steps : List String) :
    walk more followLast links place steps = walk top followLast links place steps ∨
      (∀ last, walk top followLast links place steps ≠ .ok last) ∧
        (∀ last, walk more followLast links place steps = .ok last → fresh last) ∧
          ∃ place, fresh place := by
  -- Both walks see the same until a name leads to a new file, which is absent in one tree.
  induction links, steps using walk_induction generalizing place with
  | nil => exact .inl (by rw [walk_nil, walk_nil])
  | cons links step rest ih fewer =>
    rw [walk_cons top, walk_cons more]
    by_cases here : top.sight? place = some .directory
    · have here' := new.directory_iff.mpr here
      simp only [here, here', if_true]
      by_cases stay : step = "."
      · simpa [stay] using ih place outside
      by_cases up : step = ".."
      · simpa [up] using ih _ (new.not_fresh_above here)
      by_cases long : nameLimit < step.utf8ByteSize
      · exact .inl (by simp [stay, up, long])
      simp only [stay, up, long, if_false]
      by_cases reached : fresh (place ++ [step])
      · obtain ⟨content, file⟩ := new.file _ reached
        simp only [new.absent _ reached, file]
        exact .inr ⟨by simp, fun last => new.walk_fresh reached, _, reached⟩
      · have same := new.others _ reached
        cases seen : top.sight? (place ++ [step]) with
        | none =>
          simp only [seen, Option.map_none, Option.map_eq_none_iff] at same
          exact .inl (by simp [same])
        | some here =>
          simp only [seen, Option.map_some, Option.map_eq_some_iff] at same
          obtain ⟨here', seen', form⟩ := same
          simp only [seen']
          cases here with
          | file | directory =>
            cases here' with
            | link => cases form
            | file | directory => exact ih _ reached
          | link target =>
            obtain rfl := Sight.form_eq_link.mp form
            dsimp only
            by_cases final : rest.isEmpty && !followLast
            · exact .inl (by simp [final])
            · cases links with
              | zero => exact .inl (by simp [final])
              | succ links =>
                have start : ¬fresh (origin place target) := by
                  unfold origin
                  split
                  · exact new.not_fresh_of_seen (sight?_nil top)
                  · exact outside
                simpa [final] using fewer links (Nat.lt_succ_self _) _ _ start
    · have here' := mt new.directory_iff.mp here
      exact .inl (by simp [here, here'])

/-- Steps that end with one on the spot lead to the same place with and without the new files. -/
theorem walk_eq_ok_iff (new : More top more fresh) {followLast : Bool} {links : Nat}
    {place last : Location} {steps : List String} (ends : steps.getLast? = some ".") :
    walk more followLast links place steps = .ok last ↔
      walk top followLast links place steps = .ok last := by
  by_cases reached : fresh place
  · -- From a new file, which one tree lacks, no steps lead to a directory.
    constructor
    · intro leads
      have directory := sight?_of_walk ends leads
      exact absurd (new.walk_fresh reached leads)
        (new.not_fresh_of_seen (new.directory_iff.mp directory))
    · intro leads
      cases steps with
      | nil => cases ends
      | cons step rest => simp [walk_cons, new.absent place reached] at leads
  · rcases new.walk_eq followLast links place reached steps with same | ⟨never, lost, -⟩
    · rw [same]
    · refine ⟨fun leads => ?_, fun leads => absurd leads (never last)⟩
      have directory := sight?_of_walk ends leads
      exact absurd (lost last leads) (new.not_fresh_of_seen (new.directory_iff.mp directory))

/-- The last name of a path stands at the same location with and without the new files. -/
theorem slot_eq_ok_iff {t : FileTree} (new : More t.top more fresh) (path : String)
    (location : Location) :
    ({ t with top := more } : FileTree).slot path = .ok location ↔
      t.slot path = .ok location := by
  -- The way to the directory of the name ends with a step on the spot.
  simp only [FileTree.slot_eq_ok_iff, new.walk_eq_ok_iff List.getLast?_concat]

end More

/-- The last name of a path stands in a directory. -/
theorem exists_of_slot {t : FileTree} {path : String} {location : Location}
    (found : t.slot path = .ok location) :
    ∃ place name, location = place ++ [name] ∧ t.top.sight? place = some .directory := by
  obtain ⟨-, name, before, -, -, -, place, walked, rfl⟩ := slot_eq_ok_iff.mp found
  exact ⟨place, name, rfl, sight?_of_walk List.getLast?_concat walked⟩

end Files.FileTree

end TypeGraph
