import Mathlib.Data.List.Forall2
import Mathlib.Tactic.SplitIfs
import TypeGraph.Json.OfDocument

/-! The layouts of a text differ in nothing but blanks outside its string literals. -/

namespace TypeGraph

namespace Json

/-- Where a character stands with respect to the string literals of a text. -/
inductive Region where
  /-- Not in a literal, or at the mark that opens one. -/
  | outside
  | inside
  /-- In a literal, right behind a backslash that escapes it. -/
  | escaped
deriving DecidableEq, Repr

/-- Where the character after a given one stands. -/
def Region.after : Region → Char → Region
  | outside, c => if c = '"' then inside else outside
  | inside, c => if c = '"' then outside else if c = '\\' then escaped else inside
  -- An escaped mark does not close the literal, and an escaped backslash escapes nothing.
  | escaped, _ => inside

/-- The characters of a text, each with its region, where the region of the first one is given. -/
def regions (r : Region) : List Char → List (Char × Region)
  | [] => []
  | c :: rest => (c, r) :: regions (r.after c) rest

/-- Where the character after a text stands, where the region of the first one is given. -/
def Region.afterAll (r : Region) (text : List Char) : Region := text.foldl Region.after r

/-- Whether a character only serves the layout: a space or a newline outside string literals. -/
def isLayout (x : Char × Region) : Bool := x.2 = .outside && (x.1 = ' ' || x.1 = '\n')

/-- The characters of a text that do not only serve its layout. -/
def kept (r : Region) (text : List Char) : List Char :=
  ((regions r text).filter fun x => !isLayout x).map (·.1)

/-- A text without the spaces and newlines outside its string literals. -/
def squeeze (text : String) : String := String.ofList (kept .outside text.toList)

theorem afterAll_append (r : Region) (first second : List Char) :
    r.afterAll (first ++ second) = (r.afterAll first).afterAll second := by
  simp [Region.afterAll, List.foldl_append]

theorem regions_append (r : Region) (first second : List Char) :
    regions r (first ++ second) = regions r first ++ regions (r.afterAll first) second := by
  induction first generalizing r with
  | nil => rfl
  | cons c rest ih => simp [regions, Region.afterAll, ih]

theorem kept_append (r : Region) (first second : List Char) :
    kept r (first ++ second) = kept r first ++ kept (r.afterAll first) second := by
  simp [kept, regions_append]

/-- Whether a character with its region is no control character, or else a newline outside string
literals. -/
def IsOrderly (x : Char × Region) : Prop := 0x20 ≤ x.1.toNat ∨ x = ('\n', .outside)

/-- What a text in one layout is in another one without blanks. Both end outside string literals. -/
structure Squeezes (text bare : List Char) : Prop where
  closed : Region.outside.afterAll text = .outside
  kept : kept .outside text = bare
  orderly : ∀ x ∈ regions .outside text, IsOrderly x

namespace Squeezes

variable {text text' bare bare' : List Char}

theorem nil : Squeezes [] [] := ⟨rfl, rfl, by simp [regions]⟩

/-- Texts in turn are squeezed one by one, since the second starts outside string literals, too. -/
theorem append (front : Squeezes text bare) (back : Squeezes text' bare') :
    Squeezes (text ++ text') (bare ++ bare') where
  closed := by rw [afterAll_append, front.closed, back.closed]
  kept := by rw [kept_append, front.kept, front.closed, back.kept]
  orderly := by
    rw [regions_append, front.closed]
    exact List.forall_mem_append.mpr ⟨front.orderly, back.orderly⟩

/-- Signs other than blanks and quotation marks stay. -/
theorem signs (plain : ∀ c ∈ text, 0x20 < c.toNat ∧ c ≠ '"') : Squeezes text text := by
  induction text with
  | nil => exact nil
  | cons c rest ih =>
    obtain ⟨⟨visible, noMark⟩, later⟩ := List.forall_mem_cons.mp plain
    have apart : ∀ other : Char, other.toNat ≤ 0x20 → c ≠ other := by
      rintro other low rfl
      omega
    have noBlank : c ≠ ' ' ∧ c ≠ '\n' := ⟨apart ' ' (by decide), apart '\n' (by decide)⟩
    have here : Squeezes [c] [c] :=
      ⟨by simp [Region.afterAll, Region.after, noMark],
        by simp [Json.kept, regions, isLayout, noBlank],
        by simp [regions, IsOrderly, Nat.le_of_lt visible]⟩
    exact here.append (ih later)

/-- Nothing is left of a new line and its indentation. -/
theorem newline (layout : Layout) (depth : Nat) : Squeezes (layout.newline depth) [] := by
  cases layout with
  | compact => exact nil
  | pretty =>
    have feed : Squeezes ['\n'] [] := ⟨rfl, rfl, by simp [regions, IsOrderly]⟩
    have space : Squeezes [' '] [] := ⟨rfl, rfl, by simp [regions, IsOrderly]⟩
    have spaces : ∀ count, Squeezes (List.replicate count ' ') [] := by
      intro count
      induction count with
      | zero => exact nil
      | succ count ih => exact space.append ih
    exact feed.append (spaces _)

/-- Nothing but the colon is left between a name and its value. -/
theorem colon (layout : Layout) : Squeezes layout.colon [':'] := by
  cases layout <;> exact ⟨rfl, rfl, by simp [regions, IsOrderly, Layout.colon]⟩

end Squeezes

/-! ### String literals -/

/-- Hexadecimal digits are visible, and neither quotation marks nor backslashes. -/
theorem hexDigit_plain :
    ∀ n < 16, 0x20 ≤ (hexDigit n).toNat ∧ hexDigit n ≠ '"' ∧ hexDigit n ≠ '\\' := by decide

/-- A character as it is written in a literal stays inside, without any control character. -/
theorem regions_escapeChar (c : Char) :
    Region.inside.afterAll (escapeChar c) = .inside ∧
      ∀ x ∈ regions .inside (escapeChar c), 0x20 ≤ x.1.toNat ∧ x.2 ≠ .outside := by
  unfold escapeChar
  split_ifs with quote slash backspace feed line carriage tab control
  iterate 7 exact ⟨rfl, by decide⟩
  · -- The code of a control character is written with digits.
    have high := hexDigit_plain (c.toNat / 16) (by omega)
    have low := hexDigit_plain (c.toNat % 16) (by omega)
    simp [Region.afterAll, Region.after, regions, high, low]
  · simp [Region.afterAll, Region.after, regions, quote, slash, Nat.not_lt.mp control]

/-- All that is written in a literal stays inside. -/
theorem regions_escaped (chars : List Char) :
    Region.inside.afterAll (chars.flatMap escapeChar) = .inside ∧
      ∀ x ∈ regions .inside (chars.flatMap escapeChar), 0x20 ≤ x.1.toNat ∧ x.2 ≠ .outside := by
  -- Each character leaves the region as it is for the next one.
  induction chars with
  | nil => exact ⟨rfl, by simp [regions]⟩
  | cons c chars ih =>
    obtain ⟨stays, plain⟩ := regions_escapeChar c
    rw [List.flatMap_cons, afterAll_append, regions_append, stays]
    exact ⟨ih.1, List.forall_mem_append.mpr ⟨plain, ih.2⟩⟩

theorem map_fst_regions (r : Region) (text : List Char) : (regions r text).map (·.1) = text := by
  induction text generalizing r with
  | nil => rfl
  | cons c rest ih => simp [regions, ih]

/-- A string literal stays as it is, whatever blanks and marks its text holds. -/
theorem Squeezes.quote (s : String) : Squeezes (quote s) (quote s) := by
  obtain ⟨stays, plain⟩ := regions_escaped s.toList
  -- Between the marks that open and close the literal everything is inside.
  have marks : regions .outside (Json.quote s) =
      ('"', .outside) :: (regions .inside (s.toList.flatMap escapeChar) ++ [('"', .inside)]) := by
    rw [Json.quote, List.cons_append, regions]
    simp [Region.after, regions_append, stays, regions]
  have orderly : ∀ x ∈ regions .outside (Json.quote s), 0x20 ≤ x.1.toNat ∧ isLayout x = false := by
    rw [marks]
    refine List.forall_mem_cons.mpr ⟨by decide, List.forall_mem_append.mpr ⟨?_, by decide⟩⟩
    exact fun x member => ⟨(plain x member).1, by simp [isLayout, (plain x member).2]⟩
  refine ⟨?_, ?_, fun x member => .inl (orderly x member).1⟩
  · change (Region.inside.afterAll (s.toList.flatMap escapeChar ++ ['"'])) = _
    rw [afterAll_append, stays]
    rfl
  · rw [Json.kept, List.filter_eq_self.mpr fun x member => by simp [orderly x member],
      map_fst_regions]

/-! ### Lists and values -/

/-- Parts in brackets are squeezed part by part. -/
theorem Squeezes.bracketed (layout : Layout) (depth depth' : Nat) {left right : Char}
    (opening : 0x20 < left.toNat ∧ left ≠ '"') (closing : 0x20 < right.toNat ∧ right ≠ '"')
    {parts bares : List (List Char)} (all : List.Forall₂ Squeezes parts bares) :
    Squeezes (bracketed layout depth left right parts)
      (bracketed .compact depth' left right bares) := by
  have sign {c : Char} (plain : 0x20 < c.toNat ∧ c ≠ '"') : Squeezes [c] [c] :=
    .signs (by simpa using plain)
  have comma : Squeezes [','] [','] := sign (by decide)
  cases all with
  | nil => exact (sign opening).append (sign closing)
  | @cons part bare parts bares one all =>
    -- Each further part comes behind a comma and a new line.
    have others : Squeezes (parts.flatMap fun part => ',' :: layout.newline (depth + 1) ++ part)
        (bares.flatMap fun bare => ',' :: bare) := by
      induction all with
      | nil => exact nil
      | cons next _ ih =>
        exact ((comma.append (newline layout _)).append next).append ih
    have whole := (((((sign opening).append (newline layout (depth + 1))).append one).append
      others).append (newline layout depth)).append (sign closing)
    simpa [Json.bracketed, Layout.newline] using whole

mutual
/-- The text of a value is squeezed to its text without blanks. -/
theorem squeezes_print (layout : Layout) (depth depth' : Nat) (v : Json) :
    Squeezes (v.print layout depth) (v.print .compact depth') := by
  match v with
  | .bool true =>
    show Squeezes "true".toList "true".toList
    exact .signs (by simp)
  | .bool false =>
    show Squeezes "false".toList "false".toList
    exact .signs (by simp)
  | .number n =>
    -- A number is written with digits only.
    refine .signs fun c member => ?_
    have digit : c.isDigit := Nat.isDigit_of_mem_toDigits (by decide) (by decide) member
    have bounds : 48 ≤ c.val ∧ c.val ≤ 57 := by simpa [Char.isDigit] using digit
    have visible : 48 ≤ c.toNat := UInt32.le_iff_toNat_le.mp bounds.1
    refine ⟨by omega, ?_⟩
    rintro rfl
    cases digit
  | .string s => exact .quote s
  | .array items =>
    exact .bracketed layout depth depth' (by decide) (by decide)
      (squeezes_printAll layout (depth + 1) (depth' + 1) items)
  | .object members =>
    exact .bracketed layout depth depth' (by decide) (by decide)
      (squeezes_printMembers layout (depth + 1) (depth' + 1) members)
/-- The texts of several values are squeezed one by one. -/
theorem squeezes_printAll (layout : Layout) (depth depth' : Nat) (items : List Json) :
    List.Forall₂ Squeezes (printAll layout depth items) (printAll .compact depth' items) := by
  match items with
  | [] => exact .nil
  | item :: rest =>
    exact .cons (squeezes_print layout depth depth' item)
      (squeezes_printAll layout depth depth' rest)
/-- The texts of several members are squeezed one by one. -/
theorem squeezes_printMembers (layout : Layout) (depth depth' : Nat)
    (members : List (String × Json)) :
    List.Forall₂ Squeezes (printMembers layout depth members)
      (printMembers .compact depth' members) := by
  match members with
  | [] => exact .nil
  | (name, value) :: rest =>
    exact .cons (((Squeezes.quote name).append (.colon layout)).append
      (squeezes_print layout depth depth' value)) (squeezes_printMembers layout depth depth' rest)
end

/-- What is left of a text without blanks holds no control characters. -/
theorem Squeezes.plain {text bare : List Char} (squeezes : Squeezes text bare) :
    ∀ c ∈ bare, 0x20 ≤ c.toNat := by
  -- The only control characters are newlines that serve the layout, and these have been left out.
  rw [← squeezes.kept]
  intro c member
  obtain ⟨x, stays, rfl⟩ := List.mem_map.mp member
  obtain ⟨inside, needed⟩ := List.mem_filter.mp stays
  rcases squeezes.orderly x inside with plain | newline
  · exact plain
  · rw [newline] at needed
    cases needed

end Json

open Json

/-- The two texts of a document differ in layout only. Without the spaces and newlines outside its
string literals the pretty text is the compact one, which holds no control characters at all, while
those of the pretty text are newlines outside string literals. -/
theorem Document.squeeze_pretty (d : Document) :
    squeeze (d.render .pretty) = d.render .compact ∧
      (∀ c ∈ (d.render .compact).toList, 0x20 ≤ c.toNat) ∧
      ∀ x ∈ regions .outside (d.render .pretty).toList,
        0x20 ≤ x.1.toNat ∨ x = ('\n', .outside) := by
  have squeezes := squeezes_print .pretty 0 0 d.toJson
  simp only [squeeze, render, Json.render, String.toList_ofList]
  exact ⟨by rw [squeezes.kept], squeezes.plain, squeezes.orderly⟩

/-- A blank stays in a literal, also behind a quotation mark that is escaped there. -/
example : squeeze "[ \"a\\\" b\", \"\\\\\" ]" = "[\"a\\\" b\",\"\\\\\"]" := by decide

end TypeGraph
