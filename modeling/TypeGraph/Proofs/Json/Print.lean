import Mathlib.Data.List.Forall2
import Mathlib.Tactic.SplitIfs
import TypeGraph.Json.Basic
import TypeGraph.Proofs.Json.Reader

/-! The text of a value stands for the value, in every layout. -/

namespace TypeGraph.Json

mutual
/-- The value itself, among all that a text may stand for. -/
def value : Json → Value
  | .bool value => .bool value
  | .number n => .number ⟨n, 0⟩
  | .string s => .string s
  | .array items => .array (values items)
  | .object members => .object (memberValues members)
/-- Several values. -/
def values : List Json → List Value
  | [] => []
  | item :: rest => item.value :: values rest
/-- Several members of an object. -/
def memberValues : List (String × Json) → List (String × Value)
  | [] => []
  | (name, v) :: rest => (name, v.value) :: memberValues rest
end

/-- What is no blank is not skipped. -/
theorem skip_cons {c : Char} (sign : isBlank c = false) (rest : List Char) :
    skip (c :: rest) = c :: rest := by
  simp [skip, sign]

/-- A new line consists of blanks. -/
@[simp] theorem skip_newline (layout : Layout) (depth : Nat) (rest : List Char) :
    skip (layout.newline depth ++ rest) = skip rest := by
  -- The indentation is made of blanks as well.
  have spaces : ∀ c ∈ List.replicate (2 * depth) ' ', isBlank c = true := by
    intro c member
    rw [List.eq_of_mem_replicate member]
    rfl
  cases layout with
  | compact => rfl
  | pretty => simp [skip, Layout.newline, isBlank, List.dropWhile_append_of_pos spaces]

/-! ### Strings -/

/-- Hexadecimal digits count what they have been made from. -/
theorem hexValue?_hexDigit : ∀ n < 16, hexValue? (hexDigit n) = some n := by decide

/-- A character is read back from the way it is written in a string. -/
theorem readChar_escapeChar (c : Char) (rest : List Char) :
    readChar (escapeChar c ++ rest) = some (c, rest) := by
  unfold escapeChar
  split_ifs with quote slash backspace feed line carriage tab control
  iterate 7 subst c; rfl
  · -- The code of a control character has two digits.
    have high := hexValue?_hexDigit (c.toNat / 16) (by omega)
    have low := hexValue?_hexDigit (c.toNat % 16) (by omega)
    have zero : hexValue? '0' = some 0 := by decide
    have whole : c.toNat / 16 * 16 + c.toNat % 16 = c.toNat := by omega
    have small : ¬0xD800 ≤ c.toNat := by omega
    have small' : ¬0xDC00 ≤ c.toNat := by omega
    simp [readChar, readEscape, readHex, high, low, zero, whole, small, small', Char.ofNat_toNat]
  · rw [List.singleton_append, readChar]
    · simp [control]
    · exact slash

/-- No character is written in a string so that it starts with a quotation mark. -/
theorem head?_escapeChar (c : Char) (rest : List Char) :
    (escapeChar c ++ rest).head? ≠ some '"' := by
  unfold escapeChar
  split_ifs <;> simp_all

/-- Characters are read up to the closing quotation mark. -/
theorem readChars_escaped (chars rest : List Char) {count : Nat} (enough : chars.length < count) :
    readChars count (chars.flatMap escapeChar ++ '"' :: rest) = some (chars, rest) := by
  -- No written character looks like the closing mark.
  induction chars generalizing count with
  | nil =>
    obtain ⟨count, rfl⟩ := Nat.exists_eq_add_one.mpr enough
    rfl
  | cons c chars ih =>
    obtain ⟨count, rfl⟩ := Nat.exists_eq_add_one.mpr (Nat.zero_lt_of_lt enough)
    rw [List.flatMap_cons, List.append_assoc, readChars]
    · simp [readChar_escapeChar, ih (Nat.succ_lt_succ_iff.mp enough)]
    · exact fun text same => head?_escapeChar c _ (by rw [same]; rfl)

/-- A string is read back from its literal. -/
theorem readString_escaped (s : String) (rest : List Char) :
    readString (s.toList.flatMap escapeChar ++ '"' :: rest) = some (s, rest) := by
  -- Each character is written with one character at least.
  have written : s.toList.length ≤ (s.toList.flatMap escapeChar).length := by
    induction s.toList with
    | nil => simp
    | cons c chars ih =>
      have one : 1 ≤ (escapeChar c).length := by
        unfold escapeChar
        split_ifs <;> simp
      simp only [List.flatMap_cons, List.length_append, List.length_cons]
      omega
  rw [readString, readChars_escaped s.toList rest (by
    simp only [List.length_append, List.length_cons]
    omega)]
  simp

/-- A literal is a quotation mark, the characters as they are written, and the other mark. -/
theorem quote_append (s : String) (rest : List Char) :
    quote s ++ rest = '"' :: (s.toList.flatMap escapeChar ++ '"' :: rest) := by
  simp [quote]

/-! ### Numbers -/

/-- A text that does not go on with a number. -/
def Stops (rest : List Char) : Prop :=
  ∀ c ∈ rest.head?, c.isDigit = false ∧ c ≠ '.' ∧ c ≠ 'e' ∧ c ≠ 'E'

/-- Digits are read up to where a number stops. -/
theorem readDigits_append {digits rest : List Char} (some : digits ≠ [])
    (all : ∀ c ∈ digits, c.isDigit) (stops : Stops rest) :
    readDigits (digits ++ rest) = .some (digits, rest) := by
  -- The rest does not go on with a digit, so the digits end there.
  have first : rest.takeWhile Char.isDigit = [] ∧ rest.dropWhile Char.isDigit = rest := by
    cases rest with
    | nil => exact ⟨rfl, rfl⟩
    | cons c rest =>
      have other := (stops c rfl).1
      simp [other]
  obtain ⟨c, digits, rfl⟩ := List.exists_cons_of_ne_nil some
  rw [readDigits, List.takeWhile_append_of_pos all, List.dropWhile_append_of_pos all, first.1,
    first.2, List.append_nil]

/-- The digits of a number do not start with a zero, unless it is zero. -/
theorem head?_toDigits {n : Nat} (positive : 0 < n) : (Nat.toDigits 10 n).head? ≠ some '0' := by
  induction n using Nat.strongRecOn with
  | ind n ih =>
    by_cases small : n < 10
    · have digits : ∀ n < 10, 0 < n → n.digitChar ≠ '0' := by decide
      rw [Nat.toDigits_of_lt_base small]
      simpa using digits n small positive
    · -- The first digit is that of the number without its last digit.
      obtain ⟨c, digits, more⟩ :=
        List.exists_cons_of_ne_nil (Nat.toDigits_ne_nil (n := n / 10) (b := 10))
      have other := ih (n / 10) (by omega) (by omega)
      rw [Nat.toDigits_of_base_le (by decide) (by omega), more]
      rwa [more] at other

/-- The digits of a number are read up to where it stops. -/
theorem readWhole_toDigits (n : Nat) {rest : List Char} (stops : Stops rest) :
    readWhole (Nat.toDigits 10 n ++ rest) = some (Nat.toDigits 10 n, rest) := by
  -- A zero in front would be one too many, but there is none.
  have digits := readDigits_append (Nat.toDigits_ne_nil (n := n) (b := 10))
    (fun _ => Nat.isDigit_of_mem_toDigits (by decide) (by decide)) stops
  have plain : ¬((Nat.toDigits 10 n).head? = some '0' ∧ (Nat.toDigits 10 n).length ≠ 1) := by
    rcases Nat.eq_zero_or_pos n with rfl | positive
    · simp
    · exact fun zero => head?_toDigits positive zero.1
  simpa [readWhole, digits] using plain

/-- A number is read back from its digits. -/
theorem readUnsigned_toDigits (n : Nat) {rest : List Char} (stops : Stops rest) :
    readUnsigned (Nat.toDigits 10 n ++ rest) = some (⟨n, 0⟩, rest) := by
  -- The rest has neither a decimal point nor a power of ten.
  have fraction : readFraction rest = some ([], rest) := by
    unfold readFraction
    split
    · exact absurd rfl (stops '.' rfl).2.1
    · rfl
  have exponent : readExponent rest = some (0, rest) := by
    unfold readExponent
    split
    · exact absurd rfl (stops 'e' rfl).2.2.1
    · exact absurd rfl (stops 'E' rfl).2.2.2
    · rfl
  simp [readUnsigned, readWhole_toDigits n stops, fraction, exponent, Nat.ofDigitChars_ten_toDigits]

/-- What starts with a digit can only be a number. -/
theorem readValue_of_digit {c : Char} (digit : c.isDigit) (text : List Char) (depth : Nat) :
    readValue (depth + 1) (c :: text) =
      (readUnsigned (c :: text)).map fun (d, rest) => (.number d, rest) := by
  -- All other values start with some other sign.
  have number : readNumber (c :: text) = readUnsigned (c :: text) := by
    rw [readNumber]
    rintro rest same
    cases same
    cases digit
  rw [readValue]
  · rw [number]
  all_goals
    rintro rest same
    cases same
    cases digit

/-! ### Lists and values -/

section

variable {α : Type} {item : List Char → Option (α × List Char)}

/-- A text from which something is read back, whatever follows that does not go on with a number. -/
structure Reads (item : List Char → Option (α × List Char)) (part : List Char) (a : α) : Prop where
  /-- Nothing that may be found in place of an item is at its start. -/
  start : ∃ c text, part = c :: text ∧ isBlank c = false ∧ c ≠ ']' ∧ c ≠ '\x7d'
  read : ∀ rest, Stops rest → item (part ++ rest) = some (a, rest)

/-- No blank is skipped before an item. -/
theorem Reads.skip_append {part : List Char} {a : α} (reads : Reads item part a)
    (rest : List Char) : skip (part ++ rest) = part ++ rest := by
  obtain ⟨c, text, rfl, sign, -⟩ := reads.start
  exact skip_cons sign _

/-- A closing bracket stops a number, on the same line or on the next. -/
theorem stops_newline (layout : Layout) (depth : Nat) {close : Char}
    (closing : close = ']' ∨ close = '\x7d') (rest : List Char) :
    Stops (layout.newline depth ++ close :: rest) := by
  intro c first
  cases layout <;> rcases closing with rfl | rfl <;> cases first <;> decide

/-- Items are read back up to the closing bracket. -/
theorem readItems_parts (layout : Layout) (depth : Nat) {close : Char}
    (closing : close = ']' ∨ close = '\x7d') {part : List Char} {parts : List (List Char)} {a : α}
    {others : List α} (one : Reads item part a) (all : List.Forall₂ (Reads item) parts others)
    (rest : List Char) {count : Nat} (enough : parts.length < count) :
    readItems item close count
        (part ++ ((parts.flatMap fun part => ',' :: layout.newline (depth + 1) ++ part) ++
          (layout.newline depth ++ close :: rest))) = some (a :: others, rest) := by
  -- The first item is followed by the bracket, or by a comma and the others.
  obtain ⟨count, rfl⟩ := Nat.exists_eq_add_one.mpr (Nat.zero_lt_of_lt enough)
  induction all generalizing part a count with
  | nil =>
    have last := one.read _ (stops_newline layout depth closing rest)
    have found : skip (close :: rest) = close :: rest := by
      rcases closing with rfl | rfl <;> rfl
    rw [List.flatMap_nil, List.nil_append, readItems, last]
    rcases closing with rfl | rfl <;> simp [found]
  | cons next further ih =>
    obtain ⟨count, rfl⟩ :=
      Nat.exists_eq_add_one.mpr (Nat.zero_lt_of_lt (Nat.lt_of_succ_lt_succ enough))
    have comma (text : List Char) : Stops (',' :: text) := by
      intro c first
      cases first
      decide
    have later := ih next count (Nat.lt_of_succ_lt_succ enough)
    simp only [List.cons_append] at later
    rw [List.flatMap_cons, List.cons_append, List.cons_append, List.cons_append, readItems,
      one.read _ (comma _)]
    simp [skip_cons (show isBlank ',' = false from rfl), next.skip_append, later]

/-- Items in brackets are read back, and so are none. -/
theorem readList_bracketed (layout : Layout) (depth : Nat) (left : Char) {close : Char}
    (closing : close = ']' ∨ close = '\x7d') {parts : List (List Char)} {as : List α}
    (all : List.Forall₂ (Reads item) parts as) (rest : List Char) :
    ∃ text, bracketed layout depth left close parts ++ rest = left :: text ∧
      readList item close text = some (as, rest) := by
  cases all with
  | nil =>
    refine ⟨close :: rest, rfl, ?_⟩
    have found : skip (close :: rest) = close :: rest := by
      rcases closing with rfl | rfl <;> rfl
    simp [readList, found]
  | @cons part a parts others one all =>
    refine ⟨layout.newline (depth + 1) ++ (part ++
      ((parts.flatMap fun part => ',' :: layout.newline (depth + 1) ++ part) ++
        (layout.newline depth ++ close :: rest))), by simp [bracketed], ?_⟩
    -- Every further item comes with a comma, so there are fewer than characters.
    have few : parts.length ≤
        (parts.flatMap fun part => ',' :: layout.newline (depth + 1) ++ part).length := by
      clear all
      induction parts with
      | nil => simp
      | cons part parts ih =>
        simp only [List.flatMap_cons, List.length_append, List.length_cons]
        omega
    have enough : parts.length < (layout.newline (depth + 1) ++ (part ++
        ((parts.flatMap fun part => ',' :: layout.newline (depth + 1) ++ part) ++
          (layout.newline depth ++ close :: rest)))).length := by
      simp only [List.length_append, List.length_cons]
      omega
    have items := readItems_parts layout depth closing one all rest enough
    obtain ⟨c, text, rfl, sign, notBracket, notBrace⟩ := one.start
    have other : c ≠ close := by rcases closing with rfl | rfl <;> assumption
    rw [readList, skip_newline, List.cons_append, skip_cons sign]
    simp only [other, if_false]
    exact items

/-- The bound for what is in brackets leaves enough for each part. -/
theorem length_le_of_bracketed {layout : Layout} {level depth : Nat} {left right : Char}
    {parts : List (List Char)}
    (enough : (bracketed layout level left right parts).length ≤ depth + 1) :
    ∀ part ∈ parts, part.length ≤ depth := by
  intro part member
  -- The brackets themselves take up more than the bound is lowered by.
  cases parts with
  | nil => cases member
  | cons first parts =>
    rcases List.mem_cons.mp member with rfl | member
    · simp only [bracketed, List.length_append, List.length_cons] at enough
      omega
    · obtain ⟨before, after, rfl⟩ := List.append_of_mem member
      simp only [bracketed, List.flatMap_append, List.flatMap_cons, List.length_append,
        List.length_cons] at enough
      omega

end

/-- Brackets come first. -/
theorem exists_bracketed (layout : Layout) (depth : Nat) (left right : Char)
    (parts : List (List Char)) :
    ∃ text, bracketed layout depth left right parts = left :: text := by
  cases parts <;> exact ⟨_, rfl⟩

/-- No value has an empty text. -/
theorem print_ne_nil (layout : Layout) (level : Nat) (v : Json) : v.print layout level ≠ [] := by
  -- Strings and lists have their marks, and numbers a digit.
  cases v with
  | bool value => cases value <;> simp [print]
  | number => exact Nat.toDigits_ne_nil
  | string => simp [print, quote]
  | array | object =>
    obtain ⟨text, starts⟩ := exists_bracketed layout level _ _ _
    rw [print, starts]
    exact List.cons_ne_nil _ _

/-- What starts with a digit can take the place of an item. -/
theorem start_of_digit {c : Char} (digit : c.isDigit) :
    isBlank c = false ∧ c ≠ ']' ∧ c ≠ '\x7d' := by
  have apart {other : Char} (sign : other.isDigit = false) : c ≠ other := by
    rintro rfl
    rw [sign] at digit
    cases digit
  simp [isBlank, apart]

mutual
/-- A value is read back from its text. -/
theorem reads_print (layout : Layout) (level : Nat) (v : Json) {depth : Nat}
    (enough : (v.print layout level).length ≤ depth) :
    Reads (readValue depth) (v.print layout level) v.value := by
  -- A value starts with the sign by which the reader knows its sort.
  obtain ⟨depth, rfl⟩ := Nat.exists_eq_add_one.mpr
    (Nat.lt_of_lt_of_le (List.length_pos_iff.mpr (v.print_ne_nil layout level)) enough)
  match v with
  | .bool true => exact ⟨⟨'t', _, rfl, rfl, by decide, by decide⟩, fun rest _ => rfl⟩
  | .bool false => exact ⟨⟨'f', _, rfl, rfl, by decide, by decide⟩, fun rest _ => rfl⟩
  | .number n =>
    obtain ⟨c, digits, more⟩ := List.exists_cons_of_ne_nil (Nat.toDigits_ne_nil (n := n) (b := 10))
    have digit : c.isDigit := Nat.isDigit_of_mem_toDigits (b := 10) (n := n) (by decide) (by decide)
      (by rw [more]; exact List.mem_cons_self)
    refine ⟨⟨c, digits, more, start_of_digit digit⟩, fun rest stops => ?_⟩
    have number := readUnsigned_toDigits n stops
    rw [print, more, List.cons_append, readValue_of_digit digit, ← List.cons_append, ← more, number]
    rfl
  | .string s =>
    refine ⟨⟨'"', _, rfl, rfl, by decide, by decide⟩, fun rest _ => ?_⟩
    rw [print, quote_append, readValue, readString_escaped]
    rfl
  | .array items =>
    have all := reads_printAll layout (level + 1) items (length_le_of_bracketed enough)
    obtain ⟨text, starts⟩ :=
      exists_bracketed layout level '[' ']' (printAll layout (level + 1) items)
    refine ⟨⟨'[', text, starts, rfl, by decide, by decide⟩, fun rest _ => ?_⟩
    obtain ⟨text, same, read⟩ := readList_bracketed layout level '[' (.inl rfl) all rest
    rw [print, same, readValue, read]
    rfl
  | .object members =>
    have all := reads_printMembers layout (level + 1) members (length_le_of_bracketed enough)
    obtain ⟨text, starts⟩ :=
      exists_bracketed layout level '\x7b' '\x7d' (printMembers layout (level + 1) members)
    refine ⟨⟨'\x7b', text, starts, rfl, by decide, by decide⟩, fun rest _ => ?_⟩
    obtain ⟨text, same, read⟩ := readList_bracketed layout level '\x7b' (.inr rfl) all rest
    rw [print, same, readValue, read]
    rfl
/-- Several values are read back from their texts. -/
theorem reads_printAll (layout : Layout) (level : Nat) (items : List Json) {depth : Nat}
    (enough : ∀ part ∈ printAll layout level items, part.length ≤ depth) :
    List.Forall₂ (Reads (readValue depth)) (printAll layout level items) (values items) := by
  match items with
  | [] => exact .nil
  | item :: rest =>
    obtain ⟨first, others⟩ := List.forall_mem_cons.mp enough
    exact .cons (reads_print layout level item first) (reads_printAll layout level rest others)
/-- Several members of an object are read back from their texts. -/
theorem reads_printMembers (layout : Layout) (level : Nat) (members : List (String × Json))
    {depth : Nat} (enough : ∀ part ∈ printMembers layout level members, part.length ≤ depth) :
    List.Forall₂ (Reads (readMember (readValue depth))) (printMembers layout level members)
      (memberValues members) := by
  match members with
  | [] => exact .nil
  | (name, v) :: rest =>
    obtain ⟨first, others⟩ := List.forall_mem_cons.mp enough
    have shorter : (v.print layout level).length ≤ depth := by
      simp only [List.length_append] at first
      omega
    have value := reads_print layout level v shorter
    refine .cons ⟨⟨'"', _, rfl, rfl, by decide, by decide⟩, fun rest stops => ?_⟩
      (reads_printMembers layout level rest others)
    -- There may be a blank between the colon and the value.
    have colon (text : List Char) : skip (':' :: text) = ':' :: text := skip_cons rfl text
    have blank : skip (' ' :: (v.print layout level ++ rest)) = v.print layout level ++ rest :=
      value.skip_append rest
    rw [List.append_assoc, List.append_assoc, quote_append, readMember, readString_escaped]
    cases layout <;>
      simp [colon, Layout.colon, blank, value.skip_append, value.read rest stops]
end

/-- Reading the text of a value gives the value, in every layout. -/
theorem read_text (layout : Layout) (v : Json) : read (v.render layout) = some v.value := by
  -- Nothing is left behind the value.
  have reads := v.reads_print layout 0 (Nat.le_refl _)
  have whole := reads.read [] fun c first => by cases first
  have first := reads.skip_append []
  rw [List.append_nil] at whole first
  have nothing : skip [] = [] := rfl
  simp [read, render, first, whole, nothing]

end TypeGraph.Json
