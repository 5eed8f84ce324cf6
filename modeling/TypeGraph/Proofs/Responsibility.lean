import Mathlib.Data.List.Forall2
import TypeGraph.Proofs.Text.Case
import TypeGraph.Responsibility

/-! The purpose of a method is that of the first rule with a keyword in the name as written. -/

namespace TypeGraph.Responsibility

open Text

/-- Whether a piece of a name is a keyword up to the case of ASCII letters, or the keyword is ui and
a piece is its first letter before a dotted capital I. -/
def Mentions (name keyword : String) : Prop :=
  ∃ piece, piece <:+: name.toList ∧ (piece.map Char.toLower = keyword.toList ∨
    keyword = "ui" ∧ piece.map Char.toLower = ['u', 'İ'])

instance (name keyword : String) : Decidable (Mentions name keyword) :=
  decidable_of_iff
    (∃ piece ∈ name.toList.tails.flatMap List.inits, piece.map Char.toLower = keyword.toList ∨
      keyword = "ui" ∧ piece.map Char.toLower = ['u', 'İ'])
    (by simp only [Mentions, List.mem_flatMap, List.mem_tails, List.mem_inits,
      List.infix_iff_prefix_suffix, and_comm])

/-- Whether a character is beyond ASCII and no dotted capital I, so that it counts for nothing. -/
def IsIdle (c : Char) : Prop := 128 ≤ c.toNat ∧ c ≠ 'İ'

/-- Whether two characters differ in no more than the case of an ASCII letter, or count both for
nothing. -/
def Alike (c d : Char) : Prop := c.toLower = d.toLower ∨ IsIdle c ∧ IsIdle d

/-- How many rules come before those of a purpose. -/
def rank (purpose : Responsibility) : Nat := rules.findIdx (·.2 = purpose)

/-- A text occurs in another if it is a stretch of it. -/
theorem occursIn_iff {part text : List Char} : occursIn part text ↔ part <:+: text := by
  induction text with
  | nil => simp [occursIn]
  | cons c rest ih =>
    rw [occursIn, Bool.or_eq_true, ih, List.isPrefixOf_iff_prefix, List.infix_cons_iff]

/-- The keywords of all rules. -/
def keywords : List String := rules.flatMap (·.1)

/-- Keywords are of plain letters. -/
theorem letters_of_mem {keyword : String} (mem : keyword ∈ keywords) :
    ∀ p ∈ keyword.toList, IsPlainLetter p := by
  have all : ∀ keyword ∈ keywords, keyword.toList.all fun p => IsPlainLetter p := by decide
  simpa using all keyword mem

/-- A piece reads as a keyword if it is one up to case, or ui with a dotted capital I. -/
theorem readsAs_keyword {keyword : String} (mem : keyword ∈ keywords) {piece : List Char} :
    ReadsAs piece keyword.toList ↔ piece.map Char.toLower = keyword.toList ∨
      keyword = "ui" ∧ piece.map Char.toLower = ['u', 'İ'] := by
  -- No other keyword ends with an i.
  have ending : ∀ keyword ∈ keywords, keyword.toList.getLast? = some 'i' → keyword = "ui" := by
    decide
  rw [readsAs_iff]
  refine or_congr_right ⟨?_, ?_⟩
  · rintro ⟨front, spelled, dotted⟩
    obtain rfl := ending keyword mem (by simp [spelled])
    have spelled : ['u'] ++ ['i'] = front ++ ['i'] := spelled
    obtain rfl := List.append_cancel_right spelled
    exact ⟨rfl, dotted⟩
  · rintro ⟨rfl, dotted⟩
    exact ⟨['u'], rfl, dotted⟩

/-- A keyword occurs in the lower case of a name if the name as written mentions it. -/
theorem occursIn_lowerCase {name keyword : String} (mem : keyword ∈ keywords) :
    occursIn keyword.toList (lowerCase name.toList) ↔ Mentions name keyword := by
  have inhabited : ∀ keyword ∈ keywords, keyword.toList ≠ [] := by decide
  rw [occursIn_iff, lowerCase,
    (lowers_lowerAfter [] name.toList).infix_iff (letters_of_mem mem) (inhabited keyword mem)]
  simp only [readsAs_keyword mem, Mentions]

/-- The purpose is that of the first rule with a keyword that the name mentions. -/
theorem infer_eq (name : String) :
    infer name =
      if ∃ keyword ∈ ["save", "db", "query"], Mentions name keyword then persistence
      else if ∃ keyword ∈ ["render", "view", "ui"], Mentions name keyword then presentation
      else if ∃ keyword ∈ ["validate", "auth"], Mentions name keyword then security
      else businessLogic := by
  have applies {words : List String} (known : ∀ keyword ∈ words, keyword ∈ keywords) :
      (words.any fun keyword => occursIn keyword.toList (lowerCase name.toList)) =
        decide (∃ keyword ∈ words, Mentions name keyword) := by
    rw [Bool.eq_iff_iff, List.any_eq_true, decide_eq_true_iff]
    exact exists_congr fun keyword => and_congr_right fun mem =>
      occursIn_lowerCase (known keyword mem)
  simp only [infer, rules, List.find?_cons, List.find?_nil]
  rw [applies (by decide), applies (by decide), applies (by decide)]
  split_ifs with first second third
  · rw [decide_eq_true first]
  · rw [decide_eq_false first, decide_eq_true second]
  · rw [decide_eq_false first, decide_eq_false second, decide_eq_true third]
  · rw [decide_eq_false first, decide_eq_false second, decide_eq_false third]

/-- A longer name mentions what a piece of it mentions. -/
theorem Mentions.append {name keyword : String} (mentions : Mentions name keyword)
    (front back : String) : Mentions (front ++ name ++ back) keyword := by
  obtain ⟨piece, within, reads⟩ := mentions
  refine ⟨piece, within.trans ⟨front.toList, back.toList, ?_⟩, reads⟩
  rw [String.toList_append, String.toList_append]

/-- A longer name has the purpose of a piece of it or that of an earlier rule. -/
theorem rank_infer_append (front name back : String) :
    rank (infer (front ++ name ++ back)) ≤ rank (infer name) := by
  have longer {words : List String} (mentioned : ∃ keyword ∈ words, Mentions name keyword) :
      ∃ keyword ∈ words, Mentions (front ++ name ++ back) keyword :=
    mentioned.imp fun _ found => ⟨found.1, found.2.append front back⟩
  rw [infer_eq, infer_eq name]
  by_cases first : ∃ keyword ∈ ["save", "db", "query"], Mentions name keyword
  · rw [if_pos first, if_pos (longer first)]
  by_cases second : ∃ keyword ∈ ["render", "view", "ui"], Mentions name keyword
  · rw [if_neg first, if_pos second, if_pos (longer second)]
    split <;> decide
  by_cases third : ∃ keyword ∈ ["validate", "auth"], Mentions name keyword
  · rw [if_neg first, if_neg second, if_pos third, if_pos (longer third)]
    split_ifs <;> decide
  · -- No rule comes after all of them.
    rw [if_neg first, if_neg second, if_neg third]
    split_ifs <;> decide

namespace Alike

/-- Being alike goes both ways. -/
theorem symm {c d : Char} (alike : Alike c d) : Alike d c :=
  alike.imp Eq.symm And.symm

/-- Of two characters that are alike, one that counts has the same ASCII lower case as the other. -/
theorem toLower_eq {c d : Char} (alike : Alike c d)
    (counts : IsPlainLetter c.toLower ∨ c.toLower = 'İ') : d.toLower = c.toLower := by
  rcases alike with same | ⟨⟨beyond, undotted⟩, -⟩
  · exact same.symm
  · rcases counts with letter | dotted
    · exact absurd (toNat_lt_of_toLower letter) (Nat.not_lt.mpr beyond)
    · exact absurd (eq_dotted_of_toLower dotted) undotted

/-- Alike pieces have the same ASCII lower case if each character of one counts. -/
theorem map_toLower_eq {piece other : List Char} (alike : List.Forall₂ Alike piece other)
    (counts : ∀ p ∈ piece.map Char.toLower, IsPlainLetter p ∨ p = 'İ') :
    other.map Char.toLower = piece.map Char.toLower := by
  induction alike with
  | nil => rfl
  | cons first _ ih =>
    rw [List.map_cons, List.forall_mem_cons] at counts
    rw [List.map_cons, List.map_cons, first.toLower_eq counts.1, ih counts.2]

end Alike

/-- Names that are alike mention the same keywords. -/
theorem Mentions.alike {name other keyword : String} (mem : keyword ∈ keywords)
    (alike : List.Forall₂ Alike name.toList other.toList) (mentions : Mentions name keyword) :
    Mentions other keyword := by
  obtain ⟨piece, ⟨front, back, spelled⟩, reads⟩ := mentions
  have counts : ∀ p ∈ piece.map Char.toLower, IsPlainLetter p ∨ p = 'İ' := by
    rcases reads with same | ⟨-, dotted⟩
    · exact same ▸ fun p letter => .inl (letters_of_mem mem p letter)
    · rw [dotted]
      simp [show IsPlainLetter 'u' by decide]
  -- The other name has its piece at the same place.
  have aligned := List.forall₂_take piece.length (List.forall₂_drop front.length alike)
  rw [← spelled, List.append_assoc, List.drop_left, List.take_left] at aligned
  have within : (other.toList.drop front.length).take piece.length <:+: other.toList :=
    (List.take_prefix _ _).isInfix.trans (List.drop_suffix _ _).isInfix
  exact ⟨_, within, by rwa [Alike.map_toLower_eq aligned counts]⟩

/-- Names that are alike have the same purpose. -/
theorem infer_alike {name other : String} (alike : List.Forall₂ Alike name.toList other.toList) :
    infer other = infer name := by
  have back : List.Forall₂ Alike other.toList name.toList :=
    (alike.imp fun _ _ same => same.symm).flip
  have same (words : List String) (known : ∀ keyword ∈ words, keyword ∈ keywords) :
      (∃ keyword ∈ words, Mentions other keyword) ↔ ∃ keyword ∈ words, Mentions name keyword :=
    exists_congr fun keyword => and_congr_right fun mem =>
      ⟨.alike (known keyword mem) back, .alike (known keyword mem) alike⟩
  rw [infer_eq, infer_eq name]
  simp only [same ["save", "db", "query"] (by decide), same ["render", "view", "ui"] (by decide),
    same ["validate", "auth"] (by decide)]

/-- The purpose of a method is that of the first rule with a keyword that a piece of the name as
written is, up to the case of ASCII letters or with a dotted capital I for the i of ui. What other
characters beyond ASCII stand between and around the letters does not matter, nor does the case of
ASCII letters, and a longer name never has the purpose of a later rule. -/
theorem infer_as_written (name : String) :
    (infer name =
      if ∃ keyword ∈ ["save", "db", "query"], Mentions name keyword then persistence
      else if ∃ keyword ∈ ["render", "view", "ui"], Mentions name keyword then presentation
      else if ∃ keyword ∈ ["validate", "auth"], Mentions name keyword then security
      else businessLogic) ∧
    (∀ other : String, List.Forall₂ Alike name.toList other.toList → infer other = infer name) ∧
    ∀ front back : String, rank (infer (front ++ name ++ back)) ≤ rank (infer name) :=
  ⟨infer_eq name, fun _ => infer_alike, fun front back => rank_infer_append front name back⟩

/-- A dotted capital I after an u makes a method one that shows something, whatever becomes of a
sigma at the end of its name, unless an earlier keyword is put before it. -/
theorem infer_as_written_menu :
    infer "menuİΣ" = presentation ∧
      List.Forall₂ Alike "menuİΣ".toList "MENUİß".toList ∧ infer "MENUİß" = presentation ∧
      infer ("save" ++ "menuİΣ" ++ "") = persistence ∧
      rank (infer ("save" ++ "menuİΣ" ++ "")) ≤ rank (infer "menuİΣ") := by
  obtain ⟨byRule, unchanged, extended⟩ := infer_as_written "menuİΣ"
  have shown : infer "menuİΣ" = presentation := byRule.trans (by decide +kernel)
  have alike : List.Forall₂ Alike "menuİΣ".toList "MENUİß".toList :=
    .cons (.inl rfl) (.cons (.inl rfl) (.cons (.inl rfl) (.cons (.inl rfl) (.cons (.inl rfl)
      (.cons (.inr ⟨⟨by decide, by decide⟩, by decide, by decide⟩) .nil)))))
  exact ⟨shown, alike, (unchanged _ alike).trans shown, by decide +kernel, extended _ _⟩

end TypeGraph.Responsibility
