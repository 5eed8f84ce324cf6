import Mathlib.Data.List.Infix
import TypeGraph.Text.Case

/-! The small letters in the lower case of a text come from the same letters of the text, but for
those of a dotted capital I and of the Kelvin sign. -/

namespace TypeGraph.Text

/-- Whether a character is a small letter that is not the lower case of any character beyond ASCII
alone. The lower case of the Kelvin sign is a k. -/
def IsPlainLetter (c : Char) : Prop := 'a' ≤ c ∧ c ≤ 'z' ∧ c ≠ 'k'

instance (c : Char) : Decidable (IsPlainLetter c) :=
  inferInstanceAs (Decidable (_ ∧ _ ∧ _))

/-- A character beyond ASCII is left as it is where only ASCII letters change their case. -/
theorem toLower_of_le {c : Char} (beyond : 128 ≤ c.toNat) : c.toLower = c := by
  unfold Char.toLower
  rw [dif_neg]
  rintro ⟨-, atMost⟩
  have atMost : c.toNat ≤ 90 := atMost
  omega

/-- An ASCII character stays one where ASCII letters change their case. -/
theorem toNat_toLower_lt {c : Char} (ascii : c.toNat < 128) : c.toLower.toNat < 128 := by
  have all : ∀ n < 128, (Char.ofNat n).toLower.toNat < 128 := by decide
  have lower := all c.toNat ascii
  rwa [Char.ofNat_toNat] at lower

/-- Only a dotted capital I is left as one. -/
theorem eq_dotted_of_toLower {c : Char} (same : c.toLower = 'İ') : c = 'İ' := by
  by_cases ascii : c.toNat < 128
  · exact absurd (toNat_toLower_lt ascii) (same ▸ by decide)
  · exact (toLower_of_le (Nat.le_of_not_lt ascii)).symm.trans same

/-- A plain letter is an ASCII character. -/
theorem IsPlainLetter.toNat_lt {c : Char} (letter : IsPlainLetter c) : c.toNat < 128 := by
  have atMost : c.toNat ≤ 122 := letter.2.1
  omega

/-- Only ASCII characters have a plain letter as their ASCII lower case. -/
theorem toNat_lt_of_toLower {c : Char} (letter : IsPlainLetter c.toLower) : c.toNat < 128 := by
  by_contra beyond
  rw [toLower_of_le (Nat.le_of_not_lt beyond)] at letter
  exact beyond letter.toNat_lt

/-- Of the code points beyond ASCII only the one of the Kelvin sign is moved into ASCII. -/
theorem lowerCaseRanges_beyond : ∀ r ∈ lowerCaseRanges,
    r.2.1 < 128 ∨ 128 ≤ r.1 + r.2.2.2 ∨ r.1 = 0x212A ∧ r.2.1 = 0x212A ∧ r.2.2.2 = -8383 := by
  decide +kernel

/-- The lower case of a code point beyond ASCII is beyond ASCII or that of a k. -/
theorem lowerCode_beyond {code : Nat} (beyond : 128 ≤ code) :
    128 ≤ lowerCode code ∨ lowerCode code = 'k'.toNat := by
  unfold lowerCode
  split
  case h_1 first last step offset found =>
    have range := lowerCaseRanges_beyond _ (List.mem_of_find?_eq_some found)
    have within := List.find?_some found
    simp only [Bool.and_eq_true, decide_eq_true_eq] at within range
    have kelvin : 'k'.toNat = 107 := rfl
    omega
  case h_2 => exact .inl beyond

/-- The lower case of a character beyond ASCII other than a dotted capital I is no plain letter. -/
theorem lowerChar_beyond {c : Char} (beyond : 128 ≤ c.toNat) (undotted : c ≠ 'İ') :
    ∃ d, lowerChar c = [d] ∧ ¬IsPlainLetter d := by
  refine ⟨Char.ofNat (lowerCode c.toNat), ?_, ?_⟩
  · rw [lowerChar, if_neg (by omega), if_neg undotted]
  · intro letter
    rcases lowerCode_beyond beyond with high | kelvin
    · by_cases valid : (lowerCode c.toNat).isValidChar
      · have same : Char.ofNat (lowerCode c.toNat) = Char.ofNatAux _ valid := dif_pos valid
        rw [same] at letter
        exact absurd letter.toNat_lt (Nat.not_lt.mpr high)
      · have same : Char.ofNat (lowerCode c.toNat) = '\x00' := dif_neg valid
        rw [same] at letter
        exact absurd letter (by decide)
    · rw [kelvin] at letter
      exact absurd letter (by decide)

/-- Whether a text may be the lower case of another as far as plain letters go: an ASCII character
has its own, a dotted capital I has a small i and a dot above, and any other character has
something that is no plain letter. -/
inductive Lowers : List Char → List Char → Prop
  | nil : Lowers [] []
  | ascii {c : Char} {rest low : List Char} :
      c.toNat < 128 → Lowers rest low → Lowers (c :: rest) (c.toLower :: low)
  | dotted {rest low : List Char} : Lowers rest low → Lowers ('İ' :: rest) ('i' :: '\u0307' :: low)
  | other {c d : Char} {rest low : List Char} : 128 ≤ c.toNat → c ≠ 'İ' → ¬IsPlainLetter d →
      Lowers rest low → Lowers (c :: rest) (d :: low)

/-- The lower case of a text is that of its characters, whatever comes before it. -/
theorem lowers_lowerAfter (before text : List Char) : Lowers text (lowerAfter before text) := by
  induction text generalizing before with
  | nil => exact .nil
  | cons c rest ih =>
    rw [lowerAfter]
    by_cases sigma : c = 'Σ'
    · -- Neither form of the small sigma is a plain letter.
      subst sigma
      rw [if_pos rfl]
      exact .other (by decide) (by decide) (by split <;> decide) (ih _)
    rw [if_neg sigma]
    by_cases ascii : c.toNat < 128
    · rw [lowerChar, if_pos ascii]
      exact .ascii ascii (ih _)
    by_cases dotted : c = 'İ'
    · subst dotted
      exact .dotted (ih _)
    · obtain ⟨d, lower, unlike⟩ := lowerChar_beyond (Nat.le_of_not_lt ascii) dotted
      rw [lower]
      exact .other (Nat.le_of_not_lt ascii) dotted unlike (ih _)

/-- Whether a piece of a text reads as a word of small letters: the case of ASCII letters does not
count, and a dotted capital I may stand for the i that a word ends with. -/
inductive ReadsAs : List Char → List Char → Prop
  | nil : ReadsAs [] []
  | cons {c p : Char} {piece word : List Char} :
      c.toLower = p → ReadsAs piece word → ReadsAs (c :: piece) (p :: word)
  | dotted : ReadsAs ['İ'] ['i']

/-- A piece reads as a word if it is the word up to case, or has a dotted capital I for its end. -/
theorem readsAs_iff {piece word : List Char} : ReadsAs piece word ↔
    piece.map Char.toLower = word ∨
      ∃ front, word = front ++ ['i'] ∧ piece.map Char.toLower = front ++ ['İ'] := by
  constructor
  · intro reads
    induction reads with
    | nil => exact .inl rfl
    | cons same _ ih =>
      rcases ih with same' | ⟨front, rfl, dotted⟩
      · exact .inl (by rw [List.map_cons, same, same'])
      · exact .inr ⟨_ :: front, rfl, by rw [List.map_cons, same, dotted]; rfl⟩
    | dotted => exact .inr ⟨[], rfl, rfl⟩
  · rintro (rfl | ⟨front, rfl, dotted⟩)
    · induction piece with
      | nil => exact .nil
      | cons c rest ih => exact .cons rfl ih
    · induction front generalizing piece with
      | nil =>
        obtain ⟨c, rfl, same⟩ := List.map_eq_singleton_iff.mp dotted
        rw [eq_dotted_of_toLower same]
        exact .dotted
      | cons p front ih =>
        obtain ⟨c, rest, rfl, same, dotted⟩ := List.map_eq_cons_iff.mp dotted
        exact .cons same (ih dotted)

namespace Lowers

variable {text low word : List Char}

/-- No word of plain letters is at the start of a text that starts with anything else. -/
theorem prefix_cons_iff_eq_nil {d : Char} (letters : ∀ p ∈ word, IsPlainLetter p)
    (unlike : ¬IsPlainLetter d) : word <+: d :: low ↔ word = [] := by
  cases word with
  | nil => simp
  | cons p rest =>
    have differ : p ≠ d := by
      rintro rfl
      exact unlike (letters p List.mem_cons_self)
    simp [List.cons_prefix_cons, differ]

/-- The lower case of a text starts with the words that pieces at its start read as. -/
theorem prefix_iff (lowers : Lowers text low) (letters : ∀ p ∈ word, IsPlainLetter p) :
    word <+: low ↔ ∃ piece, piece <+: text ∧ ReadsAs piece word := by
  -- One way the text is gone through, as its characters tell what stands in the lower case, and
  -- the other way the word, whose letters tell the characters of the piece.
  constructor
  · intro start
    induction lowers generalizing word with
    | nil =>
      rw [List.prefix_nil] at start
      exact ⟨[], List.nil_prefix, start ▸ .nil⟩
    | ascii _ _ ih =>
      rcases word with _ | ⟨p, word⟩
      · exact ⟨[], List.nil_prefix, .nil⟩
      obtain ⟨same, later⟩ := List.cons_prefix_cons.mp start
      obtain ⟨piece, start, reads⟩ := ih (fun p mem => letters p (List.mem_cons_of_mem _ mem)) later
      exact ⟨_ :: piece, List.cons_prefix_cons.mpr ⟨rfl, start⟩, .cons same.symm reads⟩
    | dotted _ ih =>
      rcases word with _ | ⟨p, word⟩
      · exact ⟨[], List.nil_prefix, .nil⟩
      -- The dot above ends the word.
      obtain ⟨rfl, later⟩ := List.cons_prefix_cons.mp start
      rw [prefix_cons_iff_eq_nil (fun p mem => letters p (List.mem_cons_of_mem _ mem))
        (by decide)] at later
      exact ⟨['İ'], List.cons_prefix_cons.mpr ⟨rfl, List.nil_prefix⟩, later ▸ .dotted⟩
    | other _ _ unlike _ ih =>
      rw [prefix_cons_iff_eq_nil letters unlike] at start
      exact ⟨[], List.nil_prefix, start ▸ .nil⟩
  · rintro ⟨piece, start, reads⟩
    induction reads generalizing text low with
    | nil => exact List.nil_prefix
    | @cons c p piece word same reads ih =>
      have ascii : c.toNat < 128 := toNat_lt_of_toLower (same ▸ letters p List.mem_cons_self)
      obtain ⟨rest, rfl⟩ : ∃ rest, text = c :: rest := by
        obtain ⟨rest, rfl⟩ := start
        exact ⟨_, rfl⟩
      obtain ⟨-, later⟩ := List.cons_prefix_cons.mp start
      cases lowers with
      | ascii _ lowers =>
        exact List.cons_prefix_cons.mpr
          ⟨same.symm, ih lowers (fun p mem => letters p (List.mem_cons_of_mem _ mem)) later⟩
      | dotted => exact absurd ascii (by decide)
      | other beyond => exact absurd ascii (Nat.not_lt.mpr beyond)
    | dotted =>
      obtain ⟨rest, rfl⟩ := start
      cases lowers with
      | ascii ascii => exact absurd ascii (by decide)
      | dotted => exact List.cons_prefix_cons.mpr ⟨rfl, List.nil_prefix⟩
      | other _ undotted => exact absurd rfl undotted

/-- A piece of a text is at its start or in the rest. -/
theorem exists_infix_cons {c : Char} {rest : List Char} :
    (∃ piece, piece <:+: c :: rest ∧ ReadsAs piece word) ↔
      (∃ piece, piece <+: c :: rest ∧ ReadsAs piece word) ∨
        ∃ piece, piece <:+: rest ∧ ReadsAs piece word := by
  simp only [List.infix_cons_iff, or_and_right, exists_or]

/-- The lower case of a text holds the words that pieces of it read as. -/
theorem infix_iff (lowers : Lowers text low) (letters : ∀ p ∈ word, IsPlainLetter p)
    (inhabited : word ≠ []) :
    word <:+: low ↔ ∃ piece, piece <:+: text ∧ ReadsAs piece word := by
  induction lowers with
  | nil =>
    simp only [List.infix_nil, inhabited, exists_eq_left, false_iff]
    intro reads
    cases reads
    exact inhabited rfl
  | ascii ascii lowers ih =>
    rw [List.infix_cons_iff, exists_infix_cons, ih, (Lowers.ascii ascii lowers).prefix_iff letters]
  | dotted lowers ih =>
    rw [List.infix_cons_iff, List.infix_cons_iff, exists_infix_cons, ih,
      lowers.dotted.prefix_iff letters, prefix_cons_iff_eq_nil letters (by decide)]
    simp only [inhabited, false_or]
  | other beyond undotted unlike lowers ih =>
    rw [List.infix_cons_iff, exists_infix_cons, ih,
      (Lowers.other beyond undotted unlike lowers).prefix_iff letters]

end Lowers

end TypeGraph.Text
