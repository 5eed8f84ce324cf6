/-! Tables of values by number, laid out as trees that are followed down by binary digits. -/

namespace TypeGraph.Java

/-- Values for all numbers of some count of binary digits; the lowest digit is looked at first. -/
inductive Table (α : Type) where
  /-- The same value for all numbers. -/
  | all (a : α)
  /-- Values for even and for odd numbers, by the numbers halved. -/
  | fork (even odd : Table α)

namespace Table

variable {α : Type}

/-- The value for a number. -/
def get : Table α → Nat → α
  | all a, _ => a
  | fork even odd, n => if n % 2 = 0 then even.get (n / 2) else odd.get (n / 2)

/-- The table with another value for a number of at most some count of digits. -/
def set (a : α) : Nat → Nat → Table α → Table α
  | 0, _, _ => all a
  | digits + 1, n, all b =>
    if n % 2 = 0 then fork (set a digits (n / 2) (all b)) (all b)
    else fork (all b) (set a digits (n / 2) (all b))
  | digits + 1, n, fork even odd =>
    if n % 2 = 0 then fork (set a digits (n / 2) even) odd
    else fork even (set a digits (n / 2) odd)

/-- The value put for a number is the value for that number. -/
theorem get_set (a : α) (digits n : Nat) (t : Table α) : (set a digits n t).get n = a := by
  -- Both go down by the same digits, and the way down ends where the value was put.
  induction digits generalizing n t with
  | zero => rfl
  | succ digits ih => cases t <;> by_cases even : n % 2 = 0 <;> simp [set, get, even, ih]

/-- The values for all other numbers with as many digits stay. -/
theorem get_set_ne (a : α) (digits m n : Nat) (t : Table α) (other : m ≠ n)
    (inside : m < 1 <<< digits) (bound : n < 1 <<< digits) :
    (set a digits n t).get m = t.get m := by
  -- The two ways down part at the first digit in which the numbers differ.
  induction digits generalizing m n t with
  | zero => omega
  | succ digits ih =>
    have halves : m % 2 = n % 2 → m / 2 ≠ n / 2 := by omega
    cases t <;> by_cases even : n % 2 = 0 <;> by_cases even' : m % 2 = 0 <;>
      simp only [set, get, even, even', if_true, if_false]
    all_goals first
      | rfl
      | exact ih _ _ _ (halves (by omega)) (by omega) (by omega)

end Table

end TypeGraph.Java
