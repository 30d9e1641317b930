/-!
# Ranges: classes of characters given by code points

A character class of the Unicode standard is a list of closed intervals of code points.  Membership
is a plain scan of that list, so a fact about a whole class is a fact about its finitely many
intervals.
-/

namespace Formulary.Text

/-- A class of characters: closed intervals of code points. -/
abbrev Ranges := List (Nat × Nat)

def Ranges.contains (ranges : Ranges) (c : Char) : Bool :=
  ranges.any fun r => r.1 ≤ c.toNat && c.toNat ≤ r.2

theorem Ranges.contains_iff (ranges : Ranges) (c : Char) :
    ranges.contains c = true ↔ ∃ r ∈ ranges, r.1 ≤ c.toNat ∧ c.toNat ≤ r.2 := by
  simp [Ranges.contains, List.any_eq_true]

/-- What holds of every code point between the ends of every interval holds of every member. -/
theorem Ranges.forall_of_contains {ranges : Ranges} {P : Nat → Prop}
    (h : ∀ r ∈ ranges, ∀ n, r.1 ≤ n → n ≤ r.2 → P n) {c : Char}
    (hc : ranges.contains c = true) : P c.toNat := by
  obtain ⟨r, hr, hlo, hhi⟩ := (Ranges.contains_iff ranges c).1 hc
  exact h r hr c.toNat hlo hhi

end Formulary.Text
