import Formulary.Proofs.Arithmetic.Grammar
import Formulary.Symbol

/-!
# Formulas as expressions

In a formula, `^` and `/` bind most tightly, both alike and from left to right; then come signs and
`*`, then `+` and `-`.  A product with a bracket may leave out its `*`, and is read as if it stood
there (`withTimes`).
-/

namespace Formulary.Arithmetic

/-- The roles of the words of a formula, for given values of its operands and a given meaning of
powers. -/
def formulaRules (value : String → ℚ) (power : ℚ → ℚ → ℚ) : Rules where
  operand word := if Symbol.isOperator word then none else some (value word)
  tight word := if word = "^" then some power else if word = "/" then some (· / ·) else none
  product word := if word = "*" then some (· * ·) else none
  call _ := none

/-- Does a value end with the word? -/
def endsValue (word : String) : Bool :=
  !Symbol.isOperator word || word == ")"

/-- The words with a `*` in front of every opening bracket that follows a value; the flag says
whether a value stands before them. -/
def withTimes (after : Bool) : List String → List String
  | [] => []
  | word :: rest =>
    if after && word == "(" then "*" :: word :: withTimes false rest
    else word :: withTimes (endsValue word) rest

section

variable {after : Bool} {word : String} {words rest xs ys : List String}

theorem withTimes_cons_false :
    withTimes false (word :: rest) = word :: withTimes (endsValue word) rest := rfl

theorem withTimes_cons_opening :
    withTimes true ("(" :: rest) = "*" :: "(" :: withTimes false rest := rfl

-- the first word stays first if no value stands before
theorem eq_cons_of_withTimes (h : withTimes false words = word :: ys) :
    ∃ back, words = word :: back ∧ ys = withTimes (endsValue word) back := by
  cases words with
  | nil => exact absurd h (by simp [withTimes])
  | cons first back =>
    rw [withTimes_cons_false] at h
    obtain ⟨rfl, rfl⟩ := List.cons.inj h
    exact ⟨back, rfl, rfl⟩

theorem eq_nil_of_withTimes (h : withTimes after words = []) : words = [] := by
  cases words with
  | nil => rfl
  | cons first rest =>
    rw [withTimes] at h
    split at h <;> exact absurd h (by simp)

/-- Where the words with their `*` are cut at a word, the words without are cut too: at the same
word, or where a `*` was left out. -/
theorem withTimes_split (hword : word ≠ "(") (h : withTimes after words = xs ++ word :: ys) :
    (∃ front back, words = front ++ word :: back ∧ xs = withTimes after front ∧
      ys = withTimes (endsValue word) back) ∨
    (word = "*" ∧ ∃ front back, words = front ++ "(" :: back ∧ xs = withTimes after front ∧
      ys = withTimes false ("(" :: back)) := by
  induction words generalizing after xs with
  | nil => exact absurd h (by simp [withTimes])
  | cons first rest ih =>
    by_cases hinserted : (after && first == "(") = true
    · -- a `*` was put in front of the first word, which is a bracket
      obtain ⟨rfl, hfirst⟩ := Bool.and_eq_true_iff.1 hinserted
      obtain rfl := eq_of_beq hfirst
      rw [withTimes_cons_opening] at h
      match xs, h with
      -- the cut is at this very `*`
      | [], h =>
        obtain ⟨rfl, rfl⟩ := List.cons.inj h
        exact .inr ⟨rfl, [], rest, rfl, rfl, rfl⟩
      -- it cannot be at the bracket
      | [_], h =>
        obtain ⟨rfl, -⟩ := List.cons.inj (List.cons.inj h).2
        exact absurd rfl hword
      | a :: b :: xs, h =>
        obtain ⟨rfl, hmore⟩ := List.cons.inj h
        obtain ⟨rfl, htail⟩ := List.cons.inj hmore
        rcases ih htail with ⟨front, back, rfl, rfl, rfl⟩ | ⟨rfl, front, back, rfl, rfl, rfl⟩
        · exact .inl ⟨"(" :: front, back, rfl, rfl, rfl⟩
        · exact .inr ⟨rfl, "(" :: front, back, rfl, rfl, rfl⟩
    · rw [withTimes, if_neg hinserted] at h
      cases xs with
      | nil =>
        obtain ⟨rfl, rfl⟩ := List.cons.inj h
        exact .inl ⟨[], rest, rfl, rfl, rfl⟩
      | cons x xs =>
        obtain ⟨hx, htail⟩ := List.cons.inj h
        subst hx
        have hcons (front : List String) :
            withTimes after (first :: front) = first :: withTimes (endsValue first) front := by
          rw [withTimes, if_neg hinserted]
        rcases ih htail with ⟨front, back, rfl, rfl, rfl⟩ | ⟨rfl, front, back, rfl, rfl, rfl⟩
        · exact .inl ⟨first :: front, back, rfl, (hcons front).symm, rfl⟩
        · exact .inr ⟨rfl, first :: front, back, rfl, (hcons front).symm, rfl⟩

end

end Formulary.Arithmetic
