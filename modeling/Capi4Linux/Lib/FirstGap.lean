import Mathlib.Data.List.Basic
import Mathlib.Data.List.Range
import Mathlib.Order.Bounds.Basic

/-!
# First gaps of increasing lists

Numbers are handed out from a list of those in use, kept in increasing order:
walk along the list while it counts up without a hole, and take the number at
which the walk stops. `passed n xs` is how far the walk from `n` gets.
-/

namespace FirstGap

/-- How many elements of `xs` the walk passes that looks for `n, n + 1, …`. -/
def passed : Nat → List Nat → Nat
  | _, [] => 0
  | n, x :: xs => if n < x then 0 else passed (n + 1) xs + 1

/-- The number the walk stops at. -/
def gap (n : Nat) (xs : List Nat) : Nat := n + passed n xs

theorem passed_hole {n x : Nat} {xs : List Nat} (h : n < x) : passed n (x :: xs) = 0 := by
  rw [passed, if_pos h]

theorem passed_taken {n x : Nat} {xs : List Nat} (h : ¬ n < x) :
    passed n (x :: xs) = passed (n + 1) xs + 1 := by
  rw [passed, if_neg h]

theorem passed_le (xs : List Nat) : ∀ n, passed n xs ≤ xs.length := by
  induction xs with
  | nil => intro n; exact Nat.le_refl 0
  | cons x xs ih =>
    intro n
    by_cases h : n < x
    · rw [passed_hole h]; exact Nat.zero_le _
    · rw [passed_taken h]; exact Nat.succ_le_succ (ih (n + 1))

section Increasing

variable {n : Nat} {xs : List Nat}

/-- What is passed counts up from `n`. -/
theorem take_passed (xs : List Nat) : ∀ n, xs.Pairwise (· < ·) → (∀ x ∈ xs, n ≤ x) →
    xs.take (passed n xs) = List.range' n (passed n xs) := by
  induction xs with
  | nil => intro n _ _; rfl
  | cons x xs ih =>
    intro n inc low
    by_cases h : n < x
    · rw [passed_hole h]; rfl
    · obtain rfl : n = x := by have := low x (by simp); omega
      obtain ⟨above, inc⟩ := List.pairwise_cons.1 inc
      rw [passed_taken h, List.take_succ_cons, List.range'_succ, ih (n + 1) inc fun y hy => above y hy]

/-- What is not passed lies beyond the gap. -/
theorem gap_lt_drop (xs : List Nat) : ∀ n, xs.Pairwise (· < ·) → (∀ x ∈ xs, n ≤ x) →
    ∀ x ∈ xs.drop (passed n xs), gap n xs < x := by
  induction xs with
  | nil => intro n _ _ x hx; simp at hx
  | cons x xs ih =>
    intro n inc low y hy
    obtain ⟨above, rest⟩ := List.pairwise_cons.1 inc
    by_cases h : n < x
    · rw [passed_hole h, List.drop_zero] at hy
      rw [gap, passed_hole h]
      rcases List.mem_cons.1 hy with rfl | hy
      · exact h
      · exact h.trans (above y hy)
    · obtain rfl : n = x := by have := low x (by simp); omega
      rw [passed_taken h, List.drop_succ_cons] at hy
      have beyond := ih (n + 1) rest (fun y hy => above y hy) y hy
      rw [gap] at beyond ⊢
      rw [passed_taken h]
      omega

/-- The gap is the least number from `n` on that the list does not hold. -/
theorem gap_isLeast (inc : xs.Pairwise (· < ·)) (low : ∀ x ∈ xs, n ≤ x) :
    IsLeast {m | n ≤ m ∧ m ∉ xs} (gap n xs) := by
  have front := take_passed xs n inc low
  have back := gap_lt_drop xs n inc low
  constructor
  · refine ⟨Nat.le_add_right _ _, fun found => ?_⟩
    have parts : gap n xs ∈ xs.take (passed n xs) ∨ gap n xs ∈ xs.drop (passed n xs) :=
      List.mem_append.1 ((List.take_append_drop (passed n xs) xs).symm ▸ found)
    rcases parts with below | beyond
    · rw [front, List.mem_range'_1] at below
      exact Nat.lt_irrefl _ below.2
    · exact Nat.lt_irrefl _ (back _ beyond)
  · rintro m ⟨from_n, unused⟩
    by_contra below
    refine unused (List.mem_of_mem_take (i := passed n xs) ?_)
    rw [front, List.mem_range'_1]
    unfold gap at below
    omega

/-- Putting the gap where the walk stopped keeps the list increasing. -/
theorem insert_gap (inc : xs.Pairwise (· < ·)) (low : ∀ x ∈ xs, n ≤ x) :
    (xs.take (passed n xs) ++ gap n xs :: xs.drop (passed n xs)).Pairwise (· < ·) := by
  have front := take_passed xs n inc low
  have back := gap_lt_drop xs n inc low
  have below : ∀ x ∈ xs.take (passed n xs), x < gap n xs := by
    intro x hx
    rw [front, List.mem_range'_1] at hx
    exact hx.2
  refine List.pairwise_append.2 ⟨inc.sublist (List.take_sublist _ _), ?_, ?_⟩
  · exact List.pairwise_cons.2 ⟨back, inc.sublist (List.drop_sublist _ _)⟩
  · intro x hx y hy
    rcases List.mem_cons.1 hy with rfl | hy
    · exact below x hx
    · exact (below x hx).trans (back y hy)

/-- An increasing list within bounds is no longer than the interval. -/
theorem length_le_of_bounds (xs : List Nat) : ∀ lo hi : Nat, xs.Pairwise (· < ·) →
    (∀ x ∈ xs, lo < x ∧ x ≤ hi) → xs.length ≤ hi - lo := by
  induction xs with
  | nil => intro lo hi _ _; exact Nat.zero_le _
  | cons x xs ih =>
    intro lo hi inc bounds
    obtain ⟨above, inc⟩ := List.pairwise_cons.1 inc
    have hx := bounds x (by simp)
    have := ih x hi inc fun y hy => ⟨above y hy, (bounds y (by simp [hy])).2⟩
    rw [List.length_cons]
    omega

end Increasing

end FirstGap
