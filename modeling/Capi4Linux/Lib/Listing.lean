import Mathlib.Data.List.Basic

/-!
# Listings that are read in parts

A listing is a list of lines. Lines before an offset are skipped whole, the
lines from there on are kept until they hold enough, and what is left of the
offset says where in the first kept line the reader is.
-/

namespace Listing

variable {α : Type*} {count off off' : Nat} {kept kept' : List α} {lines : List (List α)}

/-- The lines that are kept, and the offset in them. -/
def scan (count : Nat) : List (List α) → List α → Nat → List α × Nat
  | [], kept, off => (kept, off)
  | line :: lines, kept, off =>
    if (kept ++ line).length ≤ off then scan count lines [] (off - (kept ++ line).length)
    else if (kept ++ line).length - off > count then (kept ++ line, off)
    else scan count lines (kept ++ line) off

/-- Some lines have this length. -/
def Boundary (lines : List (List α)) (off : Nat) : Prop := ∃ pre, pre <+: lines ∧ pre.flatten.length = off

/-- How a scan ends: whole lines are skipped, the reader is in the first line that is kept, and either enough is kept
or there are no more lines. -/
structure Scanned (count : Nat) (lines : List (List α)) (off : Nat) (kept : List α) (off' : Nat) : Prop where
  split : ∃ skipped taken rest, lines = skipped ++ taken ++ rest ∧ taken.flatten = kept ∧
    skipped.flatten.length + off' = off ∧ (∀ line ∈ taken.head?, off' < line.length) ∧
    (rest = [] ∧ kept.length - off' ≤ count ∨ taken ≠ [] ∧ count < kept.length - off')

/-- Behind lines that were skipped, some lines are kept. -/
theorem scanned_scan {skipped taken : List (List α)} (whole : skipped.flatten.length + off' = off)
    (head : ∀ line ∈ taken.head?, off' < line.length) (few : taken.flatten.length - off' ≤ count) :
    Scanned count (skipped ++ taken ++ lines) off (scan count lines taken.flatten off').1
      (scan count lines taken.flatten off').2 := by
  induction lines generalizing skipped taken off' with
  | nil => exact ⟨skipped, taken, [], rfl, rfl, whole, head, .inl ⟨rfl, few⟩⟩
  | cons line lines ih =>
    have regroup : skipped ++ taken ++ line :: lines = skipped ++ (taken ++ [line]) ++ lines := by
      simp only [List.append_assoc, List.cons_append, List.nil_append]
    have flat : (taken ++ [line]).flatten = taken.flatten ++ line := by
      rw [List.flatten_append, List.flatten_singleton]
    unfold scan
    split
    · rename_i passed
      have whole' : (skipped ++ (taken ++ [line])).flatten.length + (off' - (taken.flatten ++ line).length) = off := by
        rw [List.flatten_append, List.length_append, flat]
        omega
      have few' : ([] : List (List α)).flatten.length - (off' - (taken.flatten ++ line).length) ≤ count := by
        show 0 - _ ≤ count
        omega
      have more := ih whole' (fun _ none => by cases none) few'
      rw [List.append_nil] at more
      rw [regroup]
      exact more
    · rename_i inside
      have head' : ∀ first ∈ (taken ++ [line]).head?, off' < first.length := by
        intro first member
        cases taken with
        | nil =>
          cases member
          rw [List.flatten_nil, List.nil_append] at inside
          exact Nat.lt_of_not_le inside
        | cons other taken => exact head first member
      split
      · rename_i enough
        refine ⟨skipped, taken ++ [line], lines, regroup, flat, whole, head', .inr ⟨?_, enough⟩⟩
        exact List.append_ne_nil_of_right_ne_nil _ (List.cons_ne_nil _ _)
      · rename_i little
        have few' : (taken ++ [line]).flatten.length - off' ≤ count := by
          rw [flat]
          omega
        have more := ih whole head' few'
        rw [regroup, ← flat]
        exact more

theorem scan_scanned (count : Nat) (lines : List (List α)) (off : Nat) :
    Scanned count lines off (scan count lines [] off).1 (scan count lines [] off).2 := by
  have whole : ([] : List (List α)).flatten.length + off = off := Nat.zero_add off
  have few : ([] : List (List α)).flatten.length - off ≤ count := by
    show 0 - _ ≤ count
    omega
  exact scanned_scan whole (fun _ none => by cases none) few

/-- The rest of the listing starts with what is kept, and is no more than that if too little is kept. -/
theorem Scanned.drop (scanned : Scanned count lines off kept off') (inside : off ≤ lines.flatten.length) :
    off' ≤ kept.length ∧ ∃ rest, lines.flatten.drop off = kept.drop off' ++ rest ∧
      (rest = [] ∧ kept.length - off' ≤ count ∨ count < kept.length - off') := by
  obtain ⟨skipped, taken, rest, rfl, rfl, rfl, head, ends⟩ := scanned.split
  rw [List.flatten_append, List.flatten_append, List.append_assoc] at inside ⊢
  have within : off' ≤ taken.flatten.length := by
    cases taken with
    | nil =>
      rcases ends with ⟨rfl, -⟩ | ⟨filled, -⟩
      · rw [List.length_append] at inside
        exact Nat.le_of_add_le_add_left inside
      · exact absurd rfl filled
    | cons line taken =>
      have first := head line rfl
      rw [List.flatten_cons, List.length_append]
      omega
  refine ⟨within, rest.flatten, ?_, ?_⟩
  · rw [List.drop_append, List.drop_eq_nil_of_le (Nat.le_add_right _ _), List.nil_append, Nat.add_sub_cancel_left,
      List.drop_append_of_le_length within]
  · rcases ends with ⟨rfl, few⟩ | ⟨-, enough⟩
    · exact .inl ⟨rfl, few⟩
    · exact .inr enough

/-- The offset is between two lines when nothing is left of it. -/
theorem Scanned.boundary_iff (scanned : Scanned count lines off kept off') (inside : off ≤ lines.flatten.length) :
    Boundary lines off ↔ off' = 0 := by
  have within := (scanned.drop inside).1
  obtain ⟨skipped, taken, rest, rfl, rfl, rfl, head, -⟩ := scanned.split
  constructor
  · rintro ⟨pre, starts, size⟩
    have whole : skipped <+: skipped ++ taken ++ rest := by
      rw [List.append_assoc]
      exact List.prefix_append _ _
    rcases List.prefix_or_prefix_of_prefix starts whole with ⟨more, rfl⟩ | ⟨more, rfl⟩
    · rw [List.flatten_append, List.length_append] at size
      omega
    · rw [List.append_assoc, List.prefix_append_right_inj] at starts
      rw [List.flatten_append, List.length_append, Nat.add_left_cancel_iff] at size
      cases taken with
      | nil => exact Nat.le_zero.mp within
      | cons line taken =>
        cases more with
        | nil => exact size.symm
        | cons first more =>
          obtain ⟨rfl, -⟩ := List.cons_prefix_cons.mp starts
          have short := head first rfl
          rw [List.flatten_cons, List.length_append] at size
          omega
  · rintro rfl
    refine ⟨skipped, ?_, rfl⟩
    rw [List.append_assoc]
    exact List.prefix_append _ _

end Listing
