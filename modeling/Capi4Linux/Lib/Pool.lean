import Mathlib.Data.List.Basic
import Mathlib.Logic.Function.Basic

/-!
# Singly linked lists over a pool of cells

The cells of a pool are named by `ι` and linked by `next : ι → Option ι`.
`Seg next p xs q` says that following the links from `p` visits the cells `xs`
in this order and ends at `q`; a list is a segment that ends at `none`.
-/

namespace Pool

variable {ι : Type*} {next next' : ι → Option ι}

/-- From `p` the links visit `xs` and then stand at `q`. -/
def Seg (next : ι → Option ι) : Option ι → List ι → Option ι → Prop
  | p, [], q => p = q
  | p, i :: is, q => p = some i ∧ Seg next (next i) is q

/-- A null-terminated list. -/
abbrev Chain (next : ι → Option ι) (p : Option ι) (xs : List ι) : Prop := Seg next p xs none

@[simp] theorem seg_nil {p q : Option ι} : Seg next p [] q ↔ p = q := Iff.rfl

@[simp] theorem seg_cons {p q : Option ι} {i : ι} {is : List ι} :
    Seg next p (i :: is) q ↔ p = some i ∧ Seg next (next i) is q := Iff.rfl

theorem seg_append {p q : Option ι} {xs ys : List ι} :
    Seg next p (xs ++ ys) q ↔ ∃ r, Seg next p xs r ∧ Seg next r ys q := by
  induction xs generalizing p with
  | nil => simp
  | cons i is ih => simp only [List.cons_append, seg_cons, ih]; tauto

/-- Links of cells off the segment do not matter. -/
theorem Seg.frame {p q : Option ι} {xs : List ι} (h : Seg next p xs q)
    (same : ∀ i ∈ xs, next' i = next i) : Seg next' p xs q := by
  induction xs generalizing p with
  | nil => exact h
  | cons i is ih =>
    refine ⟨h.1, ?_⟩
    rw [same i (by simp)]
    exact ih h.2 fun j hj => same j (by simp [hj])

/-- The links determine the cells of a list. -/
theorem Seg.unique {p : Option ι} {xs ys : List ι} (h : Chain next p xs) (h' : Chain next p ys) :
    xs = ys := by
  induction xs generalizing p ys with
  | nil =>
    cases ys with
    | nil => rfl
    | cons j js => cases (seg_nil.1 h).symm.trans h'.1
  | cons i is ih =>
    cases ys with
    | nil => cases (seg_nil.1 h').symm.trans h.1
    | cons j js =>
      obtain rfl : i = j := Option.some.inj (h.1.symm.trans h'.1)
      rw [ih h.2 h'.2]

theorem Seg.head_eq {p : Option ι} {xs : List ι} (h : Chain next p xs) : p = xs.head? := by
  cases xs with
  | nil => exact h
  | cons i is => exact h.1

variable [DecidableEq ι]

theorem Seg.update {p q : Option ι} {xs : List ι} {j : ι} (v : Option ι) (h : Seg next p xs q)
    (off : j ∉ xs) : Seg (Function.update next j v) p xs q :=
  h.frame fun i hi => Function.update_of_ne (fun e : i = j => off (e ▸ hi)) _ _

/-- Redirecting the last link of a segment moves its end. -/
theorem Seg.redirect {p q r : Option ι} {xs : List ι} {l : ι} (h : Seg next p (xs ++ [l]) q)
    (once : l ∉ xs) : Seg (Function.update next l r) p (xs ++ [l]) r := by
  obtain ⟨m, front, back⟩ := seg_append.1 h
  exact seg_append.2 ⟨m, front.update r once, back.1, by simp⟩

end Pool
