import Mathlib.Data.List.Basic
import Mathlib.Logic.Function.Basic

/-!
# Ring buffers without a count

The cells are `0` to `last`. Two cursors move through them, each going back to
the first cell from behind the last one, and nothing says how many cells are in
use: with all of them in use the cursors are equal, as they are with none.
Users who keep count get a queue.
-/

structure RingBuffer (α : Type*) where
  cells : Nat → α
  read : Nat
  write : Nat

namespace RingBuffer

variable {α : Type*} {last : Nat} {r : RingBuffer α} {q : List α} {a : α}

/-- The cell behind `i`. -/
def bump (last i : Nat) : Nat := if i + 1 > last then 0 else i + 1

def put (last : Nat) (r : RingBuffer α) (a : α) : RingBuffer α :=
  { r with cells := Function.update r.cells r.write a, write := bump last r.write }

/-- The next `n` cells. -/
def gets (last : Nat) : Nat → RingBuffer α → List α × RingBuffer α
  | 0, r => ([], r)
  | n + 1, r =>
    let (as, r') := gets last n { r with read := bump last r.read }
    (r.cells r.read :: as, r')

/-- The cells in use are `q`, the oldest first. -/
structure Holds (last : Nat) (r : RingBuffer α) (q : List α) : Prop where
  inside : r.read ≤ last
  room : q.length ≤ last + 1
  write : r.write = (r.read + q.length) % (last + 1)
  cells : ∀ i a, q[i]? = some a → r.cells ((r.read + i) % (last + 1)) = a

theorem bump_le (last i : Nat) : bump last i ≤ last := by
  unfold bump
  split
  · omega
  · omega

theorem bump_eq {i : Nat} (inside : i ≤ last) : bump last i = (i + 1) % (last + 1) := by
  unfold bump
  split
  · have full : i + 1 = last + 1 := by omega
    rw [full, Nat.mod_self]
  · rw [Nat.mod_eq_of_lt (by omega)]

/-- A position that has gone round once at most. -/
theorem mod_eq_sub {n k : Nat} (once : k < n + n) : k % n = if k < n then k else k - n := by
  split
  · apply Nat.mod_eq_of_lt
    assumption
  · rw [Nat.mod_eq_sub_mod (by omega), Nat.mod_eq_of_lt (by omega)]

theorem Holds.write_le (holds : Holds last r q) : r.write ≤ last := by
  rw [holds.write]
  exact Nat.le_of_lt_succ (Nat.mod_lt _ (Nat.succ_pos last))

/-- Cursors at the same cell, and nothing in use. -/
theorem Holds.nil (inside : r.read ≤ last) (same : r.write = r.read) : Holds last r [] where
  inside := inside
  room := Nat.zero_le _
  write := by
    rw [same]
    exact (Nat.mod_eq_of_lt (Nat.lt_succ_of_le inside)).symm
  cells i a found := by cases found

theorem Holds.put (holds : Holds last r q) (room : q.length ≤ last) (a : α) : Holds last (r.put last a) (q ++ [a]) where
  inside := holds.inside
  room := by
    rw [List.length_append]
    exact Nat.succ_le_succ room
  write := by
    show bump last r.write = _
    rw [bump_eq holds.write_le, holds.write, Nat.mod_add_mod, List.length_append]
    rfl
  cells i b found := by
    have inside := holds.inside
    show Function.update r.cells r.write a ((r.read + i) % (last + 1)) = b
    rcases Nat.lt_or_ge i q.length with old | new
    · rw [List.getElem?_append_left old] at found
      have elsewhere : (r.read + i) % (last + 1) ≠ r.write := by
        rw [holds.write, mod_eq_sub (by omega), mod_eq_sub (by omega)]
        split
        · split
          · omega
          · omega
        · split
          · omega
          · omega
      rw [Function.update_of_ne elsewhere]
      exact holds.cells i b found
    · have here : i = q.length := by
        have bound := (List.getElem?_eq_some_iff.mp found).1
        rw [List.length_append] at bound
        exact Nat.le_antisymm (Nat.lt_succ_iff.mp bound) new
      subst here
      rw [List.getElem?_concat_length] at found
      rw [← holds.write, Function.update_self]
      exact Option.some.inj found

/-- The oldest cell is the one that is read. -/
theorem Holds.head (holds : Holds last r (a :: q)) : r.cells r.read = a := by
  have first := holds.cells 0 a rfl
  rwa [Nat.add_zero, Nat.mod_eq_of_lt (Nat.lt_succ_of_le holds.inside)] at first

theorem Holds.tail (holds : Holds last r (a :: q)) : Holds last { r with read := bump last r.read } q where
  inside := bump_le last r.read
  room := Nat.le_of_succ_le holds.room
  write := by
    rw [bump_eq holds.inside, Nat.mod_add_mod, holds.write, List.length_cons]
    congr 1
    omega
  cells i b found := by
    have next := holds.cells (i + 1) b found
    show r.cells ((bump last r.read + i) % (last + 1)) = b
    rw [bump_eq holds.inside, Nat.mod_add_mod, Nat.add_assoc, Nat.add_comm 1 i]
    exact next

theorem Holds.puts (holds : Holds last r q) {as : List α} (room : q.length + as.length ≤ last + 1) :
    Holds last (as.foldl (RingBuffer.put last) r) (q ++ as) := by
  induction as generalizing r q with
  | nil =>
    rw [List.append_nil]
    exact holds
  | cons a as ih =>
    rw [List.length_cons] at room
    have first := holds.put (by omega) a
    have rest := ih first (by rw [List.length_append, List.length_singleton]; omega)
    rwa [List.append_assoc] at rest

/-- The oldest cells are read, in order. -/
theorem Holds.gets {as : List α} (holds : Holds last r (as ++ q)) :
    (gets last as.length r).1 = as ∧ Holds last (gets last as.length r).2 q := by
  induction as generalizing r with
  | nil => exact ⟨rfl, holds⟩
  | cons a as ih =>
    obtain ⟨same, left⟩ := ih holds.tail
    constructor
    · show r.cells r.read :: _ = _
      rw [same, Holds.head holds]
    · exact left

theorem gets_cells (last n : Nat) (r : RingBuffer α) : (RingBuffer.gets last n r).2.cells = r.cells := by
  induction n generalizing r with
  | zero => rfl
  | succ n ih => exact ih { r with read := bump last r.read }

/-- No cell behind the last one is written. -/
theorem puts_frame (inside : r.write ≤ last) (as : List α) {i : Nat} (behind : last < i) :
    (as.foldl (put last) r).cells i = r.cells i := by
  induction as generalizing r with
  | nil => rfl
  | cons a as ih =>
    rw [List.foldl_cons, ih (bump_le last r.write)]
    exact Function.update_of_ne (by omega) _ _

theorem puts_write_le (inside : r.write ≤ last) (as : List α) : (as.foldl (put last) r).write ≤ last := by
  induction as generalizing r with
  | nil => exact inside
  | cons a as ih => exact ih (bump_le last r.write)

theorem gets_read_le (inside : r.read ≤ last) (n : Nat) : (RingBuffer.gets last n r).2.read ≤ last := by
  induction n generalizing r with
  | zero => exact inside
  | succ n ih => exact ih (bump_le last r.read)

end RingBuffer
