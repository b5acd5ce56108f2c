import Capi4Linux.Lib.Bytes
import Mathlib.Data.List.GetD

/-!
# Memory behind a pointer

The memory from a pointer on is a byte function of the offset. It starts with
the bytes of an object; what lies behind them is anything. `strncpy` from such
memory reads up to the first NUL and writes as many bytes as it is told to.
-/

namespace Memory
open Bytes

/-- The memory that starts with `bs` and goes on with `beyond`. -/
def image (bs : Bytes) (beyond : Nat → UInt8) (i : Nat) : UInt8 := bs.getD i (beyond i)

/-- A `strncpy` of `n` bytes from `src` reads the byte at `i`: no NUL comes before it. -/
def Reads (mem : Nat → UInt8) (src n i : Nat) : Prop := src ≤ i ∧ i < src + n ∧ ∀ j, src ≤ j → j < i → mem j ≠ 0

/-- The string that a `strncpy` copies. -/
def copied (mem : Nat → UInt8) (src n : Nat) : Bytes := ((List.range' src n).map mem).takeWhile (· ≠ 0)

/-- What a `strncpy` writes: the string, and NULs behind it. -/
def written (mem : Nat → UInt8) (src n : Nat) : Bytes :=
  copied mem src n ++ List.replicate (n - (copied mem src n).length) 0

/-- The bytes are in memory from `l` on. -/
def Holds (mem : Nat → UInt8) (l : Nat) (bs : Bytes) : Prop := (List.range' l bs.length).map mem = bs

section Holds

variable {mem : Nat → UInt8} {l : Nat} {a b : Bytes}

theorem holds_append : Holds mem l (a ++ b) ↔ Holds mem l a ∧ Holds mem (l + a.length) b := by
  unfold Holds
  rw [List.length_append, ← List.range'_append_1, List.map_append]
  constructor
  · intro both
    exact List.append_inj both (by rw [List.length_map, List.length_range'])
  · rintro ⟨first, second⟩
    rw [first, second]

theorem holds_cons {x : UInt8} : Holds mem l (x :: b) ↔ mem l = x ∧ Holds mem (l + 1) b := by
  unfold Holds
  rw [List.length_cons, List.range'_succ, List.map_cons, List.cons.injEq]

end Holds

section Image

variable {mem beyond : Nat → UInt8} {bs : Bytes} {src n : Nat}

@[simp] theorem image_append (a b : Bytes) (beyond : Nat → UInt8) (i : Nat) :
    image (a ++ b) beyond (a.length + i) = image b (fun j => beyond (a.length + j)) i := by
  unfold image
  rw [List.getD_append_right _ _ _ _ (Nat.le_add_right _ _), Nat.add_sub_cancel_left]

theorem image_of_lt (inside : n < bs.length) (beyond : Nat → UInt8) : image bs beyond n = bs.getD n 0 := by
  unfold image
  rw [List.getD_eq_getElem _ _ inside, List.getD_eq_getElem _ _ inside]

/-- Bytes that lie in the object. -/
theorem map_image (inside : src + n ≤ bs.length) (beyond : Nat → UInt8) :
    (List.range' src n).map (image bs beyond) = (bs.drop src).take n := by
  apply List.ext_getElem
  · simp only [List.length_map, List.length_range', List.length_take, List.length_drop]
    omega
  · intro i first second
    have within : src + i < bs.length := by
      simp only [List.length_map, List.length_range'] at first
      omega
    simp only [List.getElem_map, List.getElem_range', Nat.one_mul, List.getElem_take, List.getElem_drop]
    exact List.getD_eq_getElem _ _ within

end Image

section Strncpy

variable {mem : Nat → UInt8} {src n : Nat}

theorem length_copied_le (mem : Nat → UInt8) (src n : Nat) : (copied mem src n).length ≤ n := by
  have bound := (List.takeWhile_sublist (fun b : UInt8 => b ≠ 0) (l := (List.range' src n).map mem)).length_le
  rw [List.length_map, List.length_range'] at bound
  exact bound

@[simp] theorem length_written (mem : Nat → UInt8) (src n : Nat) : (written mem src n).length = n := by
  have bound := length_copied_le mem src n
  unfold written
  rw [List.length_append, List.length_replicate]
  omega

end Strncpy

end Memory
