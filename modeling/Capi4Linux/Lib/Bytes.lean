import Mathlib.Data.List.Basic
import Mathlib.Data.List.TakeDrop
import Mathlib.Tactic.Ring

/-!
# Bytes

Little-endian numbers as byte lists, and reads and writes of a bounded buffer:
an access that leaves the buffer has no result.
-/

/-- The bytes of a buffer, or of the object a pointer points into from there on. -/
abbrev Bytes := List UInt8

namespace Bytes

/-! ## Little-endian numbers -/

/-- The `n` low bytes of `x`, lowest first. -/
def le : Nat → Nat → Bytes
  | 0, _ => []
  | n + 1, x => UInt8.ofNat x :: le n (x / 256)

/-- The number the bytes are, lowest first. -/
def leNat : Bytes → Nat
  | [] => 0
  | b :: bs => b.toNat + 256 * leNat bs

@[simp] theorem length_le (n : Nat) : ∀ x, (le n x).length = n := by
  induction n with
  | zero => intro x; rfl
  | succ n ih => intro x; simp [le, ih]

theorem leNat_le (n : Nat) : ∀ x, leNat (le n x) = x % 256 ^ n := by
  induction n with
  | zero => intro x; simp [le, leNat, Nat.mod_one]
  | succ n ih =>
    intro x
    have split : x % (256 * 256 ^ n) = x % 256 + 256 * (x / 256 % 256 ^ n) := Nat.mod_mul
    simp only [le, leNat, ih, UInt8.toNat_ofNat', Nat.pow_succ']
    omega

theorem leNat_lt : ∀ bs : Bytes, leNat bs < 256 ^ bs.length
  | [] => by simp [leNat]
  | b :: bs => by
    have byte := b.toNat_lt
    have rest := leNat_lt bs
    simp only [leNat, List.length_cons, Nat.pow_succ]
    omega

theorem le_leNat : ∀ bs : Bytes, le bs.length (leNat bs) = bs
  | [] => rfl
  | b :: bs => by
    have byte := b.toNat_lt
    have low : UInt8.ofNat (b.toNat + 256 * leNat bs) = b := by
      apply UInt8.toNat_inj.mp
      simp only [UInt8.toNat_ofNat']
      omega
    have high : (b.toNat + 256 * leNat bs) / 256 = leNat bs := by omega
    simp [le, leNat, low, high, le_leNat bs]

theorem leNat_le_of_lt {n x : Nat} (small : x < 256 ^ n) : leNat (le n x) = x := by
  rw [leNat_le, Nat.mod_eq_of_lt small]

/-! ## Bounded buffers -/

/-- The `n` bytes from `off` on. -/
def peek (m : Bytes) (off n : Nat) : Option Bytes :=
  if off + n ≤ m.length then some ((m.drop off).take n) else none

/-- Write `bs` from `off` on. -/
def poke (m : Bytes) (off : Nat) (bs : Bytes) : Option Bytes :=
  if off + bs.length ≤ m.length then some (m.take off ++ bs ++ m.drop (off + bs.length)) else none

theorem peek_append (a b r : Bytes) : peek (a ++ (b ++ r)) a.length b.length = some b := by
  simp [peek]

theorem peek_length {m bs : Bytes} {off n : Nat} (read : peek m off n = some bs) : bs.length = n := by
  unfold peek at read
  split at read
  · obtain rfl := Option.some.inj read
    simp only [List.length_take, List.length_drop]
    omega
  · cases read

theorem poke_append {a r bs : Bytes} (room : bs.length ≤ r.length) :
    poke (a ++ r) a.length bs = some (a ++ (bs ++ r.drop bs.length)) := by
  have fits : a.length + bs.length ≤ (a ++ r).length := by
    simp only [List.length_append]
    omega
  rw [poke, if_pos fits, List.drop_append, List.drop_eq_nil_of_le (Nat.le_add_right _ _)]
  simp

theorem poke_length {m m' bs : Bytes} {off : Nat} (write : poke m off bs = some m') : m'.length = m.length := by
  unfold poke at write
  split at write
  · obtain rfl := Option.some.inj write
    simp only [List.length_append, List.length_take, List.length_drop]
    omega
  · cases write

/-- A read that lies inside the front part sees the front part only. -/
theorem peek_append_of_le {a r : Bytes} {off n : Nat} (inside : off + n ≤ a.length) :
    peek (a ++ r) off n = peek a off n := by
  have inBoth : off + n ≤ (a ++ r).length := by
    simp only [List.length_append]
    omega
  rw [peek, peek, if_pos inBoth, if_pos inside, List.drop_append_of_le_length (by omega),
    List.take_append_of_le_length (by simp only [List.length_drop]; omega)]

end Bytes
