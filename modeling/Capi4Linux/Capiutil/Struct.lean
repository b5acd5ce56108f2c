import Capi4Linux.Capiutil.Format
import Capi4Linux.Lib.Memory

/-!
# Structs in a message

A `_cstruct` is a pointer to a length and the content it counts. The length is
a byte, or the byte 255 and a word; the word may count any content.
-/

namespace Capi4Linux.Capiutil
open Bytes

/-- The two ways to write the length of a struct. -/
inductive LengthForm where
  | short | escaped
  deriving DecidableEq

namespace LengthForm

/-- The contents that have a length in the form are shorter. -/
def limit : LengthForm → Nat
  | .short => 255
  | .escaped => 65536

def header : LengthForm → Nat → Bytes
  | .short, n => [UInt8.ofNat n]
  | .escaped, n => 0xff :: le 2 n

/-- The size of a header. -/
def width : LengthForm → Nat
  | .short => 1
  | .escaped => 3

@[simp] theorem length_header (form : LengthForm) (n : Nat) : (form.header n).length = form.width := by
  cases form with
  | short => rfl
  | escaped => rfl

end LengthForm

/-- A well-formed struct. -/
structure Struct where
  form : LengthForm
  content : Bytes
  fits : content.length < form.limit

namespace Struct

variable (x : Struct) (rest : Bytes) (beyond : Nat → UInt8)

def bytes : Bytes := x.form.header x.content.length ++ x.content

/-- The offset is one of the content. -/
def InContent (i : Nat) : Prop := x.form.width ≤ i ∧ i < x.form.width + x.content.length

/-- The memory at the struct in a message: `rest` is left of the message, and `beyond` lies behind it. -/
def memory : Nat → UInt8 := Memory.image (x.bytes ++ rest) beyond

@[simp] theorem length_bytes : x.bytes.length = x.form.width + x.content.length := by
  unfold bytes
  rw [List.length_append, LengthForm.length_header]

theorem memory_content {i : Nat} (inside : i < x.content.length) :
    x.memory rest beyond (x.form.width + i) = x.content.getD i 0 := by
  have start := Memory.image_append (x.form.header x.content.length) (x.content ++ rest) beyond i
  rw [LengthForm.length_header, ← List.append_assoc] at start
  have within : i < (x.content ++ rest).length := by
    rw [List.length_append]
    omega
  rw [Memory.image_of_lt within, List.getD_append _ _ _ _ inside] at start
  exact start

/-- Bytes of the content. -/
theorem map_memory {off n : Nat} (inside : off + n ≤ x.content.length) :
    (List.range' (x.form.width + off) n).map (x.memory rest beyond) = (x.content.drop off).take n := by
  have whole : x.form.width + off + n ≤ (x.bytes ++ rest).length := by
    rw [List.length_append, length_bytes]
    omega
  unfold memory
  rw [Memory.map_image whole]
  have split : (x.bytes ++ rest).drop (x.form.width + off) = x.content.drop off ++ rest := by
    unfold bytes
    rw [← LengthForm.length_header x.form x.content.length, List.append_assoc, List.drop_append,
      List.drop_append_of_le_length (by omega)]
    simp
  rw [split, List.take_append_of_le_length]
  rw [List.length_drop]
  omega

/-- The first byte counts the content of a struct in the short form. -/
theorem memory_zero : (x.memory rest beyond 0).toNat = if x.form = .short then x.content.length else 255 := by
  obtain ⟨form, content, fits⟩ := x
  cases form with
  | short =>
    have small : content.length < 255 := fits
    have value : (UInt8.ofNat content.length).toNat = content.length := by
      rw [UInt8.toNat_ofNat']
      omega
    rw [if_pos rfl]
    exact value
  | escaped => rfl

/-- The word behind the byte 255 counts the content of a struct in the escaped form. -/
theorem memory_word (form : x.form = .escaped) :
    (x.memory rest beyond 1).toNat + (x.memory rest beyond 2).toNat * 256 = x.content.length := by
  obtain ⟨form', content, fits⟩ := x
  cases form
  have small : content.length < 65536 := fits
  show (UInt8.ofNat content.length).toNat + (UInt8.ofNat (content.length / 256)).toNat * 256 = content.length
  rw [UInt8.toNat_ofNat', UInt8.toNat_ofNat']
  omega

/-- A struct that can be read is well-formed. -/
theorem of_wellFormed {s : Bytes} (formed : WellFormed (some s)) : ∃ (x : Struct) (rest : Bytes), s = x.bytes ++ rest := by
  obtain ⟨size, sized, inside⟩ := formed
  cases s with
  | nil => cases sized
  | cons n r =>
    rcases eq_or_ne n 0xff with rfl | small
    · match r, sized with
      | lo :: hi :: r, sized =>
        have long : structSize (0xff :: lo :: hi :: r) = some (3 + leNat [lo, hi]) := rfl
        rw [long] at sized
        cases sized
        have count : leNat [lo, hi] ≤ r.length := by
          simp only [List.length_cons] at inside
          omega
        have length : (r.take (leNat [lo, hi])).length = leNat [lo, hi] := List.length_take_of_le count
        refine ⟨⟨.escaped, r.take (leNat [lo, hi]), ?_⟩, r.drop (leNat [lo, hi]), ?_⟩
        · have bound := leNat_lt [lo, hi]
          simp only [List.length_cons, List.length_nil] at bound
          rw [length]
          show leNat [lo, hi] < 65536
          omega
        · have word : le 2 (leNat [lo, hi]) = [lo, hi] := le_leNat [lo, hi]
          show _ = 0xff :: (le 2 (r.take (leNat [lo, hi])).length ++ r.take (leNat [lo, hi]) ++ r.drop (leNat [lo, hi]))
          rw [length, word, List.append_assoc, List.take_append_drop]
          rfl
    · have short : structSize (n :: r) = some (1 + n.toNat) := if_pos small
      cases short.symm.trans sized
      have count : n.toNat ≤ r.length := by
        simp only [List.length_cons] at inside
        omega
      have length : (r.take n.toNat).length = n.toNat := List.length_take_of_le count
      have byte : n.toNat ≠ 255 := fun same => small (UInt8.toNat_inj.mp same)
      refine ⟨⟨.short, r.take n.toNat, ?_⟩, r.drop n.toNat, ?_⟩
      · have most := n.toNat_lt
        rw [length]
        show n.toNat < 255
        omega
      · show _ = UInt8.ofNat (r.take n.toNat).length :: (r.take n.toNat ++ r.drop n.toNat)
        rw [length, UInt8.ofNat_toNat, List.take_append_drop]

end Struct

end Capi4Linux.Capiutil
