import Capi4Linux.Lib.Bytes
import Mathlib.Data.List.GetD
import Mathlib.Data.List.TakeWhile
import Mathlib.Data.Nat.Digits.Defs

/-!
# Formatted text

The bytes that `sprintf` writes for numbers and strings, and the memory it
leaves: the text and the NUL behind it.
-/

namespace Sprintf
open Bytes

/-- The characters of a string, all of them ASCII. -/
def ascii (s : String) : Bytes := s.toList.map fun c => UInt8.ofNat c.toNat

/-- The digits of a number, `0` for zero. -/
def digits (base n : Nat) : Bytes := (Nat.toDigits base n).map fun c => UInt8.ofNat c.toNat

/-- `%d` and `%u` of a number that is not negative. -/
def decimal (n : Nat) : Bytes := digits 10 n

/-- `%x`. -/
def hex (n : Nat) : Bytes := digits 16 n

/-- `%-*s`. -/
def padRight (width : Nat) (s : Bytes) : Bytes := s ++ List.replicate (width - s.length) 32

/-- The width of `%03d` and `%04x`. -/
def zeroPad (width : Nat) (s : Bytes) : Bytes := List.replicate (width - s.length) 48 ++ s

/-- The bytes before the first NUL, which `strlen` counts. -/
def cstring (s : Bytes) : Bytes := s.takeWhile (· ≠ 0)

/-- The memory after a `sprintf` to `dst`. -/
def sprintf (mem : Nat → UInt8) (dst : Nat) (text : Bytes) (i : Nat) : UInt8 :=
  if i < dst then mem i else (text ++ [0]).getD (i - dst) (mem i)

@[simp] theorem length_ascii (s : String) : (ascii s).length = s.length := by
  unfold ascii
  rw [List.length_map, String.length_toList]

theorem length_digits_le {base n k : Nat} (large : 1 < base) (some : 0 < k) (small : n < base ^ k) :
    (digits base n).length ≤ k := by
  unfold digits
  rw [List.length_map]
  exact (Nat.length_toDigits_le_iff large some).mpr small

/-- A number can be read back from its digits. -/
theorem decimal_injective : Function.Injective decimal := by
  intro a b same
  have back (n : Nat) : (decimal n).map (fun c => Char.ofNat c.toNat) = Nat.toDigits 10 n := by
    unfold decimal digits
    rw [List.map_map]
    refine (List.map_congr_left fun c mem => ?_).trans (List.map_id _)
    have digit := Nat.isDigit_of_mem_toDigits (by decide) (by decide) mem
    have small : c.toNat < 256 := by
      simp only [Char.isDigit, Bool.and_eq_true, decide_eq_true_eq] at digit
      have high : c.val.toNat ≤ 57 := UInt32.le_iff_toNat_le.1 digit.2
      exact Nat.lt_of_le_of_lt high (by decide)
    show Char.ofNat (UInt8.ofNat c.toNat).toNat = c
    rw [UInt8.toNat_ofNat_of_lt' small, Char.ofNat_toNat]
  have chars : Nat.toDigits 10 a = Nat.toDigits 10 b := by rw [← back, ← back, same]
  rw [← Nat.ofDigitChars_ten_toDigits (n := a), chars, Nat.ofDigitChars_ten_toDigits]

theorem mem_digits {base n : Nat} {b : UInt8} (pos : 0 < base) (small : base ≤ 10) (mem : b ∈ digits base n) :
    48 ≤ b.toNat ∧ b.toNat ≤ 57 := by
  obtain ⟨c, digit, rfl⟩ := List.mem_map.1 mem
  have isDigit := Nat.isDigit_of_mem_toDigits pos small digit
  simp only [Char.isDigit, Bool.and_eq_true, decide_eq_true_eq] at isDigit
  have low : 48 ≤ c.toNat := UInt32.le_iff_toNat_le.1 isDigit.1
  have high : c.toNat ≤ 57 := UInt32.le_iff_toNat_le.1 isDigit.2
  rw [UInt8.toNat_ofNat']
  omega

theorem length_padRight {width : Nat} {s : Bytes} (fits : s.length ≤ width) : (padRight width s).length = width := by
  unfold padRight
  rw [List.length_append, List.length_replicate]
  omega

theorem length_zeroPad (width : Nat) (s : Bytes) : (zeroPad width s).length = max width s.length := by
  unfold zeroPad
  rw [List.length_append, List.length_replicate]
  omega

/-! ## Text without a NUL -/

def NoNul (s : Bytes) : Prop := ∀ b ∈ s, b ≠ 0

instance (s : Bytes) : Decidable (NoNul s) := List.decidableBAll (· ≠ 0) s

theorem cstring_eq {s : Bytes} (clean : NoNul s) : cstring s = s := by
  unfold cstring
  rw [List.takeWhile_eq_self_iff]
  intro b member
  exact decide_eq_true (clean b member)

theorem NoNul.append {a b : Bytes} (first : NoNul a) (second : NoNul b) : NoNul (a ++ b) := by
  intro x member
  rcases List.mem_append.mp member with here | there
  · exact first x here
  · exact second x there

theorem noNul_replicate {b : UInt8} (n : Nat) (filled : b ≠ 0) : NoNul (List.replicate n b) := by
  intro x member
  rw [List.eq_of_mem_replicate member]
  exact filled

theorem noNul_padRight {s : Bytes} (width : Nat) (clean : NoNul s) : NoNul (padRight width s) :=
  clean.append (noNul_replicate _ (by decide))

theorem noNul_zeroPad {s : Bytes} (width : Nat) (clean : NoNul s) : NoNul (zeroPad width s) :=
  (noNul_replicate _ (by decide)).append clean

theorem digitChar_ne_nul (d : Nat) : UInt8.ofNat (Nat.digitChar d).toNat ≠ 0 := by
  have table : ∀ d < 16, UInt8.ofNat (Nat.digitChar d).toNat ≠ 0 := by decide
  rcases Nat.lt_or_ge d 16 with small | large
  · exact table d small
  · rw [Nat.digitChar_eq_star.mpr large]
    decide

theorem noNul_digits {base : Nat} (large : 1 < base) (n : Nat) : NoNul (digits base n) := by
  induction n using Nat.strongRecOn with
  | ind n ih =>
    unfold digits at ih ⊢
    rw [Nat.toDigits_eq_if large]
    split
    · intro b member
      rw [List.map_singleton, List.mem_singleton] at member
      rw [member]
      exact digitChar_ne_nul n
    · rw [List.map_append]
      apply (ih (n / base) (Nat.div_lt_self (by omega) large)).append
      intro b member
      rw [List.map_singleton, List.mem_singleton] at member
      rw [member]
      exact digitChar_ne_nul (n % base)

/-! ## Memory that is written -/

variable {mem : Nat → UInt8} {kept text : Bytes}

/-- The memory starts with the bytes. -/
def Starts (mem : Nat → UInt8) (kept : Bytes) : Prop := ∀ i b, kept[i]? = some b → mem i = b

theorem Starts.nil (mem : Nat → UInt8) : Starts mem [] := fun _ _ found => by cases found

/-- Text that is printed behind what is there. -/
theorem Starts.sprintf (starts : Starts mem kept) (text : Bytes) :
    Starts (sprintf mem kept.length text) (kept ++ text) := by
  intro i b found
  unfold Sprintf.sprintf
  rcases Nat.lt_or_ge i kept.length with old | new
  · rw [if_pos old]
    rw [List.getElem?_append_left old] at found
    exact starts i b found
  · rw [if_neg (Nat.not_lt.mpr new)]
    rw [List.getElem?_append_right new] at found
    obtain ⟨bound, here⟩ := List.getElem?_eq_some_iff.mp found
    rw [List.getD_append _ _ _ _ bound, List.getD_eq_getElem _ _ bound]
    exact here

/-- The bytes at an offset. -/
theorem Starts.slice (starts : Starts mem kept) {off n : Nat} (inside : off + n ≤ kept.length) :
    (List.range' off n).map mem = (kept.drop off).take n := by
  apply List.ext_getElem
  · rw [List.length_map, List.length_range', List.length_take, List.length_drop]
    omega
  · intro i first second
    have bound : off + i < kept.length := by
      rw [List.length_map, List.length_range'] at first
      omega
    rw [List.getElem_map, List.getElem_range', Nat.one_mul, List.getElem_take, List.getElem_drop]
    exact starts (off + i) _ (List.getElem?_eq_getElem bound)

end Sprintf
