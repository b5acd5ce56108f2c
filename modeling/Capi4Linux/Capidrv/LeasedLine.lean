import Capi4Linux.Capidrv.Convert

/-!
# Leased line numbers

`decodeFVteln` with the arithmetic of C: a number is an `int`, the loop over a
range counts an `int` up to the larger bound, and only shifts by 0 to 30 are
defined. The grammar of the lines is stated apart from the parser.
-/

namespace Capi4Linux.Capidrv.LeasedLine
open Bytes

/-! ## The parser -/

def INT_MIN : Int := -2147483648
def INT_MAX : Int := 2147483647

/-- What C leaves open: the `int` after an overflow, and `1 << n` for the other `n`. -/
structure Undefined where
  overflow : Int → Int
  isInt : ∀ x, INT_MIN ≤ overflow x ∧ overflow x ≤ INT_MAX
  shift : Int → UInt64

namespace Undefined

variable (u : Undefined)

/-- The result of an `int` operation. -/
def int (x : Int) : Int := if INT_MIN ≤ x ∧ x ≤ INT_MAX then x else u.overflow x

/-- Two's complement, and an `int` shifted by a count modulo 32. -/
def wrapping : Undefined where
  overflow x := (x + 2147483648) % 4294967296 - 2147483648
  isInt x := by
    unfold INT_MIN INT_MAX
    omega
  shift n := if n % 32 = 31 then 0xFFFFFFFF80000000 else UInt64.ofNat (2 ^ (n % 32).toNat)

/-- `1 << n`. -/
def bit (n : Int) : UInt64 := if 0 ≤ n ∧ n ≤ 30 then 1 <<< UInt64.ofNat n.toNat else u.shift n

end Undefined

section Parser

variable (u : Undefined)

/-- `while (isdigit(*s)) { digit = digit*10 + (*s - '0'); s++; }` -/
def number (digit : Int) : Bytes → Int × Bytes
  | [] => (digit, [])
  | c :: s => if isdigit c then number (u.int (u.int (digit * 10) + ((c.toNat : Int) - 48))) s else (digit, c :: s)

/-- `for (; i <= last; i++) bmask |= (1 << i);` with a bound on its turns. -/
def rangeLoop : Nat → UInt64 → Int → Int → Option UInt64
  | 0, _, _, _ => none
  | fuel + 1, bmask, i, last => if i ≤ last then rangeLoop fuel (bmask ||| u.bit i) (u.int (i + 1)) last else some bmask

/-- One turn of the outer loop: an error code, or the mask and what is left. -/
def item (fuel : Nat) (bmask : UInt64) (s : Bytes) : Option (Int ⊕ (UInt64 × Bytes)) :=
  if ¬ s.head?.any isdigit then some (.inl (-3))
  else
    let (digit1, s) := number u 0 s
    if digit1 ≤ 0 ∧ digit1 > 30 then some (.inl (-4))
    else
      match itemEnd s with
      | some s => some (.inr (bmask ||| u.bit digit1, s))
      | none =>
        if s.head? ≠ some 45 then some (.inl (-5))
        else
          let s := s.tail
          if ¬ s.head?.any isdigit then some (.inl (-3))
          else
            let (digit2, s) := number u 0 s
            if digit2 ≤ 0 ∧ digit2 > 30 then some (.inl (-4))
            else
              match itemEnd s with
              | some s =>
                (if digit1 > digit2 then rangeLoop u fuel bmask digit2 digit1
                  else rangeLoop u fuel bmask digit1 digit2).map fun bmask => .inr (bmask, s)
              | none => some (.inl (-6))

def decodeItems : Nat → UInt64 → Bytes → Option (Int ⊕ UInt64)
  | 0, _, _ => none
  | fuel + 1, bmask, s =>
    if s = [] then some (.inr bmask)
    else
      (item u fuel bmask s).bind fun
        | .inl rc => some (.inl rc)
        | .inr (bmask, s) => decodeItems fuel bmask s

/-- No result when a loop takes more turns than `fuel`. -/
def decodeFVteln (fuel : Nat) (teln : Bytes) : Option (Int ⊕ (UInt64 × Bool)) :=
  if teln.take 3 ≠ [70, 86, 58] then some (.inl 1)
  else
    let s := (teln.drop 3).dropWhile (· = 32)
    if s = [] then some (.inl (-2))
    else
      let (active, s) := decodeActive s
      (decodeItems u fuel 0 s).map fun
        | .inl rc => .inl rc
        | .inr bmask => .inr (bmask, active)

/-- An error code, or `AdditionalInfo`. -/
def FVteln2capi20 (fuel : Nat) (teln : Bytes) : Option (Int ⊕ Bytes) :=
  (decodeFVteln u fuel teln).map fun
    | .inl rc => .inl rc
    | .inr (bmask, active) =>
      .inr ([2 + 2 + 31, 3, 0, if active then 0 else 1, 0, 0] ++
        (List.range' 1 30).map fun i : Nat => if bmask &&& u.bit i ≠ 0 then 0xff else 0)

/-- The turns that a string takes if its loops end. -/
def turns (teln : Bytes) : Nat := 4294967296 + teln.length

end Parser

/-! ## The lines -/

/-- A decimal number as it is written. -/
structure Number where
  digits : Bytes
  filled : digits ≠ []
  decimal : ∀ c ∈ digits, isdigit c = true

def Number.value (n : Number) : Nat := n.digits.foldl (fun v c => v * 10 + (c.toNat - 48)) 0

/-- The `int` the parser makes of a number. -/
def Number.int (u : Undefined) (n : Number) : Int := (number u 0 n.digits).1

/-- A number, or two joined by a hyphen. -/
inductive Item where
  | single (n : Number)
  | range (n m : Number)

namespace Item

def text : Item → Bytes
  | single n => n.digits
  | range n m => n.digits ++ 45 :: m.digits

def numbers : Item → List Nat
  | single n => [n.value]
  | range n m => [n.value, m.value]

/-- The item names the channel. -/
def Names (x : Item) (k : Nat) : Prop :=
  match x with
  | single n => k = n.value
  | range n m => min n.value m.value ≤ k ∧ k ≤ max n.value m.value

end Item

/-- Items, each followed by the end or by one comma or blank. -/
inductive Items : List Item → Bytes → Prop
  | nil : Items [] []
  | last (x : Item) : Items [x] x.text
  | cons (x : Item) {xs : List Item} {c : UInt8} {s : Bytes} (separator : c = 44 ∨ c = 32) (others : Items xs s) :
      Items (x :: xs) (x.text ++ c :: s)

/-- `FV:`, blanks, an optional `p` or `P`, an optional `a` or `A`; whether the line is active, and what follows. -/
inductive Opens : Bytes → Bool → Bytes → Prop
  | mk (blanks : Nat) {p a : Bytes} (s : Bytes) (passive : p = [] ∨ p = [112] ∨ p = [80])
      (active : a = [] ∨ a = [97] ∨ a = [65]) :
      Opens ([70, 86, 58] ++ (List.replicate blanks 32 ++ (p ++ (a ++ s)))) (decide (p = [] ∨ a ≠ [])) s

/-- The line has the shape of a leased line number. -/
def Shape (teln : Bytes) (active : Bool) (items : List Item) : Prop := ∃ s, Opens teln active s ∧ Items items s

/-- Every number of the items is a channel. -/
def InRange (items : List Item) : Prop := ∀ x ∈ items, ∀ n ∈ x.numbers, 1 ≤ n ∧ n ≤ 30

/-- `AdditionalInfo` allocates the channels of the items, and no others. -/
structure Allocates (items : List Item) (active : Bool) (info : Bytes) : Prop where
  head : info.take 6 = [35, 3, 0, if active then 0 else 1, 0, 0]
  length : info.length = 36
  named : ∀ k, 1 ≤ k → k ≤ 30 → (∃ x ∈ items, x.Names k) → info[5 + k]? = some 0xff
  others : ∀ k, 1 ≤ k → k ≤ 30 → (¬ ∃ x ∈ items, x.Names k) → info[5 + k]? = some 0

/-- The parser decides the shape, and computes what the items say. -/
structure Decides (u : Undefined) (teln : Bytes) : Prop where
  terminates : ∃ fuel r, decodeFVteln u fuel teln = some r
  accepted : ∀ fuel bmask active, decodeFVteln u fuel teln = some (.inr (bmask, active)) →
    ∃ items, Shape teln active items ∧ InRange items ∧
      (∀ k, bmask.toNat.testBit k = true ↔ ∃ x ∈ items, x.Names k) ∧
      ∃ info, FVteln2capi20 u fuel teln = some (.inr info) ∧ Allocates items active info
  rejected : ∀ active items, Shape teln active items → ¬ InRange items →
    ∃ fuel rc, decodeFVteln u fuel teln = some (.inl rc) ∧ rc < 0

/-- After items that it accepts, the parser reads a range whose larger bound is `INT_MAX`. -/
inductive Endless (u : Undefined) : Bytes → Prop
  | here (n m : Number) {s : Bytes} (ends : s = [] ∨ s.head? = some 44 ∨ s.head? = some 32)
      (top : max (n.int u) (m.int u) = INT_MAX) : Endless u ((Item.range n m).text ++ s)
  | later (x : Item) {c : UInt8} {s : Bytes} (separator : c = 44 ∨ c = 32) (later : Endless u s) :
      Endless u (x.text ++ c :: s)

/-- The parser of the line does not end. -/
def EndlessLine (u : Undefined) (teln : Bytes) : Prop := ∃ active s, Opens teln active s ∧ Endless u s

end Capi4Linux.Capidrv.LeasedLine
