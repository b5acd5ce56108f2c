import Capi4Linux.Capidrv.LeasedLine
import Mathlib.Data.Nat.Bitwise

/-!
# What the parser of leased lines decides

The parser takes an item where the grammar has one, and reports an error
elsewhere; its range check never fires. A loop over a range ends unless the
larger bound is the largest `int`.
-/

namespace Capi4Linux.Capidrv.LeasedLine
open Bytes

/-! ## Numbers -/

section Numbers

variable {u : Undefined} {s tail rest : Bytes}

/-- A number that an `int` can hold is itself. -/
theorem Undefined.int_of_mem (u : Undefined) {x : Int} (least : INT_MIN ≤ x) (most : x ≤ INT_MAX) : u.int x = x :=
  if_pos ⟨least, most⟩

theorem Undefined.int_le (u : Undefined) (x : Int) : u.int x ≤ INT_MAX := by
  unfold Undefined.int
  split
  · rename_i fits
    exact fits.2
  · exact (u.isInt x).2

theorem Undefined.le_int (u : Undefined) (x : Int) : INT_MIN ≤ u.int x := by
  unfold Undefined.int
  split
  · rename_i fits
    exact fits.1
  · exact (u.isInt x).1

/-- The digits are the bytes 48 to 57. -/
theorem isdigit_iff (c : UInt8) : isdigit c = true ↔ 48 ≤ c.toNat ∧ c.toNat ≤ 57 := by
  unfold isdigit
  rw [Bool.and_eq_true, decide_eq_true_eq, decide_eq_true_eq, UInt8.le_iff_toNat_le, UInt8.le_iff_toNat_le]
  exact Iff.rfl

/-- A run of digits is read to its end. -/
theorem number_append {digits : Bytes} (decimal : ∀ c ∈ digits, isdigit c = true) (stop : ¬ tail.head?.any isdigit = true)
    (digit : Int) : number u digit (digits ++ tail) = ((number u digit digits).1, tail) := by
  induction digits generalizing digit with
  | nil =>
    cases tail with
    | nil => rfl
    | cons c s =>
      have other : ¬ isdigit c = true := stop
      exact if_neg other
  | cons c digits ih =>
    have first := decimal c List.mem_cons_self
    rw [List.cons_append, number, if_pos first, number, if_pos first]
    exact ih (fun d member => decimal d (List.mem_cons_of_mem c member)) _

/-- Reading on never makes a number smaller. -/
theorem le_foldl_digits (digits : Bytes) (v : Nat) : v ≤ digits.foldl (fun v c => v * 10 + (c.toNat - 48)) v := by
  induction digits generalizing v with
  | nil => exact Nat.le_refl v
  | cons c digits ih =>
    have rest := ih (v * 10 + (c.toNat - 48))
    rw [List.foldl_cons]
    omega

/-- One more digit of a number that stays an `int`. -/
theorem Undefined.int_digit (u : Undefined) (v : Nat) (c : UInt8) (digit : 48 ≤ c.toNat)
    (small : v * 10 + (c.toNat - 48) ≤ 2147483647) :
    u.int (u.int ((v : Int) * 10) + ((c.toNat : Int) - 48)) = ((v * 10 + (c.toNat - 48) : Nat) : Int) := by
  have tens : u.int ((v : Int) * 10) = (v : Int) * 10 := by
    apply u.int_of_mem <;> simp only [INT_MIN, INT_MAX] <;> omega
  have whole : (v : Int) * 10 + ((c.toNat : Int) - 48) = ((v * 10 + (c.toNat - 48) : Nat) : Int) := by omega
  rw [tens, whole]
  apply u.int_of_mem <;> simp only [INT_MIN, INT_MAX] <;> omega

/-- A number that is an `int` is read as it is. -/
theorem number_eq {digits : Bytes} (decimal : ∀ c ∈ digits, isdigit c = true) (v : Nat)
    (small : digits.foldl (fun v c => v * 10 + (c.toNat - 48)) v ≤ 2147483647) :
    (number u v digits).1 = (digits.foldl (fun v c => v * 10 + (c.toNat - 48)) v : Nat) := by
  induction digits generalizing v with
  | nil => rfl
  | cons c digits ih =>
    have first := decimal c List.mem_cons_self
    have bounds := (isdigit_iff c).mp first
    have grows := le_foldl_digits digits (v * 10 + (c.toNat - 48))
    rw [List.foldl_cons] at small
    have next := u.int_digit v c bounds.1 (by omega)
    rw [number, if_pos first, next, List.foldl_cons]
    exact ih (fun d member => decimal d (List.mem_cons_of_mem c member)) _ small

/-- A number up to `INT_MAX` is read as it is. -/
theorem Number.int_eq (n : Number) (small : n.value ≤ 2147483647) : n.int u = n.value := number_eq n.decimal 0 small

theorem number_isInt (u : Undefined) (digits : Bytes) {digit : Int} (least : INT_MIN ≤ digit) (most : digit ≤ INT_MAX) :
    INT_MIN ≤ (number u digit digits).1 ∧ (number u digit digits).1 ≤ INT_MAX := by
  induction digits generalizing digit with
  | nil => exact ⟨least, most⟩
  | cons c digits ih =>
    rw [number]
    split
    · exact ih (u.le_int _) (u.int_le _)
    · exact ⟨least, most⟩

/-- Whatever a number is read as is an `int`. -/
theorem Number.isInt (n : Number) (u : Undefined) : INT_MIN ≤ n.int u ∧ n.int u ≤ INT_MAX :=
  number_isInt u n.digits (by decide) (by decide)

/-- Where a digit is, a number is. -/
theorem exists_number (digit : s.head?.any isdigit = true) :
    ∃ (n : Number) (tail : Bytes), s = n.digits ++ tail ∧ ¬ tail.head?.any isdigit = true := by
  refine ⟨⟨s.takeWhile isdigit, ?_, ?_⟩, s.dropWhile isdigit, (List.takeWhile_append_dropWhile).symm, ?_⟩
  · intro empty
    cases s with
    | nil => cases digit
    | cons c s =>
      have first : isdigit c = true := digit
      rw [List.takeWhile_cons, if_pos first] at empty
      cases empty
  · intro c member
    exact List.all_eq_true.mp List.all_takeWhile c member
  · have stop := List.head?_dropWhile_not isdigit s
    intro again
    cases left : (s.dropWhile isdigit).head? with
    | none =>
      rw [left] at again
      cases again
    | some c =>
      rw [left] at again stop
      cases again.symm.trans stop

theorem Number.head (n : Number) (tail : Bytes) : (n.digits ++ tail).head?.any isdigit = true := by
  obtain ⟨digits, filled, decimal⟩ := n
  cases digits with
  | nil => exact absurd rfl filled
  | cons c digits => exact decimal c List.mem_cons_self

end Numbers

/-! ## Ranges -/

section Ranges

variable {u : Undefined} {bmask m : UInt64} {i last : Int}

/-- Every `int` is at most the largest one. -/
theorem rangeLoop_endless (fuel : Nat) (least : i ≤ INT_MAX) : rangeLoop u fuel bmask i INT_MAX = none := by
  induction fuel generalizing bmask i with
  | zero => rfl
  | succ fuel ih =>
    rw [rangeLoop, if_pos least]
    exact ih (u.int_le _)

/-- Below the largest `int` the loop ends. -/
theorem rangeLoop_ends (u : Undefined) {fuel : Nat} (least : INT_MIN ≤ i) (most : last < INT_MAX)
    (enough : (last + 1 - i).toNat < fuel) (bmask : UInt64) : ∃ m, rangeLoop u fuel bmask i last = some m := by
  induction fuel generalizing i bmask with
  | zero => exact absurd enough (Nat.not_lt_zero _)
  | succ fuel ih =>
    rw [rangeLoop]
    split
    · have next : u.int (i + 1) = i + 1 := by
        apply u.int_of_mem <;> omega
      rw [next]
      apply ih <;> omega
    · exact ⟨bmask, rfl⟩

/-- A bit is in a union of masks if it is in one of them. -/
theorem testBit_or (a b : UInt64) (k : Nat) :
    (a ||| b).toNat.testBit k = true ↔ a.toNat.testBit k = true ∨ b.toNat.testBit k = true := by
  rw [UInt64.toNat_or, Nat.testBit_or, Bool.or_eq_true]

/-- The bit of a channel up to 30 is the one of its number. -/
theorem toNat_bit (u : Undefined) {n : Nat} (small : n ≤ 30) : (u.bit n).toNat = 2 ^ n := by
  unfold Undefined.bit
  rw [if_pos (by omega), Int.toNat_natCast, UInt64.toNat_shiftLeft, UInt64.toNat_ofNat']
  have bound : 2 ^ n ≤ 2 ^ 30 := Nat.pow_le_pow_right (by decide) small
  have mod : n % 2 ^ 64 % 64 = n := by omega
  rw [mod]
  show 1 <<< n % 2 ^ 64 = 2 ^ n
  rw [Nat.one_shiftLeft]
  exact Nat.mod_eq_of_lt (Nat.lt_of_le_of_lt bound (by decide))

/-- A defined shift has one bit. -/
theorem testBit_bit (u : Undefined) {n : Nat} (small : n ≤ 30) (k : Nat) : (u.bit n).toNat.testBit k = true ↔ k = n := by
  rw [toNat_bit u small, Nat.testBit_two_pow, decide_eq_true_eq, eq_comm]

/-- The loop sets the bits of the range. -/
theorem rangeLoop_bits {fuel : Nat} (least : 0 ≤ i) (most : last ≤ 30) (run : rangeLoop u fuel bmask i last = some m) (k : Nat) :
    m.toNat.testBit k = true ↔ bmask.toNat.testBit k = true ∨ i ≤ k ∧ (k : Int) ≤ last := by
  induction fuel generalizing bmask i with
  | zero => cases run
  | succ fuel ih =>
    rw [rangeLoop] at run
    split at run
    · rename_i more
      have next : u.int (i + 1) = i + 1 := by
        apply u.int_of_mem <;> simp only [INT_MIN, INT_MAX] <;> omega
      have here : ((i.toNat : Nat) : Int) = i := Int.toNat_of_nonneg least
      have bit := testBit_bit u (n := i.toNat) (by omega) k
      rw [here] at bit
      rw [next] at run
      rw [ih (by omega) run, testBit_or, bit, or_assoc]
      apply or_congr_right
      omega
    · rename_i done
      cases run
      exact (or_iff_left (by omega)).symm

end Ranges

/-! ## Items -/

section Turns

variable {u : Undefined} {fuel : Nat} {bmask : UInt64} {s tail rest : Bytes}

/-- An item ends before something other than a digit. -/
theorem stop_of_itemEnd (ends : itemEnd tail = some rest) : ¬ tail.head?.any isdigit = true := by
  cases tail with
  | nil => exact nofun
  | cons c tail =>
    rw [itemEnd] at ends
    split at ends
    · rename_i separator
      rcases separator with rfl | rfl
      · show ¬ isdigit 44 = true
        decide
      · show ¬ isdigit 32 = true
        decide
    · cases ends

/-- A comma or a blank ends an item. -/
theorem itemEnd_separator {c : UInt8} (separator : c = 44 ∨ c = 32) (s : Bytes) : itemEnd (c :: s) = some s := by
  rw [itemEnd, if_pos separator]

/-- No number fails the range check. -/
theorem not_out_of_range (digit : Int) : ¬ (digit ≤ 0 ∧ digit > 30) := by omega

theorem item_single (n : Number) (ends : itemEnd tail = some rest) :
    item u fuel bmask (n.digits ++ tail) = some (.inr (bmask ||| u.bit (n.int u), rest)) := by
  unfold item
  rw [if_neg (not_not.mpr (n.head tail)), number_append n.decimal (stop_of_itemEnd ends)]
  dsimp only
  rw [if_neg (not_out_of_range _), ends]
  rfl

/-- What is left to do when a number and a hyphen were read. -/
theorem item_hyphen (n : Number) (s : Bytes) : item u fuel bmask (n.digits ++ 45 :: s) =
    if ¬ s.head?.any isdigit then some (.inl (-3))
    else
      match itemEnd (number u 0 s).2 with
      | some rest => (rangeLoop u fuel bmask (min (n.int u) (number u 0 s).1) (max (n.int u) (number u 0 s).1)).map
          fun bmask => .inr (bmask, rest)
      | none => some (.inl (-6)) := by
  have stop : ¬ (45 :: s : Bytes).head?.any isdigit = true := by
    show ¬ isdigit 45 = true
    decide
  have more : itemEnd (45 :: s) = none := by
    rw [itemEnd, if_neg (by decide)]
  unfold item
  rw [if_neg (not_not.mpr (n.head _)), number_append n.decimal stop]
  dsimp only
  rw [if_neg (not_out_of_range _), more]
  dsimp only
  rw [if_neg (by simp), List.tail_cons]
  by_cases digit : s.head?.any isdigit = true
  · rw [if_neg (not_not.mpr digit), if_neg (not_not.mpr digit), if_neg (not_out_of_range _)]
    cases itemEnd (number u 0 s).2 with
    | none => rfl
    | some rest =>
      dsimp only
      split
      · rename_i greater
        have less : (number u 0 s).1 ≤ n.int u := Int.le_of_lt greater
        rw [min_eq_right less, max_eq_left less]
        rfl
      · rename_i less
        have less : n.int u ≤ (number u 0 s).1 := Int.not_lt.mp less
        rw [min_eq_left less, max_eq_right less]
        rfl
  · rw [if_pos digit, if_pos digit]

theorem Item.range_append (n m : Number) (tail : Bytes) :
    (Item.range n m).text ++ tail = n.digits ++ 45 :: (m.digits ++ tail) := List.append_assoc _ _ _

/-- A range adds the bits of its loop. -/
theorem item_range (n m : Number) (ends : itemEnd tail = some rest) :
    item u fuel bmask ((Item.range n m).text ++ tail) =
      (rangeLoop u fuel bmask (min (n.int u) (m.int u)) (max (n.int u) (m.int u))).map fun bmask => .inr (bmask, rest) := by
  have second := @number_append u _ m.digits m.decimal (stop_of_itemEnd ends) 0
  rw [Item.range_append, item_hyphen, if_neg (not_not.mpr (m.head tail)), second, ends]
  rfl

/-- A turn takes an item of the grammar, or ends with an error whatever is undefined. -/
theorem item_cases (s : Bytes) : (∃ (x : Item) (tail rest : Bytes), s = x.text ++ tail ∧ itemEnd tail = some rest) ∨
    ∃ rc, ∀ u fuel bmask, item u fuel bmask s = some (.inl rc) := by
  by_cases digit : s.head?.any isdigit = true
  · obtain ⟨n, tail, rfl, stop⟩ := exists_number digit
    cases ends : itemEnd tail with
    | some rest => exact .inl ⟨.single n, tail, rest, rfl, ends⟩
    | none =>
      by_cases hyphen : tail.head? = some 45
      · obtain ⟨s, rfl⟩ : ∃ s, tail = 45 :: s := ⟨tail.tail, (List.cons_head?_tail hyphen).symm⟩
        by_cases again : s.head?.any isdigit = true
        · obtain ⟨m, tail, rfl, stop'⟩ := exists_number again
          cases ends' : itemEnd tail with
          | some rest => exact .inl ⟨.range n m, tail, rest, (Item.range_append n m tail).symm, ends'⟩
          | none =>
            refine .inr ⟨-6, fun u fuel bmask => ?_⟩
            rw [item_hyphen, if_neg (not_not.mpr again), number_append m.decimal stop', ends']
        · refine .inr ⟨-3, fun u fuel bmask => ?_⟩
          rw [item_hyphen, if_pos again]
      · refine .inr ⟨-5, fun u fuel bmask => ?_⟩
        unfold item
        rw [if_neg (not_not.mpr digit), number_append n.decimal stop]
        dsimp only
        rw [if_neg (not_out_of_range _), ends]
        exact if_pos hyphen
  · exact .inr ⟨-3, fun u fuel bmask => if_pos digit⟩

/-- What a turn makes of the mask. -/
def Item.run (u : Undefined) (fuel : Nat) (bmask : UInt64) : Item → Option UInt64
  | single n => some (bmask ||| u.bit (n.int u))
  | range n m => rangeLoop u fuel bmask (min (n.int u) (m.int u)) (max (n.int u) (m.int u))

/-- An item's text is read as the item. -/
theorem item_text (x : Item) (ends : itemEnd tail = some rest) :
    item u fuel bmask (x.text ++ tail) = (x.run u fuel bmask).map fun bmask => .inr (bmask, rest) := by
  cases x with
  | single n => exact item_single n ends
  | range n m => exact item_range n m ends

theorem Item.head (x : Item) (tail : Bytes) : (x.text ++ tail).head?.any isdigit = true := by
  cases x with
  | single n => exact n.head tail
  | range n m =>
    rw [Item.range_append]
    exact n.head _

theorem ne_nil_of_digit (digit : s.head?.any isdigit = true) : s ≠ [] := by
  rintro rfl
  cases digit

/-- Within 1 to 30 the mask gets the channels of the item. -/
theorem run_bits {x : Item} {m : UInt64} (inRange : ∀ n ∈ x.numbers, 1 ≤ n ∧ n ≤ 30) (run : x.run u fuel bmask = some m)
    (k : Nat) : m.toNat.testBit k = true ↔ bmask.toNat.testBit k = true ∨ x.Names k := by
  cases x with
  | single n =>
    obtain ⟨-, most⟩ := inRange n.value List.mem_cons_self
    cases run
    rw [testBit_or, Number.int_eq n (by omega), testBit_bit u most]
    rfl
  | range n m =>
    obtain ⟨-, first⟩ := inRange n.value List.mem_cons_self
    obtain ⟨-, second⟩ := inRange m.value (List.mem_cons_of_mem _ List.mem_cons_self)
    rw [Item.run, Number.int_eq n (by omega), Number.int_eq m (by omega)] at run
    rw [rangeLoop_bits (by omega) (by omega) run]
    apply or_congr_right
    show _ ↔ min n.value m.value ≤ k ∧ k ≤ max n.value m.value
    omega

/-- A turn ends unless the item is a range up to the largest `int`. -/
theorem run_ends (u : Undefined) (x : Item) (top : ∀ n m, x = .range n m → max (n.int u) (m.int u) ≠ INT_MAX)
    (enough : 4294967296 ≤ fuel) (bmask : UInt64) : ∃ m, x.run u fuel bmask = some m := by
  cases x with
  | single n => exact ⟨_, rfl⟩
  | range n m =>
    have first := n.isInt u
    have second := m.isInt u
    have below := top n m rfl
    unfold INT_MIN INT_MAX at first second
    unfold INT_MAX at below
    apply rangeLoop_ends u
    · unfold INT_MIN
      omega
    · unfold INT_MAX
      omega
    · omega

end Turns

/-! ## The loop over the items -/

section Loop

variable {u : Undefined} {fuel : Nat} {bmask m : UInt64} {s tail rest : Bytes} {items xs : List Item}

theorem Items.eq_nil (listed : Items xs []) : xs = [] := by
  generalize empty : ([] : Bytes) = s at listed
  cases listed with
  | nil => rfl
  | last x =>
    have digit := x.head []
    rw [List.append_nil, ← empty] at digit
    cases digit
  | @cons x _ c s separator others =>
    have digit := x.head (c :: s)
    rw [← empty] at digit
    cases digit

/-- A list with an item starts with a digit. -/
theorem Items.head (listed : Items items s) (filled : items ≠ []) : s.head?.any isdigit = true := by
  cases listed with
  | nil => exact absurd rfl filled
  | last x =>
    have digit := x.head []
    rw [List.append_nil] at digit
    exact digit
  | cons x => exact x.head _

/-- A list that the loop never leaves starts with a digit. -/
theorem Endless.head (endless : Endless u s) : s.head?.any isdigit = true := by
  cases endless with
  | here n m => exact Item.head (.range n m) _
  | later x => exact x.head _

/-- Another item in front. -/
theorem Items.step (x : Item) (ends : itemEnd tail = some rest) (others : Items xs rest) : Items (x :: xs) (x.text ++ tail) := by
  cases tail with
  | nil =>
    cases ends
    rw [others.eq_nil, List.append_nil]
    exact .last x
  | cons c tail =>
    rw [itemEnd] at ends
    split at ends
    · rename_i separator
      cases ends
      exact .cons x separator others
    · cases ends

/-- An item is read, and then the rest. -/
theorem decodeItems_text (x : Item) (ends : itemEnd tail = some rest) : decodeItems u (fuel + 1) bmask (x.text ++ tail) =
    (x.run u fuel bmask).bind fun bmask => decodeItems u fuel bmask rest := by
  rw [decodeItems, if_neg (ne_nil_of_digit (x.head tail)), item_text x ends]
  cases x.run u fuel bmask with
  | none => rfl
  | some m => rfl

/-- A mask is returned for a list of items only, and within 1 to 30 it holds their channels. -/
theorem decodeItems_sound (run : decodeItems u fuel bmask s = some (.inr m)) : ∃ items, Items items s ∧
    (InRange items → ∀ k, m.toNat.testBit k = true ↔ bmask.toNat.testBit k = true ∨ ∃ x ∈ items, x.Names k) := by
  induction fuel generalizing bmask s with
  | zero => cases run
  | succ fuel ih =>
    rcases eq_or_ne s [] with rfl | more
    · cases run
      refine ⟨[], .nil, fun _ k => ?_⟩
      simp
    rcases item_cases s with ⟨x, tail, rest, rfl, ends⟩ | ⟨rc, error⟩
    · rw [decodeItems_text x ends] at run
      obtain ⟨m₁, turn, run⟩ := Option.bind_eq_some_iff.mp run
      obtain ⟨items, listed, bits⟩ := ih run
      refine ⟨x :: items, listed.step x ends, fun inRange k => ?_⟩
      have first := run_bits (inRange x List.mem_cons_self) turn k
      have others := bits (fun y member => inRange y (List.mem_cons_of_mem x member)) k
      rw [others, first, or_assoc]
      simp only [List.mem_cons, exists_eq_or_imp]
    · rw [decodeItems, if_neg more, error] at run
      cases run

/-- No error is reported in a list of items. -/
theorem decodeItems_items (listed : Items items s) (rc : Int) : decodeItems u fuel bmask s ≠ some (.inl rc) := by
  induction listed generalizing fuel bmask with
  | nil => cases fuel <;> exact nofun
  | last x =>
    cases fuel with
    | zero => exact nofun
    | succ fuel =>
      have ends : itemEnd [] = some [] := rfl
      rw [← List.append_nil x.text, decodeItems_text x ends]
      cases x.run u fuel bmask with
      | none => exact nofun
      | some m => cases fuel <;> exact nofun
  | cons x separator others ih =>
    cases fuel with
    | zero => exact nofun
    | succ fuel =>
      have ends := itemEnd_separator separator
      rw [decodeItems_text x (ends _)]
      cases x.run u fuel bmask with
      | none => exact nofun
      | some m => exact ih

/-- The end of the text, a comma and a blank end an item. -/
theorem itemEnd_ends (ends : s = [] ∨ s.head? = some 44 ∨ s.head? = some 32) : ∃ rest, itemEnd s = some rest := by
  cases s with
  | nil => exact ⟨[], rfl⟩
  | cons c s =>
    rw [List.head?_cons, Option.some.injEq, Option.some.injEq] at ends
    exact ⟨s, itemEnd_separator (ends.resolve_left (List.cons_ne_nil c s)) s⟩

theorem ends_itemEnd (ends : itemEnd s = some rest) : s = [] ∨ s.head? = some 44 ∨ s.head? = some 32 := by
  cases s with
  | nil => exact .inl rfl
  | cons c s =>
    rw [itemEnd] at ends
    split at ends
    · rename_i separator
      rw [List.head?_cons, Option.some.injEq, Option.some.injEq]
      exact .inr separator
    · cases ends

/-- The loop over a range up to the largest `int` is reached and does not end. -/
theorem decodeItems_endless (endless : Endless u s) : decodeItems u fuel bmask s = none := by
  induction endless generalizing fuel bmask with
  | here n m ends top =>
    cases fuel with
    | zero => rfl
    | succ fuel =>
      obtain ⟨rest, ends⟩ := itemEnd_ends ends
      rw [decodeItems_text (.range n m) ends, Item.run, top, rangeLoop_endless fuel (top ▸ min_le_max)]
      rfl
  | later x separator _ ih =>
    cases fuel with
    | zero => rfl
    | succ fuel =>
      rw [decodeItems_text x (itemEnd_separator separator _)]
      cases x.run u fuel bmask with
      | none => rfl
      | some m => exact ih

/-- Everything else has a result. -/
theorem decodeItems_ends (ends : ¬ Endless u s) (enough : 4294967296 + s.length < fuel) :
    ∃ r, decodeItems u fuel bmask s = some r := by
  induction fuel generalizing s bmask with
  | zero => exact absurd enough (Nat.not_lt_zero _)
  | succ fuel ih =>
    rcases eq_or_ne s [] with rfl | more
    · exact ⟨_, rfl⟩
    rcases item_cases s with ⟨x, tail, rest, rfl, stop⟩ | ⟨rc, error⟩
    · have later : ¬ Endless u rest := by
        intro later
        cases tail with
        | nil =>
          cases stop
          have none := @decodeItems_endless u 1 0 _ later
          cases none
        | cons c tail =>
          rcases ends_itemEnd stop with nil | comma
          · cases nil
          · rw [List.head?_cons, Option.some.injEq, Option.some.injEq] at comma
            cases (itemEnd_separator comma tail).symm.trans stop
            exact ends (.later x comma later)
      have filled := List.length_pos_iff.mpr (ne_nil_of_digit (x.head []))
      have left := itemEnd_length_le stop
      rw [List.length_append] at enough
      rw [List.append_nil] at filled
      have top : ∀ n m, x = .range n m → max (n.int u) (m.int u) ≠ INT_MAX := by
        rintro n m rfl top
        exact ends (.here n m (ends_itemEnd stop) top)
      obtain ⟨m, first⟩ := run_ends u x top (show 4294967296 ≤ fuel by omega) bmask
      rw [decodeItems_text x stop, first]
      exact ih later (by omega)
    · rw [decodeItems, if_neg more, error]
      exact ⟨_, rfl⟩

end Loop

/-! ## The opening -/

section Opening

variable {u : Undefined} {fuel : Nat} {teln s : Bytes} {active : Bool} {items : List Item}

/-- The result for the items of a line, as one for the line. -/
def resultOf (active : Bool) : Int ⊕ UInt64 → Int ⊕ (UInt64 × Bool)
  | .inl rc => .inl rc
  | .inr bmask => .inr (bmask, active)

/-- The loop over the blanks stops at the first byte that is none. -/
theorem dropWhile_blanks (blanks : Nat) {t : Bytes} (stop : t.head? ≠ some 32) :
    (List.replicate blanks 32 ++ t).dropWhile (· = 32) = t := by
  induction blanks with
  | zero =>
    cases t with
    | nil => rfl
    | cons c t =>
      have other : ¬ c = 32 := fun same => stop (congrArg some same)
      exact List.dropWhile_cons_of_neg (by simpa using other)
  | succ blanks ih =>
    rw [List.replicate_succ, List.cons_append, List.dropWhile_cons_of_pos (by simp)]
    exact ih

/-- What the letters of an opening say. -/
theorem decodeActive_letters {p a : Bytes} (passive : p = [] ∨ p = [112] ∨ p = [80]) (active : a = [] ∨ a = [97] ∨ a = [65])
    (digit : s.head?.any isdigit = true) : decodeActive (p ++ (a ++ s)) = (decide (p = [] ∨ a ≠ []), s) := by
  cases s with
  | nil => cases digit
  | cons c s =>
    have number : isdigit c = true := digit
    have other : ∀ letter : UInt8, ¬ isdigit letter = true → c ≠ letter := by
      rintro letter no rfl
      exact no number
    have noP : ¬ (c = 112 ∨ c = 80) := not_or.mpr ⟨other 112 (by decide), other 80 (by decide)⟩
    have noA : ¬ (c = 97 ∨ c = 65) := not_or.mpr ⟨other 97 (by decide), other 65 (by decide)⟩
    rcases passive with rfl | rfl | rfl
    all_goals rcases active with rfl | rfl | rfl
    all_goals simp [decodeActive, noP, noA]

/-- Every text is an optional `P`, an optional `A` and the rest. -/
theorem exists_letters (t : Bytes) : ∃ p a s, (p = [] ∨ p = [112] ∨ p = [80]) ∧ (a = [] ∨ a = [97] ∨ a = [65]) ∧
    t = p ++ (a ++ s) ∧ decodeActive t = (decide (p = [] ∨ a ≠ []), s) := by
  have letter : ∀ {c x y : UInt8}, c = x ∨ c = y → ([c] : Bytes) = [] ∨ ([c] : Bytes) = [x] ∨ ([c] : Bytes) = [y] := by
    rintro c x y (rfl | rfl)
    · exact .inr (.inl rfl)
    · exact .inr (.inr rfl)
  cases t with
  | nil => exact ⟨[], [], [], .inl rfl, .inl rfl, rfl, rfl⟩
  | cons c t =>
    by_cases passive : c = 112 ∨ c = 80
    · cases t with
      | nil => exact ⟨[c], [], [], letter passive, .inl rfl, rfl, by simp [decodeActive, passive]⟩
      | cons d t =>
        by_cases explicit : d = 97 ∨ d = 65
        · exact ⟨[c], [d], t, letter passive, letter explicit, rfl, by simp [decodeActive, passive, explicit]⟩
        · exact ⟨[c], [], d :: t, letter passive, .inl rfl, rfl, by simp [decodeActive, passive, explicit]⟩
    · by_cases explicit : c = 97 ∨ c = 65
      · exact ⟨[], [c], t, .inl rfl, letter explicit, rfl, by simp [decodeActive, passive, explicit]⟩
      · exact ⟨[], [], c :: t, .inl rfl, .inl rfl, rfl, by simp [decodeActive, passive, explicit]⟩

/-- Behind the blanks. -/
theorem decodeFVteln_blanks (blanks : Nat) {t : Bytes} (stop : t.head? ≠ some 32) (more : t ≠ []) :
    decodeFVteln u fuel ([70, 86, 58] ++ (List.replicate blanks 32 ++ t)) =
      (decodeItems u fuel 0 (decodeActive t).2).map (resultOf (decodeActive t).1) := by
  have front : ([70, 86, 58] ++ (List.replicate blanks 32 ++ t) : Bytes).take 3 = [70, 86, 58] := rfl
  have behind : (([70, 86, 58] ++ (List.replicate blanks 32 ++ t) : Bytes).drop 3).dropWhile (· = 32) = t :=
    dropWhile_blanks blanks stop
  unfold decodeFVteln
  rw [if_neg (not_not.mpr front), behind]
  dsimp only
  rw [if_neg more]
  apply congrArg (Option.map · _)
  funext r
  cases r with
  | inl rc => rfl
  | inr bmask => rfl

/-- The items of a line are decoded behind its opening. -/
theorem decodeFVteln_opens (opens : Opens teln active s) (digit : s.head?.any isdigit = true) :
    decodeFVteln u fuel teln = (decodeItems u fuel 0 s).map (resultOf active) := by
  cases opens with
  | @mk blanks p a s passive explicit =>
    have letters := decodeActive_letters passive explicit digit
    have more : p ++ (a ++ s) ≠ [] := by
      intro empty
      rw [List.append_eq_nil_iff, List.append_eq_nil_iff] at empty
      exact ne_nil_of_digit digit empty.2.2
    have stop : (p ++ (a ++ s)).head? ≠ some 32 := by
      rcases passive with rfl | rfl | rfl
      · rcases explicit with rfl | rfl | rfl
        · intro blank
          rw [List.nil_append, List.nil_append] at blank
          rw [blank] at digit
          cases digit
        · exact nofun
        · exact nofun
      · exact nofun
      · exact nofun
    rw [decodeFVteln_blanks blanks stop more, letters]

/-- After `FV:` every text is some blanks and the rest. -/
theorem exists_blanks {s : Bytes} (front : s.take 3 = [70, 86, 58]) :
    ∃ blanks t, s = [70, 86, 58] ++ (List.replicate blanks 32 ++ t) ∧ t.head? ≠ some 32 := by
  have whole : s = [70, 86, 58] ++ s.drop 3 := by rw [← front, List.take_append_drop]
  have split := List.takeWhile_append_dropWhile (p := fun c : UInt8 => decide (c = 32)) (l := s.drop 3)
  have blanks : (s.drop 3).takeWhile (· = 32) = List.replicate ((s.drop 3).takeWhile (· = 32)).length 32 := by
    apply List.eq_replicate_of_mem
    intro c member
    have blank := List.all_eq_true.mp List.all_takeWhile c member
    exact of_decide_eq_true blank
  rw [blanks] at split
  refine ⟨_, (s.drop 3).dropWhile (· = 32), whole.trans (congrArg _ split.symm), fun blank => ?_⟩
  have stop := List.head?_dropWhile_not (fun c : UInt8 => decide (c = 32)) (s.drop 3)
  rw [blank] at stop
  cases stop

/-- Every string is a line with an opening, or is refused at once. -/
theorem opening_cases (teln : Bytes) : (∃ active s, Opens teln active s ∧
      ∀ u fuel, decodeFVteln u fuel teln = (decodeItems u fuel 0 s).map (resultOf active)) ∨
    ∃ rc, ∀ u fuel, decodeFVteln u fuel teln = some (.inl rc) := by
  by_cases front : teln.take 3 = [70, 86, 58]
  · obtain ⟨blanks, t, rfl, stop⟩ := exists_blanks front
    rcases eq_or_ne t [] with rfl | more
    · refine .inr ⟨-2, fun u fuel => ?_⟩
      unfold decodeFVteln
      rw [if_neg (not_not.mpr front)]
      exact if_pos (dropWhile_blanks blanks stop)
    · obtain ⟨p, a, s, passive, explicit, rfl, letters⟩ := exists_letters t
      refine .inl ⟨_, s, .mk blanks s passive explicit, fun u fuel => ?_⟩
      rw [decodeFVteln_blanks blanks stop more, letters]
  · exact .inr ⟨1, fun u fuel => if_pos front⟩

/-- A line with items is not refused. -/
theorem decodeFVteln_shape (shape : Shape teln active items) (filled : items ≠ []) (rc : Int) :
    decodeFVteln u fuel teln ≠ some (.inl rc) := by
  obtain ⟨s, opens, listed⟩ := shape
  intro error
  rw [decodeFVteln_opens opens (listed.head filled)] at error
  obtain ⟨r, run, same⟩ := Option.map_eq_some_iff.mp error
  cases r with
  | inl rc => exact decodeItems_items listed rc run
  | inr m => cases same

/-- What is left after the opening is shorter. -/
theorem Opens.length_lt (opens : Opens teln active s) : s.length < teln.length := by
  cases opens with
  | mk blanks s passive explicit =>
    simp only [List.length_append, List.length_cons, List.length_nil]
    omega

/-- With the turns of a string, the parser has a result unless it has none with any number of turns. -/
theorem FVteln2capi20_none_iff (u : Undefined) (teln : Bytes) :
    FVteln2capi20 u (turns teln) teln = none ↔ EndlessLine u teln := by
  unfold FVteln2capi20
  rw [Option.map_eq_none_iff]
  constructor
  · intro none
    rcases opening_cases teln with ⟨active, s, opens, decoded⟩ | ⟨rc, error⟩
    · refine ⟨active, s, opens, ?_⟩
      by_contra ends
      have shorter := opens.length_lt
      obtain ⟨r, run⟩ : ∃ r, decodeItems u (turns teln) 0 s = some r := decodeItems_ends ends (by unfold turns; omega)
      rw [decoded, run] at none
      cases none
    · rw [error] at none
      cases none
  · intro ⟨active, s, opens, endless⟩
    rw [decodeFVteln_opens opens endless.head, decodeItems_endless endless]
    rfl

/-- More turns do not help an endless line. -/
theorem EndlessLine.none (endless : EndlessLine u teln) (fuel : Nat) : FVteln2capi20 u fuel teln = none := by
  obtain ⟨active, s, opens, endless⟩ := endless
  unfold FVteln2capi20
  rw [decodeFVteln_opens opens endless.head, decodeItems_endless endless]
  rfl

end Opening

/-! ## The channels -/

section Channels

variable {u : Undefined} {bmask : UInt64} {items : List Item} {active : Bool}

/-- The bit of a channel up to 30 is tested by its number. -/
theorem and_bit_ne (u : Undefined) (bmask : UInt64) {k : Nat} (small : k ≤ 30) :
    bmask &&& u.bit k ≠ 0 ↔ bmask.toNat.testBit k = true := by
  have value : (bmask &&& u.bit k).toNat = (bmask.toNat.testBit k).toNat * 2 ^ k := by
    rw [UInt64.toNat_and, toNat_bit u small, Nat.and_two_pow]
  have zero : bmask &&& u.bit k = 0 ↔ (bmask &&& u.bit k).toNat = 0 := by
    rw [← UInt64.toNat_inj]
    rfl
  rw [ne_eq, zero, value]
  cases bmask.toNat.testBit k with
  | false => simp
  | true => simp

/-- A mask with the channels of the items is written out. -/
theorem allocates_of_bits (u : Undefined) (active : Bool)
    (bits : ∀ k, bmask.toNat.testBit k = true ↔ ∃ x ∈ items, x.Names k) :
    Allocates items active ([2 + 2 + 31, 3, 0, if active then 0 else 1, 0, 0] ++
      (List.range' 1 30).map fun i : Nat => if bmask &&& u.bit i ≠ 0 then 0xff else 0) := by
  have channel : ∀ k : Nat, 1 ≤ k → k ≤ 30 → ([2 + 2 + 31, 3, 0, if active then 0 else 1, 0, 0] ++
      (List.range' 1 30).map fun i : Nat => if bmask &&& u.bit i ≠ 0 then 0xff else 0 : Bytes)[5 + k]? =
        some (if bmask &&& u.bit k ≠ 0 then 0xff else 0) := by
    intro k least most
    have position : 5 + k = 6 + (k - 1) := by omega
    have entry : (List.range' 1 30)[k - 1]? = some k := by
      rw [List.getElem?_range' (by omega)]
      congr 1
      omega
    rw [position, List.getElem?_append_right (Nat.le_add_right 6 (k - 1))]
    show ((List.range' 1 30).map _)[6 + (k - 1) - 6]? = _
    rw [Nat.add_sub_cancel_left, List.getElem?_map, entry]
    rfl
  constructor
  · rfl
  · rfl
  · intro k least most named
    rw [channel k least most, if_pos ((and_bit_ne u bmask most).mpr ((bits k).mpr named))]
  · intro k least most other
    rw [channel k least most, if_neg fun set => other ((bits k).mp ((and_bit_ne u bmask most).mp set))]

end Channels

/-- The parser decides a line exactly when it is not of the shape with a number outside 1 to 30, and no range up to the
largest `int` is read. -/
theorem decides_iff (u : Undefined) (teln : Bytes) : Decides u teln ↔
    (∀ active items, Shape teln active items → InRange items) ∧ ∀ active s, Opens teln active s → ¬ Endless u s := by
  constructor
  · intro decides
    constructor
    · intro active items shape
      by_contra outside
      obtain ⟨fuel, rc, error, -⟩ := decides.rejected active items shape outside
      have filled : items ≠ [] := by
        rintro rfl
        exact outside fun x member => absurd member List.not_mem_nil
      exact decodeFVteln_shape shape filled rc error
    · intro active s opens endless
      obtain ⟨fuel, r, run⟩ := decides.terminates
      rw [decodeFVteln_opens opens endless.head, decodeItems_endless endless] at run
      cases run
  · intro ⟨inRange, finite⟩
    constructor
    · rcases opening_cases teln with ⟨active, s, opens, decoded⟩ | ⟨rc, error⟩
      · obtain ⟨r, run⟩ : ∃ r, decodeItems u (4294967296 + s.length + 1) 0 s = some r :=
          decodeItems_ends (finite active s opens) (Nat.lt_succ_self _)
        refine ⟨4294967296 + s.length + 1, resultOf active r, ?_⟩
        rw [decoded, run]
        rfl
      · exact ⟨0, _, error u 0⟩
    · intro fuel bmask active accepted
      rcases opening_cases teln with ⟨active', s, opens, decoded⟩ | ⟨rc, error⟩
      · obtain ⟨r, run, same⟩ := Option.map_eq_some_iff.mp ((decoded u fuel).symm.trans accepted)
        cases r with
        | inl rc => cases same
        | inr m =>
          cases same
          obtain ⟨items, listed, bits⟩ := decodeItems_sound run
          have shape : Shape teln active items := ⟨s, opens, listed⟩
          have channels := inRange active items shape
          have empty : ∀ k, ¬ (0 : UInt64).toNat.testBit k = true := by
            intro k
            rw [UInt64.toNat_zero, Nat.zero_testBit]
            decide
          have mask : ∀ k, bmask.toNat.testBit k = true ↔ ∃ x ∈ items, x.Names k :=
            fun k => (bits channels k).trans (or_iff_right (empty k))
          refine ⟨items, shape, channels, mask, _, ?_, allocates_of_bits u active mask⟩
          unfold FVteln2capi20
          rw [accepted]
          rfl
      · cases (error u fuel).symm.trans accepted
    · intro active items shape outside
      exact absurd (inRange active items shape) outside

/-- `FV:31` is of the shape, and is not rejected. -/
theorem line_31_accepted : ¬ Decides .wrapping [70, 86, 58, 51, 49] := by
  intro decides
  have decimal : ∀ c ∈ ([51, 49] : List UInt8), isdigit c = true := by
    intro c mem
    rcases List.mem_pair.mp mem with rfl | rfl <;> rfl
  let n : Number := ⟨[51, 49], List.cons_ne_nil 51 [49], decimal⟩
  have value : n.value = 31 := rfl
  have shape : Shape [70, 86, 58, 51, 49] true [.single n] :=
    ⟨[51, 49], .mk 0 [51, 49] (.inl rfl) (.inl rfl), .last (.single n)⟩
  have outside : ¬ InRange [.single n] := by
    intro inRange
    have most := (inRange (.single n) List.mem_cons_self n.value List.mem_cons_self).2
    rw [value] at most
    omega
  obtain ⟨fuel, rc, error, -⟩ := decides.rejected true [.single n] shape outside
  exact decodeFVteln_shape shape (List.cons_ne_nil _ _) rc error

end Capi4Linux.Capidrv.LeasedLine
