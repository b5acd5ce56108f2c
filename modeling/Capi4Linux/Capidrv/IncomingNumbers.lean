import Capi4Linux.Capidrv.Step
import Capi4Linux.Capiutil.Struct

/-!
# The numbers of an incoming call

`handle_incoming_call` takes the numbers out of two structs of a CONNECT_IND
with `strncpy`. The size of a copy is the first byte of the struct less a
constant, as a `size_t`.
-/

namespace Capi4Linux.Capidrv
open Bytes Capicore Capiutil

/-- A `strncpy` of `size` bytes from the offset `src` of a struct. -/
structure Copy where
  src : Nat
  size : Nat

/-- The copy of `CallingPartyNumber` to `phone`. -/
def phoneCopy (mem : Nat → UInt8) : Copy := ⟨3, copySize (mem 0) 2⟩

/-- The copy of `CalledPartyNumber` to `eazmsn`. -/
def eazmsnCopy (mem : Nat → UInt8) : Copy := ⟨2, copySize (mem 0) 1⟩

/-- The copy reads content of the struct only, and what it writes has a place in a field of `ISDN_MSNLEN` bytes. -/
structure Copy.Bounded (copy : Copy) (mem : Nat → UInt8) (x : Struct) : Prop where
  reads : ∀ i, Memory.Reads mem copy.src copy.size i → x.InContent i
  writes : (Memory.written mem copy.src copy.size).length ≤ ISDN_MSNLEN

/-- The two numbers of a CONNECT_IND, where they lie in it, and the memory behind the message. -/
structure Numbers (cmsg : Cmsg) where
  calling : Struct
  called : Struct
  callingRest : Bytes
  calledRest : Bytes
  beyond : Nat → UInt8
  callingPartyNumber : cmsg.cstruct .callingPartyNumber = some (calling.bytes ++ callingRest)
  calledPartyNumber : cmsg.cstruct .calledPartyNumber = some (called.bytes ++ calledRest)

namespace Numbers

variable {cmsg : Cmsg} (numbers : Numbers cmsg)

/-- The memory at `CallingPartyNumber`. -/
def callingMemory : Nat → UInt8 := numbers.calling.memory numbers.callingRest numbers.beyond

/-- The memory at `CalledPartyNumber`. -/
def calledMemory : Nat → UInt8 := numbers.called.memory numbers.calledRest numbers.beyond

/-- The copies stay in bounds, and the plan and the screen value are bytes of the struct. -/
structure InBounds : Prop where
  phone : (phoneCopy numbers.callingMemory).Bounded numbers.callingMemory numbers.calling
  eazmsn : (eazmsnCopy numbers.calledMemory).Bounded numbers.calledMemory numbers.called
  plan : 1 < numbers.calling.bytes.length
  screen : 2 < numbers.calling.bytes.length

end Numbers

section Copies

variable {x : Struct} {rest : Bytes} {beyond : Nat → UInt8}

theorem copySize_eq (first : UInt8) {n : Nat} (enough : n ≤ first.toNat) :
    copySize first (UInt64.ofNat n) = first.toNat - n := by
  have small := first.toNat_lt
  unfold copySize
  rw [UInt64.toNat_sub_of_le, UInt64.toNat_ofNat', UInt64.toNat_ofNat']
  · omega
  · rw [UInt64.le_iff_toNat_le, UInt64.toNat_ofNat', UInt64.toNat_ofNat']
    omega

/-- A size below zero is a large one. -/
theorem copySize_wraps (first : UInt8) {n : Nat} (short : first.toNat < n) (small : n < 256) :
    ISDN_MSNLEN < copySize first (UInt64.ofNat n) := by
  unfold copySize ISDN_MSNLEN
  rw [UInt64.toNat_sub, UInt64.toNat_ofNat', UInt64.toNat_ofNat']
  omega

/-- A size has a place in a field of `ISDN_MSNLEN` bytes exactly if it is that of a struct in the short form. -/
theorem copySize_le_iff {n : Nat} (few : n ≤ 2) :
    copySize (x.memory rest beyond 0) (UInt64.ofNat n) ≤ ISDN_MSNLEN ↔
      x.form = .short ∧ n ≤ x.content.length ∧ x.content.length ≤ ISDN_MSNLEN + n := by
  have first := x.memory_zero rest beyond
  constructor
  · intro fits
    have enough : n ≤ (x.memory rest beyond 0).toNat := by
      by_contra wraps
      have large := copySize_wraps (x.memory rest beyond 0) (Nat.not_le.mp wraps) (by omega)
      omega
    rw [copySize_eq _ enough, first] at fits
    rw [first] at enough
    by_cases short : x.form = .short
    · rw [if_pos short] at fits enough
      exact ⟨short, enough, by omega⟩
    · rw [if_neg short] at fits
      unfold ISDN_MSNLEN at fits
      omega
  · intro ⟨short, least, most⟩
    rw [if_pos short] at first
    rw [copySize_eq _ (first.symm ▸ least), first]
    omega

/-- A copy that starts behind the first `n` bytes of the content is in bounds exactly for a struct in the short form
that has these bytes and at most `ISDN_MSNLEN` others. -/
theorem bounded_iff {n : Nat} (few : n ≤ 2) :
    (Copy.mk (1 + n) (copySize (x.memory rest beyond 0) (UInt64.ofNat n))).Bounded (x.memory rest beyond) x ↔
      x.form = .short ∧ n ≤ x.content.length ∧ x.content.length ≤ ISDN_MSNLEN + n := by
  constructor
  · intro bounded
    have writes := bounded.writes
    rw [Memory.length_written] at writes
    exact (copySize_le_iff few).mp writes
  · intro fits
    have place : copySize (x.memory rest beyond 0) (UInt64.ofNat n) ≤ ISDN_MSNLEN := (copySize_le_iff few).mpr fits
    obtain ⟨short, least, most⟩ := fits
    have first := x.memory_zero rest beyond
    rw [if_pos short] at first
    have size := copySize_eq (x.memory rest beyond 0) (first.symm ▸ least)
    constructor
    · intro i ⟨low, high, _⟩
      rw [size, first] at high
      dsimp only at low high
      unfold Struct.InContent
      rw [short]
      show 1 ≤ i ∧ i < 1 + x.content.length
      omega
    · rw [Memory.length_written]
      exact place

/-- A copy in bounds ends with the struct. -/
theorem copy_ends {n : Nat} (few : n ≤ 2)
    (bounded : (Copy.mk (1 + n) (copySize (x.memory rest beyond 0) (UInt64.ofNat n))).Bounded (x.memory rest beyond) x) :
    1 + n + copySize (x.memory rest beyond 0) (UInt64.ofNat n) = x.bytes.length := by
  obtain ⟨short, least, -⟩ := (bounded_iff few).mp bounded
  have first := x.memory_zero rest beyond
  rw [if_pos short] at first
  rw [copySize_eq _ (first.symm ▸ least), first, Struct.length_bytes, short]
  show 1 + n + _ = 1 + x.content.length
  omega

theorem length_short (short : x.form = .short) : x.bytes.length = 1 + x.content.length := by
  rw [Struct.length_bytes, short]
  rfl

theorem bytes_pos (x : Struct) : 0 < x.bytes.length := by
  rw [Struct.length_bytes]
  cases x.form with
  | short => exact Nat.add_pos_left (by decide) _
  | escaped => exact Nat.add_pos_left (by decide) _

theorem memory_byte {i : Nat} (inside : i < x.bytes.length) :
    x.memory rest beyond i = (x.bytes ++ rest).getD i 0 := by
  apply Memory.image_of_lt
  rw [List.length_append]
  omega

/-- A copy in bounds, as `strncpy` of the message. -/
theorem copied_eq {n : Nat} (few : n ≤ 2)
    (bounded : (Copy.mk (1 + n) (copySize (x.memory rest beyond 0) (UInt64.ofNat n))).Bounded (x.memory rest beyond) x) :
    Memory.copied (x.memory rest beyond) (1 + n) (copySize (x.memory rest beyond 0) (UInt64.ofNat n)) =
      strncpy ((x.bytes ++ rest).drop (1 + n)) (copySize ((x.bytes ++ rest).getD 0 0) (UInt64.ofNat n)) := by
  have ends := copy_ends few bounded
  have whole : 1 + n + copySize (x.memory rest beyond 0) (UInt64.ofNat n) ≤ (x.bytes ++ rest).length := by
    rw [List.length_append]
    omega
  have first : x.memory rest beyond 0 = (x.bytes ++ rest).getD 0 0 := memory_byte (by omega)
  rw [← first]
  exact congrArg (List.takeWhile _) (Memory.map_image whole beyond)

end Copies

/-- Where the copies are in bounds, what isdn4linux is told are the strings they copy and two bytes of the struct. -/
theorem callSetup_copies {cmsg : Cmsg} (numbers : Numbers cmsg) (inBounds : numbers.InBounds) :
    let phone := phoneCopy numbers.callingMemory
    let eazmsn := eazmsnCopy numbers.calledMemory
    (callSetup cmsg).phone = Memory.copied numbers.callingMemory phone.src phone.size ∧
      (callSetup cmsg).eazmsn = Memory.copied numbers.calledMemory eazmsn.src eazmsn.size ∧
      (callSetup cmsg).plan = numbers.callingMemory 1 ∧ (callSetup cmsg).screen = numbers.callingMemory 2 := by
  have phone := copied_eq (n := 2) (by decide) inBounds.phone
  have eazmsn := copied_eq (n := 1) (by decide) inBounds.eazmsn
  have plan := @memory_byte _ numbers.callingRest numbers.beyond _ inBounds.plan
  have screen := @memory_byte _ numbers.callingRest numbers.beyond _ inBounds.screen
  unfold callSetup
  simp only [numbers.callingPartyNumber, numbers.calledPartyNumber, Option.getD_some]
  exact ⟨phone.symm, eazmsn.symm, plan.symm, screen.symm⟩

/-- isdn4linux is told about a call exactly if both copies are in bounds. -/
theorem incomingSetup_iff {cmsg : Cmsg} (numbers : Numbers cmsg) :
    (∃ setup, incomingSetup cmsg = some setup) ↔ numbers.InBounds := by
  have phone := @bounded_iff numbers.calling numbers.callingRest numbers.beyond 2 (by decide)
  have eazmsn := @bounded_iff numbers.called numbers.calledRest numbers.beyond 1 (by decide)
  have first : ((cmsg.cstruct .callingPartyNumber).getD []).getD 0 0 = numbers.callingMemory 0 := by
    rw [numbers.callingPartyNumber]
    exact (memory_byte (bytes_pos numbers.calling)).symm
  have second : ((cmsg.cstruct .calledPartyNumber).getD []).getD 0 0 = numbers.calledMemory 0 := by
    rw [numbers.calledPartyNumber]
    exact (memory_byte (bytes_pos numbers.called)).symm
  have fit : NumbersFit cmsg ↔ numbers.InBounds := by
    rw [NumbersFit, first, second]
    constructor
    · intro ⟨calling, called⟩
      have calling := (copySize_le_iff (n := 2) (by decide)).mp calling
      have called := (copySize_le_iff (n := 1) (by decide)).mp called
      have length := length_short calling.1
      refine ⟨phone.mpr calling, eazmsn.mpr called, ?_, ?_⟩
      all_goals omega
    · intro inBounds
      exact ⟨(copySize_le_iff (n := 2) (by decide)).mpr (phone.mp inBounds.phone),
        (copySize_le_iff (n := 1) (by decide)).mpr (eazmsn.mp inBounds.eazmsn)⟩
  rw [← fit]
  constructor
  · intro ⟨setup, told⟩
    by_contra overrun
    cases told.symm.trans (if_neg overrun)
  · intro fits
    exact ⟨_, if_pos fits⟩

/-- Every message with two well-formed structs has numbers, whatever lies behind it. -/
theorem exists_numbers {cmsg : Cmsg} {calling called : Bytes} (callingPartyNumber : cmsg.cstruct .callingPartyNumber = some calling)
    (calledPartyNumber : cmsg.cstruct .calledPartyNumber = some called) (callingFormed : WellFormed (some calling))
    (calledFormed : WellFormed (some called)) (beyond : Nat → UInt8) :
    ∃ numbers : Numbers cmsg, numbers.beyond = beyond := by
  obtain ⟨x, rest, rfl⟩ := Struct.of_wellFormed callingFormed
  obtain ⟨y, rest', rfl⟩ := Struct.of_wellFormed calledFormed
  exact ⟨⟨x, y, rest, rest', beyond, callingPartyNumber, calledPartyNumber⟩, rfl⟩

/-- The numbers of a CONNECT_IND are copied within bounds exactly when both are in the short form, the calling one
has 2 to 34 bytes and the called one 1 to 33. -/
theorem numbers_inBounds_iff {cmsg : Cmsg} (numbers : Numbers cmsg) : numbers.InBounds ↔
    (numbers.calling.form = .short ∧ 2 ≤ numbers.calling.content.length ∧ numbers.calling.content.length ≤ 34) ∧
      (numbers.called.form = .short ∧ 1 ≤ numbers.called.content.length ∧ numbers.called.content.length ≤ 33) := by
  have phone := @bounded_iff numbers.calling numbers.callingRest numbers.beyond 2 (by decide)
  have eazmsn := @bounded_iff numbers.called numbers.calledRest numbers.beyond 1 (by decide)
  constructor
  · intro inBounds
    exact ⟨phone.mp inBounds.phone, eazmsn.mp inBounds.eazmsn⟩
  · intro ⟨calling, called⟩
    have length := length_short calling.1
    refine ⟨phone.mpr calling, eazmsn.mpr called, ?_, ?_⟩
    all_goals omega

/-- A CONNECT_IND of a caller without a number. -/
def anonymousCall : Bytes := controllerMsg CAPI_CONNECT_IND 0 [1, 1, 0, 0] [0, 0, 2, 0x81, 0x31, 0, 0, 0, 0, 0, 0, 0]

/-- Its empty number is copied with a size of `-2`. -/
theorem anonymous_overrun : ∃ cmsg, capiMessage2cmsg anonymousCall = some cmsg ∧ cmd cmsg = CAPI_CONNECT_IND ∧
    ∃ numbers : Numbers cmsg, ¬ numbers.InBounds := by
  obtain ⟨cmsg, decoded⟩ : ∃ cmsg, capiMessage2cmsg anonymousCall = some cmsg := ⟨_, rfl⟩
  have message : (capiMessage2cmsg anonymousCall).map cmd = some CAPI_CONNECT_IND := rfl
  have calling : (capiMessage2cmsg anonymousCall).bind (fun c => c.cstruct .callingPartyNumber) =
      some [0, 0, 0, 0, 0, 0, 0] := rfl
  have called : (capiMessage2cmsg anonymousCall).bind (fun c => c.cstruct .calledPartyNumber) =
      some [2, 0x81, 0x31, 0, 0, 0, 0, 0, 0, 0] := rfl
  rw [decoded] at message calling called
  let numbers : Numbers cmsg :=
    { calling := ⟨.short, [], by decide⟩
      called := ⟨.short, [0x81, 0x31], by decide⟩
      callingRest := [0, 0, 0, 0, 0, 0]
      calledRest := [0, 0, 0, 0, 0, 0, 0]
      beyond := fun _ => 0
      callingPartyNumber := calling
      calledPartyNumber := called }
  refine ⟨cmsg, decoded, Option.some.inj message, numbers, fun inBounds => ?_⟩
  have writes := inBounds.phone.writes
  rw [Memory.length_written] at writes
  have empty : (numbers.callingMemory 0).toNat < 2 := by
    show (0 : UInt8).toNat < 2
    decide
  exact absurd writes (Nat.not_le.mpr (copySize_wraps _ empty (by decide)))

end Capi4Linux.Capidrv
