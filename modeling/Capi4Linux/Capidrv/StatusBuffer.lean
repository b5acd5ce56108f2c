import Capi4Linux.Capidrv.Trace
import Capi4Linux.Lib.RingBuffer

/-!
# The status buffer

`handle_dtrace_data` prints its line into `q931_buf` and announces its length
with ISDN_STAT_STAVAIL; `if_readstat` copies from the buffer what it is asked
for. Neither looks at the other's cursor.
-/

namespace Capi4Linux.Capidrv
open Bytes Capicore Capiutil Machine

/-- A call of one of the two; `data` has the `u16` length that is passed with it. -/
inductive StatusCall where
  | handleDtraceData (send level2 : Bool) (data : Bytes)
  | ifReadstat (len : Int)

/-- What a call has printed. -/
def StatusCall.line : StatusCall → Bytes
  | .handleDtraceData send level2 data => if data = [] then [] else traceLine send level2 data
  | .ifReadstat _ => []

/-- A card, what was printed so far, and what was read. -/
structure StatusLog where
  card : Card
  written : Bytes
  read : Bytes

/-- The card as `capidrv_addcontr` leaves it, with any bytes in the buffer. -/
structure StatusLog.Start (t : StatusLog) : Prop where
  read : t.card.q931Read = 0
  write : t.card.q931Write = 0
  status : t.card.status = []
  none : t.written = [] ∧ t.read = []

def statusStep (t : StatusLog) (call : StatusCall) : Option StatusLog :=
  match call with
  | .handleDtraceData send level2 data =>
    some { t with
      card := handleDtraceData t.card send level2 data data.length
      written := t.written ++ call.line }
  | .ifReadstat len =>
    let (bytes, card) := ifReadstat len.toNat t.card
    some { t with card, read := t.read ++ bytes }

/-- What ISDN_STAT_STAVAIL has announced. -/
def announced (s : Card) : Nat := (s.status.map fun | .STAVAIL len => len | _ => 0).sum

/-- The bytes that are announced and not read yet. -/
def StatusLog.unread (t : StatusLog) : Int := announced t.card - t.read.length

/-- A read asks for no more than there is, and a line leaves no more than 4096 bytes unread. -/
def StatusAllowed (t : StatusLog) (call : StatusCall) : Prop :=
  match call with
  | .handleDtraceData .. => ∀ t', statusStep t call = some t' → t'.unread ≤ 4096
  | .ifReadstat len => len ≤ t.unread

/-- The cursors stay in `q931_buf`, nothing behind it is written, and what was printed is what was read and what a
read of all unread bytes would read now. -/
structure StatusFifo (first t : StatusLog) : Prop where
  read : t.card.q931Read < 4096
  write : t.card.q931Write < 4096
  frame : ∀ i, 4096 ≤ i → t.card.q931Buf i = first.card.q931Buf i
  fifo : t.written = t.read ++ (ifReadstat t.unread.toNat t.card).1

/-- A line is written byte by byte, as long as it is announced to be; a read returns as many bytes as it asks for. The
cursors stay in `q931_buf` after every byte. -/
def StatusExact (t : StatusLog) (call : StatusCall) (t' : StatusLog) : Prop :=
  match call with
  | .handleDtraceData _ _ data =>
    if data.length = 0 then t' = t
    else
      t'.card = (call.line.foldl putbyteToStatus t.card).statcallb (.STAVAIL call.line.length) ∧
      call.line.length = 3 * data.length + 5 ∧
      ∀ bytes, bytes <+: call.line → (bytes.foldl putbyteToStatus t.card).q931Write < 4096
  | .ifReadstat len =>
    (∃ bytes, t'.read = t.read ++ bytes ∧ bytes.length = len.toNat) ∧
      ∀ n, n ≤ len.toNat → (ifReadstat n t.card).2.q931Read < 4096

/-! ## The buffer is a ring -/

section Ring

def Card.ring (s : Card) : RingBuffer UInt8 := ⟨s.q931Buf, s.q931Read, s.q931Write⟩

/-- Bytes put one after the other enter the ring in their order. -/
theorem ring_putbytes (bs : Bytes) (s : Card) :
    (bs.foldl putbyteToStatus s).ring = bs.foldl (RingBuffer.put 4095) s.ring := by
  induction bs generalizing s with
  | nil => rfl
  | cons b bs ih => exact ih (putbyteToStatus s b)

theorem status_putbytes (bs : Bytes) (s : Card) : (bs.foldl putbyteToStatus s).status = s.status := by
  induction bs generalizing s with
  | nil => rfl
  | cons b bs ih => exact ih (putbyteToStatus s b)

/-- A read takes its bytes from the ring. -/
theorem ifReadstat_ring (n : Nat) (s : Card) : (ifReadstat n s).1 = (RingBuffer.gets 4095 n s.ring).1 ∧
    (ifReadstat n s).2.ring = (RingBuffer.gets 4095 n s.ring).2 := by
  induction n generalizing s with
  | zero => exact ⟨rfl, rfl⟩
  | succ n ih =>
    obtain ⟨bytes, ring⟩ := ih { s with q931Read := RingBuffer.bump 4095 s.q931Read }
    constructor
    · exact congrArg (s.q931Buf s.q931Read :: ·) bytes
    · exact ring

theorem status_ifReadstat (n : Nat) (s : Card) : (ifReadstat n s).2.status = s.status := by
  induction n generalizing s with
  | zero => rfl
  | succ n ih => exact ih { s with q931Read := RingBuffer.bump 4095 s.q931Read }

theorem announced_statcallb (s : Card) (len : Nat) : announced (s.statcallb (.STAVAIL len)) = announced s + len := by
  unfold announced Card.statcallb
  rw [List.map_append, List.sum_append]
  rfl

/-- The line of a trace with data. -/
theorem line_filled (send level2 : Bool) {data : Bytes} (filled : data ≠ []) :
    (StatusCall.handleDtraceData send level2 data).line = traceLine send level2 data := if_neg filled

/-- A trace with data is printed and announced. -/
theorem printed_filled (s : Card) (send level2 : Bool) {data : Bytes} (filled : data ≠ []) :
    printed s send level2 data = ((traceLine send level2 data).foldl putbyteToStatus s).statcallb
      (.STAVAIL (traceLine send level2 data).length) := if_neg filled

theorem ring_statcallb (s : Card) (status : Status) : (s.statcallb status).ring = s.ring := rfl

theorem announced_printed (s : Card) (send level2 : Bool) (data : Bytes) :
    announced (printed s send level2 data) =
      announced s + (StatusCall.handleDtraceData send level2 data).line.length := by
  rcases eq_or_ne data [] with rfl | filled
  · rfl
  · rw [printed_filled s send level2 filled, line_filled send level2 filled, announced_statcallb]
    unfold announced
    rw [status_putbytes]

/-- A trace puts its line in the ring. -/
theorem ring_printed (s : Card) (send level2 : Bool) (data : Bytes) : (printed s send level2 data).ring =
    (StatusCall.handleDtraceData send level2 data).line.foldl (RingBuffer.put 4095) s.ring := by
  rcases eq_or_ne data [] with rfl | filled
  · rfl
  · rw [printed_filled s send level2 filled, line_filled send level2 filled, ring_statcallb, ring_putbytes]

end Ring

/-! ## Runs -/

section Runs

variable {first t t' : StatusLog} {call : StatusCall}

/-- The bytes in the buffer are those that are announced and not read. -/
structure StatusHolds (first t : StatusLog) (q : Bytes) : Prop where
  holds : RingBuffer.Holds 4095 t.card.ring q
  frame : ∀ i, 4096 ≤ i → t.card.q931Buf i = first.card.q931Buf i
  written : t.written = t.read ++ q
  unread : t.unread = q.length

theorem StatusLog.Start.holds (start : first.Start) : StatusHolds first first [] where
  holds := by
    apply RingBuffer.Holds.nil
    · show first.card.q931Read ≤ 4095
      rw [start.read]
      omega
    · exact start.write.trans start.read.symm
  frame _ _ := rfl
  written := by rw [start.none.1, start.none.2, List.append_nil]
  unread := by
    unfold StatusLog.unread announced
    rw [start.status, start.none.2]
    rfl

/-- What holds is first in, first out. -/
theorem StatusHolds.fifo {q : Bytes} (holds : StatusHolds first t q) : StatusFifo first t where
  read := Nat.lt_succ_of_le holds.holds.inside
  write := Nat.lt_succ_of_le holds.holds.write_le
  frame := holds.frame
  fifo := by
    have all : RingBuffer.Holds 4095 t.card.ring (q ++ []) := by
      rw [List.append_nil]
      exact holds.holds
    rw [holds.unread, Int.toNat_natCast, (ifReadstat_ring _ _).1, all.gets.1]
    exact holds.written

/-- A trace announces what it put in the ring. -/
theorem statusExact_printed {send level2 : Bool} {data : Bytes} (inside : t.card.ring.write ≤ 4095) :
    StatusExact t (.handleDtraceData send level2 data) { t with
      card := handleDtraceData t.card send level2 data data.length
      written := t.written ++ (StatusCall.handleDtraceData send level2 data).line } := by
  unfold StatusExact
  rw [handleDtraceData_eq]
  rcases eq_or_ne data [] with rfl | filled
  · show { t with written := t.written ++ [] } = t
    rw [List.append_nil]
  · have some : data.length ≠ 0 := fun none => filled (List.length_eq_zero_iff.mp none)
    rw [line_filled send level2 filled, printed_filled t.card send level2 filled]
    show if data.length = 0 then _ else _
    rw [if_neg some]
    refine ⟨rfl, ?_, ?_⟩
    · rw [length_traceLine]
      omega
    · intro bytes _
      show (bytes.foldl putbyteToStatus t.card).ring.write < 4096
      rw [ring_putbytes]
      exact Nat.lt_succ_of_le (RingBuffer.puts_write_le inside bytes)

/-- One call. -/
theorem statusStep_holds {q : Bytes} (holds : StatusHolds first t q) (allowed : StatusAllowed t call)
    (run : statusStep t call = some t') : StatusExact t call t' ∧ ∃ q', StatusHolds first t' q' := by
  cases call with
  | handleDtraceData send level2 data =>
    have fits := allowed t' run
    cases run
    have card := handleDtraceData_eq t.card send level2 data
    have ring := ring_printed t.card send level2 data
    have more := announced_printed t.card send level2 data
    have before := holds.unread
    unfold StatusLog.unread at fits before
    dsimp only at fits
    rw [card, more, Nat.cast_add] at fits
    constructor
    · exact statusExact_printed holds.holds.write_le
    · refine ⟨q ++ (StatusCall.handleDtraceData send level2 data).line, ?_, ?_, ?_, ?_⟩
      · dsimp only
        rw [card, ring]
        apply holds.holds.puts
        omega
      · intro i behind
        dsimp only
        rw [card]
        show (printed t.card send level2 data).ring.cells i = _
        rw [ring, RingBuffer.puts_frame holds.holds.write_le _ behind]
        exact holds.frame i behind
      · dsimp only
        rw [holds.written, List.append_assoc]
      · unfold StatusLog.unread
        dsimp only
        rw [card, more, List.length_append]
        omega
  | ifReadstat len =>
    cases run
    obtain ⟨bytes, ring⟩ := ifReadstat_ring len.toNat t.card
    have before := holds.unread
    have enough : len.toNat ≤ q.length := by
      have asked : len ≤ t.unread := allowed
      omega
    have split : RingBuffer.Holds 4095 t.card.ring (q.take len.toNat ++ q.drop len.toNat) := by
      rw [List.take_append_drop]
      exact holds.holds
    have size : (q.take len.toNat).length = len.toNat := by
      rw [List.length_take]
      omega
    obtain ⟨oldest, left⟩ := split.gets
    rw [size] at oldest left
    rw [oldest] at bytes
    constructor
    · refine ⟨⟨q.take len.toNat, congrArg (t.read ++ ·) bytes, size⟩, ?_⟩
      intro n _
      show (ifReadstat n t.card).2.ring.read < 4096
      rw [(ifReadstat_ring n t.card).2]
      exact Nat.lt_succ_of_le (RingBuffer.gets_read_le holds.holds.inside n)
    · refine ⟨q.drop len.toNat, ?_, ?_, ?_, ?_⟩
      · dsimp only
        rw [ring]
        exact left
      · intro i behind
        show (ifReadstat len.toNat t.card).2.ring.cells i = _
        rw [ring, RingBuffer.gets_cells]
        exact holds.frame i behind
      · dsimp only
        rw [bytes, List.append_assoc, List.take_append_drop]
        exact holds.written
      · unfold StatusLog.unread announced at before ⊢
        dsimp only
        rw [status_ifReadstat, bytes, List.length_append, size, List.length_drop]
        omega

/-- The status buffer is a queue of the bytes that are announced and not read. -/
theorem status_fifo (first : StatusLog) (start : first.Start) (calls : List StatusCall)
    (allowed : Meets statusStep StatusAllowed first calls) :
    Always statusStep (StatusFifo first) first calls ∧ Each statusStep StatusExact first calls := by
  have keep : ∀ t call t', (∃ q, StatusHolds first t q) → StatusAllowed t call → statusStep t call = some t' →
      StatusExact t call t' ∧ ∃ q, StatusHolds first t' q := by
    rintro t call t' ⟨q, holds⟩ allowed run
    exact statusStep_holds holds allowed run
  have begins : ∃ q, StatusHolds first first q := ⟨[], start.holds⟩
  constructor
  · have holds : Always statusStep (fun t => ∃ q, StatusHolds first t q) first calls := by
      refine always_of_inv ?_ begins allowed
      intro t call t' inv allowed run
      exact (keep t call t' inv allowed run).2
    refine holds.mono ?_
    rintro t ⟨q, holds⟩
    exact holds.fifo
  · exact each_of_inv (fun t => ∃ q, StatusHolds first t q) keep begins allowed

/-- A frame of two bytes is printed, and its line is read in two parts. -/
theorem status_fifo_line :
    Always statusStep (StatusFifo ⟨Card.init, [], []⟩) ⟨Card.init, [], []⟩
        [.handleDtraceData true false [0x1a, 2], .ifReadstat 7, .ifReadstat 4] ∧
      Each statusStep StatusExact ⟨Card.init, [], []⟩
        [.handleDtraceData true false [0x1a, 2], .ifReadstat 7, .ifReadstat 4] := by
  apply status_fifo
  · exact ⟨rfl, rfl, rfl, rfl, rfl⟩
  · constructor
    · intro t run
      cases run
      decide
    intro t run
    cases run
    constructor
    · show (7 : Int) ≤ StatusLog.unread _
      decide
    intro t run
    cases run
    constructor
    · show (4 : Int) ≤ StatusLog.unread _
      decide
    · intro t run
      trivial

end Runs

end Capi4Linux.Capidrv
