import Capi4Linux.Capi.Delivery
import Capi4Linux.Capi.Ledger

/-!
# The counters of a tty

`inbytes`, `outbytes` and `nack` are kept by hand beside their queues, as `int`.
The send loop counts a packet down by the 16-bit length in its header, so a
packet must not be longer than that; and a queue must not hold more than an
`int` counts.
-/

namespace Capi4Linux.Capi
open Bytes Capicore Machine

/-- The total length of the buffers of a queue. -/
def queueBytes (queue : List Skb) : Nat := (queue.map Skb.len).sum

/-- The counters are those of the queues, and `ackqueue` holds the handles of what is accepted and not confirmed. -/
structure Accounted (mp : Capiminor) (b : Book) : Prop where
  inbytes : mp.inbytes.toInt = queueBytes mp.inqueue
  outbytes : mp.outbytes.toInt = queueBytes mp.outqueue
  nack : mp.nack.toInt = mp.ackqueue.length
  ackqueue : mp.ackqueue.Perm b.unconfirmed

/-- The queues hold no more than an `int` counts. -/
structure Countable (mp : Capiminor) : Prop where
  inqueue : queueBytes mp.inqueue < 2147483648
  outqueue : queueBytes mp.outqueue < 2147483648
  ackqueue : mp.ackqueue.length < 2147483648

/-- What every turn keeps: the counters are those of the queues as far as an `int` goes. -/
structure Accounting (x : Capiminor × Book) : Prop where
  inbytes : x.1.inbytes = .ofNat (queueBytes x.1.inqueue)
  outbytes : x.1.outbytes = .ofNat (queueBytes x.1.outqueue)
  nack : x.1.nack = .ofNat x.1.ackqueue.length
  ackqueue : x.1.ackqueue.Perm x.2.unconfirmed
  short : ∀ skb ∈ x.1.outqueue, skb.len ≤ 65535
  collected : ∀ skb, x.1.ttyskb = some skb → skb.len + skb.tailroom ≤ 65535

/-- The bytes of a queue with one more in front. -/
theorem queueBytes_cons (skb : Skb) (queue : List Skb) : queueBytes (skb :: queue) = skb.len + queueBytes queue := by
  simp [queueBytes]

/-- The bytes of a queue with one more behind. -/
theorem queueBytes_concat (queue : List Skb) (skb : Skb) : queueBytes (queue ++ [skb]) = queueBytes queue + skb.len := by
  simp [queueBytes]

/-- An `int` counts up to its largest value. -/
theorem toInt_ofNat_iff (n : Nat) : (Int32.ofNat n).toInt = n ↔ n < 2147483648 := by
  constructor
  · intro counts
    have largest := Int32.toInt_lt (Int32.ofNat n)
    omega
  · exact Int32.toInt_ofNat_of_lt

section Turns

variable {mp mp' : Capiminor} {b b' : Book}

/-- The counters are right exactly as long as the queues can be counted. -/
theorem Accounting.accounted_iff (accounting : Accounting (mp, b)) : Accounted mp b ↔ Countable mp := by
  obtain ⟨inbytes, outbytes, nack, ackqueue, -, -⟩ := accounting
  dsimp only at inbytes outbytes nack ackqueue
  constructor
  · intro accounted
    refine ⟨(toInt_ofNat_iff _).mp ?_, (toInt_ofNat_iff _).mp ?_, (toInt_ofNat_iff _).mp ?_⟩
    · rw [← inbytes]
      exact accounted.inbytes
    · rw [← outbytes]
      exact accounted.outbytes
    · rw [← nack]
      exact accounted.nack
  · intro countable
    refine ⟨?_, ?_, ?_, ackqueue⟩
    · rw [inbytes]
      exact (toInt_ofNat_iff _).mpr countable.inqueue
    · rw [outbytes]
      exact (toInt_ofNat_iff _).mpr countable.outqueue
    · rw [nack]
      exact (toInt_ofNat_iff _).mpr countable.ackqueue

/-- The queues stay, the characters collected and the handles may change. -/
theorem Accounting.sameQueues (accounting : Accounting (mp, b))
    (inqueue : mp'.inqueue = mp.inqueue ∧ mp'.inbytes = mp.inbytes)
    (outqueue : mp'.outqueue = mp.outqueue ∧ mp'.outbytes = mp.outbytes)
    (collected : ∀ skb, mp'.ttyskb = some skb → skb.len + skb.tailroom ≤ 65535)
    (nack : mp'.nack = .ofNat mp'.ackqueue.length) (perm : mp'.ackqueue.Perm b'.unconfirmed) : Accounting (mp', b') := by
  obtain ⟨inbytes, outbytes, -, -, short, -⟩ := accounting
  refine ⟨?_, ?_, nack, perm, ?_, collected⟩
  · rw [inqueue.1, inqueue.2]
    exact inbytes
  · rw [outqueue.1, outqueue.2]
    exact outbytes
  · rw [outqueue.1]
    exact short

/-- Nothing that is counted changes. -/
theorem Accounting.same (accounting : Accounting (mp, b))
    (inqueue : mp'.inqueue = mp.inqueue ∧ mp'.inbytes = mp.inbytes)
    (outqueue : mp'.outqueue = mp.outqueue ∧ mp'.outbytes = mp.outbytes)
    (collected : ∀ skb, mp'.ttyskb = some skb → skb.len + skb.tailroom ≤ 65535)
    (ackqueue : mp'.ackqueue = mp.ackqueue ∧ mp'.nack = mp.nack) : Accounting (mp', b) := by
  apply accounting.sameQueues inqueue outqueue collected
  · rw [ackqueue.1, ackqueue.2]
    exact accounting.nack
  · rw [ackqueue.1]
    exact accounting.ackqueue

/-- A buffer is appended to `outqueue`. -/
theorem Accounting.queue (accounting : Accounting (mp, b)) {skb : Skb} (short : skb.len ≤ 65535) (ttyskb : Option Skb)
    (collected : ∀ skb, ttyskb = some skb → skb.len + skb.tailroom ≤ 65535) :
    Accounting ({ mp with ttyskb, outqueue := mp.outqueue ++ [skb], outbytes := mp.outbytes + .ofNat skb.len }, b) := by
  obtain ⟨inbytes, outbytes, nack, ackqueue, bounded, -⟩ := accounting
  refine ⟨inbytes, ?_, nack, ackqueue, ?_, collected⟩
  · show mp.outbytes + .ofNat skb.len = .ofNat (queueBytes (mp.outqueue ++ [skb]))
    have counted : mp.outbytes = .ofNat (queueBytes mp.outqueue) := outbytes
    rw [queueBytes_concat, Int32.ofNat_add, counted]
  · intro skb' member
    rcases List.mem_append.mp member with before | last
    · exact bounded skb' before
    · rw [List.mem_singleton.mp last]
      exact short

/-- The head of `outqueue` is counted down by its 16-bit length. -/
theorem Accounting.unqueue (accounting : Accounting (mp, b)) {skb : Skb} {outqueue : List Skb}
    (queue : mp.outqueue = skb :: outqueue) :
    mp.outbytes - .ofNat (UInt16.ofNat skb.len).toNat = .ofNat (queueBytes outqueue) ∧
      ∀ skb ∈ outqueue, skb.len ≤ 65535 := by
  have short : ∀ skb' ∈ skb :: outqueue, skb'.len ≤ 65535 := by
    rw [← queue]
    exact accounting.short
  have counted : mp.outbytes = .ofNat (queueBytes (skb :: outqueue)) := by
    rw [← queue]
    exact accounting.outbytes
  constructor
  · have fits := short skb List.mem_cons_self
    have length : (UInt16.ofNat skb.len).toNat = skb.len := by
      rw [UInt16.toNat_ofNat']
      omega
    rw [counted, length, queueBytes_cons, Nat.add_comm, Int32.ofNat_add, Int32.add_sub_cancel]
  · intro skb' member
    exact short skb' (List.mem_cons_of_mem _ member)

/-- A minor's own changes are accounted for. -/
theorem Accounting.own {n : Nat} (accounting : Accounting (mp, b)) (short : n ≤ 65535) (own : Own n mp mp') :
    Accounting (mp', b) := by
  cases own with
  | same => exact accounting
  | flush =>
    unfold flushTtyskb
    split
    · exact accounting
    · rename_i skb collected
      have room : skb.len + skb.tailroom ≤ 65535 := accounting.collected skb collected
      apply accounting.queue (by omega)
      intro skb' none
      cases none
  | queue fits => exact accounting.queue (by omega) mp.ttyskb accounting.collected
  | @collect skb ch collected room =>
    refine accounting.same ⟨rfl, rfl⟩ ⟨rfl, rfl⟩ ?_ ⟨rfl, rfl⟩
    intro skb' put
    cases put
    have before := accounting.collected skb collected
    show (skb.data ++ [ch]).length + (skb.tailroom - 1) ≤ 65535
    have len : (skb.data ++ [ch]).length = skb.len + 1 := List.length_append
    omega
  | @start ch tailroom beyond room =>
    refine accounting.same ⟨rfl, rfl⟩ ⟨rfl, rfl⟩ ?_ ⟨rfl, rfl⟩
    intro skb' put
    cases put
    show 1 + tailroom ≤ 65535
    omega
  | mark => exact accounting.same ⟨rfl, rfl⟩ ⟨rfl, rfl⟩ accounting.collected ⟨rfl, rfl⟩

/-- A confirmation takes one handle out of both, if it is there. -/
theorem Accounting.confirm (accounting : Accounting (mp, b)) (datahandle : UInt16) :
    Accounting (capiminorDelAck mp datahandle, b.confirm datahandle) := by
  have nack : mp.nack = .ofNat mp.ackqueue.length := accounting.nack
  have erased : (mp.ackqueue.erase datahandle).Perm (b.unconfirmed.erase datahandle) := accounting.ackqueue.erase datahandle
  unfold capiminorDelAck
  split
  · rename_i member
    refine accounting.sameQueues ⟨rfl, rfl⟩ ⟨rfl, rfl⟩ accounting.collected ?_ erased
    have length : mp.ackqueue.length = (mp.ackqueue.erase datahandle).length + 1 := by
      have positive : 0 < mp.ackqueue.length := List.length_pos_of_mem member
      rw [List.length_erase_of_mem member]
      omega
    show mp.nack - 1 = .ofNat (mp.ackqueue.erase datahandle).length
    rw [nack, length, Int32.ofNat_add]
    exact Int32.add_sub_cancel _ 1
  · rename_i absent
    rw [List.erase_of_not_mem absent] at erased
    exact accounting.sameQueues ⟨rfl, rfl⟩ ⟨rfl, rfl⟩ accounting.collected nack erased

/-- A DATA_B3_REQ is a request with the minor's handle. -/
theorem requests_dataB3Req (ap : CapiAppl) (mp : Capiminor) (address : UInt32) {skb : Skb} (short : skb.len ≤ 65535) :
    (requests [(mp.ap, dataB3Req ap mp address (UInt16.ofNat skb.len) ++ skb.data)]).map dataHandle =
      [mp.datahandle] := by
  obtain ⟨request, -, -, handle⟩ := dataB3Req_reads ap mp address short
  have one : requests [(mp.ap, dataB3Req ap mp address (UInt16.ofNat skb.len) ++ skb.data)] =
      [dataB3Req ap mp address (UInt16.ofNat skb.len) ++ skb.data] := rfl
  rw [one, List.map_singleton]
  exact congrArg (fun h => [h]) handle

theorem Accounting.turn (x y : Capiminor × Book) (turn : Turn (· ≤ 65535) (fun _ => True) x y)
    (accounting : Accounting x) : Accounting y := by
  cases turn with
  | own fits own => exact accounting.own fits own
  | opened => exact accounting.same ⟨rfl, rfl⟩ ⟨rfl, rfl⟩ accounting.collected ⟨rfl, rfl⟩
  | closed => exact accounting.same ⟨rfl, rfl⟩ ⟨rfl, rfl⟩ accounting.collected ⟨rfl, rfl⟩
  | detached => exact accounting.same ⟨rfl, rfl⟩ ⟨rfl, rfl⟩ accounting.collected ⟨rfl, rfl⟩
  | @arrived mp b skb =>
    obtain ⟨inbytes, outbytes, nack, ackqueue, short, collected⟩ := accounting
    refine ⟨?_, outbytes, nack, ackqueue, short, collected⟩
    show mp.inbytes + .ofNat skb.len = .ofNat (queueBytes (mp.inqueue ++ [skb]))
    have counted : mp.inbytes = .ofNat (queueBytes mp.inqueue) := inbytes
    rw [queueBytes_concat, Int32.ofNat_add, counted]
  | confirmed => exact accounting.confirm _
  | stuck => exact accounting.same ⟨rfl, rfl⟩ ⟨rfl, rfl⟩ accounting.collected ⟨rfl, rfl⟩
  | @delivered mp b skb inqueue tty ap queue =>
    obtain ⟨inbytes, outbytes, nack, ackqueue, short, collected⟩ := accounting
    refine ⟨?_, outbytes, nack, ?_, short, collected⟩
    · show mp.inbytes - .ofNat skb.len = .ofNat (queueBytes inqueue)
      have counted : mp.inbytes = .ofNat (queueBytes (skb :: inqueue)) := by
        rw [← queue]
        exact inbytes
      rw [counted, queueBytes_cons, Nat.add_comm, Int32.ofNat_add, Int32.add_sub_cancel]
    · show mp.ackqueue.Perm (b.unconfirmed ++ [])
      rw [List.append_nil]
      exact ackqueue
  | @held mp b ackqueue same =>
    have before : mp.nack = .ofNat mp.ackqueue.length := accounting.nack
    refine accounting.sameQueues ⟨rfl, rfl⟩ ⟨rfl, rfl⟩ accounting.collected ?_ ?_
    · show mp.nack = .ofNat ackqueue.length
      rw [same.length_eq]
      exact before
    · exact same.trans accounting.ackqueue
  | @accepted mp b skb outqueue ap address queue =>
    have fits : skb.len ≤ 65535 := by
      apply accounting.short
      rw [queue]
      exact List.mem_cons_self
    obtain ⟨outbytes, short⟩ := accounting.unqueue queue
    obtain ⟨inbytes, -, nack, ackqueue, -, collected⟩ := accounting
    refine ⟨inbytes, outbytes, ?_, ?_, short, collected⟩
    · have counted : mp.nack = .ofNat mp.ackqueue.length := nack
      show mp.nack + 1 = .ofNat (mp.ackqueue ++ [mp.datahandle]).length
      rw [List.length_append, List.length_singleton, Int32.ofNat_add, counted]
      rfl
    · show (mp.ackqueue ++ [mp.datahandle]).Perm (b.unconfirmed ++ _)
      rw [requests_dataB3Req ap mp address fits]
      exact List.Perm.append_right _ ackqueue
  | @dropped mp b skb outqueue ackqueue queue same =>
    have before : mp.nack = .ofNat mp.ackqueue.length := accounting.nack
    obtain ⟨outbytes, short⟩ := accounting.unqueue queue
    refine ⟨accounting.inbytes, outbytes, ?_, same.trans accounting.ackqueue, short, accounting.collected⟩
    show mp.nack = .ofNat ackqueue.length
    rw [same.length_eq]
    exact before

theorem Capiminor.Born.accounting (born : mp.Born) : Accounting (mp, .empty) := by
  obtain ⟨-, ttyskb, ⟨inqueue, inbytes⟩, ⟨outqueue, outbytes⟩, ackqueue, nack⟩ := born
  refine ⟨?_, ?_, ?_, ?_, ?_, ?_⟩
  · rw [inqueue, inbytes]
    rfl
  · rw [outqueue, outbytes]
    rfl
  · rw [ackqueue, nack]
    rfl
  · rw [ackqueue]
    exact .nil
  · rw [outqueue]
    intro skb member
    cases member
  · rw [ttyskb]
    intro skb none
    cases none

end Turns

/-- The minors are accounted for, and `chars_in_buffer` tells what waits to be sent. -/
def CountersRight (x : Ledger) : Prop :=
  ∀ p mp, x.driver.minors p = some mp → Accounted mp (x.books p) ∧
    ∀ tty, ttyMinor x.driver tty = some (some (p, mp)) →
      capincTtyCharsInBuffer x.driver tty = some (queueBytes mp.outqueue : Int)

/-- The queues of all minors can be counted. -/
def QueuesCountable (x : Ledger) : Prop := ∀ p mp, x.driver.minors p = some mp → Countable mp

/-- Every minor is accounted for as far as an `int` goes. -/
theorem minors_accounting (env : Env) {events : List Event}
    (carries : ∀ event ∈ events, event.Carries (· ≤ 65535) fun _ => True) :
    Always (bookStep env) (fun x => ∀ p mp, x.driver.minors p = some mp → Accounting (mp, x.books p)) .init events := by
  have zero : 0 ≤ 65535 := by omega
  exact (minors_keep env zero (fun mp born => born.accounting) Accounting.turn carries).mono fun x kept => kept.holds

/-- The counters are right as long as an `int` can hold the queues. -/
theorem countersRight_iff {x : Ledger} (accounting : ∀ p mp, x.driver.minors p = some mp → Accounting (mp, x.books p)) :
    CountersRight x ↔ QueuesCountable x := by
  constructor
  · intro right p mp live
    exact (accounting p mp live).accounted_iff.mp (right p mp live).1
  · intro countable p mp live
    have accounted := (accounting p mp live).accounted_iff.mpr (countable p mp live)
    refine ⟨accounted, fun tty found => ?_⟩
    unfold capincTtyCharsInBuffer
    rw [found]
    exact congrArg some accounted.outbytes

/-- In a run with writes of at most 65535 bytes the counters are right exactly as long as the queues can be counted;
nothing is accepted outside the books. -/
theorem tty_counters_right_iff (env : Env) {events : List Event}
    (carries : ∀ event ∈ events, event.Carries (· ≤ 65535) fun _ => True) :
    (Always (bookStep env) CountersRight .init events ↔ Always (bookStep env) QueuesCountable .init events) ∧
      Each (bookStep env) (fun x event x' => Unbooked x.driver x'.driver event) .init events := by
  have zero : 0 ≤ 65535 := by omega
  refine ⟨?_, books_complete env zero carries⟩
  exact ((minors_accounting env carries).mono fun x accounting => countersRight_iff accounting).congr

/-- A DATA_B3_CONF with the NCCI 0x101. -/
def dataConf (datahandle : UInt16) : Skb :=
  .ofDevice ([16, 0, 1, 0, 0x86, 0x81, 1, 0, 1, 1, 0, 0] ++ le 2 datahandle.toNat ++ le 2 0)

/-- A character and a write leave in two packets, of which the second is confirmed first. -/
def confirmedBackwards : List Event :=
  incoming ++ [.call (.ttyOpen 0), .call (.ttyPutChar 0 65), .call (.ttyWrite 0 true [66, 67]),
    .message 0 (dataConf 1), .message 0 (dataConf 0)]

theorem confirmedBackwards_carries :
    ∀ event ∈ confirmedBackwards, event.Carries (· ≤ 65535) fun _ => True := by
  intro event member
  simp only [confirmedBackwards, incoming, List.cons_append, List.nil_append, List.mem_cons, List.not_mem_nil,
    or_false] at member
  rcases member with rfl | rfl | rfl | rfl | rfl | rfl | rfl | rfl | rfl
  · trivial
  · trivial
  · trivial
  · intro _
    trivial
  · trivial
  · trivial
  · show [66, 67].length ≤ 65535
    decide
  · intro _
    trivial
  · intro _
    trivial

/-- Only minor 0 is there, and its queues can be counted. -/
theorem QueuesCountable.of_one {x : Ledger} (others : ∀ p, x.driver.minors (p + 1) = none)
    (here : ∀ mp, x.driver.minors 0 = some mp → Countable mp) : QueuesCountable x := by
  intro p mp live
  cases p with
  | zero => exact here mp live
  | succ p => cases (others p).symm.trans live

theorem confirmedBackwards_countable : Always (bookStep .granting) QueuesCountable .init confirmedBackwards := by
  have none : ∀ {x : Ledger}, x.driver.minors = (fun _ => .none) → QueuesCountable x := by
    intro x empty p mp live
    rw [empty] at live
    cases live
  refine ⟨none rfl, fun _ h => ?_⟩
  cases h
  refine ⟨none rfl, fun _ h => ?_⟩
  cases h
  refine ⟨none rfl, fun _ h => ?_⟩
  cases h
  refine ⟨none rfl, fun _ h => ?_⟩
  cases h
  refine ⟨.of_one (fun _ => rfl) fun _ h => ?_, fun _ h => ?_⟩
  · cases h; exact ⟨by decide, by decide, by decide⟩
  cases h
  refine ⟨.of_one (fun _ => rfl) fun _ h => ?_, fun _ h => ?_⟩
  · cases h; exact ⟨by decide, by decide, by decide⟩
  cases h
  refine ⟨.of_one (fun _ => rfl) fun _ h => ?_, fun _ h => ?_⟩
  · cases h; exact ⟨by decide, by decide, by decide⟩
  cases h
  refine ⟨.of_one (fun _ => rfl) fun _ h => ?_, fun _ h => ?_⟩
  · cases h; exact ⟨by decide, by decide, by decide⟩
  cases h
  refine ⟨.of_one (fun _ => rfl) fun _ h => ?_, fun _ h => ?_⟩
  · cases h; exact ⟨by decide, by decide, by decide⟩
  cases h
  refine .of_one (fun _ => rfl) fun _ h => ?_
  cases h
  exact ⟨by decide, by decide, by decide⟩

theorem tty_counters_right_backwards :
    Always (bookStep .granting) CountersRight .init confirmedBackwards ∧
      Each (bookStep .granting) (fun x event x' => Unbooked x.driver x'.driver event) .init confirmedBackwards := by
  obtain ⟨right, booked⟩ := tty_counters_right_iff .granting confirmedBackwards_carries
  exact ⟨right.mpr confirmedBackwards_countable, booked⟩

/-! ## A tty that is stopped -/

/-- A tty is opened and stopped, and `n` times the same is written to it. -/
def writtenStopped (n : Nat) (buf : Bytes) : List Event :=
  incoming ++ [.call (.ttyOpen 0), .call (.ttyStop 0)] ++ List.replicate n (.call (.ttyWrite 0 true buf))

/-- The tty is stopped and `outbytes` bytes wait to be sent. -/
structure StoppedWith (outbytes : Nat) (x : Ledger) : Prop where
  ref : x.driver.ttys 0 = some 0
  minor : ∃ mp, x.driver.minors 0 = some mp ∧ mp.nccip = true ∧ mp.tty = some 0 ∧ mp.ttyoutstop = true ∧
    mp.ttyskb = none ∧ mp.inqueue = [] ∧ queueBytes mp.outqueue = outbytes

/-- A write to a tty that is stopped only adds to what waits. -/
theorem StoppedWith.write {outbytes : Nat} {x : Ledger} (stopped : StoppedWith outbytes x) (buf : Bytes) :
    ∃ x', bookStep .granting x (.call (.ttyWrite 0 true buf)) = some x' ∧ StoppedWith (outbytes + buf.length) x' := by
  obtain ⟨ref, mp, live, nccip, tty, outstop, ttyskb, inqueue, waits⟩ := stopped
  let skb : Skb := { data := buf, tailroom := 0, beyond := Env.granting.slab x.driver.tick }
  let mp' : Capiminor := { mp with outqueue := mp.outqueue ++ [skb], outbytes := mp.outbytes + .ofNat skb.len }
  let s := (x.driver.setMinor 0 mp).asked.setMinor 0 mp'
  have here : s.minors 0 = some mp' := by
    show Function.update (x.driver.setMinor 0 mp).asked.minors 0 (some mp') 0 = _
    rw [Function.update_self]
  have found : ttyMinor x.driver 0 = some (some (0, mp)) := by
    simp only [ttyMinor, ref, live, nccip, Option.bind_eq_bind, Option.bind_some, if_true]
  have flushed : flushTtyskb mp = mp := by rw [flushTtyskb, ttyskb]
  have sent : handleMinorSend .granting s 0 = some (s, 0) := by
    have stops : mp'.tty.isSome ∧ mp'.ttyoutstop = true := ⟨by rw [show mp'.tty = some 0 from tty]; rfl, outstop⟩
    simp only [handleMinorSend, here, Option.bind_eq_bind, Option.bind_some, if_pos stops]
    rfl
  have received : handleMinorRecv .granting s 0 = some s := by
    have empty : mp'.inqueue = [] := inqueue
    simp only [handleMinorRecv, handleMinorRecvLoop, here, empty, Option.bind_eq_bind, Option.bind_some]
  have run : capincTtyWrite .granting x.driver 0 true buf = some (s, (buf.length : Int)) := by
    simp only [capincTtyWrite, found, flushed, Option.bind_eq_bind, Option.bind_some]
    show (handleMinorSend .granting s 0).bind _ = _
    rw [sent]
    show (handleMinorRecv .granting s 0).bind _ = _
    rw [received]
    rfl
  have next : eventStep .granting x.driver (.call (.ttyWrite 0 true buf)) = some s := congrArg (Option.map Prod.fst) run
  refine ⟨_, congrArg (Option.map _) next, ref, mp', here, nccip, tty, outstop, ttyskb, inqueue, ?_⟩
  show queueBytes (mp.outqueue ++ [skb]) = _
  rw [queueBytes_concat, waits]
  rfl

theorem StoppedWith.writes {outbytes : Nat} {x : Ledger} (stopped : StoppedWith outbytes x) (n : Nat) (buf : Bytes) :
    ∃ x', exec (bookStep .granting) x (List.replicate n (.call (.ttyWrite 0 true buf))) = some x' ∧
      StoppedWith (outbytes + n * buf.length) x' := by
  induction n generalizing x outbytes with
  | zero => exact ⟨x, rfl, by rwa [Nat.zero_mul, Nat.add_zero]⟩
  | succ n ih =>
    obtain ⟨x₁, first, stopped₁⟩ := stopped.write buf
    obtain ⟨x', rest, stopped'⟩ := ih stopped₁
    refine ⟨x', ?_, ?_⟩
    · rw [List.replicate_succ, exec, first]
      exact rest
    · rwa [Nat.succ_mul, Nat.add_comm (n * buf.length), ← Nat.add_assoc]

theorem writtenStopped_carries (n : Nat) {buf : Bytes} (short : buf.length ≤ 65535) :
    ∀ event ∈ writtenStopped n buf, event.Carries (· ≤ 65535) fun _ => True := by
  intro event member
  simp only [writtenStopped, incoming, List.cons_append, List.nil_append, List.mem_cons] at member
  rcases member with rfl | rfl | rfl | rfl | rfl | rfl | member
  · trivial
  · trivial
  · trivial
  · intro _
    trivial
  · trivial
  · trivial
  · rw [List.eq_of_mem_replicate member]
    exact short

/-- More waits than an `int` counts. -/
theorem writtenStopped_overflows {n : Nat} {buf : Bytes} (short : buf.length ≤ 65535) (many : 2147483648 ≤ n * buf.length) :
    ¬ Always (bookStep .granting) CountersRight .init (writtenStopped n buf) := by
  intro right
  obtain ⟨x, opened⟩ : ∃ x, exec (bookStep .granting) .init (incoming ++ [.call (.ttyOpen 0), .call (.ttyStop 0)]) =
      some x := ⟨_, rfl⟩
  have stopped : StoppedWith 0 x := by
    cases opened
    exact ⟨rfl, _, rfl, rfl, rfl, rfl, rfl, rfl, rfl⟩
  obtain ⟨x', filled, full⟩ := stopped.writes n buf
  have run : exec (bookStep .granting) .init (writtenStopped n buf) = some x' := by
    rw [writtenStopped, exec_append, opened]
    exact filled
  obtain ⟨mp, live, -, -, -, -, -, waits⟩ := full.minor
  have accounting := (minors_accounting .granting (writtenStopped_carries n short)).last run
  have most := (accounting 0 mp live).accounted_iff.mp (right.last run 0 mp live).1 |>.outqueue
  rw [waits] at most
  omega

/-- After 32769 writes of 65535 bytes `outbytes` has passed the largest `int`. -/
theorem stopped_tty_overflows :
    (∀ event ∈ writtenStopped 32769 (List.replicate 65535 65), event.Carries (· ≤ 65535) fun _ => True) ∧
      ¬ Always (bookStep .granting) CountersRight .init (writtenStopped 32769 (List.replicate 65535 65)) := by
  have length : (List.replicate 65535 (65 : UInt8)).length = 65535 := List.length_replicate
  generalize List.replicate 65535 (65 : UInt8) = buf at length
  exact ⟨writtenStopped_carries 32769 (by omega), writtenStopped_overflows (by omega) (by omega)⟩

end Capi4Linux.Capi
