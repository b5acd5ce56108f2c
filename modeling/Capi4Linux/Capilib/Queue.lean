import Mathlib.Logic.Function.Basic
import Mathlib.Data.List.Basic

/-!
# capilib: the message id queue of an NCCI

`capilib.c` keeps, for every NCCI of a device driver, the ids of the
DATA_B3_REQ messages that the application has sent and the device has not
confirmed. The queue and the free list are linked through one pool of
`CAPI_MAXDATAWINDOW` entries inside `struct capilib_ncci`; here a pointer into
the pool is an index. `CAPI_MAXDATAWINDOW` comes from `capilli.h` and is the
parameter `maxwin`.
-/

namespace Capi4Linux.Capilib

/-- `struct capilib_msgidqueue`. -/
structure Msgidqueue where
  next : Option Nat
  msgid : UInt16

/-- `struct capilib_ncci`. -/
structure CapilibNcci where
  applid : UInt16
  ncci : UInt32
  winsize : Nat
  nmsg : Int
  msgidqueue : Option Nat
  msgidlast : Option Nat
  msgidfree : Option Nat
  msgidpool : Nat → Msgidqueue

/-- The results of `capilib_data_b3_req`. -/
inductive DataB3Info where
  | CAPI_NOERROR
  | CAPI_SENDQUEUEFULL
  deriving DecidableEq, Repr

namespace CapilibNcci

/-- The link out of a pool entry. -/
def next (np : CapilibNcci) (i : Nat) : Option Nat := (np.msgidpool i).next

/-- `np->msgidpool[i].next = v`. -/
def setNext (np : CapilibNcci) (i : Nat) (v : Option Nat) : CapilibNcci :=
  { np with msgidpool := Function.update np.msgidpool i { np.msgidpool i with next := v } }

/-- `np->msgidpool[i].msgid = v`. -/
def setMsgid (np : CapilibNcci) (i : Nat) (v : UInt16) : CapilibNcci :=
  { np with msgidpool := Function.update np.msgidpool i { np.msgidpool i with msgid := v } }

end CapilibNcci

/-- What `pp` points at: the head of the queue or the link out of an entry. -/
inductive Link where
  | queue
  | next (i : Nat)

/-- `*pp`. -/
def CapilibNcci.load (np : CapilibNcci) : Link → Option Nat
  | .queue => np.msgidqueue
  | .next i => np.next i

/-- `*pp = v`. -/
def CapilibNcci.store (np : CapilibNcci) (v : Option Nat) : Link → CapilibNcci
  | .queue => { np with msgidqueue := v }
  | .next i => np.setNext i v

/-- The loop of `mq_init`, `n` rounds from index `i`. -/
def mqInitLoop : Nat → Nat → CapilibNcci → CapilibNcci
  | 0, _, np => np
  | n + 1, i, np => mqInitLoop n (i + 1) { np.setNext i np.msgidfree with msgidfree := some i }

/-- `mq_init`. -/
def mqInit (np : CapilibNcci) : CapilibNcci :=
  mqInitLoop (np.winsize - 1) 1
    { np with
      msgidqueue := none
      msgidlast := none
      nmsg := 0
      msgidpool := fun _ => ⟨none, 0⟩
      msgidfree := some 0 }

/-- `if (np->msgidlast) np->msgidlast->next = mq; np->msgidlast = mq;`. -/
def mqLinkLast (np : CapilibNcci) (mq : Nat) : CapilibNcci :=
  match np.msgidlast with
  | some last => { np.setNext last (some mq) with msgidlast := some mq }
  | none => { np with msgidlast := some mq }

/-- `if (!np->msgidqueue) np->msgidqueue = mq;`. -/
def mqLinkFirst (np : CapilibNcci) (mq : Nat) : CapilibNcci :=
  if np.msgidqueue = none then { np with msgidqueue := some mq } else np

/-- `mq_enqueue`. -/
def mqEnqueue (np : CapilibNcci) (msgid : UInt16) : Bool × CapilibNcci :=
  match np.msgidfree with
  | none => (false, np)
  | some mq =>
    let np := { np with msgidfree := np.next mq }
    let np := (np.setMsgid mq msgid).setNext mq none
    let np := mqLinkFirst (mqLinkLast np mq) mq
    (true, { np with nmsg := np.nmsg + 1 })

/-- `if (mq == np->msgidlast) np->msgidlast = NULL;`. -/
def mqResetLast (np : CapilibNcci) (mq : Nat) : CapilibNcci :=
  if np.msgidlast = some mq then { np with msgidlast := none } else np

/-- The body of `mq_dequeue`'s loop for the entry `mq` found at `pp`. -/
def mqUnlink (np : CapilibNcci) (pp : Link) (mq : Nat) : CapilibNcci :=
  let np := np.store (np.next mq) pp
  let np := mqResetLast np mq
  let np := np.setNext mq np.msgidfree
  { np with msgidfree := some mq, nmsg := np.nmsg - 1 }

/-- The loop of `mq_dequeue` from `pp`; `none` when the links do not end within
`fuel` entries. -/
def mqDequeueLoop (np : CapilibNcci) (msgid : UInt16) : Nat → Link → Option (Bool × CapilibNcci)
  | 0, _ => none
  | fuel + 1, pp =>
    match np.load pp with
    | none => some (false, np)
    | some mq =>
      if (np.msgidpool mq).msgid = msgid then some (true, mqUnlink np pp mq)
      else mqDequeueLoop np msgid fuel (.next mq)

/-- `mq_dequeue`; no queue in the pool has more than `maxwin` entries. -/
def mqDequeue (maxwin : Nat) (np : CapilibNcci) (msgid : UInt16) : Option (Bool × CapilibNcci) :=
  mqDequeueLoop np msgid (maxwin + 1) .queue

/-- `capilib_new_ncci`; `mem` is the outcome of `kmalloc`. -/
def capilibNewNcci (maxwin : Nat) (mem : Bool) (head : List CapilibNcci) (applid : UInt16) (ncci : UInt32)
    (winsize : Nat) : List CapilibNcci :=
  if mem then
    let winsize := if winsize > maxwin then maxwin else winsize
    head ++ [mqInit ⟨applid, ncci, winsize, 0, none, none, none, fun _ => ⟨none, 0⟩⟩]
  else head

/-- `capilib_free_ncci`. -/
def capilibFreeNcci : List CapilibNcci → UInt16 → UInt32 → List CapilibNcci
  | [], _, _ => []
  | np :: rest, applid, ncci =>
    if np.applid ≠ applid then np :: capilibFreeNcci rest applid ncci
    else if np.ncci ≠ ncci then np :: capilibFreeNcci rest applid ncci
    else rest

/-- `capilib_release_appl`. -/
def capilibReleaseAppl : List CapilibNcci → UInt16 → List CapilibNcci
  | [], _ => []
  | np :: rest, applid =>
    if np.applid ≠ applid then np :: capilibReleaseAppl rest applid
    else capilibReleaseAppl rest applid

/-- `capilib_data_b3_req`. -/
def capilibDataB3Req : List CapilibNcci → UInt16 → UInt32 → UInt16 → DataB3Info × List CapilibNcci
  | [], _, _, _ => (.CAPI_NOERROR, [])
  | np :: rest, applid, ncci, msgid =>
    if np.applid ≠ applid ∨ np.ncci ≠ ncci then
      let (info, rest) := capilibDataB3Req rest applid ncci msgid
      (info, np :: rest)
    else
      let (queued, np) := mqEnqueue np msgid
      (if queued then .CAPI_NOERROR else .CAPI_SENDQUEUEFULL, np :: rest)

/-- `capilib_data_b3_conf`. -/
def capilibDataB3Conf (maxwin : Nat) :
    List CapilibNcci → UInt16 → UInt32 → UInt16 → Option (List CapilibNcci)
  | [], _, _, _ => some []
  | np :: rest, applid, ncci, msgid =>
    if np.applid ≠ applid ∨ np.ncci ≠ ncci then do
      let rest ← capilibDataB3Conf maxwin rest applid ncci msgid
      return np :: rest
    else do
      let (_, np) ← mqDequeue maxwin np msgid
      return np :: rest

end Capi4Linux.Capilib
