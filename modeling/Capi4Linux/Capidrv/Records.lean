import Capi4Linux.Capidrv.State

/-!
# Records and state machines

Allocation and release of PLCI and NCCI records, `send_message`, and the
changes of state with the functions they call.
-/

namespace Capi4Linux.Capidrv
open Bytes Capicore Capiutil

/-! ## PLCIs -/

def newPlci (env : Env) (s : Card) (chan : Nat) : Card × Option Nat :=
  let t := s.tick
  let s := s.asked
  if ¬ env.kmalloc t then (s, none)
  else
    let p := s.plciNext
    let plci : Plci := { plci := 0, msgid := 0, chan, state := .NONE, leasedline := false, ncciList := [] }
    let s := { s.setPlci p plci with plciNext := s.plciNext + 1, plciList := p :: s.plciList }
    (s.setBchan chan { s.bchans chan with plcip := some p }, some p)

/-- The first listed record that passes a test. The records on the list are live. -/
def findPlci (s : Card) (test : Plci → Bool) : Option (Nat × Plci) :=
  s.plciList.findSome? fun p => (s.plcis p).bind fun plci => if test plci then some (p, plci) else none

def findPlciByPlci (s : Card) (plci : UInt32) : Option (Nat × Plci) :=
  findPlci s fun plcip => plcip.plci = plci

def findPlciByMsgid (s : Card) (msgid : UInt16) : Option (Nat × Plci) :=
  findPlci s fun plcip => plcip.msgid = msgid

def findPlciByNcci (s : Card) (ncci : UInt32) : Option (Nat × Plci) :=
  findPlci s fun plcip => plcip.plci = ncci &&& 0xffff

def freePlci (s : Card) (p : Nat) : Option Card := do
  let plci ← s.plcis p
  if p ∈ s.plciList then
    let s := s.setBchan plci.chan
      { s.bchans plci.chan with plcip := none, disconnecting := false, incoming := false }
    some { s with
      plciList := s.plciList.erase p
      plcis := Function.update s.plcis p none
      freed := s.freed ++ [p] }
  else some s

/-! ## NCCIs -/

def newNcci (env : Env) (s : Card) (p : Nat) (ncci : UInt32) : Option (Card × Option Nat) := do
  let t := s.tick
  let s := s.asked
  if ¬ env.kmalloc t then return (s, none)
  let plci ← s.plcis p
  let n := s.ncciNext
  let nccip : Ncci :=
    { plcip := p, ncci, msgid := 0, chan := plci.chan, state := .NONE, oldstate := .NONE, datahandle := 0,
      ackqueue := [] }
  let s := { s.setNcci n nccip with ncciNext := s.ncciNext + 1 }
  let s := s.setPlci p { plci with ncciList := n :: plci.ncciList }
  some (s.setBchan plci.chan { s.bchans plci.chan with nccip := some n }, some n)

/-- The first NCCI of a PLCI that passes a test. -/
def findNcciOf (s : Card) (plci : Plci) (test : Ncci → Bool) : Option (Nat × Ncci) :=
  plci.ncciList.findSome? fun n => (s.nccis n).bind fun ncci => if test ncci then some (n, ncci) else none

def findNcci (s : Card) (ncci : UInt32) : Option (Nat × Ncci) :=
  (findPlciByNcci s ncci).bind fun e => findNcciOf s e.2 fun nccip => nccip.ncci = ncci

def findNcciByMsgid (s : Card) (ncci : UInt32) (msgid : UInt16) : Option (Nat × Ncci) :=
  (findPlciByNcci s ncci).bind fun e => findNcciOf s e.2 fun nccip => nccip.msgid = msgid

def freeNcci (s : Card) (n : Nat) : Option Card := do
  let ncci ← s.nccis n
  let plci ← s.plcis ncci.plcip
  let s := s.setPlci ncci.plcip { plci with ncciList := plci.ncciList.erase n }
  let s := s.setBchan ncci.chan { s.bchans ncci.chan with nccip := none }
  some { s with nccis := Function.update s.nccis n none }

/-- -1 is `none`. -/
def capidrvAddAck (env : Env) (s : Card) (n : Nat) (datahandle : UInt16) (len : Int) : Option (Option Card) := do
  let t := s.tick
  let s := s.asked
  let ncci ← s.nccis n
  if ¬ env.kmalloc t then return none
  some (s.setNcci n { ncci with ackqueue := ncci.ackqueue ++ [(datahandle, len)] })

/-- The first entry of the handle goes; its length, or -1. -/
def capidrvDelAck (s : Card) (n : Nat) (datahandle : UInt16) : Option (Card × Int) := do
  let ncci ← s.nccis n
  match ncci.ackqueue.find? fun e => e.1 = datahandle with
  | none => some (s, -1)
  | some (_, len) =>
    some (s.setNcci n { ncci with ackqueue := ncci.ackqueue.eraseP fun e => e.1 = datahandle }, len)

/-! ## Messages -/

/-- `put_capi_message` of a message with its payload. -/
def putCapiMessage (env : Env) (s : Card) (cmsg : Cmsg) (payload : Bytes) : Card × Capinfo0x11 :=
  let info := env.put s.sent.length
  ({ s with sent := s.sent ++ [⟨cmsg, payload, info⟩] }, info)

/-- The answer of the capicore is not looked at. The buffer is taken to be there. -/
def sendMessage (env : Env) (s : Card) (cmsg : Cmsg) : Card :=
  (putCapiMessage env s cmsg []).1

/-! ## State machines -/

def listenChangeState (s : Card) (event : ListenEvent) : Card :=
  match listentable.find? fun p => p.actstate = s.state ∧ p.event = event with
  | none => s
  | some p => { s with state := p.nextstate }

def p0 (s : Card) (p : Nat) : Option Card := do
  let plci ← s.plcis p
  freePlci (s.statcallb (.DHUP plci.chan)) p

def plciChangeState (s : Card) (p : Nat) (event : PlciEvent) : Option Card := do
  let plci ← s.plcis p
  match plcitable.find? fun c => c.actstate = plci.state ∧ c.event = event with
  | none => some s
  | some c =>
    let s := s.setPlci p { plci with state := c.nextstate }
    if c.changefunc then p0 s p else some s

def n0 (env : Env) (s : Card) (n : Nat) : Option Card := do
  let ncci ← s.nccis n
  let plci ← s.plcis ncci.plcip
  let s := sendMessage env s.nextMsgid (capiFillDisconnectReq env.applId s.msgid plci.plci)
  let s ← plciChangeState s ncci.plcip .DISCONNECT_REQ
  freeNcci (s.statcallb (.BHUP ncci.chan)) n

def ncciChangeState (env : Env) (s : Card) (n : Nat) (event : NcciEvent) : Option Card := do
  let ncci ← s.nccis n
  match nccitable.find? fun c => c.actstate = ncci.state ∧ c.event = event with
  | none => some s
  | some c =>
    let s := s.setNcci n { ncci with state := c.nextstate.getD ncci.oldstate, oldstate := c.actstate }
    if c.changefunc then n0 env s n else some s

/-! ## Channels -/

/-- The first channel without a PLCI. -/
def newBchan (env : Env) (s : Card) : Option (Card × Nat) :=
  ((List.range env.nbchan).find? fun i => (s.bchans i).plcip.isNone).map fun i =>
    (s.setBchan i { s.bchans i with disconnecting := false }, i)

/-- `arg % card->nbchan`, which has no outcome for a card without channels. -/
def channel (env : Env) (arg : Nat) : Option Nat :=
  if env.nbchan = 0 then none else some (arg % env.nbchan)

end Capi4Linux.Capidrv
