import Capi4Linux.Capidrv.Records

/-!
# Commands of isdn4linux

`capidrv_command` and `if_sendbuf`.
-/

namespace Capi4Linux.Capidrv
open Bytes Capicore Capiutil

def ENOSYS : Int := 38
def EINVAL : Int := 22

def capidrvIoctl (arg : Nat) : Int := if arg = 1 then 0 else - EINVAL

/-- `CalledPartyNumber` and `CallingPartyNumber` of a dial; both are empty for a leased line. -/
def dialNumbers (isleasedline : Bool) (num mynum : Msn) : Bytes × Bytes :=
  if isleasedline then ([0], [0])
  else
    (UInt8.ofNat (num.chars.length + 1) :: 0x80 :: num.chars,
      UInt8.ofNat (mynum.chars.length + 2) :: 0 :: 0x80 :: mynum.chars)

/-- `FVteln2capi20` of the number that is dialled. It has no result if the parser does not end. -/
def dialLine (env : Env) (num : Msn) : Option (Int ⊕ Bytes) :=
  LeasedLine.FVteln2capi20 env.undefined (LeasedLine.turns num.chars) num.chars

def dialConnectReq (env : Env) (messagenumber : UInt16) (bchan : Bchan) (line : Int ⊕ Bytes) : Cmsg :=
  let (called, calling) := dialNumbers line.isRight bchan.num bchan.mynum
  let l2 := env.protoL2 bchan.l2
  capiFillConnectReq env.applId messagenumber env.contrnr (si2cip bchan.si1 bchan.si2) (some called) (some calling)
    (b1prot l2) (b2prot l2) (b3prot l2) (b1config l2) line.getRight?

/-- `ISDN_CMD_DIAL`. -/
def commandDial (env : Env) (s : Card) (arg : Nat) (phone eazmsn : Msn) (si1 si2 : UInt8) : Option (Card × Int) := do
  let chan ← channel env arg
  let bchan := s.bchans chan
  if bchan.plcip.isSome then return (s, 0)
  let bchan := { bchan with si1, si2, num := phone, mynum := eazmsn }
  let s := s.setBchan chan bchan
  let line ← dialLine env bchan.num
  let msgid := s.msgid
  let cmdcmsg := dialConnectReq env msgid bchan line
  match newPlci env s.nextMsgid chan with
  | (s, none) => some (s.statcallb (.DHUP chan), -1)
  | (s, some p) =>
    let plci ← s.plcis p
    let s ← plciChangeState (s.setPlci p { plci with msgid, leasedline := line.isRight }) p .CONNECT_REQ
    let s := sendMessage env s cmdcmsg
    some ({ s with outstanding := s.outstanding ++ [(msgid, .plci p)] }, 0)

/-- `ISDN_CMD_ACCEPTD`. -/
def commandAcceptd (env : Env) (s : Card) (arg : Nat) : Option (Card × Int) := do
  let chan ← channel env arg
  let bchan := s.bchans chan
  let p ← bchan.plcip
  let plci ← s.plcis p
  let l2 := env.protoL2 bchan.l2
  let cmdcmsg := capiFillConnectResp env.applId s.msgid plci.plci 0 (b1prot l2) (b2prot l2) (b3prot l2) (b1config l2)
  let s ← plciChangeState s.nextMsgid p .CONNECT_RESP
  some (sendMessage env s cmdcmsg, 0)

/-- `ISDN_CMD_HANGUP`. -/
def commandHangup (env : Env) (s : Card) (arg : Nat) : Option (Card × Int) := do
  let chan ← channel env arg
  let bchan := s.bchans chan
  if bchan.disconnecting then return (s, 0)
  match bchan.nccip, bchan.plcip with
  | some n, _ =>
    let s := s.setBchan chan { bchan with disconnecting := true }
    let ncci ← s.nccis n
    let cmdcmsg := capiFillDisconnectB3Req env.applId s.msgid ncci.ncci
    let s ← ncciChangeState env s.nextMsgid n .DISCONNECT_B3_REQ
    let s := sendMessage env s cmdcmsg
    some ({ s with named := s.named ++ [(chan, ncci.ncci)] }, 0)
  | none, some p =>
    let plci ← s.plcis p
    if plci.state = .INCOMING then
      return (s.setBchan chan { bchan with disconnecting := true }, 0)
    else if plci.plci ≠ 0 then
      let s := s.setBchan chan { bchan with disconnecting := true }
      let cmdcmsg := capiFillDisconnectReq env.applId s.msgid plci.plci
      let s ← plciChangeState s.nextMsgid p .DISCONNECT_REQ
      return (sendMessage env s cmdcmsg, 0)
    else return (s, - EINVAL)
  | none, none => return (s, - EINVAL)

/-- `ISDN_CMD_SETL2`, `ISDN_CMD_SETL3`, `ISDN_CMD_SETEAZ` and `ISDN_CMD_CLREAZ` set up a channel. -/
def commandSet (env : Env) (s : Card) (arg : Nat) (set : Bchan → Bchan) : Option (Card × Int) := do
  let chan ← channel env arg
  some (s.setBchan chan (set (s.bchans chan)), 0)

def capidrvCommand (env : Env) (s : Card) : Command → Option (Card × Int)
  | .IOCTL arg => some (s, capidrvIoctl arg)
  | .DIAL arg phone eazmsn si1 si2 => commandDial env s arg phone eazmsn si1 si2
  | .ACCEPTD arg => commandAcceptd env s arg
  | .ACCEPTB _ => some (s, - ENOSYS)
  | .HANGUP arg => commandHangup env s arg
  | .SETL2 arg => commandSet env s (arg &&& 0xff) fun bchan => { bchan with l2 := arg >>> 8 }
  | .SETL3 arg => commandSet env s (arg &&& 0xff) fun bchan => { bchan with l3 := arg >>> 8 }
  | .SETEAZ arg num => commandSet env s arg fun bchan => { bchan with msn := strncpy num ISDN_MSNLEN }
  | .CLREAZ arg => commandSet env s arg fun bchan => { bchan with msn := [] }
  | .other => some (s, - EINVAL)

/-! ## Data -/

/-- The buffer of a caller. -/
structure Buf where
  headroom : Nat
  data : Bytes

/-- The first bytes of a message that `capi_cmsg2message` has written to `sendcmsg.buf`. -/
def messageHeader (cmsg : Cmsg) : Option Bytes := do
  let cmsg ← capiCmsg2message cmsg (List.replicate 180 0)
  some (cmsg.m.take (leNat (cmsg.m.take 2)))

/-- `if_sendbuf`; the result of the call and the caller's buffer after it. The message is the header followed by the
data, pushed in place or into a new buffer. -/
def ifSendbuf (env : Env) (s : Card) (arg : Nat) (doack : Bool) (skb : Buf) : Option (Card × Int × Buf) := do
  let chan ← channel env arg
  match (s.bchans chan).nccip with
  | none => some (s, 0, skb)
  | some n =>
    let ncci ← s.nccis n
    if ncci.state ≠ .ACTIVE then return (s, 0, skb)
    let len := skb.data.length
    let datahandle := ncci.datahandle
    let sendcmsg := capiFillDataB3Req env.applId s.msgid ncci.ncci (env.address s.tick) (UInt16.ofNat len) datahandle 0
    let s := s.nextMsgid
    match ← capidrvAddAck env s n datahandle (if doack then len else -1) with
    | none => some (s.asked, 0, skb)
    | some s =>
      let header ← messageHeader sendcmsg
      let msglen := header.length
      let realloc := skb.headroom < msglen
      let t := s.tick
      let s := if realloc then s.asked else s
      if realloc ∧ ¬ env.kmalloc t then return ((← capidrvDelAck s n datahandle).1, 0, skb)
      -- in place, the caller's buffer holds the header until it is pulled again
      let pushed : Buf := if realloc then skb else ⟨skb.headroom - msglen, header ++ skb.data⟩
      let (s, errcode) := putCapiMessage env s sendcmsg skb.data
      let s := { s with named := s.named ++ [(chan, ncci.ncci)] }
      if errcode = .NOERR then
        let ncci ← s.nccis n
        return (s.setNcci n { ncci with datahandle := ncci.datahandle + 1 }, len, pushed)
      let pulled : Buf := if realloc then pushed else ⟨pushed.headroom + msglen, pushed.data.drop msglen⟩
      some ((← capidrvDelAck s n datahandle).1, if errcode = .QUEUEFULL then 0 else -1, pulled)

end Capi4Linux.Capidrv
