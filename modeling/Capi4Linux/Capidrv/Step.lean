import Capi4Linux.Capidrv.Handlers
import Capi4Linux.Lib.Run

/-!
# capidrv: runs

The controller sends messages, isdn4linux issues commands and sends data, the
listen timer expires. A run is any order of these.
-/

namespace Capi4Linux.Capidrv
open Bytes Capicore Capiutil Machine

/-- The LISTEN_REQ of `send_listen`. -/
def listenReq (env : Env) (s : Card) : Card :=
  sendMessage env s.nextMsgid (capiFillListenReq env.applId s.msgid env.contrnr 64 s.cipmask s.cipmask2)

def sendListen (env : Env) (s : Card) : Card := listenChangeState (listenReq env s) .REQ

/-- What `enable_dchannel_trace` sends; nothing if the controller is not known to be from AVM. -/
def enableDchannelTrace (env : Env) (s : Card) (version : Option (Nat × Nat)) : Card :=
  match version with
  | none => s
  | some (major, minor) =>
    let avm0 := major / 16 % 16
    let avm1 := major * 16 % 256 + minor / 16 % 16
    let manuData : Bytes := if avm0 > 3 ∨ (avm0 = 3 ∧ avm1 > 5) then [4, 128, 12, 0, 0] else [4, 2, 3, 0, 0]
    sendMessage env s.nextMsgid
      (capiFillManufacturerReq env.applId s.msgid env.contrnr 0x214D5641 0 1 (some manuData))

/-- The bytes read by `if_readstat`, and the card after it. -/
def ifReadstat : Nat → Card → Bytes × Card
  | 0, s => ([], s)
  | len + 1, s =>
    let (bytes, s') := ifReadstat len { s with q931Read := if s.q931Read + 1 > 4095 then 0 else s.q931Read + 1 }
    (s.q931Buf s.q931Read :: bytes, s')

/-- A message of the controller, or a call of isdn4linux or of the timer. -/
inductive Op where
  | recv (msg : Bytes)
  | command (command : Command)
  | sendbuf (chan : Nat) (doack : Bool) (skb : Buf)
  | readstat (len : Nat)
  | listen
  | trace (version : Option (Nat × Nat))

def step (env : Env) (s : Card) : Op → Option Card
  | .recv msg => capidrvRecvMessage env s msg
  | .command command => (capidrvCommand env s command).map Prod.fst
  | .sendbuf chan doack skb => (ifSendbuf env s chan doack skb).map Prod.fst
  | .readstat len => some (ifReadstat len s).2
  | .listen => some (sendListen env s)
  | .trace version => some (enableDchannelTrace env s version)

/-! ## Fixed runs -/

/-- A card with two channels; memory is there, and no message is refused. -/
def Env.granting : Env where
  applId := 1
  contrnr := 1
  nbchan := 2
  kmalloc _ := true
  put _ := .NOERR
  icall _ := ([], 1)
  address _ := 0
  protoL2 _ := .hdlc
  undefined := .wrapping

/-- A message of the controller from its number, address and parameters. -/
def controllerMsg (message : UInt8 × UInt8) (messagenumber : UInt8) (adr params : Bytes) : Bytes :=
  [UInt8.ofNat (12 + params.length), 0, 1, 0, message.1, message.2, messagenumber, 0] ++ adr ++ params

end Capi4Linux.Capidrv
