import Capi4Linux.Capidrv.Commands

/-!
# Messages of the controller

`capidrv_recv_message` routes a message by the width of its address to one of
the handlers for the controller, a PLCI and an NCCI. Every message a handler
acts on has a definition of its own.
-/

namespace Capi4Linux.Capidrv
open Bytes Capicore Capiutil

/-- `CAPICMD`. -/
def cmd (cmsg : Cmsg) : UInt8 × UInt8 := (cmsg.command, cmsg.subcommand)

def CAPI_LISTEN_CONF : UInt8 × UInt8 := (CAPI_LISTEN, CAPI_CONF)
def CAPI_MANUFACTURER_IND : UInt8 × UInt8 := (CAPI_MANUFACTURER, CAPI_IND)
def CAPI_CONNECT_IND : UInt8 × UInt8 := (CAPI_CONNECT, CAPI_IND)
def CAPI_CONNECT_CONF : UInt8 × UInt8 := (CAPI_CONNECT, CAPI_CONF)
def CAPI_CONNECT_ACTIVE_IND : UInt8 × UInt8 := (CAPI_CONNECT_ACTIVE, CAPI_IND)
def CAPI_DISCONNECT_IND : UInt8 × UInt8 := (CAPI_DISCONNECT, CAPI_IND)
def CAPI_DISCONNECT_CONF : UInt8 × UInt8 := (CAPI_DISCONNECT, CAPI_CONF)
def CAPI_INFO_IND : UInt8 × UInt8 := (CAPI_INFO, CAPI_IND)
def CAPI_CONNECT_B3_IND : UInt8 × UInt8 := (CAPI_CONNECT_B3, CAPI_IND)
def CAPI_CONNECT_B3_CONF : UInt8 × UInt8 := (CAPI_CONNECT_B3, CAPI_CONF)
def CAPI_CONNECT_B3_ACTIVE_IND : UInt8 × UInt8 := (CAPI_CONNECT_B3_ACTIVE, CAPI_IND)
def CAPI_CONNECT_B3_T90_ACTIVE_IND : UInt8 × UInt8 := (CAPI_CONNECT_B3_T90_ACTIVE, CAPI_IND)
def CAPI_DATA_B3_IND : UInt8 × UInt8 := (CAPI_DATA_B3, CAPI_IND)
def CAPI_DATA_B3_CONF : UInt8 × UInt8 := (CAPI_DATA_B3, CAPI_CONF)
def CAPI_DISCONNECT_B3_IND : UInt8 × UInt8 := (CAPI_DISCONNECT_B3, CAPI_IND)
def CAPI_DISCONNECT_B3_CONF : UInt8 × UInt8 := (CAPI_DISCONNECT_B3, CAPI_CONF)
def CAPI_RESET_B3_IND : UInt8 × UInt8 := (CAPI_RESET_B3, CAPI_IND)

/-- `capi_cmsg_answer` and `send_message`. -/
def answer (env : Env) (s : Card) (cmsg : Cmsg) : Card := sendMessage env s (capiCmsgAnswer cmsg)

/-! ## The controller -/

def listenConf (s : Card) (cmsg : Cmsg) : Card :=
  if cmsg.word .info ≠ 0 then listenChangeState s .CONF_ERROR
  else if s.cipmask = 0 then listenChangeState s .CONF_EMPTY
  else listenChangeState s .CONF_OK

/-- `PUTBYTE_TO_STATUS`; `q931_end` is the last byte of the buffer. -/
def putbyteToStatus (s : Card) (byte : UInt8) : Card :=
  { s with
    q931Buf := Function.update s.q931Buf s.q931Write byte
    q931Write := if s.q931Write + 1 > 4095 then 0 else s.q931Write + 1 }

def hexDigit (w : UInt8) : UInt8 := if w < 10 then 48 + w else 65 - 10 + w

def handleDtraceData (s : Card) (send level2 : Bool) (data : Bytes) (len : Nat) : Card :=
  if len = 0 then s
  else
    let head : Bytes := [68, if level2 then 50 else 51, if send then 62 else 60, 58]
    let s := head.foldl putbyteToStatus s
    let s := (List.range len).foldl
      (fun s i =>
        let byte := data.getD i 0
        [32, hexDigit (byte >>> 4 &&& 0xf), hexDigit (byte &&& 0xf)].foldl putbyteToStatus s) s
    (putbyteToStatus s 10).statcallb (.STAVAIL (len * 3 + 5))

/-- The trace of an AVM controller. `len` is a `u16`; the bytes behind `ManuData` read as zero. -/
def manufacturerInd (s : Card) (cmsg : Cmsg) : Card :=
  if cmsg.dword .manuID = 0x214D5641 ∧ cmsg.dword .msgClass = 0 ∧ cmsg.dword .function = 1 then
    let manuData := (cmsg.cstruct .manuData).getD []
    let byte (i : Nat) : Nat := (manuData.getD i 0).toNat
    let (off, len) := if byte 0 = 255 then (5, byte 1 + byte 2 * 256) else (3, byte 0)
    let len := (len + 65536 - 2) % 65536
    let layer := byte (off - 1) * 256 + byte (off - 2)
    let direction : Bool :=
      if layer &&& 0x300 ≠ 0 then layer &&& 0x200 = 0
      else layer &&& 0x800 = 0
    if layer &&& 0x0C00 ≠ 0 then
      if layer &&& 0xff = 0x80 then handleDtraceData s direction true (manuData.drop off) len else s
    else if layer &&& 0xff < 0x80 then handleDtraceData s direction false (manuData.drop off) len
    else s
  else s

/-- Every other message for the controller is ignored. -/
def handleController (s : Card) (cmsg : Cmsg) : Card :=
  if cmd cmsg = CAPI_LISTEN_CONF then listenConf s cmsg
  else if cmd cmsg = CAPI_MANUFACTURER_IND then manufacturerInd s cmsg
  else s

/-! ## Incoming calls -/

/-- The first byte of a struct less `n`, as a `size_t`. -/
def copySize (first : UInt8) (n : UInt64) : Nat := (UInt64.ofNat first.toNat - n).toNat

/-- `cmd.parm.setup` of a CONNECT_IND. The bytes behind a number read as zero. -/
def callSetup (cmsg : Cmsg) : IncomingSetup :=
  let calling := (cmsg.cstruct .callingPartyNumber).getD []
  let called := (cmsg.cstruct .calledPartyNumber).getD []
  let si1 := cip2si1 (cmsg.word .cipValue)
  { phone := strncpy (calling.drop 3) (copySize (calling.getD 0 0) 2)
    eazmsn := strncpy (called.drop 2) (copySize (called.getD 0 0) 1)
    si1
    si2 := if si1 = 1 then 0 else cip2si2 (cmsg.word .cipValue)
    plan := calling.getD 1 0
    screen := calling.getD 2 0 }

/-- The copies have a place in the two numbers of `cmd.parm.setup`. -/
def NumbersFit (cmsg : Cmsg) : Prop :=
  copySize (((cmsg.cstruct .callingPartyNumber).getD []).getD 0 0) 2 ≤ ISDN_MSNLEN ∧
    copySize (((cmsg.cstruct .calledPartyNumber).getD []).getD 0 0) 1 ≤ ISDN_MSNLEN

instance (cmsg : Cmsg) : Decidable (NumbersFit cmsg) := inferInstanceAs (Decidable (_ ∧ _))

/-- What isdn4linux is told of a CONNECT_IND. There is no result where `strncpy` leaves its destination. -/
def incomingSetup (cmsg : Cmsg) : Option IncomingSetup := if NumbersFit cmsg then some (callSetup cmsg) else none

/-- The call is refused with a CONNECT_RESP. -/
def rejectCall (env : Env) (s : Card) (cmsg : Cmsg) (p : Nat) (reject : UInt16) : Option Card :=
  plciChangeState (sendMessage env s ((capiCmsgAnswer cmsg).setWord .reject reject)) p .CONNECT_REJECT

/-- `card->interface.statcallb` of ISDN_STAT_ICALL: isdn4linux issues commands before it answers. -/
def incomingCallback (env : Env) (s : Card) (chan : Nat) (setup : IncomingSetup) : Option (Card × Int) := do
  let (commands, res) := env.icall s.tick
  let s := (s.statcallb (.ICALL chan setup)).asked
  let s ← commands.foldlM (fun s command => (capidrvCommand env s command).map Prod.fst) s
  some (s, res)

/-- What becomes of the call after the callback. -/
def incomingResult (env : Env) (s : Card) (cmsg : Cmsg) (p : Nat) (res : Int) : Option Card := do
  if res = 0 ∨ res = 3 then rejectCall env s cmsg p 1
  else if res = 1 then
    let plci ← s.plcis p
    if plci.state = .INCOMING then
      let s' := (s.setPlci p { plci with msgid := s.msgid }).nextMsgid
      some (sendMessage env s' (capiFillAlertReq env.applId s.msgid plci.plci))
    else some s
  else if res = 2 then rejectCall env s cmsg p 2
  else rejectCall env s cmsg p 8

def handleIncomingCall (env : Env) (s : Card) (cmsg : Cmsg) : Option Card := do
  match newBchan env s with
  | none => some s
  | some (s, chan) =>
    match newPlci env s chan with
    | (s, none) => some s
    | (s, some p) =>
      let s := s.setBchan chan { s.bchans chan with incoming := true }
      let plci ← s.plcis p
      let s ← plciChangeState (s.setPlci p { plci with plci := cmsg.adr }) p .CONNECT_IND
      let setup ← incomingSetup cmsg
      let (s, res) ← incomingCallback env s chan setup
      incomingResult env s cmsg p res

/-! ## PLCIs -/

def disconnectInd (env : Env) (s : Card) (cmsg : Cmsg) : Option Card :=
  match findPlciByPlci s cmsg.adr with
  | none => some (answer env s cmsg)
  | some (p, plci) => do
    let s := s.setBchan plci.chan { s.bchans plci.chan with disconnecting := true }
    let s ← plciChangeState s p .DISCONNECT_IND
    plciChangeState (answer env s cmsg) p .DISCONNECT_RESP

def disconnectConf (s : Card) (cmsg : Cmsg) : Card :=
  match findPlciByPlci s cmsg.adr with
  | none => s
  | some (_, plci) => s.setBchan plci.chan { s.bchans plci.chan with disconnecting := true }

def connectConf (s : Card) (cmsg : Cmsg) : Option Card :=
  match findPlciByMsgid s cmsg.messagenumber with
  | none => some s
  | some (p, plci) =>
    plciChangeState (s.setPlci p { plci with plci := cmsg.adr }) p
      (if cmsg.word .info ≠ 0 then .CONNECT_CONF_ERROR else .CONNECT_CONF_OK)

/-- The B3 connection of an outgoing call is requested with the number of the PLCI. -/
def connectActiveInd (env : Env) (s : Card) (cmsg : Cmsg) : Option Card :=
  match findPlciByPlci s cmsg.adr with
  | none => some s
  | some (p, plci) => do
    let incoming := (s.bchans plci.chan).incoming
    let s := answer env s cmsg
    if incoming then plciChangeState s p .CONNECT_ACTIVE_IND
    else
      match ← newNcci env s p cmsg.adr with
      | (s, none) => some s
      | (s, some n) =>
        let msgid := s.msgid
        let ncci ← s.nccis n
        let s := s.nextMsgid.setNcci n { ncci with msgid }
        let s := sendMessage env s (capiFillConnectB3Req env.applId msgid plci.plci)
        let s ← plciChangeState (s.statcallb (.DCONN plci.chan)) p .CONNECT_ACTIVE_IND
        let s ← ncciChangeState env s n .CONNECT_B3_REQ
        some { s with outstanding := s.outstanding ++ [(msgid, .ncci n)] }

def infoInd (s : Card) (cmsg : Cmsg) : Card :=
  match findPlciByPlci s cmsg.adr with
  | none => s
  | some (_, plci) =>
    let infoElement := (cmsg.cstruct .infoElement).getD []
    if cmsg.word .infoNumber = 0x4000 ∧ infoElement.getD 0 0 = 4 then
      s.statcallb (.CINF plci.chan (UInt32.ofNat (leNat ((infoElement.drop 1).take 4))))
    else s

/-- Every other message for a PLCI is ignored. -/
def handlePlci (env : Env) (s : Card) (cmsg : Cmsg) : Option Card :=
  if cmd cmsg = CAPI_DISCONNECT_IND then disconnectInd env s cmsg
  else if cmd cmsg = CAPI_DISCONNECT_CONF then some (disconnectConf s cmsg)
  else if cmd cmsg = CAPI_CONNECT_IND then handleIncomingCall env s cmsg
  else if cmd cmsg = CAPI_CONNECT_CONF then connectConf s cmsg
  else if cmd cmsg = CAPI_CONNECT_ACTIVE_IND then connectActiveInd env s cmsg
  else if cmd cmsg = CAPI_INFO_IND then some (infoInd s cmsg)
  else some s

/-! ## NCCIs -/

def connectB3ActiveInd (env : Env) (s : Card) (cmsg : Cmsg) : Option Card :=
  match findNcci s cmsg.adr with
  | none => some s
  | some (n, ncci) => do
    let s ← ncciChangeState env (answer env s cmsg) n .CONNECT_B3_ACTIVE_IND
    some (s.statcallb (.BCONN ncci.chan))

/-- `CONNECT_B3_RESP` with a new message number. -/
def connectB3Resp (env : Env) (s : Card) (ncci : UInt32) (reject : UInt16) : Card :=
  sendMessage env s.nextMsgid (capiFillConnectB3Resp env.applId s.msgid ncci reject)

def connectB3Ind (env : Env) (s : Card) (cmsg : Cmsg) : Option Card :=
  match findPlciByNcci s cmsg.adr with
  | none => some (connectB3Resp env s cmsg.adr 2)
  | some (p, _) => do
    match ← newNcci env s p cmsg.adr with
    | (s, none) => some (connectB3Resp env s cmsg.adr 2)
    | (s, some n) =>
      let s ← ncciChangeState env s n .CONNECT_B3_IND
      let ncci ← s.nccis n
      ncciChangeState env (connectB3Resp env s ncci.ncci 0) n .CONNECT_B3_RESP

def connectB3Conf (env : Env) (s : Card) (cmsg : Cmsg) : Option Card :=
  match findNcciByMsgid s cmsg.adr cmsg.messagenumber with
  | none => some s
  | some (n, ncci) =>
    ncciChangeState env (s.setNcci n { ncci with ncci := cmsg.adr }) n
      (if cmsg.word .info ≠ 0 then .CONNECT_B3_CONF_ERROR else .CONNECT_B3_CONF_OK)

def dataB3Conf (s : Card) (cmsg : Cmsg) : Option Card :=
  match findNcci s cmsg.adr with
  | none => some s
  | some (n, ncci) => do
    let (s, len) ← capidrvDelAck s n (cmsg.word .dataHandle)
    if len < 0 then some s else some (s.statcallb (.BSENT ncci.chan len))

def disconnectB3Ind (env : Env) (s : Card) (cmsg : Cmsg) : Option Card :=
  match findNcci s cmsg.adr with
  | none => some s
  | some (n, ncci) => do
    let s := s.setBchan ncci.chan { s.bchans ncci.chan with disconnecting := true }
    let s ← ncciChangeState env s n .DISCONNECT_B3_IND
    ncciChangeState env (answer env s cmsg) n .DISCONNECT_B3_RESP

def disconnectB3Conf (env : Env) (s : Card) (cmsg : Cmsg) : Option Card :=
  match findNcci s cmsg.adr with
  | none => some s
  | some (n, _) =>
    if cmsg.word .info ≠ 0 then ncciChangeState env s n .DISCONNECT_B3_CONF_ERROR else some s

def resetB3Ind (env : Env) (s : Card) (cmsg : Cmsg) : Option Card :=
  match findNcci s cmsg.adr with
  | none => some s
  | some (n, _) => do
    let s ← ncciChangeState env s n .RESET_B3_IND
    some (answer env s cmsg)

/-- Every other message for an NCCI is ignored. -/
def handleNcci (env : Env) (s : Card) (cmsg : Cmsg) : Option Card :=
  if cmd cmsg = CAPI_CONNECT_B3_ACTIVE_IND then connectB3ActiveInd env s cmsg
  else if cmd cmsg = CAPI_CONNECT_B3_IND then connectB3Ind env s cmsg
  else if cmd cmsg = CAPI_CONNECT_B3_CONF then connectB3Conf env s cmsg
  else if cmd cmsg = CAPI_CONNECT_B3_T90_ACTIVE_IND then some (answer env s cmsg)
  else if cmd cmsg = CAPI_DATA_B3_CONF then dataB3Conf s cmsg
  else if cmd cmsg = CAPI_DISCONNECT_B3_IND then disconnectB3Ind env s cmsg
  else if cmd cmsg = CAPI_DISCONNECT_B3_CONF then disconnectB3Conf env s cmsg
  else if cmd cmsg = CAPI_RESET_B3_IND then resetB3Ind env s cmsg
  else some s

/-- The data follows the message in its buffer. -/
def handleData (env : Env) (s : Card) (cmsg : Cmsg) (data : Bytes) : Card :=
  match findNcci s cmsg.adr with
  | none => s
  | some (_, ncci) => answer env { s with received := s.received ++ [(ncci.chan, data)] } cmsg

/-! ## Reception -/

/-- The request is one that the message confirms. -/
def confirms (cmsg : Cmsg) (e : UInt16 × Call) : Bool :=
  e.1 = cmsg.messagenumber &&
    match e.2 with
    | .plci _ => cmd cmsg = CAPI_CONNECT_CONF
    | .ncci _ => cmd cmsg = CAPI_CONNECT_B3_CONF

/-- A confirmation from the controller ends the wait of its request. -/
def confirm (env : Env) (s : Card) (cmsg : Cmsg) : Card :=
  if cmsg.adr &&& 0x7f = env.contrnr then
    { s with outstanding := s.outstanding.filter fun e => ! confirms cmsg e }
  else s

/-- The handler of a message. One from another controller is ignored by all of them. -/
def handleMessage (env : Env) (s : Card) (cmsg : Cmsg) (data : Bytes) : Option Card :=
  if cmsg.adr &&& 0x7f ≠ env.contrnr then some s
  else if cmd cmsg = CAPI_DATA_B3_IND then some (handleData env s cmsg data)
  else if cmsg.adr &&& 0xffffff00 = 0 then some (handleController s cmsg)
  else if cmsg.adr &&& 0xffff0000 = 0 then handlePlci env s cmsg
  else handleNcci env s cmsg

/-- One message of `capidrv_recv_message`. -/
def capidrvRecvMessage (env : Env) (s : Card) (msg : Bytes) : Option Card := do
  let cmsg ← capiMessage2cmsg msg
  let len := leNat (msg.take 2)
  let s ← handleMessage env s cmsg (if len > msg.length then msg else msg.drop len)
  some (confirm env s cmsg)

end Capi4Linux.Capidrv
