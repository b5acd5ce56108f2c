import Capi4Linux.Capicore.State
import Capi4Linux.Capidrv.LeasedLine
import Capi4Linux.Capiutil.Fill
import Mathlib.Logic.Function.Basic

/-!
# A card of capidrv

`capidrv.c` runs the calls of one controller for isdn4linux. A pointer to a
`struct capidrv_plci` or a `struct capidrv_ncci` is a number here; a record that
was freed, or not allocated yet, is absent from the heap, and looking at it has
no outcome. Numbers of records are not used twice.
-/

namespace Capi4Linux.Capidrv
open Bytes Capicore Capiutil

/-! ## State machines -/

/-- `ST_LISTEN_*`. -/
inductive ListenState where
  | NONE | WAIT_CONF | ACTIVE | ACTIVE_WAIT_CONF
  deriving DecidableEq

/-- `EV_LISTEN_*`. -/
inductive ListenEvent where
  | REQ | CONF_ERROR | CONF_EMPTY | CONF_OK
  deriving DecidableEq

structure ListenStateChange where
  actstate : ListenState
  nextstate : ListenState
  event : ListenEvent

def listentable : List ListenStateChange :=
  [⟨.NONE, .WAIT_CONF, .REQ⟩,
   ⟨.ACTIVE, .ACTIVE_WAIT_CONF, .REQ⟩,
   ⟨.WAIT_CONF, .NONE, .CONF_ERROR⟩,
   ⟨.ACTIVE_WAIT_CONF, .ACTIVE, .CONF_ERROR⟩,
   ⟨.WAIT_CONF, .NONE, .CONF_EMPTY⟩,
   ⟨.ACTIVE_WAIT_CONF, .NONE, .CONF_EMPTY⟩,
   ⟨.WAIT_CONF, .ACTIVE, .CONF_OK⟩,
   ⟨.ACTIVE_WAIT_CONF, .ACTIVE, .CONF_OK⟩]

/-- `ST_PLCI_*`. -/
inductive PlciState where
  | NONE | OUTGOING | ALLOCATED | ACTIVE | INCOMING | FACILITY_IND | ACCEPTING | DISCONNECTING | DISCONNECTED
  | RESUMEING | RESUME | HELD
  deriving DecidableEq

/-- `EV_PLCI_*`. -/
inductive PlciEvent where
  | CONNECT_REQ | CONNECT_CONF_ERROR | CONNECT_CONF_OK | FACILITY_IND_UP | CONNECT_IND | CONNECT_ACTIVE_IND
  | CONNECT_REJECT | DISCONNECT_REQ | DISCONNECT_IND | FACILITY_IND_DOWN | DISCONNECT_RESP | CONNECT_RESP
  | RESUME_REQ | RESUME_CONF_OK | RESUME_CONF_ERROR | RESUME_IND | HOLD_IND | RETRIEVE_IND | SUSPEND_IND | CD_IND
  deriving DecidableEq

/-- `changefunc` is `p0` or NULL. -/
structure PlciStateChange where
  actstate : PlciState
  nextstate : PlciState
  event : PlciEvent
  changefunc : Bool

def plcitable : List PlciStateChange :=
  [ -- P-0
   ⟨.NONE, .OUTGOING, .CONNECT_REQ, false⟩,
   ⟨.NONE, .ALLOCATED, .FACILITY_IND_UP, false⟩,
   ⟨.NONE, .INCOMING, .CONNECT_IND, false⟩,
   ⟨.NONE, .RESUMEING, .RESUME_REQ, false⟩,
   -- P-0.1
   ⟨.OUTGOING, .NONE, .CONNECT_CONF_ERROR, true⟩,
   ⟨.OUTGOING, .ALLOCATED, .CONNECT_CONF_OK, false⟩,
   -- P-1
   ⟨.ALLOCATED, .ACTIVE, .CONNECT_ACTIVE_IND, false⟩,
   ⟨.ALLOCATED, .DISCONNECTING, .DISCONNECT_REQ, false⟩,
   ⟨.ALLOCATED, .DISCONNECTING, .FACILITY_IND_DOWN, false⟩,
   ⟨.ALLOCATED, .DISCONNECTED, .DISCONNECT_IND, false⟩,
   -- P-ACT
   ⟨.ACTIVE, .DISCONNECTING, .DISCONNECT_REQ, false⟩,
   ⟨.ACTIVE, .DISCONNECTING, .FACILITY_IND_DOWN, false⟩,
   ⟨.ACTIVE, .DISCONNECTED, .DISCONNECT_IND, false⟩,
   ⟨.ACTIVE, .HELD, .HOLD_IND, false⟩,
   ⟨.ACTIVE, .DISCONNECTING, .SUSPEND_IND, false⟩,
   -- P-2
   ⟨.INCOMING, .DISCONNECTING, .CONNECT_REJECT, false⟩,
   ⟨.INCOMING, .FACILITY_IND, .FACILITY_IND_UP, false⟩,
   ⟨.INCOMING, .ACCEPTING, .CONNECT_RESP, false⟩,
   ⟨.INCOMING, .DISCONNECTING, .DISCONNECT_REQ, false⟩,
   ⟨.INCOMING, .DISCONNECTING, .FACILITY_IND_DOWN, false⟩,
   ⟨.INCOMING, .DISCONNECTED, .DISCONNECT_IND, false⟩,
   ⟨.INCOMING, .DISCONNECTING, .CD_IND, false⟩,
   -- P-3
   ⟨.FACILITY_IND, .DISCONNECTING, .CONNECT_REJECT, false⟩,
   ⟨.FACILITY_IND, .ACCEPTING, .CONNECT_ACTIVE_IND, false⟩,
   ⟨.FACILITY_IND, .DISCONNECTING, .DISCONNECT_REQ, false⟩,
   ⟨.FACILITY_IND, .DISCONNECTING, .FACILITY_IND_DOWN, false⟩,
   ⟨.FACILITY_IND, .DISCONNECTED, .DISCONNECT_IND, false⟩,
   -- P-4
   ⟨.ACCEPTING, .ACTIVE, .CONNECT_ACTIVE_IND, false⟩,
   ⟨.ACCEPTING, .DISCONNECTING, .DISCONNECT_REQ, false⟩,
   ⟨.ACCEPTING, .DISCONNECTING, .FACILITY_IND_DOWN, false⟩,
   ⟨.ACCEPTING, .DISCONNECTED, .DISCONNECT_IND, false⟩,
   -- P-5
   ⟨.DISCONNECTING, .DISCONNECTED, .DISCONNECT_IND, false⟩,
   -- P-6
   ⟨.DISCONNECTED, .NONE, .DISCONNECT_RESP, true⟩,
   -- P-0.Res
   ⟨.RESUMEING, .NONE, .RESUME_CONF_ERROR, true⟩,
   ⟨.RESUMEING, .RESUME, .RESUME_CONF_OK, false⟩,
   -- P-RES
   ⟨.RESUME, .ACTIVE, .RESUME_IND, false⟩,
   -- P-HELD
   ⟨.HELD, .ACTIVE, .RETRIEVE_IND, false⟩]

/-- `ST_NCCI_*`. -/
inductive NcciState where
  | NONE | OUTGOING | INCOMING | ALLOCATED | ACTIVE | RESETING | DISCONNECTING | DISCONNECTED
  deriving DecidableEq

/-- `EV_NCCI_*`. -/
inductive NcciEvent where
  | CONNECT_B3_REQ | CONNECT_B3_IND | CONNECT_B3_CONF_OK | CONNECT_B3_CONF_ERROR | CONNECT_B3_REJECT | CONNECT_B3_RESP
  | CONNECT_B3_ACTIVE_IND | RESET_B3_REQ | RESET_B3_IND | DISCONNECT_B3_IND | DISCONNECT_B3_CONF_ERROR
  | DISCONNECT_B3_REQ | DISCONNECT_B3_RESP
  deriving DecidableEq

/-- `nextstate` is absent for `ST_NCCI_PREVIOUS`; `changefunc` is `n0` or NULL. -/
structure NcciStateChange where
  actstate : NcciState
  nextstate : Option NcciState
  event : NcciEvent
  changefunc : Bool

def nccitable : List NcciStateChange :=
  [ -- N-0
   ⟨.NONE, some .OUTGOING, .CONNECT_B3_REQ, false⟩,
   ⟨.NONE, some .INCOMING, .CONNECT_B3_IND, false⟩,
   -- N-0.1
   ⟨.OUTGOING, some .ALLOCATED, .CONNECT_B3_CONF_OK, false⟩,
   ⟨.OUTGOING, some .NONE, .CONNECT_B3_CONF_ERROR, true⟩,
   -- N-1
   ⟨.INCOMING, some .DISCONNECTING, .CONNECT_B3_REJECT, false⟩,
   ⟨.INCOMING, some .ALLOCATED, .CONNECT_B3_RESP, false⟩,
   ⟨.INCOMING, some .DISCONNECTED, .DISCONNECT_B3_IND, false⟩,
   ⟨.INCOMING, some .DISCONNECTING, .DISCONNECT_B3_REQ, false⟩,
   -- N-2
   ⟨.ALLOCATED, some .ACTIVE, .CONNECT_B3_ACTIVE_IND, false⟩,
   ⟨.ALLOCATED, some .DISCONNECTED, .DISCONNECT_B3_IND, false⟩,
   ⟨.ALLOCATED, some .DISCONNECTING, .DISCONNECT_B3_REQ, false⟩,
   -- N-ACT
   ⟨.ACTIVE, some .ACTIVE, .RESET_B3_IND, false⟩,
   ⟨.ACTIVE, some .RESETING, .RESET_B3_REQ, false⟩,
   ⟨.ACTIVE, some .DISCONNECTED, .DISCONNECT_B3_IND, false⟩,
   ⟨.ACTIVE, some .DISCONNECTING, .DISCONNECT_B3_REQ, false⟩,
   -- N-3
   ⟨.RESETING, some .ACTIVE, .RESET_B3_IND, false⟩,
   ⟨.RESETING, some .DISCONNECTED, .DISCONNECT_B3_IND, false⟩,
   ⟨.RESETING, some .DISCONNECTING, .DISCONNECT_B3_REQ, false⟩,
   -- N-4
   ⟨.DISCONNECTING, some .DISCONNECTED, .DISCONNECT_B3_IND, false⟩,
   ⟨.DISCONNECTING, none, .DISCONNECT_B3_CONF_ERROR, false⟩,
   -- N-5
   ⟨.DISCONNECTED, some .NONE, .DISCONNECT_B3_RESP, true⟩]

/-! ## Records -/

/-- `struct capidrv_ncci`. -/
structure Ncci where
  plcip : Nat
  ncci : UInt32
  msgid : UInt16
  chan : Nat
  state : NcciState
  oldstate : NcciState
  datahandle : UInt16
  ackqueue : List (UInt16 × Int)

/-- `struct capidrv_plci`. -/
structure Plci where
  plci : UInt32
  msgid : UInt16
  chan : Nat
  state : PlciState
  leasedline : Bool
  ncciList : List Nat

/-- `struct capidrv_bchan`. -/
structure Bchan where
  msn : Bytes
  l2 : Nat
  l3 : Nat
  num : Msn
  mynum : Msn
  si1 : UInt8
  si2 : UInt8
  incoming : Bool
  disconnecting : Bool
  plcip : Option Nat
  nccip : Option Nat

/-- `cmd.parm.setup` of an incoming call. -/
structure IncomingSetup where
  phone : Bytes
  eazmsn : Bytes
  si1 : UInt8
  si2 : UInt8
  plan : UInt8
  screen : UInt8

/-- `ISDN_STAT_*`: what isdn4linux is told. -/
inductive Status where
  | ICALL (chan : Nat) (setup : IncomingSetup)
  | DHUP (chan : Nat)
  | DCONN (chan : Nat)
  | BCONN (chan : Nat)
  | BHUP (chan : Nat)
  | CINF (chan : Nat) (charge : UInt32)
  | BSENT (chan : Nat) (length : Int)
  | STAVAIL (len : Nat)

/-- `ISDN_CMD_*`: what isdn4linux asks for. The channel arguments are not negative. -/
inductive Command where
  | DIAL (arg : Nat) (phone eazmsn : Msn) (si1 si2 : UInt8)
  | ACCEPTD (arg : Nat)
  | ACCEPTB (arg : Nat)
  | HANGUP (arg : Nat)
  | SETL2 (arg : Nat)
  | SETL3 (arg : Nat)
  | SETEAZ (arg : Nat) (num : Bytes)
  | CLREAZ (arg : Nat)
  | IOCTL (arg : Nat)
  | other

/-- A message given to the capicore, with its payload and the answer. -/
structure Sent where
  cmsg : Cmsg
  payload : Bytes
  info : Capinfo0x11

/-- What a request that is not confirmed yet was made for. -/
inductive Call where
  | plci (p : Nat)
  | ncci (n : Nat)
  deriving DecidableEq

/-- The card as it was registered, and what is decided elsewhere, in the order it is asked for. -/
structure Env where
  /-- `global.ap.id`. -/
  applId : UInt16
  contrnr : UInt32
  nbchan : Nat
  /-- An allocation succeeds. -/
  kmalloc : Nat → Bool
  /-- The answer of `capi_put_message` to the messages in order. -/
  put : Nat → Capinfo0x11
  /-- The commands isdn4linux issues while it is told about an incoming call, and its answer. -/
  icall : Nat → List Command × Int
  /-- The address of a buffer. -/
  address : Nat → UInt32
  /-- `ISDN_PROTO_L2_*` of a number. -/
  protoL2 : Nat → L2
  /-- What C leaves open where leased line numbers are read. -/
  undefined : LeasedLine.Undefined

/-- `struct capidrv_contr`. The last six fields are what happened so far: messages given to the capicore, what
isdn4linux was told and given, PLCI records freed, the connect requests without a confirmation, and the NCCIs
that a DISCONNECT_B3_REQ or a DATA_B3_REQ named, with the channel it was sent for. -/
structure Card where
  tick : Nat
  state : ListenState
  cipmask : UInt32
  cipmask2 : UInt32
  msgid : UInt16
  bchans : Nat → Bchan
  plcis : Nat → Option Plci
  plciNext : Nat
  plciList : List Nat
  nccis : Nat → Option Ncci
  ncciNext : Nat
  q931Buf : Nat → UInt8
  q931Read : Nat
  q931Write : Nat
  sent : List Sent
  status : List Status
  received : List (Nat × Bytes)
  freed : List Nat
  outstanding : List (UInt16 × Call)
  named : List (Nat × UInt32)

namespace Card

/-- The card after `capidrv_addcontr` has filled it in. -/
def init : Card where
  tick := 0
  state := .NONE
  cipmask := 0x1FFF03FF
  cipmask2 := 0
  msgid := 0
  bchans _ :=
    { msn := [], l2 := 0, l3 := 0, num := .empty, mynum := .empty, si1 := 0, si2 := 0, incoming := false,
      disconnecting := false, plcip := none, nccip := none }
  plcis _ := none
  plciNext := 0
  plciList := []
  nccis _ := none
  ncciNext := 0
  q931Buf _ := 0
  q931Read := 0
  q931Write := 0
  sent := []
  status := []
  received := []
  freed := []
  outstanding := []
  named := []

/-- The environment has been asked. -/
def asked (s : Card) : Card := { s with tick := s.tick + 1 }

/-- `card->msgid++`. -/
def nextMsgid (s : Card) : Card := { s with msgid := s.msgid + 1 }

def setPlci (s : Card) (p : Nat) (plci : Plci) : Card :=
  { s with plcis := Function.update s.plcis p (some plci) }

def setNcci (s : Card) (n : Nat) (ncci : Ncci) : Card :=
  { s with nccis := Function.update s.nccis n (some ncci) }

def setBchan (s : Card) (chan : Nat) (bchan : Bchan) : Card :=
  { s with bchans := Function.update s.bchans chan bchan }

/-- `card->interface.statcallb`. -/
def statcallb (s : Card) (status : Status) : Card := { s with status := s.status ++ [status] }

end Card

end Capi4Linux.Capidrv
