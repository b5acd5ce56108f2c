import Capi4Linux.Capicore.State
import Capi4Linux.Lib.Bytes

/-!
# /dev/capi20 and its ttys

`capi.c` gives user space the files of `/dev/capi20` and, for files with
CAPIFLAG_HIGHJACKING, a tty for every NCCI. A pointer to a `struct capidev` or a
`struct capiminor` is a number here. A record that was freed, or not allocated
yet, is absent from the heap, and looking at it has no outcome. A tty is its
minor number; all opens of a minor share it.
-/

namespace Capi4Linux.Capi
open Bytes Capicore

/-- `struct sk_buff`; `beyond` is the memory behind its data. -/
structure Skb where
  data : Bytes
  tailroom : Nat
  beyond : Nat → UInt8

namespace Skb

def len (skb : Skb) : Nat := skb.data.length

/-- `CAPIMSG_U8`, which looks at the memory and not at `len`. -/
def u8 (skb : Skb) (off : Nat) : UInt8 :=
  skb.data[off]?.getD (skb.beyond (off - skb.len))

def u16 (skb : Skb) (off : Nat) : UInt16 :=
  UInt16.ofNat (leNat [skb.u8 off, skb.u8 (off + 1)])

def u32 (skb : Skb) (off : Nat) : UInt32 :=
  UInt32.ofNat (leNat [skb.u8 off, skb.u8 (off + 1), skb.u8 (off + 2), skb.u8 (off + 3)])

/-- `CAPIMSG_LEN`. -/
def msgLen (skb : Skb) : Nat := (skb.u16 0).toNat

/-- `CAPIMSG_CMD`. -/
def cmd (skb : Skb) : UInt8 × UInt8 := (skb.u8 4, skb.u8 5)

/-- `CAPIMSG_NCCI`. -/
def ncci (skb : Skb) : UInt32 := skb.u32 8

/-- `capimsg_setu8`. -/
def setU8 (skb : Skb) (off : Nat) (val : UInt8) : Skb :=
  { skb with
    data := skb.data.set off val
    beyond := fun i => if skb.len + i = off then val else skb.beyond i }

/-- `capimsg_setu16`. -/
def setU16 (skb : Skb) (off : Nat) (val : UInt16) : Skb :=
  (skb.setU8 off (UInt8.ofNat val.toNat)).setU8 (off + 1) (UInt8.ofNat (val.toNat / 256))

/-- `skb_put` of one byte. -/
def putByte (skb : Skb) (ch : UInt8) : Skb :=
  { data := skb.data ++ [ch], tailroom := skb.tailroom - 1, beyond := fun i => skb.beyond (i + 1) }

/-- `skb_push` of a header. -/
def push (skb : Skb) (header : Bytes) : Skb := { skb with data := header ++ skb.data }

/-- `skb_pull`. -/
def pull (skb : Skb) (n : Nat) : Skb :=
  if n > skb.len then skb else { skb with data := skb.data.drop n }

end Skb

def CAPI_DATA_B3 : UInt8 := 0x86
def CAPI_REQ : UInt8 := 0x80
def CAPI_CONF : UInt8 := 0x81
def CAPI_IND : UInt8 := 0x82
def CAPI_RESP : UInt8 := 0x83

def CAPI_CONNECT_B3_CONF : UInt8 × UInt8 := (0x82, CAPI_CONF)
def CAPI_CONNECT_B3_IND : UInt8 × UInt8 := (0x82, CAPI_IND)
def CAPI_DATA_B3_REQ : UInt8 × UInt8 := (CAPI_DATA_B3, CAPI_REQ)
def CAPI_DISCONNECT_B3_RESP : UInt8 × UInt8 := (0x84, CAPI_RESP)

def CAPI_MSG_BASELEN : Nat := 8
def CAPI_DATA_B3_REQ_LEN : Nat := CAPI_MSG_BASELEN + 4 + 4 + 2 + 2 + 2
def CAPI_DATA_B3_RESP_LEN : Nat := CAPI_MSG_BASELEN + 4 + 2
def CAPI_MAX_BLKSIZE : Nat := 2048
def CAPINC_MAX_SENDQUEUE : Nat := 10
def CAPIFLAG_HIGHJACKING : UInt32 := 0x0001

def ENXIO : Int := 6
def EIO : Int := 5
def EAGAIN : Int := 11
def ENOMEM : Int := 12
def EFAULT : Int := 14
def EEXIST : Int := 17
def ENODEV : Int := 19
def EINVAL : Int := 22
def EMSGSIZE : Int := 90

/-- `struct capiminor`. `nccip` is only ever compared with NULL; `inbytes`, `outbytes` and `nack` are `int`. -/
structure Capiminor where
  nccip : Bool
  minor : Nat
  ap : Nat
  ncci : UInt32
  datahandle : UInt16
  msgid : UInt16
  tty : Option Nat
  ttyinstop : Bool
  ttyoutstop : Bool
  ttyskb : Option Skb
  ttyopencount : Int
  inqueue : List Skb
  inbytes : Int32
  outqueue : List Skb
  outbytes : Int32
  ackqueue : List UInt16
  nack : Int32

/-- `struct capincci`. -/
structure Capincci where
  ncci : UInt32
  minorp : Option Nat

/-- The application of a file, with its queue in the capicore. -/
structure CapiAppl where
  id : UInt16
  info : Capinfo0x11
  msgQueue : List Skb

/-- `struct capidev`. -/
structure Capidev where
  ap : CapiAppl
  errcode : Capinfo0x11
  userflags : UInt32
  recvqueue : List Skb
  nccis : List Capincci

/-- What is decided elsewhere, in the order it is asked for. -/
structure Env where
  capiTtyminors : Nat
  ttyminors_range : 1 ≤ capiTtyminors ∧ capiTtyminors ≤ 256
  /-- An allocation succeeds. -/
  kmalloc : Nat → Bool
  /-- A copy from or to user space fails. -/
  fault : Nat → Bool
  /-- The memory behind a new buffer. -/
  slab : Nat → Nat → UInt8
  /-- The characters that a new buffer of `put_char` has room for. -/
  tailroom : Nat → Nat
  tailroom_range : ∀ t, CAPI_MAX_BLKSIZE ≤ tailroom t ∧ tailroom t ≤ 65535
  /-- The address of a buffer. -/
  address : Nat → UInt32
  /-- The answer of `capi_put_message`. -/
  put : Nat → Capinfo0x11
  /-- The line discipline has `receive_buf`. -/
  receiveBuf : Nat → Bool
  /-- The answer of `receive_room`, if the line discipline has it. -/
  receiveRoom : Nat → Option Int

/-- Everything outside succeeds. -/
def Env.granting : Env where
  capiTtyminors := 16
  ttyminors_range := by decide
  kmalloc _ := true
  fault _ := false
  slab _ _ := 0
  tailroom _ := CAPI_MAX_BLKSIZE
  tailroom_range _ := by decide
  address _ := 0
  put _ := .NOERR
  receiveBuf _ := true
  receiveRoom _ := none

/-- The driver. `ttys` is the `driver_data` of every tty. The last five fields are what happened so
far: opens of a tty not closed yet, minors freed with their open count, DATA_B3 messages built for
or put through a minor with its link to an NCCI, messages accepted by the capicore, data given to
line disciplines. -/
structure Driver where
  tick : Nat
  devs : Nat → Option Capidev
  devNext : Nat
  capidevList : List Nat
  minors : Nat → Option Capiminor
  minorNext : Nat
  capiminorList : List Nat
  ttys : Nat → Option Nat
  opens : Nat → Nat
  freed : List (Nat × Int)
  talks : List (Nat × Bool)
  accepted : List (Nat × Bytes)
  received : List (Nat × Bytes)

namespace Driver

/-- The driver after loading. -/
def init : Driver where
  tick := 0
  devs _ := none
  devNext := 0
  capidevList := []
  minors _ := none
  minorNext := 0
  capiminorList := []
  ttys _ := none
  opens _ := 0
  freed := []
  talks := []
  accepted := []
  received := []

/-- The environment has been asked. -/
def asked (s : Driver) : Driver := { s with tick := s.tick + 1 }

def setMinor (s : Driver) (p : Nat) (mp : Capiminor) : Driver :=
  { s with minors := Function.update s.minors p (some mp) }

def setDev (s : Driver) (d : Nat) (cdev : Capidev) : Driver :=
  { s with devs := Function.update s.devs d (some cdev) }

end Driver

end Capi4Linux.Capi
