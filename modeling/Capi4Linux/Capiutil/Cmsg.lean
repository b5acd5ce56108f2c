import Capi4Linux.Lib.Bytes

/-!
# CAPI messages

The `_cmsg` structure and the two tables that drive the conversion between it
and a message: `cdef` gives the type and the place of every parameter code,
`cpars` the parameter codes of every message.
-/

namespace Capi4Linux.Capiutil
open Bytes

/-- The parameters of type `_CWORD`. -/
inductive WordField
  | b1protocol | b2protocol | b3protocol | cipValue | dataHandle | dataLength | facilitySelector | flags
  | info | infoNumber | reason | reasonB3 | reject
  deriving DecidableEq, Repr

/-- The parameters of type `_CDWORD`; `adr` is the union of controller, PLCI and NCCI. -/
inductive DwordField
  | adr | cipMask | cipMask2 | msgClass | data | function | infoMask | manuID
  deriving DecidableEq, Repr

/-- The parameters of type `_CSTRUCT`. -/
inductive CstructField
  | b1configuration | b2configuration | b3configuration | bc | bchannelinformation | calledPartyNumber
  | calledPartySubaddress | callingPartyNumber | callingPartySubaddress | connectedNumber
  | connectedSubaddress | facilityConfirmationParameter | facilitydataarray
  | facilityIndicationParameter | facilityRequestParameter | hlc | infoElement | keypadfacility | llc
  | manuData | ncpi | useruserdata
  deriving DecidableEq, Repr

/-- The parameters of type `_CMSTRUCT`. -/
inductive CmstructField
  | additionalInfo | bprotocol
  deriving DecidableEq, Repr

/-- `_cmstruct`: a composite parameter is either left out or made of its members. -/
inductive Cmstruct
  | compose | default
  deriving DecidableEq, Repr

/-- An entry of `cdef`. No entry has type `_CBYTE`. -/
inductive Cdef
  | word (f : WordField)
  | dword (f : DwordField)
  | cstruct (f : CstructField)
  | cmstruct (f : CmstructField)
  | cend
  deriving DecidableEq, Repr

/-- `_cmsg`. A `_cstruct` is NULL or the bytes from the pointer to the end of its object;
`m` is the buffer of the message. -/
structure Cmsg where
  applId : UInt16
  command : UInt8
  subcommand : UInt8
  messagenumber : UInt16
  word : WordField → UInt16
  dword : DwordField → UInt32
  cstruct : CstructField → Option Bytes
  cmstruct : CmstructField → Cmstruct
  l : Nat
  p : Nat
  par : List Nat
  m : Bytes

/-- `typ` and `off` of every parameter code. -/
def cdef : List Cdef :=
  [
    -- 00
    .cend, .cend, .cend, .dword .adr,
    -- 04
    .cmstruct .additionalInfo, .cstruct .b1configuration, .word .b1protocol, .cstruct .b2configuration,
    -- 08
    .word .b2protocol, .cstruct .b3configuration, .word .b3protocol, .cstruct .bc,
    -- 0c
    .cstruct .bchannelinformation, .cmstruct .bprotocol,
    .cstruct .calledPartyNumber, .cstruct .calledPartySubaddress,
    -- 10
    .cstruct .callingPartyNumber, .cstruct .callingPartySubaddress, .dword .cipMask, .dword .cipMask2,
    -- 14
    .word .cipValue, .dword .msgClass, .cstruct .connectedNumber, .cstruct .connectedSubaddress,
    -- 18
    .dword .data, .word .dataHandle, .word .dataLength, .cstruct .facilityConfirmationParameter,
    -- 1c
    .cstruct .facilitydataarray, .cstruct .facilityIndicationParameter,
    .cstruct .facilityRequestParameter, .word .facilitySelector,
    -- 20
    .word .flags, .dword .function, .cstruct .hlc, .word .info,
    -- 24
    .cstruct .infoElement, .dword .infoMask, .word .infoNumber, .cstruct .keypadfacility,
    -- 28
    .cstruct .llc, .cstruct .manuData, .dword .manuID, .cstruct .ncpi,
    -- 2c
    .word .reason, .word .reasonB3, .word .reject, .cstruct .useruserdata]

/-- `cpars` with its designated indices; every other entry is NULL. -/
def cparsTable : List (Nat × List Nat) :=
   [(0x01, [0x03, 0x04, 0x0c, 0x27, 0x2f, 0x1c, 0x01, 0x01]), -- ALERT_REQ
    (0x02, [0x03, 0x14, 0x0e, 0x10, 0x0f, 0x11, 0x0d, 0x06, 0x08, 0x0a, 0x05, 0x07, 0x09, 0x01,
      0x0b, 0x28, 0x22, 0x04, 0x0c, 0x27, 0x2f, 0x1c, 0x01, 0x01]), -- CONNECT_REQ
    (0x04, [0x03, 0x04, 0x0c, 0x27, 0x2f, 0x1c, 0x01, 0x01]), -- DISCONNECT_REQ
    (0x05, [0x03, 0x25, 0x12, 0x13, 0x10, 0x11, 0x01]), -- LISTEN_REQ
    (0x08, [0x03, 0x0e, 0x04, 0x0c, 0x27, 0x2f, 0x1c, 0x01, 0x01]), -- INFO_REQ
    (0x09, [0x03, 0x1f, 0x1e, 0x01]), -- FACILITY_REQ
    (0x0a, [0x03, 0x0d, 0x06, 0x08, 0x0a, 0x05, 0x07, 0x09, 0x01, 0x01]), -- SELECT_B_PROTOCOL_REQ
    (0x0b, [0x03, 0x2b, 0x01]), -- CONNECT_B3_REQ
    (0x0d, [0x03, 0x2b, 0x01]), -- DISCONNECT_B3_REQ
    (0x0f, [0x03, 0x18, 0x1a, 0x19, 0x20, 0x01]), -- DATA_B3_REQ
    (0x10, [0x03, 0x2b, 0x01]), -- RESET_B3_REQ
    (0x13, [0x03, 0x23, 0x01]), -- ALERT_CONF
    (0x14, [0x03, 0x23, 0x01]), -- CONNECT_CONF
    (0x16, [0x03, 0x23, 0x01]), -- DISCONNECT_CONF
    (0x17, [0x03, 0x23, 0x01]), -- LISTEN_CONF
    (0x18, [0x03, 0x2a, 0x15, 0x21, 0x29, 0x01]), -- MANUFACTURER_REQ
    (0x1a, [0x03, 0x23, 0x01]), -- INFO_CONF
    (0x1b, [0x03, 0x23, 0x1f, 0x1b, 0x01]), -- FACILITY_CONF
    (0x1c, [0x03, 0x23, 0x01]), -- SELECT_B_PROTOCOL_CONF
    (0x1d, [0x03, 0x23, 0x01]), -- CONNECT_B3_CONF
    (0x1f, [0x03, 0x23, 0x01]), -- DISCONNECT_B3_CONF
    (0x21, [0x03, 0x19, 0x23, 0x01]), -- DATA_B3_CONF
    (0x22, [0x03, 0x23, 0x01]), -- RESET_B3_CONF
    (0x26, [0x03, 0x14, 0x0e, 0x10, 0x0f, 0x11, 0x0b, 0x28, 0x22, 0x04, 0x0c, 0x27, 0x2f, 0x1c,
      0x01, 0x01]), -- CONNECT_IND
    (0x27, [0x03, 0x16, 0x17, 0x28, 0x01]), -- CONNECT_ACTIVE_IND
    (0x28, [0x03, 0x2c, 0x01]), -- DISCONNECT_IND
    (0x2a, [0x03, 0x2a, 0x15, 0x21, 0x29, 0x01]), -- MANUFACTURER_CONF
    (0x2c, [0x03, 0x26, 0x24, 0x01]), -- INFO_IND
    (0x2d, [0x03, 0x1f, 0x1d, 0x01]), -- FACILITY_IND
    (0x2f, [0x03, 0x2b, 0x01]), -- CONNECT_B3_IND
    (0x30, [0x03, 0x2b, 0x01]), -- CONNECT_B3_ACTIVE_IND
    (0x31, [0x03, 0x2d, 0x2b, 0x01]), -- DISCONNECT_B3_IND
    (0x33, [0x03, 0x18, 0x1a, 0x19, 0x20, 0x01]), -- DATA_B3_IND
    (0x34, [0x03, 0x2b, 0x01]), -- RESET_B3_IND
    (0x35, [0x03, 0x2b, 0x01]), -- CONNECT_B3_T90_ACTIVE_IND
    (0x38, [0x03, 0x2e, 0x0d, 0x06, 0x08, 0x0a, 0x05, 0x07, 0x09, 0x01, 0x16, 0x17, 0x28, 0x04,
      0x0c, 0x27, 0x2f, 0x1c, 0x01, 0x01]), -- CONNECT_RESP
    (0x39, [0x03, 0x01]), -- CONNECT_ACTIVE_RESP
    (0x3a, [0x03, 0x01]), -- DISCONNECT_RESP
    (0x3c, [0x03, 0x2a, 0x15, 0x21, 0x29, 0x01]), -- MANUFACTURER_IND
    (0x3e, [0x03, 0x01]), -- INFO_RESP
    (0x3f, [0x03, 0x1f, 0x01]), -- FACILITY_RESP
    (0x41, [0x03, 0x2e, 0x2b, 0x01]), -- CONNECT_B3_RESP
    (0x42, [0x03, 0x01]), -- CONNECT_B3_ACTIVE_RESP
    (0x43, [0x03, 0x01]), -- DISCONNECT_B3_RESP
    (0x45, [0x03, 0x19, 0x01]), -- DATA_B3_RESP
    (0x46, [0x03, 0x01]), -- RESET_B3_RESP
    (0x47, [0x03, 0x01]), -- CONNECT_B3_T90_ACTIVE_RESP
    (0x4e, [0x03, 0x2a, 0x15, 0x21, 0x29, 0x01])] -- MANUFACTURER_RESP

def cpars (index : Nat) : Option (List Nat) :=
  cparsTable.lookup index

def command2Index (c sc : UInt8) : Nat :=
  let c :=
    if c &&& 0x80 ≠ 0 then 0x9 + (c &&& 0x0f).toNat
    else if c ≤ 0x0f then c.toNat
    else if c = 0x41 then 0x9 + 0x1
    else if c = 0xff then 0x00
    else c.toNat
  (sc &&& 3).toNat * (0x9 + 0x9) + c

namespace Cmsg

/-- `memset(cmsg, 0, sizeof(_cmsg))` with `m` set to the message. -/
def zero (msg : Bytes) : Cmsg where
  applId := 0
  command := 0
  subcommand := 0
  messagenumber := 0
  word _ := 0
  dword _ := 0
  cstruct _ := none
  cmstruct _ := .compose
  l := 0
  p := 0
  par := []
  m := msg

def next (cmsg : Cmsg) : Cmsg := { cmsg with p := cmsg.p + 1 }

/-- `TYP` and `OFF`. -/
def typ (cmsg : Cmsg) : Option Cdef :=
  cmsg.par[cmsg.p]?.bind (cdef[·]?)

end Cmsg

end Capi4Linux.Capiutil
