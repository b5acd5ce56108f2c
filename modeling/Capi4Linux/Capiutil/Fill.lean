import Capi4Linux.Capiutil.Codec

/-!
# Messages filled in by an application

The `capi_fill_*` functions that `capidrv.c` uses, and the one for DATA_B3_RESP.
Every parameter they do not
set keeps the default of `capi_cmsg_header`; a `_cstruct` that is NULL is left
at its default.
-/

namespace Capi4Linux.Capiutil
open Bytes

def CAPI_REQ : UInt8 := 0x80
def CAPI_CONF : UInt8 := 0x81
def CAPI_IND : UInt8 := 0x82
def CAPI_RESP : UInt8 := 0x83

def CAPI_ALERT : UInt8 := 0x01
def CAPI_CONNECT : UInt8 := 0x02
def CAPI_CONNECT_ACTIVE : UInt8 := 0x03
def CAPI_DISCONNECT : UInt8 := 0x04
def CAPI_LISTEN : UInt8 := 0x05
def CAPI_INFO : UInt8 := 0x08
def CAPI_FACILITY : UInt8 := 0x80
def CAPI_CONNECT_B3 : UInt8 := 0x82
def CAPI_CONNECT_B3_ACTIVE : UInt8 := 0x83
def CAPI_DISCONNECT_B3 : UInt8 := 0x84
def CAPI_DATA_B3 : UInt8 := 0x86
def CAPI_RESET_B3 : UInt8 := 0x87
def CAPI_CONNECT_B3_T90_ACTIVE : UInt8 := 0x88
def CAPI_MANUFACTURER : UInt8 := 0xff

namespace Cmsg

def setWord (cmsg : Cmsg) (f : WordField) (x : UInt16) : Cmsg :=
  { cmsg with word := Function.update cmsg.word f x }

def setDword (cmsg : Cmsg) (f : DwordField) (x : UInt32) : Cmsg :=
  { cmsg with dword := Function.update cmsg.dword f x }

def setCstruct (cmsg : Cmsg) (f : CstructField) (s : Option Bytes) : Cmsg :=
  { cmsg with cstruct := Function.update cmsg.cstruct f s }

/-- `adr`, read as a controller, a PLCI or an NCCI. -/
def adr (cmsg : Cmsg) : UInt32 := cmsg.dword .adr

end Cmsg

section Fill

variable (applId messagenumber : UInt16) (adr : UInt32)

def capiFillConnectB3Req : Cmsg := capiCmsgHeader applId CAPI_CONNECT_B3 CAPI_REQ messagenumber adr

def capiFillListenReq (infoMask cipMask cipMask2 : UInt32) : Cmsg :=
  (((capiCmsgHeader applId CAPI_LISTEN CAPI_REQ messagenumber adr).setDword .infoMask infoMask).setDword
    .cipMask cipMask).setDword .cipMask2 cipMask2

def capiFillAlertReq : Cmsg := capiCmsgHeader applId CAPI_ALERT CAPI_REQ messagenumber adr

def capiFillConnectReq (cipValue : UInt16) (calledPartyNumber callingPartyNumber : Option Bytes)
    (b1protocol b2protocol b3protocol : UInt16) (b1configuration bchannelinformation : Option Bytes) : Cmsg :=
  (((((((capiCmsgHeader applId CAPI_CONNECT CAPI_REQ messagenumber adr).setWord .cipValue cipValue).setCstruct
    .calledPartyNumber calledPartyNumber).setCstruct .callingPartyNumber callingPartyNumber).setWord
    .b1protocol b1protocol).setWord .b2protocol b2protocol).setWord .b3protocol b3protocol).setCstruct
    .b1configuration b1configuration |>.setCstruct .bchannelinformation bchannelinformation

def capiFillDataB3Req (data : UInt32) (dataLength dataHandle flags : UInt16) : Cmsg :=
  ((((capiCmsgHeader applId CAPI_DATA_B3 CAPI_REQ messagenumber adr).setDword .data data).setWord
    .dataLength dataLength).setWord .dataHandle dataHandle).setWord .flags flags

def capiFillDisconnectReq : Cmsg := capiCmsgHeader applId CAPI_DISCONNECT CAPI_REQ messagenumber adr

def capiFillDisconnectB3Req : Cmsg := capiCmsgHeader applId CAPI_DISCONNECT_B3 CAPI_REQ messagenumber adr

def capiFillManufacturerReq (manuID msgClass function : UInt32) (manuData : Option Bytes) : Cmsg :=
  ((((capiCmsgHeader applId CAPI_MANUFACTURER CAPI_REQ messagenumber adr).setDword .manuID manuID).setDword
    .msgClass msgClass).setDword .function function).setCstruct .manuData manuData

def capiFillConnectResp (reject b1protocol b2protocol b3protocol : UInt16) (b1configuration : Option Bytes) : Cmsg :=
  (((((capiCmsgHeader applId CAPI_CONNECT CAPI_RESP messagenumber adr).setWord .reject reject).setWord
    .b1protocol b1protocol).setWord .b2protocol b2protocol).setWord .b3protocol b3protocol).setCstruct
    .b1configuration b1configuration

def capiFillConnectB3Resp (reject : UInt16) : Cmsg :=
  (capiCmsgHeader applId CAPI_CONNECT_B3 CAPI_RESP messagenumber adr).setWord .reject reject

def capiFillDataB3Resp (dataHandle : UInt16) : Cmsg :=
  (capiCmsgHeader applId CAPI_DATA_B3 CAPI_RESP messagenumber adr).setWord .dataHandle dataHandle

end Fill

end Capi4Linux.Capiutil
