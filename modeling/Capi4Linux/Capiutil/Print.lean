import Capi4Linux.Capiutil.Template
import Capi4Linux.Lib.Sprintf

/-!
# Printing a message

`capi_message2str` and `capi_cmsg2str` print a line for the header of a
message and one for every parameter. `protocol_message_2_pars` walks the
parameter codes with the cursors of `message_2_pars` and reads the message
through `m` wherever its lengths lead, so the memory there is a byte function.
The text has any length here: `bufprint` does not look at the end of `buf`.
-/

namespace Capi4Linux.Capiutil
open Bytes Sprintf

/-- `isalnum`: what the table of the kernel says about the letters and digits. -/
structure Ctype where
  isalnum : UInt8 → Bool
  nul : isalnum 0 = false

/-- `mnames` with its designated indices; every other entry is NULL. -/
def mnames : List (Nat × String) :=
  [(0x01, "ALERT_REQ"), (0x02, "CONNECT_REQ"), (0x04, "DISCONNECT_REQ"), (0x05, "LISTEN_REQ"), (0x08, "INFO_REQ"),
    (0x09, "FACILITY_REQ"), (0x0a, "SELECT_B_PROTOCOL_REQ"), (0x0b, "CONNECT_B3_REQ"), (0x0d, "DISCONNECT_B3_REQ"),
    (0x0f, "DATA_B3_REQ"), (0x10, "RESET_B3_REQ"), (0x13, "ALERT_CONF"), (0x14, "CONNECT_CONF"),
    (0x16, "DISCONNECT_CONF"), (0x17, "LISTEN_CONF"), (0x18, "MANUFACTURER_REQ"), (0x1a, "INFO_CONF"),
    (0x1b, "FACILITY_CONF"), (0x1c, "SELECT_B_PROTOCOL_CONF"), (0x1d, "CONNECT_B3_CONF"),
    (0x1f, "DISCONNECT_B3_CONF"), (0x21, "DATA_B3_CONF"), (0x22, "RESET_B3_CONF"), (0x26, "CONNECT_IND"),
    (0x27, "CONNECT_ACTIVE_IND"), (0x28, "DISCONNECT_IND"), (0x2a, "MANUFACTURER_CONF"), (0x2c, "INFO_IND"),
    (0x2d, "FACILITY_IND"), (0x2f, "CONNECT_B3_IND"), (0x30, "CONNECT_B3_ACTIVE_IND"), (0x31, "DISCONNECT_B3_IND"),
    (0x33, "DATA_B3_IND"), (0x34, "RESET_B3_IND"), (0x35, "CONNECT_B3_T90_ACTIVE_IND"), (0x38, "CONNECT_RESP"),
    (0x39, "CONNECT_ACTIVE_RESP"), (0x3a, "DISCONNECT_RESP"), (0x3c, "MANUFACTURER_IND"), (0x3e, "INFO_RESP"),
    (0x3f, "FACILITY_RESP"), (0x41, "CONNECT_B3_RESP"), (0x42, "CONNECT_B3_ACTIVE_RESP"),
    (0x43, "DISCONNECT_B3_RESP"), (0x45, "DATA_B3_RESP"), (0x46, "RESET_B3_RESP"),
    (0x47, "CONNECT_B3_T90_ACTIVE_RESP"), (0x4e, "MANUFACTURER_RESP")]

/-- `pnames`, by parameter code. -/
def pnames : List (Option String) :=
  [ -- 00
    none, none, none, some "Controller/PLCI/NCCI",
    -- 04
    some "AdditionalInfo", some "B1configuration", some "B1protocol", some "B2configuration",
    -- 08
    some "B2protocol", some "B3configuration", some "B3protocol", some "BC",
    -- 0c
    some "BChannelinformation", some "BProtocol", some "CalledPartyNumber", some "CalledPartySubaddress",
    -- 10
    some "CallingPartyNumber", some "CallingPartySubaddress", some "CIPmask", some "CIPmask2",
    -- 14
    some "CIPValue", some "Class", some "ConnectedNumber", some "ConnectedSubaddress",
    -- 18
    some "Data32", some "DataHandle", some "DataLength", some "FacilityConfirmationParameter",
    -- 1c
    some "Facilitydataarray", some "FacilityIndicationParameter", some "FacilityRequestParameter",
    some "FacilitySelector",
    -- 20
    some "Flags", some "Function", some "HLC", some "Info",
    -- 24
    some "InfoElement", some "InfoMask", some "InfoNumber", some "Keypadfacility",
    -- 28
    some "LLC", some "ManuData", some "ManuID", some "NCPI",
    -- 2c
    some "Reason", some "Reason_B3", some "Reject", some "Useruserdata"]

/-- The name of a message; there is no string to print for NULL. -/
def mname (index : Nat) : Option Bytes := (mnames.lookup index).map ascii

/-- `NAME`. -/
def pname (code : Nat) : Option Bytes := (pnames[code]?.join).map ascii

/-- The number that `n` bytes of memory are. -/
def load (mem : Nat → UInt8) (l n : Nat) : Nat := leNat ((List.range' l n).map mem)

/-- A parameter that a walk over a message visits: its code, its type, the offset of its value and,
for a composite, what the walk makes of it. -/
structure Visit where
  param : Nat
  kind : Cdef
  off : Nat
  decision : Option Cmstruct
  deriving DecidableEq, Repr

/-- The `_cmsg` with its cursors and `buf` up to `p`. `visits` are the parameters the walk has visited; the code does
not have it and nothing depends on it. -/
structure Printer where
  cmsg : Cmsg
  buf : Bytes
  visits : List Visit

/-! ## The buffer -/

/-- `p` stops at the first NUL of what is printed. -/
def bufprint (buf text : Bytes) : Bytes := buf ++ cstring text

def printstructlen (ctype : Ctype) (mem : Nat → UInt8) : Nat → Nat → Bool → Bytes → Bytes
  | 0, _, hex, buf => if hex then bufprint buf (ascii ">") else buf
  | len + 1, m, hex, buf =>
    if ctype.isalnum (mem m) ∨ mem m = 32 then
      let buf := if hex then bufprint buf (ascii ">") else buf
      printstructlen ctype mem len (m + 1) false (bufprint buf [mem m])
    else
      let buf :=
        if !hex then bufprint buf (ascii "<" ++ zeroPad 2 (Sprintf.hex (mem m).toNat))
        else bufprint buf (ascii " " ++ zeroPad 2 (Sprintf.hex (mem m).toNat))
      printstructlen ctype mem len (m + 1) true buf

def printstruct (ctype : Ctype) (mem : Nat → UInt8) (m : Nat) (buf : Bytes) : Bytes :=
  if mem m ≠ 0xff then printstructlen ctype mem (mem m).toNat (m + 1) false buf
  else printstructlen ctype mem (load mem (m + 1) 2) (m + 3) false buf

namespace Printer

def print (s : Printer) (text : Bytes) : Printer := { s with buf := bufprint s.buf text }

/-- The blanks that a line starts with. -/
def indent (s : Printer) (level : Nat) : Printer :=
  (List.replicate (level - 1) (ascii " ")).foldl print (s.print (ascii "  "))

def visit (s : Printer) (param : Nat) (kind : Cdef) (decision : Option Cmstruct) : Printer :=
  { s with visits := s.visits ++ [⟨param, kind, s.cmsg.l, decision⟩] }

def next (s : Printer) : Printer := { s with cmsg := s.cmsg.next }

/-- Move `l`. -/
def skip (s : Printer) (n : Nat) : Printer := { s with cmsg := { s.cmsg with l := s.cmsg.l + n } }

end Printer

/-! ## The walk -/

def protocolMessage2Pars (ctype : Ctype) (mem : Nat → UInt8) : Nat → Nat → Printer → Option Printer
  | 0, _, _ => none
  | fuel + 1, level, s => do
    let slen := 29 + 3 - level
    let code ← s.cmsg.par[s.cmsg.p]?
    match ← cdef[code]? with
    | .word f =>
      let s := (s.indent level).visit code (.word f) none
      let s := s.print
        (padRight slen (← pname code) ++ ascii " = 0x" ++ hex (load mem s.cmsg.l 2) ++ ascii "\n")
      protocolMessage2Pars ctype mem fuel level (s.skip 2).next
    | .dword f =>
      let s := (s.indent level).visit code (.dword f) none
      let s := s.print
        (padRight slen (← pname code) ++ ascii " = 0x" ++ hex (load mem s.cmsg.l 4) ++ ascii "\n")
      protocolMessage2Pars ctype mem fuel level (s.skip 4).next
    | .cstruct f =>
      let s := (s.indent level).visit code (.cstruct f) none
      let s := s.print (padRight slen (← pname code) ++ ascii " = ")
      let s :=
        if mem s.cmsg.l = 0 then s.print (ascii "default")
        else { s with buf := printstruct ctype mem s.cmsg.l s.buf }
      let s := s.print (ascii "\n")
      let size :=
        if mem s.cmsg.l ≠ 0xff then 1 + (mem s.cmsg.l).toNat else 3 + load mem (s.cmsg.l + 1) 2
      protocolMessage2Pars ctype mem fuel level (s.skip size).next
    | .cmstruct f =>
      if mem s.cmsg.l = 0 then
        let s := (s.indent level).visit code (.cmstruct f) (some .default)
        let s := s.print (padRight slen (← pname code) ++ ascii " = default\n")
        let cmsg ← jumpcstruct (s.skip 1).cmsg
        protocolMessage2Pars ctype mem fuel level ({ s with cmsg } : Printer).next
      else
        let s := (s.indent level).visit code (.cmstruct f) (some .compose)
        let s := s.print (padRight slen (← pname code) ++ ascii "\n")
        let s ← protocolMessage2Pars ctype mem fuel (level + 1)
          (s.skip (if mem s.cmsg.l = 255 then 3 else 1)).next
        protocolMessage2Pars ctype mem fuel level s.next
    | .cend => some s

/-- What both print behind the name of the message. -/
def headerText (mem : Nat → UInt8) : Bytes :=
  ascii " ID=" ++ zeroPad 3 (decimal (load mem 2 2)) ++ ascii " #0x" ++ zeroPad 4 (hex (load mem 6 2)) ++
    ascii " LEN=" ++ zeroPad 4 (decimal (load mem 0 2)) ++ ascii "\n"

/-- `stack` is the `_cmsg` on the stack, which has no initial value. -/
def capiMessage2str (ctype : Ctype) (stack : Cmsg) (mem : Nat → UInt8) : Option Printer := do
  let par ← cpars (command2Index (mem 4) (mem 5))
  let name ← mname (command2Index (mem 4) (mem 5))
  let s : Printer := ⟨{ stack with l := 8, p := 0, command := mem 4, subcommand := mem 5, par }, [], []⟩
  protocolMessage2Pars ctype mem par.length 1 (s.print (padRight 26 name ++ headerText mem))

def capiCmsg2str (ctype : Ctype) (cmsg : Cmsg) (mem : Nat → UInt8) : Option Printer := do
  let name ← mname (command2Index cmsg.command cmsg.subcommand)
  let s : Printer := ⟨{ cmsg with l := 8, p := 0 }, [], []⟩
  protocolMessage2Pars ctype mem cmsg.par.length 1 (s.print (name ++ headerText mem))

end Capi4Linux.Capiutil
