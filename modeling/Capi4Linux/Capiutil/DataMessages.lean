import Capi4Linux.Capiutil.Fill
import Capi4Linux.Capiutil.RoundTrip

/-!
# The data messages

DATA_B3_REQ and DATA_B3_RESP have no structs: the encoder writes a fixed
number of bytes, whatever the values are.
-/

namespace Capi4Linux.Capiutil
open Bytes

/-- A message without composites is its header and its parameters. -/
theorem capiCmsg2message_plain {cmsg : Cmsg} {par : List Nat} {buf : Bytes}
    (template : cpars (command2Index cmsg.command cmsg.subcommand) = some par) (sound : cmsg.Sound)
    (short : ∀ i ∈ layout par, i.Short cmsg) (room : encodedLength cmsg (layout par) ≤ buf.length) :
    ∃ out, capiCmsg2message cmsg buf = some out ∧
      out.m = header cmsg (encodedLength cmsg (layout par)) ++ (layout par).flatMap (Item.encode cmsg) ++
        buf.drop (encodedLength cmsg (layout par)) := by
  obtain ⟨out, r, encoded, message, behind⟩ := capiCmsg2message_eq template (fun i _ => sound.item i) room
  rw [image_of_short short] at message behind
  refine ⟨out, encoded, ?_⟩
  rw [message, behind short, List.append_assoc]
  rfl

section Encoding

variable (applId messagenumber : UInt16) (adr : UInt32) {buf : Bytes}

/-- The bytes of a DATA_B3_REQ. -/
def dataB3ReqBytes (data : UInt32) (dataLength dataHandle flags : UInt16) : Bytes :=
  le 2 22 ++ le 2 applId.toNat ++ [CAPI_DATA_B3, CAPI_REQ] ++ le 2 messagenumber.toNat ++ le 4 adr.toNat ++
    le 4 data.toNat ++ le 2 dataLength.toNat ++ le 2 dataHandle.toNat ++ le 2 flags.toNat

/-- The bytes of a DATA_B3_RESP. -/
def dataB3RespBytes (dataHandle : UInt16) : Bytes :=
  le 2 14 ++ le 2 applId.toNat ++ [CAPI_DATA_B3, CAPI_RESP] ++ le 2 messagenumber.toNat ++ le 4 adr.toNat ++
    le 2 dataHandle.toNat

theorem encode_dataB3Req (data : UInt32) (dataLength dataHandle flags : UInt16) (room : 22 ≤ buf.length) :
    ∃ out, capiCmsg2message (capiFillDataB3Req applId messagenumber adr data dataLength dataHandle flags) buf = some out ∧
      out.m = dataB3ReqBytes applId messagenumber adr data dataLength dataHandle flags ++ buf.drop 22 := by
  let cmsg := capiFillDataB3Req applId messagenumber adr data dataLength dataHandle flags
  have template : cpars (command2Index CAPI_DATA_B3 CAPI_REQ) = some [0x03, 0x18, 0x1a, 0x19, 0x20, 0x01] := rfl
  have items : layout [0x03, 0x18, 0x1a, 0x19, 0x20, 0x01] = [.par (.dword .adr), .par (.dword .data),
      .par (.word .dataLength), .par (.word .dataHandle), .par (.word .flags)] := rfl
  have short : ∀ i ∈ layout [0x03, 0x18, 0x1a, 0x19, 0x20, 0x01], i.Short cmsg := by
    rw [items]
    simp [Item.Short]
  obtain ⟨out, encoded, message⟩ := @capiCmsg2message_plain cmsg _ buf template (fun _ => trivial) short room
  refine ⟨out, encoded, ?_⟩
  rw [message, items]
  rfl

theorem encode_dataB3Resp (dataHandle : UInt16) (room : 14 ≤ buf.length) :
    ∃ out, capiCmsg2message (capiFillDataB3Resp applId messagenumber adr dataHandle) buf = some out ∧
      out.m = dataB3RespBytes applId messagenumber adr dataHandle ++ buf.drop 14 := by
  let cmsg := capiFillDataB3Resp applId messagenumber adr dataHandle
  have template : cpars (command2Index CAPI_DATA_B3 CAPI_RESP) = some [0x03, 0x19, 0x01] := rfl
  have items : layout [0x03, 0x19, 0x01] = [.par (.dword .adr), .par (.word .dataHandle)] := rfl
  have short : ∀ i ∈ layout [0x03, 0x19, 0x01], i.Short cmsg := by
    rw [items]
    simp [Item.Short]
  obtain ⟨out, encoded, message⟩ := @capiCmsg2message_plain cmsg _ buf template (fun _ => trivial) short room
  refine ⟨out, encoded, ?_⟩
  rw [message, items]
  rfl

end Encoding

end Capi4Linux.Capiutil
