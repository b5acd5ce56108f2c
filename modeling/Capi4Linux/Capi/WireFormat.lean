import Capi4Linux.Capi.Minor
import Capi4Linux.Capiutil.DataMessages
import Capi4Linux.Capiutil.Reencode

/-!
# Messages built and read by hand

`capi.c` writes the messages of its data path byte by byte and reads fields at
fixed offsets, `capiutil.c` follows the templates. Both write the same bytes and
see the same fields.
-/

namespace Capi4Linux.Capi
open Bytes Capicore Capiutil

def CAPI_DATA_B3_CONF : UInt8 × UInt8 := (CAPI_DATA_B3, CAPI_CONF)
def CAPI_DATA_B3_IND : UInt8 × UInt8 := (CAPI_DATA_B3, CAPI_IND)

/-! ## Fields at an offset -/

section Offsets

variable {skb : Skb} {front rest : Bytes} {off : Nat}

theorem u8_at {b : UInt8} (place : off = front.length) (data : skb.data = front ++ b :: rest) : skb.u8 off = b := by
  have here : skb.data[off]? = some b := by
    rw [data, place, List.getElem?_append_right (Nat.le_refl _), Nat.sub_self]
    rfl
  rw [Skb.u8, here]
  rfl

theorem u16_at {x : UInt16} (place : off = front.length) (data : skb.data = front ++ (le 2 x.toNat ++ rest)) :
    skb.u16 off = x := by
  have low := u8_at place data
  have high : skb.u8 (off + 1) = UInt8.ofNat (x.toNat / 256) := by
    have size : off + 1 = (front ++ [UInt8.ofNat x.toNat]).length := by
      rw [place, List.length_append]
      rfl
    apply u8_at size
    rw [data, List.append_assoc]
    rfl
  have word : leNat (le 2 x.toNat) = x.toNat := leNat_le_of_lt x.toNat_lt
  rw [Skb.u16, low, high]
  show UInt16.ofNat (leNat (le 2 x.toNat)) = x
  rw [word, UInt16.ofNat_toNat]

/-- A double word at its place. -/
theorem u32_at {x : UInt32} (place : off = front.length) (data : skb.data = front ++ (le 4 x.toNat ++ rest)) :
    skb.u32 off = x := by
  have byte : ∀ k b (before after : Bytes), le 4 x.toNat = before ++ b :: after → k = before.length →
      skb.u8 (off + k) = b := by
    intro k b before after split size
    have here : off + k = (front ++ before).length := by rw [place, size, List.length_append]
    apply u8_at here
    rw [data, split, List.append_assoc, List.append_assoc]
    rfl
  have b₀ := byte 0 _ [] _ rfl rfl
  have b₁ := byte 1 _ [_] _ rfl rfl
  have b₂ := byte 2 _ [_, _] _ rfl rfl
  have b₃ := byte 3 _ [_, _, _] _ rfl rfl
  have dword : leNat (le 4 x.toNat) = x.toNat := leNat_le_of_lt x.toNat_lt
  rw [Nat.add_zero] at b₀
  rw [Skb.u32, b₀, b₁, b₂, b₃]
  show UInt32.ofNat (leNat (le 4 x.toNat)) = x
  rw [dword, UInt32.ofNat_toNat]

end Offsets

/-! ## Received messages -/

/-- What `capi.c` reads at fixed offsets is what `capi_message2cmsg` decodes. -/
structure SeesFields (skb : Skb) (cmsg : Cmsg) : Prop where
  cmd : skb.cmd = (cmsg.command, cmsg.subcommand)
  length : skb.msgLen = cmsg.l
  ncci : skb.ncci = cmsg.adr
  info : skb.cmd = CAPI_CONNECT_B3_CONF → skb.u16 12 = cmsg.word .info
  dataLength : skb.cmd = CAPI_DATA_B3_IND → skb.u16 16 = cmsg.word .dataLength
  indHandle : skb.cmd = CAPI_DATA_B3_IND → skb.u16 (CAPI_MSG_BASELEN + 4 + 4 + 2) = cmsg.word .dataHandle
  confHandle : skb.cmd = CAPI_DATA_B3_CONF → skb.u16 (CAPI_MSG_BASELEN + 4) = cmsg.word .dataHandle

section Received

variable {skb : Skb} {src : Cmsg} {len off : Nat} {items before after : List Item} {tail : Bytes}
  (data : skb.data = header src len ++ items.flatMap (Item.encode src) ++ tail)
include data

/-- The command is read from the header. -/
theorem cmd_of_header : skb.cmd = (src.command, src.subcommand) := by
  have command : skb.u8 4 = src.command := by
    apply u8_at (show 4 = (le 2 len ++ le 2 src.applId.toNat).length from rfl)
    rw [data, header]
    simp only [List.append_assoc, List.cons_append]
    rfl
  have subcommand : skb.u8 5 = src.subcommand := by
    apply u8_at (show 5 = (le 2 len ++ le 2 src.applId.toNat ++ [src.command]).length from rfl)
    rw [data, header]
    simp only [List.append_assoc, List.cons_append]
    rfl
  rw [Skb.cmd, command, subcommand]

theorem msgLen_of_header (small : len < 65536) : skb.msgLen = len := by
  have counted : (UInt16.ofNat len).toNat = len := UInt16.toNat_ofNat_of_lt' small
  have word : skb.u16 0 = UInt16.ofNat len := by
    apply u16_at (show 0 = ([] : Bytes).length from rfl)
    rw [data, counted, header]
    simp only [List.append_assoc]
    rfl
  rw [Skb.msgLen, word, counted]

/-- A word behind the items before it. -/
theorem word_at {f : WordField} (here : items = before ++ .par (.word f) :: after)
    (place : off = 8 + (before.flatMap (Item.encode src)).length) : skb.u16 off = src.word f := by
  have size : off = (header src len ++ before.flatMap (Item.encode src)).length := by
    rw [place, List.length_append, length_header]
  apply u16_at size
  rw [data, here, List.flatMap_append, List.flatMap_cons]
  simp only [List.append_assoc]
  rfl

/-- A double word behind the items before it. -/
theorem dword_at {f : DwordField} (here : items = before ++ .par (.dword f) :: after)
    (place : off = 8 + (before.flatMap (Item.encode src)).length) : skb.u32 off = src.dword f := by
  have size : off = (header src len ++ before.flatMap (Item.encode src)).length := by
    rw [place, List.length_append, length_header]
  apply u32_at size
  rw [data, here, List.flatMap_append, List.flatMap_cons]
  simp only [List.append_assoc]
  rfl

end Received

/-- The messages whose fields `capi_recv_message` looks at. -/
def dataPath : List (UInt8 × UInt8) :=
  [CAPI_DATA_B3_IND, CAPI_DATA_B3_CONF, CAPI_CONNECT_B3_IND, CAPI_CONNECT_B3_CONF]

/-- The driver reads the fields that the decoder gives. -/
theorem seesFields {skb : Skb} {msg tail : Bytes} (data : skb.data = msg ++ tail) (formed : Formed msg)
    (known : skb.cmd ∈ dataPath) : ∃ cmsg, capiMessage2cmsg skb.data = some cmsg ∧ SeesFields skb cmsg := by
  obtain ⟨src, par, cmsg, template, -, -, message, parsed, same, command, subcommand, -, -, consumed⟩ :=
    decoded_source formed tail
  have shape : skb.data = header src msg.length ++ (layout par).flatMap (Item.encode src) ++ tail := by
    rw [← message, data]
  have cmd := cmd_of_header shape
  have small := formed.small
  have items : ∀ {ds : List Item} {m : UInt8 × UInt8} {codes : List Nat}, skb.cmd = m →
      cpars (command2Index m.1 m.2) = some codes → layout codes = ds → layout par = ds := by
    rintro ds m codes rfl found rfl
    rw [cmd] at found
    rw [Option.some.inj (template.symm.trans found)]
  have dword : ∀ f, cmsg.dword f = src.dword f := fun f => same (.dword f)
  have word : ∀ f, cmsg.word f = src.word f := fun f => same (.word f)
  have dataInd : skb.cmd = CAPI_DATA_B3_IND → layout par = [.par (.dword .adr), .par (.dword .data),
      .par (.word .dataLength), .par (.word .dataHandle), .par (.word .flags)] := fun m => items m rfl rfl
  have dataConf : skb.cmd = CAPI_DATA_B3_CONF → layout par = [.par (.dword .adr), .par (.word .dataHandle),
      .par (.word .info)] := fun m => items m rfl rfl
  have connectInd : skb.cmd = CAPI_CONNECT_B3_IND → layout par = [.par (.dword .adr), .par (.cstruct .ncpi)] :=
    fun m => items m rfl rfl
  have connectConf : skb.cmd = CAPI_CONNECT_B3_CONF → layout par = [.par (.dword .adr), .par (.word .info)] :=
    fun m => items m rfl rfl
  have address : ∃ after, layout par = [] ++ .par (.dword .adr) :: after := by
    simp only [dataPath, List.mem_cons, List.not_mem_nil, or_false] at known
    rcases known with m | m | m | m
    · exact ⟨_, dataInd m⟩
    · exact ⟨_, dataConf m⟩
    · exact ⟨_, connectInd m⟩
    · exact ⟨_, connectConf m⟩
  refine ⟨cmsg, data ▸ parsed, ?_⟩
  constructor
  · rw [cmd, command, subcommand]
  · rw [msgLen_of_header shape small, consumed]
  · obtain ⟨after, first⟩ := address
    rw [Cmsg.adr, dword]
    exact dword_at shape first rfl
  · intro m
    have place : layout par = [.par (.dword .adr)] ++ .par (.word .info) :: [] := connectConf m
    rw [word]
    exact word_at shape place rfl
  · intro m
    have place : layout par = [.par (.dword .adr), .par (.dword .data)] ++
      .par (.word .dataLength) :: [.par (.word .dataHandle), .par (.word .flags)] := dataInd m
    rw [word]
    exact word_at shape place rfl
  · intro m
    have place : layout par = [.par (.dword .adr), .par (.dword .data), .par (.word .dataLength)] ++
      .par (.word .dataHandle) :: [.par (.word .flags)] := dataInd m
    rw [word]
    exact word_at shape place rfl
  · intro m
    have place : layout par = [.par (.dword .adr)] ++ .par (.word .dataHandle) :: [.par (.word .info)] := dataConf m
    rw [word]
    exact word_at shape place rfl

/-! ## Built messages -/

/-- `gen_data_b3_req` writes the bytes of a DATA_B3_REQ. -/
theorem dataB3Req_eq (ap : CapiAppl) (mp : Capiminor) (address : UInt32) (len : UInt16) :
    dataB3Req ap mp address len = dataB3ReqBytes ap.id mp.msgid mp.ncci address len mp.datahandle 0 := rfl

/-- `gen_data_b3_resp_for` writes the bytes of a DATA_B3_RESP. -/
theorem dataB3Resp_eq (ap : CapiAppl) (mp : Capiminor) (datahandle : UInt16) :
    dataB3Resp ap mp datahandle = dataB3RespBytes ap.id mp.msgid mp.ncci datahandle := rfl

/-- `capi.c` and `capiutil.c` write the same DATA_B3_REQ and the same DATA_B3_RESP, and see the same fields in a message
of the data path, whatever follows it in its buffer. -/
theorem wire_formats_agree :
    (∀ (ap : CapiAppl) (mp : Capiminor) (address : UInt32) (len : UInt16) (buf : Bytes),
        CAPI_DATA_B3_REQ_LEN ≤ buf.length →
      ∃ out, capiCmsg2message (capiFillDataB3Req ap.id mp.msgid mp.ncci address len mp.datahandle 0) buf = some out ∧
        out.m = dataB3Req ap mp address len ++ buf.drop CAPI_DATA_B3_REQ_LEN) ∧
    (∀ (ap : CapiAppl) (mp : Capiminor) (datahandle : UInt16) (buf : Bytes), CAPI_DATA_B3_RESP_LEN ≤ buf.length →
      ∃ out, capiCmsg2message (capiFillDataB3Resp ap.id mp.msgid mp.ncci datahandle) buf = some out ∧
        out.m = dataB3Resp ap mp datahandle ++ buf.drop CAPI_DATA_B3_RESP_LEN) ∧
    ∀ (skb : Skb) (msg tail : Bytes), skb.data = msg ++ tail → Formed msg → skb.cmd ∈ dataPath →
      ∃ cmsg, capiMessage2cmsg skb.data = some cmsg ∧ SeesFields skb cmsg := by
  refine ⟨?_, ?_, fun skb msg tail data formed known => seesFields data formed known⟩
  · intro ap mp address len buf room
    rw [dataB3Req_eq]
    exact encode_dataB3Req ap.id mp.msgid mp.ncci address len mp.datahandle 0 room
  · intro ap mp datahandle buf room
    rw [dataB3Resp_eq]
    exact encode_dataB3Resp ap.id mp.msgid mp.ncci datahandle room

/-- A DATA_B3_IND of three bytes. -/
def dataB3Ind : Bytes := [22, 0, 1, 0, 0x86, 0x82, 7, 0, 1, 1, 1, 0, 0, 0, 0, 0, 3, 0, 5, 0, 0, 0]

theorem dataB3Ind_formed : Formed dataB3Ind where
  header := by decide
  length := by decide
  parameters := by
    refine ⟨0x86, 0x82, [0x03, 0x18, 0x1a, 0x19, 0x20, 0x01], rfl, rfl, rfl, ?_⟩
    have handle : ItemValues [.par (.word .dataHandle), .par (.word .flags)] [5, 0, 0, 0] :=
      .cons (.par (.word 5 0)) (.cons (.par (.word 0 0)) .nil)
    have length : ItemValues [.par (.word .dataLength), .par (.word .dataHandle), .par (.word .flags)] [3, 0, 5, 0, 0, 0] :=
      .cons (.par (.word 3 0)) handle
    have whole := ItemValues.cons (.par (.dword (f := .adr) 1 1 1 0)) (.cons (.par (.dword (f := .data) 0 0 0 0)) length)
    exact whole

/-- The fields of a DATA_B3_IND in front of its data. -/
theorem wire_formats_agree_ind : Formed dataB3Ind ∧ ∃ cmsg, capiMessage2cmsg (dataB3Ind ++ [9, 8, 7]) = some cmsg ∧
    SeesFields ⟨dataB3Ind ++ [9, 8, 7], 0, fun _ => 0⟩ cmsg :=
  ⟨dataB3Ind_formed,
    wire_formats_agree.2.2 ⟨dataB3Ind ++ [9, 8, 7], 0, fun _ => 0⟩ dataB3Ind [9, 8, 7] rfl dataB3Ind_formed (by decide)⟩

end Capi4Linux.Capi
