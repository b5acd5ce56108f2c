import Capi4Linux.Capidrv.Step
import Capi4Linux.Capiutil.Format
import Capi4Linux.Capiutil.Reencode
import Capi4Linux.Capiutil.Room

/-!
# The sizes of messages

Every message is encoded into the `buf` of a `_cmsg`. The messages that capidrv
fills in are small whatever was dialled; the response that refuses a call
takes the LLC and the AdditionalInfo of its CONNECT_IND along.
-/

namespace Capi4Linux.Capidrv
open Bytes Capicore Capiutil

/-- `sizeof` of the `buf` of a `_cmsg`. -/
def bufSize : Nat := 180

/-- `capi_cmsg2message` stays inside the `buf` of a `_cmsg`, whatever is in it. -/
def Fits (cmsg : Cmsg) : Prop := ∀ buf : Bytes, buf.length = bufSize → ∃ out, capiCmsg2message cmsg buf = some out

/-! ## The sizes of messages -/

section Sizes

variable {cmsg : Cmsg} {par : List Nat}

/-- A message with a template fits if its items can be read and their encoding is not too long. -/
theorem fits_iff (template : cpars (command2Index cmsg.command cmsg.subcommand) = some par) :
    Fits cmsg ↔ (∀ i ∈ layout par, i.Readable cmsg) ∧ encodedLength cmsg (layout par) ≤ bufSize := by
  constructor
  · intro fits
    have size : (List.replicate bufSize (0 : UInt8)).length = bufSize := List.length_replicate
    have room := (encodes_iff template (by rw [size]; decide)).mp (fits _ size)
    rwa [size] at room
  · intro ⟨readable, room⟩ buf size
    apply (encodes_iff template ?_).mpr
    · exact ⟨readable, by omega⟩
    · rw [size]
      decide

/-- A message with a header only is sound. -/
theorem sound_header (applId : UInt16) (command subcommand : UInt8) (messagenumber : UInt16) (adr : UInt32) :
    (capiCmsgHeader applId command subcommand messagenumber adr).Sound := fun _ => trivial

/-- It stays sound when a word is set. -/
theorem sound_setWord (sound : cmsg.Sound) (f : WordField) (x : UInt16) : (cmsg.setWord f x).Sound := sound

/-- It stays sound when a well-formed structure is set. -/
theorem sound_setCstruct (sound : cmsg.Sound) {s : Option Bytes} (formed : WellFormed s) (f : CstructField) :
    (cmsg.setCstruct f s).Sound := by
  intro g
  show WellFormed (Function.update cmsg.cstruct f s g)
  rcases eq_or_ne g f with rfl | other
  · rw [Function.update_self]
    exact formed
  · rw [Function.update_of_ne other]
    exact sound g

/-- The size of a struct with its length. -/
def structLength (s : Option Bytes) : Nat := ((structBytes s).getD []).length

/-- A struct in the short form. -/
theorem short_struct {n : UInt8} {bs : Bytes} (small : n ≠ 0xff) (size : bs.length = n.toNat) :
    WellFormed (some (n :: bs)) ∧ structLength (some (n :: bs)) = 1 + bs.length := by
  have value : Value (.cstruct .llc) (n :: bs) := .short small size
  have sized := value.structSize
  constructor
  · exact ⟨_, sized, Nat.le_refl _⟩
  · simp [structLength, structBytes, sized, peek, Nat.add_comm]

theorem structLength_none : structLength none = 1 := rfl

/-- The size of a parameter. -/
@[simp] theorem length_encoded (cmsg : Cmsg) (d : Cdef) : (cmsg.encoded d).length =
    match d with
    | .word _ => 2
    | .dword _ => 4
    | .cstruct f => structLength (cmsg.cstruct f)
    | .cmstruct _ | .cend => 0 := by
  cases d with
  | word f => exact length_le 2 _
  | dword f => exact length_le 4 _
  | cstruct f => rfl
  | cmstruct f => rfl
  | cend => rfl

/-- The template of a message has the items. -/
def Template (message : UInt8 × UInt8) (items : List Item) : Prop :=
  ∃ par, cpars (command2Index message.1 message.2) = some par ∧ layout par = items

/-- A message fits if the items of its template do. -/
theorem fits_of_template {message : UInt8 × UInt8} {items : List Item} (template : Template message items)
    (same : cmd cmsg = message) :
    Fits cmsg ↔ (∀ i ∈ items, i.Readable cmsg) ∧ encodedLength cmsg items ≤ bufSize := by
  obtain ⟨par, found, rfl⟩ := template
  subst same
  exact fits_iff found

/-- A message whose structs can all be read. -/
theorem fits_of_sound {message : UInt8 × UInt8} {items : List Item} (template : Template message items)
    (same : cmd cmsg = message) (sound : cmsg.Sound) : Fits cmsg ↔ encodedLength cmsg items ≤ bufSize :=
  (fits_of_template template same).trans (and_iff_right fun i _ => sound.item i)

/-- A message of an address and nothing else. -/
theorem fits_address {message : UInt8 × UInt8} (template : Template message [.par (.dword .adr)])
    (same : cmd cmsg = message) : Fits cmsg := by
  apply (fits_of_template template same).mpr
  constructor
  · intro i member
    rw [List.mem_singleton.mp member]
    exact ⟨_, rfl⟩
  · simp [encodedLength, Item.encode, bufSize]

/-- An answer to an indication. -/
theorem fits_answer {command : UInt8} (template : Template (command, CAPI_RESP) [.par (.dword .adr)])
    (message : cmd cmsg = (command, CAPI_IND)) : Fits (capiCmsgAnswer cmsg) := by
  apply fits_address template
  show (cmsg.command, cmsg.subcommand ||| 0x01) = _
  rw [(Prod.mk.inj message).1, (Prod.mk.inj message).2]
  rfl

theorem fits_dataB3Resp (message : cmd cmsg = CAPI_DATA_B3_IND) : Fits (capiCmsgAnswer cmsg) := by
  have template : Template (CAPI_DATA_B3, CAPI_RESP) [.par (.dword .adr), .par (.word .dataHandle)] :=
    ⟨[0x03, 0x19, 0x01], rfl, rfl⟩
  have same : cmd (capiCmsgAnswer cmsg) = (CAPI_DATA_B3, CAPI_RESP) := by
    show (cmsg.command, cmsg.subcommand ||| 0x01) = _
    rw [(Prod.mk.inj message).1, (Prod.mk.inj message).2]
    rfl
  apply (fits_of_template template same).mpr
  constructor
  · intro i member
    rcases List.mem_pair.mp member with rfl | rfl
    · exact ⟨_, rfl⟩
    · exact ⟨_, rfl⟩
  · simp [encodedLength, Item.encode, bufSize]

end Sizes

/-! ## Messages that capidrv fills in -/

/-- The members of AdditionalInfo. -/
def additionalInfo : List Cdef :=
  [.cstruct .bchannelinformation, .cstruct .keypadfacility, .cstruct .useruserdata, .cstruct .facilitydataarray]

/-- The members of BProtocol. -/
def bprotocol : List Cdef :=
  [.word .b1protocol, .word .b2protocol, .word .b3protocol, .cstruct .b1configuration, .cstruct .b2configuration,
   .cstruct .b3configuration]

/-- The items of CONNECT_RESP. -/
def connectRespItems : List Item :=
  [.par (.dword .adr), .par (.word .reject), .comp .bprotocol bprotocol, .par (.cstruct .connectedNumber),
   .par (.cstruct .connectedSubaddress), .par (.cstruct .llc), .comp .additionalInfo additionalInfo]

theorem template_connectResp : Template (CAPI_CONNECT, CAPI_RESP) connectRespItems :=
  ⟨[0x03, 0x2e, 0x0d, 0x06, 0x08, 0x0a, 0x05, 0x07, 0x09, 0x01, 0x16, 0x17, 0x28, 0x04, 0x0c, 0x27, 0x2f, 0x1c, 0x01,
    0x01], rfl, rfl⟩

section Filled

variable (applId messagenumber : UInt16) (adr : UInt32)

/-- A request of an address and an empty AdditionalInfo. -/
theorem fits_withInfo {command subcommand : UInt8}
    (template : Template (command, subcommand) [.par (.dword .adr), .comp .additionalInfo additionalInfo]) :
    Fits (capiCmsgHeader applId command subcommand messagenumber adr) := by
  apply (fits_of_sound template rfl (sound_header _ _ _ _ _)).mpr
  simp [encodedLength, Item.encode, Cmsg.content, additionalInfo, capiCmsgHeader, Cmsg.zero, bufSize, structLength_none]

/-- A request of an address and an empty NCPI. -/
theorem fits_withNcpi {command subcommand : UInt8}
    (template : Template (command, subcommand) [.par (.dword .adr), .par (.cstruct .ncpi)]) :
    Fits (capiCmsgHeader applId command subcommand messagenumber adr) := by
  apply (fits_of_sound template rfl (sound_header _ _ _ _ _)).mpr
  simp [encodedLength, Item.encode, capiCmsgHeader, Cmsg.zero, bufSize, structLength_none]

theorem fits_alertReq : Fits (capiFillAlertReq applId messagenumber adr) := by
  apply fits_withInfo
  exact ⟨[0x03, 0x04, 0x0c, 0x27, 0x2f, 0x1c, 0x01, 0x01], rfl, rfl⟩

theorem fits_disconnectReq : Fits (capiFillDisconnectReq applId messagenumber adr) := by
  apply fits_withInfo
  exact ⟨[0x03, 0x04, 0x0c, 0x27, 0x2f, 0x1c, 0x01, 0x01], rfl, rfl⟩

theorem fits_connectB3Req : Fits (capiFillConnectB3Req applId messagenumber adr) := by
  apply fits_withNcpi
  exact ⟨[0x03, 0x2b, 0x01], rfl, rfl⟩

theorem fits_disconnectB3Req : Fits (capiFillDisconnectB3Req applId messagenumber adr) := by
  apply fits_withNcpi
  exact ⟨[0x03, 0x2b, 0x01], rfl, rfl⟩

theorem fits_connectB3Resp (reject : UInt16) : Fits (capiFillConnectB3Resp applId messagenumber adr reject) := by
  have template : Template (CAPI_CONNECT_B3, CAPI_RESP)
      [.par (.dword .adr), .par (.word .reject), .par (.cstruct .ncpi)] := ⟨[0x03, 0x2e, 0x2b, 0x01], rfl, rfl⟩
  apply (fits_of_sound template rfl (sound_setWord (sound_header _ _ _ _ _) _ _)).mpr
  simp [encodedLength, Item.encode, Cmsg.setWord, capiCmsgHeader, Cmsg.zero, bufSize,
    structLength_none]

theorem fits_listenReq (infoMask cipMask cipMask2 : UInt32) :
    Fits (capiFillListenReq applId messagenumber adr infoMask cipMask cipMask2) := by
  have template : Template (CAPI_LISTEN, CAPI_REQ) [.par (.dword .adr), .par (.dword .infoMask),
      .par (.dword .cipMask), .par (.dword .cipMask2), .par (.cstruct .callingPartyNumber),
      .par (.cstruct .callingPartySubaddress)] := ⟨[0x03, 0x25, 0x12, 0x13, 0x10, 0x11, 0x01], rfl, rfl⟩
  have sound : (capiFillListenReq applId messagenumber adr infoMask cipMask cipMask2).Sound := fun _ => trivial
  apply (fits_of_sound template rfl sound).mpr
  simp [encodedLength, Item.encode, capiFillListenReq, Cmsg.setDword, capiCmsgHeader, Cmsg.zero, bufSize,
    structLength_none]

theorem fits_dataB3Req (data : UInt32) (dataLength dataHandle flags : UInt16) :
    Fits (capiFillDataB3Req applId messagenumber adr data dataLength dataHandle flags) := by
  have template : Template (CAPI_DATA_B3, CAPI_REQ) [.par (.dword .adr), .par (.dword .data),
      .par (.word .dataLength), .par (.word .dataHandle), .par (.word .flags)] :=
    ⟨[0x03, 0x18, 0x1a, 0x19, 0x20, 0x01], rfl, rfl⟩
  have sound : (capiFillDataB3Req applId messagenumber adr data dataLength dataHandle flags).Sound :=
    fun _ => trivial
  apply (fits_of_sound template rfl sound).mpr
  simp [encodedLength, Item.encode, bufSize]

theorem fits_manufacturerReq (manuID msgClass function : UInt32) {manuData : Option Bytes} (formed : WellFormed manuData)
    (small : structLength manuData ≤ 100) :
    Fits (capiFillManufacturerReq applId messagenumber adr manuID msgClass function manuData) := by
  have template : Template (CAPI_MANUFACTURER, CAPI_REQ) [.par (.dword .adr), .par (.dword .manuID),
      .par (.dword .msgClass), .par (.dword .function), .par (.cstruct .manuData)] :=
    ⟨[0x03, 0x2a, 0x15, 0x21, 0x29, 0x01], rfl, rfl⟩
  have sound : (capiFillManufacturerReq applId messagenumber adr manuID msgClass function manuData).Sound := by
    apply sound_setCstruct ?_ formed
    exact fun _ => trivial
  apply (fits_of_sound template rfl sound).mpr
  simp only [encodedLength, List.flatMap_cons, List.flatMap_nil, List.length_append, List.length_nil, Item.encode,
    length_encoded, capiFillManufacturerReq, Cmsg.setCstruct, Function.update_self, bufSize]
  omega

theorem fits_connectResp (reject b1 b2 b3 : UInt16) {b1configuration : Option Bytes}
    (formed : WellFormed b1configuration) (small : structLength b1configuration ≤ 10) :
    Fits (capiFillConnectResp applId messagenumber adr reject b1 b2 b3 b1configuration) := by
  have sound : (capiFillConnectResp applId messagenumber adr reject b1 b2 b3 b1configuration).Sound := by
    apply sound_setCstruct ?_ formed
    exact fun _ => trivial
  apply (fits_of_sound template_connectResp rfl sound).mpr
  simp [encodedLength, connectRespItems, Item.encode, Cmsg.content, additionalInfo, bprotocol, capiFillConnectResp,
    Cmsg.setCstruct, Cmsg.setWord, capiCmsgHeader, Cmsg.zero, structLength_none, bufSize]
  split
  · omega
  · omega

theorem fits_connectReq (cipValue b1 b2 b3 : UInt16) {called calling b1configuration bchannelinformation : Option Bytes}
    (formed : WellFormed called ∧ WellFormed calling ∧ WellFormed b1configuration ∧ WellFormed bchannelinformation)
    (small : structLength called ≤ 40 ∧ structLength calling ≤ 40 ∧ structLength b1configuration ≤ 10 ∧
      structLength bchannelinformation ≤ 36) :
    Fits (capiFillConnectReq applId messagenumber adr cipValue called calling b1 b2 b3 b1configuration
      bchannelinformation) := by
  have template : Template (CAPI_CONNECT, CAPI_REQ) [.par (.dword .adr), .par (.word .cipValue),
      .par (.cstruct .calledPartyNumber), .par (.cstruct .callingPartyNumber), .par (.cstruct .calledPartySubaddress),
      .par (.cstruct .callingPartySubaddress), .comp .bprotocol bprotocol, .par (.cstruct .bc), .par (.cstruct .llc),
      .par (.cstruct .hlc), .comp .additionalInfo additionalInfo] :=
    ⟨[0x03, 0x14, 0x0e, 0x10, 0x0f, 0x11, 0x0d, 0x06, 0x08, 0x0a, 0x05, 0x07, 0x09, 0x01, 0x0b, 0x28, 0x22, 0x04, 0x0c,
      0x27, 0x2f, 0x1c, 0x01, 0x01], rfl, rfl⟩
  have sound : (capiFillConnectReq applId messagenumber adr cipValue called calling b1 b2 b3 b1configuration
      bchannelinformation).Sound := by
    apply sound_setCstruct ?_ formed.2.2.2
    apply sound_setCstruct ?_ formed.2.2.1
    show ((((capiCmsgHeader _ _ _ _ _).setWord _ _).setCstruct _ _).setCstruct _ _).Sound
    apply sound_setCstruct ?_ formed.2.1
    apply sound_setCstruct ?_ formed.1
    exact fun _ => trivial
  apply (fits_of_sound template rfl sound).mpr
  simp [encodedLength, Item.encode, Cmsg.content, additionalInfo, bprotocol, capiFillConnectReq, Cmsg.setCstruct,
    Cmsg.setWord, capiCmsgHeader, Cmsg.zero, structLength_none, bufSize]
  generalize structLength called = a, structLength calling = b, structLength b1configuration = c,
    structLength bchannelinformation = d at small
  split
  · split <;> omega
  · split <;> omega

end Filled

/-- A number of less than 32 digits behind its length. -/
theorem dialNumbers_small (leased : Bool) (num mynum : Msn) :
    (WellFormed (some (dialNumbers leased num mynum).1) ∧ structLength (some (dialNumbers leased num mynum).1) ≤ 40) ∧
      WellFormed (some (dialNumbers leased num mynum).2) ∧ structLength (some (dialNumbers leased num mynum).2) ≤ 40 := by
  have counted : ∀ (n : Nat) (bs : Bytes), bs.length = n → n < 40 →
      WellFormed (some (UInt8.ofNat n :: bs)) ∧ structLength (some (UInt8.ofNat n :: bs)) ≤ 40 := by
    intro n bs size few
    have value : (UInt8.ofNat n).toNat = n := by
      rw [UInt8.toNat_ofNat']
      omega
    have small : UInt8.ofNat n ≠ 0xff := by
      intro full
      rw [full] at value
      have last : (0xff : UInt8).toNat = 255 := rfl
      omega
    obtain ⟨formed, length⟩ := short_struct small (size.trans value.symm)
    exact ⟨formed, by omega⟩
  have called := num.short
  have calling := mynum.short
  unfold ISDN_MSNLEN at called calling
  cases leased with
  | true => exact ⟨counted 0 [] rfl (by decide), counted 0 [] rfl (by decide)⟩
  | false =>
    constructor
    · exact counted _ (0x80 :: num.chars) rfl (by omega)
    · exact counted _ (0 :: 0x80 :: mynum.chars) rfl (by omega)

/-- The B1 configuration is well formed and short. -/
theorem b1config_small (l2 : L2) : WellFormed (b1config l2) ∧ structLength (b1config l2) ≤ 10 := by
  have async : ∀ rate, WellFormed (some (b1configAsyncV110 rate)) ∧ structLength (some (b1configAsyncV110 rate)) ≤ 10 := by
    intro rate
    obtain ⟨formed, length⟩ := @short_struct 8
      [UInt8.ofNat (rate % 256), UInt8.ofNat (rate / 256 % 256), 8, 0, 0, 0, 0, 0] (by decide) rfl
    refine ⟨formed, ?_⟩
    unfold b1configAsyncV110
    rw [length]
    exact Nat.le_of_lt (by decide : 9 < 10)
  cases l2 with
  | v11096 | v11019 | v11038 => exact async _
  | _ => exact ⟨trivial, by decide⟩

/-- `AdditionalInfo` of a leased line takes 36 bytes. -/
theorem leasedLine_small {env : Env} {num : Msn} {line : Int ⊕ Bytes} (parsed : dialLine env num = some line) :
    WellFormed line.getRight? ∧ structLength line.getRight? ≤ 36 := by
  obtain ⟨decoded, -, rfl⟩ := Option.map_eq_some_iff.mp parsed
  cases decoded with
  | inl rc => exact ⟨trivial, Nat.le_of_lt (by decide : 1 < 36)⟩
  | inr line =>
    obtain ⟨formed, length⟩ := @short_struct 35 ([3, 0, if line.2 then 0 else 1, 0, 0] ++
      (List.range' 1 30).map fun i : Nat => if line.1 &&& env.undefined.bit i ≠ 0 then 0xff else 0) (by decide) (by simp)
    exact ⟨formed, Nat.le_of_eq length⟩

/-- Whatever is dialled, the CONNECT_REQ fits. -/
theorem fits_dialConnectReq {env : Env} (messagenumber : UInt16) {bchan : Bchan} {line : Int ⊕ Bytes}
    (parsed : dialLine env bchan.num = some line) : Fits (dialConnectReq env messagenumber bchan line) := by
  obtain ⟨called, calling⟩ := dialNumbers_small line.isRight bchan.num bchan.mynum
  have configuration := b1config_small (env.protoL2 bchan.l2)
  have information := leasedLine_small parsed
  exact fits_connectReq _ _ _ _ _ _ _ ⟨called.1, calling.1, configuration.1, information.1⟩
    ⟨called.2, calling.2, configuration.2, information.2⟩

/-! ## The refusal of a call -/

/-- The LLC of a call and its AdditionalInfo, with the length byte, take 154 bytes at most. -/
def SmallCall (cmsg : Cmsg) : Prop :=
  structLength (cmsg.cstruct .llc) +
    (match cmsg.cmstruct .additionalInfo with
      | .default => 1
      | .compose => 1 + (cmsg.content additionalInfo).length) ≤ 154

/-- The LLC of a call and the members of its AdditionalInfo can be read to their ends. -/
structure ReadableCall (cmsg : Cmsg) : Prop where
  llc : WellFormed (cmsg.cstruct .llc)
  additionalInfo : cmsg.cmstruct .additionalInfo = .compose →
    ∀ f ∈ [CstructField.bchannelinformation, .keypadfacility, .useruserdata, .facilitydataarray],
      WellFormed (cmsg.cstruct f)

/-- A sound message can be read through. -/
theorem readableCall_of_sound {cmsg : Cmsg} (sound : cmsg.Sound) : ReadableCall cmsg :=
  ⟨sound _, fun _ f _ => sound f⟩

/-- The parameters of a CONNECT_RESP that are not in a CONNECT_IND have no value after decoding one. -/
theorem connectInd_default {msg : Bytes} {cmsg : Cmsg} (decoded : capiMessage2cmsg msg = some cmsg)
    (message : cmd cmsg = CAPI_CONNECT_IND) : cmsg.cmstruct .bprotocol = .compose ∧
      ∀ f ∈ [CstructField.b1configuration, .b2configuration, .b3configuration, .connectedNumber, .connectedSubaddress],
        structBytes (cmsg.cstruct f) = some [0] := by
  have template : cpars (command2Index cmsg.command cmsg.subcommand) = some [0x03, 0x14, 0x0e, 0x10, 0x0f, 0x11, 0x0b,
      0x28, 0x22, 0x04, 0x0c, 0x27, 0x2f, 0x1c, 0x01, 0x01] := by
    show cpars (command2Index (cmd cmsg).1 (cmd cmsg).2) = _
    rw [message]
    rfl
  constructor
  · exact decoded_default decoded template (d := .cmstruct .bprotocol) (by decide)
  · intro f member
    have outside : Cdef.cstruct f ∉ (layout [0x03, 0x14, 0x0e, 0x10, 0x0f, 0x11, 0x0b, 0x28, 0x22, 0x04, 0x0c, 0x27, 0x2f,
        0x1c, 0x01, 0x01]).flatMap Item.defs := by
      revert f
      decide
    exact decoded_default decoded template outside

/-- What the CONNECT_RESP of a refused call reads of its CONNECT_IND. -/
theorem refusal_readable_iff {cmsg : Cmsg} (empty : ∀ f ∈ [CstructField.b1configuration, .b2configuration,
      .b3configuration, .connectedNumber, .connectedSubaddress], structBytes (cmsg.cstruct f) = some [0]) :
    (∀ i ∈ connectRespItems, i.Readable cmsg) ↔ ReadableCall cmsg := by
  have unset : ∀ f ∈ [CstructField.b1configuration, .b2configuration, .b3configuration, .connectedNumber,
      .connectedSubaddress], cmsg.Readable (.cstruct f) := fun f member => ⟨[0], empty f member⟩
  constructor
  · intro readable
    constructor
    · exact (cmsg.readable_cstruct_iff .llc).mp (readable (.par (.cstruct .llc)) (by decide))
    · intro kind f member
      have info := readable (.comp .additionalInfo additionalInfo) (by decide) kind
      exact (cmsg.readable_cstruct_iff f).mp (info (.cstruct f) (by revert f; decide))
  · intro call i member
    have members : ∀ d ∈ bprotocol, cmsg.Readable d := by
      simp only [bprotocol, List.forall_mem_cons, List.not_mem_nil, false_implies, implies_true, and_true]
      exact ⟨⟨_, rfl⟩, ⟨_, rfl⟩, ⟨_, rfl⟩, unset _ (by decide), unset _ (by decide), unset _ (by decide)⟩
    have info : cmsg.cmstruct .additionalInfo = .compose → ∀ d ∈ additionalInfo, cmsg.Readable d := by
      intro kind d member
      simp only [additionalInfo, List.mem_cons, List.not_mem_nil, or_false] at member
      rcases member with rfl | rfl | rfl | rfl
      all_goals exact (cmsg.readable_cstruct_iff _).mpr (call.additionalInfo kind _ (by decide))
    simp only [connectRespItems, List.mem_cons, List.not_mem_nil, or_false] at member
    rcases member with rfl | rfl | rfl | rfl | rfl | rfl | rfl
    · exact ⟨_, rfl⟩
    · exact ⟨_, rfl⟩
    · exact fun _ => members
    · exact unset _ (by decide)
    · exact unset _ (by decide)
    · exact (cmsg.readable_cstruct_iff .llc).mpr call.llc
    · exact info

/-- The CONNECT_RESP of a refused call fits exactly when the call can be read and is small. -/
theorem fits_refusal_iff {msg : Bytes} {cmsg : Cmsg} (decoded : capiMessage2cmsg msg = some cmsg)
    (message : cmd cmsg = CAPI_CONNECT_IND) (reject : UInt16) :
    Fits ((capiCmsgAnswer cmsg).setWord .reject reject) ↔ ReadableCall cmsg ∧ SmallCall cmsg := by
  obtain ⟨compose, empty⟩ := connectInd_default decoded message
  have same : cmd ((capiCmsgAnswer cmsg).setWord .reject reject) = (CAPI_CONNECT, CAPI_RESP) := by
    show (cmsg.command, cmsg.subcommand ||| 0x01) = _
    rw [(Prod.mk.inj message).1, (Prod.mk.inj message).2]
    rfl
  have kept : ((capiCmsgAnswer cmsg).setWord .reject reject).content additionalInfo = cmsg.content additionalInfo := rfl
  have cstruct : ((capiCmsgAnswer cmsg).setWord .reject reject).cstruct = cmsg.cstruct := rfl
  have cmstruct : ((capiCmsgAnswer cmsg).setWord .reject reject).cmstruct = cmsg.cmstruct := rfl
  have readable : ReadableCall ((capiCmsgAnswer cmsg).setWord .reject reject) ↔ ReadableCall cmsg :=
    ⟨fun ⟨llc, info⟩ => ⟨llc, info⟩, fun ⟨llc, info⟩ => ⟨llc, info⟩⟩
  rw [← readable]
  generalize (capiCmsgAnswer cmsg).setWord .reject reject = response at same kept cstruct cmstruct
  have length : ∀ f ∈ [CstructField.b1configuration, .b2configuration, .b3configuration, .connectedNumber,
      .connectedSubaddress], structLength (cmsg.cstruct f) = 1 := by
    intro f member
    rw [structLength, empty f member]
    rfl
  rw [← cstruct] at empty
  have protocol : (response.content bprotocol).length = 9 := by
    simp [Cmsg.content, bprotocol, cstruct, length]
  rw [fits_of_template template_connectResp same, refusal_readable_iff empty, SmallCall]
  apply and_congr_right
  intro _
  cases kind : cmsg.cmstruct .additionalInfo with
  | default =>
    simp [encodedLength, connectRespItems, Item.encode, cstruct, cmstruct, protocol, compose, kind, length, bufSize]
    omega
  | compose =>
    simp [encodedLength, connectRespItems, Item.encode, cstruct, cmstruct, protocol, compose, kind, kept, length, bufSize]
    split
    · omega
    · omega

end Capi4Linux.Capidrv
