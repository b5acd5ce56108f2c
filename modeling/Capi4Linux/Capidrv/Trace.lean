import Capi4Linux.Capidrv.Step
import Capi4Linux.Capiutil.Struct

/-!
# The trace of the D channel

An AVM controller sends the frames of the D channel in `ManuData`: a word that
says which layer they belong to, and the frame. `handle_controller` finds both
behind the length of the struct, and `handle_dtrace_data` prints the frame.
-/

namespace Capi4Linux.Capidrv
open Bytes Capicore Capiutil

/-! ## What the handler does with the memory at `ManuData` -/

/-- The direction and the layer of a frame with a layer word; no layer is traced for the other words. -/
def frameOf (layer : Nat) : Option (Bool × Bool) :=
  let direction : Bool := if layer &&& 0x300 ≠ 0 then layer &&& 0x200 = 0 else layer &&& 0x800 = 0
  if layer &&& 0x0C00 ≠ 0 then if layer &&& 0xff = 0x80 then some (direction, true) else none
  else if layer &&& 0xff < 0x80 then some (direction, false)
  else none

/-- `data` and the counted length of the struct. -/
def traceHeader (mem : Nat → UInt8) : Nat × Nat :=
  if (mem 0).toNat = 255 then (5, (mem 1).toNat + (mem 2).toNat * 256) else (3, (mem 0).toNat)

/-- The offset and the number of the bytes of the frame. -/
def traceFrame (mem : Nat → UInt8) : Nat × Nat := ((traceHeader mem).1, ((traceHeader mem).2 + 65536 - 2) % 65536)

/-- The layer word, two bytes in front of the frame. -/
def traceLayer (mem : Nat → UInt8) : Nat :=
  (mem ((traceFrame mem).1 - 1)).toNat * 256 + (mem ((traceFrame mem).1 - 2)).toNat

/-- The byte behind the length of the struct is read: it is one of the layer word, or of a frame that is traced. -/
def TraceReads (mem : Nat → UInt8) (i : Nat) : Prop :=
  i = (traceFrame mem).1 - 1 ∨ i = (traceFrame mem).1 - 2 ∨
    (frameOf (traceLayer mem)).isSome ∧ (traceFrame mem).1 ≤ i ∧ i < (traceFrame mem).1 + (traceFrame mem).2

/-- The card after the trace of a frame in memory. -/
def traceInd (mem : Nat → UInt8) (s : Card) : Card :=
  match frameOf (traceLayer mem) with
  | none => s
  | some (send, level2) =>
    handleDtraceData s send level2 ((List.range' (traceFrame mem).1 (traceFrame mem).2).map mem) (traceFrame mem).2

/-! ## What it is for -/

/-- `0` to `9` and `A` to `F`. -/
def hexDigits : Bytes := [48, 49, 50, 51, 52, 53, 54, 55, 56, 57, 65, 66, 67, 68, 69, 70]

/-- A blank and the two digits of a byte. -/
def hexByte (byte : UInt8) : Bytes := [32, hexDigits.getD (byte.toNat / 16) 0, hexDigits.getD (byte.toNat % 16) 0]

/-- The line that is printed for a frame. -/
def traceLine (send level2 : Bool) (frame : Bytes) : Bytes :=
  [68, if level2 then 50 else 51, if send then 62 else 60, 58] ++ frame.flatMap hexByte ++ [10]

/-- The frame is printed, and isdn4linux is told how long the line is; nothing is printed for an empty one. -/
def printed (s : Card) (send level2 : Bool) (frame : Bytes) : Card :=
  if frame = [] then s
  else
    let line := traceLine send level2 frame
    (line.foldl putbyteToStatus s).statcallb (.STAVAIL line.length)

/-- A message with a frame, and the memory behind it. -/
structure TraceMessage (cmsg : Cmsg) where
  manuData : Struct
  rest : Bytes
  beyond : Nat → UInt8
  message : cmd cmsg = CAPI_MANUFACTURER_IND
  manuID : cmsg.dword .manuID = 0x214D5641
  msgClass : cmsg.dword .msgClass = 0
  function : cmsg.dword .function = 1
  field : cmsg.cstruct .manuData = some (manuData.bytes ++ rest)

/-- The memory at `ManuData`. -/
def TraceMessage.memory {cmsg : Cmsg} (m : TraceMessage cmsg) : Nat → UInt8 := m.manuData.memory m.rest m.beyond

/-- The trace is what the message contains: only content is read, its first two bytes are the layer word, and the
others are printed if the layer is traced. Without a layer word nothing is. -/
structure TraceMessage.Exact {cmsg : Cmsg} (m : TraceMessage cmsg) : Prop where
  reads : ∀ i, TraceReads m.memory i → m.manuData.InContent i
  layer : traceLayer m.memory = leNat (m.manuData.content.take 2)
  frame : ∀ s, traceInd m.memory s =
    match frameOf (leNat (m.manuData.content.take 2)) with
    | none => s
    | some (send, level2) => printed s send level2 (m.manuData.content.drop 2)
  short : m.manuData.content.length < 2 → ∀ s, traceInd m.memory s = s

/-! ## The line -/

section Line

theorem hexDigit_ofNat : ∀ n, n < 16 → hexDigit (UInt8.ofNat n) = hexDigits.getD n 0 := by decide

/-- The digits that are printed for a byte. -/
theorem hexByte_eq (byte : UInt8) : [32, hexDigit (byte >>> 4 &&& 0xf), hexDigit (byte &&& 0xf)] = hexByte byte := by
  have small := byte.toNat_lt
  have high : byte >>> 4 &&& 0xf = UInt8.ofNat (byte.toNat / 16) := by
    apply UInt8.toNat_inj.mp
    have nibble := Nat.and_two_pow_sub_one_eq_mod (byte.toNat >>> 4) 4
    rw [Nat.shiftRight_eq_div_pow] at nibble
    rw [UInt8.toNat_and, UInt8.toNat_shiftRight, UInt8.toNat_ofNat', Nat.shiftRight_eq_div_pow]
    show byte.toNat / 2 ^ 4 &&& 2 ^ 4 - 1 = _
    omega
  have low : byte &&& 0xf = UInt8.ofNat (byte.toNat % 16) := by
    apply UInt8.toNat_inj.mp
    have nibble := Nat.and_two_pow_sub_one_eq_mod byte.toNat 4
    rw [UInt8.toNat_and, UInt8.toNat_ofNat']
    show byte.toNat &&& 2 ^ 4 - 1 = _
    omega
  rw [high, low, hexDigit_ofNat _ (by omega), hexDigit_ofNat _ (by omega)]
  rfl

theorem length_flatMap_hexByte (frame : Bytes) : (frame.flatMap hexByte).length = frame.length * 3 := by
  induction frame with
  | nil => rfl
  | cons byte frame ih =>
    rw [List.flatMap_cons, List.length_append, ih, List.length_cons]
    show 3 + frame.length * 3 = _
    omega

theorem length_traceLine (send level2 : Bool) (frame : Bytes) :
    (traceLine send level2 frame).length = frame.length * 3 + 5 := by
  unfold traceLine
  rw [List.length_append, List.length_append, length_flatMap_hexByte]
  simp only [List.length_cons, List.length_nil]
  omega

/-- The loop over the bytes of a frame. -/
theorem foldl_range_getD {σ : Type} (f : σ → UInt8 → σ) (data : Bytes) (s : σ) :
    (List.range data.length).foldl (fun s i => f s (data.getD i 0)) s = data.foldl f s := by
  have all : (List.range data.length).map (fun i => data.getD i 0) = data := by
    apply List.ext_getElem
    · rw [List.length_map, List.length_range]
    · intro i first second
      rw [List.getElem_map, List.getElem_range]
      exact List.getD_eq_getElem _ _ second
  rw [← List.foldl_map (f := fun i => data.getD i 0), all]

/-- A frame is printed byte by byte. -/
theorem handleDtraceData_eq (s : Card) (send level2 : Bool) (data : Bytes) :
    handleDtraceData s send level2 data data.length = printed s send level2 data := by
  unfold handleDtraceData printed
  rcases eq_or_ne data [] with rfl | filled
  · rfl
  have some : data.length ≠ 0 := fun none => filled (List.length_eq_zero_iff.mp none)
  have loop : ∀ s : Card, (List.range data.length).foldl (fun s i =>
      let byte := data.getD i 0
      [32, hexDigit (byte >>> 4 &&& 0xf), hexDigit (byte &&& 0xf)].foldl putbyteToStatus s) s =
        (data.flatMap hexByte).foldl putbyteToStatus s := by
    intro s
    rw [List.foldl_flatMap]
    simp only [hexByte_eq]
    exact foldl_range_getD (fun s byte => (hexByte byte).foldl putbyteToStatus s) data s
  rw [if_neg some, if_neg filled]
  dsimp only at loop ⊢
  rw [loop, length_traceLine]
  unfold traceLine
  rw [List.foldl_append, List.foldl_append]
  rfl

end Line

/-! ## The handler -/

section Handler

variable {cmsg : Cmsg}

/-- Only the bytes that are counted are looked at. -/
theorem handleDtraceData_map (s : Card) (send level2 : Bool) {mem : Nat → UInt8} {data : Bytes} {off : Nat} (len : Nat)
    (same : ∀ i, data.getD i 0 = mem (off + i)) :
    handleDtraceData s send level2 data len = handleDtraceData s send level2 ((List.range' off len).map mem) len := by
  have loop : ∀ i ∈ List.range len, data.getD i 0 = ((List.range' off len).map mem).getD i 0 := by
    intro i member
    have inside : i < ((List.range' off len).map mem).length := by
      rw [List.length_map, List.length_range']
      exact List.mem_range.mp member
    rw [same, List.getD_eq_getElem _ _ inside, List.getElem_map, List.getElem_range', Nat.one_mul]
  unfold handleDtraceData
  split
  · rfl
  dsimp only
  congr 2
  apply List.foldl_ext
  intro s i member
  rw [loop i member]

/-- The branches on the layer word. -/
theorem match_frameOf (layer : Nat) (handle : Bool → Bool → Card) (s : Card) :
    (let direction : Bool := if layer &&& 0x300 ≠ 0 then layer &&& 0x200 = 0 else layer &&& 0x800 = 0
      if layer &&& 0x0C00 ≠ 0 then if layer &&& 0xff = 0x80 then handle direction true else s
      else if layer &&& 0xff < 0x80 then handle direction false
      else s) =
    match frameOf layer with
    | none => s
    | some (send, level2) => handle send level2 := by
  unfold frameOf
  dsimp only
  by_cases second : layer &&& 0x0C00 ≠ 0
  · rw [if_pos second, if_pos second]
    by_cases known : layer &&& 0xff = 0x80
    · rw [if_pos known, if_pos known]
    · rw [if_neg known, if_neg known]
  · rw [if_neg second, if_neg second]
    by_cases known : layer &&& 0xff < 0x80
    · rw [if_pos known, if_pos known]
    · rw [if_neg known, if_neg known]

/-- The handler looks at nothing else, where the memory behind the message is zero. -/
theorem handleController_trace (m : TraceMessage cmsg) (zero : m.beyond = fun _ => 0) (s : Card) :
    handleController s cmsg = traceInd m.memory s := by
  have mem : m.memory = fun i => (m.manuData.bytes ++ m.rest).getD i 0 := by
    unfold TraceMessage.memory Struct.memory Memory.image
    rw [zero]
  have other : cmd cmsg ≠ CAPI_LISTEN_CONF := by
    rw [m.message]
    decide
  have behind : ∀ off i, ((m.manuData.bytes ++ m.rest).drop off).getD i 0 = (m.manuData.bytes ++ m.rest).getD (off + i) 0 := by
    intro off i
    rw [List.getD_eq_getElem?_getD, List.getElem?_drop, ← List.getD_eq_getElem?_getD]
  unfold handleController
  rw [if_neg other, if_pos m.message]
  unfold manufacturerInd traceInd traceLayer traceFrame
  rw [if_pos ⟨m.manuID, m.msgClass, m.function⟩, m.field, Option.getD_some, mem]
  generalize m.manuData.bytes ++ m.rest = bs at behind
  have header : (if (bs.getD 0 0).toNat = 255 then (5, (bs.getD 1 0).toNat + (bs.getD 2 0).toNat * 256)
    else (3, (bs.getD 0 0).toNat)) = traceHeader fun i => bs.getD i 0 := rfl
  dsimp only
  rw [header]
  generalize (traceHeader fun i => bs.getD i 0) = header
  obtain ⟨off, len⟩ := header
  dsimp only
  generalize (len + 65536 - 2) % 65536 = len
  generalize (bs.getD (off - 1) 0).toNat * 256 + (bs.getD (off - 2) 0).toNat = layer
  have data : ∀ send level2, handleDtraceData s send level2 (bs.drop off) len =
      handleDtraceData s send level2 ((List.range' off len).map fun i => bs.getD i 0) len :=
    fun send level2 => handleDtraceData_map s send level2 len (behind off)
  simp only [data]
  exact match_frameOf layer
    (fun send level2 => handleDtraceData s send level2 ((List.range' off len).map fun i => bs.getD i 0) len) s

variable (m : TraceMessage cmsg)

/-- The frame is looked for behind the first two bytes of the content. Its length is a `u16`. -/
theorem traceFrame_eq : traceFrame m.memory =
    (m.manuData.form.width + 2, (m.manuData.content.length + 65536 - 2) % 65536) := by
  have first : (m.memory 0).toNat = if m.manuData.form = .short then m.manuData.content.length else 255 :=
    m.manuData.memory_zero m.rest m.beyond
  have fits := m.manuData.fits
  unfold traceFrame traceHeader
  cases form : m.manuData.form with
  | short =>
    rw [form] at first fits
    have small : m.manuData.content.length < 255 := fits
    rw [if_pos rfl] at first
    rw [first, if_neg (by omega)]
    rfl
  | escaped =>
    rw [form] at first
    have count := m.manuData.memory_word m.rest m.beyond form
    have long : (m.memory 0).toNat = 255 := first.trans (if_neg (by decide))
    rw [if_pos long]
    show (5, ((m.memory 1).toNat + (m.memory 2).toNat * 256 + 65536 - 2) % 65536) = _
    have word : (m.memory 1).toNat + (m.memory 2).toNat * 256 = m.manuData.content.length := count
    rw [word]
    rfl

theorem traceLayer_eq (enough : 2 ≤ m.manuData.content.length) :
    traceLayer m.memory = leNat (m.manuData.content.take 2) := by
  have low : m.memory (m.manuData.form.width + 0) = m.manuData.content.getD 0 0 :=
    m.manuData.memory_content m.rest m.beyond (by omega)
  have high : m.memory (m.manuData.form.width + 1) = m.manuData.content.getD 1 0 :=
    m.manuData.memory_content m.rest m.beyond (by omega)
  unfold traceLayer
  rw [traceFrame_eq]
  show (m.memory (m.manuData.form.width + 1)).toNat * 256 + (m.memory (m.manuData.form.width + 0)).toNat = _
  rw [low, high]
  match content : m.manuData.content, enough with
  | b₀ :: b₁ :: frame, _ =>
    show b₁.toNat * 256 + b₀.toNat = b₀.toNat + 256 * (b₁.toNat + 256 * 0)
    omega

end Handler

/-- Every message of the kind with a well-formed struct has a frame, whatever lies behind it. -/
theorem exists_traceMessage {cmsg : Cmsg} {manuData : Bytes} (message : cmd cmsg = CAPI_MANUFACTURER_IND)
    (manuID : cmsg.dword .manuID = 0x214D5641) (msgClass : cmsg.dword .msgClass = 0)
    (function : cmsg.dword .function = 1) (field : cmsg.cstruct .manuData = some manuData)
    (formed : WellFormed (some manuData)) (beyond : Nat → UInt8) : ∃ m : TraceMessage cmsg, m.beyond = beyond := by
  obtain ⟨x, rest, rfl⟩ := Struct.of_wellFormed formed
  exact ⟨⟨x, rest, beyond, message, manuID, msgClass, function, field⟩, rfl⟩

/-- The trace is exactly the content of the message if and only if the content has a layer word. -/
theorem trace_exact_iff {cmsg : Cmsg} (m : TraceMessage cmsg) : m.Exact ↔ 2 ≤ m.manuData.content.length := by
  have frame := traceFrame_eq m
  constructor
  · intro trace
    have high : m.manuData.form.width + 1 = (traceFrame m.memory).1 - 1 := by
      rw [frame]
      rfl
    have most := (trace.reads _ (.inl high)).2
    omega
  · intro enough
    have layer := traceLayer_eq m enough
    have count : (m.manuData.content.length + 65536 - 2) % 65536 = m.manuData.content.length - 2 := by
      have fits := m.manuData.fits
      have limit : m.manuData.form.limit ≤ 65536 := by cases m.manuData.form <;> decide
      omega
    rw [count] at frame
    constructor
    · intro i read
      rw [TraceReads, frame] at read
      unfold Struct.InContent
      dsimp only at read
      omega
    · exact layer
    · intro s
      have bytes : (List.range' (m.manuData.form.width + 2) (m.manuData.content.length - 2)).map m.memory =
          m.manuData.content.drop 2 := by
        have inside : 2 + (m.manuData.content.length - 2) ≤ m.manuData.content.length := by omega
        have mapped := m.manuData.map_memory m.rest m.beyond inside
        rw [List.take_of_length_le (by rw [List.length_drop])] at mapped
        exact mapped
      have length : m.manuData.content.length - 2 = (m.manuData.content.drop 2).length := by rw [List.length_drop]
      unfold traceInd
      rw [layer, frame]
      dsimp only
      rw [bytes, length]
      simp only [handleDtraceData_eq]
    · intro short
      omega

/-- A MANUFACTURER_IND of an AVM controller without content. -/
def emptyTrace : Bytes :=
  controllerMsg CAPI_MANUFACTURER_IND 0 [1, 0, 0, 0] [0x41, 0x56, 0x4D, 0x21, 0, 0, 0, 0, 1, 0, 0, 0, 0]

/-- Its layer word is read behind the message. -/
theorem emptyTrace_overread : ∃ cmsg, capiMessage2cmsg emptyTrace = some cmsg ∧
    ∃ m : TraceMessage cmsg, m.manuData.content = [] ∧ ¬ m.Exact := by
  obtain ⟨cmsg, decoded⟩ : ∃ cmsg, capiMessage2cmsg emptyTrace = some cmsg := ⟨_, rfl⟩
  have message : (capiMessage2cmsg emptyTrace).map cmd = some CAPI_MANUFACTURER_IND := rfl
  have manuID : (capiMessage2cmsg emptyTrace).map (fun c => c.dword .manuID) = some 0x214D5641 := rfl
  have msgClass : (capiMessage2cmsg emptyTrace).map (fun c => c.dword .msgClass) = some 0 := rfl
  have function : (capiMessage2cmsg emptyTrace).map (fun c => c.dword .function) = some 1 := rfl
  have manuData : (capiMessage2cmsg emptyTrace).bind (fun c => c.cstruct .manuData) = some [0] := rfl
  rw [decoded] at message manuID msgClass function manuData
  let m : TraceMessage cmsg :=
    { manuData := ⟨.short, [], by decide⟩
      rest := []
      beyond := fun _ => 0
      message := Option.some.inj message
      manuID := Option.some.inj manuID
      msgClass := Option.some.inj msgClass
      function := Option.some.inj function
      field := manuData }
  refine ⟨cmsg, decoded, m, rfl, fun trace => ?_⟩
  have read : TraceReads m.memory 2 := .inl rfl
  obtain ⟨-, most⟩ := trace.reads 2 read
  exact absurd most (by decide : ¬ 2 < 1 + 0)

end Capi4Linux.Capidrv
