import Capi4Linux.Capiutil.Printed
import Capi4Linux.Capiutil.Reencode

/-!
# The size of the text

`capi_message2str` and `capi_cmsg2str` print to `buf`, which has 8192 bytes,
and do not look at its end. The text of a message of the format has a size
that the values of its parameters give, and only structs make it large: an
unprintable byte takes three characters. It does not always fit.
-/

namespace Capi4Linux.Capiutil
open Bytes Sprintf

variable {ctype : Ctype} {mem : Nat → UInt8}

/-- The size of the text of a decoded message, whose length word is `len`. -/
def Cmsg.textSize (ctype : Ctype) (cmsg : Cmsg) (len : Nat) : Nat :=
  44 + max 3 (decimal cmsg.applId.toNat).length + max 4 (decimal len).length +
    cmsg.linesSize ctype ((layout cmsg.par).flatMap (Item.shown cmsg))

/-! ## The header -/

theorem noNul_headerText (mem : Nat → UInt8) : NoNul (headerText mem) := by
  have dec : ∀ width n, NoNul (zeroPad width (decimal n)) := fun width n => noNul_zeroPad width (noNul_digits (by decide) n)
  have hexa : ∀ width n, NoNul (zeroPad width (hex n)) := fun width n => noNul_zeroPad width (noNul_digits (by decide) n)
  unfold headerText
  refine NoNul.append (NoNul.append (NoNul.append (NoNul.append (NoNul.append (NoNul.append ?_ (dec _ _)) ?_) (hexa _ _)) ?_)
    (dec _ _)) ?_
  all_goals decide

theorem length_headerText (mem : Nat → UInt8) : (headerText mem).length =
    18 + max 3 (decimal (load mem 2 2)).length + max 4 (decimal (load mem 0 2)).length := by
  have bound : load mem 6 2 < 16 ^ 4 := by
    have small := leNat_lt ((List.range' 6 2).map mem)
    rw [List.length_map, List.length_range'] at small
    exact small
  have number : (hex (load mem 6 2)).length ≤ 4 := length_digits_le (by decide) (by decide) bound
  have id : (ascii " ID=").length = 4 := by decide
  have sharp : (ascii " #0x").length = 4 := by decide
  have len : (ascii " LEN=").length = 5 := by decide
  have newline : (ascii "\n").length = 1 := by decide
  unfold headerText
  simp only [List.length_append, length_zeroPad]
  omega

/-! ## The text -/

/-- Both texts and the zero behind them fit in `buf`. -/
def TextFits (ctype : Ctype) (stack : Cmsg) (msg : Bytes) (beyond : Nat → UInt8) : Prop :=
  (∃ s, capiMessage2str ctype stack (Memory.image msg beyond) = some s ∧ s.buf.length + 1 ≤ 8192) ∧
    ∃ cmsg s, capiMessage2cmsg msg = some cmsg ∧ capiCmsg2str ctype cmsg (Memory.image msg beyond) = some s ∧
      s.buf.length + 1 ≤ 8192

section Text

variable {msg : Bytes} {cmsg walk : Cmsg} {beyond : Nat → UInt8}

/-- The header of a message in memory. -/
theorem Decoded.header_in_memory (decoded : Decoded msg cmsg walk) (beyond : Nat → UInt8) :
    load (Memory.image msg beyond) 0 2 = leNat (msg.take 2) ∧ load (Memory.image msg beyond) 2 2 = cmsg.applId.toNat ∧
      Memory.image msg beyond 4 = cmsg.command ∧ Memory.image msg beyond 5 = cmsg.subcommand := by
  have same := starts_image msg beyond
  obtain ⟨inside, -⟩ := List.getElem?_eq_some_iff.mp decoded.subcommand
  refine ⟨?_, ?_, same 4 _ decoded.command, same 5 _ decoded.subcommand⟩
  · exact congrArg leNat (Memory.map_image (show 0 + 2 ≤ msg.length by omega) beyond)
  · obtain ⟨bs, read, id⟩ := decoded.applId
    rw [peek_memory same, if_pos (by omega)] at read
    cases read
    have bound := leNat_lt ((List.range' 2 2).map (Memory.image msg beyond))
    rw [List.length_map, List.length_range'] at bound
    have small : leNat ((List.range' 2 2).map (Memory.image msg beyond)) % 2 ^ 16 = _ := Nat.mod_eq_of_lt bound
    rw [id, UInt16.toNat_ofNat', small]
    rfl

/-- The lines of a message that is decoded, behind what is printed before them. -/
theorem Decoded.lines (decoded : Decoded msg cmsg walk) (sound : cmsg.Sound) (ctype : Ctype) (beyond : Nat → UInt8)
    {s : Printer} (codes : s.cmsg.par = cmsg.par) (start : s.cmsg.p = 0) (begins : s.cmsg.l = 8) :
    ∃ s', protocolMessage2Pars ctype (Memory.image msg beyond) cmsg.par.length 1 s = some s' ∧
      s'.buf.length = s.buf.length + cmsg.linesSize ctype ((layout cmsg.par).flatMap (Item.shown cmsg)) := by
  have laid := cpars_laid decoded.template
  obtain ⟨s', run, wrote⟩ := @protocolMessage2Pars_template ctype (Memory.image msg beyond) cmsg.par (layout cmsg.par) laid s
    codes start
  have sound' : walk.Sound := by
    rw [decoded.values] at sound
    exact sound
  have sit := @message2Pars_sits (Memory.image msg beyond)
    { Cmsg.zero msg with command := cmsg.command, subcommand := cmsg.subcommand, l := 8, par := cmsg.par }
    walk cmsg.par.length [] (layout cmsg.par) (starts_image msg beyond) laid.proper (laid.reads rfl rfl) laid.distinct
    decoded.run sound'
  have lines := (wrote walk walk.l sound' (begins ▸ sit)).length
  refine ⟨s', run, ?_⟩
  have same : cmsg.linesSize ctype ((layout cmsg.par).flatMap (Item.shown cmsg)) =
      walk.linesSize ctype ((layout cmsg.par).flatMap (Item.shown walk)) := by
    generalize layout cmsg.par = items
    rw [decoded.values]
    rfl
  rw [same]
  exact lines

/-- What both print; the second does not fill up the name of the message. -/
theorem texts_of_decoded (ctype : Ctype) (stack : Cmsg) (parsed : capiMessage2cmsg msg = some cmsg) (sound : cmsg.Sound)
    (beyond : Nat → UInt8) :
    (∃ s, capiMessage2str ctype stack (Memory.image msg beyond) = some s ∧
        s.buf.length = cmsg.textSize ctype (leNat (msg.take 2))) ∧
      ∃ s, capiCmsg2str ctype cmsg (Memory.image msg beyond) = some s ∧
        s.buf.length ≤ cmsg.textSize ctype (leNat (msg.take 2)) ∧
          cmsg.textSize ctype (leNat (msg.take 2)) ≤ s.buf.length + 26 := by
  obtain ⟨walk, decoded⟩ := decoded_walk parsed
  obtain ⟨len, id, c, sc⟩ := decoded.header_in_memory beyond
  have template := decoded.template
  obtain ⟨name, named, short, clean⟩ := mname_of_cpars template
  have text := noNul_headerText (Memory.image msg beyond)
  have size := length_headerText (Memory.image msg beyond)
  rw [len, id] at size
  unfold Cmsg.textSize
  constructor
  · obtain ⟨s, run, lines⟩ := @Decoded.lines msg cmsg walk decoded sound ctype beyond
      ((⟨{ stack with
          l := 8, p := 0, command := cmsg.command, subcommand := cmsg.subcommand, par := cmsg.par }, [], []⟩ : Printer).print
        (padRight 26 name ++ headerText (Memory.image msg beyond))) rfl rfl rfl
    refine ⟨s, ?_, ?_⟩
    · simp only [capiMessage2str, c, sc, template, named, Option.bind_eq_bind, Option.bind_some]
      exact run
    · rw [Printer.length_print _ ((noNul_padRight 26 clean).append text), List.length_append, length_padRight short,
        size] at lines
      rw [lines]
      show 0 + _ + _ = _
      omega
  · obtain ⟨s, run, lines⟩ := @Decoded.lines msg cmsg walk decoded sound ctype beyond
      ((⟨{ cmsg with l := 8, p := 0 }, [], []⟩ : Printer).print (name ++ headerText (Memory.image msg beyond))) rfl rfl rfl
    rw [Printer.length_print _ (clean.append text), List.length_append, size] at lines
    refine ⟨s, ?_, ?_, ?_⟩
    · simp only [capiCmsg2str, named, Option.bind_eq_bind, Option.bind_some]
      exact run
    · rw [lines]
      show 0 + _ + _ ≤ _
      omega
    · rw [lines]
      show _ ≤ 0 + _ + _ + 26
      omega

end Text

/-- The text of a message that lies in its buffer fits exactly if the values of its parameters are short enough. -/
theorem textFits_iff (ctype : Ctype) (stack : Cmsg) {msg : Bytes} {cmsg : Cmsg} (decoded : capiMessage2cmsg msg = some cmsg)
    (sound : cmsg.Sound) (beyond : Nat → UInt8) :
    TextFits ctype stack msg beyond ↔ cmsg.textSize ctype (leNat (msg.take 2)) < 8192 := by
  obtain ⟨⟨s, printed, length⟩, t, printed', length', -⟩ := texts_of_decoded ctype stack decoded sound beyond
  constructor
  · rintro ⟨⟨s', again, fits⟩, -⟩
    cases printed.symm.trans again
    omega
  · intro fits
    refine ⟨⟨s, printed, ?_⟩, cmsg, t, decoded, printed', ?_⟩
    · omega
    · omega

/-- The letters and digits of ASCII. -/
def asciiCtype : Ctype where
  isalnum b := (48 ≤ b && b ≤ 57) || (65 ≤ b && b ≤ 90) || (97 ≤ b && b ≤ 122)
  nul := rfl

/-- The text of an ALERT_REQ. -/
theorem textFits_alertReq : (capiMessage2cmsg alertReq).map (·.textSize asciiCtype 20) = some 300 ∧
    TextFits asciiCtype (Cmsg.zero []) alertReq fun _ => 0 := by
  have size : (capiMessage2cmsg alertReq).map (·.textSize asciiCtype 20) = some 300 := by decide +kernel
  obtain ⟨cmsg, decoded, sound⟩ := alertReq_formed.sound
  have own : cmsg.textSize asciiCtype 20 = 300 := by
    rw [decoded] at size
    exact Option.some.inj size
  have word : leNat (alertReq.take 2) = 20 := rfl
  refine ⟨size, (textFits_iff asciiCtype (Cmsg.zero []) decoded sound fun _ => 0).mpr ?_⟩
  rw [word, own]
  decide

/-! ## Messages that do not fit -/

/-- An INFO_IND with an element in the long form. -/
def infoInd (content : Bytes) : Bytes :=
  le 2 (17 + content.length) ++
    ([1, 0, 0x08, 0x82, 3, 0] ++ ([1, 1, 0, 0] ++ ([7, 0x80] ++ (0xff :: (le 2 content.length ++ content)))))

theorem infoInd_formed {content : Bytes} (fits : 17 + content.length < 65536) : Formed (infoInd content) where
  header := Nat.le_trans (by decide : 8 ≤ 17) (Nat.le_add_left 17 content.length)
  length := by
    have length : (infoInd content).length = 17 + content.length := Nat.add_comm content.length 17
    have word : leNat (le 2 (17 + content.length)) = 17 + content.length := leNat_le_of_lt fits
    rw [length]
    exact word
  parameters := by
    refine ⟨0x08, 0x82, [0x03, 0x26, 0x24, 0x01], rfl, rfl, rfl, ?_⟩
    have small : content.length < 65536 := by omega
    have word : leNat (le 2 content.length) = content.length := leNat_le_of_lt small
    have address : Value (.dword .adr) [1, 1, 0, 0] := .dword 1 1 0 0
    have number : Value (.word .infoNumber) [7, 0x80] := .word 7 0x80
    have element : Value (.cstruct .infoElement) (0xff :: (le 2 content.length ++ content)) := .long word.symm
    have nothing := ItemValues.cons (.par element) .nil
    rw [List.append_nil] at nothing
    have whole := ItemValues.cons (.par address) (.cons (.par number) nothing)
    exact whole

/-- The element is in the text of an INFO_IND. -/
theorem textSize_infoInd {content : Bytes} {cmsg : Cmsg} (fits : 17 + content.length < 65536)
    (parsed : capiMessage2cmsg (infoInd content) = some cmsg) (len : Nat) :
    88 + ctype.contentSize content ≤ cmsg.textSize ctype len := by
  obtain ⟨walk, decoded⟩ := decoded_walk parsed
  have codes : cmsg.par = [0x03, 0x26, 0x24, 0x01] := by
    have template := decoded.template
    rw [← Option.some.inj decoded.command, ← Option.some.inj decoded.subcommand] at template
    exact (Option.some.inj template).symm
  have element : cmsg.encoded (.cstruct .infoElement) = 0xff :: (le 2 content.length ++ content) := by
    obtain ⟨src, par, cmsg', template, -, -, message, parsed', same, -⟩ := decoded_source (infoInd_formed fits) []
    rw [List.append_nil] at parsed'
    cases parsed'.symm.trans parsed
    have c : src.command = 0x08 := (Option.some.inj (congrArg (fun m : Bytes => m[4]?) message)).symm
    have sc : src.subcommand = 0x82 := (Option.some.inj (congrArg (fun m : Bytes => m[5]?) message)).symm
    rw [c, sc] at template
    cases template
    have left : (infoInd content).drop 14 = 0xff :: (le 2 content.length ++ content) := rfl
    have right := List.append_nil (src.encoded (.cstruct .infoElement))
    rw [(same _).encoded, ← right, ← left]
    have behind := congrArg (List.drop 14) message
    exact behind.symm
  have text : ctype.structSize (cmsg.encoded (.cstruct .infoElement)) = ctype.contentSize content := by
    rw [element]
    rfl
  have lines : cmsg.linesSize ctype ((layout [0x03, 0x26, 0x24, 0x01]).flatMap (Item.shown cmsg)) =
      cmsg.lineSize ctype (.dword .adr) + (cmsg.lineSize ctype (.word .infoNumber) +
        (37 + ctype.structSize (cmsg.encoded (.cstruct .infoElement)) + 0)) := rfl
  unfold Cmsg.textSize
  rw [codes, lines, text]
  omega

/-- Both texts of an INFO_IND are longer than the text of its element. -/
theorem texts_of_infoInd (ctype : Ctype) (stack : Cmsg) {content : Bytes} (fits : 17 + content.length < 65536)
    (beyond : Nat → UInt8) :
    (∃ s, capiMessage2str ctype stack (Memory.image (infoInd content) beyond) = some s ∧
        ctype.contentSize content < s.buf.length) ∧
      ∃ cmsg s, capiMessage2cmsg (infoInd content) = some cmsg ∧
        capiCmsg2str ctype cmsg (Memory.image (infoInd content) beyond) = some s ∧
          ctype.contentSize content < s.buf.length := by
  obtain ⟨cmsg, parsed, sound⟩ := (infoInd_formed fits).sound
  obtain ⟨⟨s, printed, length⟩, t, printed', -, length'⟩ := texts_of_decoded ctype stack parsed sound beyond
  have text := @textSize_infoInd ctype content cmsg fits parsed (leNat ((infoInd content).take 2))
  refine ⟨⟨s, printed, ?_⟩, cmsg, t, parsed, printed', ?_⟩
  · omega
  · omega

theorem contentSize_replicate {b : UInt8} (hidden : ¬ ctype.Shown b) (n : Nat) :
    3 * n ≤ ctype.contentSize (List.replicate n b) := by
  have all : (List.replicate n b).countP (¬ ctype.Shown ·) = n := by
    rw [List.countP_replicate, if_pos (by simpa using hidden)]
  unfold Ctype.contentSize
  rw [all]
  omega

/-- An INFO_IND with 3000 zeros, which takes more than 9000 bytes of `buf`. -/
theorem infoInd_overflows :
    Formed (infoInd (List.replicate 3000 0)) ∧ (infoInd (List.replicate 3000 0)).length = 3017 ∧
      (∃ s, capiMessage2str asciiCtype (Cmsg.zero []) (Memory.image (infoInd (List.replicate 3000 0)) fun _ => 0) = some s ∧
        9000 < s.buf.length) ∧
      (∃ cmsg s, capiMessage2cmsg (infoInd (List.replicate 3000 0)) = some cmsg ∧
        capiCmsg2str asciiCtype cmsg (Memory.image (infoInd (List.replicate 3000 0)) fun _ => 0) = some s ∧
          9000 < s.buf.length) ∧
      ¬ TextFits asciiCtype (Cmsg.zero []) (infoInd (List.replicate 3000 0)) fun _ => 0 := by
  have size : (List.replicate 3000 (0 : UInt8)).length = 3000 := List.length_replicate
  have fits : 17 + (List.replicate 3000 (0 : UInt8)).length < 65536 := by
    rw [size]
    decide
  have large := @contentSize_replicate asciiCtype 0 (by decide) 3000
  obtain ⟨⟨s, printed, length⟩, cmsg, t, parsed, printed', length'⟩ :=
    texts_of_infoInd asciiCtype (Cmsg.zero []) fits fun _ => 0
  refine ⟨infoInd_formed fits, ?_, ⟨s, printed, ?_⟩, ⟨cmsg, t, parsed, printed', ?_⟩, ?_⟩
  · show (List.replicate 3000 (0 : UInt8)).length + 17 = 3017
    rw [size]
  · omega
  · omega
  · rintro ⟨⟨s', again, small⟩, -⟩
    cases printed.symm.trans again
    omega

end Capi4Linux.Capiutil
