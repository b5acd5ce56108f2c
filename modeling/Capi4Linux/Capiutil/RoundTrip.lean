import Capi4Linux.Capiutil.Decode

/-!
# The codec round trip

Decoding what `capi_cmsg2message` wrote gives the message parameters back and
consumes the bytes the length word counts, exactly when no composite has 255
bytes or more of members.
-/

namespace Capi4Linux.Capiutil
open Bytes

/-! ## The encoded message -/

theorem image_length_le (cmsg : Cmsg) (items : List Item) :
    (image cmsg items).length ≤ (items.flatMap (Item.encode cmsg)).length := by
  induction items with
  | nil => exact Nat.le_refl _
  | cons i items ih =>
    have head := i.length_written_le cmsg
    simp only [image, List.flatMap_cons, List.length_append] at ih ⊢
    omega

/-- The eight bytes in front of the parameters. -/
def header (cmsg : Cmsg) (len : Nat) : Bytes :=
  le 2 len ++ (le 2 cmsg.applId.toNat ++ (cmsg.command :: cmsg.subcommand :: le 2 cmsg.messagenumber.toNat))

@[simp] theorem length_header (cmsg : Cmsg) (len : Nat) : (header cmsg len).length = 8 := by
  simp [header]

/-- The encoder writes the header and the image of the parameters, and with short composites nothing else. -/
theorem capiCmsg2message_eq {cmsg : Cmsg} {msg : Bytes} {par : List Nat}
    (template : cpars (command2Index cmsg.command cmsg.subcommand) = some par)
    (readable : ∀ i ∈ layout par, i.Readable cmsg) (room : encodedLength cmsg (layout par) ≤ msg.length) :
    ∃ out r, capiCmsg2message cmsg msg = some out ∧
      out.m = header cmsg (8 + (image cmsg (layout par)).length) ++ (image cmsg (layout par) ++ r) ∧
      ((∀ i ∈ layout par, i.Short cmsg) → r = msg.drop (8 + (image cmsg (layout par)).length)) := by
  have laid := cpars_laid template
  unfold encodedLength at room
  obtain ⟨a, t, rfl, eight⟩ : ∃ a t, msg = a ++ t ∧ a.length = 8 :=
    ⟨msg.take 8, msg.drop 8, (List.take_append_drop 8 msg).symm, by simp; omega⟩
  have start : ({ cmsg with m := a ++ t, l := 8, p := 0, par } : Cmsg) =
      ({ cmsg with par } : Cmsg).placed 0 a t := by simp [Cmsg.placed, eight]
  have read : ∀ i ∈ layout par, i.Readable { cmsg with par } := by
    intro i member
    have there := readable i member
    cases i with
    | par d => exact there
    | comp f members => exact fun kind d inner => there kind d inner
  have space : ((layout par).flatMap (Item.encode cmsg)).length ≤ t.length := by
    simp only [List.length_append] at room
    omega
  obtain ⟨p, r, run, untouched⟩ := @pars2Message_items { cmsg with par } [] (layout par) 0 a t par.length laid.proper read
    (laid.reads rfl rfl) space (by rw [laid.length]; omega)
  change _ = some (({ cmsg with par } : Cmsg).placed p (a ++ image cmsg (layout par)) r) at run
  have count : (a ++ image cmsg (layout par)).length = 8 + (image cmsg (layout par)).length := by
    rw [List.length_append, eight]
  refine ⟨{ ({ cmsg with par } : Cmsg).placed p (a ++ image cmsg (layout par)) r with
    m := header cmsg (8 + (image cmsg (layout par)).length) ++ (image cmsg (layout par) ++ r) }, r, ?_, rfl, ?_⟩
  rotate_left
  · intro short
    have behind : (a ++ t).drop (8 + (image cmsg (layout par)).length) = t.drop (image cmsg (layout par)).length := by
      rw [← eight, ← List.drop_drop, List.drop_left]
    rw [behind]
    exact untouched short
  simp only [capiCmsg2message, template, start, run, Option.bind_eq_bind, Option.bind_some]
  generalize image cmsg (layout par) = bs at count
  rw [← count]
  obtain ⟨a₀, a₁, a₂, a₃, a₄, a₅, a₆, a₇, rfl⟩ : ∃ a₀ a₁ a₂ a₃ a₄ a₅ a₆ a₇, [a₀, a₁, a₂, a₃, a₄, a₅, a₆, a₇] = a := by
    simpa [List.length_eq_succ_iff] using eight
  simp [Cmsg.placed, poke, header, le]

/-! ## Decoding it -/

/-- `cmsg'` is what a message of `cmsg` should decode to. -/
structure Recovered (cmsg cmsg' : Cmsg) (items : List Item) : Prop where
  applId : cmsg'.applId = cmsg.applId
  command : cmsg'.command = cmsg.command
  subcommand : cmsg'.subcommand = cmsg.subcommand
  messagenumber : cmsg'.messagenumber = cmsg.messagenumber
  values : ∀ d ∈ items.flatMap (Item.shown cmsg), SameValue cmsg' cmsg d

/-- The message written into `msg` decodes to what was encoded, and its length word counts the
bytes the decoder consumes. -/
def RoundTrip (cmsg : Cmsg) (msg : Bytes) (items : List Item) : Prop :=
  ∃ out walk cmsg', capiCmsg2message cmsg msg = some out ∧ decodePars out.m = some walk ∧
    capiMessage2cmsg out.m = some cmsg' ∧ Recovered cmsg cmsg' items ∧ leNat (out.m.take 2) = walk.l

section Decoding

variable {cmsg : Cmsg} {len : Nat} {bs : Bytes} {par : List Nat}

/-- Where the walk of the decoder starts. -/
def decodeStart (cmsg : Cmsg) (len : Nat) (bs : Bytes) (par : List Nat) : Cmsg :=
  { Cmsg.zero (header cmsg len ++ bs) with command := cmsg.command, subcommand := cmsg.subcommand, l := 8, par }

theorem decodePars_header (template : cpars (command2Index cmsg.command cmsg.subcommand) = some par) :
    decodePars (header cmsg len ++ bs) = message2Pars par.length (decodeStart cmsg len bs par) := by
  simp [decodePars, header, le, decodeStart, template]

theorem take_header : leNat ((header cmsg len ++ bs).take 2) = len % 65536 := by
  have word : (header cmsg len ++ bs).take 2 = le 2 len := by simp [header, le]
  simp [word, leNat_le]

/-- The header words are read back. -/
theorem capiMessage2cmsg_header {walk : Cmsg} (decoded : decodePars (header cmsg len ++ bs) = some walk) :
    capiMessage2cmsg (header cmsg len ++ bs) = some { walk with
      l := walk.l / 65536 * 65536 + len % 65536
      applId := cmsg.applId
      messagenumber := cmsg.messagenumber } := by
  have first : peek (header cmsg len ++ bs) 0 2 = some (le 2 len) := by simp [peek, header, le]
  have second : peek (header cmsg len ++ bs) 2 2 = some (le 2 cmsg.applId.toNat) := by simp [peek, header, le]
  have third : peek (header cmsg len ++ bs) 6 2 = some (le 2 cmsg.messagenumber.toNat) := by
    simp [peek, header, le]
  have appl : leNat (le 2 cmsg.applId.toNat) = cmsg.applId.toNat := leNat_le_of_lt cmsg.applId.toNat_lt
  have number : leNat (le 2 cmsg.messagenumber.toNat) = cmsg.messagenumber.toNat :=
    leNat_le_of_lt cmsg.messagenumber.toNat_lt
  simp only [capiMessage2cmsg, decoded, first, second, third, appl, number, leNat_le, Nat.reducePow,
    UInt16.ofNat_toNat, Option.bind_eq_bind, Option.bind_some]

/-- The format of a message is decoded to the values it was made of, and to nothing besides. -/
theorem decodePars_encoded {r : Bytes} (template : cpars (command2Index cmsg.command cmsg.subcommand) = some par)
    (sound : cmsg.Sound) :
    ∃ walk, decodePars (header cmsg len ++ ((layout par).flatMap (Item.encode cmsg) ++ r)) = some walk ∧
      Carried cmsg (decodeStart cmsg len ((layout par).flatMap (Item.encode cmsg) ++ r) par) walk
        ((layout par).flatMap (Item.shown cmsg)) ∧
      walk.l = 8 + ((layout par).flatMap (Item.encode cmsg)).length := by
  have laid := cpars_laid template
  generalize bytes : (layout par).flatMap (Item.encode cmsg) = bs
  obtain ⟨walk, fuel, turn, run, carried, follow, done⟩ := @message2Pars_items cmsg sound [Cdef.cend] 1 (layout par)
    (decodeStart cmsg len (bs ++ r) par) (header cmsg len) r par.length laid.proper
    (laid.reads rfl rfl) ⟨by simp [decodeStart], by rw [bytes]; rfl⟩ (by rw [laid.length])
  obtain ⟨fuel, rfl⟩ : ∃ k, fuel = k + 1 := ⟨fuel - 1, by omega⟩
  have stop : message2Pars (fuel + 1) walk = some walk := by simp [message2Pars, follow.cons.1]
  refine ⟨walk, ?_, carried, ?_⟩
  · rw [decodePars_header template, run, stop]
  · rw [done.cursor, bytes, List.length_append, length_header]

end Decoding

section Settled

variable {cmsg : Cmsg} {msg : Bytes} {par : List Nat}
  (template : cpars (command2Index cmsg.command cmsg.subcommand) = some par) (sound : cmsg.Sound)
  (fits : encodedLength cmsg (layout par) < 65536) (room : encodedLength cmsg (layout par) ≤ msg.length)
include template sound fits room

/-- With short composites the encoder writes the format, which the decoder inverts. -/
theorem roundTrip_of_short (short : ∀ i ∈ layout par, i.Short cmsg) : RoundTrip cmsg msg (layout par) := by
  obtain ⟨out, r, encoded, message, -⟩ := capiCmsg2message_eq template (fun i _ => sound.item i) room
  rw [image_of_short short] at message
  unfold encodedLength at fits
  obtain ⟨walk, parsed, carried, consumed⟩ := @decodePars_encoded cmsg
    (8 + ((layout par).flatMap (Item.encode cmsg)).length) par r template sound
  have decoded : decodePars out.m = some walk := by rw [message, parsed]
  refine ⟨out, walk, _, encoded, decoded, by rw [message]; exact capiMessage2cmsg_header parsed, ?_, ?_⟩
  · refine ⟨rfl, carried.command, carried.subcommand, rfl, fun d shown => ?_⟩
    exact (carried.values d (.inr shown))
  · rw [message, take_header, consumed, Nat.mod_eq_of_lt fits]

/-- Behind a long composite the decoder is at least two bytes ahead of the length word. -/
theorem short_of_roundTrip (trip : RoundTrip cmsg msg (layout par)) : ∀ i ∈ layout par, i.Short cmsg := by
  classical
  by_contra some_long
  have laid := cpars_laid template
  obtain ⟨long, found⟩ : ∃ i, (layout par).find? (fun i => ¬ i.Short cmsg) = some i := by
    apply Option.isSome_iff_exists.mp
    simpa using some_long
  obtain ⟨not_short, before, after, split, first⟩ := List.find?_eq_some_iff_append.mp found
  have before_short : ∀ i ∈ before, i.Short cmsg := by simpa using first
  obtain ⟨out, r, encoded, message, -⟩ := capiCmsg2message_eq template (fun i _ => sound.item i) room
  obtain ⟨out', walk, cmsg', encoded', decoded, parsed, recovered, length⟩ := trip
  obtain rfl := Option.some.inj (encoded.symm.trans encoded')
  obtain ⟨f, members, rfl, kind, large⟩ : ∃ f members, long = .comp f members ∧ cmsg.cmstruct f = .compose ∧
      255 ≤ (cmsg.content members).length := by
    cases long with
    | par d => simp [Item.Short] at not_short
    | comp f members => simpa [Item.Short] using not_short
  have small := image_length_le cmsg (layout par)
  rw [message, take_header] at length
  rw [message, decodePars_header template] at decoded
  have same : ∀ d ∈ (layout par).flatMap (Item.shown cmsg), SameValue walk cmsg d := by
    rw [message, capiMessage2cmsg_header ((decodePars_header template).trans decoded)] at parsed
    obtain rfl := Option.some.inj parsed
    exact fun d mem => recovered.values d mem
  have proper := laid.proper
  have distinct := laid.distinct
  have count : (image cmsg (layout par)).length = (before.flatMap (Item.encode cmsg)).length +
      ((Item.comp f members).written cmsg).length + (image cmsg after).length := by
    rw [← image_of_short before_short, split]
    simp [image, Nat.add_assoc]
  -- up to the first long composite the message is as the format has it
  obtain ⟨c, fuel, -, run, -, follow, here⟩ := @message2Pars_items cmsg sound
    ((Item.comp f members).defs ++ (after.flatMap Item.defs ++ [Cdef.cend])) 0 before
    (decodeStart cmsg (8 + (image cmsg (layout par)).length) (image cmsg (layout par) ++ r) par)
    (header cmsg (8 + (image cmsg (layout par)).length))
    ((Item.comp f members).written cmsg ++ (image cmsg after ++ r)) par.length
    (fun i mem => proper i (by rw [split]; exact List.mem_append_left _ mem))
    (by simpa [split] using @Laid.reads par (layout par) laid (decodeStart cmsg _ _ par) rfl rfl)
    ⟨by simp [decodeStart], by
      rw [← image_of_short before_short]
      simp only [decodeStart, Cmsg.zero]
      rw [split]
      simp [image]⟩
    (by
      rw [laid.length, split]
      simp only [List.flatMap_append, List.length_append]
      omega)
  rw [run] at decoded
  have byte : c.m[c.l]? = some 255 := by
    rw [here.message, here.cursor]
    simp [Item.written, kind, lengthPrefix, Nat.not_lt.mpr large, Nat.add_comm 1]
  rw [split] at proper distinct same
  simp only [List.flatMap_append, List.flatMap_cons] at distinct same
  have distinct := (List.pairwise_append.mp distinct).2.1
  have own := (List.pairwise_append.mp distinct).1
  obtain ⟨fuel', c', run', follow', -, took⟩ := message2Pars_comp_least
    (proper _ (List.mem_append_right _ List.mem_cons_self)) follow
    (Distinct.members own (proper _ (List.mem_append_right _ List.mem_cons_self))) decoded
  obtain ⟨least, frame⟩ := message2Pars_items_least after c' walk fuel'
    (fun i mem => proper i (by simp [mem])) follow' (List.pairwise_append.mp distinct).2.1 run'
  have comp_kept : (Item.comp f members).written c' = (Item.comp f members).written cmsg := by
    have before : (Item.comp f members).written walk = (Item.comp f members).written c' :=
      Item.written_congr fun d mem => by
        rcases Distinct.apart distinct ((Item.comp f members).shown_subset c' mem) with fresh | rfl
        · exact frame d fresh
        · trivial
    rw [← before]
    exact Item.written_congr fun d mem => same d (by simp [mem])
  have after_kept : image walk after = image cmsg after :=
    List.flatMap_congr fun i mem => Item.written_congr fun d shown => same d (by
      simp only [List.mem_append, List.mem_flatMap]
      exact .inr (.inr ⟨i, mem, shown⟩))
  rw [if_pos byte, comp_kept, here.cursor, List.length_append, length_header] at took
  rw [after_kept] at least
  unfold encodedLength at fits
  rw [Nat.mod_eq_of_lt (by omega)] at length
  omega

end Settled

/-- Encoding and decoding gives the message back, with the right length, exactly when every composite
that is made of its members has less than 255 bytes of them. -/
theorem round_trip_iff {cmsg : Cmsg} {msg : Bytes} {par : List Nat}
    (template : cpars (command2Index cmsg.command cmsg.subcommand) = some par)
    (structs : ∀ f, WellFormed (cmsg.cstruct f)) (fits : encodedLength cmsg (layout par) < 65536)
    (room : encodedLength cmsg (layout par) ≤ msg.length) :
    RoundTrip cmsg msg (layout par) ↔
      ∀ f members, .comp f members ∈ layout par → cmsg.cmstruct f = .compose →
        (cmsg.content members).length < 255 := by
  constructor
  · intro trip f members mem
    exact short_of_roundTrip template structs fits room trip (.comp f members) mem
  · intro short
    refine roundTrip_of_short template structs fits room fun i mem => ?_
    cases i with
    | par d => trivial
    | comp f members => exact short f members mem

/-- A SELECT_B_PROTOCOL_REQ with the given B1 configuration. -/
def selectBProtocol (b1 : Option Bytes) : Cmsg :=
  { capiCmsgHeader 1 0x41 0x80 7 0x101 with
    cstruct := Function.update (fun _ => none) .b1configuration b1 }

/-- Its parameter codes. -/
def selectBProtocolPar : List Nat := [0x03, 0x0d, 0x06, 0x08, 0x0a, 0x05, 0x07, 0x09, 0x01, 0x01]

theorem selectBProtocol_template (b1 : Option Bytes) :
    cpars (command2Index (selectBProtocol b1).command (selectBProtocol b1).subcommand) = some selectBProtocolPar := by
  change cpars (command2Index 0x41 0x80) = some selectBProtocolPar
  decide +kernel

theorem selectBProtocol_sound {b1 : Option Bytes} (formed : WellFormed b1) : (selectBProtocol b1).Sound := by
  intro f
  by_cases self : f = .b1configuration
  · subst self
    simpa [selectBProtocol] using formed
  · simp [selectBProtocol, Function.update_of_ne self, WellFormed]

/-- A B1 configuration of 254 bytes makes the composite 263 bytes long. -/
theorem round_trip_long :
    (selectBProtocol (some (254 :: List.replicate 254 0))).Sound ∧
      encodedLength (selectBProtocol (some (254 :: List.replicate 254 0))) (layout selectBProtocolPar) = 278 ∧
      ¬ RoundTrip (selectBProtocol (some (254 :: List.replicate 254 0))) (List.replicate 278 0)
        (layout selectBProtocolPar) := by
  have sound : (selectBProtocol (some (254 :: List.replicate 254 0))).Sound :=
    selectBProtocol_sound ⟨255, rfl, by simp only [List.length_cons, List.length_replicate]; omega⟩
  have size : encodedLength (selectBProtocol (some (254 :: List.replicate 254 0))) (layout selectBProtocolPar) = 278 := by
    decide +kernel
  refine ⟨sound, size, fun trip => ?_⟩
  have short := short_of_roundTrip (selectBProtocol_template _) sound (by omega)
    (by rw [size]; simp only [List.length_replicate]; omega) trip
  have mem : Item.comp .bprotocol [.word .b1protocol, .word .b2protocol, .word .b3protocol, .cstruct .b1configuration,
      .cstruct .b2configuration, .cstruct .b3configuration] ∈ layout selectBProtocolPar := by
    decide +kernel
  have long := short _ mem rfl
  revert long
  decide +kernel

/-- A SELECT_B_PROTOCOL_REQ whose B protocol is made of numbers and two configurations. -/
def selectTransparent : Cmsg :=
  { capiCmsgHeader 1 0x41 0x80 7 0x101 with
    word := fun f => if f = .b1protocol ∨ f = .b2protocol then 1 else 0
    cstruct := fun f => if f = .b1configuration then some [2, 0x40, 0x01] else
      if f = .b3configuration then some [3, 7, 8, 9] else none }

theorem selectTransparent_sound : selectTransparent.Sound := by
  intro f
  simp only [selectTransparent]
  split
  · exact ⟨3, rfl, by decide⟩
  · split
    · exact ⟨4, rfl, by decide⟩
    · trivial

/-- The composite has 14 bytes, and they are given back. -/
theorem round_trip_composed : encodedLength selectTransparent (layout selectBProtocolPar) = 27 ∧
    RoundTrip selectTransparent (List.replicate 32 0) (layout selectBProtocolPar) := by
  have template : cpars (command2Index selectTransparent.command selectTransparent.subcommand) =
      some selectBProtocolPar := selectBProtocol_template none
  have size : encodedLength selectTransparent (layout selectBProtocolPar) = 27 := by decide +kernel
  refine ⟨size, (round_trip_iff template selectTransparent_sound (by omega) (by rw [size]; simp)).mpr
    fun f members mem => ?_⟩
  have short : ∀ i ∈ layout selectBProtocolPar, i.Short selectTransparent := by decide +kernel
  exact short (.comp f members) mem

end Capi4Linux.Capiutil
