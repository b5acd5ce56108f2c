import Capi4Linux.Capiutil.RoundTrip

/-!
# Encoding what was decoded

A message in the format of its template is the message of some `_cmsg`
(`source_of_itemValues`). The decoder finds the values of that `_cmsg`, so the
encoder writes the message again, byte for byte.
-/

namespace Capi4Linux.Capiutil
open Bytes

/-- The bytes are a parameter. A struct has a length byte, or 255 and a length word. -/
inductive Value : Cdef → Bytes → Prop
  | word {f : WordField} (b₀ b₁ : UInt8) : Value (.word f) [b₀, b₁]
  | dword {f : DwordField} (b₀ b₁ b₂ b₃ : UInt8) : Value (.dword f) [b₀, b₁, b₂, b₃]
  | short {f : CstructField} {n : UInt8} {bs : Bytes} (small : n ≠ 0xff) (size : bs.length = n.toNat) :
      Value (.cstruct f) (n :: bs)
  | long {f : CstructField} {lo hi : UInt8} {bs : Bytes} (size : bs.length = leNat [lo, hi]) :
      Value (.cstruct f) (0xff :: lo :: hi :: bs)

inductive Values : List Cdef → Bytes → Prop
  | nil : Values [] []
  | cons {d : Cdef} {ds : List Cdef} {a b : Bytes} (first : Value d a) (others : Values ds b) :
      Values (d :: ds) (a ++ b)

/-- The bytes are an item. A composite is one byte 0, or its members behind their length. -/
inductive ItemValue : Item → Bytes → Prop
  | par {d : Cdef} {a : Bytes} (value : Value d a) : ItemValue (.par d) a
  | default {f : CmstructField} {members : List Cdef} : ItemValue (.comp f members) [0]
  | compose {f : CmstructField} {members : List Cdef} {n : UInt8} {bs : Bytes} (least : 1 ≤ n.toNat)
      (most : n.toNat ≤ 254) (size : bs.length = n.toNat) (values : Values members bs) :
      ItemValue (.comp f members) (n :: bs)

inductive ItemValues : List Item → Bytes → Prop
  | nil : ItemValues [] []
  | cons {i : Item} {items : List Item} {a b : Bytes} (first : ItemValue i a) (others : ItemValues items b) :
      ItemValues (i :: items) (a ++ b)

/-- A message as long as its header says, of a command with a template that its parameters fill. -/
structure Formed (msg : Bytes) : Prop where
  header : 8 ≤ msg.length
  length : leNat (msg.take 2) = msg.length
  parameters : ∃ command subcommand par, msg[4]? = some command ∧ msg[5]? = some subcommand ∧
    cpars (command2Index command subcommand) = some par ∧ ItemValues (layout par) (msg.drop 8)

/-- The header has 16 bits for the length. -/
theorem Formed.small {msg : Bytes} (formed : Formed msg) : msg.length < 65536 := by
  have header := formed.header
  have word := leNat_lt (msg.take 2)
  rw [formed.length, List.length_take, Nat.min_eq_left (by omega)] at word
  exact word

/-! ## Storing a parameter -/

/-- The `_cmsg` with the value that the bytes of a parameter have. -/
def Cmsg.put (c : Cmsg) (a : Bytes) : Cdef → Cmsg
  | .word f => { c with word := Function.update c.word f (UInt16.ofNat (leNat a)) }
  | .dword f => { c with dword := Function.update c.dword f (UInt32.ofNat (leNat a)) }
  | .cstruct f => { c with cstruct := Function.update c.cstruct f (some a) }
  | .cmstruct _ | .cend => c

section Put

variable {c : Cmsg} {d : Cdef} {a : Bytes}

theorem Cmsg.put_others (c : Cmsg) (a : Bytes) {d e : Cdef} (other : e ≠ d) : SameValue (c.put a d) c e := by
  cases d with
  | word f => exact sameValue_setWord c f _ c.l c.p e other
  | dword f => exact sameValue_setDword c f _ c.l c.p e other
  | cstruct f => exact sameValue_setCstruct c f _ c.l c.p e other
  | cmstruct f => exact sameValue_refl c e
  | cend => exact sameValue_refl c e

theorem Value.structSize {f : CstructField} (value : Value (.cstruct f) a) : structSize a = some a.length := by
  cases value with
  | @short _ n bs small size =>
    have sized : Capiutil.structSize (n :: bs) = some (1 + n.toNat) := if_pos small
    rw [sized, ← size, List.length_cons, Nat.add_comm]
  | @long _ lo hi bs size =>
    have sized : Capiutil.structSize (0xff :: lo :: hi :: bs) = some (3 + leNat [lo, hi]) := rfl
    rw [sized, ← size, Nat.add_comm]
    rfl

/-- What is stored is encoded by the bytes it was read from. -/
theorem Value.encoded_put (value : Value d a) : (c.put a d).encoded d = a := by
  have bytes : ∀ {n : Nat}, a.length = n → le n (leNat a % 256 ^ n) = a := by
    rintro n rfl
    rw [Nat.mod_eq_of_lt (leNat_lt a), le_leNat]
  cases d with
  | word f =>
    have size : a.length = 2 := by cases value; rfl
    show le 2 (Function.update c.word f _ f).toNat = a
    rw [Function.update_self, UInt16.toNat_ofNat']
    exact bytes size
  | dword f =>
    have size : a.length = 4 := by cases value; rfl
    show le 4 (Function.update c.dword f _ f).toNat = a
    rw [Function.update_self, UInt32.toNat_ofNat']
    exact bytes size
  | cstruct f =>
    show (structBytes (Function.update c.cstruct f _ f)).getD [] = a
    rw [Function.update_self]
    simp [structBytes, value.structSize, peek]
  | cmstruct f => cases value
  | cend => cases value

theorem Value.sound_put (sound : c.Sound) (value : Value d a) : (c.put a d).Sound := by
  intro g
  cases d with
  | cstruct f =>
    by_cases here : g = f
    · subst here
      show WellFormed (Function.update c.cstruct g _ g)
      rw [Function.update_self]
      exact ⟨a.length, value.structSize, Nat.le_refl _⟩
    · show WellFormed (Function.update c.cstruct f _ g)
      rw [Function.update_of_ne here]
      exact sound g
  | word f => exact sound g
  | dword f => exact sound g
  | cmstruct f => exact sound g
  | cend => exact sound g

end Put

/-! ## The source of a message -/

theorem SameValue.encoded {a b : Cmsg} {d : Cdef} (same : SameValue a b d) : a.encoded d = b.encoded d :=
  congrArg (Option.getD · []) same.bytes

theorem Cmsg.content_congr {a b : Cmsg} {members : List Cdef} (same : ∀ d ∈ members, SameValue a b d) :
    a.content members = b.content members :=
  List.flatMap_congr fun d mem => (same d mem).encoded

/-- `c'` is sound and differs from `c` in the given parameters only. -/
structure Adds (c c' : Cmsg) (ds : List Cdef) : Prop where
  sound : c'.Sound
  others : ∀ e, e ∉ ds → SameValue c' c e
  applId : c'.applId = c.applId
  command : c'.command = c.command
  subcommand : c'.subcommand = c.subcommand
  messagenumber : c'.messagenumber = c.messagenumber

theorem Adds.trans {a b c : Cmsg} {ds es : List Cdef} (first : Adds a b ds) (second : Adds b c es) :
    Adds a c (ds ++ es) where
  sound := second.sound
  others e out := by
    obtain ⟨before, after⟩ := not_or.mp (mt List.mem_append.mpr out)
    exact (second.others e after).trans (first.others e before)
  applId := second.applId.trans first.applId
  command := second.command.trans first.command
  subcommand := second.subcommand.trans first.subcommand
  messagenumber := second.messagenumber.trans first.messagenumber

theorem Value.adds {c : Cmsg} {d : Cdef} {a : Bytes} (sound : c.Sound) (value : Value d a) : Adds c (c.put a d) [d] := by
  refine ⟨value.sound_put sound, fun e out => Cmsg.put_others c a fun eq => out (List.mem_singleton.mpr eq), ?_, ?_, ?_, ?_⟩
  all_goals cases d <;> rfl

/-- The default or composed form of a composite. -/
theorem adds_cmstruct {c : Cmsg} (sound : c.Sound) (f : CmstructField) (k : Cmstruct) :
    Adds c { c with cmstruct := Function.update c.cmstruct f k } [.cmstruct f] :=
  ⟨sound, fun e out => sameValue_setCmstruct c f k c.l c.p e fun eq => out (List.mem_singleton.mpr eq), rfl, rfl, rfl, rfl⟩

theorem source_of_values {members : List Cdef} {bs : Bytes} (values : Values members bs) :
    ∀ c : Cmsg, c.Sound → members.Nodup → ∃ c', Adds c c' members ∧ c'.content members = bs := by
  induction values with
  | nil => exact fun c sound _ => ⟨c, ⟨sound, fun e _ => sameValue_refl c e, rfl, rfl, rfl, rfl⟩, rfl⟩
  | @cons d ds a b first others ih =>
    intro c sound distinct
    obtain ⟨fresh, distinct⟩ := List.nodup_cons.mp distinct
    have here := first.adds sound
    obtain ⟨c', adds, content⟩ := ih (c.put a d) here.sound distinct
    have kept : c'.encoded d = a := by
      rw [(adds.others d fresh).encoded]
      exact first.encoded_put
    refine ⟨c', here.trans adds, ?_⟩
    show c'.encoded d ++ c'.content ds = a ++ b
    rw [kept, content]

/-- The values of an item, and of nothing besides. -/
theorem source_of_itemValue {i : Item} {a : Bytes} (value : ItemValue i a) (proper : i.Proper) (distinct : Distinct i.defs)
    {c : Cmsg} (sound : c.Sound) :
    ∃ c', Adds c c' (i.shown c') ∧ i.encode c' = a ∧ i.Short c' := by
  cases value with
  | @par d _ value => exact ⟨c.put a d, value.adds sound, value.encoded_put, trivial⟩
  | @default f members =>
    have kind : Function.update c.cmstruct f .default f = .default := Function.update_self _ _ _
    refine ⟨{ c with cmstruct := Function.update c.cmstruct f .default }, ?_, ?_, ?_⟩
    · simp only [Item.shown, kind]
      exact adds_cmstruct sound f .default
    · simp only [Item.encode, kind]
    · intro compose
      cases kind.symm.trans compose
  | @compose f members n bs least most size values =>
    obtain ⟨c', adds, content⟩ := source_of_values values _ (adds_cmstruct sound f .compose).sound (distinct.members proper)
    have kind : c'.cmstruct f = .compose := by
      have kept : c'.cmstruct f = Function.update c.cmstruct f .compose f :=
        adds.others (.cmstruct f) fun mem => proper.2 _ mem
      rw [kept, Function.update_self]
    have length : (c'.content members).length < 255 := by
      rw [content, size]
      omega
    refine ⟨c', ?_, ?_, fun _ => length⟩
    · simp only [Item.shown, kind]
      exact (adds_cmstruct sound f .compose).trans adds
    · simp only [Item.encode, kind, lengthPrefix, if_pos length]
      rw [content, size, UInt8.ofNat_toNat]
      rfl

theorem Item.encode_congr {a b : Cmsg} {i : Item} (same : ∀ d ∈ i.shown b, SameValue a b d) :
    i.encode a = i.encode b ∧ i.shown a = i.shown b ∧ (i.Short b → i.Short a) := by
  cases i with
  | par d => exact ⟨(same d (List.mem_singleton.mpr rfl)).encoded, rfl, fun _ => trivial⟩
  | comp f members =>
    have kind : a.cmstruct f = b.cmstruct f := same (.cmstruct f) (by simp only [Item.shown]; split <;> simp)
    cases eq : b.cmstruct f with
    | default =>
      simp only [Item.encode, Item.shown, kind, eq, true_and]
      intro _ compose
      rw [kind, eq] at compose
      cases compose
    | compose =>
      have content : a.content members = b.content members :=
        Cmsg.content_congr fun d mem => same d (by simp [Item.shown, eq, mem])
      simp only [Item.encode, Item.shown, Item.Short, kind, eq, content, true_and]
      exact id

/-- The bytes of items are the encoding of a `_cmsg` that differs from the given one in what they show. -/
theorem source_of_itemValues {items : List Item} {bs : Bytes} (values : ItemValues items bs) :
    ∀ c : Cmsg, c.Sound → (∀ i ∈ items, i.Proper) → Distinct (items.flatMap Item.defs) →
    ∃ c', Adds c c' (items.flatMap (Item.shown c')) ∧ items.flatMap (Item.encode c') = bs ∧ ∀ i ∈ items, i.Short c' := by
  induction values with
  | nil =>
    intro c sound _ _
    refine ⟨c, ⟨sound, fun e _ => sameValue_refl c e, rfl, rfl, rfl, rfl⟩, rfl, fun i mem => ?_⟩
    cases mem
  | @cons i items a b first others ih =>
    intro c sound proper distinct
    rw [List.flatMap_cons] at distinct
    obtain ⟨c₁, here, encode, short⟩ := source_of_itemValue first (proper i List.mem_cons_self)
      (List.pairwise_append.mp distinct).1 sound
    obtain ⟨c', adds, rest, shorts⟩ := ih c₁ here.sound (fun j mem => proper j (List.mem_cons_of_mem _ mem))
      (List.pairwise_append.mp distinct).2.1
    -- later items do not touch what this one shows
    have kept : ∀ d ∈ i.shown c₁, SameValue c' c₁ d := by
      intro d mem
      rcases distinct.apart (i.shown_subset c₁ mem) with fresh | rfl
      · apply adds.others d
        intro again
        obtain ⟨j, member, shown⟩ := List.mem_flatMap.mp again
        exact fresh (List.mem_flatMap.mpr ⟨j, member, j.shown_subset c' shown⟩)
      · trivial
    obtain ⟨same, shown, stays⟩ := Item.encode_congr kept
    refine ⟨c', ?_, ?_, ?_⟩
    · rw [List.flatMap_cons, shown]
      exact here.trans adds
    · rw [List.flatMap_cons, same, encode, rest]
    · intro j mem
      rcases List.mem_cons.mp mem with rfl | later
      · exact stays short
      · exact shorts j later

/-! ## Encoding it again -/

/-- A struct with an encoding can be read. -/
theorem wellFormed_of_structBytes {s : Option Bytes} {bs : Bytes} (written : structBytes s = some bs) : WellFormed s := by
  cases s with
  | none => trivial
  | some s =>
    obtain ⟨size, sized, cut⟩ := Option.bind_eq_some_iff.mp written
    refine ⟨size, sized, ?_⟩
    unfold peek at cut
    split at cut
    · omega
    · cases cut

theorem sound_of_same {a b : Cmsg} (same : ∀ f, SameValue a b (.cstruct f)) (sound : b.Sound) : a.Sound := by
  intro f
  obtain ⟨bs, written, -⟩ := structBytes_of_wellFormed (sound f)
  have kept : structBytes (a.cstruct f) = structBytes (b.cstruct f) := same f
  exact wellFormed_of_structBytes (kept.trans written)

/-- The header of a message as long as its first word says. -/
theorem header_of_formed {msg : Bytes} {src : Cmsg} {command subcommand : UInt8} (size : 8 ≤ msg.length)
    (length : leNat (msg.take 2) = msg.length) (c : msg[4]? = some command) (sc : msg[5]? = some subcommand)
    (applId : src.applId = UInt16.ofNat (leNat ((msg.drop 2).take 2))) (eqCommand : src.command = command)
    (eqSubcommand : src.subcommand = subcommand)
    (messagenumber : src.messagenumber = UInt16.ofNat (leNat ((msg.drop 6).take 2))) :
    msg = header src msg.length ++ msg.drop 8 := by
  match msg, size with
  | b₀ :: b₁ :: b₂ :: b₃ :: b₄ :: b₅ :: b₆ :: b₇ :: bs, _ =>
    have word : ∀ x y : UInt8, le 2 (UInt16.ofNat (leNat [x, y])).toNat = [x, y] := by
      intro x y
      have bound := leNat_lt [x, y]
      simp only [List.length_cons, List.length_nil] at bound
      have small : leNat [x, y] % 2 ^ 16 = leNat [x, y] := by omega
      rw [UInt16.toNat_ofNat', small]
      exact le_leNat [x, y]
    have first : le 2 (b₀ :: b₁ :: b₂ :: b₃ :: b₄ :: b₅ :: b₆ :: b₇ :: bs).length = [b₀, b₁] := by
      rw [← length]
      exact le_leNat [b₀, b₁]
    cases c
    cases sc
    have second : le 2 src.applId.toNat = [b₂, b₃] := applId ▸ word b₂ b₃
    have third : le 2 src.messagenumber.toNat = [b₆, b₇] := messagenumber ▸ word b₆ b₇
    rw [header, first, second, third, eqCommand, eqSubcommand]
    rfl

/-- A message of the format is the encoding of a sound `_cmsg` with short composites and nothing else in it. -/
theorem source_of_formed {msg : Bytes} (formed : Formed msg) :
    ∃ src par, cpars (command2Index src.command src.subcommand) = some par ∧ src.Sound ∧
      (∀ i ∈ layout par, i.Short src) ∧
      (∀ d, d ∉ (layout par).flatMap (Item.shown src) → SameValue (Cmsg.zero msg) src d) ∧
      msg = header src msg.length ++ (layout par).flatMap (Item.encode src) := by
  obtain ⟨command, subcommand, par, c, sc, template, values⟩ := formed.parameters
  have laid := cpars_laid template
  obtain ⟨src, adds, encode, short⟩ := source_of_itemValues values
    { Cmsg.zero msg with
      applId := UInt16.ofNat (leNat ((msg.drop 2).take 2)), command, subcommand
      messagenumber := UInt16.ofNat (leNat ((msg.drop 6).take 2)) }
    (fun f => trivial) laid.proper laid.distinct
  refine ⟨src, par, ?_, adds.sound, short, ?_, ?_⟩
  · rw [adds.command, adds.subcommand]
    exact template
  · intro d out
    have same := adds.others d out
    cases d <;> first | trivial | exact same.symm
  · rw [encode]
    exact header_of_formed formed.header formed.length c sc adds.applId adds.command adds.subcommand adds.messagenumber

/-- The decoder finds the source of a message, and nothing besides, whatever follows it. -/
theorem decoded_source {msg : Bytes} (formed : Formed msg) (tail : Bytes) :
    ∃ src par cmsg, cpars (command2Index src.command src.subcommand) = some par ∧ src.Sound ∧
      (∀ i ∈ layout par, i.Short src) ∧ msg = header src msg.length ++ (layout par).flatMap (Item.encode src) ∧
      capiMessage2cmsg (msg ++ tail) = some cmsg ∧ (∀ d, SameValue cmsg src d) ∧ cmsg.command = src.command ∧
      cmsg.subcommand = src.subcommand ∧ cmsg.applId = src.applId ∧ cmsg.messagenumber = src.messagenumber ∧
      cmsg.l = msg.length := by
  obtain ⟨src, par, template, sound, short, nothing, message⟩ := source_of_formed formed
  obtain ⟨walk, decoded, carried, consumed⟩ := @decodePars_encoded src msg.length par tail template sound
  have parsed := capiMessage2cmsg_header decoded
  rw [← List.append_assoc, ← message] at parsed
  have small := formed.small
  have size : msg.length = walk.l := by
    have counted := congrArg List.length message
    rw [List.length_append, length_header] at counted
    omega
  have length : walk.l / 65536 * 65536 + msg.length % 65536 = msg.length := by omega
  refine ⟨src, par, _, template, sound, short, message, parsed, ?_, carried.command, carried.subcommand, rfl, rfl, length⟩
  intro d
  -- the decoder starts with nothing stored, as the source has it outside the message
  have same : SameValue walk src d := by
    apply carried.values d
    by_cases shown : d ∈ (layout par).flatMap (Item.shown src)
    · exact .inr shown
    · exact .inl (nothing d shown)
  cases d <;> exact same

/-- Every struct of a message of the format can be read. -/
theorem Formed.sound {msg : Bytes} (formed : Formed msg) : ∃ cmsg, capiMessage2cmsg msg = some cmsg ∧ cmsg.Sound := by
  obtain ⟨src, par, cmsg, -, sound, -, -, parsed, same, -⟩ := decoded_source formed []
  rw [List.append_nil] at parsed
  exact ⟨cmsg, parsed, sound_of_same (fun f => same _) sound⟩

/-- Decoding a message of the format and encoding the result writes the message and nothing behind it. -/
theorem reencode {msg : Bytes} (formed : Formed msg) :
    ∃ cmsg, capiMessage2cmsg msg = some cmsg ∧ ∀ buf : Bytes, msg.length ≤ buf.length →
      ∃ out, capiCmsg2message cmsg buf = some out ∧ out.m = msg ++ buf.drop msg.length := by
  obtain ⟨src, par, cmsg, template, sound, short, message, parsed, same, command, subcommand, applId, messagenumber, -⟩ :=
    decoded_source formed []
  rw [List.append_nil] at parsed
  refine ⟨cmsg, parsed, fun buf room => ?_⟩
  have congr : ∀ i : Item, i.encode cmsg = i.encode src ∧ (i.Short src → i.Short cmsg) := fun i =>
    ⟨(Item.encode_congr fun d _ => same d).1, (Item.encode_congr fun d _ => same d).2.2⟩
  have shorts : ∀ i ∈ layout par, i.Short cmsg := fun i mem => (congr i).2 (short i mem)
  have bytes : (layout par).flatMap (Item.encode cmsg) = (layout par).flatMap (Item.encode src) :=
    List.flatMap_congr fun i _ => (congr i).1
  have size : 8 + ((layout par).flatMap (Item.encode src)).length = msg.length := by
    conv_rhs => rw [message]
    rw [List.length_append, length_header]
  have template : cpars (command2Index cmsg.command cmsg.subcommand) = some par := by
    rw [command, subcommand]
    exact template
  have fits : encodedLength cmsg (layout par) ≤ buf.length := by
    unfold encodedLength
    rw [bytes]
    omega
  obtain ⟨out, r, encoded, written, untouched⟩ :=
    capiCmsg2message_eq template (fun i _ => (sound_of_same (fun f => same _) sound).item i) fits
  refine ⟨out, encoded, ?_⟩
  rw [written, untouched shorts, image_of_short shorts, bytes, size, ← List.append_assoc]
  congr 1
  conv_rhs => rw [message]
  rw [header, header, command, subcommand, applId, messagenumber]

/-- An ALERT_REQ with a B channel information in the long form. -/
def alertReq : Bytes := [20, 0, 1, 0, 0x01, 0x80, 3, 0, 1, 1, 0, 0, 7, 0xff, 1, 0, 0x2a, 0, 0, 0]

theorem alertReq_formed : Formed alertReq where
  header := by decide
  length := by decide
  parameters := by
    refine ⟨0x01, 0x80, [0x03, 0x04, 0x0c, 0x27, 0x2f, 0x1c, 0x01, 0x01], rfl, rfl, rfl, ?_⟩
    have empty : ∀ f, Value (.cstruct f) [0] := fun f => .short (by decide) rfl
    have info : Value (.cstruct .bchannelinformation) [0xff, 1, 0, 0x2a] := .long rfl
    have members : Values [.cstruct .bchannelinformation, .cstruct .keypadfacility, .cstruct .useruserdata,
        .cstruct .facilitydataarray] [0xff, 1, 0, 0x2a, 0, 0, 0] :=
      .cons info (.cons (empty _) (.cons (empty _) (.cons (empty _) .nil)))
    have address : Value (.dword .adr) [1, 1, 0, 0] := .dword 1 1 0 0
    show ItemValues [.par (.dword .adr), .comp .additionalInfo _] _
    exact .cons (.par address) (.cons (.compose (by decide) (by decide) rfl members) .nil)

theorem alertReq_reencoded : Formed alertReq ∧
    ∃ cmsg, capiMessage2cmsg alertReq = some cmsg ∧ ∀ buf : Bytes, alertReq.length ≤ buf.length →
      ∃ out, capiCmsg2message cmsg buf = some out ∧ out.m = alertReq ++ buf.drop alertReq.length :=
  ⟨alertReq_formed, reencode alertReq_formed⟩

end Capi4Linux.Capiutil
