import Capi4Linux.Capiutil.Decode

/-!
# What the decoder needs

The parameters of a message lie one behind the other, each as long as its type
or its own length bytes say. The decoder stays inside a buffer exactly when
the buffer holds them all; only the content of a last struct may be missing,
since nothing behind it is read.
-/

namespace Capi4Linux.Capiutil
open Bytes

/-- The bytes start with a parameter and go on with the second bytes. The content of a struct may be cut off. -/
inductive Field : Cdef → Bytes → Bytes → Prop
  | word {f : WordField} (b₀ b₁ : UInt8) (r : Bytes) : Field (.word f) (b₀ :: b₁ :: r) r
  | dword {f : DwordField} (b₀ b₁ b₂ b₃ : UInt8) (r : Bytes) : Field (.dword f) (b₀ :: b₁ :: b₂ :: b₃ :: r) r
  | short {f : CstructField} {n : UInt8} (small : n ≠ 0xff) (r : Bytes) : Field (.cstruct f) (n :: r) (r.drop n.toNat)
  | long {f : CstructField} (lo hi : UInt8) (r : Bytes) :
      Field (.cstruct f) (0xff :: lo :: hi :: r) (r.drop (leNat [lo, hi]))

inductive Fields : List Cdef → Bytes → Bytes → Prop
  | nil (r : Bytes) : Fields [] r r
  | cons {d : Cdef} {ds : List Cdef} {a b r : Bytes} (first : Field d a b) (others : Fields ds b r) :
      Fields (d :: ds) a r

/-- The bytes start with an item. A composite is one byte 0, or a length that is not looked at and its members. -/
inductive ItemField : Item → Bytes → Bytes → Prop
  | par {d : Cdef} {a r : Bytes} (field : Field d a r) : ItemField (.par d) a r
  | default {f : CmstructField} {members : List Cdef} (r : Bytes) : ItemField (.comp f members) (0 :: r) r
  | short {f : CmstructField} {members : List Cdef} {n : UInt8} {a r : Bytes} (nonzero : n ≠ 0) (small : n ≠ 255)
      (fields : Fields members a r) : ItemField (.comp f members) (n :: a) r
  | long {f : CmstructField} {members : List Cdef} {a r : Bytes} (fields : Fields members (a.drop 2) r) :
      ItemField (.comp f members) (255 :: a) r

inductive ItemFields : List Item → Bytes → Bytes → Prop
  | nil (r : Bytes) : ItemFields [] r r
  | cons {i : Item} {items : List Item} {a b r : Bytes} (first : ItemField i a b) (others : ItemFields items b r) :
      ItemFields (i :: items) a r

/-- The buffer has a header of a message with a template, and the parameters of the template behind it. -/
def Readable (msg : Bytes) : Prop :=
  8 ≤ msg.length ∧ ∃ command subcommand par r, msg[4]? = some command ∧ msg[5]? = some subcommand ∧
    cpars (command2Index command subcommand) = some par ∧ ItemFields (layout par) (msg.drop 8) r

/-! ## Parameters -/

/-- The bytes that are not read yet. -/
def Cmsg.left (cmsg : Cmsg) : Bytes := cmsg.m.drop cmsg.l

section Parameters

variable {c c' w : Cmsg} {d : Cdef} {b r : Bytes}

/-- Both are at the same parameter code. -/
def Cmsg.SameCode (c c' : Cmsg) : Prop := c'.par = c.par ∧ c'.p = c.p

theorem Cmsg.SameCode.reads {ds : List Cdef} (same : c.SameCode c') (reads : c.Reads ds) : c'.Reads ds := by
  unfold Cmsg.Reads
  rw [same.1, same.2]
  exact reads

theorem Cmsg.SameCode.next (same : c.SameCode c') : c.next.SameCode c'.next := ⟨same.1, congrArg (· + 1) same.2⟩

theorem peek_left {n : Nat} (positive : 0 < n) (c : Cmsg) :
    peek c.m c.l n = if n ≤ c.left.length then some (c.left.take n) else none := by
  have fits : c.l + n ≤ c.m.length ↔ n ≤ c.left.length := by
    unfold Cmsg.left
    rw [List.length_drop]
    omega
  unfold peek
  rw [if_congr fits rfl rfl]
  rfl

theorem left_advance (c : Cmsg) (n : Nat) : c.m.drop (c.l + n) = c.left.drop n := by
  unfold Cmsg.left
  rw [List.drop_drop]

theorem getElem?_left (c : Cmsg) : c.m[c.l]? = c.left.head? := by
  unfold Cmsg.left
  rw [List.head?_drop]

/-- A struct with a size is a parameter. -/
theorem field_of_structSize {f : CstructField} {s : Bytes} {size : Nat} (sized : structSize s = some size) :
    Field (.cstruct f) s (s.drop size) := by
  cases s with
  | nil => cases sized
  | cons n r =>
    rcases eq_or_ne n 0xff with rfl | small
    · match r, sized with
      | lo :: hi :: r, sized =>
        cases sized
        show Field _ _ ((0xff :: lo :: hi :: r).drop (3 + leNat [lo, hi]))
        rw [Nat.add_comm]
        exact .long lo hi r
    · have short : structSize (n :: r) = some (1 + n.toNat) := if_pos small
      cases short.symm.trans sized
      rw [Nat.add_comm]
      exact .short small r

/-- What is read is a parameter. -/
theorem field_of_read (read : c.read d = some c') : Field d c.left c'.left ∧ c.SameCode c' := by
  cases d with
  | word f =>
    obtain ⟨bs, word, rfl⟩ := Option.map_eq_some_iff.mp read
    refine ⟨?_, rfl, rfl⟩
    rw [peek_left (by decide)] at word
    show Field _ c.left (c.m.drop (c.l + 2))
    rw [left_advance]
    match left : c.left, word with
    | b₀ :: b₁ :: r, _ => exact .word b₀ b₁ r
  | dword f =>
    obtain ⟨bs, dword, rfl⟩ := Option.map_eq_some_iff.mp read
    refine ⟨?_, rfl, rfl⟩
    rw [peek_left (by decide)] at dword
    show Field _ c.left (c.m.drop (c.l + 4))
    rw [left_advance]
    match left : c.left, dword with
    | b₀ :: b₁ :: b₂ :: b₃ :: r, _ => exact .dword b₀ b₁ b₂ b₃ r
  | cstruct f =>
    obtain ⟨size, sized, rfl⟩ := Option.map_eq_some_iff.mp read
    refine ⟨?_, rfl, rfl⟩
    have sized : structSize c.left = some size := sized
    show Field _ c.left (c.m.drop (c.l + size))
    rw [left_advance]
    exact field_of_structSize sized
  | cmstruct f => cases read
  | cend => cases read

/-- A parameter that is there is read. -/
theorem read_of_field (field : Field d c.left r) : ∃ c', c.read d = some c' ∧ c'.left = r ∧ c.SameCode c' := by
  generalize here : c.left = a at field
  cases field with
  | word b₀ b₁ r =>
    have word : peek c.m c.l 2 = some [b₀, b₁] := by
      rw [peek_left (by decide), here]
      rfl
    refine ⟨_, congrArg (Option.map _) word, ?_, rfl, rfl⟩
    show c.m.drop (c.l + 2) = r
    rw [left_advance, here]
    rfl
  | dword b₀ b₁ b₂ b₃ r =>
    have dword : peek c.m c.l 4 = some [b₀, b₁, b₂, b₃] := by
      rw [peek_left (by decide), here]
      rfl
    refine ⟨_, congrArg (Option.map _) dword, ?_, rfl, rfl⟩
    show c.m.drop (c.l + 4) = r
    rw [left_advance, here]
    rfl
  | @short f n small r =>
    have sized : structSize c.left = some (1 + n.toNat) := by
      rw [here]
      exact if_pos small
    refine ⟨_, congrArg (Option.map _) sized, ?_, rfl, rfl⟩
    show c.m.drop (c.l + (1 + n.toNat)) = r.drop n.toNat
    rw [left_advance, here, Nat.add_comm]
    rfl
  | @long f lo hi r =>
    have sized : structSize c.left = some (3 + leNat [lo, hi]) := by
      rw [here]
      rfl
    refine ⟨_, congrArg (Option.map _) sized, ?_, rfl, rfl⟩
    show c.m.drop (c.l + (3 + leNat [lo, hi])) = r.drop (leNat [lo, hi])
    rw [left_advance, here, Nat.add_comm]
    rfl

end Parameters

/-! ## Composites and templates -/

section Items

variable {c c' w : Cmsg} {r : Bytes}

/-- Members that are decoded are fields of the buffer. -/
theorem fields_of_members {rest : List Cdef} : ∀ (members : List Cdef) (c w : Cmsg) (fuel : Nat),
    (∀ d ∈ members, d.Plain) → c.Reads (members ++ .cend :: rest) → message2Pars fuel c = some w →
    Fields members c.left w.left ∧ w.Reads (.cend :: rest)
  | [], c, w, 0, _, _, run => by cases run
  | _ :: _, c, w, 0, _, _, run => by cases run
  | [], c, w, fuel + 1, _, reads, run => by
    simp only [message2Pars, reads.cons.1, Option.bind_eq_bind, Option.bind_some, Option.some.injEq] at run
    subst run
    exact ⟨.nil _, reads⟩
  | d :: ds, c, w, fuel + 1, plain, reads, run => by
    obtain ⟨typ, follow⟩ := reads.cons
    rw [message2Pars_plain (plain d List.mem_cons_self) typ] at run
    obtain ⟨c', read, run⟩ := Option.bind_eq_some_iff.mp run
    obtain ⟨field, same⟩ := field_of_read read
    obtain ⟨fields, last⟩ := fields_of_members ds c'.next w fuel
      (fun e mem => plain e (List.mem_cons_of_mem _ mem)) (same.next.reads follow) run
    exact ⟨.cons field fields, last⟩

/-- Fields of the buffer are decoded as members. -/
theorem members_of_fields {rest : List Cdef} : ∀ (members : List Cdef) (c : Cmsg) (r : Bytes) (fuel : Nat),
    (∀ d ∈ members, d.Plain) → c.Reads (members ++ .cend :: rest) → Fields members c.left r → members.length < fuel →
    ∃ w, message2Pars fuel c = some w ∧ w.left = r ∧ w.Reads (.cend :: rest)
  | [], c, r, fuel + 1, _, reads, fields, _ => by
    have stop : message2Pars (fuel + 1) c = some c := by simp [message2Pars, reads.cons.1]
    cases fields
    exact ⟨c, stop, rfl, reads⟩
  | d :: ds, c, r, fuel + 1, plain, reads, fields, enough => by
    obtain ⟨typ, follow⟩ := reads.cons
    cases fields with
    | cons first others =>
      obtain ⟨c', read, left, same⟩ := read_of_field first
      have there : Fields ds c'.next.left r := left ▸ others
      rw [List.length_cons] at enough
      obtain ⟨w, run, done, last⟩ := members_of_fields ds c'.next r fuel
        (fun e mem => plain e (List.mem_cons_of_mem _ mem)) (same.next.reads follow) there (by omega)
      refine ⟨w, ?_, done, last⟩
      rw [message2Pars_plain (plain d List.mem_cons_self) typ, read]
      exact run

/-- The decoder behind a composite that it reads. -/
def Cmsg.enter (c : Cmsg) (f : CmstructField) (n : UInt8) : Cmsg :=
  { c with
    cmstruct := Function.update c.cmstruct f .compose
    l := if n = 255 then c.l + 3 else c.l + 1
    p := c.p + 1 }

theorem enter_left (c : Cmsg) (f : CmstructField) {n : UInt8} {a : Bytes} (here : c.left = n :: a) :
    (c.enter f n).left = if n = 255 then a.drop 2 else a := by
  unfold Cmsg.enter
  show c.m.drop (if n = 255 then c.l + 3 else c.l + 1) = _
  split
  · rw [left_advance, here]
    rfl
  · rw [left_advance, here]
    rfl

/-- An item that is decoded is a field of the buffer. -/
theorem itemField_of_run {i : Item} {ds : List Cdef} {fuel : Nat} (proper : i.Proper) (reads : c.Reads (i.defs ++ ds))
    (run : message2Pars fuel c = some w) :
    ∃ fuel' c', message2Pars fuel' c' = some w ∧ c'.Reads ds ∧ ItemField i c.left c'.left := by
  cases fuel with
  | zero => cases run
  | succ fuel =>
    cases i with
    | par d =>
      obtain ⟨typ, follow⟩ := reads.cons
      rw [message2Pars_plain proper typ] at run
      obtain ⟨c', read, run⟩ := Option.bind_eq_some_iff.mp run
      obtain ⟨field, same⟩ := field_of_read read
      exact ⟨fuel, c'.next, run, same.next.reads follow, .par field⟩
    | comp f members =>
      obtain ⟨typ, follow⟩ := reads.cons
      simp only [message2Pars, typ, Option.bind_eq_bind, Option.bind_some] at run
      obtain ⟨n, byte, run⟩ := Option.bind_eq_some_iff.mp run
      rw [getElem?_left] at byte
      obtain ⟨a, here⟩ : ∃ a, c.left = n :: a := List.head?_eq_some_iff.mp byte
      rcases eq_or_ne n 0 with rfl | nonzero
      · rw [if_pos rfl] at run
        obtain ⟨p, jump, there⟩ := @jumpcstruct_eq
          { c with cmstruct := Function.update c.cmstruct f .default, l := c.l + 1 } f members ds proper reads
        rw [jump] at run
        refine ⟨fuel, _, run, there.cons.2, ?_⟩
        show ItemField _ c.left (c.m.drop (c.l + 1))
        rw [left_advance, here]
        exact .default a
      · rw [if_neg nonzero] at run
        obtain ⟨c', inner, run⟩ := Option.bind_eq_some_iff.mp run
        simp only [Item.defs, List.cons_append, List.append_assoc, List.nil_append] at reads
        obtain ⟨fields, last⟩ := fields_of_members members (c.enter f n) c' fuel proper.2 reads.cons.2 inner
        rw [enter_left c f here] at fields
        refine ⟨fuel, c'.next, run, last.cons.2, ?_⟩
        rw [here]
        split at fields
        · rename_i long
          subst long
          exact .long fields
        · rename_i small
          exact .short nonzero small fields

/-- A field of the buffer is decoded as an item. -/
theorem run_of_itemField {i : Item} {ds : List Cdef} {fuel : Nat} (proper : i.Proper) (reads : c.Reads (i.defs ++ ds))
    (field : ItemField i c.left r) (enough : i.defs.length ≤ fuel + 1) :
    ∃ c', message2Pars (fuel + 1) c = message2Pars fuel c' ∧ c'.Reads ds ∧ c'.left = r := by
  have compose : ∀ {f : CmstructField} {members : List Cdef} {n : UInt8} {a : Bytes}, i = .comp f members →
      c.left = n :: a → n ≠ 0 → Fields members (if n = 255 then a.drop 2 else a) r →
      ∃ c', message2Pars (fuel + 1) c = message2Pars fuel c' ∧ c'.Reads ds ∧ c'.left = r := by
    rintro f members n a rfl here nonzero fields
    have byte : c.m[c.l]? = some n := by rw [getElem?_left, here, List.head?_cons]
    simp only [Item.defs, List.cons_append, List.append_assoc, List.nil_append, List.length_cons,
      List.length_append] at reads enough
    rw [← enter_left c f here] at fields
    obtain ⟨c', inner, left, last⟩ := members_of_fields members (c.enter f n) r fuel proper.2 reads.cons.2 fields
      (by simp only [List.length_nil] at enough; omega)
    refine ⟨c'.next, ?_, last.cons.2, left⟩
    unfold Cmsg.enter at inner
    simp only [message2Pars, reads.cons.1, byte, if_neg nonzero, inner, Option.bind_eq_bind, Option.bind_some]
  generalize here : c.left = a at field
  cases field with
  | par field =>
    obtain ⟨typ, follow⟩ := reads.cons
    rw [← here] at field
    obtain ⟨c', read, left, same⟩ := read_of_field field
    exact ⟨c'.next, by rw [message2Pars_plain proper typ, read]; rfl, same.next.reads follow, left⟩
  | @default f members =>
    obtain ⟨typ, follow⟩ := reads.cons
    have byte : c.m[c.l]? = some 0 := by rw [getElem?_left, here, List.head?_cons]
    obtain ⟨p, jump, there⟩ := @jumpcstruct_eq
      { c with cmstruct := Function.update c.cmstruct f .default, l := c.l + 1 } f members ds proper reads
    refine ⟨Cmsg.next _, ?_, there.cons.2, ?_⟩
    · simp only [message2Pars, typ, byte, jump, Option.bind_eq_bind, Option.bind_some, if_true]
    · show c.m.drop (c.l + 1) = r
      rw [left_advance, here]
      rfl
  | short nonzero small fields => exact compose rfl here nonzero (by rwa [if_neg small])
  | long fields => exact compose rfl here (by decide) fields

/-- Items that are decoded are fields of the buffer. -/
theorem itemFields_of_run : ∀ (items : List Item) (c w : Cmsg) (fuel : Nat), (∀ i ∈ items, i.Proper) →
    c.Reads (items.flatMap Item.defs ++ [.cend]) → message2Pars fuel c = some w → ItemFields items c.left w.left
  | [], c, w, 0, _, _, run => by cases run
  | [], c, w, fuel + 1, _, reads, run => by
    simp only [message2Pars, reads.cons.1, Option.bind_eq_bind, Option.bind_some, Option.some.injEq] at run
    subst run
    exact .nil _
  | i :: items, c, w, fuel, proper, reads, run => by
    simp only [List.flatMap_cons, List.append_assoc] at reads
    obtain ⟨fuel', c', run, follow, first⟩ := itemField_of_run (proper i List.mem_cons_self) reads run
    exact .cons first (itemFields_of_run items c' w fuel' (fun j mem => proper j (List.mem_cons_of_mem _ mem)) follow run)

/-- Fields of the buffer are decoded as items. -/
theorem run_of_itemFields : ∀ (items : List Item) (c : Cmsg) (r : Bytes) (fuel : Nat), (∀ i ∈ items, i.Proper) →
    c.Reads (items.flatMap Item.defs ++ [.cend]) → ItemFields items c.left r →
    (items.flatMap Item.defs).length < fuel → ∃ w, message2Pars fuel c = some w ∧ w.left = r
  | [], c, r, fuel + 1, _, reads, fields, _ => by
    have stop : message2Pars (fuel + 1) c = some c := by simp [message2Pars, reads.cons.1]
    cases fields
    exact ⟨c, stop, rfl⟩
  | i :: items, c, r, fuel + 1, proper, reads, fields, enough => by
    simp only [List.flatMap_cons, List.append_assoc, List.length_append] at reads enough
    cases fields with
    | cons first others =>
      obtain ⟨c', step, follow, left⟩ := run_of_itemField (proper i List.mem_cons_self) reads first
        (show i.defs.length ≤ fuel + 1 by omega)
      have filled : 0 < i.defs.length := by cases i <;> simp [Item.defs]
      have there : ItemFields items c'.left r := left ▸ others
      obtain ⟨w, run, done⟩ := run_of_itemFields items c' r fuel (fun j mem => proper j (List.mem_cons_of_mem _ mem))
        follow there (by omega)
      exact ⟨w, step.trans run, done⟩

end Items

/-! ## Buffers -/

/-- The decoder uses a template that is there and reads nothing behind the end of the buffer: anything else has no
result. -/
def DecodesSafely (msg : Bytes) : Prop := ∃ cmsg, capiMessage2cmsg msg = some cmsg

/-- A message is decoded exactly when its parameters are laid out in it. -/
theorem decodePars_iff {msg : Bytes} : (∃ walk, decodePars msg = some walk) ↔
    ∃ command subcommand par r, msg[4]? = some command ∧ msg[5]? = some subcommand ∧
      cpars (command2Index command subcommand) = some par ∧ ItemFields (layout par) (msg.drop 8) r := by
  constructor
  · intro ⟨walk, decoded⟩
    obtain ⟨command, c, decoded⟩ := Option.bind_eq_some_iff.mp decoded
    obtain ⟨subcommand, sc, decoded⟩ := Option.bind_eq_some_iff.mp decoded
    obtain ⟨par, template, run⟩ := Option.bind_eq_some_iff.mp decoded
    have laid := cpars_laid template
    have fields := itemFields_of_run (layout par) _ walk par.length laid.proper (laid.reads rfl rfl) run
    exact ⟨command, subcommand, par, walk.left, c, sc, template, fields⟩
  · intro ⟨command, subcommand, par, r, c, sc, template, fields⟩
    have laid := cpars_laid template
    have start := @Laid.reads par (layout par) laid { Cmsg.zero msg with command, subcommand, l := 8, par } rfl rfl
    obtain ⟨walk, run, -⟩ := run_of_itemFields (layout par) _ r par.length laid.proper start fields
      (by rw [laid.length]; exact Nat.lt_succ_self _)
    refine ⟨walk, ?_⟩
    unfold decodePars
    simp only [c, sc, template, Option.bind_eq_bind, Option.bind_some]
    exact run

/-- Exactly the buffers that the decoder handles. -/
theorem decodes_safely_iff (msg : Bytes) : DecodesSafely msg ↔ Readable msg := by
  unfold DecodesSafely Readable
  rw [← decodePars_iff]
  constructor
  · intro ⟨cmsg, decoded⟩
    obtain ⟨walk, parsed, decoded⟩ := Option.bind_eq_some_iff.mp decoded
    obtain ⟨len, -, decoded⟩ := Option.bind_eq_some_iff.mp decoded
    obtain ⟨applId, -, decoded⟩ := Option.bind_eq_some_iff.mp decoded
    obtain ⟨messagenumber, number, -⟩ := Option.bind_eq_some_iff.mp decoded
    refine ⟨?_, walk, parsed⟩
    unfold peek at number
    split at number
    · assumption
    · cases number
  · intro ⟨size, walk, parsed⟩
    have words : ∀ off, off ≤ 6 → peek msg off 2 = some ((msg.drop off).take 2) := by
      intro off front
      rw [peek, if_pos (by omega)]
    unfold capiMessage2cmsg
    simp only [parsed, words 0 (by decide), words 2 (by decide), words 6 (by decide), Option.bind_eq_bind,
      Option.bind_some]
    exact ⟨_, rfl⟩

/-! ## What the decoder leaves alone -/

/-- The decoder keeps the command, the template and the message. -/
theorem message2Pars_frame : ∀ (fuel : Nat) (c w : Cmsg), message2Pars fuel c = some w →
    w.command = c.command ∧ w.subcommand = c.subcommand ∧ w.par = c.par ∧ w.m = c.m
  | 0, _, _, run => by cases run
  | fuel + 1, c, w, run => by
    obtain ⟨d, typ, rest⟩ := Option.bind_eq_some_iff.mp run
    cases d with
    | word f =>
      obtain ⟨bs, -, run⟩ := Option.bind_eq_some_iff.mp rest
      have kept := message2Pars_frame fuel _ w run
      exact kept
    | dword f =>
      obtain ⟨bs, -, run⟩ := Option.bind_eq_some_iff.mp rest
      have kept := message2Pars_frame fuel _ w run
      exact kept
    | cstruct f =>
      obtain ⟨size, -, run⟩ := Option.bind_eq_some_iff.mp rest
      have kept := message2Pars_frame fuel _ w run
      exact kept
    | cmstruct f =>
      obtain ⟨n, -, run⟩ := Option.bind_eq_some_iff.mp rest
      split at run
      · obtain ⟨c', jump, run⟩ := Option.bind_eq_some_iff.mp run
        rw [jumpcstruct_frame jump] at run
        have kept := message2Pars_frame fuel _ w run
        exact kept
      · obtain ⟨c', inner, run⟩ := Option.bind_eq_some_iff.mp run
        have first := message2Pars_frame fuel _ c' inner
        have second := message2Pars_frame fuel _ w run
        exact ⟨second.1.trans first.1, second.2.1.trans first.2.1, second.2.2.1.trans first.2.2.1,
          second.2.2.2.trans first.2.2.2⟩
    | cend =>
      cases rest
      exact ⟨rfl, rfl, rfl, rfl⟩

/-- The walk of the decoder over a message, and what the header adds to it. -/
structure Decoded (msg : Bytes) (cmsg walk : Cmsg) : Prop where
  command : msg[4]? = some cmsg.command
  subcommand : msg[5]? = some cmsg.subcommand
  template : cpars (command2Index cmsg.command cmsg.subcommand) = some cmsg.par
  run : message2Pars cmsg.par.length
    { Cmsg.zero msg with command := cmsg.command, subcommand := cmsg.subcommand, l := 8, par := cmsg.par } = some walk
  applId : ∃ bs, peek msg 2 2 = some bs ∧ cmsg.applId = UInt16.ofNat (leNat bs)
  values : cmsg = { walk with l := cmsg.l, applId := cmsg.applId, messagenumber := cmsg.messagenumber }

/-- A decoded message was walked through. -/
theorem decoded_walk {msg : Bytes} {cmsg : Cmsg} (decoded : capiMessage2cmsg msg = some cmsg) :
    ∃ walk, Decoded msg cmsg walk := by
  obtain ⟨walk, parsed, decoded⟩ := Option.bind_eq_some_iff.mp decoded
  obtain ⟨len, -, decoded⟩ := Option.bind_eq_some_iff.mp decoded
  obtain ⟨applId, id, decoded⟩ := Option.bind_eq_some_iff.mp decoded
  obtain ⟨messagenumber, -, same⟩ := Option.bind_eq_some_iff.mp decoded
  cases same
  obtain ⟨command, c, parsed⟩ := Option.bind_eq_some_iff.mp parsed
  obtain ⟨subcommand, sc, parsed⟩ := Option.bind_eq_some_iff.mp parsed
  obtain ⟨par, template, run⟩ := Option.bind_eq_some_iff.mp parsed
  obtain ⟨rfl, rfl, rfl, -⟩ := message2Pars_frame _ _ walk run
  exact ⟨walk, c, sc, template, run, ⟨applId, id, rfl⟩, rfl⟩

/-- What is not in the template of a message keeps its default. -/
theorem decoded_default {msg : Bytes} {cmsg : Cmsg} {par : List Nat} (decoded : capiMessage2cmsg msg = some cmsg)
    (template : cpars (command2Index cmsg.command cmsg.subcommand) = some par) {d : Cdef}
    (outside : d ∉ (layout par).flatMap Item.defs) : SameValue cmsg (Cmsg.zero msg) d := by
  obtain ⟨walk, walked⟩ := decoded_walk decoded
  cases walked.template.symm.trans template
  have laid := cpars_laid template
  have start := @Laid.reads cmsg.par (layout cmsg.par) laid
    { Cmsg.zero msg with command := cmsg.command, subcommand := cmsg.subcommand, l := 8, par := cmsg.par } rfl rfl
  have kept := (message2Pars_items_least (layout cmsg.par) _ walk _ laid.proper start laid.distinct walked.run).2 d outside
  rw [walked.values]
  cases d <;> exact kept

/-- A message whose command has no template; the driver takes it for a message of the controller. -/
def unknownCommand : Bytes := [12, 0, 1, 0, 0x06, 0x80, 0, 0, 1, 0, 0, 0]

/-- A CONNECT_IND that ends behind its address. -/
def truncatedInd : Bytes := [12, 0, 1, 0, 0x02, 0x82, 0, 0, 1, 1, 0, 0]

/-- An empty entry of the table is used, and bytes behind the buffer are read. -/
theorem decodes_unsafely : ¬ DecodesSafely unknownCommand ∧ ¬ DecodesSafely truncatedInd := by
  have nothing : (capiMessage2cmsg unknownCommand).isSome = false ∧ (capiMessage2cmsg truncatedInd).isSome = false := by
    decide +kernel
  constructor
  · intro ⟨cmsg, decoded⟩
    rw [decoded] at nothing
    cases nothing.1
  · intro ⟨cmsg, decoded⟩
    rw [decoded] at nothing
    cases nothing.2

end Capi4Linux.Capiutil
