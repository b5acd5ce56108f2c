import Capi4Linux.Capiutil.Encode

/-!
# What the decoder reads

`message_2_pars` inverts the format: behind the bytes of an item it has stored
the item's values and stands behind them. Whatever it reads, it consumes at
least the bytes its result is encoded by.
-/

namespace Capi4Linux.Capiutil
open Bytes

namespace Cmsg

/-- The message is `front` up to the cursor and `rest` behind it. -/
structure At (cmsg : Cmsg) (front rest : Bytes) : Prop where
  cursor : cmsg.l = front.length
  message : cmsg.m = front ++ rest

/-- One turn of the decoder for a plain parameter, the step to the next code apart. -/
def read (cmsg : Cmsg) : Cdef → Option Cmsg
  | .word f => (peek cmsg.m cmsg.l 2).map fun bs =>
    { cmsg with word := Function.update cmsg.word f (UInt16.ofNat (leNat bs)), l := cmsg.l + 2 }
  | .dword f => (peek cmsg.m cmsg.l 4).map fun bs =>
    { cmsg with dword := Function.update cmsg.dword f (UInt32.ofNat (leNat bs)), l := cmsg.l + 4 }
  | .cstruct f => (structSize (cmsg.m.drop cmsg.l)).map fun size =>
    { cmsg with
      cstruct := Function.update cmsg.cstruct f (some (cmsg.m.drop cmsg.l)), l := cmsg.l + size }
  | .cmstruct _ | .cend => none

end Cmsg

theorem message2Pars_plain {cmsg : Cmsg} {d : Cdef} (plain : d.Plain) (typ : cmsg.typ = some d) (fuel : Nat) :
    message2Pars (fuel + 1) cmsg = (cmsg.read d).bind fun c => message2Pars fuel c.next := by
  cases d with
  | word f => cases value : peek cmsg.m cmsg.l 2 <;> simp [message2Pars, typ, Cmsg.read, value]
  | dword f => cases value : peek cmsg.m cmsg.l 4 <;> simp [message2Pars, typ, Cmsg.read, value]
  | cstruct f =>
    cases size : structSize (cmsg.m.drop cmsg.l) <;> simp [message2Pars, typ, Cmsg.read, size]
  | cmstruct f => exact plain.elim
  | cend => exact plain.elim

/-! ## Reading what was written -/

/-- `c'` holds the values of `src` wherever `c` did, and those of `shown` besides. -/
structure Carried (src c c' : Cmsg) (shown : List Cdef) : Prop where
  command : c'.command = c.command
  subcommand : c'.subcommand = c.subcommand
  values : ∀ d, SameValue c src d ∨ d ∈ shown → SameValue c' src d

theorem Carried.trans {src a b c : Cmsg} {ds es : List Cdef} (first : Carried src a b ds)
    (second : Carried src b c es) : Carried src a c (ds ++ es) where
  command := second.command.trans first.command
  subcommand := second.subcommand.trans first.subcommand
  values d known := by
    refine second.values d ?_
    rcases known with same | mem
    · exact .inl (first.values d (.inl same))
    · exact (List.mem_append.mp mem).imp (fun here => first.values d (.inr here)) id

/-- Storing the value of `src` in one parameter changes no other. -/
theorem Carried.of_only {src c c' : Cmsg} {d : Cdef} (command : c'.command = c.command)
    (subcommand : c'.subcommand = c.subcommand) (stored : SameValue c' src d)
    (others : ∀ e, e ≠ d → SameValue c' c e) : Carried src c c' [d] where
  command := command
  subcommand := subcommand
  values e known := by
    by_cases self : e = d
    · exact self ▸ stored
    · exact (others e self).trans (known.resolve_right fun mem => self (List.mem_singleton.mp mem))

theorem sameValue_setWord (c : Cmsg) (f : WordField) (v : UInt16) (l p : Nat) (e : Cdef) (other : e ≠ .word f) :
    SameValue { c with word := Function.update c.word f v, l, p } c e := by
  cases e with
  | word g => exact Function.update_of_ne (fun eq => other (congrArg _ eq)) v c.word
  | _ => first | rfl | trivial

theorem sameValue_setDword (c : Cmsg) (f : DwordField) (v : UInt32) (l p : Nat) (e : Cdef) (other : e ≠ .dword f) :
    SameValue { c with dword := Function.update c.dword f v, l, p } c e := by
  cases e with
  | dword g => exact Function.update_of_ne (fun eq => other (congrArg _ eq)) v c.dword
  | _ => first | rfl | trivial

theorem sameValue_setCstruct (c : Cmsg) (f : CstructField) (v : Option Bytes) (l p : Nat) (e : Cdef)
    (other : e ≠ .cstruct f) : SameValue { c with cstruct := Function.update c.cstruct f v, l, p } c e := by
  cases e with
  | cstruct g =>
    have kept : Function.update c.cstruct f v g = c.cstruct g :=
      Function.update_of_ne (fun eq : g = f => other (congrArg _ eq)) v c.cstruct
    exact congrArg structBytes kept
  | _ => first | rfl | trivial

theorem sameValue_setCmstruct (c : Cmsg) (f : CmstructField) (v : Cmstruct) (l p : Nat) (e : Cdef)
    (other : e ≠ .cmstruct f) : SameValue { c with cmstruct := Function.update c.cmstruct f v, l, p } c e := by
  cases e with
  | cmstruct g => exact Function.update_of_ne (fun eq => other (congrArg _ eq)) v c.cmstruct
  | _ => first | rfl | trivial

/-- A struct is read up to its size, whatever follows it. -/
theorem structBytes_append {s : Option Bytes} {bs r : Bytes} (written : structBytes s = some bs) :
    structSize (bs ++ r) = some bs.length ∧ structBytes (some (bs ++ r)) = some bs := by
  have sized : structSize (bs ++ r) = some bs.length := by
    cases s with
    | none =>
      obtain rfl := Option.some.inj written
      rfl
    | some s =>
      obtain ⟨size, sized, cut⟩ := Option.bind_eq_some_iff.mp written
      have length := peek_length cut
      unfold peek at cut
      split at cut
      case isFalse => cases cut
      rename_i inside
      simp only [List.drop_zero, Nat.zero_add] at cut inside
      obtain rfl := Option.some.inj cut
      simp only [structSize, Option.bind_eq_bind, Option.bind_eq_some_iff] at sized ⊢
      obtain ⟨n, first, sized⟩ := sized
      obtain ⟨s', rfl⟩ : ∃ s', s = n :: s' := by
        cases s with
        | nil => cases first
        | cons x s' =>
          obtain rfl := Option.some.inj first
          exact ⟨s', rfl⟩
      refine ⟨n, ?_, ?_⟩
      · cases size with
        | zero =>
          exfalso
          split at sized
          · have := Option.some.inj sized; omega
          · obtain ⟨w, -, sized⟩ := Option.bind_eq_some_iff.mp sized
            have := Option.some.inj sized; omega
        | succ size => rfl
      · split at sized
        · rename_i small
          obtain rfl := Option.some.inj sized
          rw [if_pos small, length]
        · rename_i large
          obtain ⟨w, word, sized⟩ := Option.bind_eq_some_iff.mp sized
          obtain rfl := Option.some.inj sized
          have inFront (t : Bytes) : peek ((n :: s').take (3 + leNat w) ++ t) 1 2 =
              peek ((n :: s').take (3 + leNat w)) 1 2 := peek_append_of_le (by rw [length]; omega)
          have same : peek ((n :: s').take (3 + leNat w) ++ r) 1 2 = some w := by
            rw [inFront, ← inFront ((n :: s').drop (3 + leNat w)), List.take_append_drop, word]
          rw [if_neg large, same, length]
          rfl
  exact ⟨sized, by simp [structBytes, sized, peek]⟩

section Forward

variable {src : Cmsg} (sound : src.Sound)
include sound

/-- Reading the bytes of a plain parameter gives its value. -/
theorem Cmsg.read_encoded {cmsg : Cmsg} {d : Cdef} {ds : List Cdef} {a r : Bytes} (plain : d.Plain)
    (reads : cmsg.Reads (d :: ds)) (here : cmsg.At a (src.encoded d ++ r)) :
    ∃ c, cmsg.read d = some c ∧ Carried src cmsg c.next [d] ∧ c.next.Reads ds ∧
      c.next.At (a ++ src.encoded d) r := by
  have bytes := sound.bytes d
  have tail := reads.cons.2
  have found : peek cmsg.m cmsg.l (src.encoded d).length = some (src.encoded d) := by
    rw [here.cursor, here.message]
    exact peek_append a (src.encoded d) r
  have behind : cmsg.m.drop cmsg.l = src.encoded d ++ r := by
    rw [here.message, here.cursor, List.drop_left]
  have there (l : Nat) (moved : l = cmsg.l + (src.encoded d).length) :
      l = (a ++ src.encoded d).length ∧ cmsg.m = a ++ src.encoded d ++ r := by
    rw [moved, here.cursor, here.message, List.length_append, List.append_assoc]
    exact ⟨rfl, rfl⟩
  cases d with
  | word f =>
    have word : leNat (src.encoded (.word f)) = (src.word f).toNat := leNat_le_of_lt (src.word f).toNat_lt
    have read : cmsg.read (.word f) = some _ := congrArg (Option.map _) found
    obtain ⟨cursor, message⟩ := there _ rfl
    refine ⟨_, read, .of_only rfl rfl ?_ (sameValue_setWord cmsg f _ _ _), tail, ⟨cursor, message⟩⟩
    simp [SameValue, Cmsg.next, word]
  | dword f =>
    have dword : leNat (src.encoded (.dword f)) = (src.dword f).toNat := leNat_le_of_lt (src.dword f).toNat_lt
    have read : cmsg.read (.dword f) = some _ := congrArg (Option.map _) found
    obtain ⟨cursor, message⟩ := there _ rfl
    refine ⟨_, read, .of_only rfl rfl ?_ (sameValue_setDword cmsg f _ _ _), tail, ⟨cursor, message⟩⟩
    simp [SameValue, Cmsg.next, dword]
  | cstruct f =>
    obtain ⟨sized, same⟩ := @structBytes_append _ _ r bytes
    rw [← behind] at sized same
    have read : cmsg.read (.cstruct f) = some _ := congrArg (Option.map _) sized
    obtain ⟨cursor, message⟩ := there _ rfl
    refine ⟨_, read, .of_only rfl rfl ?_ (sameValue_setCstruct cmsg f _ _ _), tail, ⟨cursor, message⟩⟩
    simp only [SameValue, Cmsg.next, Function.update_self, same]
    exact bytes.symm
  | cmstruct f => exact plain.elim
  | cend => exact plain.elim

theorem message2Pars_members {rest : List Cdef} : ∀ (members : List Cdef) (cmsg : Cmsg) (a r : Bytes) (fuel : Nat),
    (∀ d ∈ members, d.Plain) → cmsg.Reads (members ++ .cend :: rest) → cmsg.At a (src.content members ++ r) →
    members.length < fuel →
    ∃ c, message2Pars fuel cmsg = some c ∧ Carried src cmsg c members ∧ c.Reads (.cend :: rest) ∧
      c.At (a ++ src.content members) r
  | [], cmsg, a, r, fuel + 1, _, reads, here, _ => by
    refine ⟨cmsg, by simp [message2Pars, reads.cons.1], ⟨rfl, rfl, fun d same => ?_⟩, reads, by simpa [Cmsg.content] using here⟩
    exact same.resolve_right List.not_mem_nil
  | d :: ds, cmsg, a, r, fuel + 1, plain, reads, here, enough => by
    simp only [Cmsg.content, List.flatMap_cons, List.append_assoc, List.length_cons] at here enough
    obtain ⟨c₁, read, first, follow, there⟩ := Cmsg.read_encoded sound (plain d List.mem_cons_self) reads here
    obtain ⟨c, run, second, last, done⟩ := message2Pars_members ds c₁.next (a ++ src.encoded d) r fuel
      (fun e mem => plain e (List.mem_cons_of_mem _ mem)) follow there (by omega)
    refine ⟨c, ?_, first.trans second, last, ?_⟩
    · rw [message2Pars_plain (plain d List.mem_cons_self) reads.cons.1, read]
      exact run
    · simpa [Cmsg.content, List.append_assoc] using done

omit sound in
/-- The length byte of a composite is not 0, and 255 exactly in the long form. -/
theorem lengthPrefix_head {size : Nat} (filled : 0 < size) :
    ∃ n more, lengthPrefix size = n :: more ∧ n ≠ 0 ∧ (if n = 255 then 3 else 1) = (lengthPrefix size).length := by
  unfold lengthPrefix
  split
  · rename_i short
    have value : (UInt8.ofNat size).toNat = size := by
      rw [UInt8.toNat_ofNat']
      omega
    have apart : ∀ k : UInt8, k.toNat ≠ size → UInt8.ofNat size ≠ k := by
      rintro k ne rfl
      exact ne value
    refine ⟨_, _, rfl, apart 0 ?_, ?_⟩
    · show 0 ≠ size
      omega
    · rw [if_neg (apart 255 ?_), List.length_singleton]
      show 255 ≠ size
      omega
  · refine ⟨0xff, _, rfl, by decide, ?_⟩
    rw [List.length_cons, length_le]
    rfl

/-- One item: its values are stored and its bytes consumed. -/
theorem message2Pars_item {i : Item} {cmsg : Cmsg} {ds : List Cdef} {a r : Bytes} {fuel : Nat} (proper : i.Proper)
    (reads : cmsg.Reads (i.defs ++ ds)) (here : cmsg.At a (i.encode src ++ r))
    (enough : i.defs.length ≤ fuel + 1) :
    ∃ c, message2Pars (fuel + 1) cmsg = message2Pars fuel c ∧ Carried src cmsg c (i.shown src) ∧ c.Reads ds ∧
      c.At (a ++ i.encode src) r := by
  cases i with
  | par d =>
    obtain ⟨c, read, carried, follow, there⟩ := Cmsg.read_encoded sound proper reads here
    exact ⟨c.next, by rw [message2Pars_plain proper reads.cons.1, read]; rfl, carried, follow, there⟩
  | comp f members =>
    have typ := reads.cons.1
    have set (k : Cmstruct) (kind : src.cmstruct f = k) (l p : Nat) :
        Carried src cmsg { cmsg with cmstruct := Function.update cmsg.cmstruct f k, l, p } [.cmstruct f] :=
      .of_only rfl rfl (by simp [SameValue, kind]) (sameValue_setCmstruct cmsg f k l p)
    cases kind : src.cmstruct f with
    | default =>
      simp only [Item.encode, Item.shown, kind] at here ⊢
      have byte : cmsg.m[cmsg.l]? = some 0 := by simp [here.message, here.cursor]
      obtain ⟨p, jump, there⟩ := @jumpcstruct_eq
        { cmsg with cmstruct := Function.update cmsg.cmstruct f .default, l := cmsg.l + 1 } f members ds proper reads
      refine ⟨_, ?_, set .default kind (cmsg.l + 1) (p + 1), there.cons.2, ⟨?_, ?_⟩⟩
      · simp only [message2Pars, typ, byte, jump, Option.bind_eq_bind, Option.bind_some, if_true]
        rfl
      · simp [here.cursor]
      · simp [here.message]
    | compose =>
      simp only [Item.encode, Item.shown, kind] at here ⊢
      have filled := List.length_pos_iff.mpr (Cmsg.content_ne_nil proper.1 proper.2 fun d _ => sound.readable d)
      generalize content : src.content members = bs at here filled
      obtain ⟨n, more, split, nonzero, width⟩ := lengthPrefix_head filled
      have form : (if n = 255 then cmsg.l + 3 else cmsg.l + 1) = cmsg.l + (lengthPrefix bs.length).length := by
        rw [← width]
        split_ifs
        · rfl
        · rfl
      have byte : cmsg.m[cmsg.l]? = some n := by simp [here.message, here.cursor, split]
      simp only [Item.defs, List.cons_append, List.append_assoc, List.nil_append, List.length_cons,
        List.length_append] at reads enough
      obtain ⟨c, run, carried, follow, there⟩ := message2Pars_members sound members
        { cmsg with
          cmstruct := Function.update cmsg.cmstruct f .compose
          l := if n = 255 then cmsg.l + 3 else cmsg.l + 1
          p := cmsg.p + 1 }
        (a ++ lengthPrefix bs.length) r fuel proper.2 reads.cons.2
        ⟨by rw [form, here.cursor, List.length_append], by rw [here.message, content]; simp⟩ (by simp at enough; omega)
      have both := (set .compose kind _ _).trans carried
      refine ⟨c.next, ?_, ⟨both.command, both.subcommand, both.values⟩, follow.cons.2, ⟨?_, ?_⟩⟩
      · simp only [message2Pars, typ, byte, if_neg nonzero, run, Option.bind_eq_bind, Option.bind_some]
      · rw [content] at there
        exact there.cursor.trans (by rw [List.append_assoc])
      · rw [content] at there
        exact there.message.trans (by simp [List.append_assoc])

/-- The items of a template, with `spare` turns left for what follows them. -/
theorem message2Pars_items {ds : List Cdef} {spare : Nat} :
    ∀ (items : List Item) (cmsg : Cmsg) (a r : Bytes) (fuel : Nat), (∀ i ∈ items, i.Proper) →
    cmsg.Reads (items.flatMap Item.defs ++ ds) → cmsg.At a (items.flatMap (Item.encode src) ++ r) →
    (items.flatMap Item.defs).length + spare ≤ fuel →
    ∃ c fuel', spare ≤ fuel' ∧ message2Pars fuel cmsg = message2Pars fuel' c ∧
      Carried src cmsg c (items.flatMap (Item.shown src)) ∧ c.Reads ds ∧
      c.At (a ++ items.flatMap (Item.encode src)) r
  | [], cmsg, a, r, fuel, _, reads, here, enough => by
    refine ⟨cmsg, fuel, by simpa using enough, rfl, ⟨rfl, rfl, fun d same => ?_⟩, reads, by simpa using here⟩
    exact same.resolve_right List.not_mem_nil
  | i :: items, cmsg, a, r, fuel, proper, reads, here, enough => by
    simp only [List.flatMap_cons, List.append_assoc, List.length_append] at reads here enough
    have filled : 0 < i.defs.length := by cases i <;> simp [Item.defs]
    obtain ⟨fuel, rfl⟩ : ∃ k, fuel = k + 1 := ⟨fuel - 1, by omega⟩
    obtain ⟨c₁, step, first, follow, there⟩ := message2Pars_item sound (proper i List.mem_cons_self) reads here
      (show i.defs.length ≤ fuel + 1 by omega)
    obtain ⟨c, fuel', left, run, second, last, done⟩ := message2Pars_items items c₁ _ r fuel
      (fun j mem => proper j (List.mem_cons_of_mem _ mem)) follow there (show _ + spare ≤ fuel by omega)
    refine ⟨c, fuel', left, step.trans run, ?_, last, ?_⟩
    · simpa only [List.flatMap_cons] using first.trans second
    · simpa only [List.flatMap_cons, List.append_assoc] using done

end Forward

/-! ## What any reading consumes -/

theorem Cmsg.read_least {c c' : Cmsg} {d : Cdef} (read : c.read d = some c') :
    c.l + (c'.encoded d).length ≤ c'.l ∧ (∀ e, e ≠ d → SameValue c' c e) ∧ c'.par = c.par ∧ c'.p = c.p := by
  cases d with
  | word f =>
    obtain ⟨bs, -, rfl⟩ := Option.map_eq_some_iff.mp read
    exact ⟨by simp [Cmsg.encoded, Cmsg.bytes], sameValue_setWord c f _ _ _, rfl, rfl⟩
  | dword f =>
    obtain ⟨bs, -, rfl⟩ := Option.map_eq_some_iff.mp read
    exact ⟨by simp [Cmsg.encoded, Cmsg.bytes], sameValue_setDword c f _ _ _, rfl, rfl⟩
  | cstruct f =>
    obtain ⟨size, sized, rfl⟩ := Option.map_eq_some_iff.mp read
    refine ⟨?_, sameValue_setCstruct c f _ _ _, rfl, rfl⟩
    simp only [Cmsg.encoded, Cmsg.bytes, Function.update_self, structBytes, sized, Option.bind_eq_bind,
      Option.bind_some]
    cases cut : peek (c.m.drop c.l) 0 size with
    | none => simp
    | some bs => simpa using Nat.le_of_eq (peek_length cut)
  | cmstruct f => cases read
  | cend => cases read

/-- What is read into `c` later leaves the parameters before alone, and takes their bytes at least. -/
theorem message2Pars_members_least {rest : List Cdef} : ∀ (members : List Cdef) (c w : Cmsg) (fuel : Nat),
    (∀ d ∈ members, d.Plain) → c.Reads (members ++ .cend :: rest) → members.Nodup →
    message2Pars fuel c = some w →
    c.l + (w.content members).length ≤ w.l ∧ (∀ e, e ∉ members → SameValue w c e) ∧ w.Reads (.cend :: rest)
  | [], c, w, 0, _, _, _, run => by cases run
  | _ :: _, c, w, 0, _, _, _, run => by cases run
  | [], c, w, fuel + 1, _, reads, _, run => by
    simp only [message2Pars, reads.cons.1, Option.bind_eq_bind, Option.bind_some, Option.some.injEq] at run
    obtain rfl := run
    exact ⟨by simp [Cmsg.content], fun e _ => sameValue_refl _ e, reads⟩
  | d :: ds, c, w, fuel + 1, plain, reads, distinct, run => by
    rw [message2Pars_plain (plain d List.mem_cons_self) reads.cons.1] at run
    obtain ⟨c', read, run⟩ := Option.bind_eq_some_iff.mp run
    obtain ⟨took, others, par, p⟩ := Cmsg.read_least read
    obtain ⟨fresh, distinct⟩ := List.nodup_cons.mp distinct
    have follow : c'.next.Reads (ds ++ .cend :: rest) := by
      change (c'.par.drop (c'.p + 1)).map _ = _
      rw [par, p]
      exact reads.cons.2
    obtain ⟨least, frame, last⟩ := message2Pars_members_least ds c'.next w fuel
      (fun e mem => plain e (List.mem_cons_of_mem _ mem)) follow distinct run
    refine ⟨?_, fun e out => ?_, last⟩
    · have kept : w.encoded d = c'.encoded d := congrArg (Option.getD · []) (frame d fresh).bytes
      simp only [Cmsg.content, List.flatMap_cons, List.length_append, kept] at least ⊢
      change c'.l + _ ≤ w.l at least
      omega
    · obtain ⟨ne, out⟩ := not_or.mp (fun mem => out (List.mem_cons.mpr mem))
      exact (frame e out).trans (others e ne)

/-- A composite takes its counted bytes at least, and two more if it starts with 255. -/
theorem message2Pars_comp_least {f : CmstructField} {members ds : List Cdef} {c w : Cmsg} {fuel : Nat}
    (proper : (Item.comp f members).Proper) (reads : c.Reads ((Item.comp f members).defs ++ ds))
    (distinct : members.Nodup) (run : message2Pars fuel c = some w) :
    ∃ fuel' c', message2Pars fuel' c' = some w ∧ c'.Reads ds ∧
      (∀ e, e ∉ (Item.comp f members).defs → SameValue c' c e) ∧
      c.l + ((Item.comp f members).written c').length + (if c.m[c.l]? = some 255 then 2 else 0) ≤ c'.l := by
  cases fuel with
  | zero => cases run
  | succ fuel =>
    simp only [message2Pars, reads.cons.1, Option.bind_eq_bind, Option.bind_some] at run
    obtain ⟨n, byte, run⟩ := Option.bind_eq_some_iff.mp run
    have frame (k : Cmstruct) (l p : Nat) (e : Cdef) (out : e ∉ (Item.comp f members).defs) :
        SameValue { c with cmstruct := Function.update c.cmstruct f k, l, p } c e :=
      sameValue_setCmstruct c f k l p e fun eq => out (eq ▸ List.mem_cons_self)
    by_cases zero : n = 0
    · rw [if_pos zero] at run
      obtain ⟨p, jump, there⟩ := @jumpcstruct_eq
        { c with cmstruct := Function.update c.cmstruct f .default, l := c.l + 1 } f members ds proper reads
      rw [jump] at run
      refine ⟨fuel, _, run, there.cons.2, frame .default _ _, ?_⟩
      have kind : Function.update c.cmstruct f .default f = .default := Function.update_self _ _ _
      simp [Item.written, Cmsg.next, byte, zero]
    · rw [if_neg zero] at run
      obtain ⟨c', inner, run⟩ := Option.bind_eq_some_iff.mp run
      simp only [Item.defs, List.cons_append, List.append_assoc, List.nil_append] at reads
      obtain ⟨least, others, last⟩ := message2Pars_members_least members
        { c with
          cmstruct := Function.update c.cmstruct f .compose
          l := if n = 255 then c.l + 3 else c.l + 1
          p := c.p + 1 }
        c' fuel proper.2 reads.cons.2 distinct inner
      have kind : c'.cmstruct f = .compose := by
        have := others (.cmstruct f) fun mem => proper.2 _ mem
        simpa [SameValue] using this
      refine ⟨fuel, c'.next, run, last.cons.2, fun e out => ?_, ?_⟩
      · have inside : e ∉ members := fun mem => out (by simp [Item.defs, mem])
        exact (others e inside).trans (frame .compose _ _ e out)
      · have size : ((Item.comp f members).written c'.next).length = 1 + (c'.content members).length := by
          simp only [Item.written, show c'.next.cmstruct f = .compose from kind, List.length_take, List.length_append,
            length_lengthPrefix]
          change min (1 + (c'.content members).length) (_ + (c'.content members).length) = _
          split <;> omega
        rw [size, byte]
        change _ ≤ c'.l
        by_cases long : n = 255
        · simp only [long, if_true] at least ⊢
          omega
        · simp only [if_neg long, Option.some.injEq] at least ⊢
          omega

/-- An item whose codes keep their values is written the same. -/
theorem Item.written_congr {a b : Cmsg} {i : Item} (same : ∀ d ∈ i.shown b, SameValue a b d) :
    i.written a = i.written b := by
  have encoded {d : Cdef} (eq : SameValue a b d) : a.encoded d = b.encoded d := congrArg (Option.getD · []) eq.bytes
  cases i with
  | par d => exact encoded (same d (List.mem_singleton.mpr rfl))
  | comp f members =>
    have kind : a.cmstruct f = b.cmstruct f := same (.cmstruct f) (by simp only [Item.shown]; split <;> simp)
    cases eq : b.cmstruct f with
    | default => simp [Item.written, kind, eq]
    | compose =>
      have content : a.content members = b.content members :=
        List.flatMap_congr fun d mem => encoded (same d (by simp [Item.shown, eq, mem]))
      simp [Item.written, kind, eq, content]

theorem Item.shown_subset (a : Cmsg) (i : Item) : i.shown a ⊆ i.defs := by
  intro d mem
  cases i with
  | par e => exact mem
  | comp f members =>
    cases eq : a.cmstruct f with
    | default => simp_all [Item.shown, Item.defs]
    | compose =>
      simp only [Item.shown, eq] at mem
      rcases List.mem_cons.mp mem with head | inner
      · simp [Item.defs, head]
      · simp [Item.defs, inner]

theorem Distinct.apart {ds es : List Cdef} (distinct : Distinct (ds ++ es)) {d : Cdef} (mem : d ∈ ds) :
    d ∉ es ∨ d = .cend := by
  by_cases last : d = .cend
  · exact .inr last
  · refine .inl fun again => ?_
    have apart := (List.pairwise_append.mp distinct).2.2 d mem d again
    exact apart.elim (fun ne => ne rfl) last

theorem Distinct.members {f : CmstructField} {members : List Cdef} (distinct : Distinct (Item.comp f members).defs)
    (proper : (Item.comp f members).Proper) : members.Nodup := by
  have inner := List.Pairwise.sublist (List.sublist_append_left members [Cdef.cend]) (List.pairwise_cons.mp distinct).2
  refine List.Pairwise.imp_of_mem (fun here _ apart => ?_) inner
  refine apart.resolve_right fun last => ?_
  exact (last ▸ proper.2 _ here : Cdef.Plain .cend)

theorem message2Pars_item_least {i : Item} {ds : List Cdef} {c w : Cmsg} {fuel : Nat} (proper : i.Proper)
    (reads : c.Reads (i.defs ++ ds)) (distinct : Distinct i.defs) (run : message2Pars fuel c = some w) :
    ∃ fuel' c', message2Pars fuel' c' = some w ∧ c'.Reads ds ∧ (∀ e, e ∉ i.defs → SameValue c' c e) ∧
      c.l + (i.written c').length ≤ c'.l := by
  cases i with
  | par d =>
    cases fuel with
    | zero => cases run
    | succ fuel =>
      rw [message2Pars_plain proper reads.cons.1] at run
      obtain ⟨c', read, run⟩ := Option.bind_eq_some_iff.mp run
      obtain ⟨took, others, par, p⟩ := Cmsg.read_least read
      refine ⟨fuel, c'.next, run, ?_, fun e out => others e fun eq => out (List.mem_singleton.mpr eq), took⟩
      change (c'.par.drop (c'.p + 1)).map _ = _
      rw [par, p]
      exact reads.cons.2
  | comp f members =>
    obtain ⟨fuel', c', run, follow, frame, took⟩ :=
      message2Pars_comp_least proper reads (distinct.members proper) run
    exact ⟨fuel', c', run, follow, frame, by omega⟩

/-- The items of a template take their counted bytes at least. -/
theorem message2Pars_items_least {rest : List Cdef} : ∀ (items : List Item) (c w : Cmsg) (fuel : Nat),
    (∀ i ∈ items, i.Proper) → c.Reads (items.flatMap Item.defs ++ .cend :: rest) →
    Distinct (items.flatMap Item.defs) → message2Pars fuel c = some w →
    c.l + (image w items).length ≤ w.l ∧ ∀ e, e ∉ items.flatMap Item.defs → SameValue w c e
  | [], c, w, 0, _, _, _, run => by cases run
  | [], c, w, fuel + 1, _, reads, _, run => by
    simp only [message2Pars, reads.cons.1, Option.bind_eq_bind, Option.bind_some, Option.some.injEq] at run
    obtain rfl := run
    exact ⟨by simp [image], fun e _ => sameValue_refl _ e⟩
  | i :: items, c, w, fuel, proper, reads, distinct, run => by
    simp only [List.flatMap_cons, List.append_assoc] at reads distinct
    obtain ⟨fuel', c', run, follow, before, took⟩ := message2Pars_item_least (proper i List.mem_cons_self) reads
      (List.pairwise_append.mp distinct).1 run
    obtain ⟨least, frame⟩ := message2Pars_items_least items c' w fuel'
      (fun j mem => proper j (List.mem_cons_of_mem _ mem)) follow (List.pairwise_append.mp distinct).2.1 run
    -- later items do not touch the codes of this one
    have kept : i.written w = i.written c' := Item.written_congr fun d mem => by
      rcases distinct.apart (i.shown_subset c' mem) with fresh | rfl
      · exact frame d fresh
      · trivial
    refine ⟨?_, fun e out => ?_⟩
    · simp only [image, List.flatMap_cons, List.length_append, kept] at least ⊢
      omega
    · simp only [List.flatMap_cons, List.mem_append, not_or] at out
      exact (frame e out.2).trans (before e out.1)

end Capi4Linux.Capiutil
