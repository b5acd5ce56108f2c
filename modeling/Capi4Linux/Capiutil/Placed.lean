import Capi4Linux.Capiutil.Format
import Capi4Linux.Lib.Memory
import Capi4Linux.Lib.Sprintf

/-!
# Where the values of a message are

The decoder reads a buffer that is a part of memory. Where it gets through, the
values it leaves behind sit in memory one behind the other, each as the bytes
it is encoded by; the length of a composite may be any (`message2Pars_sits`).
-/

namespace Capi4Linux.Capiutil
open Bytes Sprintf Memory

variable {mem : Nat → UInt8} {m : Bytes}

/-! ## Reading memory -/

section Reading

variable {l n : Nat}

theorem starts_image (bs : Bytes) (beyond : Nat → UInt8) : Starts (Memory.image bs beyond) bs := by
  intro i b found
  unfold Memory.image
  rw [List.getD_eq_getElem?_getD, found]
  rfl

/-- The bytes of the message are those in memory. -/
theorem peek_memory (same : Starts mem m) :
    peek m l n = if l + n ≤ m.length then some ((List.range' l n).map mem) else none := by
  unfold peek
  split
  · rename_i inside
    rw [same.slice inside]
  · rfl

theorem getElem?_memory (same : Starts mem m) : m[l]? = if l < m.length then some (mem l) else none := by
  split
  · rename_i inside
    rw [same l _ (List.getElem?_eq_getElem inside)]
    exact List.getElem?_eq_getElem inside
  · rename_i outside
    exact List.getElem?_eq_none (Nat.le_of_not_lt outside)

end Reading

/-! ## Items in memory -/

/-- The item has the values of `src` and goes from the one offset to the other. -/
inductive Item.Sits (mem : Nat → UInt8) (src : Cmsg) : Item → Nat → Nat → Prop
  | par {d : Cdef} {l : Nat} (held : Holds mem l (src.encoded d)) : Sits mem src (.par d) l (l + (src.encoded d).length)
  | default {f : CmstructField} {members : List Cdef} {l : Nat} (kind : src.cmstruct f = .default) (zero : mem l = 0) :
      Sits mem src (.comp f members) l (l + 1)
  | compose {f : CmstructField} {members : List Cdef} {l width : Nat} (kind : src.cmstruct f = .compose)
      (filled : mem l ≠ 0) (form : width = if mem l = 255 then 3 else 1)
      (held : Holds mem (l + width) (src.content members)) :
      Sits mem src (.comp f members) l (l + width + (src.content members).length)

inductive ItemsSit (mem : Nat → UInt8) (src : Cmsg) : List Item → Nat → Nat → Prop
  | nil (l : Nat) : ItemsSit mem src [] l l
  | cons {i : Item} {items : List Item} {l l' l'' : Nat} (first : i.Sits mem src l l')
      (others : ItemsSit mem src items l' l'') : ItemsSit mem src (i :: items) l l''

/-! ## The decoder -/

section Decoder

variable {c c' w : Cmsg} {d : Cdef} {fuel : Nat}

theorem Cmsg.read_m (read : c.read d = some c') : c'.m = c.m := by
  cases d with
  | word f =>
    obtain ⟨a, -, rfl⟩ := Option.map_eq_some_iff.mp read
    rfl
  | dword f =>
    obtain ⟨a, -, rfl⟩ := Option.map_eq_some_iff.mp read
    rfl
  | cstruct f =>
    obtain ⟨size, -, rfl⟩ := Option.map_eq_some_iff.mp read
    rfl
  | cmstruct f => cases read
  | cend => cases read

/-- What is read is encoded by the bytes it was read from. -/
theorem Cmsg.read_holds (same : Starts mem c.m) (read : c.read d = some c') {bs : Bytes} (bytes : c'.bytes d = some bs) :
    Holds mem c.l bs ∧ c'.l = c.l + bs.length := by
  have number : ∀ {n : Nat} {a : Bytes}, peek c.m c.l n = some a → Holds mem c.l a ∧ a.length = n := by
    intro n a found
    have size := peek_length found
    rw [peek_memory same] at found
    split at found
    · refine ⟨?_, size⟩
      unfold Holds
      rw [size]
      exact Option.some.inj found
    · cases found
  have back : ∀ a : Bytes, le a.length (leNat a % 256 ^ a.length) = a := by
    intro a
    rw [Nat.mod_eq_of_lt (leNat_lt a), le_leNat]
  cases d with
  | word f =>
    obtain ⟨a, found, rfl⟩ := Option.map_eq_some_iff.mp read
    obtain ⟨held, size⟩ := number found
    have value : bs = a := by
      have restored := back a
      rw [size] at restored
      rw [← restored]
      have stored := Option.some.inj bytes
      simp only [Function.update_self, UInt16.toNat_ofNat'] at stored
      exact stored.symm
    rw [value, size]
    exact ⟨held, rfl⟩
  | dword f =>
    obtain ⟨a, found, rfl⟩ := Option.map_eq_some_iff.mp read
    obtain ⟨held, size⟩ := number found
    have value : bs = a := by
      have restored := back a
      rw [size] at restored
      rw [← restored]
      have stored := Option.some.inj bytes
      simp only [Function.update_self, UInt32.toNat_ofNat'] at stored
      exact stored.symm
    rw [value, size]
    exact ⟨held, rfl⟩
  | cstruct f =>
    obtain ⟨size, sized, rfl⟩ := Option.map_eq_some_iff.mp read
    simp only [Cmsg.bytes, Function.update_self, structBytes, sized, Option.bind_eq_bind, Option.bind_some] at bytes
    have length := peek_length bytes
    obtain ⟨n, first, -⟩ := Option.bind_eq_some_iff.mp sized
    have filled : 0 < (c.m.drop c.l).length := (List.getElem?_eq_some_iff.mp first).1
    rw [List.length_drop] at filled
    have whole : peek c.m c.l size = some bs := by
      unfold peek at bytes ⊢
      rw [List.length_drop, List.drop_zero] at bytes
      split at bytes
      · rw [if_pos (by omega)]
        exact bytes
      · cases bytes
    rw [length]
    exact ⟨(number whole).1, rfl⟩
  | cmstruct f => cases read
  | cend => cases read

/-- The members of a composite. -/
theorem message2Pars_members_sit {rest : List Cdef} (ds : List Cdef) (same : Starts mem c.m)
    (plain : ∀ d ∈ ds, d.Plain) (reads : c.Reads (ds ++ .cend :: rest)) (distinct : ds.Nodup)
    (run : message2Pars fuel c = some w) (formed : ∀ d ∈ ds, w.bytes d = some (w.encoded d)) :
    Holds mem c.l (w.content ds) ∧ w.l = c.l + (w.content ds).length := by
  induction ds generalizing c fuel with
  | nil =>
    cases fuel with
    | zero => cases run
    | succ fuel =>
      simp only [message2Pars, reads.cons.1, Option.bind_eq_bind, Option.bind_some, Option.some.injEq] at run
      subst run
      exact ⟨rfl, rfl⟩
  | cons d ds ih =>
    cases fuel with
    | zero => cases run
    | succ fuel =>
      rw [message2Pars_plain (plain d List.mem_cons_self) reads.cons.1] at run
      obtain ⟨c', read, run⟩ := Option.bind_eq_some_iff.mp run
      obtain ⟨-, -, par, p⟩ := Cmsg.read_least read
      obtain ⟨fresh, distinct⟩ := List.nodup_cons.mp distinct
      have follow : c'.next.Reads (ds ++ .cend :: rest) := by
        show (c'.par.drop (c'.p + 1)).map _ = _
        rw [par, p]
        exact reads.cons.2
      have plain' : ∀ e ∈ ds, e.Plain := fun e member => plain e (List.mem_cons_of_mem _ member)
      -- later members do not touch this one
      have kept := (message2Pars_members_least ds c'.next w fuel plain' follow distinct run).2.1 d fresh
      have bytes : c'.bytes d = some (w.encoded d) := by
        rw [← formed d List.mem_cons_self, kept.bytes]
        rfl
      obtain ⟨held, l⟩ := c.read_holds same read bytes
      have m := Cmsg.read_m read
      have same' : Starts mem c'.next.m := by
        show Starts mem c'.m
        rw [m]
        exact same
      obtain ⟨behind, last⟩ := ih same' plain' follow distinct run
        fun e member => formed e (List.mem_cons_of_mem _ member)
      have here : c'.next.l = c.l + (w.encoded d).length := l
      rw [here] at behind last
      refine ⟨holds_append.mpr ⟨held, behind⟩, ?_⟩
      show w.l = c.l + (w.encoded d ++ w.content ds).length
      rw [last, List.length_append]
      omega

/-- A composed composite sits where its members were read, for every `_cmsg` with its values. -/
theorem message2Pars_composed_sits {f : CmstructField} {members ds : List Cdef} {n : UInt8} {c' : Cmsg}
    (same : Starts mem c.m) (proper : (Item.comp f members).Proper) (reads : c.Reads ((Item.comp f members).defs ++ ds))
    (distinct : Distinct (Item.comp f members).defs) (first : mem c.l = n) (filled : n ≠ 0)
    (inner : message2Pars fuel
      { c with
        cmstruct := Function.update c.cmstruct f .compose
        l := if n = 255 then c.l + 3 else c.l + 1
        p := c.p + 1 } = some c') :
    c'.next.Reads ds ∧ ∀ src : Cmsg, src.Sound →
      (∀ d ∈ (Item.comp f members).shown c'.next, SameValue src c'.next d) →
        (Item.comp f members).Sits mem src c.l c'.next.l := by
  simp only [Item.defs, List.cons_append, List.append_assoc, List.nil_append] at reads
  have members_distinct := distinct.members proper
  obtain ⟨-, others, last⟩ := message2Pars_members_least members
    { c with
      cmstruct := Function.update c.cmstruct f .compose
      l := if n = 255 then c.l + 3 else c.l + 1
      p := c.p + 1 }
    c' fuel proper.2 reads.cons.2 members_distinct inner
  have kind : c'.cmstruct f = .compose := by
    have kept := others (.cmstruct f) fun member => proper.2 _ member
    exact Eq.trans kept (Function.update_self _ _ _)
  refine ⟨last.cons.2, ?_⟩
  intro src sound values
  have shown : (Item.comp f members).shown c'.next = .cmstruct f :: members := by
    simp only [Item.shown, show c'.next.cmstruct f = .compose from kind]
  rw [shown] at values
  have composed : src.cmstruct f = .compose := Eq.trans (values (.cmstruct f) List.mem_cons_self) kind
  have bytes : ∀ d ∈ members, c'.bytes d = src.bytes d := fun d member =>
    (values d (List.mem_cons_of_mem _ member)).symm.bytes
  have encoded : ∀ d ∈ members, c'.encoded d = src.encoded d := fun d member =>
    congrArg (Option.getD · []) (bytes d member)
  have content : c'.content members = src.content members := List.flatMap_congr encoded
  obtain ⟨held, l⟩ := @message2Pars_members_sit mem
    { c with
      cmstruct := Function.update c.cmstruct f .compose
      l := if n = 255 then c.l + 3 else c.l + 1
      p := c.p + 1 }
    c' fuel ds members same proper.2 reads.cons.2 members_distinct inner
    fun d member => by rw [bytes d member, encoded d member, sound.bytes d]
  have width : (if n = 255 then c.l + 3 else c.l + 1) = c.l + if mem c.l = 255 then 3 else 1 := by
    rw [first]
    split
    · rfl
    · rfl
  rw [content] at held l
  rw [width] at held l
  have there : c'.next.l = c.l + (if mem c.l = 255 then 3 else 1) + (src.content members).length := l
  rw [there]
  exact .compose composed (first ▸ filled) rfl held

/-- One item: it sits where it was read, for every `_cmsg` with its values. -/
theorem message2Pars_item_sits {i : Item} {ds : List Cdef} (same : Starts mem c.m) (proper : i.Proper)
    (reads : c.Reads (i.defs ++ ds)) (distinct : Distinct i.defs) (run : message2Pars fuel c = some w) :
    ∃ fuel' c', message2Pars fuel' c' = some w ∧ c'.Reads ds ∧ c'.m = c.m ∧
      ∀ src : Cmsg, src.Sound → (∀ d ∈ i.shown c', SameValue src c' d) → i.Sits mem src c.l c'.l := by
  cases fuel with
  | zero => cases run
  | succ fuel =>
    cases i with
    | par d =>
      rw [message2Pars_plain proper reads.cons.1] at run
      obtain ⟨c', read, run⟩ := Option.bind_eq_some_iff.mp run
      obtain ⟨-, -, par, p⟩ := Cmsg.read_least read
      have kept := Cmsg.read_m read
      refine ⟨fuel, c'.next, run, ?_, kept, ?_⟩
      · show (c'.par.drop (c'.p + 1)).map _ = _
        rw [par, p]
        exact reads.cons.2
      · intro src sound values
        have bytes : c'.bytes d = some (src.encoded d) := by
          rw [← sound.bytes d, (values d (List.mem_singleton.mpr rfl)).bytes]
          rfl
        obtain ⟨held, l⟩ := c.read_holds same read bytes
        have there : c'.next.l = c.l + (src.encoded d).length := l
        rw [there]
        exact .par held
    | comp f members =>
      have code : c.typ = some (.cmstruct f) := reads.cons.1
      simp only [message2Pars, code, Option.bind_eq_bind, Option.bind_some] at run
      obtain ⟨n, byte, run⟩ := Option.bind_eq_some_iff.mp run
      have first : mem c.l = n := same c.l n byte
      by_cases zero : n = 0
      · rw [if_pos zero] at run
        obtain ⟨p, jump, there⟩ := @jumpcstruct_eq
          { c with cmstruct := Function.update c.cmstruct f .default, l := c.l + 1 } f members ds proper reads
        rw [jump] at run
        refine ⟨fuel, _, run, there.cons.2, rfl, ?_⟩
        intro src sound values
        have left_out : Function.update c.cmstruct f .default f = .default := Function.update_self _ _ _
        have kind : src.cmstruct f = .default := by
          have shown := values (.cmstruct f) (by simp [Item.shown, Cmsg.next])
          exact Eq.trans shown left_out
        exact .default kind (first.trans zero)
      · rw [if_neg zero] at run
        obtain ⟨c', inner, run⟩ := Option.bind_eq_some_iff.mp run
        obtain ⟨follow, sits⟩ := message2Pars_composed_sits same proper reads distinct first zero inner
        exact ⟨fuel, c'.next, run, follow, (message2Pars_frame fuel _ c' inner).2.2.2, sits⟩

/-- The values of a message that is decoded sit one behind the other. -/
theorem message2Pars_sits {rest : List Cdef} (items : List Item) (same : Starts mem c.m) (proper : ∀ i ∈ items, i.Proper)
    (reads : c.Reads (items.flatMap Item.defs ++ .cend :: rest)) (distinct : Distinct (items.flatMap Item.defs))
    (run : message2Pars fuel c = some w) (sound : w.Sound) : ItemsSit mem w items c.l w.l := by
  induction items generalizing c fuel with
  | nil =>
    cases fuel with
    | zero => cases run
    | succ fuel =>
      simp only [message2Pars, reads.cons.1, Option.bind_eq_bind, Option.bind_some, Option.some.injEq] at run
      subst run
      exact .nil _
  | cons i items ih =>
    simp only [List.flatMap_cons, List.append_assoc] at reads distinct
    have apart := List.pairwise_append.mp distinct
    obtain ⟨fuel', c', run', follow, m, sits⟩ := message2Pars_item_sits same (proper i List.mem_cons_self) reads
      apart.1 run
    have proper' : ∀ j ∈ items, j.Proper := fun j member => proper j (List.mem_cons_of_mem _ member)
    rw [← m] at same
    -- later items do not touch what this one shows
    have kept : ∀ d ∈ i.shown c', SameValue w c' d := by
      intro d member
      rcases distinct.apart (i.shown_subset c' member) with fresh | rfl
      · exact (message2Pars_items_least items c' w fuel' proper' follow apart.2.1 run').2 d fresh
      · trivial
    exact .cons (sits w sound kept) (ih same proper' follow apart.2.1 run')

end Decoder

end Capi4Linux.Capiutil
