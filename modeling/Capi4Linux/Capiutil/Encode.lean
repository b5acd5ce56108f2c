import Capi4Linux.Capiutil.Template

/-!
# What the encoder writes

`pars_2_message` writes every item in its format, but `l` counts one length
byte for a composite also when the long form was written: the next item starts
two bytes too early. `Item.written` is the part of an item that stays.
-/

namespace Capi4Linux.Capiutil
open Bytes

namespace Item

/-- The bytes of an item that `l` counts. -/
def written (cmsg : Cmsg) : Item → Bytes
  | par d => cmsg.encoded d
  | comp f members =>
    match cmsg.cmstruct f with
    | .default => [0]
    | .compose =>
      (lengthPrefix (cmsg.content members).length ++ cmsg.content members).take
        (1 + (cmsg.content members).length)

end Item

/-- The message the encoder leaves behind the header. -/
def image (cmsg : Cmsg) (items : List Item) : Bytes := items.flatMap (Item.written cmsg)

@[simp] theorem length_lengthPrefix (n : Nat) : (lengthPrefix n).length = if n < 255 then 1 else 3 := by
  unfold lengthPrefix
  split <;> simp

/-- A short item is written whole. -/
theorem Item.Short.written {cmsg : Cmsg} {i : Item} (short : i.Short cmsg) :
    i.written cmsg = i.encode cmsg := by
  cases i with
  | par d => rfl
  | comp f members =>
    cases kind : cmsg.cmstruct f with
    | default => simp [Item.written, Item.encode, kind]
    | compose =>
      have below := short kind
      simp only [Item.written, Item.encode, kind]
      exact List.take_of_length_le (by simp [below])

theorem image_of_short {cmsg : Cmsg} {items : List Item} (short : ∀ i ∈ items, i.Short cmsg) :
    image cmsg items = items.flatMap (Item.encode cmsg) := by
  unfold image
  induction items with
  | nil => rfl
  | cons i items ih =>
    have head := (short i List.mem_cons_self).written
    have tail := ih fun j mem => short j (List.mem_cons_of_mem _ mem)
    simp only [List.flatMap_cons, head, tail]

theorem Item.length_written_le (cmsg : Cmsg) (i : Item) :
    (i.written cmsg).length ≤ (i.encode cmsg).length := by
  cases i with
  | par d => exact Nat.le_refl _
  | comp f members =>
    cases kind : cmsg.cmstruct f with
    | default => simp [Item.written, Item.encode, kind]
    | compose =>
      simp only [Item.written, Item.encode, kind]
      exact List.length_take_le' _ _

namespace Cmsg

/-- The message is `front` up to the cursor and `rest` behind it. -/
def placed (cmsg : Cmsg) (p : Nat) (front rest : Bytes) : Cmsg :=
  { cmsg with p, l := front.length, m := front ++ rest }

theorem write_placed {cmsg : Cmsg} {p : Nat} {a r bs : Bytes} (room : bs.length ≤ r.length) :
    (cmsg.placed p a r).write bs = some (cmsg.placed p (a ++ bs) (r.drop bs.length)) := by
  simp [write, placed, poke_append room]

/-- Closing a composite writes its length, and in the long form keeps `l` where it was. -/
theorem close_placed {cmsg : Cmsg} {p : Nat} {a c r : Bytes} {x : UInt8}
    (room : 255 ≤ c.length → 2 ≤ r.length) :
    ∃ r', r'.length = r.length ∧ (c.length < 255 → r' = r) ∧ (cmsg.placed p (a ++ [x] ++ c) r).close a.length =
      some (cmsg.placed p (a ++ (lengthPrefix c.length ++ c).take (1 + c.length)) r') := by
  have size : (a ++ [x] ++ c).length - a.length - 1 = c.length := by
    simp only [List.length_append, List.length_singleton]
    omega
  by_cases short : c.length < 255
  · refine ⟨r, rfl, fun _ => rfl, ?_⟩
    have whole : (lengthPrefix c.length ++ c).take (1 + c.length) = UInt8.ofNat c.length :: c := by
      rw [lengthPrefix, if_pos short]
      apply List.take_of_length_le
      rw [List.length_append, List.length_singleton]
    have write : poke (a ++ [x] ++ c ++ r) a.length [UInt8.ofNat c.length] =
        some (a ++ (UInt8.ofNat c.length :: c) ++ r) := by
      have := @poke_append a ([x] ++ c ++ r) [UInt8.ofNat c.length] (by simp)
      simpa using this
    have counted : (a ++ (UInt8.ofNat c.length :: c)).length = (a ++ [x] ++ c).length := by simp
    simp only [close, placed, size, if_pos short, write, whole, counted, Option.bind_eq_bind, Option.bind_some]
  · obtain ⟨c₀, c₁, c', rfl⟩ : ∃ c₀ c₁ c', c = c₀ :: c₁ :: c' := by
      match c, short with
      | [], short => exact (short (by simp)).elim
      | [_], short => exact (short (by simp)).elim
      | c₀ :: c₁ :: c', _ => exact ⟨c₀, c₁, c', rfl⟩
    generalize content : c₀ :: c₁ :: c' = c at *
    have length : c.length = c'.length + 2 := by rw [← content]; rfl
    have space := room (by omega)
    have read : peek (a ++ [x] ++ c ++ r) (a.length + 1) c.length = some c := by
      simpa using peek_append (a ++ [x]) c r
    have move : poke (a ++ [x] ++ c ++ r) (a.length + 3) c =
        some (a ++ ([x, c₀, c₁] ++ (c ++ (c' ++ r).drop c.length))) := by
      have := @poke_append (a ++ [x, c₀, c₁]) (c' ++ r) c (by simp only [List.length_append]; omega)
      rw [← content] at this ⊢
      simpa using this
    have mark : poke (a ++ ([x, c₀, c₁] ++ (c ++ (c' ++ r).drop c.length))) a.length [0xff] =
        some (a ++ ([0xff, c₀, c₁] ++ (c ++ (c' ++ r).drop c.length))) := by
      rw [poke_append (by simp)]
      simp
    have count : poke (a ++ ([0xff, c₀, c₁] ++ (c ++ (c' ++ r).drop c.length))) (a.length + 1) (le 2 c.length) =
        some (a ++ (lengthPrefix c.length ++ c ++ (c' ++ r).drop c.length)) := by
      have := @poke_append (a ++ [0xff]) ([c₀, c₁] ++ (c ++ (c' ++ r).drop c.length)) (le 2 c.length) (by simp)
      simpa [lengthPrefix, short] using this
    refine ⟨(lengthPrefix c.length ++ c).drop (1 + c.length) ++ (c' ++ r).drop c.length, ?_, fun small => absurd small short, ?_⟩
    · simp only [List.length_append, List.length_drop, length_lengthPrefix, if_neg short]
      omega
    · have counted : (a ++ (lengthPrefix c.length ++ c).take (1 + c.length)).length = (a ++ [x] ++ c).length := by
        simp only [List.length_append, List.length_take, length_lengthPrefix, if_neg short, List.length_singleton]
        omega
      have whole : a ++ (lengthPrefix c.length ++ c).take (1 + c.length) ++
          ((lengthPrefix c.length ++ c).drop (1 + c.length) ++ (c' ++ r).drop c.length) =
          a ++ (lengthPrefix c.length ++ c ++ (c' ++ r).drop c.length) := by
        rw [List.append_assoc, ← List.append_assoc (List.take _ _), List.take_append_drop]
      simp only [close, placed, size, if_neg short, read, move, mark, count, counted, whole, Option.bind_eq_bind,
        Option.bind_some]

end Cmsg

/-! ## The walk -/

section Walk

variable {cmsg : Cmsg}

/-- A plain parameter is written behind the cursor. -/
theorem pars2Message_plain {d : Cdef} {ds : List Cdef} {p : Nat} {a r : Bytes} (plain : d.Plain)
    (readable : cmsg.Readable d) (reads : (cmsg.placed p a r).Reads (d :: ds))
    (room : (cmsg.encoded d).length ≤ r.length) (fuel : Nat) :
    pars2Message (fuel + 1) (cmsg.placed p a r) =
      pars2Message fuel (cmsg.placed (p + 1) (a ++ cmsg.encoded d) (r.drop (cmsg.encoded d).length)) := by
  have typ := reads.cons.1
  have bytes := readable.bytes
  have write := @Cmsg.write_placed cmsg p a r _ room
  cases d with
  | word f =>
    simp only [pars2Message, typ, Option.bind_eq_bind, Option.bind_some]
    erw [write]; rfl
  | dword f =>
    simp only [pars2Message, typ, Option.bind_eq_bind, Option.bind_some]
    erw [write]; rfl
  | cstruct f =>
    have read : structBytes ((cmsg.placed p a r).cstruct f) = some (cmsg.encoded (.cstruct f)) := bytes
    simp only [pars2Message, typ, read, Option.bind_eq_bind, Option.bind_some, write]
    rfl
  | cmstruct f => exact plain.elim
  | cend => exact plain.elim

/-- The members of a composite are written one behind the other. -/
theorem pars2Message_members {rest : List Cdef} : ∀ (members : List Cdef) (p : Nat) (a r : Bytes) (fuel : Nat),
    (∀ d ∈ members, d.Plain) → (∀ d ∈ members, cmsg.Readable d) →
    (cmsg.placed p a r).Reads (members ++ .cend :: rest) → (cmsg.content members).length ≤ r.length → members.length < fuel →
    ∃ p', pars2Message fuel (cmsg.placed p a r) =
        some (cmsg.placed p' (a ++ cmsg.content members) (r.drop (cmsg.content members).length)) ∧
      ∀ a r, (cmsg.placed p' a r).Reads (.cend :: rest)
  | [], p, a, r, fuel + 1, _, _, reads, _, _ => by
    refine ⟨p, ?_, fun _ _ => reads⟩
    simp [pars2Message, reads.cons.1, Cmsg.content]
  | d :: ds, p, a, r, fuel + 1, plain, readable, reads, room, enough => by
    simp only [Cmsg.content, List.flatMap_cons, List.length_append, List.length_cons] at room enough
    have step := pars2Message_plain (plain d List.mem_cons_self) (readable d List.mem_cons_self) reads
      (by omega) fuel
    obtain ⟨p', run, there⟩ := pars2Message_members ds (p + 1) (a ++ cmsg.encoded d) (r.drop (cmsg.encoded d).length)
      fuel (fun e mem => plain e (List.mem_cons_of_mem _ mem)) (fun e mem => readable e (List.mem_cons_of_mem _ mem))
      reads.cons.2
      (by simp only [Cmsg.content, List.length_drop]; omega) (by omega)
    refine ⟨p', ?_, there⟩
    rw [step, run]
    simp [Cmsg.content, List.append_assoc]

/-- One item: the part `written` stays before the cursor, and a short item leaves what follows it alone. -/
theorem pars2Message_item {i : Item} {ds : List Cdef} {p : Nat} {a r : Bytes} {fuel : Nat} (proper : i.Proper)
    (readable : i.Readable cmsg) (reads : (cmsg.placed p a r).Reads (i.defs ++ ds)) (room : (i.encode cmsg).length ≤ r.length)
    (enough : i.defs.length ≤ fuel) :
    ∃ p' r', pars2Message (fuel + 1) (cmsg.placed p a r) =
        pars2Message fuel (cmsg.placed p' (a ++ i.written cmsg) r') ∧
      (∀ a r, (cmsg.placed p' a r).Reads ds) ∧ r'.length + (i.written cmsg).length = r.length ∧
      (i.Short cmsg → r' = r.drop (i.written cmsg).length) := by
  cases i with
  | par d =>
    have step := pars2Message_plain proper readable reads room fuel
    refine ⟨p + 1, _, step, fun _ _ => reads.cons.2, ?_, fun _ => rfl⟩
    simp only [Item.encode] at room
    simp only [Item.written, List.length_drop]
    omega
  | comp f members =>
    have typ := reads.cons.1
    cases kind : cmsg.cmstruct f with
    | default =>
      simp only [Item.encode, Item.written, kind] at room ⊢
      have write := @Cmsg.write_placed cmsg p a r [0] room
      obtain ⟨p', jump, there⟩ := @jumpcstruct_eq (cmsg.placed p (a ++ [0]) (r.drop 1)) f members ds proper reads
      have kind' : (cmsg.placed p a r).cmstruct f = .default := kind
      refine ⟨p' + 1, r.drop 1, ?_, fun _ _ => there.cons.2, ?_, fun _ => rfl⟩
      · simp only [List.length_singleton] at write
        simp only [pars2Message, typ, kind', write, jump, Option.bind_eq_bind, Option.bind_some]
        rfl
      · simp only [List.length_singleton, List.length_drop] at room ⊢
        omega
    | compose =>
      simp only [Item.encode, Item.written, kind, List.length_append, length_lengthPrefix] at room ⊢
      obtain ⟨x, r₁, rfl⟩ : ∃ x r₁, r = x :: r₁ := by
        cases r with
        | nil => simp only [List.length_nil] at room; split at room <;> omega
        | cons x r₁ => exact ⟨x, r₁, rfl⟩
      have space : (cmsg.content members).length ≤ r₁.length ∧
          (255 ≤ (cmsg.content members).length → (cmsg.content members).length + 2 ≤ r₁.length) := by
        simp only [List.length_cons] at room
        split at room <;> omega
      simp only [Item.defs, List.length_cons, List.length_append, List.cons_append, List.append_assoc,
        List.nil_append] at reads enough
      obtain ⟨p', run, there⟩ := pars2Message_members members (p + 1) (a ++ [x]) r₁ fuel proper.2
        (readable kind) reads.cons.2 space.1 (by simp at enough; omega)
      have start : (cmsg.placed (p + 1) (a ++ [x]) r₁) =
          { cmsg.placed p a (x :: r₁) with l := (cmsg.placed p a (x :: r₁)).l + 1, p := p + 1 } := by
        simp [Cmsg.placed]
      obtain ⟨r', same, untouched, close⟩ := @Cmsg.close_placed cmsg p' a (cmsg.content members)
        (r₁.drop (cmsg.content members).length) x (by simp only [List.length_drop]; omega)
      have kind' : (cmsg.placed p a (x :: r₁)).cmstruct f = .compose := kind
      rw [start] at run
      refine ⟨p' + 1, r', ?_, fun _ _ => (there [] []).cons.2, ?_, ?_⟩
      · simp only [pars2Message, typ, kind', Option.bind_eq_bind, Option.bind_some]
        erw [run]
        simp only [Option.bind_some]
        erw [close]
        rfl
      · simp only [List.length_drop] at same
        simp only [List.length_take, List.length_append, length_lengthPrefix, List.length_cons]
        split <;> omega
      · intro short
        have below := short kind
        rw [untouched below, List.length_take, List.length_append, length_lengthPrefix, if_pos below, Nat.min_self,
          Nat.add_comm 1]
        rfl

/-- All items of a template. -/
theorem pars2Message_items {rest : List Cdef} : ∀ (items : List Item) (p : Nat) (a r : Bytes) (fuel : Nat),
    (∀ i ∈ items, i.Proper) → (∀ i ∈ items, i.Readable cmsg) →
    (cmsg.placed p a r).Reads (items.flatMap Item.defs ++ .cend :: rest) →
    (items.flatMap (Item.encode cmsg)).length ≤ r.length → (items.flatMap Item.defs).length < fuel →
    ∃ p' r', pars2Message fuel (cmsg.placed p a r) = some (cmsg.placed p' (a ++ image cmsg items) r') ∧
      ((∀ i ∈ items, i.Short cmsg) → r' = r.drop (image cmsg items).length)
  | [], p, a, r, fuel + 1, _, _, reads, _, _ => by
    refine ⟨p, r, ?_, fun _ => rfl⟩
    simp [pars2Message, reads.cons.1, image]
  | i :: items, p, a, r, fuel + 1, proper, readable, reads, room, enough => by
    simp only [List.flatMap_cons, List.length_append, List.append_assoc] at reads room enough
    obtain ⟨p₁, r₁, step, follow, left, behind⟩ := pars2Message_item (proper i List.mem_cons_self)
      (readable i List.mem_cons_self) reads (by omega) (show i.defs.length ≤ fuel by omega)
    have shrink := i.length_written_le cmsg
    have filled : 0 < i.defs.length := by cases i <;> simp [Item.defs]
    obtain ⟨p', r', run, rest⟩ := pars2Message_items items p₁ (a ++ i.written cmsg) r₁ fuel
      (fun j mem => proper j (List.mem_cons_of_mem _ mem)) (fun j mem => readable j (List.mem_cons_of_mem _ mem))
      (follow _ _) (by omega) (by omega)
    refine ⟨p', r', ?_, fun short => ?_⟩
    · rw [step, run]
      simp [image, List.append_assoc]
    · rw [rest fun j mem => short j (List.mem_cons_of_mem _ mem), behind (short i List.mem_cons_self), List.drop_drop,
        image, image, List.flatMap_cons, List.length_append]

end Walk

end Capi4Linux.Capiutil
