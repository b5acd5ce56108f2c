import Capi4Linux.Capiutil.RoundTrip

/-!
# The room an encoder needs

The encoder has no result when it leaves its buffer. Every turn moves `l` over
the bytes it writes, so a buffer that a message was encoded into holds the
message; for a buffer below 264 bytes this is exact, since a composite in the
long form does not fit into it. The encoder reads the structs of its template
and no others.
-/

namespace Capi4Linux.Capiutil
open Bytes

/-- What is written fits. -/
theorem poke_fits {m m' bs : Bytes} {off : Nat} (write : poke m off bs = some m') : off + bs.length ≤ m.length := by
  unfold poke at write
  split at write
  · assumption
  · cases write

/-- The encoder has the same parameters, and its buffer the same size. -/
structure Kept (c c' : Cmsg) : Prop where
  word : c'.word = c.word
  dword : c'.dword = c.dword
  cstruct : c'.cstruct = c.cstruct
  cmstruct : c'.cmstruct = c.cmstruct
  par : c'.par = c.par
  size : c'.m.length = c.m.length

namespace Kept

variable {a b c : Cmsg}

theorem refl (c : Cmsg) : Kept c c := ⟨rfl, rfl, rfl, rfl, rfl, rfl⟩

theorem trans (first : Kept a b) (second : Kept b c) : Kept a c where
  word := second.word.trans first.word
  dword := second.dword.trans first.dword
  cstruct := second.cstruct.trans first.cstruct
  cmstruct := second.cmstruct.trans first.cmstruct
  par := second.par.trans first.par
  size := second.size.trans first.size

theorem bytes (kept : Kept a b) (d : Cdef) : b.bytes d = a.bytes d := by
  cases d with
  | word f => rw [Cmsg.bytes, kept.word]; rfl
  | dword f => rw [Cmsg.bytes, kept.dword]; rfl
  | cstruct f => rw [Cmsg.bytes, kept.cstruct]; rfl
  | cmstruct f => rfl
  | cend => rfl

theorem encoded (kept : Kept a b) (d : Cdef) : b.encoded d = a.encoded d := congrArg (·.getD []) (kept.bytes d)

theorem readable (kept : Kept a b) {d : Cdef} (readable : b.Readable d) : a.Readable d := by
  obtain ⟨bs, read⟩ := readable
  exact ⟨bs, (kept.bytes d).symm.trans read⟩

theorem item_readable (kept : Kept a b) {i : Item} (readable : i.Readable b) : i.Readable a := by
  cases i with
  | par d => exact kept.readable readable
  | comp f members => exact fun kind d member => kept.readable (readable (by rw [kept.cmstruct, kind]) d member)

theorem content (kept : Kept a b) (members : List Cdef) : b.content members = a.content members :=
  List.flatMap_congr fun d _ => kept.encoded d

theorem written (kept : Kept a b) (i : Item) : i.written b = i.written a := by
  cases i with
  | par d => exact kept.encoded d
  | comp f members => rw [Item.written, Item.written, kept.cmstruct, kept.content]

theorem image (kept : Kept a b) (items : List Item) : Capiutil.image b items = Capiutil.image a items :=
  List.flatMap_congr fun i _ => kept.written i

end Kept

/-- The encoder has moved over `n` bytes, the last of them inside the buffer. -/
structure Advances (c c' : Cmsg) (n : Nat) : Prop extends Kept c c' where
  moved : c'.l = c.l + n
  inside : n ≠ 0 → c'.l ≤ c.m.length

theorem Advances.trans {a b c : Cmsg} {n k : Nat} (first : Advances a b n) (second : Advances b c k) :
    Advances a c (n + k) where
  toKept := first.toKept.trans second.toKept
  moved := by rw [second.moved, first.moved, Nat.add_assoc]
  inside nonzero := by
    rcases Nat.eq_zero_or_pos k with rfl | positive
    · have moved := second.moved
      rw [moved, Nat.add_zero]
      exact first.inside nonzero
    · rw [← first.size]
      exact second.inside (Nat.ne_of_gt positive)

/-- The parameter codes are looked at elsewhere. -/
theorem Advances.skip {c c' : Cmsg} {n : Nat} (advances : Advances c c' n) (p : Nat) : Advances c { c' with p } n where
  word := advances.word
  dword := advances.dword
  cstruct := advances.cstruct
  cmstruct := advances.cmstruct
  par := advances.par
  size := advances.size
  moved := advances.moved
  inside := advances.inside

/-- A write advances by its length. -/
theorem write_advances {c c' : Cmsg} {bs : Bytes} (write : c.write bs = some c') :
    Advances c c' bs.length ∧ c'.p = c.p := by
  obtain ⟨m, poked, same⟩ := Option.bind_eq_some_iff.mp write
  cases same
  have fits := poke_fits poked
  refine ⟨⟨⟨rfl, rfl, rfl, rfl, rfl, poke_length poked⟩, rfl, fun _ => fits⟩, rfl⟩

/-- The length byte of a composite is not part of its content. -/
theorem close_kept {c c' : Cmsg} {l₀ : Nat} (close : c.close l₀ = some c') : Kept c c' ∧ c'.l = c.l ∧ c'.p = c.p := by
  unfold Cmsg.close at close
  simp only at close
  split at close
  · obtain ⟨m, poked, same⟩ := Option.bind_eq_some_iff.mp close
    cases same
    exact ⟨⟨rfl, rfl, rfl, rfl, rfl, poke_length poked⟩, rfl, rfl⟩
  · obtain ⟨bs, -, close⟩ := Option.bind_eq_some_iff.mp close
    obtain ⟨m₁, first, close⟩ := Option.bind_eq_some_iff.mp close
    obtain ⟨m₂, second, close⟩ := Option.bind_eq_some_iff.mp close
    obtain ⟨m₃, third, same⟩ := Option.bind_eq_some_iff.mp close
    cases same
    have size := (poke_length third).trans ((poke_length second).trans (poke_length first))
    exact ⟨⟨rfl, rfl, rfl, rfl, rfl, size⟩, rfl, rfl⟩

section Walk

variable {c w : Cmsg}

theorem Reads.of_same {c c' : Cmsg} {ds : List Cdef} (par : c'.par = c.par) (p : c'.p = c.p) (reads : c.Reads ds) :
    c'.Reads ds := by
  unfold Cmsg.Reads
  rw [par, p]
  exact reads

/-- One turn of the encoder for a plain parameter. -/
theorem pars2Message_plain_advances {d : Cdef} {ds : List Cdef} {fuel : Nat} (plain : d.Plain) (reads : c.Reads (d :: ds))
    (run : pars2Message (fuel + 1) c = some w) : c.Readable d ∧
      ∃ c', pars2Message fuel c' = some w ∧ Advances c c' (c.encoded d).length ∧ c'.Reads ds := by
  obtain ⟨typ, follow⟩ := reads.cons
  have turn : ∀ bs, c.bytes d = some bs → ((c.write bs).bind fun c' => pars2Message fuel c'.next) = some w →
      c.Readable d ∧ ∃ c', pars2Message fuel c' = some w ∧ Advances c c' (c.encoded d).length ∧ c'.Reads ds := by
    intro bs bytes run
    obtain ⟨c', write, run⟩ := Option.bind_eq_some_iff.mp run
    obtain ⟨advances, p⟩ := write_advances write
    have encoded : c.encoded d = bs := by rw [Cmsg.encoded, bytes]; rfl
    rw [encoded]
    refine ⟨⟨bs, bytes⟩, c'.next, run, advances.skip _, ?_⟩
    exact Reads.of_same (show c'.next.par = c.next.par from advances.par) (congrArg (· + 1) p) follow
  cases d with
  | word f =>
    simp only [pars2Message, typ, Option.bind_eq_bind, Option.bind_some] at run
    exact turn _ rfl run
  | dword f =>
    simp only [pars2Message, typ, Option.bind_eq_bind, Option.bind_some] at run
    exact turn _ rfl run
  | cstruct f =>
    simp only [pars2Message, typ, Option.bind_eq_bind, Option.bind_some] at run
    obtain ⟨bs, bytes, run⟩ := Option.bind_eq_some_iff.mp run
    exact turn bs bytes run
  | cmstruct f => exact plain.elim
  | cend => exact plain.elim

/-- Members advance by their content. -/
theorem pars2Message_members_advances {rest : List Cdef} : ∀ (members : List Cdef) (c : Cmsg) (fuel : Nat),
    (∀ d ∈ members, d.Plain) → c.Reads (members ++ .cend :: rest) → pars2Message fuel c = some w →
    (∀ d ∈ members, c.Readable d) ∧ Advances c w (c.content members).length ∧ w.Reads (.cend :: rest)
  | [], c, 0, _, _, run => by cases run
  | _ :: _, c, 0, _, _, run => by cases run
  | [], c, fuel + 1, _, reads, run => by
    simp only [pars2Message, reads.cons.1, Option.bind_eq_bind, Option.bind_some, Option.some.injEq] at run
    subst run
    exact ⟨fun _ member => absurd member List.not_mem_nil, ⟨Kept.refl c, rfl, fun nonzero => absurd rfl nonzero⟩, reads⟩
  | d :: ds, c, fuel + 1, plain, reads, run => by
    obtain ⟨read, c', run, first, follow⟩ := pars2Message_plain_advances (plain d List.mem_cons_self) reads run
    obtain ⟨others, second, last⟩ := pars2Message_members_advances ds c' fuel
      (fun e mem => plain e (List.mem_cons_of_mem _ mem)) follow run
    rw [first.content] at second
    refine ⟨List.forall_mem_cons.mpr ⟨read, fun e member => first.readable (others e member)⟩, ?_, last⟩
    have both := first.trans second
    rwa [Cmsg.content, List.flatMap_cons, List.length_append]

/-- One item moves the encoder over the bytes that stay. -/
theorem pars2Message_item_advances {i : Item} {ds : List Cdef} {fuel : Nat} (proper : i.Proper)
    (reads : c.Reads (i.defs ++ ds)) (run : pars2Message (fuel + 1) c = some w) : i.Readable c ∧
      ∃ c', pars2Message fuel c' = some w ∧ Advances c c' (i.written c).length ∧ c'.Reads ds := by
  cases i with
  | par d => exact pars2Message_plain_advances proper reads run
  | comp f members =>
    obtain ⟨typ, follow⟩ := reads.cons
    cases kind : c.cmstruct f with
    | default =>
      simp only [pars2Message, typ, kind, Option.bind_eq_bind, Option.bind_some] at run
      obtain ⟨c₁, write, run⟩ := Option.bind_eq_some_iff.mp run
      obtain ⟨advances, p⟩ := write_advances write
      have there := Reads.of_same (c := c) advances.par p reads
      obtain ⟨p', jump, stop⟩ := jumpcstruct_eq proper there
      rw [jump, Option.bind_some] at run
      refine ⟨fun compose => ?_, _, run, ?_, stop.cons.2⟩
      · cases kind.symm.trans compose
      simp only [Item.written, kind]
      exact advances.skip _
    | compose =>
      simp only [pars2Message, typ, kind, Option.bind_eq_bind, Option.bind_some] at run
      obtain ⟨c₁, inner, run⟩ := Option.bind_eq_some_iff.mp run
      obtain ⟨c₂, close, run⟩ := Option.bind_eq_some_iff.mp run
      simp only [Item.defs, List.cons_append, List.append_assoc, List.nil_append] at reads
      have begins : Kept c { c with l := c.l + 1, p := c.p + 1 } := ⟨rfl, rfl, rfl, rfl, rfl, rfl⟩
      obtain ⟨readable, advances, last⟩ := pars2Message_members_advances members { c with l := c.l + 1, p := c.p + 1 } fuel proper.2
        reads.cons.2 inner
      obtain ⟨kept, l, p⟩ := close_kept close
      have size : ((Item.comp f members).written c).length = 1 + (c.content members).length := by
        simp only [Item.written, kind, List.length_take, List.length_append, length_lengthPrefix]
        split <;> omega
      have read : ∀ d ∈ members, c.Readable d := fun d member => begins.readable (readable d member)
      have filled := List.length_pos_iff.mpr (Cmsg.content_ne_nil proper.1 proper.2 read)
      have moved : c₁.l = c.l + 1 + (c.content members).length := advances.moved
      have inside : c₁.l ≤ c.m.length := advances.inside (Nat.ne_of_gt filled)
      have counted : Advances c c₂ (1 + (c.content members).length) := by
        refine ⟨(begins.trans advances.toKept).trans kept, ?_, fun _ => ?_⟩
        · omega
        · omega
      refine ⟨fun _ => read, c₂.next, run, size ▸ counted.skip _, ?_⟩
      have stop := Reads.of_same kept.par p last
      exact stop.cons.2

/-- Items advance by their encodings. -/
theorem pars2Message_items_advances {rest : List Cdef} : ∀ (items : List Item) (c : Cmsg) (fuel : Nat),
    (∀ i ∈ items, i.Proper) → c.Reads (items.flatMap Item.defs ++ .cend :: rest) → pars2Message fuel c = some w →
    (∀ i ∈ items, i.Readable c) ∧ Advances c w (image c items).length
  | [], c, 0, _, _, run => by cases run
  | _ :: _, c, 0, _, _, run => by cases run
  | [], c, fuel + 1, _, reads, run => by
    simp only [pars2Message, reads.cons.1, Option.bind_eq_bind, Option.bind_some, Option.some.injEq] at run
    subst run
    exact ⟨fun _ member => absurd member List.not_mem_nil, Kept.refl c, rfl, fun nonzero => absurd rfl nonzero⟩
  | i :: items, c, fuel + 1, proper, reads, run => by
    simp only [List.flatMap_cons, List.append_assoc] at reads
    obtain ⟨read, c', run, first, follow⟩ := pars2Message_item_advances (proper i List.mem_cons_self) reads run
    obtain ⟨others, second⟩ := pars2Message_items_advances items c' fuel
      (fun j mem => proper j (List.mem_cons_of_mem _ mem)) follow run
    rw [first.image] at second
    refine ⟨List.forall_mem_cons.mpr ⟨read, fun j member => first.item_readable (others j member)⟩, ?_⟩
    have both := first.trans second
    rwa [image, List.flatMap_cons, List.length_append]

end Walk

section Room

variable {cmsg out : Cmsg} {buf : Bytes} {par : List Nat}

/-- What was encoded into a buffer lies inside it. -/
theorem image_inside (template : cpars (command2Index cmsg.command cmsg.subcommand) = some par)
    (encoded : capiCmsg2message cmsg buf = some out) :
    (∀ i ∈ layout par, i.Readable cmsg) ∧ 8 + (image cmsg (layout par)).length ≤ buf.length := by
  have laid := cpars_laid template
  simp only [capiCmsg2message, template, Option.bind_eq_bind, Option.bind_some] at encoded
  obtain ⟨w, run, encoded⟩ := Option.bind_eq_some_iff.mp encoded
  obtain ⟨m₁, length, encoded⟩ := Option.bind_eq_some_iff.mp encoded
  obtain ⟨m₂, command, encoded⟩ := Option.bind_eq_some_iff.mp encoded
  obtain ⟨m₃, subcommand, encoded⟩ := Option.bind_eq_some_iff.mp encoded
  obtain ⟨m₄, applId, encoded⟩ := Option.bind_eq_some_iff.mp encoded
  obtain ⟨m₅, messagenumber, -⟩ := Option.bind_eq_some_iff.mp encoded
  obtain ⟨readable, advances⟩ := pars2Message_items_advances (layout par) { cmsg with m := buf, l := 8, p := 0, par }
    par.length laid.proper (laid.reads rfl rfl) run
  have read : ∀ i ∈ layout par, i.Readable cmsg := by
    intro i member
    have there := readable i member
    cases i with
    | par d => exact there
    | comp f members => exact fun kind d inner => there kind d inner
  -- the message number is the last word of the header
  have header := poke_fits messagenumber
  rw [poke_length applId, poke_length subcommand, poke_length command, poke_length length, length_le] at header
  have size : w.m.length = buf.length := advances.size
  have moved : w.l = 8 + (image cmsg (layout par)).length := advances.moved
  refine ⟨read, ?_⟩
  rcases Nat.eq_zero_or_pos (image cmsg (layout par)).length with nothing | positive
  · omega
  · have inside : w.l ≤ buf.length := advances.inside (Nat.ne_of_gt positive)
    omega

/-- A buffer below 264 bytes is large enough exactly for a message of its size at most. -/
theorem encodes_iff (template : cpars (command2Index cmsg.command cmsg.subcommand) = some par)
    (small : buf.length < 264) : (∃ out, capiCmsg2message cmsg buf = some out) ↔
      (∀ i ∈ layout par, i.Readable cmsg) ∧ encodedLength cmsg (layout par) ≤ buf.length := by
  constructor
  · rintro ⟨out, encoded⟩
    obtain ⟨readable, inside⟩ := image_inside template encoded
    have short : ∀ i ∈ layout par, i.Short cmsg := by
      intro i mem
      cases i with
      | par d => trivial
      | comp f members =>
        intro kind
        by_contra long
        have size : ((Item.comp f members).written cmsg).length = 1 + (cmsg.content members).length := by
          simp only [Item.written, kind, List.length_take, List.length_append, length_lengthPrefix]
          split <;> omega
        have part : ((Item.comp f members).written cmsg).length ≤ (image cmsg (layout par)).length :=
          (List.sublist_flatten_of_mem (List.mem_map.mpr ⟨_, mem, rfl⟩)).length_le
        omega
    rw [encodedLength, ← image_of_short short]
    exact ⟨readable, inside⟩
  · rintro ⟨readable, room⟩
    obtain ⟨out, r, encoded, -⟩ := capiCmsg2message_eq template readable room
    exact ⟨out, encoded⟩

end Room

end Capi4Linux.Capiutil
