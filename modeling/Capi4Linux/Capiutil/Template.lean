import Capi4Linux.Capiutil.Codec

/-!
# What a template says

The parameter codes of a message as a list of parameters and composites, the
value of a parameter as the bytes it is encoded by, and the message a `_cmsg`
stands for.
-/

namespace Capi4Linux.Capiutil
open Bytes

/-- A parameter of a message, or a composite with its members. -/
inductive Item
  | par (d : Cdef)
  | comp (f : CmstructField) (members : List Cdef)
  deriving DecidableEq, Repr

/-- Neither a composite nor the end of one. -/
def Cdef.Plain : Cdef → Prop
  | .word _ | .dword _ | .cstruct _ => True
  | .cmstruct _ | .cend => False

instance : DecidablePred Cdef.Plain := fun d => by cases d <;> unfold Cdef.Plain <;> infer_instance

namespace Item

/-- The parameter codes of an item. -/
def defs : Item → List Cdef
  | par d => [d]
  | comp f members => .cmstruct f :: (members ++ [.cend])

/-- Parameters are plain and composites have members. -/
def Proper : Item → Prop
  | par d => d.Plain
  | comp _ members => members ≠ [] ∧ ∀ d ∈ members, d.Plain

instance : DecidablePred Proper := fun i => by cases i <;> unfold Proper <;> infer_instance

end Item

/-- The items of a list of parameter codes, up to its end. -/
def itemsOf : List Cdef → Option (CmstructField × List Cdef) → List Item
  | [], _ => []
  | .cend :: _, none => []
  | .cmstruct f :: ds, none => itemsOf ds (some (f, []))
  | d :: ds, none => .par d :: itemsOf ds none
  | .cend :: ds, some (f, members) => .comp f members :: itemsOf ds none
  | d :: ds, some (f, members) => itemsOf ds (some (f, members ++ [d]))

/-- The items of a template. -/
def layout (par : List Nat) : List Item :=
  itemsOf (par.filterMap (cdef[·]?)) none

/-- No code occurs twice, ends apart. -/
def Distinct (ds : List Cdef) : Prop := ds.Pairwise fun d e => d ≠ e ∨ d = .cend

instance (ds : List Cdef) : Decidable (Distinct ds) := by unfold Distinct; infer_instance

/-- The codes `par` are those of `items` and the end. -/
structure Laid (par : List Nat) (items : List Item) : Prop where
  codes : par.map (cdef[·]?) = (items.flatMap Item.defs ++ [Cdef.cend]).map some
  proper : ∀ i ∈ items, i.Proper
  distinct : Distinct (items.flatMap Item.defs)

instance (par : List Nat) (items : List Item) : Decidable (Laid par items) :=
  decidable_of_iff
    (par.map (cdef[·]?) = (items.flatMap Item.defs ++ [Cdef.cend]).map some ∧ (∀ i ∈ items, i.Proper) ∧
      Distinct (items.flatMap Item.defs))
    ⟨fun ⟨c, p, d⟩ => ⟨c, p, d⟩, fun ⟨c, p, d⟩ => ⟨c, p, d⟩⟩

/-- Every template of the table is laid out. -/
theorem cparsTable_laid : ∀ entry ∈ cparsTable, Laid entry.2 (layout entry.2) := by decide +kernel

/-- Every template is well laid. -/
theorem cpars_laid {index : Nat} {par : List Nat} (template : cpars index = some par) :
    Laid par (layout par) := by
  obtain ⟨before, after, split, -⟩ := List.lookup_eq_some_iff.mp template
  exact cparsTable_laid (index, par) (by rw [split]; simp)

/-! ## Values -/

/-- NULL, or a length byte below 255 and as many bytes, or 255, a length word and as many bytes. -/
def WellFormed : Option Bytes → Prop
  | none => True
  | some s => ∃ size, structSize s = some size ∧ size ≤ s.length

namespace Cmsg

/-- Every struct can be read. -/
def Sound (cmsg : Cmsg) : Prop := ∀ f, WellFormed (cmsg.cstruct f)

/-- The bytes a plain parameter is encoded by. -/
def bytes (cmsg : Cmsg) : Cdef → Option Bytes
  | .word f => some (le 2 (cmsg.word f).toNat)
  | .dword f => some (le 4 (cmsg.dword f).toNat)
  | .cstruct f => structBytes (cmsg.cstruct f)
  | .cmstruct _ | .cend => some []

def encoded (cmsg : Cmsg) (d : Cdef) : Bytes := (cmsg.bytes d).getD []

/-- The members of a composite. -/
def content (cmsg : Cmsg) (members : List Cdef) : Bytes := members.flatMap cmsg.encoded

end Cmsg

/-- Both hold the same value of a parameter. A NULL struct has the value of the empty one. -/
def SameValue (a b : Cmsg) : Cdef → Prop
  | .word f => a.word f = b.word f
  | .dword f => a.dword f = b.dword f
  | .cstruct f => structBytes (a.cstruct f) = structBytes (b.cstruct f)
  | .cmstruct f => a.cmstruct f = b.cmstruct f
  | .cend => True

/-- The length of `n` bytes of members: one byte, or 255 and a word. -/
def lengthPrefix (n : Nat) : Bytes :=
  if n < 255 then [UInt8.ofNat n] else 0xff :: le 2 n

namespace Item

/-- The parameters of an item that are not inside a default composite. -/
def shown (cmsg : Cmsg) : Item → List Cdef
  | par d => [d]
  | comp f members =>
    match cmsg.cmstruct f with
    | .default => [.cmstruct f]
    | .compose => .cmstruct f :: members

/-- The bytes of an item in a message. -/
def encode (cmsg : Cmsg) : Item → Bytes
  | par d => cmsg.encoded d
  | comp f members =>
    match cmsg.cmstruct f with
    | .default => [0]
    | .compose => lengthPrefix (cmsg.content members).length ++ cmsg.content members

/-- Not a composite of 255 bytes or more. -/
def Short (cmsg : Cmsg) : Item → Prop
  | par _ => True
  | comp f members => cmsg.cmstruct f = .compose → (cmsg.content members).length < 255

instance (cmsg : Cmsg) : DecidablePred (Item.Short cmsg) := fun i => by
  cases i <;> unfold Short <;> infer_instance

end Item

/-- The size of the message a `_cmsg` stands for. -/
def encodedLength (cmsg : Cmsg) (items : List Item) : Nat :=
  8 + (items.flatMap (Item.encode cmsg)).length

theorem sameValue_refl (a : Cmsg) (d : Cdef) : SameValue a a d := by
  cases d <;> simp [SameValue]

theorem SameValue.trans {a b c : Cmsg} {d : Cdef} (first : SameValue a b d) (second : SameValue b c d) :
    SameValue a c d := by
  cases d <;> simp_all [SameValue]

theorem SameValue.symm {a b : Cmsg} {d : Cdef} (same : SameValue a b d) : SameValue b a d := by
  cases d <;> simp_all [SameValue]

/-- Plain parameters with the same value have the same bytes. -/
theorem SameValue.bytes {a b : Cmsg} {d : Cdef} (same : SameValue a b d) : a.bytes d = b.bytes d := by
  cases d <;> simp_all [SameValue, Cmsg.bytes]

/-- A well-formed structure can be read. -/
theorem structBytes_of_wellFormed {s : Option Bytes} (formed : WellFormed s) :
    ∃ bs, structBytes s = some bs ∧ bs ≠ [] := by
  cases s with
  | none => exact ⟨[0], rfl, by simp⟩
  | some s =>
    obtain ⟨size, sized, fits⟩ := formed
    refine ⟨s.take size, by simp [structBytes, sized, peek, fits], ?_⟩
    have positive : 0 < size := by
      simp only [structSize, Option.bind_eq_bind, Option.bind_eq_some_iff] at sized
      obtain ⟨n, -, sized⟩ := sized
      split at sized
      · obtain rfl := Option.some.inj sized; omega
      · obtain ⟨w, -, sized⟩ := Option.bind_eq_some_iff.mp sized
        obtain rfl := Option.some.inj sized; omega
    intro empty
    have := congrArg List.length empty
    simp only [List.length_take, List.length_nil] at this
    omega

namespace Cmsg

/-- The parameter can be read to its end. -/
def Readable (cmsg : Cmsg) (d : Cdef) : Prop := ∃ bs, cmsg.bytes d = some bs

/-- A readable parameter has its encoding. -/
theorem Readable.bytes {cmsg : Cmsg} {d : Cdef} (readable : cmsg.Readable d) : cmsg.bytes d = some (cmsg.encoded d) := by
  obtain ⟨bs, read⟩ := readable
  rw [encoded, read, Option.getD_some]

/-- A parameter of a sound `_cmsg` has an encoding. -/
theorem Sound.readable {cmsg : Cmsg} (sound : cmsg.Sound) (d : Cdef) : cmsg.Readable d := by
  cases d with
  | cstruct f =>
    obtain ⟨bs, read, -⟩ := structBytes_of_wellFormed (sound f)
    exact ⟨bs, read⟩
  | _ => exact ⟨_, rfl⟩

/-- Every parameter of a sound message has its encoding. -/
theorem Sound.bytes {cmsg : Cmsg} (sound : cmsg.Sound) (d : Cdef) : cmsg.bytes d = some (cmsg.encoded d) :=
  (sound.readable d).bytes

/-- A structure that can be read is well formed. -/
theorem wellFormed_of_structBytes {s : Option Bytes} {bs : Bytes} (read : structBytes s = some bs) : WellFormed s := by
  cases s with
  | none => trivial
  | some s =>
    obtain ⟨size, sized, inside⟩ := Option.bind_eq_some_iff.mp read
    refine ⟨size, sized, ?_⟩
    unfold peek at inside
    split at inside
    · omega
    · cases inside

/-- A structure is readable when it is well formed. -/
theorem readable_cstruct_iff (cmsg : Cmsg) (f : CstructField) :
    cmsg.Readable (.cstruct f) ↔ WellFormed (cmsg.cstruct f) := by
  constructor
  · exact fun ⟨_, read⟩ => wellFormed_of_structBytes read
  · intro formed
    obtain ⟨bs, read, -⟩ := structBytes_of_wellFormed formed
    exact ⟨bs, read⟩

/-- A plain parameter takes a byte at least. -/
theorem Readable.encoded_ne_nil {cmsg : Cmsg} {d : Cdef} (readable : cmsg.Readable d) (plain : d.Plain) :
    cmsg.encoded d ≠ [] := by
  cases d with
  | word f => simp [Cmsg.encoded, Cmsg.bytes, le]
  | dword f => simp [Cmsg.encoded, Cmsg.bytes, le]
  | cstruct f =>
    obtain ⟨bs, read, filled⟩ := structBytes_of_wellFormed ((cmsg.readable_cstruct_iff f).mp readable)
    simpa [Cmsg.encoded, Cmsg.bytes, read] using filled
  | cmstruct f => exact plain.elim
  | cend => exact plain.elim

/-- Members have some content. -/
theorem content_ne_nil {cmsg : Cmsg} {members : List Cdef} (filled : members ≠ []) (plain : ∀ d ∈ members, d.Plain)
    (readable : ∀ d ∈ members, cmsg.Readable d) : cmsg.content members ≠ [] := by
  cases members with
  | nil => exact (filled rfl).elim
  | cons d ds =>
    have head := (readable d List.mem_cons_self).encoded_ne_nil (plain d List.mem_cons_self)
    simp [Cmsg.content, head]

end Cmsg

/-- What the encoder reads of the item can be read to its end. -/
def Item.Readable (cmsg : Cmsg) : Item → Prop
  | par d => cmsg.Readable d
  | comp f members => cmsg.cmstruct f = .compose → ∀ d ∈ members, cmsg.Readable d

/-- Every item of a sound message is readable. -/
theorem Cmsg.Sound.item {cmsg : Cmsg} (sound : cmsg.Sound) (i : Item) : i.Readable cmsg := by
  cases i with
  | par d => exact sound.readable d
  | comp f members => exact fun _ d _ => sound.readable d

/-! ## The cursor in the parameter codes -/

/-- The codes from the cursor on are those of `ds`. -/
def Cmsg.Reads (cmsg : Cmsg) (ds : List Cdef) : Prop :=
  (cmsg.par.drop cmsg.p).map (cdef[·]?) = ds.map some

theorem Cmsg.Reads.cons {cmsg : Cmsg} {d : Cdef} {ds : List Cdef} (reads : cmsg.Reads (d :: ds)) :
    cmsg.typ = some d ∧ cmsg.next.Reads ds := by
  unfold Cmsg.Reads at reads
  cases codes : cmsg.par.drop cmsg.p with
  | nil => rw [codes] at reads; cases reads
  | cons n rest =>
    rw [codes] at reads
    obtain ⟨found, follow⟩ := List.cons.inj reads
    have here : cmsg.par[cmsg.p]? = some n := by
      rw [← List.head?_drop, codes]; rfl
    have behind : cmsg.par.drop (cmsg.p + 1) = rest := by
      rw [← List.tail_drop, codes]; rfl
    refine ⟨by simpa [Cmsg.typ, here] using found, ?_⟩
    simpa [Cmsg.Reads, Cmsg.next, behind] using follow

theorem Cmsg.Reads.length_le {cmsg : Cmsg} {ds : List Cdef} (reads : cmsg.Reads ds) :
    ds.length ≤ cmsg.par.length := by
  have lengths := congrArg List.length reads
  simp only [List.length_map, List.length_drop] at lengths
  omega

/-- A walk over a laid template starts at its first code. -/
theorem Laid.reads {par : List Nat} {items : List Item} (laid : Laid par items) {cmsg : Cmsg}
    (codes : cmsg.par = par) (start : cmsg.p = 0) : cmsg.Reads (items.flatMap Item.defs ++ [.cend]) := by
  rw [Cmsg.Reads, codes, start, List.drop_zero]
  exact laid.codes

theorem Laid.length {par : List Nat} {items : List Item} (laid : Laid par items) :
    par.length = (items.flatMap Item.defs).length + 1 := by
  have := congrArg List.length laid.codes
  simpa using this

/-- The loop over a composite ends behind it. -/
theorem jumpcstructLoop_eq {rest : List Cdef} : ∀ (ds : List Cdef) (cmsg : Cmsg) (fuel : Nat),
    (∀ d ∈ ds, d.Plain) → cmsg.next.Reads (ds ++ .cend :: rest) → ds.length + 2 ≤ fuel →
    ∃ p, jumpcstructLoop fuel 1 cmsg = some { cmsg with p } ∧
      ({ cmsg with p } : Cmsg).Reads (.cend :: rest)
  | [], cmsg, fuel + 2, _, reads, _ => by
    obtain ⟨typ, -⟩ := reads.cons
    have stop : jumpcstructLoop (fuel + 2) 1 cmsg = some cmsg.next := by simp [jumpcstructLoop, typ]
    exact ⟨cmsg.p + 1, stop, reads⟩
  | d :: ds, cmsg, fuel + 1, plain, reads, enough => by
    obtain ⟨typ, follow⟩ := reads.cons
    obtain ⟨p, run, there⟩ := jumpcstructLoop_eq ds cmsg.next fuel
      (fun e mem => plain e (List.mem_cons_of_mem _ mem)) follow (by simp only [List.length_cons] at enough; omega)
    have head := plain d List.mem_cons_self
    refine ⟨p, Eq.trans ?_ run, there⟩
    cases d <;> first | exact head.elim | simp [jumpcstructLoop, typ]

/-- A default composite is skipped up to its end. -/
theorem jumpcstruct_eq {cmsg : Cmsg} {f : CmstructField} {members rest : List Cdef}
    (proper : (Item.comp f members).Proper) (reads : cmsg.Reads ((Item.comp f members).defs ++ rest)) :
    ∃ p, jumpcstruct cmsg = some { cmsg with p } ∧ ({ cmsg with p } : Cmsg).Reads (.cend :: rest) := by
  obtain ⟨filled, plain⟩ := proper
  cases members with
  | nil => exact (filled rfl).elim
  | cons d ds =>
    have size := reads.length_le
    simp only [Item.defs, List.cons_append, List.append_assoc, List.nil_append, List.length_cons,
      List.length_append] at reads size
    -- the loop moves on before it looks, so the first member is never looked at
    obtain ⟨p, run, there⟩ := jumpcstructLoop_eq ds cmsg.next (cmsg.par.length + 1)
      (fun e mem => plain e (List.mem_cons_of_mem _ mem)) reads.cons.2.cons.2 (by omega)
    exact ⟨p, run, there⟩

/-- `jumpcstruct` moves `p` and looks at the codes alone. -/
theorem jumpcstructLoop_congr {c e : Cmsg} (fuel layer : Nat) (par : e.par = c.par) (p : e.p = c.p) :
    jumpcstructLoop fuel layer e = (jumpcstructLoop fuel layer c).map fun r => { e with p := r.p } := by
  induction fuel generalizing layer c e with
  | zero => rfl
  | succ fuel ih =>
    unfold jumpcstructLoop
    split
    · rw [Option.map_some, ← p]
    · have typ : e.next.typ = c.next.typ := by
        unfold Cmsg.typ Cmsg.next
        rw [par, p]
      have next : ∀ layer, jumpcstructLoop fuel layer e.next =
          (jumpcstructLoop fuel layer c.next).map fun r => { e with p := r.p } := fun layer =>
        ih layer par (congrArg (· + 1) p)
      simp only [typ, Option.bind_eq_bind, Option.map_bind, Function.comp_def]
      congr 1
      funext d
      cases d with
      | cmstruct f => exact next _
      | cend => exact next _
      | word f => exact next _
      | dword f => exact next _
      | cstruct f => exact next _

theorem jumpcstruct_congr {c e : Cmsg} (par : e.par = c.par) (p : e.p = c.p) :
    jumpcstruct e = (jumpcstruct c).map fun r => { e with p := r.p } := by
  have next : e.next.p = c.next.p := congrArg (· + 1) p
  have moved := @jumpcstructLoop_congr c.next e.next (c.par.length + 1) 1 par next
  have size : e.par.length = c.par.length := congrArg List.length par
  unfold jumpcstruct
  rw [size, moved]
  rfl

/-- A jump moves the cursor of the template only. -/
theorem jumpcstruct_frame {c c' : Cmsg} (jump : jumpcstruct c = some c') : c' = { c with p := c'.p } := by
  have moved := @jumpcstruct_congr c c rfl rfl
  rw [jump, Option.map_some] at moved
  exact Option.some.inj (show some c' = some { c with p := c'.p } from moved)

end Capi4Linux.Capiutil
