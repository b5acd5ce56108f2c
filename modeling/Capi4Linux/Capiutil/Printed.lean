import Capi4Linux.Capiutil.Lines
import Capi4Linux.Capiutil.Placed

/-!
# What the printer prints

Whatever is in memory, `protocol_message_2_pars` prints a line for every
parameter of a template and returns (`protocolMessage2Pars_template`). Where
the values of a `_cmsg` sit in memory, the lines are those of the parameters it
shows, and the values say how long they are.
-/

namespace Capi4Linux.Capiutil
open Bytes Sprintf Memory

variable {ctype : Ctype} {mem : Nat → UInt8}

/-! ## Lines of a `_cmsg` -/

/-- The text of a struct, given by its bytes. -/
def Ctype.structSize (ctype : Ctype) (bs : Bytes) : Nat :=
  if bs = [0] then 7 else ctype.contentSize (bs.drop (if bs.head? = some 0xff then 3 else 1))

/-- The line of a parameter. -/
def Cmsg.lineSize (ctype : Ctype) (c : Cmsg) : Cdef → Nat
  | .word f => 39 + (hex (c.word f).toNat).length
  | .dword f => 39 + (hex (c.dword f).toNat).length
  | .cstruct f => 37 + ctype.structSize (c.encoded (.cstruct f))
  | .cmstruct f =>
    match c.cmstruct f with
    | .default => 44
    | .compose => 34
  | .cend => 0

def Cmsg.linesSize (ctype : Ctype) (c : Cmsg) (ds : List Cdef) : Nat := (ds.map (c.lineSize ctype)).sum

theorem Cmsg.linesSize_append (c : Cmsg) (ds es : List Cdef) :
    c.linesSize ctype (ds ++ es) = c.linesSize ctype ds + c.linesSize ctype es := by
  unfold Cmsg.linesSize
  rw [List.map_append, List.sum_append]

/-! ## Values in memory -/

section Values

variable {l : Nat}

theorem load_eq {n : Nat} {bs : Bytes} (held : Holds mem l bs) (size : bs.length = n) : load mem l n = leNat bs := by
  subst size
  exact congrArg leNat held

/-- A struct in memory. -/
theorem struct_in_memory {bs : Bytes} (size : structSize bs = some bs.length) (held : Holds mem l bs) :
    structExtent mem l = bs.length ∧
      (if mem l = 0 then 7 else ctype.contentSize (structContent mem l)) = ctype.structSize bs := by
  cases bs with
  | nil => cases size
  | cons n r =>
    obtain ⟨first, behind⟩ := holds_cons.mp held
    unfold structExtent structContent Ctype.structSize
    rw [first]
    by_cases long : n = 0xff
    · subst long
      match r, size with
      | lo :: hi :: r, size =>
        have sized : Capiutil.structSize (0xff :: lo :: hi :: r) = some (3 + leNat [lo, hi]) := rfl
        have count := Option.some.inj (sized.symm.trans size)
        have word : load mem (l + 1) 2 = leNat [lo, hi] := load_eq ((@holds_append mem _ [lo, hi] r).mp behind).1 rfl
        have content : Holds mem (l + 3) r := ((@holds_append mem _ [lo, hi] r).mp behind).2
        have length : leNat [lo, hi] = r.length := by
          simp only [List.length_cons] at count
          omega
        have whole : (List.range' (l + 3) r.length).map mem = r := content
        refine ⟨?_, ?_⟩
        · rw [if_neg (by simp), word]
          exact count
        · rw [if_neg (by decide), if_neg (by simp), if_neg (by simp), word, length, whole]
          rfl
    · have sized : Capiutil.structSize (n :: r) = some (1 + n.toNat) := if_pos long
      have count := Option.some.inj (sized.symm.trans size)
      have length : n.toNat = r.length := by
        rw [List.length_cons] at count
        omega
      have whole : (List.range' (l + 1) r.length).map mem = r := behind
      refine ⟨?_, ?_⟩
      · rw [if_pos long]
        exact count
      · by_cases zero : n = 0
        · subst zero
          have empty : r = [] := List.length_eq_zero_iff.mp length.symm
          rw [if_pos rfl, if_pos (by rw [empty])]
        · rw [if_neg zero, if_pos long, if_neg (by simp [zero]), if_neg (by simpa using long), length, whole]
          rfl

variable {src : Cmsg} (sound : src.Sound) {d : Cdef} (plain : d.Plain)
include sound plain

/-- The bytes of a parameter in memory are passed, and its value is printed. -/
theorem value_in_memory (held : Holds mem l (src.encoded d)) :
    d.extent mem l = (src.encoded d).length ∧ 33 + d.valueSize ctype mem l = src.lineSize ctype d := by
  cases d with
  | word f =>
    have value : leNat (src.encoded (.word f)) = (src.word f).toNat := leNat_le_of_lt (src.word f).toNat_lt
    have loaded : load mem l 2 = leNat (src.encoded (.word f)) := load_eq held rfl
    refine ⟨rfl, ?_⟩
    show 33 + (6 + (hex (load mem l 2)).length) = 39 + (hex (src.word f).toNat).length
    rw [loaded, value]
    omega
  | dword f =>
    have value : leNat (src.encoded (.dword f)) = (src.dword f).toNat := leNat_le_of_lt (src.dword f).toNat_lt
    have loaded : load mem l 4 = leNat (src.encoded (.dword f)) := load_eq held rfl
    refine ⟨rfl, ?_⟩
    show 33 + (6 + (hex (load mem l 4)).length) = 39 + (hex (src.dword f).toNat).length
    rw [loaded, value]
    omega
  | cstruct f =>
    have written : structBytes (src.cstruct f) = some (src.encoded (.cstruct f)) := sound.bytes (.cstruct f)
    have size := (@structBytes_append _ _ [] written).1
    rw [List.append_nil] at size
    obtain ⟨extent, text⟩ := @struct_in_memory ctype mem l _ size held
    refine ⟨extent, ?_⟩
    show 33 + (4 + if mem l = 0 then 7 else ctype.contentSize (structContent mem l)) = 37 + ctype.structSize _
    rw [text]
    omega
  | cmstruct f => exact plain.elim
  | cend => exact plain.elim

end Values

/-! ## The walk -/

/-- The printer is at `l` and has printed the lines of `ds`. -/
structure Printer.Wrote (ctype : Ctype) (src : Cmsg) (ds : List Cdef) (l : Nat) (s s' : Printer) : Prop where
  l : s'.cmsg.l = l
  length : s'.buf.length = s.buf.length + src.linesSize ctype ds

theorem Printer.Wrote.trans {src : Cmsg} {ds es : List Cdef} {l l' : Nat} {s t u : Printer}
    (first : s.Wrote ctype src ds l t) (second : t.Wrote ctype src es l' u) : s.Wrote ctype src (ds ++ es) l' u where
  l := second.l
  length := by
    rw [second.length, first.length, Cmsg.linesSize_append, Nat.add_assoc]

/-- A code of the template that the cursor is at. -/
theorem Cmsg.Reads.code {c : Cmsg} {d : Cdef} {ds : List Cdef} (reads : c.Reads (d :: ds)) :
    ∃ code, c.par[c.p]? = some code ∧ cdef[code]? = some d :=
  Option.bind_eq_some_iff.mp reads.cons.1

/-- One plain parameter. -/
theorem protocolMessage2Pars_value {s : Printer} {d : Cdef} {ds : List Cdef} {level : Nat} (plain : d.Plain)
    (low : 1 ≤ level) (high : level ≤ 3) (reads : s.cmsg.Reads (d :: ds)) :
    ∃ s', (∀ fuel, protocolMessage2Pars ctype mem (fuel + 1) level s = protocolMessage2Pars ctype mem fuel level s') ∧
      s'.cmsg.Reads ds ∧ ∀ src : Cmsg, src.Sound → Holds mem s.cmsg.l (src.encoded d) →
        s.Wrote ctype src [d] (s.cmsg.l + (src.encoded d).length) s' := by
  obtain ⟨code, here, found⟩ := reads.code
  obtain ⟨buf, run, length⟩ := @protocolMessage2Pars_plain ctype mem s level code d plain here found
  refine ⟨_, run, reads.cons.2, ?_⟩
  intro src sound held
  obtain ⟨extent, size⟩ := @value_in_memory ctype mem s.cmsg.l src sound d plain held
  constructor
  · show s.cmsg.l + d.extent mem s.cmsg.l = _
    rw [extent]
  · have line : src.linesSize ctype [d] = src.lineSize ctype d := Nat.add_zero _
    show buf.length = _
    rw [length low high, line, ← size]
    omega

theorem protocolMessage2Pars_members {rest : List Cdef} {level : Nat} (low : 1 ≤ level) (high : level ≤ 3)
    (ds : List Cdef) {s : Printer} {fuel : Nat} (plain : ∀ d ∈ ds, d.Plain)
    (reads : s.cmsg.Reads (ds ++ .cend :: rest)) (enough : ds.length < fuel) :
    ∃ s', protocolMessage2Pars ctype mem fuel level s = some s' ∧ s'.cmsg.Reads (.cend :: rest) ∧
      ∀ src : Cmsg, src.Sound → Holds mem s.cmsg.l (src.content ds) →
        s.Wrote ctype src ds (s.cmsg.l + (src.content ds).length) s' := by
  induction ds generalizing s fuel with
  | nil =>
    obtain ⟨code, here, found⟩ := Cmsg.Reads.code reads
    obtain ⟨fuel, rfl⟩ := Nat.exists_eq_succ_of_ne_zero (Nat.ne_of_gt enough)
    exact ⟨s, protocolMessage2Pars_cend here found fuel, reads, fun _ _ _ => ⟨rfl, rfl⟩⟩
  | cons d ds ih =>
    obtain ⟨fuel, rfl⟩ := Nat.exists_eq_succ_of_ne_zero (Nat.ne_of_gt (Nat.zero_lt_of_lt enough))
    obtain ⟨s₁, turn, follow, wrote⟩ := @protocolMessage2Pars_value ctype mem s d _ level
      (plain d List.mem_cons_self) low high reads
    obtain ⟨s', run, last, others⟩ := ih (fun e member => plain e (List.mem_cons_of_mem _ member)) follow
      (Nat.lt_of_succ_lt_succ enough)
    refine ⟨s', (turn fuel).trans run, last, ?_⟩
    intro src sound held
    obtain ⟨first, behind⟩ := holds_append.mp held
    have value := wrote src sound first
    rw [← value.l] at behind
    have both := value.trans (others src sound behind)
    have total : (src.content (d :: ds)).length = (src.encoded d).length + (src.content ds).length :=
      List.length_append
    rw [value.l, Nat.add_assoc, ← total] at both
    exact both

/-- One item of a template, whatever is in memory. -/
theorem protocolMessage2Pars_item {i : Item} {s : Printer} {ds : List Cdef} {fuel : Nat} (proper : i.Proper)
    (reads : s.cmsg.Reads (i.defs ++ ds)) (enough : i.defs.length ≤ fuel + 1) :
    ∃ s', protocolMessage2Pars ctype mem (fuel + 1) 1 s = protocolMessage2Pars ctype mem fuel 1 s' ∧
      s'.cmsg.Reads ds ∧ ∀ (src : Cmsg) (l : Nat), src.Sound → i.Sits mem src s.cmsg.l l →
        s.Wrote ctype src (i.shown src) l s' := by
  cases i with
  | par d =>
    obtain ⟨s', turn, follow, wrote⟩ := @protocolMessage2Pars_value ctype mem s d ds 1 proper (by decide) (by decide) reads
    refine ⟨s', turn fuel, follow, ?_⟩
    intro src l sound sits
    cases sits with
    | par held => exact wrote src sound held
  | comp f members =>
    obtain ⟨code, here, found⟩ := Cmsg.Reads.code reads
    by_cases zero : mem s.cmsg.l = 0
    · obtain ⟨p, jump, there⟩ := @jumpcstruct_eq { s.cmsg with l := s.cmsg.l + 1 } f members ds proper reads
      obtain ⟨buf, turn, length⟩ := @protocolMessage2Pars_default ctype mem s 1 code f p here found zero jump
      refine ⟨_, turn fuel, there.cons.2, ?_⟩
      intro src l sound sits
      cases sits with
      | default kind _ =>
        have line : src.linesSize ctype [.cmstruct f] = 44 := by
          simp only [Cmsg.linesSize, List.map_singleton, Cmsg.lineSize, kind, List.sum_singleton]
        simp only [Item.shown, kind]
        constructor
        · rfl
        · rw [line]
          exact length (by decide) (by decide)
      | compose _ filled _ _ => exact absurd zero filled
    · obtain ⟨buf, turn, length⟩ := @protocolMessage2Pars_compose ctype mem s 1 code f here found zero
      simp only [Item.defs, List.cons_append, List.append_assoc, List.nil_append, List.length_cons,
        List.length_append, List.length_nil] at reads enough
      obtain ⟨s', run, last, wrote⟩ := @protocolMessage2Pars_members ctype mem ds 2 (by decide) (by decide) members
        (s.line ⟨code, .cmstruct f, s.cmsg.l, some .compose⟩ buf (if mem s.cmsg.l = 255 then 3 else 1) (s.cmsg.p + 1))
        fuel proper.2 reads.cons.2 (by omega)
      refine ⟨s'.next, ?_, last.cons.2, ?_⟩
      · rw [turn fuel, run]
        rfl
      · intro src l sound sits
        cases sits with
        | default _ none => exact absurd none zero
        | compose kind _ form held =>
          subst form
          have line : src.linesSize ctype [.cmstruct f] = 34 := by
            simp only [Cmsg.linesSize, List.map_singleton, Cmsg.lineSize, kind, List.sum_singleton]
          have head : s.Wrote ctype src [.cmstruct f] (s.cmsg.l + if mem s.cmsg.l = 255 then 3 else 1)
              (s.line ⟨code, .cmstruct f, s.cmsg.l, some .compose⟩ buf (if mem s.cmsg.l = 255 then 3 else 1)
                (s.cmsg.p + 1)) := by
            constructor
            · rfl
            · rw [line]
              exact length (by decide) (by decide)
          have both := head.trans (wrote src sound held)
          simp only [Item.shown, kind]
          exact ⟨both.l, both.length⟩

/-- The items of a template, with `spare` turns left for what follows them. -/
theorem protocolMessage2Pars_items {ds : List Cdef} {spare : Nat} (items : List Item) {s : Printer} {fuel : Nat}
    (proper : ∀ i ∈ items, i.Proper) (reads : s.cmsg.Reads (items.flatMap Item.defs ++ ds))
    (enough : (items.flatMap Item.defs).length + spare ≤ fuel) :
    ∃ s' fuel', spare ≤ fuel' ∧
      protocolMessage2Pars ctype mem fuel 1 s = protocolMessage2Pars ctype mem fuel' 1 s' ∧ s'.cmsg.Reads ds ∧
      ∀ (src : Cmsg) (l : Nat), src.Sound → ItemsSit mem src items s.cmsg.l l →
        s.Wrote ctype src (items.flatMap (Item.shown src)) l s' := by
  induction items generalizing s fuel with
  | nil =>
    rw [List.flatMap_nil, List.length_nil, Nat.zero_add] at enough
    refine ⟨s, fuel, enough, rfl, reads, ?_⟩
    intro src l sound sit
    cases sit with
    | nil => exact ⟨rfl, rfl⟩
  | cons i items ih =>
    simp only [List.flatMap_cons, List.append_assoc, List.length_append] at reads enough
    have filled : 0 < i.defs.length := by
      cases i with
      | par d => exact Nat.zero_lt_one
      | comp f members => exact Nat.zero_lt_succ _
    obtain ⟨fuel, rfl⟩ := Nat.exists_eq_succ_of_ne_zero (show fuel ≠ 0 by omega)
    obtain ⟨s₁, turn, follow, wrote⟩ := @protocolMessage2Pars_item ctype mem i s _ fuel (proper i List.mem_cons_self)
      reads (by omega)
    obtain ⟨s', fuel', left, run, last, others⟩ := ih (fun j member => proper j (List.mem_cons_of_mem _ member)) follow
      (show _ ≤ fuel by omega)
    refine ⟨s', fuel', left, turn.trans run, last, ?_⟩
    intro src l sound sit
    cases sit with
    | cons first behind =>
      have value := wrote src _ sound first
      rw [← value.l] at behind
      have both := value.trans (others src l sound behind)
      rw [List.flatMap_cons]
      exact both

/-- A template is walked to its end, whatever is in memory. -/
theorem protocolMessage2Pars_template {par : List Nat} {items : List Item} (laid : Laid par items) {s : Printer}
    (codes : s.cmsg.par = par) (start : s.cmsg.p = 0) :
    ∃ s', protocolMessage2Pars ctype mem par.length 1 s = some s' ∧
      ∀ (src : Cmsg) (l : Nat), src.Sound → ItemsSit mem src items s.cmsg.l l →
        s.Wrote ctype src (items.flatMap (Item.shown src)) l s' := by
  obtain ⟨s', fuel, turn, run, last, wrote⟩ := @protocolMessage2Pars_items ctype mem [.cend] 1 items s par.length
    laid.proper (laid.reads codes start) (by rw [laid.length])
  obtain ⟨fuel, rfl⟩ := Nat.exists_eq_succ_of_ne_zero (Nat.ne_of_gt turn)
  obtain ⟨code, here, found⟩ := Cmsg.Reads.code last
  refine ⟨s', ?_, wrote⟩
  rw [run]
  exact protocolMessage2Pars_cend here found fuel

end Capi4Linux.Capiutil
