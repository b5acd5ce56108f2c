import Capi4Linux.Capiutil.Print

/-!
# Lines of the printer

What one turn of `protocol_message_2_pars` does: where it leaves the cursors,
what it visits, and how long the line is that it prints. The name of a
parameter and the blanks around it always take 33 bytes; behind it come the
value of a word, or the content of a struct with its unprintable bytes in hex.
-/

namespace Capi4Linux.Capiutil
open Bytes Sprintf

variable {ctype : Ctype} {mem : Nat → UInt8}

/-! ## Sizes -/

namespace Ctype

/-- A byte that is printed as it is. -/
def Shown (ctype : Ctype) (b : UInt8) : Prop := ctype.isalnum b ∨ b = 32

instance (ctype : Ctype) (b : UInt8) : Decidable (ctype.Shown b) := by unfold Shown; infer_instance

/-- The runs of bytes in hex; `hex` if the byte before is one of them. -/
def hexRuns (ctype : Ctype) : Bool → Bytes → Nat
  | _, [] => 0
  | hex, b :: bs =>
    if ctype.Shown b then ctype.hexRuns false bs else (if hex then 0 else 1) + ctype.hexRuns true bs

/-- The text of the content of a struct: a byte that is shown takes one, any other three, and every run of those a
closing bracket. -/
def contentSize (ctype : Ctype) (bs : Bytes) : Nat :=
  bs.countP (ctype.Shown ·) + 3 * bs.countP (¬ ctype.Shown ·) + ctype.hexRuns false bs

theorem Shown.ne_nul {b : UInt8} (shown : ctype.Shown b) : b ≠ 0 := by
  rintro rfl
  rcases shown with letter | blank
  · rw [ctype.nul] at letter
    cases letter
  · cases blank

end Ctype

/-- The bytes of a struct at an offset. -/
def structExtent (mem : Nat → UInt8) (l : Nat) : Nat :=
  if mem l ≠ 0xff then 1 + (mem l).toNat else 3 + load mem (l + 1) 2

/-- The bytes of a plain parameter at an offset. -/
def Cdef.extent (mem : Nat → UInt8) (l : Nat) : Cdef → Nat
  | .word _ => 2
  | .dword _ => 4
  | .cstruct _ => structExtent mem l
  | .cmstruct _ | .cend => 0

/-- The content of a struct at an offset. -/
def structContent (mem : Nat → UInt8) (l : Nat) : Bytes :=
  if mem l ≠ 0xff then (List.range' (l + 1) (mem l).toNat).map mem
  else (List.range' (l + 3) (load mem (l + 1) 2)).map mem

/-- The text behind the name of a plain parameter, the end of the line included. -/
def Cdef.valueSize (ctype : Ctype) (mem : Nat → UInt8) (l : Nat) : Cdef → Nat
  | .word _ => 6 + (hex (load mem l 2)).length
  | .dword _ => 6 + (hex (load mem l 4)).length
  | .cstruct _ => 4 + if mem l = 0 then 7 else ctype.contentSize (structContent mem l)
  | .cmstruct _ | .cend => 0

/-! ## Printing -/

theorem length_bufprint (buf : Bytes) {text : Bytes} (clean : NoNul text) :
    (bufprint buf text).length = buf.length + text.length := by
  unfold bufprint
  rw [cstring_eq clean, List.length_append]

theorem length_hexByte (b : UInt8) : (zeroPad 2 (hex b.toNat)).length = 2 := by
  have small : (hex b.toNat).length ≤ 2 := length_digits_le (by decide) (by decide) b.toNat_lt
  rw [length_zeroPad]
  omega

theorem noNul_hexByte (b : UInt8) : NoNul (zeroPad 2 (hex b.toNat)) := noNul_zeroPad 2 (noNul_digits (by decide) _)

/-- The content of a struct in the buffer, the bracket that may be open before it included. -/
theorem length_printstructlen (ctype : Ctype) (mem : Nat → UInt8) (len m : Nat) (hex : Bool) (buf : Bytes) :
    (printstructlen ctype mem len m hex buf).length =
      buf.length + (if hex then 1 else 0) + ((List.range' m len).map mem).countP (ctype.Shown ·) +
        3 * ((List.range' m len).map mem).countP (¬ ctype.Shown ·) +
          ctype.hexRuns hex ((List.range' m len).map mem) := by
  induction len generalizing m hex buf with
  | zero =>
    cases hex with
    | false => rfl
    | true => exact length_bufprint buf (by decide)
  | succ len ih =>
    have bracket : NoNul (ascii "<" ++ zeroPad 2 (Sprintf.hex (mem m).toNat)) :=
      NoNul.append (by decide) (noNul_hexByte _)
    have blank : NoNul (ascii " " ++ zeroPad 2 (Sprintf.hex (mem m).toNat)) :=
      NoNul.append (by decide) (noNul_hexByte _)
    have two := length_hexByte (mem m)
    rw [List.range'_succ, List.map_cons]
    by_cases shown : ctype.Shown (mem m)
    · have clean : NoNul [mem m] := by
        intro b member
        rw [List.mem_singleton.mp member]
        exact shown.ne_nul
      have counts : ctype.isalnum (mem m) ∨ mem m = 32 := shown
      rw [List.countP_cons_of_pos (by simpa using shown), List.countP_cons_of_neg (by simpa using shown)]
      simp only [printstructlen, if_pos counts, Ctype.hexRuns, if_pos shown]
      rw [ih, length_bufprint _ clean]
      cases hex with
      | false =>
        simp only [Bool.false_eq_true, if_false, List.length_singleton]
        omega
      | true =>
        simp only [Bool.false_eq_true, if_false, if_true, List.length_singleton]
        rw [length_bufprint buf (by decide)]
        have one : (ascii ">").length = 1 := by decide
        omega
    · have counts : ¬ (ctype.isalnum (mem m) ∨ mem m = 32) := shown
      rw [List.countP_cons_of_neg (by simpa using shown), List.countP_cons_of_pos (by simpa using shown)]
      simp only [printstructlen, if_neg counts, Ctype.hexRuns, if_neg shown]
      rw [ih]
      cases hex with
      | false =>
        simp only [Bool.not_false, Bool.false_eq_true, if_false, if_true]
        rw [length_bufprint buf bracket, List.length_append, two]
        have one : (ascii "<").length = 1 := by decide
        omega
      | true =>
        simp only [Bool.not_true, Bool.false_eq_true, if_false, if_true]
        rw [length_bufprint buf blank, List.length_append, two]
        have one : (ascii " ").length = 1 := by decide
        omega

theorem length_printstruct (ctype : Ctype) (mem : Nat → UInt8) (l : Nat) (buf : Bytes) :
    (printstruct ctype mem l buf).length = buf.length + ctype.contentSize (structContent mem l) := by
  unfold printstruct structContent Ctype.contentSize
  split
  · rw [length_printstructlen]
    simp only [Bool.false_eq_true, if_false]
    omega
  · rw [length_printstructlen]
    simp only [Bool.false_eq_true, if_false]
    omega

namespace Printer

variable {s : Printer}

theorem length_print (s : Printer) {text : Bytes} (clean : NoNul text) :
    (s.print text).buf.length = s.buf.length + text.length := length_bufprint s.buf clean

/-- Blanks change nothing but the text. -/
theorem indent_eq (s : Printer) (level : Nat) :
    ∃ buf, s.indent level = { s with buf } ∧ buf.length = s.buf.length + 2 + (level - 1) := by
  unfold indent
  induction level - 1 generalizing s with
  | zero => exact ⟨_, rfl, s.length_print (by decide)⟩
  | succ n ih =>
    rw [List.replicate_succ', List.foldl_append]
    obtain ⟨buf, eq, length⟩ := ih s
    rw [eq]
    refine ⟨bufprint buf (ascii " "), rfl, ?_⟩
    have one : (ascii " ").length = 1 := by decide
    rw [length_bufprint buf (by decide)]
    omega

@[simp] theorem indent_cmsg (s : Printer) (level : Nat) : (s.indent level).cmsg = s.cmsg := by
  obtain ⟨buf, eq, -⟩ := s.indent_eq level
  rw [eq]

end Printer

/-- Every parameter of a template has a name. -/
theorem pname_of_cdef {code : Nat} {d : Cdef} (found : cdef[code]? = some d) (named : d ≠ .cend) :
    ∃ name, pname code = some name ∧ name.length ≤ 29 ∧ NoNul name := by
  have table : ∀ code < 48, ∀ d ∈ cdef[code]?, d ≠ .cend → ∃ name ∈ pname code, name.length ≤ 29 ∧ NoNul name := by
    decide +kernel
  have inside : code < cdef.length := (List.getElem?_eq_some_iff.mp found).1
  exact table code inside d found named

/-- Every message with a template has a name. -/
theorem mname_of_cpars {index : Nat} {par : List Nat} (template : cpars index = some par) :
    ∃ name, mname index = some name ∧ name.length ≤ 26 ∧ NoNul name := by
  have table : ∀ entry ∈ cparsTable, ∃ name ∈ mname entry.1, name.length ≤ 26 ∧ NoNul name := by decide +kernel
  obtain ⟨before, after, split, -⟩ := List.lookup_eq_some_iff.mp template
  exact table (index, par) (by rw [split]; simp)

/-! ## A turn -/

/-- Behind a line, with the cursors `n` bytes on and at `p`. -/
def Printer.line (s : Printer) (visit : Visit) (buf : Bytes) (n p : Nat) : Printer :=
  { cmsg := { s.cmsg with l := s.cmsg.l + n, p }, buf, visits := s.visits ++ [visit] }

/-- The blanks and the name of a line take 33 bytes. -/
theorem Printer.length_name {level : Nat} {name buf rest : Bytes} (s : Printer) (low : 1 ≤ level) (high : level ≤ 3)
    (short : name.length ≤ 29) (clean : NoNul name) (text : NoNul rest)
    (blanks : buf.length = s.buf.length + 2 + (level - 1)) :
    (bufprint buf (padRight (29 + 3 - level) name ++ rest)).length = s.buf.length + 33 + rest.length := by
  have width : (padRight (29 + 3 - level) name).length = 29 + 3 - level := length_padRight (by omega)
  rw [length_bufprint buf ((noNul_padRight _ clean).append text), List.length_append, width]
  omega

/-- A number and the end of its line. -/
theorem length_number (n : Nat) : (ascii " = 0x" ++ hex n ++ ascii "\n").length = 6 + (hex n).length := by
  have before : (ascii " = 0x").length = 5 := by decide
  have behind : (ascii "\n").length = 1 := by decide
  rw [List.length_append, List.length_append]
  omega

theorem noNul_number (n : Nat) : NoNul (ascii " = 0x" ++ hex n ++ ascii "\n") :=
  (NoNul.append (by decide) (noNul_digits (by decide) n)).append (by decide)

section Turn

variable {s : Printer} {level code : Nat} {d : Cdef}

/-- A plain parameter: its value is printed and passed. -/
theorem protocolMessage2Pars_plain (plain : d.Plain) (here : s.cmsg.par[s.cmsg.p]? = some code)
    (found : cdef[code]? = some d) :
    ∃ buf, (∀ fuel, protocolMessage2Pars ctype mem (fuel + 1) level s = protocolMessage2Pars ctype mem fuel level
        (s.line ⟨code, d, s.cmsg.l, none⟩ buf (d.extent mem s.cmsg.l) (s.cmsg.p + 1))) ∧
      (1 ≤ level → level ≤ 3 → buf.length = s.buf.length + 33 + d.valueSize ctype mem s.cmsg.l) := by
  have named : d ≠ .cend := by
    rintro rfl
    exact plain
  obtain ⟨name, called, short, clean⟩ := pname_of_cdef found named
  obtain ⟨blank, indented, blanks⟩ := s.indent_eq level
  cases d with
  | word f =>
    refine ⟨bufprint blank (padRight (29 + 3 - level) name ++ (ascii " = 0x" ++ hex (load mem s.cmsg.l 2) ++ ascii "\n")),
      fun fuel => ?_, fun low high => ?_⟩
    · simp only [protocolMessage2Pars, here, found, called, indented, Option.bind_eq_bind, Option.bind_some,
        ← List.append_assoc]
      rfl
    · rw [s.length_name low high short clean (noNul_number _) blanks, length_number]
      rfl
  | dword f =>
    refine ⟨bufprint blank (padRight (29 + 3 - level) name ++ (ascii " = 0x" ++ hex (load mem s.cmsg.l 4) ++ ascii "\n")),
      fun fuel => ?_, fun low high => ?_⟩
    · simp only [protocolMessage2Pars, here, found, called, indented, Option.bind_eq_bind, Option.bind_some,
        ← List.append_assoc]
      rfl
    · rw [s.length_name low high short clean (noNul_number _) blanks, length_number]
      rfl
  | cstruct f =>
    have three : (ascii " = ").length = 3 := by decide
    have seven : (ascii "default").length = 7 := by decide
    have one : (ascii "\n").length = 1 := by decide
    have front := fun low high => s.length_name low high short clean (by decide : NoNul (ascii " = ")) blanks
    by_cases zero : mem s.cmsg.l = 0
    · refine ⟨bufprint (bufprint (bufprint blank (padRight (29 + 3 - level) name ++ ascii " = ")) (ascii "default"))
        (ascii "\n"), fun fuel => ?_, fun low high => ?_⟩
      · simp only [protocolMessage2Pars, here, found, called, indented, Option.bind_eq_bind, Option.bind_some,
          Printer.visit, Printer.print, if_pos zero]
        rfl
      · have text := front low high
        rw [length_bufprint _ (by decide), length_bufprint _ (by decide), Cdef.valueSize, if_pos zero]
        omega
    · refine ⟨bufprint (printstruct ctype mem s.cmsg.l (bufprint blank (padRight (29 + 3 - level) name ++ ascii " = ")))
        (ascii "\n"), fun fuel => ?_, fun low high => ?_⟩
      · simp only [protocolMessage2Pars, here, found, called, indented, Option.bind_eq_bind, Option.bind_some,
          Printer.visit, Printer.print, if_neg zero]
        rfl
      · have text := front low high
        rw [length_bufprint _ (by decide), length_printstruct, Cdef.valueSize, if_neg zero]
        omega
  | cmstruct f => exact plain.elim
  | cend => exact plain.elim

/-- A composite that is left out: its members are passed over. -/
theorem protocolMessage2Pars_default {f : CmstructField} {p : Nat} (here : s.cmsg.par[s.cmsg.p]? = some code)
    (found : cdef[code]? = some (.cmstruct f)) (zero : mem s.cmsg.l = 0)
    (jump : jumpcstruct { s.cmsg with l := s.cmsg.l + 1 } = some { s.cmsg with l := s.cmsg.l + 1, p }) :
    ∃ buf, (∀ fuel, protocolMessage2Pars ctype mem (fuel + 1) level s = protocolMessage2Pars ctype mem fuel level
        (s.line ⟨code, .cmstruct f, s.cmsg.l, some .default⟩ buf 1 (p + 1))) ∧
      (1 ≤ level → level ≤ 3 → buf.length = s.buf.length + 33 + 11) := by
  obtain ⟨name, called, short, clean⟩ := pname_of_cdef found (by rintro ⟨⟩)
  obtain ⟨blank, indented, blanks⟩ := s.indent_eq level
  refine ⟨bufprint blank (padRight (29 + 3 - level) name ++ ascii " = default\n"), fun fuel => ?_, fun low high => ?_⟩
  · simp only [protocolMessage2Pars, here, found, called, indented, zero, if_true, Option.bind_eq_bind,
      Option.bind_some, Printer.skip, Printer.visit, Printer.print, jump]
    rfl
  · rw [s.length_name low high short clean (by decide) blanks]
    rfl

/-- A composite: its members are printed on the next level. -/
theorem protocolMessage2Pars_compose {f : CmstructField} (here : s.cmsg.par[s.cmsg.p]? = some code)
    (found : cdef[code]? = some (.cmstruct f)) (filled : mem s.cmsg.l ≠ 0) :
    ∃ buf, (∀ fuel, protocolMessage2Pars ctype mem (fuel + 1) level s =
        (protocolMessage2Pars ctype mem fuel (level + 1) (s.line ⟨code, .cmstruct f, s.cmsg.l, some .compose⟩ buf
          (if mem s.cmsg.l = 255 then 3 else 1) (s.cmsg.p + 1))).bind
          fun s' => protocolMessage2Pars ctype mem fuel level s'.next) ∧
      (1 ≤ level → level ≤ 3 → buf.length = s.buf.length + 33 + 1) := by
  obtain ⟨name, called, short, clean⟩ := pname_of_cdef found (by rintro ⟨⟩)
  obtain ⟨blank, indented, blanks⟩ := s.indent_eq level
  refine ⟨bufprint blank (padRight (29 + 3 - level) name ++ ascii "\n"), fun fuel => ?_, fun low high => ?_⟩
  · simp only [protocolMessage2Pars, here, found, called, indented, if_neg filled, Option.bind_eq_bind,
      Option.bind_some]
    rfl
  · rw [s.length_name low high short clean (by decide) blanks]
    rfl

theorem protocolMessage2Pars_cend (here : s.cmsg.par[s.cmsg.p]? = some code) (found : cdef[code]? = some .cend)
    (fuel : Nat) : protocolMessage2Pars ctype mem (fuel + 1) level s = some s := by
  simp only [protocolMessage2Pars, here, found, Option.bind_eq_bind, Option.bind_some]

end Turn

end Capi4Linux.Capiutil
