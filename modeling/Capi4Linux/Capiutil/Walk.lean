import Capi4Linux.Capiutil.Printed
import Capi4Linux.Capiutil.Reencode

/-!
# The walks of decoder and printer

`message_2_pars` and `protocol_message_2_pars` are two copies of one walk over
the parameter codes and the message. Here the decoder carries the list of the
parameters it visits, as the printer does, and the two are in lockstep: after
every turn they have visited the same parameters and are at the same offset.
The decoder has no result exactly if the message ends before it is done.
-/

namespace Capi4Linux.Capiutil
open Bytes Sprintf

/-! ## The decoder with its visits -/

/-- `message_2_pars` with the parameters it visits. -/
def message2ParsVisits : Nat → Cmsg → List Visit → Option (Cmsg × List Visit)
  | 0, _, _ => none
  | fuel + 1, cmsg, visits => do
    let code ← cmsg.par[cmsg.p]?
    match ← cdef[code]? with
    | .word f =>
      let bs ← peek cmsg.m cmsg.l 2
      message2ParsVisits fuel
        { cmsg with word := Function.update cmsg.word f (UInt16.ofNat (leNat bs)), l := cmsg.l + 2 }.next
        (visits ++ [⟨code, .word f, cmsg.l, none⟩])
    | .dword f =>
      let bs ← peek cmsg.m cmsg.l 4
      message2ParsVisits fuel
        { cmsg with dword := Function.update cmsg.dword f (UInt32.ofNat (leNat bs)), l := cmsg.l + 4 }.next
        (visits ++ [⟨code, .dword f, cmsg.l, none⟩])
    | .cstruct f =>
      let s := cmsg.m.drop cmsg.l
      let size ← structSize s
      message2ParsVisits fuel
        { cmsg with cstruct := Function.update cmsg.cstruct f (some s), l := cmsg.l + size }.next
        (visits ++ [⟨code, .cstruct f, cmsg.l, none⟩])
    | .cmstruct f =>
      let n ← cmsg.m[cmsg.l]?
      if n = 0 then
        let visits := visits ++ [⟨code, .cmstruct f, cmsg.l, some .default⟩]
        let cmsg ← jumpcstruct
          { cmsg with cmstruct := Function.update cmsg.cmstruct f .default, l := cmsg.l + 1 }
        message2ParsVisits fuel cmsg.next visits
      else
        let (cmsg, visits) ← message2ParsVisits fuel
          { cmsg with
            cmstruct := Function.update cmsg.cmstruct f .compose
            l := if n = 255 then cmsg.l + 3 else cmsg.l + 1
            p := cmsg.p + 1 }
          (visits ++ [⟨code, .cmstruct f, cmsg.l, some .compose⟩])
        message2ParsVisits fuel cmsg.next visits
    | .cend => some (cmsg, visits)

/-- `capi_message2cmsg` up to the end of `message_2_pars`, with the parameters it visits. -/
def decodeVisits (msg : Bytes) : Option (Cmsg × List Visit) := do
  let command ← msg[4]?
  let subcommand ← msg[5]?
  let par ← cpars (command2Index command subcommand)
  message2ParsVisits par.length { Cmsg.zero msg with command, subcommand, l := 8, par } []

/-- Without its visits it is the decoder. -/
theorem message2ParsVisits_erase (fuel : Nat) (c : Cmsg) (visits : List Visit) :
    (message2ParsVisits fuel c visits).map Prod.fst = message2Pars fuel c := by
  induction fuel generalizing c visits with
  | zero => rfl
  | succ fuel ih =>
    unfold message2ParsVisits message2Pars Cmsg.typ
    cases c.par[c.p]? with
    | none => rfl
    | some code =>
      simp only [Option.bind_eq_bind, Option.bind_some]
      cases cdef[code]? with
      | none => rfl
      | some d =>
        simp only [Option.bind_some]
        cases d with
        | word f => simp only [Option.map_bind, Function.comp_def, ih]
        | dword f => simp only [Option.map_bind, Function.comp_def, ih]
        | cstruct f => simp only [Option.map_bind, Function.comp_def, ih]
        | cend => rfl
        | cmstruct f =>
          cases c.m[c.l]? with
          | none => rfl
          | some n =>
            simp only [Option.bind_some]
            by_cases zero : n = 0
            · simp only [if_pos zero, Option.map_bind, Function.comp_def, ih]
            · simp only [if_neg zero, Option.map_bind, Function.comp_def, ih]
              rw [← ih _ (visits ++ [⟨code, .cmstruct f, c.l, some .compose⟩]), Option.bind_map]
              rfl

theorem decodeVisits_erase (msg : Bytes) : (decodeVisits msg).map Prod.fst = decodePars msg := by
  simp only [decodeVisits, decodePars, Option.bind_eq_bind, Option.map_bind, Function.comp_def,
    message2ParsVisits_erase]

/-! ## In lockstep -/

variable {ctype : Ctype} {mem : Nat → UInt8} {m : Bytes}

/-- The decoder is where the printer is and has visited the same parameters. -/
structure Abreast (m : Bytes) (c : Cmsg) (visits : List Visit) (s : Printer) : Prop where
  m : c.m = m
  par : c.par = s.cmsg.par
  p : c.p = s.cmsg.p
  l : c.l = s.cmsg.l
  visits : visits = s.visits

/-- The decoder gets to where the printer is, unless the message ends before. -/
def Arrives (m : Bytes) (r : Option (Cmsg × List Visit)) (s : Printer) : Prop :=
  match r with
  | some (c, visits) => Abreast m c visits s
  | none => m.length < s.cmsg.l

/-- One walk behind another. -/
theorem Arrives.bind {r : Option (Cmsg × List Visit)} {g : Cmsg × List Visit → Option (Cmsg × List Visit)}
    {s s' : Printer} (first : Arrives m r s) (ahead : s.cmsg.l ≤ s'.cmsg.l)
    (second : ∀ c visits, Abreast m c visits s → Arrives m (g (c, visits)) s') : Arrives m (r.bind g) s' := by
  cases r with
  | none =>
    have short : m.length < s.cmsg.l := first
    exact Nat.lt_of_lt_of_le short ahead
  | some r => exact second r.1 r.2 first

/-! ### Turns -/

/-- The size of a struct is read where its length is in the message. -/
theorem structSize_memory (same : Starts mem m) :
    structSize (m.drop l) = some (structExtent mem l) ∨
      structSize (m.drop l) = none ∧ m.length < l + structExtent mem l := by
  unfold structSize structExtent
  simp only [Option.bind_eq_bind, List.getElem?_drop, Nat.add_zero, getElem?_memory same]
  have drop : peek (m.drop l) 1 2 = peek m (l + 1) 2 := by
    unfold peek
    rw [List.length_drop, List.drop_drop]
    have inside : 1 + 2 ≤ m.length - l ↔ l + 1 + 2 ≤ m.length := by omega
    simp only [inside]
  by_cases inside : l < m.length
  · rw [if_pos inside, Option.bind_some]
    by_cases long : mem l = 0xff
    · rw [if_neg (not_not_intro long), if_neg (not_not_intro long), drop, peek_memory same]
      by_cases within : l + 1 + 2 ≤ m.length
      · rw [if_pos within]
        exact .inl rfl
      · rw [if_neg within]
        refine .inr ⟨rfl, ?_⟩
        omega
    · rw [if_pos long, if_pos long]
      exact .inl rfl
  · rw [if_neg inside]
    refine .inr ⟨rfl, ?_⟩
    split
    · omega
    · omega

section Turns

variable {c : Cmsg} {visits : List Visit} {s s' : Printer} {fuel level code : Nat} {d : Cdef}

theorem message2ParsVisits_plain (plain : d.Plain) (here : c.par[c.p]? = some code) (found : cdef[code]? = some d) :
    message2ParsVisits (fuel + 1) c visits =
      (c.read d).bind fun c' => message2ParsVisits fuel c'.next (visits ++ [⟨code, d, c.l, none⟩]) := by
  cases d with
  | word f =>
    cases value : peek c.m c.l 2 with
    | none => simp [message2ParsVisits, here, found, Cmsg.read, value]
    | some bs => simp [message2ParsVisits, here, found, Cmsg.read, value]
  | dword f =>
    cases value : peek c.m c.l 4 with
    | none => simp [message2ParsVisits, here, found, Cmsg.read, value]
    | some bs => simp [message2ParsVisits, here, found, Cmsg.read, value]
  | cstruct f =>
    cases size : structSize (c.m.drop c.l) with
    | none => simp [message2ParsVisits, here, found, Cmsg.read, size]
    | some n => simp [message2ParsVisits, here, found, Cmsg.read, size]
  | cmstruct f => exact plain.elim
  | cend => exact plain.elim

/-- A plain parameter is read and passed, unless the message ends in it. -/
theorem read_memory (same : Starts mem c.m) (plain : d.Plain) :
    (∃ c', c.read d = some c' ∧ c'.m = c.m ∧ c'.par = c.par ∧ c'.p = c.p ∧ c'.l = c.l + d.extent mem c.l) ∨
      c.read d = none ∧ c.m.length < c.l + d.extent mem c.l := by
  cases d with
  | word f =>
    have value := @peek_memory mem c.m c.l 2 same
    by_cases inside : c.l + 2 ≤ c.m.length
    · rw [if_pos inside] at value
      exact .inl ⟨_, congrArg (Option.map _) value, rfl, rfl, rfl, rfl⟩
    · rw [if_neg inside] at value
      exact .inr ⟨congrArg (Option.map _) value, Nat.lt_of_not_le inside⟩
  | dword f =>
    have value := @peek_memory mem c.m c.l 4 same
    by_cases inside : c.l + 4 ≤ c.m.length
    · rw [if_pos inside] at value
      exact .inl ⟨_, congrArg (Option.map _) value, rfl, rfl, rfl, rfl⟩
    · rw [if_neg inside] at value
      exact .inr ⟨congrArg (Option.map _) value, Nat.lt_of_not_le inside⟩
  | cstruct f =>
    rcases @structSize_memory mem c.m c.l same with size | ⟨size, short⟩
    · exact .inl ⟨_, congrArg (Option.map _) size, rfl, rfl, rfl, rfl⟩
    · exact .inr ⟨congrArg (Option.map _) size, short⟩
  | cmstruct f => exact plain.elim
  | cend => exact plain.elim

section Composite

variable {f : CmstructField} (here : c.par[c.p]? = some code) (found : cdef[code]? = some (.cmstruct f))
include here found

theorem message2ParsVisits_outside (outside : c.m[c.l]? = none) : message2ParsVisits (fuel + 1) c visits = none := by
  simp [message2ParsVisits, here, found, outside]

theorem message2ParsVisits_default {p : Nat} (zero : c.m[c.l]? = some 0)
    (jump : ∀ e : Cmsg, e.par = c.par → e.p = c.p → jumpcstruct e = some { e with p }) :
    message2ParsVisits (fuel + 1) c visits = message2ParsVisits fuel
      { c with cmstruct := Function.update c.cmstruct f .default, l := c.l + 1, p := p + 1 }
      (visits ++ [⟨code, .cmstruct f, c.l, some .default⟩]) := by
  have jumped := jump { c with cmstruct := Function.update c.cmstruct f .default, l := c.l + 1 } rfl rfl
  simp [message2ParsVisits, here, found, zero, jumped, Cmsg.next]

theorem message2ParsVisits_compose {n : UInt8} (byte : c.m[c.l]? = some n) (filled : n ≠ 0) :
    message2ParsVisits (fuel + 1) c visits = (message2ParsVisits fuel
      { c with
        cmstruct := Function.update c.cmstruct f .compose
        l := if n = 255 then c.l + 3 else c.l + 1
        p := c.p + 1 }
      (visits ++ [⟨code, .cmstruct f, c.l, some .compose⟩])).bind fun r => message2ParsVisits fuel r.1.next r.2 := by
  simp [message2ParsVisits, here, found, byte, filled]

end Composite

/-- The printer is at a code of `cdef` when it does not fail. -/
theorem protocolMessage2Pars_code (run : protocolMessage2Pars ctype mem (fuel + 1) level s = some s') :
    ∃ code d, s.cmsg.par[s.cmsg.p]? = some code ∧ cdef[code]? = some d := by
  unfold protocolMessage2Pars at run
  obtain ⟨code, here, run⟩ := Option.bind_eq_some_iff.mp run
  obtain ⟨d, found, -⟩ := Option.bind_eq_some_iff.mp run
  exact ⟨code, d, here, found⟩

/-- It can pass over the members of a composite when it does not fail. -/
theorem protocolMessage2Pars_jumps {f : CmstructField} (here : s.cmsg.par[s.cmsg.p]? = some code)
    (found : cdef[code]? = some (.cmstruct f)) (zero : mem s.cmsg.l = 0)
    (run : protocolMessage2Pars ctype mem (fuel + 1) level s = some s') :
    ∃ p, ∀ e : Cmsg, e.par = s.cmsg.par → e.p = s.cmsg.p → jumpcstruct e = some { e with p } := by
  cases jump : jumpcstruct s.cmsg with
  | none =>
    have stuck := @jumpcstruct_congr s.cmsg { s.cmsg with l := s.cmsg.l + 1 } rfl rfl
    rw [jump, Option.map_none] at stuck
    simp [protocolMessage2Pars, here, found, zero, Printer.skip, Printer.visit, Printer.print, Printer.indent_cmsg,
      stuck] at run
  | some moved =>
    refine ⟨moved.p, ?_⟩
    intro e par p
    rw [jumpcstruct_congr par p, jump]
    rfl

end Turns

/-! ### One turn of both -/

namespace Abreast

variable {c : Cmsg} {visits : List Visit} {s s' : Printer} {fuel code : Nat} {buf : Bytes}

theorem plain {d : Cdef} (abreast : Abreast m c visits s) (same : Starts mem m) (plain : d.Plain)
    (here : s.cmsg.par[s.cmsg.p]? = some code) (found : cdef[code]? = some d)
    (passed : s.cmsg.l + d.extent mem s.cmsg.l ≤ s'.cmsg.l)
    (others : ∀ c visits, Abreast m c visits
        (s.line ⟨code, d, s.cmsg.l, none⟩ buf (d.extent mem s.cmsg.l) (s.cmsg.p + 1)) →
      Arrives m (message2ParsVisits fuel c visits) s') :
    Arrives m (message2ParsVisits (fuel + 1) c visits) s' := by
  obtain ⟨rfl, par, p, l, rfl⟩ := abreast
  rw [← par, ← p] at here
  rw [message2ParsVisits_plain plain here found]
  rcases read_memory same plain with ⟨c', read, m, par', p', l'⟩ | ⟨read, short⟩
  · rw [read, Option.bind_some]
    apply others
    rw [l] at l' ⊢
    exact ⟨m, par'.trans par, congrArg (· + 1) (p'.trans p), l', rfl⟩
  · rw [read]
    rw [l] at short
    exact Nat.lt_of_lt_of_le short passed

theorem cend (abreast : Abreast m c visits s) (here : s.cmsg.par[s.cmsg.p]? = some code)
    (found : cdef[code]? = some .cend) : Arrives m (message2ParsVisits (fuel + 1) c visits) s := by
  rw [← abreast.par, ← abreast.p] at here
  have done : message2ParsVisits (fuel + 1) c visits = some (c, visits) := by
    simp [message2ParsVisits, here, found]
  rw [done]
  exact abreast

section Composite

variable {f : CmstructField} (abreast : Abreast m c visits s) (same : Starts mem m)
  (here : s.cmsg.par[s.cmsg.p]? = some code) (found : cdef[code]? = some (.cmstruct f)) (passed : s.cmsg.l < s'.cmsg.l)
include abreast same here found passed

/-- The message ends where a composite should begin. -/
theorem outside (outside : ¬ s.cmsg.l < m.length) : Arrives m (message2ParsVisits (fuel + 1) c visits) s' := by
  obtain ⟨rfl, par, p, l, rfl⟩ := abreast
  rw [← par, ← p] at here
  have byte := @getElem?_memory mem c.m c.l same
  rw [l, if_neg outside, ← l] at byte
  rw [message2ParsVisits_outside here found byte]
  exact Nat.lt_of_le_of_lt (Nat.le_of_not_lt outside) passed

theorem default {q : Nat} (zero : mem s.cmsg.l = 0)
    (jump : ∀ e : Cmsg, e.par = s.cmsg.par → e.p = s.cmsg.p → jumpcstruct e = some { e with p := q })
    (others : ∀ c visits, Abreast m c visits (s.line ⟨code, .cmstruct f, s.cmsg.l, some .default⟩ buf 1 (q + 1)) →
      Arrives m (message2ParsVisits fuel c visits) s') :
    Arrives m (message2ParsVisits (fuel + 1) c visits) s' := by
  by_cases inside : s.cmsg.l < m.length
  · obtain ⟨rfl, par, p, l, rfl⟩ := abreast
    rw [← par, ← p] at here jump
    have byte := @getElem?_memory mem c.m c.l same
    rw [l, if_pos inside, zero, ← l] at byte
    rw [message2ParsVisits_default here found byte jump]
    apply others
    rw [l]
    exact ⟨rfl, par, rfl, rfl, rfl⟩
  · exact abreast.outside same here found passed inside

theorem compose {s₁ : Printer} (filled : mem s.cmsg.l ≠ 0) (left : s₁.cmsg.l ≤ s'.cmsg.l)
    (members : ∀ c visits, Abreast m c visits (s.line ⟨code, .cmstruct f, s.cmsg.l, some .compose⟩ buf
        (if mem s.cmsg.l = 255 then 3 else 1) (s.cmsg.p + 1)) →
      Arrives m (message2ParsVisits fuel c visits) s₁)
    (others : ∀ c visits, Abreast m c visits s₁.next → Arrives m (message2ParsVisits fuel c visits) s') :
    Arrives m (message2ParsVisits (fuel + 1) c visits) s' := by
  by_cases inside : s.cmsg.l < m.length
  · obtain ⟨rfl, par, p, l, rfl⟩ := abreast
    rw [← par, ← p] at here
    have byte := @getElem?_memory mem c.m c.l same
    rw [l, if_pos inside, ← l] at byte
    rw [message2ParsVisits_compose here found byte (by rwa [l])]
    apply Arrives.bind (members _ _ _) left
    · rintro c' visits' ⟨m, par', p', l', rfl⟩
      apply others
      exact ⟨m, par', congrArg (· + 1) p', l', rfl⟩
    · rw [l]
      refine ⟨rfl, par, congrArg (· + 1) p, ?_, rfl⟩
      show (if mem s.cmsg.l = 255 then s.cmsg.l + 3 else s.cmsg.l + 1) = s.cmsg.l + _
      split
      · rfl
      · rfl
  · exact abreast.outside same here found passed inside

end Composite

end Abreast

/-- One call of the printer, and the same call of the decoder. -/
theorem lockstep (same : Starts mem m) (fuel level : Nat) {s s' : Printer}
    (run : protocolMessage2Pars ctype mem fuel level s = some s') :
    s.cmsg.l ≤ s'.cmsg.l ∧
      ∀ c visits, Abreast m c visits s → Arrives m (message2ParsVisits fuel c visits) s' := by
  induction fuel generalizing level s s' with
  | zero => cases run
  | succ fuel ih =>
    obtain ⟨code, d, here, found⟩ := protocolMessage2Pars_code run
    by_cases plain : d.Plain
    · obtain ⟨buf, turn, -⟩ := @protocolMessage2Pars_plain ctype mem s level code d plain here found
      rw [turn] at run
      obtain ⟨after, others⟩ := ih _ run
      have passed : s.cmsg.l + d.extent mem s.cmsg.l ≤ s'.cmsg.l := after
      refine ⟨Nat.le_trans (Nat.le_add_right _ _) passed, fun c visits abreast => ?_⟩
      exact abreast.plain same plain here found passed others
    · cases d with
      | word f => exact absurd trivial plain
      | dword f => exact absurd trivial plain
      | cstruct f => exact absurd trivial plain
      | cend =>
        rw [protocolMessage2Pars_cend here found] at run
        cases run
        exact ⟨Nat.le_refl _, fun c visits abreast => abreast.cend here found⟩
      | cmstruct f =>
        by_cases zero : mem s.cmsg.l = 0
        · obtain ⟨q, jump⟩ := protocolMessage2Pars_jumps here found zero run
          obtain ⟨buf, turn, -⟩ := @protocolMessage2Pars_default ctype mem s level code f q here found zero
            (jump _ rfl rfl)
          rw [turn] at run
          obtain ⟨after, others⟩ := ih _ run
          have passed : s.cmsg.l + 1 ≤ s'.cmsg.l := after
          refine ⟨Nat.le_of_lt passed, fun c visits abreast => ?_⟩
          exact abreast.default same here found passed zero jump others
        · obtain ⟨buf, turn, -⟩ := @protocolMessage2Pars_compose ctype mem s level code f here found zero
          rw [turn] at run
          obtain ⟨s₁, inner, run⟩ := Option.bind_eq_some_iff.mp run
          obtain ⟨before, members⟩ := ih _ inner
          obtain ⟨left, others⟩ := ih _ run
          have entered : s.cmsg.l + (if mem s.cmsg.l = 255 then 3 else 1) ≤ s₁.cmsg.l := before
          have left : s₁.cmsg.l ≤ s'.cmsg.l := left
          have passed : s.cmsg.l < s'.cmsg.l := by
            split at entered
            · omega
            · omega
          refine ⟨Nat.le_of_lt passed, fun c visits abreast => ?_⟩
          exact abreast.compose same here found passed zero left members others

/-! ## Whole messages -/

/-- The decoder visits the parameters that the printer has visited, and ends where it is. -/
def SameWalk (m : Bytes) (s : Printer) : Prop :=
  ∃ cmsg, decodePars m = some cmsg ∧ decodeVisits m = some (cmsg, s.visits) ∧ cmsg.l = s.cmsg.l

theorem Abreast.sameWalk {s : Printer} {cmsg : Cmsg} {visits : List Visit} (abreast : Abreast m cmsg visits s)
    (decoded : decodeVisits m = some (cmsg, visits)) : SameWalk m s := by
  have plain := decodeVisits_erase m
  rw [decoded] at plain
  refine ⟨cmsg, plain.symm, ?_, abreast.l⟩
  rw [← abreast.visits]
  exact decoded

/-- The printer walks a message as the decoder does, over any part of the memory that the decoder gets through. -/
theorem capiMessage2str_sameWalk (ctype : Ctype) (stack : Cmsg) {mem : Nat → UInt8} {par : List Nat}
    (template : cpars (command2Index (mem 4) (mem 5)) = some par) :
    ∃ s, capiMessage2str ctype stack mem = some s ∧
      ∀ m : Bytes, Starts mem m → s.cmsg.l ≤ m.length ∨ (decodePars m).isSome → SameWalk m s := by
  obtain ⟨name, named, -⟩ := mname_of_cpars template
  obtain ⟨s, run, -⟩ := @protocolMessage2Pars_template ctype mem par (layout par) (cpars_laid template)
    ((⟨{ stack with l := 8, p := 0, command := mem 4, subcommand := mem 5, par }, [], []⟩ : Printer).print
      (padRight 26 name ++ headerText mem)) rfl rfl
  refine ⟨s, ?_, ?_⟩
  · simp only [capiMessage2str, template, named, Option.bind_eq_bind, Option.bind_some]
    exact run
  · intro m same long
    obtain ⟨ahead, arrives⟩ := lockstep same par.length 1 run
    have behind : 8 ≤ s.cmsg.l := ahead
    -- the command is in the part that the decoder gets through
    have header : 6 ≤ m.length := by
      rcases long with long | decoded
      · omega
      · by_contra short
        have outside : m[5]? = none := List.getElem?_eq_none (by omega)
        simp [decodePars, outside] at decoded
    have command : m[4]? = some (mem 4) := by rw [getElem?_memory same, if_pos (by omega)]
    have subcommand : m[5]? = some (mem 5) := by rw [getElem?_memory same, if_pos (by omega)]
    have walk : decodeVisits m = message2ParsVisits par.length
        { Cmsg.zero m with command := mem 4, subcommand := mem 5, l := 8, par } [] := by
      simp only [decodeVisits, command, subcommand, template, Option.bind_eq_bind, Option.bind_some]
    have reached := arrives { Cmsg.zero m with command := mem 4, subcommand := mem 5, l := 8, par } []
      ⟨rfl, rfl, rfl, rfl, rfl⟩
    rw [← walk] at reached
    cases decoded : decodeVisits m with
    | none =>
      rw [decoded] at reached
      have short : m.length < s.cmsg.l := reached
      have erased := decodeVisits_erase m
      rw [decoded] at erased
      rw [← erased] at long
      rcases long with long | result
      · omega
      · cases result
    | some r =>
      rw [decoded] at reached
      exact Abreast.sameWalk reached decoded

/-- An ALERT_REQ with a composite. -/
theorem capiMessage2str_sameWalk_alertReq :
    cpars (command2Index 0x01 0x80) = some [0x03, 0x04, 0x0c, 0x27, 0x2f, 0x1c, 0x01, 0x01] ∧
      ∃ s, capiMessage2str ⟨fun _ => false, rfl⟩ (Cmsg.zero []) (Memory.image alertReq fun _ => 0xff) = some s ∧
        SameWalk alertReq s := by
  have template : cpars (command2Index 0x01 0x80) = some [0x03, 0x04, 0x0c, 0x27, 0x2f, 0x1c, 0x01, 0x01] := rfl
  obtain ⟨s, run, walks⟩ := @capiMessage2str_sameWalk ⟨fun _ => false, rfl⟩ (Cmsg.zero [])
    (Memory.image alertReq fun _ => 0xff) _ template
  exact ⟨template, s, run, walks alertReq (starts_image alertReq _) (.inr (by decide))⟩

end Capi4Linux.Capiutil
