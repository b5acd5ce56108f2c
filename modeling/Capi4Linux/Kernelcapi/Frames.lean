import Mathlib.Data.List.Nodup
import Capi4Linux.Kernelcapi.State

/-!
# kernelcapi: calls of one application leave the others alone

What `capi_register`, `capi_release` and `capi_put_message` do in an orderly
capicore, seen by the owner of another application.
-/

namespace Capi4Linux.Kernelcapi
open Capicore

/-- The application of a driver call. -/
def callAppl : DrvCall → Nat
  | .capiRegister _ a _ => a
  | .capiRelease _ a => a
  | .capiPutMessage _ a _ => a

/-- Only application `a` is touched. -/
structure Apart (a : Nat) (c c' : Core) : Prop where
  appl : ∀ b ≠ a, c'.appl b = c.appl b
  phase : ∀ b ≠ a, c'.applPhase b = c.applPhase b
  puts : c'.puts = c.puts
  calls : ∃ new, c'.calls = c.calls ++ new ∧ ∀ e ∈ new, callAppl e = a

/-- The application that a section registers or releases. -/
def registrant : Section → Option Nat
  | .applRegister a _ _ => some a
  | .applRelease a => some a
  | _ => none

/-- The application that a section registers, releases or sends a message of. -/
def user : Section → Option Nat
  | .putLookup a _ => some a
  | l => registrant l

/-- Different numbers have different slots. -/
theorem index_ne {id id' : UInt16} (nonzero : id' ≠ 0) (nonzero' : id ≠ 0) (other : id' ≠ id) :
    id'.toNat - 1 ≠ id.toNat - 1 := by
  have one := UInt16.toNat_inj.not.2 nonzero
  have two := UInt16.toNat_inj.not.2 nonzero'
  have three := UInt16.toNat_inj.not.2 other
  simp only [UInt16.toNat_ofNat] at one two
  omega

section Core

variable {cfg : Config} {c c' : Core} {a : Nat}

theorem capiRegister_apart (h : Registry cfg c) (fresh : c.applPhase a = .fresh) (datablklen : UInt32)
    (info : Nat → Capinfo0x10) (narrow : InRange cfg c (.applRegister a datablklen info)) :
    ∃ r c', capiRegister cfg c a datablklen info = some (r, c') ∧ Registry cfg c' ∧ Apart a c c' ∧
      (r = .NOERR → c'.applPhase a = .registered) ∧ (r ≠ .NOERR → c'.applPhase = c.applPhase) := by
  obtain ⟨r, c', run, keep, joined, refused⟩ := h.applRegister fresh datablklen info narrow
  refine ⟨r, c', run, keep, ?_, fun ok => ?_, fun failed => ?_⟩
  · rcases eq_or_ne r .NOERR with ok | failed
    · obtain ⟨⟨⟨list, appl, device, frame⟩, others, -, -⟩, -⟩ := joined ok
      constructor
      · exact others
      · intro b other
        rw [frame]
        exact Function.update_of_ne other _ _
      · rw [frame]
      · refine ⟨c.capiDevsList.map fun d => .capiRegister d a (info d), by rw [frame], fun e member => ?_⟩
        obtain ⟨d, -, rfl⟩ := List.mem_map.1 member
        rfl
    · obtain ⟨⟨appl, frame⟩, others⟩ := refused failed
      constructor
      · exact others
      · intro b _
        rw [frame]
      · rw [frame]
      · exact ⟨[], by rw [frame, List.append_nil], fun e member => nomatch member⟩
  · obtain ⟨⟨⟨list, appl, device, frame⟩, -, -, -⟩, -⟩ := joined ok
    rw [frame]
    exact Function.update_self _ _ _
  · obtain ⟨⟨appl, frame⟩, -⟩ := refused failed
    rw [frame]

theorem capiRelease_apart (h : Registry cfg c) (registered : c.applPhase a = .registered)
    (quiet : ∀ p ∈ c.puts, p.appl ≠ a) :
    ∃ info c', capiRelease cfg c a = some (info, c') ∧ Registry cfg c' ∧ Apart a c c' ∧ c'.appl = c.appl ∧
      c'.applPhase a = .released := by
  obtain ⟨info, c1, run, released, keep⟩ := h.applRelease registered quiet
  obtain ⟨table, device, calls, frame, -, mem⟩ := released.frame
  refine ⟨info, _, run, keep, ?_, by rw [frame]; rfl, Function.update_self _ _ _⟩
  constructor
  · intro b _
    rw [frame]
    rfl
  · intro b other
    rw [frame]
    exact Function.update_of_ne other _ _
  · rw [frame]
    rfl
  · refine ⟨calls, by rw [frame]; rfl, fun e member => ?_⟩
    obtain ⟨d, dev, rfl, -⟩ := (mem e).1 member
    rfl

/-- A message that finds its device is a call of the application that sent it. -/
theorem capiPutMessageLookup_appl {msg : Option (List UInt8)} {p : Put}
    (lookup : capiPutMessageLookup cfg c a msg = some (.inr p)) : p.appl = a := by
  unfold capiPutMessageLookup at lookup
  dsimp only at lookup
  split at lookup
  · cases lookup
  cases msg with
  | none => cases lookup
  | some msg =>
    dsimp only at lookup
    split at lookup
    · cases lookup
    split at lookup
    · cases lookup
    obtain ⟨d, -, made⟩ := Option.bind_eq_some_iff.1 lookup
    cases made
    rfl

/-- A message leaves all applications as they are; its driver call is for its own. -/
theorem capiPutMessageAnswered_apart (h : Registry cfg c) (registered : c.applPhase a = .registered)
    (msg : List UInt8) (answer : Capinfo0x11) :
    ∃ info c', capiPutMessageAnswered cfg c a msg answer = some (info, c') ∧ Registry cfg c' ∧ Apart a c c' ∧
      c'.appl = c.appl ∧ c'.applPhase = c.applPhase := by
  obtain ⟨r, lookup, underway⟩ := h.putLookup registered (some msg)
  unfold capiPutMessageAnswered
  rw [lookup]
  cases r with
  | inl info =>
    exact ⟨info, c, rfl, h, ⟨fun _ _ => rfl, fun _ _ => rfl, rfl, [], by simp, fun e member => nomatch member⟩, rfl, rfl⟩
  | inr p =>
    have mine := capiPutMessageLookup_appl lookup
    obtain ⟨dev, live, -, -⟩ := h.underway_live (underway p rfl)
    have enter := @capiPutMessageEnter_eq { c with puts := p :: c.puts } dev p live
    dsimp only at enter
    rw [List.erase_cons_head] at enter
    simp only [Option.bind_eq_bind, Option.bind_some]
    rw [enter]
    split
    · exact ⟨.OSRESERR, _, rfl, h, ⟨fun _ _ => rfl, fun _ _ => rfl, rfl, [], by simp, fun e member => nomatch member⟩,
        rfl, rfl⟩
    · dsimp only [Option.bind_some]
      let dev' : CapiDevice := { dev with sem := { dev.sem with readers := dev.sem.readers + 1 } }
      have live' : Function.update c.device p.dev (some dev') p.dev = some dev' := Function.update_self _ _ _
      rw [@capiPutMessageLeave_eq _ dev' { p with inside := true } live' answer]
      have calls : Apart a c { c with
          device := Function.update c.device p.dev (some { dev with sem := { dev.sem with readers := dev.sem.readers } })
          calls := c.calls ++ [.capiPutMessage p.dev p.appl p.msg]
          puts := c.puts } := by
        refine ⟨fun _ _ => rfl, fun _ _ => rfl, rfl, _, rfl, fun e member => ?_⟩
        rw [List.mem_singleton.1 member]
        exact mine
      refine ⟨answer, _, rfl, ?_⟩
      simp only [List.erase_cons_head, Function.update_idem, dev', Nat.add_sub_cancel]
      exact ⟨h.readers live h.puts, calls, trivial, trivial⟩

/-- The number and the phase of an application that a section does not register or release. -/
theorem step_others (h : Registry cfg c) {l : Section} (allowed : Allowed c l) (narrow : InRange cfg c l)
    (run : Capicore.step cfg c l = some c') (other : registrant l ≠ some a) :
    c'.applPhase a = c.applPhase a ∧ (c'.appl a).id = (c.appl a).id := by
  cases l with
  | applRegister b datablklen info =>
    have ne : a ≠ b := fun same => other (congrArg some same.symm)
    obtain ⟨r, c2, run', -, apart, -⟩ := capiRegister_apart h allowed datablklen info narrow
    rw [Capicore.step, run'] at run
    cases run
    exact ⟨apart.phase a ne, congrArg CapiAppl.id (apart.appl a ne)⟩
  | applRelease b =>
    have ne : a ≠ b := fun same => other (congrArg some same.symm)
    obtain ⟨r, c2, run', -, apart, -⟩ := capiRelease_apart h allowed.1 allowed.2
    rw [Capicore.step, run'] at run
    cases run
    exact ⟨apart.phase a ne, congrArg CapiAppl.id (apart.appl a ne)⟩
  | _ =>
    have same := step_same run (by simp) (by simp)
    exact ⟨congrFun same.phase a, same.id a⟩

/-- Calls underway are those before, or of the application that the section names. -/
theorem step_puts (h : Registry cfg c) {l : Section} (allowed : Allowed c l) (narrow : InRange cfg c l)
    (run : Capicore.step cfg c l = some c') : ∀ p ∈ c'.puts, (∃ q ∈ c.puts, q.appl = p.appl) ∨ user l = some p.appl := by
  have kept : c'.puts = c.puts → ∀ p ∈ c'.puts, (∃ q ∈ c.puts, q.appl = p.appl) ∨ user l = some p.appl :=
    fun same p member => .inl ⟨p, same ▸ member, rfl⟩
  cases l with
  | deviceAlloc mem =>
    apply kept
    cases run
    unfold capiDeviceAlloc
    split
    · rfl
    · rfl
  | deviceRegister d info =>
    obtain ⟨dev, live⟩ := h.live (d := d) (by rw [show c.devPhase d = .alloced from allowed]; rfl)
    apply kept
    rw [Capicore.step, capiDeviceRegister_eq live] at run
    split at run
    · cases run; rfl
    · cases run; rfl
  | deviceRegisterSysfs d res =>
    apply kept
    cases run
    unfold capiDeviceRegisterSysfs
    split
    · rfl
    · rfl
  | deviceUnlink d =>
    apply kept
    obtain ⟨dev, -, made⟩ := Option.bind_eq_some_iff.1 run
    cases made
    rfl
  | deviceDrain d =>
    apply kept
    obtain ⟨dev, -, made⟩ := Option.bind_eq_some_iff.1 run
    cases made
    rfl
  | devicePut d =>
    apply kept
    obtain ⟨c1, put, made⟩ := Option.map_eq_some_iff.1 run
    obtain ⟨dev, live, -⟩ := Option.bind_eq_some_iff.1 put
    rw [capiDevicePut_eq live] at put
    cases put
    rw [← made]
    rfl
  | applRegister a datablklen info =>
    obtain ⟨r, c2, run', -, apart, -⟩ := capiRegister_apart h allowed datablklen info narrow
    rw [Capicore.step, run'] at run
    cases run
    exact kept apart.puts
  | applRelease a =>
    obtain ⟨r, c2, run', -, apart, -⟩ := capiRelease_apart h allowed.1 allowed.2
    rw [Capicore.step, run'] at run
    cases run
    exact kept apart.puts
  | applSignalError a info =>
    apply kept
    cases run
    unfold capiApplSignalError
    dsimp only
    split
    · rfl
    · rfl
  | putLookup a msg =>
    obtain ⟨r, lookup, made⟩ := Option.map_eq_some_iff.1 run
    cases r with
    | inl info =>
      cases made
      exact kept rfl
    | inr q =>
      cases made
      intro p member
      rcases List.mem_cons.1 member with rfl | old
      · exact .inr (congrArg some (capiPutMessageLookup_appl lookup).symm)
      · exact .inl ⟨p, old, rfl⟩
  | putEnter q =>
    obtain ⟨dev, live, -, -⟩ := h.underway_live (h.puts q allowed.1)
    rw [Capicore.step, capiPutMessageEnter_eq live] at run
    split at run
    · cases run
      intro p member
      exact .inl ⟨p, List.mem_of_mem_erase member, rfl⟩
    · cases run
      intro p member
      rcases List.mem_cons.1 member with rfl | old
      · exact .inl ⟨q, allowed.1, rfl⟩
      · exact .inl ⟨p, List.mem_of_mem_erase old, rfl⟩
  | putLeave q info =>
    obtain ⟨dev, live, -, -⟩ := h.underway_live (h.puts q allowed.1)
    rw [Capicore.step, capiPutMessageLeave_eq live] at run
    cases run
    intro p member
    exact .inl ⟨p, List.mem_of_mem_erase member, rfl⟩

/-- Registered applications have different numbers. -/
theorem id_inj (h : Registry cfg c) {b : Nat} (registered : c.applPhase a = .registered)
    (registered' : c.applPhase b = .registered) (same : (c.appl a).id = (c.appl b).id) : a = b := by
  have member := (h.listed.phase a).2 registered
  have member' := (h.listed.phase b).2 registered'
  have nodup : c.ids.Nodup := h.listed.numbered.1.imp fun lt => Nat.ne_of_lt lt
  exact List.inj_on_of_nodup_map nodup member member' (congrArg UInt16.toNat same)

/-- A registered application has a number from 1 to `CAPI_MAX_APPLS`. -/
theorem id_range (h : Registry cfg c) (registered : c.applPhase a = .registered) :
    1 ≤ (c.appl a).id.toNat ∧ (c.appl a).id.toNat ≤ cfg.maxAppls := by
  have member := (h.listed.phase a).2 registered
  exact h.listed.numbered.2 _ (List.mem_map.2 ⟨a, member, rfl⟩)

end Core

end Capi4Linux.Kernelcapi
