import Capi4Linux.Kernelcapi.State
import Capi4Linux.Capicore.Step

/-!
# Signal handlers of the front ends

A device calls `appl->sig` without a look at it. `capi.c` and `capidrv.c`
install their handler before they register; kernelcapi registers without one,
and its client may install one later and take it away again. The calls of the
three front ends are split where a device can come in between: a signal may
arrive from the moment `capi_register` is entered until `capi_release` returns.
-/

namespace Capi4Linux.Kernelcapi
open Capicore Machine

/-- The three users of `struct capi_appl`. -/
inductive FrontEnd where
  | capi
  | capidrv
  | kernelcapi
  deriving DecidableEq

/-- A non-NULL `capi_signal_handler_t`. -/
inductive Handler where
  | capiSignal
  | capidrvSignal
  | kernelcapiSignalHandler
  deriving DecidableEq

/-- The front end whose function it is. -/
def Handler.owner : Handler → FrontEnd
  | .capiSignal => .capi
  | .capidrvSignal => .capidrv
  | .kernelcapiSignalHandler => .kernelcapi

/-- The capicore and kernelcapi, and of every `struct capi_appl` its handler and whose memory it
is in. `uses` counts the calls of `capi_register` that have begun and whose application is not
released, `asked` is the function that the client of a kernelcapi application passed last, and
`signals` are the handlers called so far. -/
structure FrontEnds where
  kernel : State
  sig : Nat → Option Handler
  memory : Nat → Option FrontEnd
  uses : Nat → Nat
  asked : Nat → Option Nat
  signals : List (Nat × Handler)

def FrontEnds.init : FrontEnds := ⟨State.init, fun _ => none, fun _ => none, fun _ => 0, fun _ => none, []⟩

/-- `capi_set_signal`; the parameter is 0 in all calls. -/
def capiSetSignal (s : FrontEnds) (appl : Option Nat) (signal : Option Handler) : FrontEnds :=
  match appl with
  | none => s
  | some a => { s with sig := Function.update s.sig a signal }

/-- `capi_register` is entered. -/
def FrontEnds.enter (s : FrontEnds) (a : Nat) : FrontEnds :=
  { s with uses := Function.update s.uses a (s.uses a + 1) }

/-- `capi_register` has failed, or `capi_release` has returned. -/
def FrontEnds.leave (s : FrontEnds) (a : Nat) : FrontEnds :=
  { s with uses := Function.update s.uses a (s.uses a - 1) }

def FrontEnds.setCore (s : FrontEnds) (core : Core) : FrontEnds := { s with kernel := { s.kernel with core := core } }

/-! ## `capi.c` -/

/-- The part of `capidev_alloc` that concerns the application: zeroed memory. -/
def capidevAlloc (s : FrontEnds) (a : Nat) : FrontEnds :=
  { s.setCore (s.kernel.core.setAppl a ⟨0, .NOERR, fun _ => false, 0⟩) with
    sig := Function.update s.sig a none
    memory := Function.update s.memory a (some .capi) }

/-- `capi_ioctl` with CAPI_REGISTER up to the call of `capi_register`; `fault` says that the
parameters cannot be copied. -/
def capiIoctlRegister (s : FrontEnds) (a : Nat) (fault : Bool) : FrontEnds :=
  if (s.kernel.core.appl a).id ≠ 0 then s
  else if fault then s
  else (capiSetSignal s (some a) (some .capiSignal)).enter a

/-- The rest of it. -/
def capiIoctlRegistered (cfg : Config) (s : FrontEnds) (a : Nat) (datablklen : UInt32) (info : Nat → Capinfo0x10) :
    Option FrontEnds := do
  let (r, core) ← capiRegister cfg s.kernel.core a datablklen info
  if r ≠ .NOERR then return (s.setCore (core.setAppl a { core.appl a with id := 0 })).leave a
  else return s.setCore core

/-- The part of `capidev_free` that concerns the application, at the return of `capi_release`. -/
def capidevFree (cfg : Config) (s : FrontEnds) (a : Nat) : Option FrontEnds :=
  if (s.kernel.core.appl a).id ≠ 0 then do
    let (_, core) ← capiRelease cfg s.kernel.core a
    return (s.setCore (core.setAppl a { core.appl a with id := 0 })).leave a
  else some s

/-! ## `capidrv.c` -/

/-- `capidrv_init` up to the call of `capi_register`; the application is static memory of the module. -/
def capidrvInit (s : FrontEnds) (a : Nat) : FrontEnds :=
  (capiSetSignal { s with memory := Function.update s.memory a (some .capidrv) } (some a) (some .capidrvSignal)).enter a

/-- The return of `capi_register` there. -/
def capidrvRegistered (cfg : Config) (s : FrontEnds) (a : Nat) (datablklen : UInt32) (info : Nat → Capinfo0x10) :
    Option FrontEnds := do
  let (r, core) ← capiRegister cfg s.kernel.core a datablklen info
  if r ≠ .NOERR then return (s.setCore core).leave a else return s.setCore core

/-- The return of `capi_release`, in `capidrv_exit` or after a failed `class_interface_register`. -/
def capidrvExit (cfg : Config) (s : FrontEnds) (a : Nat) : Option FrontEnds := do
  let (_, core) ← capiRelease cfg s.kernel.core a
  return (s.setCore core).leave a

/-! ## `kernelcapi.c` -/

/-- `kernelcapi_register` up to the call of `capi_register`, with memory. -/
def kernelcapiRegisterEnter (s : FrontEnds) (a : Nat) : FrontEnds :=
  (capiSetSignal { s with
    memory := Function.update s.memory a (some .kernelcapi)
    asked := Function.update s.asked a none } (some a) none).enter a

/-- The rest of it. The table has no slot for number 0, which `CAPI_MAX_APPLS` does not refuse. -/
def kernelcapiRegistered (cfg : Config) (s : FrontEnds) (a : Nat) (datablklen : UInt32) (info : Nat → Capinfo0x10) :
    Option FrontEnds := do
  let (r, kernel) ← kernelcapiRegisterCore cfg s.kernel a datablklen info
  if r ≠ .NOERR then return { s with kernel }.leave a
  else if (kernel.core.appl a).id = 0 then none
  else return { s with kernel := (kernelcapiRegisterSlot cfg kernel a).2.2 }

/-- `kernelcapi_release` up to the return of `capi_release`. -/
def kernelcapiReleased (cfg : Config) (s : FrontEnds) (applid : UInt16) : Option FrontEnds :=
  if illegalApplid cfg applid then some s
  else do
    let a ← s.kernel.slot applid
    let (_, kernel) ← kernelcapiReleaseCore cfg s.kernel a
    return { s with kernel }.leave a

/-- `kernelcapi_set_signal`. -/
def kernelcapiSetSignalAppl (cfg : Config) (s : FrontEnds) (applid : UInt16) (signal : Option Nat) (param : UInt32) :
    Option FrontEnds := do
  let (info, kernel) ← kernelcapiSetSignal cfg s.kernel applid signal param
  if info ≠ .NOERR then return { s with kernel }
  else
    let a ← s.kernel.slot applid
    return capiSetSignal { s with kernel, asked := Function.update s.asked a signal } (some a)
      (signal.map fun _ => .kernelcapiSignalHandler)

/-! ## Devices -/

/-- `capi_appl_signal`; a call through NULL has no outcome. -/
def capiApplSignal (s : FrontEnds) (a : Nat) : Option FrontEnds :=
  match s.sig a with
  | none => none
  | some handler => some { s with signals := s.signals ++ [(a, handler)] }

/-- What happens, in any order. -/
inductive FrontStep where
  | capidevAlloc (a : Nat)
  | capiIoctlRegister (a : Nat) (fault : Bool)
  | capiIoctlRegistered (a : Nat) (datablklen : UInt32) (info : Nat → Capinfo0x10)
  | capidevFree (a : Nat)
  | capidrvInit (a : Nat)
  | capidrvRegistered (a : Nat) (datablklen : UInt32) (info : Nat → Capinfo0x10)
  | capidrvExit (a : Nat)
  | kernelcapiRegister (a : Nat)
  | kernelcapiRegistered (a : Nat) (datablklen : UInt32) (info : Nat → Capinfo0x10)
  | kernelcapiReleased (applid : UInt16)
  | kernelcapiReleaseSlot (applid : UInt16)
  | kernelcapiSetSignal (applid : UInt16) (signal : Option Nat) (param : UInt32)
  | signal (a : Nat)
  | signalError (a : Nat) (info : Capinfo0x11)
  | core (l : Section)

/-- The application that a device signals. -/
def FrontStep.signalled : FrontStep → Option Nat
  | .signal a => some a
  | .signalError a _ => some a
  | _ => none

def frontStep (cfg : Config) (s : FrontEnds) : FrontStep → Option FrontEnds
  | .capidevAlloc a => some (Kernelcapi.capidevAlloc s a)
  | .capiIoctlRegister a fault => some (Kernelcapi.capiIoctlRegister s a fault)
  | .capiIoctlRegistered a datablklen info => Kernelcapi.capiIoctlRegistered cfg s a datablklen info
  | .capidevFree a => Kernelcapi.capidevFree cfg s a
  | .capidrvInit a => some (Kernelcapi.capidrvInit s a)
  | .capidrvRegistered a datablklen info => Kernelcapi.capidrvRegistered cfg s a datablklen info
  | .capidrvExit a => Kernelcapi.capidrvExit cfg s a
  | .kernelcapiRegister a => some (kernelcapiRegisterEnter s a)
  | .kernelcapiRegistered a datablklen info => Kernelcapi.kernelcapiRegistered cfg s a datablklen info
  | .kernelcapiReleased applid => Kernelcapi.kernelcapiReleased cfg s applid
  | .kernelcapiReleaseSlot applid => some { s with kernel := Kernelcapi.kernelcapiReleaseSlot s.kernel applid }
  | .kernelcapiSetSignal applid signal param => kernelcapiSetSignalAppl cfg s applid signal param
  | .signal a => capiApplSignal s a
  | .signalError a info => capiApplSignal (s.setCore (capiApplSignalError s.kernel.core a info)) a
  | .core l => (Capicore.step cfg s.kernel.core l).map s.setCore

/-- Memory comes fresh, a front end uses its own applications, and a device signals an application
from the call of `capi_register` on until `capi_release` has returned. -/
def FrontStep.Allowed (s : FrontEnds) : FrontStep → Prop
  | .capidevAlloc a => s.memory a = none
  | .capiIoctlRegister a _ => s.memory a = some .capi
  | .capiIoctlRegistered a _ _ => s.memory a = some .capi
  | .capidevFree a => s.memory a = some .capi
  | .capidrvInit a => s.memory a = none
  | .capidrvRegistered a _ _ => s.memory a = some .capidrv
  | .capidrvExit a => s.memory a = some .capidrv
  | .kernelcapiRegister a => s.memory a = none
  | .kernelcapiRegistered a _ _ => s.memory a = some .kernelcapi
  | .signal a => s.uses a ≠ 0
  | .signalError a _ => s.uses a ≠ 0
  | _ => True

/-- A signalled application has a handler, and its front end's own. -/
def SignalHandled (s : FrontEnds) (l : FrontStep) : Prop :=
  ∀ a, l.signalled = some a → ∃ handler, s.sig a = some handler ∧ s.memory a = some handler.owner

/-- When a kernelcapi application is signalled, its client has passed a handler to
`kernelcapi_set_signal` and has not passed NULL since. -/
def HandlerAsked (s : FrontEnds) (l : FrontStep) : Prop :=
  ∀ a, l.signalled = some a → s.memory a = some .kernelcapi → s.asked a ≠ none

/-! ## What the handlers are -/

/-- The handler of an application in the memory of a front end. -/
def FrontEnd.handler (asked : Option Nat) : FrontEnd → Option Handler
  | .capi => some .capiSignal
  | .capidrv => some .capidrvSignal
  | .kernelcapi => asked.map fun _ => .kernelcapiSignalHandler

/-- An application in use has the handler of its front end, and kernelcapi's table leads to its own. -/
structure Handled (s : FrontEnds) : Prop where
  used : ∀ a, s.uses a ≠ 0 → ∃ front, s.memory a = some front ∧ s.sig a = front.handler (s.asked a)
  table : ∀ i a, s.kernel.kernelcapiAppls i = some a → s.memory a = some .kernelcapi

/-- At the start there are no applications. -/
theorem handled_init : Handled .init where
  used _ used := absurd rfl used
  table _ _ slot := nomatch slot

section Steps

variable {cfg : Config} {s s' : FrontEnds} {a : Nat}

/-- A step that concerns the application `a` alone and leaves the table as it is. -/
theorem Handled.change (h : Handled s) (memory : ∀ b ≠ a, s'.memory b = s.memory b)
    (sig : ∀ b ≠ a, s'.sig b = s.sig b) (asked : ∀ b ≠ a, s'.asked b = s.asked b)
    (uses : ∀ b ≠ a, s'.uses b = s.uses b) (table : s'.kernel.kernelcapiAppls = s.kernel.kernelcapiAppls)
    (kind : s.memory a = some .kernelcapi → s'.memory a = some .kernelcapi)
    (own : s'.uses a ≠ 0 → ∃ front, s'.memory a = some front ∧ s'.sig a = front.handler (s'.asked a)) :
    Handled s' := by
  constructor
  · intro b used
    by_cases eq : b = a
    · subst eq
      exact own used
    · rw [uses b eq] at used
      obtain ⟨front, mem, handler⟩ := h.used b used
      exact ⟨front, (memory b eq).trans mem, by rw [sig b eq, asked b eq, handler]⟩
  · intro i b slot
    rw [table] at slot
    have mem := h.table i b slot
    by_cases eq : b = a
    · subst eq
      exact kind mem
    · exact (memory b eq).trans mem

/-- The capicore does not touch handlers. -/
theorem Handled.setCore (h : Handled s) (core : Core) : Handled (s.setCore core) := ⟨h.used, h.table⟩

/-- Nor does a table that leads to applications of kernelcapi. -/
theorem Handled.setKernel (h : Handled s) {kernel : State}
    (table : ∀ i b, kernel.kernelcapiAppls i = some b → s.memory b = some .kernelcapi) :
    Handled { s with kernel } := ⟨h.used, table⟩

theorem Handled.leave (h : Handled s) (a : Nat) : Handled (s.leave a) := by
  have others : ∀ b ≠ a, (s.leave a).uses b = s.uses b := fun b ne => Function.update_of_ne ne _ _
  refine h.change (fun _ _ => rfl) (fun _ _ => rfl) (fun _ _ => rfl) others rfl id ?_
  intro used
  have now : (s.leave a).uses a = s.uses a - 1 := Function.update_self _ _ _
  exact h.used a (by omega)

/-- No application is in use in memory that nobody has. -/
theorem Handled.unused (h : Handled s) (fresh : s.memory a = none) : s.uses a = 0 := by
  by_contra used
  obtain ⟨front, mem, -⟩ := h.used a used
  cases fresh.symm.trans mem

/-- An open. -/
theorem Handled.capidevAlloc (h : Handled s) (fresh : s.memory a = none) : Handled (Kernelcapi.capidevAlloc s a) := by
  have zero := h.unused fresh
  refine h.change (a := a) (fun b ne => Function.update_of_ne ne _ _) (fun b ne => Function.update_of_ne ne _ _)
    (fun _ _ => rfl) (fun _ _ => rfl) rfl ?_ ?_
  · intro mem
    cases fresh.symm.trans mem
  · intro used
    exact absurd zero used

theorem Handled.capiIoctlRegister (h : Handled s) (mem : s.memory a = some .capi) (fault : Bool) :
    Handled (Kernelcapi.capiIoctlRegister s a fault) := by
  unfold Kernelcapi.capiIoctlRegister
  split
  · exact h
  · split
    · exact h
    · refine h.change (a := a) (fun _ _ => rfl) (fun b ne => Function.update_of_ne ne _ _) (fun _ _ => rfl)
        (fun b ne => Function.update_of_ne ne _ _) rfl id ?_
      intro _
      exact ⟨.capi, mem, Function.update_self _ _ _⟩

theorem Handled.capidrvInit (h : Handled s) (fresh : s.memory a = none) : Handled (Kernelcapi.capidrvInit s a) := by
  refine h.change (a := a) (fun b ne => Function.update_of_ne ne _ _) (fun b ne => Function.update_of_ne ne _ _)
    (fun _ _ => rfl) (fun b ne => Function.update_of_ne ne _ _) rfl ?_ ?_
  · intro mem
    cases fresh.symm.trans mem
  · intro _
    exact ⟨.capidrv, Function.update_self _ _ _, Function.update_self _ _ _⟩

/-- kernelcapi registers without a handler, and nobody has asked for one. -/
theorem Handled.kernelcapiRegisterEnter (h : Handled s) (fresh : s.memory a = none) :
    Handled (Kernelcapi.kernelcapiRegisterEnter s a) := by
  refine h.change (a := a) (fun b ne => Function.update_of_ne ne _ _) (fun b ne => Function.update_of_ne ne _ _)
    (fun b ne => Function.update_of_ne ne _ _) (fun b ne => Function.update_of_ne ne _ _) rfl ?_ ?_
  · intro mem
    cases fresh.symm.trans mem
  · intro _
    refine ⟨.kernelcapi, Function.update_self _ _ _, ?_⟩
    have asked : (Kernelcapi.kernelcapiRegisterEnter s a).asked a = none := Function.update_self _ _ _
    rw [asked]
    exact Function.update_self _ _ _

/-- The slot of the new number leads to the new application. -/
theorem kernelcapiRegisterSlot_table {kernel : State} {i b : Nat}
    (slot : (kernelcapiRegisterSlot cfg kernel a).2.2.kernelcapiAppls i = some b) :
    b = a ∨ kernel.kernelcapiAppls i = some b := by
  simp only [kernelcapiRegisterSlot] at slot
  split at slot
  · exact .inr slot
  · change Function.update kernel.kernelcapiAppls ((kernel.core.appl a).id.toNat - 1) (some a) i = some b at slot
    by_cases here : i = (kernel.core.appl a).id.toNat - 1
    · subst here
      rw [Function.update_self] at slot
      exact .inl (Option.some.inj slot).symm
    · rw [Function.update_of_ne here] at slot
      exact .inr slot

/-- A registration through the table. -/
theorem Handled.kernelcapiRegistered (h : Handled s) (mem : s.memory a = some .kernelcapi) {datablklen : UInt32}
    {info : Nat → Capinfo0x10} (run : Kernelcapi.kernelcapiRegistered cfg s a datablklen info = some s') :
    Handled s' := by
  obtain ⟨⟨r, kernel⟩, registered, run⟩ := Option.bind_eq_some_iff.mp run
  have same : kernel.kernelcapiAppls = s.kernel.kernelcapiAppls := by
    obtain ⟨⟨r', core⟩, -, registered⟩ := Option.bind_eq_some_iff.mp registered
    cases registered
    rfl
  have kept : Handled { s with kernel } := h.setKernel (by rw [same]; exact h.table)
  dsimp only at run
  split at run
  · cases run
    exact kept.leave a
  · split at run
    · cases run
    · cases run
      apply kept.setKernel
      intro i b slot
      rcases kernelcapiRegisterSlot_table slot with rfl | old
      · exact mem
      · exact kept.table i b old

/-- A release through the table. -/
theorem Handled.kernelcapiReleased (h : Handled s) {applid : UInt16}
    (run : Kernelcapi.kernelcapiReleased cfg s applid = some s') : Handled s' := by
  unfold Kernelcapi.kernelcapiReleased at run
  split at run
  · cases run
    exact h
  · obtain ⟨a, -, run⟩ := Option.bind_eq_some_iff.mp run
    obtain ⟨⟨info, kernel⟩, released, run⟩ := Option.bind_eq_some_iff.mp run
    obtain ⟨⟨info', core⟩, -, released⟩ := Option.bind_eq_some_iff.mp released
    cases released
    cases run
    refine Handled.leave (h.setKernel ?_) a
    exact h.table

theorem Handled.kernelcapiReleaseSlot (h : Handled s) (applid : UInt16) :
    Handled { s with kernel := Kernelcapi.kernelcapiReleaseSlot s.kernel applid } := by
  apply h.setKernel
  intro i b slot
  by_cases here : i = applid.toNat - 1
  · subst here
    cases (Function.update_self _ _ _).symm.trans slot
  · exact h.table i b ((Function.update_of_ne here _ _).symm.trans slot)

/-- The handler of a kernelcapi application is there exactly while its client asks for one. -/
theorem Handled.kernelcapiSetSignalAppl (h : Handled s) {applid : UInt16} {signal : Option Nat} {param : UInt32}
    (run : Kernelcapi.kernelcapiSetSignalAppl cfg s applid signal param = some s') : Handled s' := by
  obtain ⟨⟨info, kernel⟩, set, run⟩ := Option.bind_eq_some_iff.mp run
  have same : kernel.kernelcapiAppls = s.kernel.kernelcapiAppls := by
    unfold kernelcapiSetSignal at set
    split at set
    · cases set
      rfl
    · obtain ⟨a, -, set⟩ := Option.bind_eq_some_iff.mp set
      cases set
      rfl
  have kept : Handled { s with kernel } := h.setKernel (by rw [same]; exact h.table)
  dsimp only at run
  split at run
  · cases run
    exact kept
  · obtain ⟨a, slot, run⟩ := Option.bind_eq_some_iff.mp run
    cases run
    have mem : s.memory a = some .kernelcapi := by
      unfold State.slot at slot
      split at slot
      · cases slot
      · exact h.table _ a slot
    refine kept.change (a := a) (fun _ _ => rfl) (fun b ne => Function.update_of_ne ne _ _)
      (fun b ne => Function.update_of_ne ne _ _) (fun _ _ => rfl) rfl id ?_
    intro _
    refine ⟨.kernelcapi, mem, ?_⟩
    have sig : Function.update s.sig a (signal.map fun _ => Handler.kernelcapiSignalHandler) a =
        signal.map fun _ => .kernelcapiSignalHandler := Function.update_self _ _ _
    have asked : Function.update s.asked a signal a = signal := Function.update_self _ _ _
    show Function.update s.sig a _ a = FrontEnd.handler (Function.update s.asked a signal a) .kernelcapi
    rw [sig, asked]
    rfl

theorem Handled.capiApplSignal (h : Handled s) (run : Kernelcapi.capiApplSignal s a = some s') : Handled s' := by
  unfold Kernelcapi.capiApplSignal at run
  split at run
  · cases run
  · cases run
    exact ⟨h.used, h.table⟩

/-- Every allowed step of a front end keeps the handlers. -/
theorem frontStep_handled (h : Handled s) {l : FrontStep} (allowed : l.Allowed s)
    (run : frontStep cfg s l = some s') : Handled s' := by
  cases l with
  | capidevAlloc a =>
    cases run
    exact h.capidevAlloc allowed
  | capiIoctlRegister a fault =>
    cases run
    exact h.capiIoctlRegister allowed fault
  | capiIoctlRegistered a datablklen info =>
    obtain ⟨⟨r, core⟩, -, run⟩ := Option.bind_eq_some_iff.mp run
    dsimp only at run
    split at run
    · cases run
      exact (h.setCore _).leave a
    · cases run
      exact h.setCore _
  | capidevFree a =>
    simp only [frontStep, Kernelcapi.capidevFree] at run
    split at run
    · obtain ⟨⟨r, core⟩, -, run⟩ := Option.bind_eq_some_iff.mp run
      cases run
      exact (h.setCore _).leave a
    · cases run
      exact h
  | capidrvInit a =>
    cases run
    exact h.capidrvInit allowed
  | capidrvRegistered a datablklen info =>
    obtain ⟨⟨r, core⟩, -, run⟩ := Option.bind_eq_some_iff.mp run
    dsimp only at run
    split at run
    · cases run
      exact (h.setCore _).leave a
    · cases run
      exact h.setCore _
  | capidrvExit a =>
    obtain ⟨⟨r, core⟩, -, run⟩ := Option.bind_eq_some_iff.mp run
    cases run
    exact (h.setCore _).leave a
  | kernelcapiRegister a =>
    cases run
    exact h.kernelcapiRegisterEnter allowed
  | kernelcapiRegistered a datablklen info => exact h.kernelcapiRegistered allowed run
  | kernelcapiReleased applid => exact h.kernelcapiReleased run
  | kernelcapiReleaseSlot applid =>
    cases run
    exact h.kernelcapiReleaseSlot applid
  | kernelcapiSetSignal applid signal param => exact h.kernelcapiSetSignalAppl run
  | signal a => exact h.capiApplSignal run
  | signalError a info => exact (h.setCore _).capiApplSignal run
  | core l =>
    obtain ⟨core, -, rfl⟩ := Option.map_eq_some_iff.mp run
    exact h.setCore core

/-- An application in use is handled exactly when its client has asked for it, if it has a client. -/
theorem Handled.handled_iff (h : Handled s) (used : s.uses a ≠ 0) :
    (∃ handler, s.sig a = some handler ∧ s.memory a = some handler.owner) ↔
      (s.memory a = some .kernelcapi → s.asked a ≠ none) := by
  obtain ⟨front, mem, sig⟩ := h.used a used
  rw [sig, mem]
  cases front with
  | capi =>
    constructor
    · intro _ other
      cases other
    · intro _
      exact ⟨.capiSignal, rfl, rfl⟩
  | capidrv =>
    constructor
    · intro _ other
      cases other
    · intro _
      exact ⟨.capidrvSignal, rfl, rfl⟩
  | kernelcapi =>
    constructor
    · rintro ⟨handler, eq, -⟩ _ none
      rw [none] at eq
      cases eq
    · intro asked
      obtain ⟨signal, eq⟩ := Option.ne_none_iff_exists'.mp (asked rfl)
      rw [eq]
      exact ⟨.kernelcapiSignalHandler, rfl, rfl⟩

end Steps

/-- In every run of the three front ends, every signal finds the handler of the application's own
front end if and only if every signal to an application of kernelcapi comes while its client has a
handler installed. -/
theorem signals_handled_iff (cfg : Config) (ls : List FrontStep)
    (allowed : Meets (frontStep cfg) FrontStep.Allowed .init ls) :
    Meets (frontStep cfg) SignalHandled .init ls ↔ Meets (frontStep cfg) HandlerAsked .init ls := by
  apply meets_iff_meets Handled ?_ ?_ handled_init allowed
  · intro s l h ok
    have used : ∀ a, l.signalled = some a → s.uses a ≠ 0 := by
      intro a signalled
      cases l with
      | signal b => cases signalled; exact ok
      | signalError b info => cases signalled; exact ok
      | _ => cases signalled
    constructor
    · intro handled a signalled
      exact (h.handled_iff (used a signalled)).mp (handled a signalled)
    · intro asked a signalled
      exact (h.handled_iff (used a signalled)).mpr (asked a signalled)
  · intro s l s' h ok _ run
    exact frontStep_handled h ok run

/-- A kernelcapi client registers, installs a handler and is signalled, beside a file of `capi.c`. -/
def installing : List FrontStep :=
  [.capidevAlloc 0, .capiIoctlRegister 0 false, .signal 0, .capiIoctlRegistered 0 2048 (fun _ => .NOERR),
    .kernelcapiRegister 1, .kernelcapiRegistered 1 2048 (fun _ => .NOERR), .kernelcapiSetSignal 2 (some 7) 0, .signal 1]

/-- The same without the handler. -/
def neverInstalling : List FrontStep :=
  [.kernelcapiRegister 0, .kernelcapiRegistered 0 2048 (fun _ => .NOERR), .signal 0]

theorem installing_allowed :
    Meets (frontStep ⟨4, 64, by decide, by decide⟩) FrontStep.Allowed .init installing := by
  refine ⟨rfl, fun _ run => ?_⟩
  cases run
  refine ⟨rfl, fun _ run => ?_⟩
  cases run
  refine ⟨Nat.one_ne_zero, fun _ run => ?_⟩
  cases run
  refine ⟨rfl, fun _ run => ?_⟩
  cases run
  refine ⟨rfl, fun _ run => ?_⟩
  cases run
  refine ⟨rfl, fun _ run => ?_⟩
  cases run
  refine ⟨trivial, fun _ run => ?_⟩
  cases run
  exact ⟨Nat.one_ne_zero, fun _ _ => trivial⟩

theorem signals_handled_installing :
    Meets (frontStep ⟨4, 64, by decide, by decide⟩) SignalHandled .init installing ↔
      Meets (frontStep ⟨4, 64, by decide, by decide⟩) HandlerAsked .init installing :=
  signals_handled_iff _ _ installing_allowed

/-- A device signals an application that kernelcapi has just registered: `appl->sig` is NULL. -/
theorem signals_unhandled :
    Meets (frontStep ⟨4, 64, by decide, by decide⟩) FrontStep.Allowed .init neverInstalling ∧
      ∃ s, exec (frontStep ⟨4, 64, by decide, by decide⟩) .init (neverInstalling.take 2) = some s ∧
        s.uses 0 = 1 ∧ s.sig 0 = none ∧
        ¬ Meets (frontStep ⟨4, 64, by decide, by decide⟩) SignalHandled .init neverInstalling := by
  constructor
  · refine ⟨rfl, fun _ run => ?_⟩
    cases run
    refine ⟨rfl, fun _ run => ?_⟩
    cases run
    exact ⟨Nat.one_ne_zero, fun _ _ => trivial⟩
  · refine ⟨_, rfl, rfl, rfl, ?_⟩
    rintro ⟨-, rest⟩
    obtain ⟨-, rest⟩ := rest _ rfl
    obtain ⟨handled, -⟩ := rest _ rfl
    obtain ⟨handler, eq, -⟩ := handled 0 rfl
    cases eq

end Capi4Linux.Kernelcapi
