import Capi4Linux.Capicore.Callbacks

/-!
# kernelcapi: applications of the old interface

`kernelcapi.c` keeps one capicore application for each client in a table that
its number indexes. Outside the table, and at an empty slot, an access has no
outcome. The calls are written as the sections in which they touch the
capicore and the table.
-/

namespace Capi4Linux.Kernelcapi
open Capicore

/-- `struct kernelcapi_appl`, with the fields of its `struct capi_appl` that the capicore model leaves out; `handler`
says whether the signal handler is `kernelcapi_signal_handler`. -/
structure KernelcapiAppl where
  handler : Bool
  signal : Option Nat
  param : UInt32
  msgQueue : List (List UInt8)
  rxBytes : UInt64
  txBytes : UInt64
  rxPackets : UInt64
  txPackets : UInt64

/-- The capicore and `kernelcapi_appls`. -/
structure State where
  core : Core
  kernelcapiAppls : Nat → Option Nat
  appl : Nat → KernelcapiAppl

/-- kernelcapi just loaded. -/
def State.init : State := ⟨Core.init, fun _ => none, fun _ => ⟨false, none, 0, [], 0, 0, 0, 0⟩⟩

def State.setAppl (s : State) (a : Nat) (appl : KernelcapiAppl) : State :=
  { s with appl := Function.update s.appl a appl }

/-- `applid - 1 >= CAPI_MAX_APPLS`, an `int` comparison. -/
def illegalApplid (cfg : Config) (applid : UInt16) : Bool := decide ((applid.toNat : Int) - 1 ≥ cfg.maxAppls)

/-- `kernelcapi_appls[applid - 1]`, about to be followed. -/
def State.slot (s : State) (applid : UInt16) : Option Nat :=
  if applid = 0 then none else s.kernelcapiAppls (applid.toNat - 1)

/-! ## Registration and release -/

/-- `kernelcapi_register` up to the result of `capi_register`. -/
def kernelcapiRegisterCore (cfg : Config) (s : State) (a : Nat) (datablklen : UInt32) (info : Nat → Capinfo0x10) :
    Option (Capinfo0x10 × State) := do
  let appl := { s.appl a with handler := false }
  let (r, core) ← capiRegister cfg s.core a datablklen info
  let appl := if datablklen < 128 then appl else
    { appl with msgQueue := [], rxBytes := 0, txBytes := 0, rxPackets := 0, txPackets := 0 }
  return (r, { s.setAppl a appl with core := core })

/-- It writes the application's own structure. -/
theorem kernelcapiRegisterCore_eq {cfg : Config} {s : State} {a : Nat} {datablklen : UInt32}
    {info : Nat → Capinfo0x10} {r : Capinfo0x10} {core : Core}
    (run : capiRegister cfg s.core a datablklen info = some (r, core)) :
    ∃ appl, kernelcapiRegisterCore cfg s a datablklen info = some (r, { s.setAppl a appl with core := core }) := by
  unfold kernelcapiRegisterCore
  rw [run]
  exact ⟨_, rfl⟩

/-- The rest of it: the table is written, or the number is refused. -/
def kernelcapiRegisterSlot (cfg : Config) (s : State) (a : Nat) : Capinfo0x10 × Option UInt16 × State :=
  let id := (s.core.appl a).id
  if illegalApplid cfg id then (.TOOMANYAPPLS, none, s)
  else (.NOERR, some id,
    { s with kernelcapiAppls := Function.update s.kernelcapiAppls (id.toNat - 1) (some a) })

/-- `kernelcapi_register`; `mem` is the outcome of `kmalloc`. -/
def kernelcapiRegister (cfg : Config) (s : State) (mem : Option Nat) (datablklen : UInt32)
    (info : Nat → Capinfo0x10) : Option (Capinfo0x10 × Option UInt16 × State) :=
  match mem with
  | none => some (.OSRESERR, none, s)
  | some a => do
    let (r, s) ← kernelcapiRegisterCore cfg s a datablklen info
    if r ≠ .NOERR then return (r, none, s) else return kernelcapiRegisterSlot cfg s a

/-- `capi_release` within `kernelcapi_release`. -/
def kernelcapiReleaseCore (cfg : Config) (s : State) (a : Nat) : Option (Capinfo0x11 × State) := do
  let (info, core) ← capiRelease cfg s.core a
  return (info, { s.setAppl a { s.appl a with msgQueue := [] } with core := core })

/-- The slot is emptied. -/
def kernelcapiReleaseSlot (s : State) (applid : UInt16) : State :=
  { s with kernelcapiAppls := Function.update s.kernelcapiAppls (applid.toNat - 1) none }

/-- `kernelcapi_release`. -/
def kernelcapiRelease (cfg : Config) (s : State) (applid : UInt16) : Option (Capinfo0x11 × State) :=
  if illegalApplid cfg applid then some (.ILLAPPNR, s)
  else do
    let a ← s.slot applid
    let (info, s) ← kernelcapiReleaseCore cfg s a
    return (info, kernelcapiReleaseSlot s applid)

/-! ## Messages and signals -/

/-- All of `capi_put_message`; `answer` is the driver's. -/
def capiPutMessageAnswered (cfg : Config) (c : Core) (a : Nat) (msg : List UInt8) (answer : Capinfo0x11) :
    Option (Capinfo0x11 × Core) := do
  match ← capiPutMessageLookup cfg c a (some msg) with
  | .inl info => return (info, c)
  | .inr p =>
    match ← capiPutMessageEnter { c with puts := p :: c.puts } p with
    | (some info, c) => return (info, c)
    | (none, c) => capiPutMessageLeave c { p with inside := true } answer

/-- `CAPIMSG_U16`. -/
def capimsgU16 (msg : List UInt8) (off : Nat) : Nat := (msg.getD off 0).toNat ||| (msg.getD (off + 1) 0).toNat <<< 8

/-- `CAPIMSG_CMD`. -/
def capimsgCmd (msg : List UInt8) : Nat := (msg.getD 4 0).toNat <<< 8 ||| (msg.getD 5 0).toNat

/-- `CAPI_DATA_B3_REQ`. -/
def CAPI_DATA_B3_REQ : Nat := 0x8680

/-- `CAPI_DATA_B3_IND`. -/
def CAPI_DATA_B3_IND : Nat := 0x8682

/-- The bytes of a message and of its data, which `cmd` carries. -/
def capimsgBytes (msg : List UInt8) (cmd : Nat) : Nat :=
  capimsgU16 msg 0 + if capimsgCmd msg = cmd then capimsgU16 msg 16 else 0

/-- `kernelcapi_put_message`. -/
def kernelcapiPutMessage (cfg : Config) (s : State) (applid : UInt16) (msg : List UInt8) (answer : Capinfo0x11) :
    Option (Capinfo0x11 × State) :=
  if illegalApplid cfg applid then some (.ILLAPPNR, s)
  else do
    let n := capimsgBytes msg CAPI_DATA_B3_REQ
    let a ← s.slot applid
    let (info, core) ← capiPutMessageAnswered cfg s.core a msg answer
    let s := { s with core := core }
    let appl := s.appl a
    if info = .NOERR then
      return (info, s.setAppl a { appl with txPackets := appl.txPackets + 1, txBytes := appl.txBytes + .ofNat n })
    else return (info, s)

/-- `capi_get_message`. -/
def capiGetMessage (info : Capinfo0x11) (queue : List (List UInt8)) :
    Capinfo0x11 × Option (List UInt8) × List (List UInt8) :=
  if info ≠ .NOERR then (info, none, queue)
  else
    match queue with
    | [] => (.QUEUEEMPTY, none, [])
    | msg :: queue => (.NOERR, some msg, queue)

/-- `kernelcapi_get_message`; also the message it fetched. -/
def kernelcapiGetMessage (cfg : Config) (s : State) (applid : UInt16) :
    Option (Capinfo0x11 × Option (List UInt8) × State) :=
  if illegalApplid cfg applid then some (.ILLAPPNR, none, s)
  else do
    let a ← s.slot applid
    let appl := s.appl a
    match capiGetMessage (s.core.appl a).info appl.msgQueue with
    | (info, some msg, queue) =>
      let n := capimsgBytes msg CAPI_DATA_B3_IND
      return (info, some msg, s.setAppl a
        { appl with msgQueue := queue, rxPackets := appl.rxPackets + 1, rxBytes := appl.rxBytes + .ofNat n })
    | (info, none, queue) => return (info, none, s.setAppl a { appl with msgQueue := queue })

/-- `kernelcapi_set_signal`. -/
def kernelcapiSetSignal (cfg : Config) (s : State) (applid : UInt16) (signal : Option Nat) (param : UInt32) :
    Option (Capinfo0x11 × State) :=
  if illegalApplid cfg applid then some (.ILLAPPNR, s)
  else do
    let a ← s.slot applid
    let appl := { s.appl a with signal := signal, param := param, handler := signal.isSome }
    return (.NOERR, s.setAppl a appl)

/-- `capi_appl_enqueue_message`, by a driver. -/
def capiApplEnqueueMessage (s : State) (a : Nat) (msg : List UInt8) : State :=
  s.setAppl a { s.appl a with msgQueue := (s.appl a).msgQueue ++ [msg] }

end Capi4Linux.Kernelcapi
