import Capi4Linux.Capicore.State

/-!
# capicore: the operations

The functions of `core.c`. Each section that the code runs under
`capi_devs_list_sem`, and each access to a device semaphore, is one function.
`none` stands for a `BUG_ON` that fires or a look at a freed device. What a
driver answers is an argument.
-/

namespace Capi4Linux.Capicore
open Capi4Linux.Capicore.Core

/-! ## References -/

/-- `capi_device_get`. -/
def capiDeviceGet (c : Core) (d : Nat) : Option Core := do
  let dev ← c.device d
  return c.setDevice d (some { dev with refs := dev.refs + 1 })

/-- `free_capi_device`. -/
def freeCapiDevice (c : Core) (d : Nat) : Option Core := do
  let dev ← c.device d
  let c := if dev.id ≠ 0 then { c with capiDevsTable := Function.update c.capiDevsTable (dev.id - 1) none } else c
  return c.setDevice d none

/-- `capi_device_put`; the class device runs `free_capi_device` when the count reaches zero. -/
def capiDevicePut (c : Core) (d : Nat) : Option Core := do
  let dev ← c.device d
  let c := c.setDevice d (some { dev with refs := dev.refs - 1 })
  if dev.refs - 1 = 0 then freeCapiDevice c d else return c

/-! ## Devices -/

/-- `capi_device_alloc`; `mem` is the outcome of `kmalloc`. -/
def capiDeviceAlloc (c : Core) (mem : Bool) : Core :=
  if mem then
    let c := { c with allocated := c.allocated + 1 }.setDevPhase c.allocated .alloced
    c.setDevice (c.allocated - 1) (some ⟨0, ⟨false, 0⟩, 1, .zeroed⟩)
  else c

/-- The loop of `add_capi_device`, `n` rounds from slot `i`. -/
def addCapiDeviceLoop (table : Nat → Option Nat) : Nat → Nat → Option Nat
  | 0, _ => none
  | n + 1, i => if (table i).isNone then some i else addCapiDeviceLoop table n (i + 1)

/-- `add_capi_device`. -/
def addCapiDevice (cfg : Config) (c : Core) (d : Nat) (dev : CapiDevice) : Core :=
  match addCapiDeviceLoop c.capiDevsTable cfg.maxDevs 0 with
  | some i =>
    { c with capiDevsTable := Function.update c.capiDevsTable i (some d) }.setDevice d
      (some { dev with id := i + 1 })
  | none => c.setDevice d (some { dev with id := 0 })

/-- `register_capi_appl`; `info` is the driver's answer. -/
def registerCapiAppl (c : Core) (a d : Nat) (info : Capinfo0x10) : Option Core := do
  let dev ← c.device d
  let c := c.call (.capiRegister d a info)
  if info ≠ .NOERR then return c
  else
    let appl := c.appl a
    let c := c.setAppl a { appl with devs := Function.update appl.devs (dev.id - 1) true }
    capiDeviceGet c d

/-- `bind_capi_device` after `add_capi_device` found a slot. -/
def bindCapiDeviceListed (c : Core) (d : Nat) (info : Nat → Capinfo0x10) : Option Core := do
  let c ← c.capiApplsList.foldlM (fun c a => registerCapiAppl c a d (info a)) c
  let dev ← c.device d
  let c := c.setDevice d (some { dev with sem := { dev.sem with writer := false }, entry := .linked })
  return { c with nrCapiDevs := c.nrCapiDevs + 1, capiDevsList := c.capiDevsList ++ [d] }

/-- `bind_capi_device`. -/
def bindCapiDevice (cfg : Config) (c : Core) (d : Nat) (dev : CapiDevice) (info : Nat → Capinfo0x10) :
    Option (Nat × Core) := do
  let c := addCapiDevice cfg c d dev
  let dev ← c.device d
  if dev.id ≠ 0 then
    let c ← bindCapiDeviceListed c d info
    return (dev.id, c)
  else return (0, c)

/-- `capi_device_register` up to `capi_device_register_sysfs`; without a device
number it returns `-EMFILE`. -/
def capiDeviceRegister (cfg : Config) (c : Core) (d : Nat) (info : Nat → Capinfo0x10) : Option Core := do
  let dev ← c.device d
  let (id, c) ← bindCapiDevice cfg c d { dev with sem := ⟨true, 0⟩ } info
  if id = 0 then return c.setDevPhase d (.returned true)
  else return c.setDevPhase d .bound

/-- The result of `capi_device_register_sysfs`. -/
def capiDeviceRegisterSysfs (c : Core) (d : Nat) (res : Int) : Core :=
  if res ≠ 0 then c.setDevPhase d .failing else c.setDevPhase d .registered

/-- `unregister_capi_device` under `capi_devs_list_sem`. -/
def unlinkCapiDevice (c : Core) (d : Nat) : Option Core := do
  let dev ← c.device d
  let c := c.setDevice d (some { dev with entry := .self })
  return { c with capiDevsList := c.capiDevsList.erase d }.setDevPhase d
    (.unlinked (c.devPhase d = DevPhase.failing))

/-- The rest of `unregister_capi_device`: `down_write` on a semaphore that nobody holds. -/
def drainCapiDevice (c : Core) (d : Nat) : Option Core := do
  let dev ← c.device d
  let c := c.setDevice d (some { dev with sem := { dev.sem with writer := true } })
  return { c with nrCapiDevs := c.nrCapiDevs - 1 }.setDevPhase d
    (.returned (c.devPhase d = DevPhase.unlinked true))

/-! ## Applications -/

/-- The loop of `add_capi_appl`: the id it stops at, the applications it passed and
the rest, before which the new one is linked. -/
def addCapiApplLoop (ids : Nat → UInt16) : List Nat → UInt16 → UInt16 × List Nat × List Nat
  | [], id => (id, [], [])
  | a :: as, id =>
    if ids a > id then (id, [], a :: as)
    else
      let (id, passed, rest) := addCapiApplLoop ids as (id + 1)
      (id, a :: passed, rest)

/-- `add_capi_appl`. -/
def addCapiAppl (cfg : Config) (c : Core) (a : Nat) : Core :=
  let (id, passed, rest) := addCapiApplLoop (fun b => (c.appl b).id) c.capiApplsList 1
  let appl := c.appl a
  if id.toNat > cfg.maxAppls then c.setAppl a { appl with id := 0 }
  else { c.setAppl a { appl with id := id } with capiApplsList := passed ++ a :: rest }

/-- `bind_capi_appl`. -/
def bindCapiAppl (cfg : Config) (c : Core) (a : Nat) (info : Nat → Capinfo0x10) :
    Option (UInt16 × Core) := do
  let c := addCapiAppl cfg c a
  let id := (c.appl a).id
  if id ≠ 0 then
    let c ← c.capiDevsList.foldlM (fun c d => registerCapiAppl c a d (info d)) c
    return (id, c)
  else return (id, c)

/-- `capi_register` for an application whose `params.datablklen` is `datablklen`. -/
def capiRegister (cfg : Config) (c : Core) (a : Nat) (datablklen : UInt32) (info : Nat → Capinfo0x10) :
    Option (Capinfo0x10 × Core) := do
  let c := c.setAppl a { c.appl a with datablklen := datablklen }
  if datablklen < 128 then return (.LOGBLKSIZETOSMALL, c)
  let c := c.setAppl a { c.appl a with info := .NOERR, devs := fun _ => false }
  let (id, c) ← bindCapiAppl cfg c a info
  if id = 0 then return (.TOOMANYAPPLS, c)
  else return (.NOERR, c.setApplPhase a .registered)

/-- `capi_device_listed`. -/
def capiDeviceListed (dev : CapiDevice) : Bool := dev.entry ≠ .self

/-- The body of the loop of `capi_release`, for a device number found in `devs`. -/
def releaseCapiDevice (c : Core) (a i : Nat) : Option Core := do
  let d ← c.capiDevsTable i
  let dev ← c.device d
  let c := if capiDeviceListed dev then c.call (.capiRelease d a) else c
  capiDevicePut c d

/-- One bit of `find_next_bit` and the loop body. -/
def releaseCapiBit (c : Core) (a i : Nat) : Option Core :=
  if (c.appl a).devs i then releaseCapiDevice c a i else some c

/-- The loop of `capi_release`, `n` bits from bit `i`. -/
def capiReleaseLoop (a : Nat) : Nat → Nat → Core → Option Core
  | 0, _, c => some c
  | n + 1, i, c => do
    let c ← releaseCapiBit c a i
    capiReleaseLoop a n (i + 1) c

/-- `capi_release`. -/
def capiRelease (cfg : Config) (c : Core) (a : Nat) : Option (Capinfo0x11 × Core) := do
  let c ← capiReleaseLoop a cfg.maxDevs 0 c
  let c := { c with capiApplsList := c.capiApplsList.erase a }.setApplPhase a .released
  return ((c.appl a).info, c)

/-- `capi_appl_signal_error`, without the signal itself. -/
def capiApplSignalError (c : Core) (a : Nat) (info : Capinfo0x11) : Core :=
  let appl := c.appl a
  if appl.info = .NOERR then c.setAppl a { appl with info := info } else c

/-! ## Messages -/

/-- `CAPIMSG_CONTROLLER`. -/
def capimsgController (msg : List UInt8) : Nat := (msg.getD 8 0 &&& 0x7f).toNat

/-- `capi_put_message` up to the semaphore of the device: an error, or a call that goes on. -/
def capiPutMessageLookup (cfg : Config) (c : Core) (a : Nat) (msg : Option (List UInt8)) :
    Option (Capinfo0x11 ⊕ Put) :=
  let appl := c.appl a
  if appl.info ≠ .NOERR then some (.inl appl.info)
  else
    match msg with
    | none => some (.inl .ILLCMDORMSGTOSMALL)
    | some msg =>
      if msg.length < 8 + 4 then some (.inl .ILLCMDORMSGTOSMALL)
      else
        let id := capimsgController msg
        if ¬ (id ≠ 0 ∧ id ≤ cfg.maxDevs ∧ appl.devs (id - 1)) then some (.inl .OSRESERR)
        else do
          let d ← c.capiDevsTable (id - 1)
          return .inr ⟨a, d, msg, false⟩

/-- `down_read_trylock` on the device's semaphore, and the driver operation begins. -/
def capiPutMessageEnter (c : Core) (p : Put) : Option (Option Capinfo0x11 × Core) := do
  let dev ← c.device p.dev
  if dev.sem.writer then
    return (some .OSRESERR, { c with puts := c.puts.erase p })
  else
    let c := c.setDevice p.dev (some { dev with sem := { dev.sem with readers := dev.sem.readers + 1 } })
    let c := c.call (.capiPutMessage p.dev p.appl p.msg)
    return (none, { c with puts := { p with inside := true } :: c.puts.erase p })

/-- The driver operation returns `info`, then `up_read`. -/
def capiPutMessageLeave (c : Core) (p : Put) (info : Capinfo0x11) : Option (Capinfo0x11 × Core) := do
  let dev ← c.device p.dev
  let c := c.setDevice p.dev (some { dev with sem := { dev.sem with readers := dev.sem.readers - 1 } })
  return (info, { c with puts := c.puts.erase p })

end Capi4Linux.Capicore
