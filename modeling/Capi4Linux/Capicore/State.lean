import Mathlib.Logic.Function.Basic
import Mathlib.Data.List.Basic

/-!
# capicore: devices and applications

`core.c` binds applications to devices. A pointer to a `struct capi_device` or a
`struct capi_appl` is a number here. A device that was freed, or not allocated
yet, is absent from the heap, and looking at it has no outcome.
-/

namespace Capi4Linux.Capicore

/-- `capinfo_0x10_t`. -/
inductive Capinfo0x10 where
  | NOERR | TOOMANYAPPLS | LOGBLKSIZETOSMALL | BUFEXCEEDS64K | MSGBUFSIZETOOSMALL | MAXNUMOFLOGCONNNOTSUPP
  | RESERVED | BUSY | OSRESERR | NOTINSTALLED | CTRLDOESNOTSUPPEXTEQUIP | CTRLDOESONLYSUPPEXTEQUIP
  deriving DecidableEq, Repr

/-- `capinfo_0x11_t`. -/
inductive Capinfo0x11 where
  | NOERR | ILLAPPNR | ILLCMDORMSGTOSMALL | QUEUEFULL | QUEUEEMPTY | QUEUEOVERFLOW | ILLNOTIFICATIONPARAM | BUSY
  | OSRESERR | NOTINSTALLED | CTRLDOESNOTSUPPEXTEQUIP | CTRLDOESONLYSUPPEXTEQUIP
  deriving DecidableEq, Repr

/-- `CONFIG_ISDN_CAPI_MAX_DEVS` and `CONFIG_ISDN_CAPI_MAX_APPLS`, in the ranges of Kconfig. -/
structure Config where
  maxDevs : Nat
  maxAppls : Nat
  devs_range : 1 ≤ maxDevs ∧ maxDevs ≤ 255
  appls_range : 8 ≤ maxAppls ∧ maxAppls ≤ 65535

/-- `struct rw_semaphore`. -/
structure RwSemaphore where
  writer : Bool
  readers : Nat

/-- A `struct list_head` of a device: zeroed by `memset`, linked into
`capi_devs_list`, or pointing at itself. -/
inductive ListEntry where
  | zeroed
  | linked
  | self
  deriving DecidableEq

/-- `struct capi_device`; `refs` is the count of its class device. -/
structure CapiDevice where
  id : Nat
  sem : RwSemaphore
  refs : Nat
  entry : ListEntry

/-- `struct capi_appl`. -/
structure CapiAppl where
  id : UInt16
  info : Capinfo0x11
  devs : Nat → Bool
  datablklen : UInt32

/-- A call of a device driver operation. -/
inductive DrvCall where
  | capiRegister (dev appl : Nat) (info : Capinfo0x10)
  | capiRelease (dev appl : Nat)
  | capiPutMessage (dev appl : Nat) (msg : List UInt8)
  deriving DecidableEq

/-- A call of `capi_put_message` that found its device; `inside` says whether the
driver operation has begun. -/
structure Put where
  appl : Nat
  dev : Nat
  msg : List UInt8
  inside : Bool
  deriving DecidableEq

/-- How far the driver of a device has come. -/
inductive DevPhase where
  /-- `capi_device_alloc` has not returned it. -/
  | absent
  | alloced
  /-- In `capi_device_register`, bound to the applications. -/
  | bound
  /-- `capi_device_register_sysfs` has failed. -/
  | failing
  | registered
  /-- In `unregister_capi_device`, taken off the list; `err` when registration failed. -/
  | unlinked (err : Bool)
  /-- `capi_device_register` returned an error, or `capi_device_unregister` returned. -/
  | returned (err : Bool)
  /-- The driver has put its own reference. -/
  | put
  deriving DecidableEq

/-- How far an application has come. -/
inductive ApplPhase where
  | fresh
  | registered
  | released
  deriving DecidableEq

/-- The capicore with everything that refers to it. -/
structure Core where
  capiDevsTable : Nat → Option Nat
  capiApplsList : List Nat
  capiDevsList : List Nat
  nrCapiDevs : Int
  device : Nat → Option CapiDevice
  appl : Nat → CapiAppl
  allocated : Nat
  devPhase : Nat → DevPhase
  applPhase : Nat → ApplPhase
  puts : List Put
  calls : List DrvCall

/-- The capicore just loaded. -/
def Core.init : Core where
  capiDevsTable := fun _ => none
  capiApplsList := []
  capiDevsList := []
  nrCapiDevs := 0
  device := fun _ => none
  appl := fun _ => ⟨0, .NOERR, fun _ => false, 0⟩
  allocated := 0
  devPhase := fun _ => .absent
  applPhase := fun _ => .fresh
  puts := []
  calls := []

namespace Core

/-- Overwrite a device structure; `none` frees it. -/
def setDevice (c : Core) (d : Nat) (dev : Option CapiDevice) : Core :=
  { c with device := Function.update c.device d dev }

/-- Overwrite an application structure. -/
def setAppl (c : Core) (a : Nat) (appl : CapiAppl) : Core :=
  { c with appl := Function.update c.appl a appl }

/-- Record a driver operation. -/
def call (c : Core) (e : DrvCall) : Core := { c with calls := c.calls ++ [e] }

def setDevPhase (c : Core) (d : Nat) (p : DevPhase) : Core :=
  { c with devPhase := Function.update c.devPhase d p }

def setApplPhase (c : Core) (a : Nat) (p : ApplPhase) : Core :=
  { c with applPhase := Function.update c.applPhase a p }

end Core

end Capi4Linux.Capicore
