import Capi4Linux.Capicore.Numbers
import Capi4Linux.Lib.Sprintf

/-!
# capicore: questions about devices

`capi_get_manufacturer` and its relatives hold the semaphore of one device for
reading while they copy a field. They take neither `capi_devs_list_sem` nor a
reference. `capi_isinstalled` and `ncontroller` read `nr_capi_devs`, which moves
by an atomic operation of its own, after the semaphore has.
-/

namespace Capi4Linux.Capicore
open Capi4Linux.Capicore.Core Machine Sprintf

/-- `struct capi_version`. -/
structure CapiVersion where
  majorversion : UInt32
  minorversion : UInt32
  majormanuversion : UInt32
  minormanuversion : UInt32
  deriving DecidableEq

/-- `struct capi_profile`. -/
structure CapiProfile where
  ncontroller : UInt16
  nbchannel : UInt16
  goptions : UInt32
  support1 : UInt32
  support2 : UInt32
  support3 : UInt32
  reserved : List UInt32
  manu : List UInt32
  deriving DecidableEq

/-- The fields of `struct capi_device` that its driver fills in; also the buffers
of a caller that asks for them. -/
structure DeviceInfo where
  product : List UInt8
  manufacturer : List UInt8
  serial : List UInt8
  version : CapiVersion
  profile : CapiProfile
  deriving DecidableEq

/-- The fields after the `memset` of `capi_device_alloc`; `kobjNameLen` is `CAPI_PRODUCT_LEN`. -/
def DeviceInfo.zeroed (kobjNameLen : Nat) : DeviceInfo where
  product := List.replicate kobjNameLen 0
  manufacturer := List.replicate 64 0
  serial := List.replicate 8 0
  version := ⟨0, 0, 0, 0⟩
  profile := ⟨0, 0, 0, 0, 0, 0, List.replicate 6 0, List.replicate 5 0⟩

/-- Which of the functions `capi_get_*` is called. -/
inductive Item where
  | manufacturer
  | serialNumber
  | version
  | profile
  | product
  deriving DecidableEq

/-- `strlcpy`. -/
def strlcpy (target src : List UInt8) (size : Nat) : List UInt8 :=
  let n := min src.length (size - 1)
  src.take n ++ 0 :: target.drop (n + 1)

/-- The field of the device goes to the buffer of the caller. -/
def Item.copy (item : Item) (nrCapiDevs : Int) (info target : DeviceInfo) : DeviceInfo :=
  match item with
  | .manufacturer => { target with manufacturer := info.manufacturer }
  | .serialNumber => { target with serial := info.serial }
  | .version => { target with version := info.version }
  | .profile => { target with profile := { info.profile with ncontroller := UInt16.ofInt nrCapiDevs } }
  | .product => { target with product := info.product }

/-- What the capicore answers for itself, as device 0. -/
def Item.capicore (item : Item) (nrCapiDevs : Int) (target : DeviceInfo) : Option DeviceInfo :=
  match item with
  | .manufacturer => some { target with manufacturer := strlcpy target.manufacturer (ascii "NGC4Linux") 64 }
  | .serialNumber => some { target with serial := strlcpy target.serial (ascii "0") 8 }
  | .version => some { target with version := ⟨2, 0, 0, 0⟩ }
  | .profile => some { target with profile := { target.profile with ncontroller := UInt16.ofInt nrCapiDevs } }
  | .product => none

/-- A call of `capi_get_*` that holds the semaphore of its device. -/
structure Query where
  item : Item
  id : Int
  dev : Nat
  target : DeviceInfo
  deriving DecidableEq

/-- The capicore with those who ask it. `nrCapiDevs` is the counter as they see
it: devices in `opening` have given their semaphore free in `bind_capi_device`
but are not counted yet, those in `closing` have taken it for good in
`unregister_capi_device` but are still counted. -/
structure Desk where
  core : Core
  info : Nat → DeviceInfo
  nrCapiDevs : Int
  opening : List Nat
  closing : List Nat
  queries : List Query

/-- The capicore just loaded. -/
def Desk.init (kobjNameLen : Nat) : Desk where
  core := Core.init
  info := fun _ => DeviceInfo.zeroed kobjNameLen
  nrCapiDevs := 0
  opening := []
  closing := []
  queries := []

/-- `try_get_capi_device_by_id`; `capi_devs_table_lock` makes it one section with
respect to `free_capi_device`. -/
def tryGetCapiDeviceById (cfg : Config) (c : Core) (id : Int) : Option (Option Nat × Core) :=
  if id < 1 ∨ id > cfg.maxDevs then some (none, c)
  else
    match c.capiDevsTable (id - 1).toNat with
    | none => some (none, c)
    | some d => do
      let dev ← c.device d
      if dev.sem.writer then return (none, c)
      else
        let sem := { dev.sem with readers := dev.sem.readers + 1 }
        return (some d, c.setDevice d (some { dev with sem := sem }))

/-- `up_read`. -/
def upRead (c : Core) (d : Nat) : Option Core := do
  let dev ← c.device d
  return c.setDevice d (some { dev with sem := { dev.sem with readers := dev.sem.readers - 1 } })

/-- `capi_isinstalled`. -/
def capiIsinstalled (s : Desk) : Capinfo0x11 := if s.nrCapiDevs ≠ 0 then .NOERR else .NOTINSTALLED

/-- `capi_get_*` up to the semaphore of the device: an answer, where `none` stands for
`NULL` or `CAPINFO_0X11_OSRESERR`, or a query that goes on. -/
def capiGetEnter (cfg : Config) (s : Desk) (item : Item) (id : Int) (target : DeviceInfo) :
    Option ((Option DeviceInfo ⊕ Query) × Desk) :=
  if id ≠ 0 then do
    let (dev, c) ← tryGetCapiDeviceById cfg s.core id
    match dev with
    | none => return (.inl none, { s with core := c })
    | some d =>
      let q := ⟨item, id, d, target⟩
      return (.inr q, { s with core := c, queries := q :: s.queries })
  else some (.inl (item.capicore s.nrCapiDevs target), s)

/-- The rest of `capi_get_*`: the copy, and `up_read`. -/
def capiGetLeave (s : Desk) (q : Query) : Option (DeviceInfo × Desk) := do
  let _ ← s.core.device q.dev
  let answer := q.item.copy s.nrCapiDevs (s.info q.dev) q.target
  let c ← upRead s.core q.dev
  return (answer, { s with core := c, queries := s.queries.erase q })

/-- A function `capi_get_*` without an interruption. -/
def capiGet (item : Item) (cfg : Config) (s : Desk) (id : Int) (target : DeviceInfo) :
    Option (Option DeviceInfo × Desk) := do
  let (r, s) ← capiGetEnter cfg s item id target
  match r with
  | .inl answer => return (answer, s)
  | .inr q => (capiGetLeave s q).map fun (answer, s) => (some answer, s)

/-- `capi_get_manufacturer`. -/
def capiGetManufacturer := capiGet .manufacturer

/-- `capi_get_serial_number`. -/
def capiGetSerialNumber := capiGet .serialNumber

/-- `capi_get_version`. -/
def capiGetVersion := capiGet .version

/-- `capi_get_profile`. -/
def capiGetProfile := capiGet .profile

/-- `capi_get_product`. -/
def capiGetProduct := capiGet .product

namespace Desk

/-- The sections of the capicore together with those of the functions `capi_get_*`. -/
inductive Op where
  | core (l : Section)
  /-- The driver fills in the fields of its device. -/
  | fill (d : Nat) (info : DeviceInfo)
  /-- `atomic_inc` in `bind_capi_device`. -/
  | countIn (d : Nat)
  /-- `atomic_dec` in `unregister_capi_device`. -/
  | countOut (d : Nat)
  | queryEnter (item : Item) (id : Int) (target : DeviceInfo)
  | queryLeave (q : Query)

/-- The device whose semaphore a section gives free for the first time. -/
def opens (c' : Core) : Section → List Nat
  | .deviceRegister d _ => if c'.devPhase d = .bound then [d] else []
  | _ => []

/-- The device whose semaphore a section takes for good. -/
def closes : Section → List Nat
  | .deviceDrain d => [d]
  | _ => []

/-- The fields of the devices after a section. -/
def infoAfter (kobjNameLen : Nat) (s : Desk) : Section → Nat → DeviceInfo
  | .deviceAlloc true => Function.update s.info s.core.allocated (DeviceInfo.zeroed kobjNameLen)
  | _ => s.info

def step (kobjNameLen : Nat) (cfg : Config) (s : Desk) : Op → Option Desk
  | .core l => (Capicore.step cfg s.core l).map fun c =>
    { s with
      core := c
      info := infoAfter kobjNameLen s l
      opening := opens c l ++ s.opening
      closing := closes l ++ s.closing }
  | .fill d info => some { s with info := Function.update s.info d info }
  | .countIn d => some { s with nrCapiDevs := s.nrCapiDevs + 1, opening := s.opening.erase d }
  | .countOut d => some { s with nrCapiDevs := s.nrCapiDevs - 1, closing := s.closing.erase d }
  | .queryEnter item id target => (capiGetEnter cfg s item id target).map (·.2)
  | .queryLeave q => (capiGetLeave s q).map (·.2)

/-- The life cycles of the capicore; a driver fills in its device before it registers
it, and a thread moves the counter before it goes on. -/
def Allowed (cfg : Config) (s : Desk) : Op → Prop
  | .core l =>
    Capicore.Allowed s.core l ∧ InRange cfg s.core l ∧
      match l with
      | .deviceRegisterSysfs d _ => d ∉ s.opening
      | .devicePut d => d ∉ s.closing
      | _ => True
  | .fill d _ => s.core.devPhase d = .alloced
  | .countIn d => d ∈ s.opening
  | .countOut d => d ∈ s.closing
  | .queryEnter _ _ _ => True
  | .queryLeave q => q ∈ s.queries

end Desk

end Capi4Linux.Capicore
