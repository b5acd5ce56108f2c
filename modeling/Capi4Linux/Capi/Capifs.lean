import Capi4Linux.Capi.Step
import Capi4Linux.Lib.Sprintf

/-!
# capifs

`capifs.c` is a file system with one directory. `capi.c` has it make a device
node for every minor that gets its NCCI, and delete the node when the NCCI goes
away. The calls of `capi.c` that do so are written here once more, with the file
system beside the driver.
-/

namespace Capi4Linux.Capi
open Bytes Capicore Machine Sprintf

/-- `config` of `capifs.c`. -/
structure CapifsConfig where
  setuid : Bool
  setgid : Bool
  uid : UInt32
  gid : UInt32
  mode : UInt16

def S_IFCHR : UInt16 := 0x2000

/-- An inode of a device node; `rdev` is its major and its minor number. -/
structure Inode where
  ino : Nat
  uid : UInt32
  gid : UInt32
  mode : UInt16
  rdev : Nat × Nat

/-- What is decided elsewhere. -/
structure CapifsEnv where
  capiTtymajor : Nat
  /-- `new_inode` has memory. -/
  newInode : Nat → Bool
  /-- `lookup_one_len` has memory. -/
  lookup : Nat → Bool
  fsuid : Nat → UInt32
  fsgid : Nat → UInt32

/-- Memory is always there. -/
def CapifsEnv.granting : CapifsEnv := ⟨191, fun _ => true, fun _ => true, fun _ => 0, fun _ => 0⟩

/-- The directory, by names. -/
structure Capifs where
  tick : Nat
  config : CapifsConfig
  nodes : Bytes → Option Inode

namespace Capifs

def init : Capifs := ⟨0, ⟨false, false, 0, 0, 0o600⟩, fun _ => none⟩

def asked (fs : Capifs) : Capifs := { fs with tick := fs.tick + 1 }

end Capifs

/-- The name that `get_node` prints into `s[10]`; a number that does not fit has no outcome. -/
def nodeName (num : Nat) : Option Bytes :=
  if (decimal num).length < 10 then some (decimal num) else none

/-- `capifs_new_ncci`. A name that is taken is left alone. -/
def capifsNewNcci (env : CapifsEnv) (fs : Capifs) (number : Nat) (device : Nat × Nat) : Option Capifs := do
  let t := fs.tick
  let fs := fs.asked
  if ¬ env.newInode t then return fs
  let inode : Inode :=
    { ino := number + 2
      uid := if fs.config.setuid then fs.config.uid else env.fsuid t
      gid := if fs.config.setgid then fs.config.gid else env.fsgid t
      mode := S_IFCHR ||| fs.config.mode
      rdev := device }
  let name ← nodeName number
  if env.lookup t ∧ (fs.nodes name).isNone then return { fs with nodes := Function.update fs.nodes name (some inode) }
  else return fs

/-- `capifs_free_ncci`. -/
def capifsFreeNcci (env : CapifsEnv) (fs : Capifs) (number : Nat) : Option Capifs := do
  let t := fs.tick
  let fs := fs.asked
  let name ← nodeName number
  if env.lookup t then return { fs with nodes := Function.update fs.nodes name none } else return fs

/-- `capi.c` with CONFIG_ISDN_CAPI_CAPIFS. -/
structure Mounted where
  driver : Driver
  fs : Capifs

/-- What both parts ask. -/
structure MountedEnv where
  capi : Env
  capifs : CapifsEnv

def MountedEnv.granting : MountedEnv := ⟨.granting, .granting⟩

namespace Mounted

def init : Mounted := ⟨.init, .init⟩

/-- A call that does not look at the file system. -/
def ofDriver (m : Mounted) (driver : Option Driver) : Option Mounted := driver.map fun driver => { m with driver }

/-! ## NCCIs -/

/-- The link of a new NCCI to its minor, and the node. -/
def capincciMinor (env : MountedEnv) (m : Mounted) (d : Nat) (userflags : UInt32) (ncci : UInt32) :
    Option (Mounted × Option Nat) := do
  let (driver, minorp) ← Capi.capincciMinor env.capi m.driver d userflags ncci
  match minorp with
  | none => some ({ m with driver }, none)
  | some p =>
    let mp ← driver.minors p
    let fs ← capifsNewNcci env.capifs m.fs mp.minor (env.capifs.capiTtymajor, mp.minor)
    some (⟨driver, fs⟩, some p)

def capincciAlloc (env : MountedEnv) (m : Mounted) (d : Nat) (ncci : UInt32) : Option Mounted := do
  let cdev ← m.driver.devs d
  let t := m.driver.tick
  let m := { m with driver := m.driver.asked }
  if ¬ env.capi.kmalloc t then return m
  let (m, minorp) ← capincciMinor env m d cdev.userflags ncci
  some { m with driver := m.driver.setDev d { cdev with nccis := cdev.nccis ++ [{ ncci, minorp }] } }

/-- The minor of an NCCI that goes away, and its node. -/
def capincciUnlink (env : MountedEnv) (m : Mounted) : Option Nat → Option Mounted
  | none => some m
  | some p => do
    let mp ← m.driver.minors p
    let fs ← capifsFreeNcci env.capifs m.fs mp.minor
    { m with fs }.ofDriver (Capi.capincciUnlink m.driver (some p))

def capincciFreeLoop (env : MountedEnv) (ncci : UInt32) : List Capincci → Mounted → Option Mounted
  | [], m => some m
  | np :: nccis, m => do
    if np.taken ncci then capincciFreeLoop env ncci nccis (← capincciUnlink env m np.minorp)
    else capincciFreeLoop env ncci nccis m

def capincciFree (env : MountedEnv) (m : Mounted) (d : Nat) (ncci : UInt32) : Option Mounted := do
  let cdev ← m.driver.devs d
  let m ← capincciFreeLoop env ncci cdev.nccis m
  some { m with driver := m.driver.setDev d { cdev with nccis := cdev.nccis.filter fun np => ! np.taken ncci } }

/-! ## Files -/

def capidevFree (env : MountedEnv) (m : Mounted) (d : Nat) : Option Mounted := do
  let cdev ← m.driver.devs d
  let ap := if cdev.ap.id ≠ 0 then { cdev.ap with id := 0, msgQueue := [] } else cdev.ap
  let m := { m with driver := m.driver.setDev d { cdev with ap, recvqueue := [] } }
  let m ← capincciFree env m d 0xffffffff
  some { m with driver :=
    { m.driver with devs := Function.update m.driver.devs d none, capidevList := m.driver.capidevList.erase d } }

/-- One message of `capi_recv_message`. -/
def recvOne (env : MountedEnv) (m : Mounted) (d : Nat) (skb : Skb) : Option Mounted := do
  let m ← (if skb.cmd = CAPI_CONNECT_B3_CONF ∧ skb.u16 12 = 0 then capincciAlloc env m d skb.ncci else some m)
  let m ← (if skb.cmd = CAPI_CONNECT_B3_IND then capincciAlloc env m d skb.ncci else some m)
  if skb.u8 4 ≠ CAPI_DATA_B3 then m.ofDriver (recvqueueTail m.driver d skb)
  else
    let cdev ← m.driver.devs d
    match (capincciFind cdev skb.ncci).bind Capincci.minorp with
    | none => m.ofDriver (recvqueueTail m.driver d skb)
    | some p => m.ofDriver (recvDataB3 env.capi m.driver d p skb)

def capiRecvMessageLoop (env : MountedEnv) : Nat → Mounted → Nat → Option Mounted
  | 0, _, _ => none
  | fuel + 1, m, d => do
    let cdev ← m.driver.devs d
    if cdev.ap.info ≠ .NOERR then return m
    match cdev.ap.msgQueue with
    | [] => some m
    | skb :: msgQueue =>
      let m := { m with driver := m.driver.setDev d { cdev with ap := { cdev.ap with msgQueue } } }
      capiRecvMessageLoop env fuel (← recvOne env m d skb) d

def capiRecvMessage (env : MountedEnv) (m : Mounted) (d : Nat) : Option Mounted := do
  let cdev ← m.driver.devs d
  capiRecvMessageLoop env (cdev.ap.msgQueue.length + 1) m d

def capiRead (env : MountedEnv) (m : Mounted) (d count : Nat) : Option (Mounted × (Int ⊕ Bytes)) := do
  let cdev ← m.driver.devs d
  if cdev.ap.id = 0 then return (m, .inl (-ENODEV))
  let m ← (if cdev.recvqueue = [] then capiRecvMessage env m d else some m)
  let cdev ← m.driver.devs d
  match cdev.recvqueue with
  | [] => some (m, .inl (-EAGAIN))
  | skb :: recvqueue =>
    if skb.len > count then return (m, .inl (-EMSGSIZE))
    let t := m.driver.tick
    let m := { m with driver := m.driver.asked }
    if env.capi.fault t then return (m, .inl (-EFAULT))
    some ({ m with driver := m.driver.setDev d { cdev with recvqueue } }, .inr skb.data)

def capiPoll (env : MountedEnv) (m : Mounted) (d : Nat) : Option (Mounted × Bool) := do
  let cdev ← m.driver.devs d
  if cdev.ap.id = 0 then return (m, false)
  let m ← capiRecvMessage env m d
  let cdev ← m.driver.devs d
  some (m, cdev.recvqueue ≠ [])

def capiWrite (env : MountedEnv) (m : Mounted) (d : Nat) (buf : Bytes) : Option (Mounted × Int) := do
  let cdev ← m.driver.devs d
  if cdev.ap.id = 0 then return (m, -ENODEV)
  let t := m.driver.tick
  let m := { m with driver := m.driver.asked }
  if ¬ env.capi.kmalloc t then return (m, -ENOMEM)
  if env.capi.fault t then return (m, -EFAULT)
  let skb : Skb := { data := buf, tailroom := 0, beyond := env.capi.slab t }
  let mlen := if skb.cmd = CAPI_DATA_B3_REQ then skb.msgLen + (skb.u16 16).toNat else skb.msgLen
  if mlen ≠ buf.length then return (m, -EINVAL)
  let skb := skb.setU16 2 cdev.ap.id
  let m ← (if skb.cmd = CAPI_DISCONNECT_B3_RESP then capincciFree env m d skb.ncci else some m)
  let info := env.capi.put t
  let m := { m with driver := putCapiMessage m.driver d skb.data info }
  let cdev ← m.driver.devs d
  let m := { m with driver := m.driver.setDev d { cdev with errcode := info } }
  some (m, if info = .NOERR then buf.length else - EIO)

/-! ## Runs -/

/-- One call. -/
def call (env : MountedEnv) (m : Mounted) : Op → Option Mounted
  | .read d count => (capiRead env m d count).map (·.1)
  | .poll d => (capiPoll env m d).map (·.1)
  | .write d buf => (capiWrite env m d buf).map (·.1)
  | .release d => capidevFree env m d
  | op => m.ofDriver (Capi.step env.capi m.driver op)

end Mounted

/-- A call into `capi.c`, or what `capifs_remount` has read. -/
inductive MountedOp where
  | call (op : Op)
  | remount (config : CapifsConfig)

/-- The call into `capi.c`. -/
def MountedOp.toOp : MountedOp → Option Op
  | .call op => some op
  | .remount _ => none

def Mounted.step (env : MountedEnv) (m : Mounted) : MountedOp → Option Mounted
  | .call op => m.call env op
  | .remount config => some { m with fs := { m.fs with config } }

/-! ## What a program asks -/

def ESRCH : Int := 3

/-- CAPI_NCCI_GETUNIT. -/
def capiNcciGetunit (s : Driver) (d : Nat) (ncci : UInt32) : Option Int := do
  let cdev ← s.devs d
  match (capincciFind cdev ncci).bind Capincci.minorp with
  | none => some (- ESRCH)
  | some p =>
    let mp ← s.minors p
    some mp.minor

end Capi4Linux.Capi
