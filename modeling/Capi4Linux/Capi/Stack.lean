import Capi4Linux.Capicore.Frame
import Capi4Linux.Capi.Step
import Capi4Linux.Capi.Writes

/-!
# The files of /dev/capi20 on the capicore

The driver of `capi.c` with the capicore under it, in place of answers that are
given. No file has CAPIFLAG_HIGHJACKING, so there are no ttys. `capi_write`
takes its steps apart, since `capi_put_message` lets devices go and others call
while it is at work; all other calls of a file are one step.
-/

namespace Capi4Linux.Capi
open Bytes Capicore

/-! ## A write in two halves -/

/-- `capi_write` up to the call of `put_capi_message`: an error, or the message. -/
def capiWriteMessage (env : Env) (s : Driver) (d : Nat) (buf : Bytes) : Option (Driver × (Int ⊕ Bytes)) := do
  let cdev ← s.devs d
  if cdev.ap.id = 0 then return (s, .inl (-ENODEV))
  let t := s.tick
  let s := s.asked
  if ¬ env.kmalloc t then return (s, .inl (-ENOMEM))
  if env.fault t then return (s, .inl (-EFAULT))
  let skb := Skb.ofUser buf (env.slab t)
  if skb.claimedLen ≠ buf.length then return (s, .inl (-EINVAL))
  let skb := skb.setU16 2 cdev.ap.id
  let s ← prepare s d skb
  some (s, .inr skb.data)

/-- `capi_write` from the answer of `capi_put_message` on. -/
def capiWriteAnswered (s : Driver) (d : Nat) (data : Bytes) (info : Capinfo0x11) : Option (Driver × Int) := do
  let s := putCapiMessage s d data info
  let cdev ← s.devs d
  some (s.setDev d { cdev with errcode := info }, if info = .NOERR then data.length else - EIO)

/-- When nothing comes between them, the halves are the whole. -/
theorem capiWrite_halves (env : Env) (s : Driver) (d : Nat) (buf : Bytes) :
    capiWrite env s d buf = (capiWriteMessage env s d buf).bind fun
      | (s', .inl err) => some (s', err)
      | (s', .inr data) => capiWriteAnswered s' d data (env.put s.tick) := by
  unfold capiWrite capiWriteMessage
  cases dev : s.devs d with
  | none => rfl
  | some cdev =>
    simp only [Option.bind_eq_bind, Option.bind_some]
    by_cases unregistered : cdev.ap.id = 0
    · rw [if_pos unregistered, if_pos unregistered]
      rfl
    rw [if_neg unregistered, if_neg unregistered]
    by_cases mem : env.kmalloc s.tick = true
    case neg =>
      rw [if_pos mem, if_pos mem]
      rfl
    rw [if_neg (not_not_intro mem), if_neg (not_not_intro mem)]
    by_cases fault : env.fault s.tick = true
    · rw [if_pos fault, if_pos fault]
      rfl
    rw [if_neg fault, if_neg fault]
    change (if (Skb.ofUser buf (env.slab s.tick)).claimedLen ≠ buf.length then _ else _) = _
    by_cases framed : (Skb.ofUser buf (env.slab s.tick)).claimedLen = buf.length
    case neg =>
      rw [if_pos framed, if_pos framed]
      rfl
    rw [if_neg (not_not_intro framed), if_neg (not_not_intro framed)]
    have size : ((Skb.ofUser buf (env.slab s.tick)).setU16 2 cdev.ap.id).data.length = buf.length := by
      show ((buf.set 2 _).set 3 _).length = _
      rw [List.length_set, List.length_set]
    change (prepare s.asked d ((Skb.ofUser buf (env.slab s.tick)).setU16 2 cdev.ap.id)).bind _ = _
    cases prepare s.asked d ((Skb.ofUser buf (env.slab s.tick)).setU16 2 cdev.ap.id) with
    | none => rfl
    | some s₁ =>
      simp only [Option.bind_some]
      unfold capiWriteAnswered
      rw [size]
      rfl

/-! ## The stack -/

/-- The capicore and the files. -/
structure Stack where
  core : Core
  driver : Driver

def Stack.init : Stack := ⟨.init, .init⟩

/-- `&cdev->ap` of file `d`. The applications of other clients have odd numbers. -/
def ap (d : Nat) : Nat := 2 * d

/-- The file that a call of `capi_put_message` is made for. -/
def putFile (p : Put) : Nat := p.appl / 2

/-- What `errcode` keeps of an answer of `capi_register`, which is a `capinfo_0x10_t`: that there is an error. -/
def registerErrcode (info : Capinfo0x10) : Capinfo0x11 := if info = .NOERR then .NOERR else .OSRESERR

namespace Stack

variable (cfg : Config) (env : Env) (s : Stack)

/-- CAPI_REGISTER. -/
def capiIoctlRegister (d : Nat) (datablklen : UInt32) (info : Nat → Capinfo0x10) : Option Stack := do
  let cdev ← s.driver.devs d
  if cdev.ap.id ≠ 0 then return s
  let (r, core) ← capiRegister cfg s.core (ap d) datablklen info
  let (driver, _) ← Capi.capiIoctlRegister s.driver d (registerErrcode r) (core.appl (ap d)).id
  some ⟨core, driver⟩

/-- `capi_write` until `capi_put_message` has found the device. -/
def capiWriteBegin (d : Nat) (buf : Bytes) : Option Stack := do
  match ← capiWriteMessage env s.driver d buf with
  | (driver, .inl _) => some { s with driver }
  | (driver, .inr data) =>
    match ← capiPutMessageLookup cfg s.core (ap d) (some data) with
    | .inl info => (capiWriteAnswered driver d data info).map fun (driver, _) => { s with driver }
    | .inr p => some { core := { s.core with puts := p :: s.core.puts }, driver }

/-- The semaphore of the device is tried. -/
def capiWriteEnter (p : Put) : Option Stack := do
  match ← capiPutMessageEnter s.core p with
  | (none, core) => some { s with core }
  | (some info, core) => (capiWriteAnswered s.driver (putFile p) p.msg info).map fun (driver, _) => ⟨core, driver⟩

/-- The driver of the device has answered. -/
def capiWriteLeave (p : Put) (info : Capinfo0x11) : Option Stack := do
  let (info, core) ← capiPutMessageLeave s.core p info
  (capiWriteAnswered s.driver (putFile p) p.msg info).map fun (driver, _) => ⟨core, driver⟩

/-- `capi_appl_signal_error` for a file. -/
def signalError (d : Nat) (info : Capinfo0x11) : Option Stack :=
  (Capi.signalError s.driver d info).map fun driver => ⟨capiApplSignalError s.core (ap d) info, driver⟩

/-- `capi_frelease`. -/
def capiFrelease (d : Nat) : Option Stack := do
  let cdev ← s.driver.devs d
  let core ← (if cdev.ap.id ≠ 0 then (capiRelease cfg s.core (ap d)).map (·.2) else some s.core)
  (capidevFree s.driver d).map fun driver => ⟨core, driver⟩

end Stack

/-- What can happen. `core` is anything in the capicore that is not done for a file. -/
inductive StackOp where
  | core (l : Section)
  | openFile
  | register (d : Nat) (datablklen : UInt32) (info : Nat → Capinfo0x10)
  | enqueue (d : Nat) (skb : Skb)
  | signalError (d : Nat) (info : Capinfo0x11)
  | read (d count : Nat)
  | poll (d : Nat)
  | write (d : Nat) (buf : Bytes)
  | writeEnter (p : Put)
  | writeLeave (p : Put) (info : Capinfo0x11)
  | release (d : Nat)

namespace Stack

/-- One step. -/
def step (cfg : Config) (env : Env) (s : Stack) : StackOp → Option Stack
  | .core l => (Capicore.step cfg s.core l).map fun core => { s with core }
  | .openFile => some { s with driver := (capidevAlloc env s.driver).1 }
  | .register d datablklen info => s.capiIoctlRegister cfg d datablklen info
  | .enqueue d skb => (enqueueMessage s.driver d skb).map fun driver => { s with driver }
  | .signalError d info => s.signalError d info
  | .read d count => (capiRead env s.driver d count).map fun (driver, _) => { s with driver }
  | .poll d => (capiPoll env s.driver d).map fun (driver, _) => { s with driver }
  | .write d buf => s.capiWriteBegin cfg env d buf
  | .writeEnter p => s.capiWriteEnter p
  | .writeLeave p info => s.capiWriteLeave p info
  | .release d => s.capiFrelease cfg d

/-- `capi_register` has accepted the file. -/
def Registered (s : Stack) (d : Nat) : Prop := ∃ cdev, s.driver.devs d = some cdev ∧ cdev.ap.id ≠ 0

/-- The VFS makes the calls of a file while it is open, and releases it when no call of it is left; devices reach
files that are registered; others keep the contract of the capicore. -/
def Allowed (s : Stack) : StackOp → Prop
  | .core l => Capicore.Allowed s.core l ∧ ∀ d, l.appl ≠ some (ap d) ∧ l.sender ≠ some (ap d)
  | .openFile => True
  | .register d _ _ | .read d _ | .poll d | .write d _ => s.driver.devs d ≠ none
  | .enqueue d _ | .signalError d _ => s.Registered d
  | .writeEnter p => p ∈ s.core.puts ∧ p.inside = false ∧ p.appl = ap (putFile p)
  | .writeLeave p _ => p ∈ s.core.puts ∧ p.inside = true ∧ p.appl = ap (putFile p)
  | .release d => s.driver.devs d ≠ none ∧ ∀ p ∈ s.core.puts, p.appl ≠ ap d

/-- A message that could be built is put. -/
def lookups (d : Nat) : Option (Driver × (Int ⊕ Bytes)) → List Section
  | some (_, .inr data) => [.putLookup (ap d) (some data)]
  | _ => []

/-- What the capicore is asked for. -/
def asks (env : Env) (s : Stack) : StackOp → List Section
  | .core l => [l]
  | .register d datablklen info =>
    if (s.driver.devs d).any (·.ap.id = 0) then [.applRegister (ap d) datablklen info] else []
  | .signalError d info => [.applSignalError (ap d) info]
  | .write d buf => lookups d (capiWriteMessage env s.driver d buf)
  | .writeEnter p => [.putEnter p]
  | .writeLeave p info => [.putLeave p info]
  | .release d => if (s.driver.devs d).any (·.ap.id ≠ 0) then [.applRelease (ap d)] else []
  | .openFile | .enqueue _ _ | .read _ _ | .poll _ => []

end Stack

end Capi4Linux.Capi
