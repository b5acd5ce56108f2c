import Capi4Linux.Capicore.Operations
import Capi4Linux.Lib.Run

/-!
# capicore: runs

Every thread of a driver or an application moves in sections. A run is any
interleaving of them.
-/

namespace Capi4Linux.Capicore
open Capi4Linux.Capicore.Core Machine

/-- The sections of the calls into the capicore, with what the environment decides. -/
inductive Section where
  | deviceAlloc (mem : Bool)
  | deviceRegister (d : Nat) (info : Nat → Capinfo0x10)
  | deviceRegisterSysfs (d : Nat) (res : Int)
  | deviceUnlink (d : Nat)
  | deviceDrain (d : Nat)
  | devicePut (d : Nat)
  | applRegister (a : Nat) (datablklen : UInt32) (info : Nat → Capinfo0x10)
  | applRelease (a : Nat)
  | applSignalError (a : Nat) (info : Capinfo0x11)
  | putLookup (a : Nat) (msg : Option (List UInt8))
  | putEnter (p : Put)
  | putLeave (p : Put) (info : Capinfo0x11)

/-- One section. -/
def step (cfg : Config) (c : Core) : Section → Option Core
  | .deviceAlloc mem => some (capiDeviceAlloc c mem)
  | .deviceRegister d info => capiDeviceRegister cfg c d info
  | .deviceRegisterSysfs d res => some (capiDeviceRegisterSysfs c d res)
  | .deviceUnlink d => unlinkCapiDevice c d
  | .deviceDrain d => drainCapiDevice c d
  | .devicePut d => (capiDevicePut c d).map fun c => c.setDevPhase d .put
  | .applRegister a datablklen info => (capiRegister cfg c a datablklen info).map (·.2)
  | .applRelease a => (capiRelease cfg c a).map (·.2)
  | .applSignalError a info => some (capiApplSignalError c a info)
  | .putLookup a msg => (capiPutMessageLookup cfg c a msg).map fun
    | .inl _ => c
    | .inr p => { c with puts := p :: c.puts }
  | .putEnter p => (capiPutMessageEnter c p).map (·.2)
  | .putLeave p info => (capiPutMessageLeave c p info).map (·.2)

/-- The documented life cycle of devices and applications, and that a semaphore
with readers cannot be taken for writing. -/
def Allowed (c : Core) : Section → Prop
  | .deviceAlloc _ => True
  | .deviceRegister d _ => c.devPhase d = .alloced
  | .deviceRegisterSysfs d _ => c.devPhase d = .bound
  | .deviceUnlink d => c.devPhase d = .failing ∨ c.devPhase d = .registered
  | .deviceDrain d =>
    (∃ err, c.devPhase d = .unlinked err) ∧
      ∀ dev, c.device d = some dev → dev.sem.writer = false ∧ dev.sem.readers = 0
  | .devicePut d => c.devPhase d = .alloced ∨ ∃ err, c.devPhase d = .returned err
  | .applRegister a _ _ => c.applPhase a = .fresh
  | .applRelease a => c.applPhase a = .registered ∧ ∀ p ∈ c.puts, p.appl ≠ a
  | .applSignalError a _ => c.applPhase a = .registered
  | .putLookup a _ => c.applPhase a = .registered
  | .putEnter p => p ∈ c.puts ∧ p.inside = false
  | .putLeave p _ => p ∈ c.puts ∧ p.inside = true

end Capi4Linux.Capicore
