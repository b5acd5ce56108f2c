import Capi4Linux.Capi.Files
import Capi4Linux.Capi.Tty
import Capi4Linux.Lib.Run

/-!
# capi.c: runs

User space uses files and ttys, devices enqueue messages. A run is any order of
these calls.
-/

namespace Capi4Linux.Capi
open Bytes Capicore Machine

/-- A call into the driver, or a message a device enqueues for a file. -/
inductive Op where
  | openFile
  | ioctlRegister (d : Nat) (info : Capinfo0x11) (id : UInt16)
  | ioctlFlags (d : Nat) (set : Bool) (userflags : UInt32)
  | enqueue (d : Nat) (skb : Skb)
  | signalError (d : Nat) (info : Capinfo0x11)
  | read (d count : Nat)
  | poll (d : Nat)
  | write (d : Nat) (buf : Bytes)
  | release (d : Nat)
  | ttyOpen (tty : Nat)
  | ttyClose (tty : Nat)
  | ttyWrite (tty : Nat) (fromUser : Bool) (buf : Bytes)
  | ttyPutChar (tty : Nat) (ch : UInt8)
  | ttyFlushChars (tty : Nat)
  | ttyThrottle (tty : Nat)
  | ttyUnthrottle (tty : Nat)
  | ttyStop (tty : Nat)
  | ttyStart (tty : Nat)

/-- A message reaches the queue of an application. -/
def enqueueMessage (s : Driver) (d : Nat) (skb : Skb) : Option Driver := do
  let cdev ← s.devs d
  some (s.setDev d { cdev with ap := { cdev.ap with msgQueue := cdev.ap.msgQueue ++ [skb] } })

/-- A device reports an error to an application, which keeps the first. -/
def signalError (s : Driver) (d : Nat) (info : Capinfo0x11) : Option Driver := do
  let cdev ← s.devs d
  some (s.setDev d { cdev with ap := { cdev.ap with info := if cdev.ap.info = .NOERR then info else cdev.ap.info } })

/-- An open that succeeded is counted. -/
def countOpen (tty : Nat) (res : Driver × Int) : Driver :=
  if res.2 = 0 then { res.1 with opens := Function.update res.1.opens tty (res.1.opens tty + 1) } else res.1

/-- A close takes one open back. -/
def countClose (tty : Nat) (s : Driver) : Driver :=
  { s with opens := Function.update s.opens tty (s.opens tty - 1) }

def ttyOpen (env : Env) (s : Driver) (tty : Nat) : Option Driver :=
  (capincTtyOpen env s tty).map (countOpen tty)

def ttyClose (s : Driver) (tty : Nat) : Option Driver :=
  (capincTtyClose s tty).map (countClose tty)

/-- One call. -/
def step (env : Env) (s : Driver) : Op → Option Driver
  | .openFile => some (capidevAlloc env s).1
  | .ioctlRegister d info id => (capiIoctlRegister s d info id).map (·.1)
  | .ioctlFlags d set userflags => capiIoctlFlags s d set userflags
  | .enqueue d skb => enqueueMessage s d skb
  | .signalError d info => signalError s d info
  | .read d count => (capiRead env s d count).map (·.1)
  | .poll d => (capiPoll env s d).map (·.1)
  | .write d buf => (capiWrite env s d buf).map (·.1)
  | .release d => capidevFree s d
  | .ttyOpen tty => ttyOpen env s tty
  | .ttyClose tty => ttyClose s tty
  | .ttyWrite tty fromUser buf => (capincTtyWrite env s tty fromUser buf).map (·.1)
  | .ttyPutChar tty ch => capincTtyPutChar env s tty ch
  | .ttyFlushChars tty => capincTtyFlushChars env s tty
  | .ttyThrottle tty => capincTtyThrottle s tty
  | .ttyUnthrottle tty => capincTtyUnthrottle env s tty
  | .ttyStop tty => capincTtyStop s tty
  | .ttyStart tty => capincTtyStart env s tty

/-- The file or tty of a call is open. -/
def Allowed (s : Driver) : Op → Prop
  | .openFile | .ttyOpen _ => True
  | .ioctlRegister d _ _ | .ioctlFlags d _ _ | .enqueue d _ | .signalError d _ | .read d _ | .poll d | .write d _
  | .release d => s.devs d ≠ none
  | .ttyClose tty | .ttyWrite tty _ _ | .ttyPutChar tty _ | .ttyFlushChars tty | .ttyThrottle tty
  | .ttyUnthrottle tty | .ttyStop tty | .ttyStart tty => 0 < s.opens tty

end Capi4Linux.Capi
