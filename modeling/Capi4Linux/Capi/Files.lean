import Capi4Linux.Capi.Minor

/-!
# Files of /dev/capi20

Reception of messages and the file operations.
-/

namespace Capi4Linux.Capi
open Bytes Capicore

/-- `skb_queue_tail` on the queue `capi_read` serves. -/
def recvqueueTail (s : Driver) (d : Nat) (skb : Skb) : Option Driver := do
  let cdev ← s.devs d
  some (s.setDev d { cdev with recvqueue := cdev.recvqueue ++ [skb] })

/-- A DATA_B3_IND or DATA_B3_CONF for a minor. -/
def recvDataB3 (env : Env) (s : Driver) (d p : Nat) (skb : Skb) : Option Driver := do
  if skb.u8 5 = CAPI_IND then
    let mp ← s.minors p
    let s := s.setMinor p { mp with inqueue := mp.inqueue ++ [skb], inbytes := mp.inbytes + .ofNat skb.len }
    handleMinorRecv env s p
  else if skb.u8 5 = CAPI_CONF then
    let mp ← s.minors p
    let s := s.setMinor p (capiminorDelAck mp (skb.u16 (CAPI_MSG_BASELEN + 4)))
    return (← handleMinorSend env s p).1
  else recvqueueTail s d skb

/-- One message of `capi_recv_message`. -/
def recvOne (env : Env) (s : Driver) (d : Nat) (skb : Skb) : Option Driver := do
  let s ← (if skb.cmd = CAPI_CONNECT_B3_CONF ∧ skb.u16 12 = 0 then capincciAlloc env s d skb.ncci else some s)
  let s ← (if skb.cmd = CAPI_CONNECT_B3_IND then capincciAlloc env s d skb.ncci else some s)
  if skb.u8 4 ≠ CAPI_DATA_B3 then recvqueueTail s d skb
  else
    let cdev ← s.devs d
    match (capincciFind cdev skb.ncci).bind Capincci.minorp with
    | none => recvqueueTail s d skb
    | some p => recvDataB3 env s d p skb

def capiRecvMessageLoop (env : Env) : Nat → Driver → Nat → Option Driver
  | 0, _, _ => none
  | fuel + 1, s, d => do
    let cdev ← s.devs d
    if cdev.ap.info ≠ .NOERR then return s
    match cdev.ap.msgQueue with
    | [] => some s
    | skb :: msgQueue =>
      let s := s.setDev d { cdev with ap := { cdev.ap with msgQueue } }
      capiRecvMessageLoop env fuel (← recvOne env s d skb) d

def capiRecvMessage (env : Env) (s : Driver) (d : Nat) : Option Driver := do
  let cdev ← s.devs d
  capiRecvMessageLoop env (cdev.ap.msgQueue.length + 1) s d

def capiRead (env : Env) (s : Driver) (d count : Nat) : Option (Driver × (Int ⊕ Bytes)) := do
  let cdev ← s.devs d
  if cdev.ap.id = 0 then return (s, .inl (-ENODEV))
  let s ← (if cdev.recvqueue = [] then capiRecvMessage env s d else some s)
  let cdev ← s.devs d
  match cdev.recvqueue with
  | [] => some (s, .inl (-EAGAIN))
  | skb :: recvqueue =>
    if skb.len > count then return (s, .inl (-EMSGSIZE))
    let t := s.tick
    let s := s.asked
    if env.fault t then return (s, .inl (-EFAULT))
    some (s.setDev d { cdev with recvqueue }, .inr skb.data)

/-- The result is whether a message can be read. -/
def capiPoll (env : Env) (s : Driver) (d : Nat) : Option (Driver × Bool) := do
  let cdev ← s.devs d
  if cdev.ap.id = 0 then return (s, false)
  let s ← capiRecvMessage env s d
  let cdev ← s.devs d
  some (s, cdev.recvqueue ≠ [])

def capiWrite (env : Env) (s : Driver) (d : Nat) (buf : Bytes) : Option (Driver × Int) := do
  let cdev ← s.devs d
  if cdev.ap.id = 0 then return (s, -ENODEV)
  let t := s.tick
  let s := s.asked
  if ¬ env.kmalloc t then return (s, -ENOMEM)
  if env.fault t then return (s, -EFAULT)
  let skb : Skb := { data := buf, tailroom := 0, beyond := env.slab t }
  let mlen := if skb.cmd = CAPI_DATA_B3_REQ then skb.msgLen + (skb.u16 16).toNat else skb.msgLen
  if mlen ≠ buf.length then return (s, -EINVAL)
  let skb := skb.setU16 2 cdev.ap.id
  let s ← (if skb.cmd = CAPI_DISCONNECT_B3_RESP then capincciFree s d skb.ncci else some s)
  let info := env.put t
  let s := putCapiMessage s d skb.data info
  let cdev ← s.devs d
  let s := s.setDev d { cdev with errcode := info }
  some (s, if info = .NOERR then buf.length else - EIO)

/-- CAPI_REGISTER; `info` and `id` are what `capi_register` answers. -/
def capiIoctlRegister (s : Driver) (d : Nat) (info : Capinfo0x11) (id : UInt16) : Option (Driver × Int) := do
  let cdev ← s.devs d
  if cdev.ap.id ≠ 0 then return (s, -EEXIST)
  if info = .NOERR then
    some (s.setDev d { cdev with errcode := info, ap := { id, info := .NOERR, msgQueue := [] } }, id.toNat)
  else some (s.setDev d { cdev with errcode := info, ap := { cdev.ap with id := 0 } }, - EIO)

/-- CAPI_SET_FLAGS and CAPI_CLR_FLAGS. -/
def capiIoctlFlags (s : Driver) (d : Nat) (set : Bool) (userflags : UInt32) : Option Driver := do
  let cdev ← s.devs d
  let userflags := if set then cdev.userflags ||| userflags else cdev.userflags &&& ~~~userflags
  some (s.setDev d { cdev with userflags })

end Capi4Linux.Capi
