import Capi4Linux.Capi.Minor

/-!
# The ttys of NCCIs

The operations of the tty driver. A tty is known by its minor number.
-/

namespace Capi4Linux.Capi
open Bytes Capicore

def capincTtyOpen (env : Env) (s : Driver) (tty : Nat) : Option (Driver × Int) := do
  match ← capiminorFind s tty with
  | none => some (s, - ENXIO)
  | some p =>
    let mp ← s.minors p
    if ¬ mp.nccip then return (s, - ENXIO)
    let s := { s with ttys := Function.update s.ttys tty (some p) }
    let s := s.setMinor p
      { mp with tty := if mp.ttyopencount = 0 then some tty else mp.tty, ttyopencount := mp.ttyopencount + 1 }
    some (← handleMinorRecv env s p, 0)

def capincTtyClose (s : Driver) (tty : Nat) : Option Driver := do
  match s.ttys tty with
  | none => some s
  | some p =>
    let mp ← s.minors p
    let mp := { mp with ttyopencount := mp.ttyopencount - 1 }
    let s :=
      if mp.ttyopencount = 0 then
        { s with ttys := Function.update s.ttys tty none }.setMinor p { mp with tty := none }
      else s.setMinor p mp
    if ¬ mp.nccip then capiminorFree s p else some s

/-- The minor of a tty that still has its NCCI. -/
def ttyMinor (s : Driver) (tty : Nat) : Option (Option (Nat × Capiminor)) :=
  match s.ttys tty with
  | none => some none
  | some p => do
    let mp ← s.minors p
    some (if mp.nccip then some (p, mp) else none)

/-- Queue the characters collected by `put_char`. -/
def flushTtyskb (mp : Capiminor) : Capiminor :=
  match mp.ttyskb with
  | none => mp
  | some skb => { mp with ttyskb := none, outqueue := mp.outqueue ++ [skb], outbytes := mp.outbytes + .ofNat skb.len }

def capincTtyWrite (env : Env) (s : Driver) (tty : Nat) (fromUser : Bool) (buf : Bytes) : Option (Driver × Int) := do
  match ← ttyMinor s tty with
  | none => some (s, 0)
  | some (p, mp) =>
    let mp := flushTtyskb mp
    let t := s.tick
    let s := (s.setMinor p mp).asked
    if ¬ env.kmalloc t then return (s, -ENOMEM)
    if fromUser ∧ env.fault t then return (s, -EFAULT)
    let skb : Skb := { data := buf, tailroom := 0, beyond := env.slab t }
    let s := s.setMinor p { mp with outqueue := mp.outqueue ++ [skb], outbytes := mp.outbytes + .ofNat skb.len }
    let (s, _) ← handleMinorSend env s p
    some (← handleMinorRecv env s p, buf.length)

def capincTtyPutChar (env : Env) (s : Driver) (tty : Nat) (ch : UInt8) : Option Driver := do
  match ← ttyMinor s tty with
  | none => some s
  | some (p, mp) =>
    match mp.ttyskb with
    | some skb =>
      if skb.tailroom > 0 then some (s.setMinor p { mp with ttyskb := some (skb.putByte ch) })
      else
        let (s, _) ← handleMinorSend env (s.setMinor p (flushTtyskb mp)) p
        newTtyskb env s p ch
    | none => newTtyskb env s p ch
where
  newTtyskb (env : Env) (s : Driver) (p : Nat) (ch : UInt8) : Option Driver := do
    let t := s.tick
    let s := s.asked
    if env.kmalloc t then
      let mp ← s.minors p
      let skb : Skb := { data := [ch], tailroom := env.tailroom t - 1, beyond := env.slab t }
      some (s.setMinor p { mp with ttyskb := some skb })
    else some s

def capincTtyFlushChars (env : Env) (s : Driver) (tty : Nat) : Option Driver := do
  match ← ttyMinor s tty with
  | none => some s
  | some (p, mp) =>
    let s ← (if mp.ttyskb.isSome then (handleMinorSend env (s.setMinor p (flushTtyskb mp)) p).map Prod.fst
      else some s)
    handleMinorRecv env s p

def capincTtyWriteRoom (s : Driver) (tty : Nat) : Option Int := do
  match ← ttyMinor s tty with
  | none => some 0
  | some (_, mp) => some (((CAPINC_MAX_SENDQUEUE : Int) - mp.outqueue.length) * CAPI_MAX_BLKSIZE)

def capincTtyCharsInBuffer (s : Driver) (tty : Nat) : Option Int := do
  match ← ttyMinor s tty with
  | none => some 0
  | some (_, mp) => some mp.outbytes.toInt

def capincTtyThrottle (s : Driver) (tty : Nat) : Option Driver :=
  match s.ttys tty with
  | none => some s
  | some p => do
    let mp ← s.minors p
    some (s.setMinor p { mp with ttyinstop := true })

def capincTtyUnthrottle (env : Env) (s : Driver) (tty : Nat) : Option Driver :=
  match s.ttys tty with
  | none => some s
  | some p => do
    let mp ← s.minors p
    handleMinorRecv env (s.setMinor p { mp with ttyinstop := false }) p

def capincTtyStop (s : Driver) (tty : Nat) : Option Driver :=
  match s.ttys tty with
  | none => some s
  | some p => do
    let mp ← s.minors p
    some (s.setMinor p { mp with ttyoutstop := true })

def capincTtyStart (env : Env) (s : Driver) (tty : Nat) : Option Driver :=
  match s.ttys tty with
  | none => some s
  | some p => do
    let mp ← s.minors p
    (handleMinorSend env (s.setMinor p { mp with ttyoutstop := false }) p).map Prod.fst

end Capi4Linux.Capi
