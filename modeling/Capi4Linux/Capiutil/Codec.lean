import Capi4Linux.Capiutil.Cmsg

/-!
# Encoding and decoding

`capi_cmsg2message` and `capi_message2cmsg` walk the parameter codes of a
message with the cursors `l` (in the message) and `p` (in the codes). A walk
that leaves the codes, the message or a struct has no result. The loops take
their bound as fuel; every turn moves `p` forward, so the number of codes is
enough.
-/

namespace Capi4Linux.Capiutil
open Bytes

/-- The bytes a `_cstruct` takes, its length included. -/
def structSize (s : Bytes) : Option Nat := do
  let n ← s[0]?
  if n ≠ 0xff then some (1 + n.toNat) else some (3 + leNat (← peek s 1 2))

/-- The bytes written for a `_cstruct`: its own, or the empty struct for NULL. -/
def structBytes : Option Bytes → Option Bytes
  | none => some [0]
  | some s => do peek s 0 (← structSize s)

def jumpcstructLoop : Nat → Nat → Cmsg → Option Cmsg
  | 0, _, _ => none
  | fuel + 1, layer, cmsg =>
    if layer = 0 then some cmsg
    else do
      let cmsg := cmsg.next
      match ← cmsg.typ with
      | .cmstruct _ => jumpcstructLoop fuel (layer + 1) cmsg
      | .cend => jumpcstructLoop fuel (layer - 1) cmsg
      | _ => jumpcstructLoop fuel layer cmsg

/-- Move `p` from a composite parameter to the end of its members. -/
def jumpcstruct (cmsg : Cmsg) : Option Cmsg :=
  jumpcstructLoop (cmsg.par.length + 1) 1 cmsg.next

namespace Cmsg

/-- Copy `bs` to the cursor and move it behind them. -/
def write (cmsg : Cmsg) (bs : Bytes) : Option Cmsg := do
  let m ← poke cmsg.m cmsg.l bs
  some { cmsg with m, l := cmsg.l + bs.length }

/-- Set the length of the composite that starts at `l₀`. From 255 bytes on the members are
moved to make room for the long form; `l` stays. -/
def close (cmsg : Cmsg) (l₀ : Nat) : Option Cmsg := do
  let ls := cmsg.l - l₀ - 1
  if ls < 255 then
    let m ← poke cmsg.m l₀ [UInt8.ofNat ls]
    some { cmsg with m }
  else
    let m ← poke cmsg.m (l₀ + 3) (← peek cmsg.m (l₀ + 1) ls)
    let m ← poke m l₀ [0xff]
    let m ← poke m (l₀ + 1) (le 2 ls)
    some { cmsg with m }

end Cmsg

def pars2Message : Nat → Cmsg → Option Cmsg
  | 0, _ => none
  | fuel + 1, cmsg => do
    match ← cmsg.typ with
    | .word f =>
      let cmsg ← cmsg.write (le 2 (cmsg.word f).toNat)
      pars2Message fuel cmsg.next
    | .dword f =>
      let cmsg ← cmsg.write (le 4 (cmsg.dword f).toNat)
      pars2Message fuel cmsg.next
    | .cstruct f =>
      let cmsg ← cmsg.write (← structBytes (cmsg.cstruct f))
      pars2Message fuel cmsg.next
    | .cmstruct f =>
      match cmsg.cmstruct f with
      | .default =>
        let cmsg ← cmsg.write [0]
        let cmsg ← jumpcstruct cmsg
        pars2Message fuel cmsg.next
      | .compose =>
        let l₀ := cmsg.l
        let cmsg ← pars2Message fuel { cmsg with l := cmsg.l + 1, p := cmsg.p + 1 }
        let cmsg ← cmsg.close l₀
        pars2Message fuel cmsg.next
    | .cend => some cmsg

def capiCmsg2message (cmsg : Cmsg) (msg : Bytes) : Option Cmsg := do
  let par ← cpars (command2Index cmsg.command cmsg.subcommand)
  let cmsg ← pars2Message par.length { cmsg with m := msg, l := 8, p := 0, par }
  let m ← poke cmsg.m 0 (le 2 cmsg.l)
  let m ← poke m 4 [cmsg.command]
  let m ← poke m 5 [cmsg.subcommand]
  let m ← poke m 2 (le 2 cmsg.applId.toNat)
  let m ← poke m 6 (le 2 cmsg.messagenumber.toNat)
  some { cmsg with m }

def message2Pars : Nat → Cmsg → Option Cmsg
  | 0, _ => none
  | fuel + 1, cmsg => do
    match ← cmsg.typ with
    | .word f =>
      let bs ← peek cmsg.m cmsg.l 2
      message2Pars fuel
        { cmsg with word := Function.update cmsg.word f (UInt16.ofNat (leNat bs)), l := cmsg.l + 2 }.next
    | .dword f =>
      let bs ← peek cmsg.m cmsg.l 4
      message2Pars fuel
        { cmsg with dword := Function.update cmsg.dword f (UInt32.ofNat (leNat bs)), l := cmsg.l + 4 }.next
    | .cstruct f =>
      let s := cmsg.m.drop cmsg.l
      let size ← structSize s
      message2Pars fuel
        { cmsg with cstruct := Function.update cmsg.cstruct f (some s), l := cmsg.l + size }.next
    | .cmstruct f =>
      let n ← cmsg.m[cmsg.l]?
      if n = 0 then
        let cmsg ← jumpcstruct
          { cmsg with cmstruct := Function.update cmsg.cmstruct f .default, l := cmsg.l + 1 }
        message2Pars fuel cmsg.next
      else
        let cmsg ← message2Pars fuel
          { cmsg with
            cmstruct := Function.update cmsg.cmstruct f .compose
            l := if n = 255 then cmsg.l + 3 else cmsg.l + 1
            p := cmsg.p + 1 }
        message2Pars fuel cmsg.next
    | .cend => some cmsg

/-- `capi_message2cmsg` up to the end of `message_2_pars`: `l` counts the bytes consumed. -/
def decodePars (msg : Bytes) : Option Cmsg := do
  let command ← msg[4]?
  let subcommand ← msg[5]?
  let par ← cpars (command2Index command subcommand)
  message2Pars par.length { Cmsg.zero msg with command, subcommand, l := 8, par }

/-- The length word of the message goes into the low half of `l`. -/
def capiMessage2cmsg (msg : Bytes) : Option Cmsg := do
  let cmsg ← decodePars msg
  let len ← peek msg 0 2
  let applId ← peek msg 2 2
  let messagenumber ← peek msg 6 2
  some { cmsg with
    l := cmsg.l / 65536 * 65536 + leNat len
    applId := UInt16.ofNat (leNat applId)
    messagenumber := UInt16.ofNat (leNat messagenumber) }

def capiCmsgHeader (applId : UInt16) (command subcommand : UInt8) (messagenumber : UInt16)
    (controller : UInt32) : Cmsg :=
  { Cmsg.zero [] with
    applId, command, subcommand, messagenumber
    dword := Function.update (Cmsg.zero []).dword .adr controller }

def capiCmsgAnswer (cmsg : Cmsg) : Cmsg :=
  { cmsg with subcommand := cmsg.subcommand ||| 0x01 }

end Capi4Linux.Capiutil
