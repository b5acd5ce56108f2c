import Capi4Linux.Lib.Bytes
import Mathlib.Data.List.Basic

/-!
# Numbers and protocols of isdn4linux

The conversions between what isdn4linux and a CAPI message say about a call,
and the characters of leased line numbers. `ISDN_PROTO_L2_*` is an enumeration
here.
-/

namespace Capi4Linux.Capidrv
open Bytes

/-! ## Strings -/

/-- From `linux/isdnif.h`. -/
def ISDN_MSNLEN : Nat := 32

/-- A string terminated within its `ISDN_MSNLEN` bytes. -/
structure Msn where
  chars : Bytes
  short : chars.length < ISDN_MSNLEN
  terminated : 0 ∉ chars

def Msn.empty : Msn := ⟨[], by decide, by decide⟩

/-- What `strncpy` copies, up to the terminator. -/
def strncpy (src : Bytes) (n : Nat) : Bytes := (src.take n).takeWhile (· ≠ 0)

/-! ## Protocols -/

/-- `ISDN_PROTO_L2_*`. -/
inductive L2 where
  | x75i | x75ui | x75bui | hdlc | trans | v11096 | v11019 | v11038 | fax | modem | other
  deriving DecidableEq

def b1prot : L2 → UInt16
  | .x75i | .x75ui | .x75bui => 0
  | .hdlc | .other => 0
  | .trans => 1
  | .v11096 | .v11019 | .v11038 => 2
  | .fax => 4
  | .modem => 8

def b2prot : L2 → UInt16
  | .x75i | .x75ui | .x75bui | .other => 0
  | .hdlc | .trans | .v11096 | .v11019 | .v11038 | .modem => 1
  | .fax => 4

def b3prot : L2 → UInt16
  | .fax => 4
  | _ => 0

def b1configAsyncV110 (rate : Nat) : Bytes :=
  [8, UInt8.ofNat (rate % 256), UInt8.ofNat (rate / 256 % 256), 8, 0, 0, 0, 0, 0]

def b1config : L2 → Option Bytes
  | .v11096 => some (b1configAsyncV110 9600)
  | .v11019 => some (b1configAsyncV110 19200)
  | .v11038 => some (b1configAsyncV110 38400)
  | _ => none

/-! ## Service indicators -/

/-- The table `cip` of `si2cip`. -/
def cip : List (List UInt16) :=
  [[0, 0, 0, 0, 0], -- 0
   [16, 16, 4, 26, 16], -- 1
   [17, 17, 17, 4, 4], -- 2
   [2, 2, 2, 2, 2], -- 3
   [18, 18, 18, 18, 18], -- 4
   [2, 2, 2, 2, 2], -- 5
   [0, 0, 0, 0, 0], -- 6
   [2, 2, 2, 2, 2], -- 7
   [2, 2, 2, 2, 2], -- 8
   [21, 21, 21, 21, 21], -- 9
   [19, 19, 19, 19, 19], -- 10
   [0, 0, 0, 0, 0], -- 11
   [0, 0, 0, 0, 0], -- 12
   [0, 0, 0, 0, 0], -- 13
   [0, 0, 0, 0, 0], -- 14
   [22, 22, 22, 22, 22], -- 15
   [27, 27, 27, 28, 27]] -- 16

def si2cip (si1 si2 : UInt8) : UInt16 :=
  let si1 := if si1 > 16 then 0 else si1
  let si2 := if si2 > 4 then 0 else si2
  (cip.getD si1.toNat []).getD si2.toNat 0

def cip2si1 (cipval : UInt16) : UInt8 :=
  let cipval := if cipval > 31 then 0 else cipval
  [7, 1, 7, 7, 1, 1, 7, 7, -- 0-7
   7, 1, 0, 0, 0, 0, 0, 0, -- 8-15
   1, 2, 4, 10, 9, 9, 15, 7, -- 16-23
   7, 7, 1, 16, 16, 0, 0, 0].getD cipval.toNat 0 -- 24-31

def cip2si2 (cipval : UInt16) : UInt8 :=
  let cipval := if cipval > 31 then 0 else cipval
  [0, 0, 0, 0, 2, 3, 0, 0, -- 0-7
   0, 3, 0, 0, 0, 0, 0, 0, -- 8-15
   1, 2, 0, 0, 9, 0, 0, 0, -- 16-23
   0, 0, 3, 2, 3, 0, 0, 0].getD cipval.toNat 0 -- 24-31

/-! ## Leased lines -/

def isdigit (c : UInt8) : Bool := 48 ≤ c && c ≤ 57

/-- What is left after an item, if it ends here: at the end of the string, or at `,` or a blank. -/
def itemEnd : Bytes → Option Bytes
  | [] => some []
  | c :: s => if c = 44 ∨ c = 32 then some s else none

theorem itemEnd_length_le {s rest : Bytes} (ends : itemEnd s = some rest) : rest.length ≤ s.length := by
  cases s with
  | nil =>
    cases ends
    exact Nat.le_refl 0
  | cons c s =>
    rw [itemEnd] at ends
    split at ends
    · cases ends
      exact Nat.le_succ _
    · cases ends

/-- `p` or `P`, then `a` or `A`; whether the line is active, and the items. -/
def decodeActive (s : Bytes) : Bool × Bytes :=
  let (active, s) := match s with
    | c :: s => if c = 112 ∨ c = 80 then (false, s) else (true, c :: s)
    | [] => (true, [])
  match s with
  | c :: s => if c = 97 ∨ c = 65 then (true, s) else (active, c :: s)
  | [] => (active, [])

end Capi4Linux.Capidrv
