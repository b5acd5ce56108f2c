import Capi4Linux.Capi.State

/-!
# Minors, NCCIs and files

Allocation and release of the records of `capi.c`, and the two data queues of a
minor.
-/

namespace Capi4Linux.Capi
open Bytes Capicore

/-! ## Datahandles -/

def capincciAddAck (mp : Capiminor) (datahandle : UInt16) : Capiminor :=
  { mp with ackqueue := mp.ackqueue ++ [datahandle], nack := mp.nack + 1 }

def capiminorDelAck (mp : Capiminor) (datahandle : UInt16) : Capiminor :=
  if datahandle ∈ mp.ackqueue then { mp with ackqueue := mp.ackqueue.erase datahandle, nack := mp.nack - 1 }
  else mp

/-! ## `struct capiminor` -/

/-- How many of the listed minor numbers the search for a free one passes. -/
def capiminorScan : Nat → List Nat → Nat
  | _, [] => 0
  | minor, m :: ms => if m > minor then 0 else capiminorScan (minor + 1) ms + 1

/-- The minor numbers in the order of `capiminor_list`. -/
def Driver.minorNumbers (s : Driver) : Option (List Nat) :=
  s.capiminorList.mapM fun q => (s.minors q).map Capiminor.minor

def capiminorAlloc (env : Env) (s : Driver) (ap : Nat) (ncci : UInt32) : Option (Driver × Option Nat) := do
  let t := s.tick
  let s := s.asked
  if ¬ env.kmalloc t then return (s, none)
  let p := s.minorNext
  let mp : Capiminor :=
    { nccip := false, minor := 0, ap, ncci, datahandle := 0, msgid := 0, tty := none, ttyinstop := false,
      ttyoutstop := false, ttyskb := none, ttyopencount := 0, inqueue := [], inbytes := 0, outqueue := [],
      outbytes := 0, ackqueue := [], nack := 0 }
  let s := { s with minorNext := s.minorNext + 1 }
  let numbers ← s.minorNumbers
  let minor := capiminorScan 0 numbers
  if minor < env.capiTtyminors then
    let s := { s with capiminorList := s.capiminorList.take minor ++ p :: s.capiminorList.drop minor }
    some (s.setMinor p { mp with minor }, some p)
  else some (s, none)

/-- `list_del` of a record that is not listed has no outcome. -/
def capiminorFree (s : Driver) (p : Nat) : Option Driver := do
  let mp ← s.minors p
  if p ∈ s.capiminorList then
    some { s with
      capiminorList := s.capiminorList.erase p
      minors := Function.update s.minors p none
      freed := s.freed ++ [(p, mp.ttyopencount)] }
  else none

def capiminorFind (s : Driver) (minor : Nat) : Option (Option Nat) := do
  let numbers ← s.minorNumbers
  some (((s.capiminorList.zip numbers).find? fun e => e.2 == minor).map Prod.fst)

/-! ## `struct capincci` -/

/-- The link of a new NCCI to its minor. -/
def capincciMinor (env : Env) (s : Driver) (d : Nat) (userflags : UInt32) (ncci : UInt32) :
    Option (Driver × Option Nat) := do
  if userflags &&& CAPIFLAG_HIGHJACKING = 0 then return (s, none)
  let (s, minorp) ← capiminorAlloc env s d ncci
  match minorp with
  | none => some (s, none)
  | some p =>
    let mp ← s.minors p
    some (s.setMinor p { mp with nccip := true }, some p)

def capincciAlloc (env : Env) (s : Driver) (d : Nat) (ncci : UInt32) : Option Driver := do
  let cdev ← s.devs d
  let t := s.tick
  let s := s.asked
  if ¬ env.kmalloc t then return s
  let (s, minorp) ← capincciMinor env s d cdev.userflags ncci
  some (s.setDev d { cdev with nccis := cdev.nccis ++ [{ ncci, minorp }] })

/-- The minor of an NCCI that goes away. -/
def capincciUnlink (s : Driver) : Option Nat → Option Driver
  | none => some s
  | some p => do
    let mp ← s.minors p
    if mp.tty.isSome then some (s.setMinor p { mp with nccip := false }) else capiminorFree s p

/-- The NCCIs `capincci_free` takes. -/
def Capincci.taken (ncci : UInt32) (np : Capincci) : Bool :=
  ncci == 0xffffffff || np.ncci == ncci

def capincciFreeLoop (ncci : UInt32) : List Capincci → Driver → Option Driver
  | [], s => some s
  | np :: nccis, s => do
    if np.taken ncci then capincciFreeLoop ncci nccis (← capincciUnlink s np.minorp)
    else capincciFreeLoop ncci nccis s

def capincciFree (s : Driver) (d : Nat) (ncci : UInt32) : Option Driver := do
  let cdev ← s.devs d
  let s ← capincciFreeLoop ncci cdev.nccis s
  some (s.setDev d { cdev with nccis := cdev.nccis.filter fun np => ! np.taken ncci })

def capincciFind (cdev : Capidev) (ncci : UInt32) : Option Capincci :=
  cdev.nccis.find? fun np => np.ncci == ncci

/-! ## `struct capidev` -/

def capidevAlloc (env : Env) (s : Driver) : Driver × Option Nat :=
  let t := s.tick
  let s := s.asked
  if ¬ env.kmalloc t then (s, none)
  else
    let d := s.devNext
    let cdev : Capidev :=
      { ap := { id := 0, info := .NOERR, msgQueue := [] }, errcode := .NOERR, userflags := 0, recvqueue := [],
        nccis := [] }
    ({ s.setDev d cdev with devNext := s.devNext + 1, capidevList := s.capidevList ++ [d] }, some d)

def capidevFree (s : Driver) (d : Nat) : Option Driver := do
  let cdev ← s.devs d
  let ap := if cdev.ap.id ≠ 0 then { cdev.ap with id := 0, msgQueue := [] } else cdev.ap
  let s := s.setDev d { cdev with ap, recvqueue := [] }
  let s ← capincciFree s d 0xffffffff
  some { s with devs := Function.update s.devs d none, capidevList := s.capidevList.erase d }

/-! ## Data queues -/

/-- A DATA_B3 message is built for a minor or put through it. -/
def Driver.talk (s : Driver) (p : Nat) (mp : Capiminor) : Driver :=
  { s with talks := s.talks ++ [(p, mp.nccip)] }

/-- The capicore keeps the messages it accepts. -/
def putCapiMessage (s : Driver) (d : Nat) (data : Bytes) (info : Capinfo0x11) : Driver :=
  if info = .NOERR then { s with accepted := s.accepted ++ [(d, data)] } else s

/-- The bytes of a DATA_B3_RESP. -/
def dataB3Resp (ap : CapiAppl) (mp : Capiminor) (datahandle : UInt16) : Bytes :=
  le 2 CAPI_DATA_B3_RESP_LEN ++ le 2 ap.id.toNat ++ [CAPI_DATA_B3, CAPI_RESP] ++ le 2 mp.msgid.toNat ++
    le 4 mp.ncci.toNat ++ le 2 datahandle.toNat

/-- Without memory nothing is built. -/
def genDataB3RespFor (env : Env) (s : Driver) (p : Nat) (skb : Skb) : Option (Driver × Option Bytes) := do
  let mp ← s.minors p
  if ¬ env.kmalloc s.tick then return (s, none)
  let cdev ← s.devs mp.ap
  let resp := dataB3Resp cdev.ap mp (skb.u16 (CAPI_MSG_BASELEN + 4 + 4 + 2))
  some ((s.talk p mp).setMinor p { mp with msgid := mp.msgid + 1 }, some resp)

/-- Give the data of an indication to the line discipline; `false` is -1. -/
def handleRecvSkb (env : Env) (s : Driver) (p : Nat) (skb : Skb) : Option (Driver × Bool) := do
  let mp ← s.minors p
  let t := s.tick
  let datalen : Int := (skb.len : Int) - skb.msgLen
  match mp.tty with
  | none => some (s.asked, false)
  | some tty =>
    if ¬ env.receiveBuf t then return (s.asked, false)
    if mp.ttyinstop then return (s.asked, false)
    if (env.receiveRoom t).any (· < datalen) then return (s.asked, false)
    match ← genDataB3RespFor env s p skb with
    | (s, none) => some (s.asked, false)
    | (s, some nskb) =>
      let errcode := env.put t
      let s := putCapiMessage (s.talk p mp) mp.ap nskb errcode
      if errcode ≠ .NOERR then return (s.asked, false)
      let skb := skb.pull skb.msgLen
      some ({ s.asked with received := s.received ++ [(tty, skb.data)] }, true)

def handleMinorRecvLoop (env : Env) : Nat → Driver → Nat → Option Driver
  | 0, _, _ => none
  | fuel + 1, s, p => do
    let mp ← s.minors p
    match mp.inqueue with
    | [] => some s
    | skb :: inqueue =>
      let s := s.setMinor p { mp with inqueue, inbytes := mp.inbytes - .ofNat skb.len }
      let (s, ok) ← handleRecvSkb env s p skb
      if ok then handleMinorRecvLoop env fuel s p
      else
        let mp ← s.minors p
        some (s.setMinor p { mp with inqueue := skb :: mp.inqueue, inbytes := mp.inbytes + .ofNat skb.len })

def handleMinorRecv (env : Env) (s : Driver) (p : Nat) : Option Driver := do
  let mp ← s.minors p
  handleMinorRecvLoop env (mp.inqueue.length + 1) s p

/-- The header of a DATA_B3_REQ. -/
def dataB3Req (ap : CapiAppl) (mp : Capiminor) (address : UInt32) (len : UInt16) : Bytes :=
  le 2 CAPI_DATA_B3_REQ_LEN ++ le 2 ap.id.toNat ++ [CAPI_DATA_B3, CAPI_REQ] ++ le 2 mp.msgid.toNat ++
    le 4 mp.ncci.toNat ++ le 4 address.toNat ++ le 2 len.toNat ++ le 2 mp.datahandle.toNat ++ le 2 0

/-- The result counts the messages sent. -/
def handleMinorSendLoop (env : Env) : Nat → Driver → Nat → Nat → Option (Driver × Nat)
  | 0, _, _, _ => none
  | fuel + 1, s, p, count => do
    let mp ← s.minors p
    match mp.outqueue with
    | [] => some (s, count)
    | skb :: outqueue =>
      let t := s.tick
      let datahandle := mp.datahandle
      let len := UInt16.ofNat skb.len
      let cdev ← s.devs mp.ap
      let msg := skb.push (dataB3Req cdev.ap mp (env.address t) len)
      let s := (s.talk p mp).asked
      let mp := { mp with msgid := mp.msgid + 1, outqueue }
      if ¬ env.kmalloc t then
        return (s.setMinor p { mp with outqueue := msg.pull CAPI_DATA_B3_REQ_LEN :: outqueue }, count)
      let mp := capincciAddAck mp datahandle
      let errcode := env.put t
      let s := putCapiMessage (s.talk p mp) mp.ap msg.data errcode
      if errcode = .NOERR then
        handleMinorSendLoop env fuel
          (s.setMinor p { mp with datahandle := mp.datahandle + 1, outbytes := mp.outbytes - .ofNat len.toNat }) p (count + 1)
      else
        let mp := capiminorDelAck mp datahandle
        if errcode = .QUEUEFULL then
          some (s.setMinor p { mp with outqueue := msg.pull CAPI_DATA_B3_REQ_LEN :: outqueue }, count)
        else
          -- the packet is dropped
          handleMinorSendLoop env fuel (s.setMinor p { mp with outbytes := mp.outbytes - .ofNat len.toNat }) p count

def handleMinorSend (env : Env) (s : Driver) (p : Nat) : Option (Driver × Nat) := do
  let mp ← s.minors p
  if mp.tty.isSome ∧ mp.ttyoutstop then return (s, 0)
  handleMinorSendLoop env (mp.outqueue.length + 1) s p 0

end Capi4Linux.Capi
