import Capi4Linux.Capidrv.Step
import Capi4Linux.Lib.Projection

/-!
# The controllers of capidrv

`global.contr_list` holds a card for every device of the capicore.
`capidrv_addcontr` puts it in front, `capidrv_delcontr` takes it off. A message
finds its card by the number of the controller, a call of isdn4linux by the
driver id that `register_isdn` gave.
-/

namespace Capi4Linux.Capidrv
open Bytes Capicore Capiutil Machine Projection

def ENODEV : Int := 19

/-- What isdn4linux is told of a driver as a whole: `register_isdn` with the number of its channels, and the statuses. -/
inductive DriverStatus where
  | register (channels : Nat)
  | RUN
  | STOP
  | DISCH (chan : Nat)
  | UNLOAD
  deriving DecidableEq

/-- A `struct capidrv_contr` on `contr_list`; `contrnr` and `nbchan` are in its environment. -/
structure Contr where
  env : Env
  myid : Int
  card : Card

/-- `global`, the references that the driver holds on its module, and what isdn4linux was told. -/
structure Global where
  applId : UInt16
  contrList : List Contr
  ncontr : Int
  moduleRefs : Nat
  status : List (Int × DriverStatus)

/-- capidrv just loaded, with the number of its application. -/
def Global.init (applId : UInt16) : Global := ⟨applId, [], 0, 0, []⟩

/-- What `capidrv_addcontr` is answered: by `try_module_get`, by `kmalloc` for the card and for its channels, by
`register_isdn`, and by the capicore for a controller from AVM; and what will be decided elsewhere for the card. -/
structure AddAnswers where
  tryModuleGet : Bool
  contrMem : Bool
  bchansMem : Bool
  registerIsdn : Option Int
  version : Option (Nat × Nat)
  decided : Env

/-- The environment of the new card. -/
def AddAnswers.env (a : AddAnswers) (applId : UInt16) (contr nbchannel : UInt16) : Env :=
  { a.decided with applId := applId, contrnr := contr.toUInt32, nbchan := nbchannel.toNat }

/-- The card that has sent its first messages. -/
def startCard (env : Env) (version : Option (Nat × Nat)) : Card :=
  enableDchannelTrace env (sendListen env Card.init) version

/-- `capidrv_addcontr`. When there is no memory for the card, the module reference is kept. -/
def capidrvAddcontr (g : Global) (contr nbchannel : UInt16) (a : AddAnswers) : Int × Global :=
  if ¬ a.tryModuleGet then (-1, g)
  else if ¬ a.contrMem then (-1, { g with moduleRefs := g.moduleRefs + 1 })
  else if ¬ a.bchansMem then (-1, g)
  else
    match a.registerIsdn with
    | none => (-1, g)
    | some myid =>
      let env := a.env g.applId contr nbchannel
      (0, { g with
        contrList := ⟨env, myid, startCard env a.version⟩ :: g.contrList
        ncontr := g.ncontr + 1
        moduleRefs := g.moduleRefs + 1
        status := g.status ++ [(myid, .register nbchannel.toNat), (myid, .RUN)] })

/-! ## Removal -/

/-- The NCCI that a channel points to. -/
def freeBchanNcci (s : Card) (chan : Nat) : Option Card :=
  match (s.bchans chan).nccip with
  | some n => freeNcci s n
  | none => some s

/-- The PLCI of a channel. -/
def freeBchanPlci (s : Card) (chan : Nat) : Option Card :=
  match (s.bchans chan).plcip with
  | some p => freePlci s p
  | none => some s

/-- What `capidrv_delcontr` frees for one channel. -/
def delChannel (s : Card) (chan : Nat) : Option Card := do
  let s ← freeBchanNcci s chan
  freeBchanPlci s chan

/-- The loop over the channels, from the last one down; with the channels after which
"bug in free_plci()" is printed. -/
def delChannels : Nat → Card → Option (Card × List Nat)
  | 0, s => some (s, [])
  | chan + 1, s => do
    let s ← delChannel s chan
    let (s', bugs) ← delChannels chan s
    return (s', if s.plciList ≠ [] then chan :: bugs else bugs)

/-- `findcontrbynumber`. -/
def findcontrbynumber (g : Global) (contr : UInt32) : Option Contr := g.contrList.find? fun x => x.env.contrnr = contr

/-- `findcontrbydriverid`. -/
def findcontrbydriverid (g : Global) (driverid : Int) : Option Contr := g.contrList.find? fun x => x.myid = driverid

/-- `capidrv_delcontr`. -/
def capidrvDelcontr (g : Global) (contr : UInt16) : Option (Int × Global) :=
  match findcontrbynumber g contr.toUInt32 with
  | none => some (-1, g)
  | some x => do
    let _ ← delChannels x.env.nbchan x.card
    return (0, { g with
      contrList := g.contrList.eraseP fun y => y.env.contrnr = contr.toUInt32
      ncontr := g.ncontr - 1
      moduleRefs := g.moduleRefs - 1
      status := g.status ++ (x.myid, .STOP) :: (List.range x.env.nbchan).reverse.map (fun chan => (x.myid, .DISCH chan)) ++
        [(x.myid, .UNLOAD)] })

/-! ## Calls -/

/-- Let the first card that meets `p` make a step; `absent` when there is none. -/
def onCard {ρ : Type} (g : Global) (p : Contr → Bool) (absent : ρ) (f : Env → Card → Option (ρ × Card)) :
    Option (ρ × Global) :=
  (onFirst p (fun x => (f x.env x.card).map fun (r, card) => (r, [{ x with card := card }])) absent g.contrList).map
    fun (r, contrList) => (r, { g with contrList := contrList })

/-- One message of `capidrv_recv_message`; a message from an unknown controller is dropped. -/
def recvMessage (g : Global) (msg : Bytes) : Option (Unit × Global) := do
  let cmsg ← capiMessage2cmsg msg
  onCard g (fun x => x.env.contrnr = cmsg.adr &&& 0x7f) () fun env s =>
    (capidrvRecvMessage env s msg).map fun card => ((), card)

/-- `if_command`. -/
def ifCommand (g : Global) (driver : Int) (command : Command) : Option (Int × Global) :=
  onCard g (fun x => x.myid = driver) (- ENODEV) fun env s => (capidrvCommand env s command).map fun (card, r) => (r, card)

/-- `if_sendbuf` for a driver id. -/
def ifSendbufTo (g : Global) (id : Int) (chan : Nat) (doack : Bool) (skb : Buf) : Option ((Int × Buf) × Global) :=
  onCard g (fun x => x.myid = id) (0, skb) fun env s => (ifSendbuf env s chan doack skb).map fun (card, r) => (r, card)

/-- `if_readstat` for a driver id; without one the result is `-ENODEV`. -/
def ifReadstatOf (g : Global) (id : Int) (len : Nat) : Option (Option Bytes × Global) :=
  onCard g (fun x => x.myid = id) none fun _ s =>
    let (bytes, card) := ifReadstat len s
    some (some bytes, card)

/-- `listentimerfunc` of the card of a controller. -/
def listentimerfunc (g : Global) (contr : UInt32) : Option (Unit × Global) :=
  onCard g (fun x => x.env.contrnr = contr) () fun env s => some ((), sendListen env s)

/-! ## Runs -/

/-- A device that comes or goes, a message, a call of isdn4linux, or a timer. -/
inductive DriverOp where
  | add (contr nbchannel : UInt16) (answers : AddAnswers)
  | remove (contr : UInt16)
  | recv (msg : Bytes)
  | command (driver : Int) (command : Command)
  | sendbuf (driver : Int) (chan : Nat) (doack : Bool) (skb : Buf)
  | readstat (driver : Int) (len : Nat)
  | listen (contr : UInt32)

namespace Global

def step (g : Global) : DriverOp → Option Global
  | .add contr nbchannel a => some (capidrvAddcontr g contr nbchannel a).2
  | .remove contr => (capidrvDelcontr g contr).map (·.2)
  | .recv msg => (recvMessage g msg).map (·.2)
  | .command driver command => (ifCommand g driver command).map (·.2)
  | .sendbuf driver chan doack skb => (ifSendbufTo g driver chan doack skb).map (·.2)
  | .readstat driver len => (ifReadstatOf g driver len).map (·.2)
  | .listen contr => (listentimerfunc g contr).map (·.2)

/-- The class interface adds a device once, and isdn4linux gives every driver an id of its own. -/
def Allowed (g : Global) : DriverOp → Prop
  | .add contr _ a =>
    (∀ x ∈ g.contrList, x.env.contrnr ≠ contr.toUInt32) ∧
      ∀ myid, a.registerIsdn = some myid → ∀ x ∈ g.contrList, x.myid ≠ myid
  | _ => True

end Global

/-! ## Fixed runs -/

/-- A card with memory that isdn4linux gives the id `myid`. -/
def AddAnswers.given (myid : Int) : AddAnswers := ⟨true, true, true, some myid, none, Env.granting⟩

/-- Two controllers come, the second one listens, the first one goes. -/
def comeAndGo : List DriverOp := [.add 1 2 (.given 7), .add 2 30 (.given 8), .listen 2, .remove 1]

end Capi4Linux.Capidrv
