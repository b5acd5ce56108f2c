import Capi4Linux.Capidrv.Effects

/-!
# Outcomes of commands and messages

What every command and every message does to a card whose records are wired,
as moves of its records and messages sent.
-/

namespace Capi4Linux.Capidrv
open Bytes Capicore Capiutil

/-! ## Lookups -/

/-- A connection of a listed call. -/
structure Conn (s : Card) (n : Nat) (ncci : Ncci) (plci : Plci) : Prop where
  live : s.nccis n = some ncci
  call : s.plcis ncci.plcip = some plci
  listed : ncci.plcip ∈ s.plciList
  chan : ncci.chan = plci.chan
  member : n ∈ plci.ncciList

section Lookups

variable {s : Card} {p n : Nat} {plci : Plci} {ncci : Ncci}

/-- A call that is there is on `plci_list`. -/
theorem Wired.listedPlci {nbchan : Nat} (wired : Wired nbchan s.links) (live : s.plcis p = some plci) : p ∈ s.plciList :=
  wired.isListed (links_plcis live)

/-- What the search finds is on the list and passes the test. -/
theorem findPlci_some {test : Plci → Bool} (found : findPlci s test = some (p, plci)) :
    s.plcis p = some plci ∧ p ∈ s.plciList ∧ test plci = true := by
  obtain ⟨q, listed, passes⟩ := List.exists_of_findSome?_eq_some found
  obtain ⟨plci', live, passes⟩ := Option.bind_eq_some_iff.mp passes
  split at passes
  · rename_i ok
    cases passes
    exact ⟨live, listed, ok⟩
  · cases passes

/-- What the search finds is a connection of the call and passes the test. -/
theorem findNcciOf_some {test : Ncci → Bool} (found : findNcciOf s plci test = some (n, ncci)) :
    s.nccis n = some ncci ∧ n ∈ plci.ncciList ∧ test ncci = true := by
  obtain ⟨m, member, passes⟩ := List.exists_of_findSome?_eq_some found
  obtain ⟨ncci', live, passes⟩ := Option.bind_eq_some_iff.mp passes
  split at passes
  · rename_i ok
    cases passes
    exact ⟨live, member, ok⟩
  · cases passes

/-- A connection on the list of a call. -/
theorem Wired.conn {nbchan : Nat} (wired : Wired nbchan s.links) (call : s.plcis p = some plci)
    (member : n ∈ plci.ncciList) (live : s.nccis n = some ncci) : ncci.plcip = p ∧ Conn s n ncci plci := by
  have link := (wired.ncciListed p plci.chan plci.ncciList (links_plcis call) n).mp member
  rw [links_nccis live] at link
  simp only [Option.some.injEq, Prod.mk.injEq] at link
  obtain ⟨plcip, chan⟩ := link
  exact ⟨plcip, live, plcip ▸ call, plcip ▸ wired.listedPlci call, chan, member⟩

/-- `find_ncci` finds a connection through its call. -/
theorem Wired.findNcci {nbchan : Nat} (wired : Wired nbchan s.links) {x : UInt32}
    (found : findNcci s x = some (n, ncci)) : ∃ plci, Conn s n ncci plci ∧ ncci.ncci = x ∧
      findPlciByNcci s x = some (ncci.plcip, plci) := by
  obtain ⟨⟨p, plci⟩, call, conn⟩ := Option.bind_eq_some_iff.mp found
  obtain ⟨live, member, same⟩ := findNcciOf_some conn
  obtain ⟨plcip, conn⟩ := wired.conn (findPlci_some call).1 member live
  exact ⟨plci, conn, of_decide_eq_true same, plcip ▸ call⟩

theorem Wired.findNcciByMsgid {nbchan : Nat} (wired : Wired nbchan s.links) {x : UInt32} {msgid : UInt16}
    (found : findNcciByMsgid s x msgid = some (n, ncci)) : ∃ plci, Conn s n ncci plci ∧ ncci.msgid = msgid ∧
      findPlciByNcci s x = some (ncci.plcip, plci) := by
  obtain ⟨⟨p, plci⟩, call, conn⟩ := Option.bind_eq_some_iff.mp found
  obtain ⟨live, member, same⟩ := findNcciOf_some conn
  obtain ⟨plcip, conn⟩ := wired.conn (findPlci_some call).1 member live
  exact ⟨plci, conn, of_decide_eq_true same, plcip ▸ call⟩

end Lookups

/-! ## Records of other channels -/

section Elsewhere

variable {nbchan : Nat} {s : Card} {c p q n m : Nat} {plci : Plci} {ncci : Ncci}

theorem Wired.owner_ne (wired : Wired nbchan s.links) (live : s.plcis p = some plci) (other : c ≠ plci.chan)
    (owner : (s.bchans c).plcip = some q) : q ≠ p := by
  rintro rfl
  obtain ⟨ns, link⟩ := wired.owner c q owner
  cases link.symm.trans (links_plcis live)
  exact other rfl

theorem Wired.pointer_ne (wired : Wired nbchan s.links) (live : s.nccis n = some ncci) (other : c ≠ ncci.chan)
    (pointer : (s.bchans c).nccip = some m) : m ≠ n := by
  rintro rfl
  obtain ⟨p, link⟩ := wired.nccip c m pointer
  cases link.symm.trans (links_nccis live)
  exact other rfl

/-- A record that is new is the record of no channel yet. -/
theorem Wired.owner_old (wired : Wired nbchan s.links) (owner : (s.bchans c).plcip = some q) : q ≠ s.plciNext := by
  obtain ⟨ns, link⟩ := wired.owner c q owner
  exact Nat.ne_of_lt (wired.lt link)

/-- A channel points to no connection that is still to come. -/
theorem Wired.pointer_old (wired : Wired nbchan s.links) (pointer : (s.bchans c).nccip = some m) : m ≠ s.ncciNext := by
  obtain ⟨p, link⟩ := wired.nccip c m pointer
  exact Nat.ne_of_lt (wired.ncci_lt link)

end Elsewhere

/-! ## New records -/

/-- A new PLCI with the given data. -/
def Card.addPlci (s : Card) (plci : Plci) : Card :=
  { s.asked with
    plcis := Function.update s.plcis s.plciNext (some plci)
    plciNext := s.plciNext + 1
    plciList := s.plciNext :: s.plciList
    bchans := Function.update s.bchans plci.chan { s.bchans plci.chan with plcip := some s.plciNext } }

/-- A new NCCI with the given data. -/
def Card.addNcci (s : Card) (plci : Plci) (ncci : Ncci) : Card :=
  { s.asked with
    nccis := Function.update s.nccis s.ncciNext (some ncci)
    ncciNext := s.ncciNext + 1
    plcis := Function.update s.plcis ncci.plcip (some { plci with ncciList := s.ncciNext :: plci.ncciList })
    bchans := Function.update s.bchans plci.chan { s.bchans plci.chan with nccip := some s.ncciNext } }

/-- The record of `new_plci`. -/
def freshPlci (chan : Nat) : Plci :=
  { plci := 0, msgid := 0, chan, state := .NONE, leasedline := false, ncciList := [] }

/-- The record of `new_ncci`. -/
def freshNcci (p chan : Nat) (ncci : UInt32) : Ncci :=
  { plcip := p, ncci, msgid := 0, chan, state := .NONE, oldstate := .NONE, datahandle := 0, ackqueue := [] }

/-- Without memory `new_plci` only asks for it. -/
theorem newPlci_eq (env : Env) (s : Card) (chan : Nat) : newPlci env s chan =
    if env.kmalloc s.tick then (s.addPlci (freshPlci chan), some s.plciNext) else (s.asked, none) := by
  unfold newPlci
  cases mem : env.kmalloc s.tick with
  | true =>
    simp only [mem, not_true, if_false, if_true]
    rfl
  | false =>
    simp only [mem, Bool.false_eq_true, not_false_eq_true, if_true, if_false]

/-- Without memory `new_ncci` only asks for it. -/
theorem newNcci_eq (env : Env) {s : Card} {p : Nat} {plci : Plci} (call : s.plcis p = some plci) (x : UInt32) :
    newNcci env s p x = some
      (if env.kmalloc s.tick then (s.addNcci plci (freshNcci p plci.chan x), some s.ncciNext) else (s.asked, none)) := by
  have call' : s.asked.plcis p = some plci := call
  unfold newNcci
  cases mem : env.kmalloc s.tick with
  | true =>
    simp only [mem, call', not_true, if_false, if_true, Option.bind_eq_bind, Option.bind_some]
    rfl
  | false =>
    simp only [mem, Bool.false_eq_true, not_false_eq_true, if_true, if_false]
    rfl

theorem links_addPlci (s : Card) (plci : Plci) (empty : plci.ncciList = []) :
    (s.addPlci plci).links = s.links.addPlci plci.chan := by
  have plcips : ∀ c, ((s.addPlci plci).bchans c).plcip =
      Function.update (fun c => (s.bchans c).plcip) plci.chan (some s.plciNext) c := by
    intro c
    rcases eq_or_ne c plci.chan with rfl | other
    · simp only [Card.addPlci, Function.update_self]
    · simp only [Card.addPlci, Function.update_of_ne other]
  have nccips : ∀ c, ((s.addPlci plci).bchans c).nccip = (s.bchans c).nccip := by
    intro c
    rcases eq_or_ne c plci.chan with rfl | other
    · simp only [Card.addPlci, Function.update_self]
    · simp only [Card.addPlci, Function.update_of_ne other]
  have calls : ∀ q, ((s.addPlci plci).plcis q).map (fun plci => (plci.chan, plci.ncciList)) =
      Function.update (fun q => (s.plcis q).map fun plci => (plci.chan, plci.ncciList)) s.plciNext
        (some (plci.chan, [])) q := by
    intro q
    rcases eq_or_ne q s.plciNext with rfl | other
    · simp only [Card.addPlci, Function.update_self, Option.map_some, empty]
    · simp only [Card.addPlci, Function.update_of_ne other]
  unfold Card.links Links.addPlci
  rw [funext plcips, funext nccips, funext calls]
  rfl

theorem links_addNcci (s : Card) (plci : Plci) (ncci : Ncci) (chan : ncci.chan = plci.chan) :
    (s.addNcci plci ncci).links = s.links.addNcci ncci.plcip plci.chan plci.ncciList := by
  have plcips : ∀ c, ((s.addNcci plci ncci).bchans c).plcip = (s.bchans c).plcip := by
    intro c
    rcases eq_or_ne c plci.chan with rfl | other
    · simp only [Card.addNcci, Function.update_self]
    · simp only [Card.addNcci, Function.update_of_ne other]
  have nccips : ∀ c, ((s.addNcci plci ncci).bchans c).nccip =
      Function.update (fun c => (s.bchans c).nccip) plci.chan (some s.ncciNext) c := by
    intro c
    rcases eq_or_ne c plci.chan with rfl | other
    · simp only [Card.addNcci, Function.update_self]
    · simp only [Card.addNcci, Function.update_of_ne other]
  have calls : ∀ q, ((s.addNcci plci ncci).plcis q).map (fun plci => (plci.chan, plci.ncciList)) =
      Function.update (fun q => (s.plcis q).map fun plci => (plci.chan, plci.ncciList)) ncci.plcip
        (some (plci.chan, s.ncciNext :: plci.ncciList)) q := by
    intro q
    rcases eq_or_ne q ncci.plcip with rfl | other
    · simp only [Card.addNcci, Function.update_self, Option.map_some]
    · simp only [Card.addNcci, Function.update_of_ne other]
  have conns : ∀ m, ((s.addNcci plci ncci).nccis m).map (fun ncci => (ncci.plcip, ncci.chan)) =
      Function.update (fun m => (s.nccis m).map fun ncci => (ncci.plcip, ncci.chan)) s.ncciNext
        (some (ncci.plcip, plci.chan)) m := by
    intro m
    rcases eq_or_ne m s.ncciNext with rfl | other
    · simp only [Card.addNcci, Function.update_self, Option.map_some, chan]
    · simp only [Card.addNcci, Function.update_of_ne other]
  unfold Card.links Links.addNcci
  rw [funext plcips, funext nccips, funext calls, funext conns]
  rfl

/-- A new record may be filled in before it is linked. -/
theorem Card.addPlci_setPlci (s : Card) {plci plci' : Plci} (same : plci'.chan = plci.chan) :
    (s.addPlci plci).setPlci s.plciNext plci' = s.addPlci plci' := by
  simp only [Card.setPlci, Card.addPlci, Function.update_idem, same]

/-- So may a new record of a connection. -/
theorem Card.addNcci_setNcci (s : Card) (plci : Plci) {ncci ncci' : Ncci} (same : ncci'.plcip = ncci.plcip) :
    (s.addNcci plci ncci).setNcci s.ncciNext ncci' = s.addNcci plci ncci' := by
  simp only [Card.setNcci, Card.addNcci, Function.update_idem, same]

theorem Card.addNcci_setPlci (s : Card) {plci plci' : Plci} (ncci : Ncci) (same : plci'.chan = plci.chan) :
    (s.addNcci plci ncci).setPlci ncci.plcip { plci' with ncciList := s.ncciNext :: plci'.ncciList } =
      s.addNcci plci' ncci := by
  simp only [Card.setPlci, Card.addNcci, Function.update_idem, same]

/-! ## Commands -/

/-- Set the flag that a channel is being hung up. -/
def Card.flag (s : Card) (chan : Nat) : Card := s.setBchan chan { s.bchans chan with disconnecting := true }

@[simp] theorem links_flag (s : Card) (chan : Nat) : (s.flag chan).links = s.links := links_setBchan rfl rfl

theorem flag_bchan (s : Card) (chan : Nat) :
    (s.flag chan).bchans chan = { s.bchans chan with disconnecting := true } := Function.update_self _ _ _

/-- A channel set up for a dial. -/
def Card.dialed (s : Card) (chan : Nat) (phone eazmsn : Msn) (si1 si2 : UInt8) : Card :=
  s.setBchan chan { s.bchans chan with si1, si2, num := phone, mynum := eazmsn }

/-- A channel argument counts modulo the channels of the card. -/
theorem channel_some {env : Env} {arg chan : Nat} (at_channel : channel env arg = some chan) :
    chan = arg % env.nbchan ∧ chan < env.nbchan := by
  unfold channel at at_channel
  split at at_channel
  · cases at_channel
  · rename_i some
    cases at_channel
    exact ⟨rfl, Nat.mod_lt _ (Nat.pos_of_ne_zero some)⟩

/-- A card with channels has one for every argument. -/
theorem channel_eq {env : Env} (channels : 0 < env.nbchan) (arg : Nat) : channel env arg = some (arg % env.nbchan) :=
  if_neg (Nat.ne_of_gt channels)

section Commands

variable (env : Env) {s : Card} {arg chan p n : Nat} {plci : Plci} {ncci : Ncci} {line : Int ⊕ Bytes}

/-- A dial on a channel with a call is ignored. -/
theorem commandDial_busy (at_channel : channel env arg = some chan) (busy : (s.bchans chan).plcip.isSome)
    (phone eazmsn : Msn) (si1 si2 : UInt8) : commandDial env s arg phone eazmsn si1 si2 = some (s, 0) := by
  unfold commandDial
  simp only [at_channel, Option.bind_eq_bind, Option.bind_some, busy, if_true]
  rfl

/-- The parser of a dialled number that does not end. -/
theorem commandDial_endless (at_channel : channel env arg = some chan) (free : (s.bchans chan).plcip = none)
    {phone : Msn} (endless : dialLine env phone = none) (eazmsn : Msn) (si1 si2 : UInt8) :
    commandDial env s arg phone eazmsn si1 si2 = none := by
  have idle : ¬ (s.bchans chan).plcip.isSome = true := by
    rw [free]
    nofun
  unfold commandDial
  simp only [at_channel, Option.bind_eq_bind, Option.bind_some, if_neg idle, endless, Option.bind_none]

/-- A dial on a channel without a call has read its number. -/
theorem dialLine_of_run {phone eazmsn : Msn} {si1 si2 : UInt8} {r : Card × Int}
    (run : commandDial env s arg phone eazmsn si1 si2 = some r) (at_channel : channel env arg = some chan)
    (free : (s.bchans chan).plcip = none) : ∃ line, dialLine env phone = some line := by
  cases parsed : dialLine env phone with
  | none => cases run.symm.trans (commandDial_endless env at_channel free parsed eazmsn si1 si2)
  | some line => exact ⟨line, rfl⟩

/-- Without memory for the call isdn4linux is told DHUP at once. -/
theorem commandDial_nomem (at_channel : channel env arg = some chan) (free : (s.bchans chan).plcip = none)
    (nomem : env.kmalloc s.tick = false) {phone : Msn} (parsed : dialLine env phone = some line) (eazmsn : Msn)
    (si1 si2 : UInt8) :
    commandDial env s arg phone eazmsn si1 si2 =
      some ((s.dialed chan phone eazmsn si1 si2).nextMsgid.asked.statcallb (.DHUP chan), -1) := by
  have fresh := newPlci_eq env (s.dialed chan phone eazmsn si1 si2).nextMsgid chan
  have tick : (s.dialed chan phone eazmsn si1 si2).nextMsgid.tick = s.tick := rfl
  rw [tick, nomem] at fresh
  have idle : ¬ (s.bchans chan).plcip.isSome = true := by
    rw [free]
    nofun
  unfold Card.dialed at fresh
  unfold commandDial
  simp only [at_channel, Option.bind_eq_bind, Option.bind_some, if_neg idle, parsed]
  rw [fresh]
  rfl

/-- The record and the message of a dial. -/
theorem commandDial_eq (at_channel : channel env arg = some chan) (free : (s.bchans chan).plcip = none)
    (mem : env.kmalloc s.tick = true) {phone : Msn} (parsed : dialLine env phone = some line) (eazmsn : Msn)
    (si1 si2 : UInt8) : commandDial env s arg phone eazmsn si1 si2 = some
      ({ sendMessage env ((s.dialed chan phone eazmsn si1 si2).nextMsgid.addPlci
            { freshPlci chan with msgid := s.msgid, leasedline := line.isRight, state := .OUTGOING })
          (dialConnectReq env s.msgid ((s.dialed chan phone eazmsn si1 si2).bchans chan) line) with
        outstanding := s.outstanding ++ [(s.msgid, .plci s.plciNext)] }, 0) := by
  let s₁ := (s.dialed chan phone eazmsn si1 si2).nextMsgid
  have fresh := newPlci_eq env (s.dialed chan phone eazmsn si1 si2).nextMsgid chan
  have tick : (s.dialed chan phone eazmsn si1 si2).nextMsgid.tick = s.tick := rfl
  rw [tick, mem] at fresh
  unfold Card.dialed at fresh
  let plci : Plci := { freshPlci chan with msgid := s.msgid, leasedline := line.isRight }
  have bchan : (s.dialed chan phone eazmsn si1 si2).bchans chan =
      { s.bchans chan with si1, si2, num := phone, mynum := eazmsn } := Function.update_self _ _ _
  have idle : ¬ (s.bchans chan).plcip.isSome = true := by
    rw [free]
    nofun
  unfold commandDial
  simp only [at_channel, Option.bind_eq_bind, Option.bind_some, if_neg idle, parsed]
  rw [fresh]
  have now : (s₁.addPlci (freshPlci chan)).plcis s₁.plciNext = some (freshPlci chan) := Function.update_self _ _ _
  show ((s₁.addPlci (freshPlci chan)).plcis s₁.plciNext).bind _ = _
  rw [now, Option.bind_some]
  have now' : ((s₁.addPlci (freshPlci chan)).setPlci s₁.plciNext plci).plcis s₁.plciNext = some plci :=
    Function.update_self _ _ _
  have moved := plciChangeState_eq now' (s := (s₁.addPlci (freshPlci chan)).setPlci s₁.plciNext plci)
    List.mem_cons_self .CONNECT_REQ
  have stays : plci.leaves .CONNECT_REQ = false := rfl
  rw [Card.movePlci_of_stays stays] at moved
  show (plciChangeState ((s₁.addPlci (freshPlci chan)).setPlci s₁.plciNext plci) s₁.plciNext .CONNECT_REQ).bind _ = _
  rw [moved, Option.bind_some, bchan]
  simp only [Card.setPlci, Card.addPlci, Function.update_idem]
  rfl

/-- ACCEPTD sends the CONNECT_RESP of the call. -/
theorem commandAcceptd_eq (at_channel : channel env arg = some chan) (call : (s.bchans chan).plcip = some p)
    (live : s.plcis p = some plci) (listed : p ∈ s.plciList) :
    ∃ cmsg, (cmd cmsg = (CAPI_CONNECT, CAPI_RESP) ∧ cmsg.adr = plci.plci ∧ cmsg.messagenumber = s.msgid) ∧
      commandAcceptd env s arg =
        some (sendMessage env (s.nextMsgid.setPlci p (plci.after .CONNECT_RESP)) cmsg, 0) := by
  have moved := plciChangeState_eq (s := s.nextMsgid) live listed .CONNECT_RESP
  have stays : plci.leaves .CONNECT_RESP = false := by
    rw [Plci.leaves]
    generalize plci.state = state
    cases state <;> rfl
  rw [Card.movePlci_of_stays stays] at moved
  let l2 := env.protoL2 (s.bchans chan).l2
  refine ⟨capiFillConnectResp env.applId s.msgid plci.plci 0 (b1prot l2) (b2prot l2) (b3prot l2) (b1config l2),
    ⟨rfl, rfl, rfl⟩, ?_⟩
  unfold commandAcceptd
  simp only [at_channel, call, live, moved, Option.bind_eq_bind, Option.bind_some]
  rfl

/-- A channel that is flagged is not hung up twice. -/
theorem commandHangup_flagged (at_channel : channel env arg = some chan) (flagged : (s.bchans chan).disconnecting = true) :
    commandHangup env s arg = some (s, 0) := by
  unfold commandHangup
  simp only [at_channel, flagged, Option.bind_eq_bind, Option.bind_some, if_true]
  rfl

theorem Ncci.stays_disconnectB3Req (ncci : Ncci) : ncci.leaves .DISCONNECT_B3_REQ = false := by
  rw [Ncci.leaves]
  generalize ncci.state = state
  cases state <;> rfl

theorem commandHangup_ncci (at_channel : channel env arg = some chan)
    (unflagged : (s.bchans chan).disconnecting = false) (conn : (s.bchans chan).nccip = some n)
    (live : s.nccis n = some ncci) : commandHangup env s arg = some
      ({ sendMessage env ((s.flag chan).nextMsgid.setNcci n (ncci.after .DISCONNECT_B3_REQ))
          (capiFillDisconnectB3Req env.applId s.msgid ncci.ncci) with
        named := s.named ++ [(chan, ncci.ncci)] }, 0) := by
  have going : ¬ (s.bchans chan).disconnecting = true := by
    rw [unflagged]
    nofun
  have moved := ncciChangeState_of_stays env (s := (s.flag chan).nextMsgid) (n := n) live .DISCONNECT_B3_REQ
    ncci.stays_disconnectB3Req
  have live' : (s.flag chan).nccis n = some ncci := live
  unfold commandHangup
  simp only [at_channel, Option.bind_eq_bind, Option.bind_some, if_neg going]
  split
  · rename_i m found
    obtain rfl : m = n := Option.some.inj (found.symm.trans conn)
    show ((s.flag chan).nccis m).bind _ = _
    rw [live', Option.bind_some]
    show (ncciChangeState env (s.flag chan).nextMsgid m .DISCONNECT_B3_REQ).bind _ = _
    rw [moved]
    rfl
  · rename_i noconn _
    cases conn.symm.trans noconn
  · rename_i noconn _
    cases conn.symm.trans noconn

/-- Without a connection the call is released, unless it still rings or has no number. -/
theorem commandHangup_plci (at_channel : channel env arg = some chan)
    (unflagged : (s.bchans chan).disconnecting = false) (noconn : (s.bchans chan).nccip = none)
    (call : (s.bchans chan).plcip = some p) (live : s.plcis p = some plci) (listed : p ∈ s.plciList) :
    commandHangup env s arg = some
      (if plci.state = .INCOMING then (s.flag chan, 0)
      else if plci.plci ≠ 0 then
        (sendMessage env ((s.flag chan).nextMsgid.setPlci p (plci.after .DISCONNECT_REQ))
          (capiFillDisconnectReq env.applId s.msgid plci.plci), 0)
      else (s, - EINVAL)) := by
  have going : ¬ (s.bchans chan).disconnecting = true := by
    rw [unflagged]
    nofun
  have moved := plciChangeState_eq (s := (s.flag chan).nextMsgid) live listed .DISCONNECT_REQ
  rw [Card.movePlci_of_stays plci.stays_disconnectReq] at moved
  unfold commandHangup
  simp only [at_channel, Option.bind_eq_bind, Option.bind_some, if_neg going]
  split
  · rename_i found
    cases noconn.symm.trans found
  · rename_i q _ found
    obtain rfl : q = p := Option.some.inj (found.symm.trans call)
    simp only [live, Option.bind_some]
    split
    · rfl
    split
    · show (plciChangeState (s.flag chan).nextMsgid q .DISCONNECT_REQ).bind _ = _
      rw [moved]
      rfl
    · rfl
  · rename_i nocall
    cases call.symm.trans nocall

/-- There is nothing to hang up on a channel without a call. -/
theorem commandHangup_free (at_channel : channel env arg = some chan)
    (noconn : (s.bchans chan).nccip = none) (free : (s.bchans chan).plcip = none) :
    ∃ res, commandHangup env s arg = some (s, res) := by
  unfold commandHangup
  simp only [at_channel, noconn, free, Option.bind_eq_bind, Option.bind_some]
  split
  · exact ⟨_, rfl⟩
  · exact ⟨_, rfl⟩

theorem commandSet_eq (at_channel : channel env arg = some chan) (set : Bchan → Bchan) :
    commandSet env s arg set = some (s.setBchan chan (set (s.bchans chan)), 0) := by
  unfold commandSet
  rw [at_channel]
  rfl

end Commands

/-! ## Messages for a PLCI -/

/-- The other events leave the record of a call in its place. -/
theorem Plci.stays {plci : Plci} {event : PlciEvent}
    (other : event ≠ .CONNECT_CONF_ERROR ∧ event ≠ .DISCONNECT_RESP ∧ event ≠ .RESUME_CONF_ERROR) :
    plci.leaves event = false := by
  apply Bool.eq_false_iff.mpr
  intro leaves
  rcases (plci.leaves_iff event).mp leaves with ⟨-, same⟩ | ⟨-, same⟩ | ⟨-, same⟩
  · exact other.1 same
  · exact other.2.1 same
  · exact other.2.2 same

/-- The other events leave the record of a connection in its place. -/
theorem Ncci.stays {ncci : Ncci} {event : NcciEvent}
    (other : event ≠ .CONNECT_B3_CONF_ERROR ∧ event ≠ .DISCONNECT_B3_RESP) : ncci.leaves event = false := by
  apply Bool.eq_false_iff.mpr
  intro leaves
  rcases (ncci.leaves_iff event).mp leaves with ⟨-, same⟩ | ⟨-, same⟩
  · exact other.1 same
  · exact other.2 same

section Messages

variable (env : Env) {s : Card} {cmsg : Cmsg} {p n : Nat} {plci : Plci} {ncci : Ncci}

/-- DISCONNECT_IND of a known call is answered, and the record goes. -/
theorem disconnectInd_eq (found : findPlciByPlci s cmsg.adr = some (p, plci)) : disconnectInd env s cmsg = some
    ((answer env ((s.flag plci.chan).setPlci p (plci.after .DISCONNECT_IND)) cmsg).movePlci p
      (plci.after .DISCONNECT_IND) .DISCONNECT_RESP) := by
  obtain ⟨live, listed, -⟩ := findPlci_some found
  have first := plciChangeState_eq (s := s.flag plci.chan) live listed .DISCONNECT_IND
  rw [Card.movePlci_of_stays (Plci.stays (by decide))] at first
  have now : (answer env ((s.flag plci.chan).setPlci p (plci.after .DISCONNECT_IND)) cmsg).plcis p =
      some (plci.after .DISCONNECT_IND) := Function.update_self _ _ _
  have second := plciChangeState_eq now listed .DISCONNECT_RESP
  unfold disconnectInd
  simp only [found]
  show (plciChangeState (s.flag plci.chan) p .DISCONNECT_IND).bind _ = _
  rw [first, Option.bind_some]
  exact second

/-- CONNECT_CONF of a requested call, with or without an error. -/
theorem connectConf_eq (found : findPlciByMsgid s cmsg.messagenumber = some (p, plci)) : connectConf s cmsg = some
    ((s.setPlci p { plci with plci := cmsg.adr }).movePlci p { plci with plci := cmsg.adr }
      (if cmsg.word .info ≠ 0 then .CONNECT_CONF_ERROR else .CONNECT_CONF_OK)) := by
  obtain ⟨-, listed, -⟩ := findPlci_some found
  have now : (s.setPlci p { plci with plci := cmsg.adr }).plcis p = some { plci with plci := cmsg.adr } :=
    Function.update_self _ _ _
  unfold connectConf
  simp only [found]
  exact plciChangeState_eq now listed _

theorem connectActiveInd_incoming (found : findPlciByPlci s cmsg.adr = some (p, plci))
    (incoming : (s.bchans plci.chan).incoming = true) : connectActiveInd env s cmsg =
      some ((answer env s cmsg).setPlci p (plci.after .CONNECT_ACTIVE_IND)) := by
  obtain ⟨live, listed, -⟩ := findPlci_some found
  have moved := plciChangeState_eq (s := answer env s cmsg) live listed .CONNECT_ACTIVE_IND
  rw [Card.movePlci_of_stays (Plci.stays (by decide))] at moved
  unfold connectActiveInd
  simp only [found, incoming, if_true]
  exact moved

/-- Without memory for a connection the call is answered and stays where it was. -/
theorem connectActiveInd_nomem (found : findPlciByPlci s cmsg.adr = some (p, plci))
    (outgoing : (s.bchans plci.chan).incoming = false) (nomem : env.kmalloc s.tick = false) :
    connectActiveInd env s cmsg = some (answer env s cmsg).asked := by
  obtain ⟨live, listed, -⟩ := findPlci_some found
  have fresh := newNcci_eq env (s := answer env s cmsg) live cmsg.adr
  have tick : (answer env s cmsg).tick = s.tick := rfl
  rw [tick, nomem] at fresh
  unfold connectActiveInd
  simp only [found, outgoing, Bool.false_eq_true, if_false, fresh, Option.bind_eq_bind, Option.bind_some]

/-- The B3 connection of an outgoing call. -/
def Card.requestB3 (env : Env) (s : Card) (p : Nat) (plci : Plci) (x : UInt32) : Card :=
  { (sendMessage env (s.nextMsgid.addNcci (plci.after .CONNECT_ACTIVE_IND)
        { freshNcci p plci.chan x with msgid := s.msgid, state := .OUTGOING })
      (capiFillConnectB3Req env.applId s.msgid plci.plci)).statcallb (.DCONN plci.chan) with
    outstanding := s.outstanding ++ [(s.msgid, .ncci s.ncciNext)] }

theorem connectActiveInd_outgoing (found : findPlciByPlci s cmsg.adr = some (p, plci))
    (outgoing : (s.bchans plci.chan).incoming = false) (mem : env.kmalloc s.tick = true) :
    connectActiveInd env s cmsg = some ((answer env s cmsg).requestB3 env p plci cmsg.adr) := by
  obtain ⟨live, listed, -⟩ := findPlci_some found
  have fresh := newNcci_eq env (s := answer env s cmsg) live cmsg.adr
  have tick : (answer env s cmsg).tick = s.tick := rfl
  rw [tick, mem, if_pos rfl] at fresh
  let s₁ := (answer env s cmsg).addNcci plci (freshNcci p plci.chan cmsg.adr)
  let ncci : Ncci := { freshNcci p plci.chan cmsg.adr with msgid := s₁.msgid }
  let plci' : Plci := { plci with ncciList := s.ncciNext :: plci.ncciList }
  let s₂ := (sendMessage env (s₁.nextMsgid.setNcci s.ncciNext ncci)
    (capiFillConnectB3Req env.applId s₁.msgid plci.plci)).statcallb (.DCONN plci.chan)
  have now : s₁.nccis s.ncciNext = some (freshNcci p plci.chan cmsg.adr) := Function.update_self _ _ _
  have call : s₂.plcis p = some plci' := Function.update_self _ _ _
  have moved := plciChangeState_eq call listed .CONNECT_ACTIVE_IND
  rw [Card.movePlci_of_stays (Plci.stays (by decide))] at moved
  let s₃ := s₂.setPlci p (plci'.after .CONNECT_ACTIVE_IND)
  have conn : s₃.nccis s.ncciNext = some ncci := Function.update_self _ _ _
  have changed := ncciChangeState_of_stays env conn .CONNECT_B3_REQ rfl
  unfold connectActiveInd
  simp only [found, outgoing, Bool.false_eq_true, if_false, fresh, Option.bind_eq_bind, Option.bind_some]
  show (s₁.nccis s.ncciNext).bind _ = _
  rw [now, Option.bind_some]
  show (plciChangeState s₂ p .CONNECT_ACTIVE_IND).bind _ = _
  rw [moved, Option.bind_some]
  show (ncciChangeState env s₃ s.ncciNext .CONNECT_B3_REQ).bind _ = _
  rw [changed, Option.bind_some]
  let s₀ := (answer env s cmsg).nextMsgid
  show some { (sendMessage env ((((s₀.addNcci plci (freshNcci p plci.chan cmsg.adr)).setNcci s₀.ncciNext ncci).setPlci
      ncci.plcip { plci.after .CONNECT_ACTIVE_IND with
        ncciList := s₀.ncciNext :: (plci.after .CONNECT_ACTIVE_IND).ncciList }).setNcci s₀.ncciNext
        (ncci.after .CONNECT_B3_REQ)) (capiFillConnectB3Req env.applId s₁.msgid plci.plci)).statcallb
      (.DCONN plci.chan) with outstanding := s.outstanding ++ [(s.msgid, Call.ncci s.ncciNext)] } = _
  have same : ncci.plcip = (freshNcci p plci.chan cmsg.adr).plcip := rfl
  have chan : (plci.after .CONNECT_ACTIVE_IND).chan = plci.chan := rfl
  have next : (ncci.after .CONNECT_B3_REQ).plcip = ncci.plcip := ncci.after_plcip _
  rw [Card.addNcci_setNcci _ _ same, Card.addNcci_setPlci _ _ chan, Card.addNcci_setNcci _ _ next]
  rfl

/-! ## Messages for an NCCI -/

/-- A connection that is there can take every event. -/
theorem Conn.change {env : Env} (conn : Conn s n ncci plci) (event : NcciEvent) :
    ncciChangeState env s n event = some (s.moveNcci env n ncci plci event) :=
  ncciChangeState_eq conn.live conn.call conn.listed event

/-- An event that frees nothing only moves the state. -/
theorem Card.moveNcci_of_stays {env : Env} {event : NcciEvent} (stays : ncci.leaves event = false) :
    s.moveNcci env n ncci plci event = s.setNcci n (ncci.after event) := by
  rw [Card.moveNcci, stays]
  rfl

/-- An active connection is told as BCONN. -/
theorem connectB3ActiveInd_eq {env : Env} (found : findNcci s cmsg.adr = some (n, ncci)) (live : s.nccis n = some ncci) :
    connectB3ActiveInd env s cmsg = some
      (((answer env s cmsg).setNcci n (ncci.after .CONNECT_B3_ACTIVE_IND)).statcallb (.BCONN ncci.chan)) := by
  have changed := ncciChangeState_of_stays env (s := answer env s cmsg) live .CONNECT_B3_ACTIVE_IND
    (Ncci.stays (by decide))
  unfold connectB3ActiveInd
  simp only [found, changed, Option.bind_eq_bind, Option.bind_some]

theorem connectB3Ind_nomem (found : findPlciByNcci s cmsg.adr = some (p, plci)) (nomem : env.kmalloc s.tick = false) :
    connectB3Ind env s cmsg = some (connectB3Resp env s.asked cmsg.adr 2) := by
  have fresh := newNcci_eq env (findPlci_some found).1 cmsg.adr
  rw [nomem] at fresh
  unfold connectB3Ind
  simp only [found, fresh, Option.bind_eq_bind, Option.bind_some, Bool.false_eq_true, if_false]

/-- A connection that the controller offers is accepted. -/
theorem connectB3Ind_eq (found : findPlciByNcci s cmsg.adr = some (p, plci)) (mem : env.kmalloc s.tick = true) :
    connectB3Ind env s cmsg = some (connectB3Resp env
      (s.addNcci plci { freshNcci p plci.chan cmsg.adr with state := .ALLOCATED, oldstate := .INCOMING }) cmsg.adr 0) := by
  have fresh := newNcci_eq env (findPlci_some found).1 cmsg.adr
  rw [mem, if_pos rfl] at fresh
  let ncci₁ : Ncci := (freshNcci p plci.chan cmsg.adr).after .CONNECT_B3_IND
  let s₁ := (s.addNcci plci (freshNcci p plci.chan cmsg.adr)).setNcci s.ncciNext ncci₁
  have now : (s.addNcci plci (freshNcci p plci.chan cmsg.adr)).nccis s.ncciNext =
      some (freshNcci p plci.chan cmsg.adr) := Function.update_self _ _ _
  have first := ncciChangeState_of_stays env now .CONNECT_B3_IND rfl
  have now₁ : s₁.nccis s.ncciNext = some ncci₁ := Function.update_self _ _ _
  have second := ncciChangeState_of_stays env (s := connectB3Resp env s₁ cmsg.adr 0) now₁ .CONNECT_B3_RESP rfl
  unfold connectB3Ind
  simp only [found, fresh, first, Option.bind_eq_bind, Option.bind_some]
  show (s₁.nccis s.ncciNext).bind _ = _
  rw [now₁, Option.bind_some]
  show ncciChangeState env (connectB3Resp env s₁ cmsg.adr 0) s.ncciNext .CONNECT_B3_RESP = _
  rw [second]
  show some (connectB3Resp env (((s.addNcci plci (freshNcci p plci.chan cmsg.adr)).setNcci s.ncciNext ncci₁).setNcci
    s.ncciNext (ncci₁.after .CONNECT_B3_RESP)) cmsg.adr 0) = _
  have same : ncci₁.plcip = (freshNcci p plci.chan cmsg.adr).plcip := rfl
  have next : (ncci₁.after .CONNECT_B3_RESP).plcip = ncci₁.plcip := ncci₁.after_plcip _
  rw [Card.addNcci_setNcci _ _ same, Card.addNcci_setNcci _ _ next]
  rfl

/-- The connection with another number. -/
theorem Conn.rename (conn : Conn s n ncci plci) (x : UInt32) :
    Conn (s.setNcci n { ncci with ncci := x }) n { ncci with ncci := x } plci :=
  ⟨Function.update_self _ _ _, conn.call, conn.listed, conn.chan, conn.member⟩

/-- CONNECT_B3_CONF of a requested connection, with or without an error. -/
theorem connectB3Conf_eq (found : findNcciByMsgid s cmsg.adr cmsg.messagenumber = some (n, ncci))
    (conn : Conn s n ncci plci) : connectB3Conf env s cmsg = some
      ((s.setNcci n { ncci with ncci := cmsg.adr }).moveNcci env n { ncci with ncci := cmsg.adr } plci
        (if cmsg.word .info ≠ 0 then .CONNECT_B3_CONF_ERROR else .CONNECT_B3_CONF_OK)) := by
  unfold connectB3Conf
  simp only [found]
  exact (conn.rename cmsg.adr).change _

/-- DISCONNECT_B3_IND of a known connection is answered, and the record goes. -/
theorem disconnectB3Ind_eq (found : findNcci s cmsg.adr = some (n, ncci)) (conn : Conn s n ncci plci) :
    disconnectB3Ind env s cmsg = some
      ((answer env ((s.flag ncci.chan).setNcci n (ncci.after .DISCONNECT_B3_IND)) cmsg).moveNcci env n
        (ncci.after .DISCONNECT_B3_IND) plci .DISCONNECT_B3_RESP) := by
  have first := ncciChangeState_of_stays env (s := s.flag ncci.chan) conn.live .DISCONNECT_B3_IND
    (Ncci.stays (by decide))
  have plcip : (ncci.after .DISCONNECT_B3_IND).plcip = ncci.plcip := ncci.after_plcip _
  have conn₁ : Conn (answer env ((s.flag ncci.chan).setNcci n (ncci.after .DISCONNECT_B3_IND)) cmsg) n
      (ncci.after .DISCONNECT_B3_IND) plci := by
    refine ⟨Function.update_self _ _ _, ?_, ?_, ?_, conn.member⟩
    · rw [plcip]
      exact conn.call
    · rw [plcip]
      exact conn.listed
    · rw [ncci.after_chan]
      exact conn.chan
  unfold disconnectB3Ind
  simp only [found]
  show (ncciChangeState env (s.flag ncci.chan) n .DISCONNECT_B3_IND).bind _ = _
  rw [first, Option.bind_some]
  exact conn₁.change _

/-- A release that the controller refuses is taken back. -/
theorem disconnectB3Conf_eq {env : Env} (found : findNcci s cmsg.adr = some (n, ncci)) (live : s.nccis n = some ncci)
    (error : cmsg.word .info ≠ 0) :
    disconnectB3Conf env s cmsg = some (s.setNcci n (ncci.after .DISCONNECT_B3_CONF_ERROR)) := by
  unfold disconnectB3Conf
  simp only [found, if_pos error]
  exact ncciChangeState_of_stays env live .DISCONNECT_B3_CONF_ERROR (Ncci.stays (by decide))

/-- RESET_B3_IND of a known connection is answered. -/
theorem resetB3Ind_eq {env : Env} (found : findNcci s cmsg.adr = some (n, ncci)) (live : s.nccis n = some ncci) :
    resetB3Ind env s cmsg = some (answer env (s.setNcci n (ncci.after .RESET_B3_IND)) cmsg) := by
  have changed := ncciChangeState_of_stays env live .RESET_B3_IND (Ncci.stays (by decide))
  unfold resetB3Ind
  simp only [found, changed, Option.bind_eq_bind, Option.bind_some]

/-- Only the queue of acknowledgements changes. -/
theorem dataB3Conf_eq (found : findNcci s cmsg.adr = some (n, ncci)) (live : s.nccis n = some ncci) :
    ∃ ackqueue status, dataB3Conf s cmsg = some { s.setNcci n { ncci with ackqueue } with status } := by
  unfold dataB3Conf capidrvDelAck
  simp only [found, live, Option.bind_eq_bind, Option.bind_some]
  split
  · have same : s.setNcci n { ncci with ackqueue := ncci.ackqueue } = s := by
      rw [Card.setNcci]
      show { s with nccis := Function.update s.nccis n (some ncci) } = s
      rw [← live, Function.update_eq_self]
    refine ⟨ncci.ackqueue, s.status, ?_⟩
    rw [same]
    rfl
  · rename_i len _
    simp only [Option.bind_some]
    split
    · exact ⟨_, s.status, rfl⟩
    · exact ⟨_, _, rfl⟩

/-! ## Incoming calls -/

/-- `new_bchan` finds a channel without a call and clears its flag. -/
theorem newBchan_some {s' : Card} {chan : Nat} (found : newBchan env s = some (s', chan)) :
    chan < env.nbchan ∧ (s.bchans chan).plcip = none ∧
      s' = s.setBchan chan { s.bchans chan with disconnecting := false } := by
  obtain ⟨i, search, same⟩ := Option.map_eq_some_iff.mp found
  cases same
  refine ⟨List.mem_range.mp (List.mem_of_find?_eq_some search), ?_, rfl⟩
  have free := List.find?_some search
  exact Option.isNone_iff_eq_none.mp free

/-- The record of an incoming call. -/
def incomingPlci (chan : Nat) (x : UInt32) : Plci := { freshPlci chan with plci := x, state := .INCOMING }

/-- The card when isdn4linux is told about an incoming call. -/
def Card.offer (s : Card) (chan : Nat) (x : UInt32) : Card :=
  let s := (s.setBchan chan { s.bchans chan with disconnecting := false }).addPlci (incomingPlci chan x)
  s.setBchan chan { s.bchans chan with incoming := true }

/-- The channel has the new call, which is incoming. -/
theorem offer_bchan (s : Card) (chan : Nat) (x : UInt32) : (s.offer chan x).bchans chan =
    { s.bchans chan with disconnecting := false, plcip := some s.plciNext, incoming := true } := by
  simp only [Card.offer, Card.setBchan, Card.addPlci, incomingPlci, freshPlci, Function.update_self]

/-- Without a free channel the CONNECT_IND is dropped. -/
theorem handleIncomingCall_busy (busy : newBchan env s = none) : handleIncomingCall env s cmsg = some s := by
  unfold handleIncomingCall
  rw [busy]

/-- Without memory for the call the CONNECT_IND is dropped, and the channel stays free. -/
theorem handleIncomingCall_nomem {s' : Card} {chan : Nat} (found : newBchan env s = some (s', chan))
    (nomem : env.kmalloc s.tick = false) : handleIncomingCall env s cmsg =
      some (s.setBchan chan { s.bchans chan with disconnecting := false }).asked := by
  obtain ⟨-, -, rfl⟩ := newBchan_some env found
  have fresh := newPlci_eq env (s.setBchan chan { s.bchans chan with disconnecting := false }) chan
  have tick : (s.setBchan chan { s.bchans chan with disconnecting := false }).tick = s.tick := rfl
  rw [tick, nomem] at fresh
  unfold handleIncomingCall
  simp only [found, fresh, Bool.false_eq_true, if_false]

/-- Else isdn4linux is asked, and its answer decides. -/
theorem handleIncomingCall_offers {s' : Card} {chan : Nat} (found : newBchan env s = some (s', chan))
    (mem : env.kmalloc s.tick = true) : handleIncomingCall env s cmsg = (incomingSetup cmsg).bind fun setup =>
      (incomingCallback env (s.offer chan cmsg.adr) chan setup).bind fun r =>
        incomingResult env r.1 cmsg s.plciNext r.2 := by
  obtain ⟨-, -, rfl⟩ := newBchan_some env found
  let s₀ := s.setBchan chan { s.bchans chan with disconnecting := false }
  have fresh := newPlci_eq env (s.setBchan chan { s.bchans chan with disconnecting := false }) chan
  have tick : (s.setBchan chan { s.bchans chan with disconnecting := false }).tick = s.tick := rfl
  rw [tick, mem, if_pos rfl] at fresh
  let s₁ := (s₀.addPlci (freshPlci chan)).setBchan chan
    { (s₀.addPlci (freshPlci chan)).bchans chan with incoming := true }
  have now : s₁.plcis s.plciNext = some (freshPlci chan) := Function.update_self _ _ _
  let plci : Plci := { freshPlci chan with plci := cmsg.adr }
  have now' : (s₁.setPlci s.plciNext plci).plcis s.plciNext = some plci := Function.update_self _ _ _
  have moved := plciChangeState_eq now' List.mem_cons_self .CONNECT_IND
  rw [Card.movePlci_of_stays (Plci.stays (by decide))] at moved
  have offered : (s₁.setPlci s.plciNext plci).setPlci s.plciNext (plci.after .CONNECT_IND) = s.offer chan cmsg.adr := by
    have same : plci.chan = (freshPlci chan).chan := rfl
    have next : (plci.after .CONNECT_IND).chan = plci.chan := rfl
    show (((s₀.addPlci (freshPlci chan)).setPlci s₀.plciNext plci).setPlci s₀.plciNext
      (plci.after .CONNECT_IND)).setBchan chan { (s₀.addPlci (freshPlci chan)).bchans chan with incoming := true } = _
    rw [Card.addPlci_setPlci _ same, Card.addPlci_setPlci _ next]
    rfl
  rw [offered] at moved
  unfold handleIncomingCall
  simp only [found, fresh]
  show (s₁.plcis s.plciNext).bind _ = _
  rw [now, Option.bind_some]
  show (plciChangeState (s₁.setPlci s.plciNext plci) s.plciNext .CONNECT_IND).bind _ = _
  rw [moved, Option.bind_some]
  rfl

/-- A call whose numbers fit is offered to isdn4linux. -/
theorem handleIncomingCall_eq {s' : Card} {chan : Nat} (found : newBchan env s = some (s', chan))
    (mem : env.kmalloc s.tick = true) (fit : NumbersFit cmsg) : handleIncomingCall env s cmsg =
      (incomingCallback env (s.offer chan cmsg.adr) chan (callSetup cmsg)).bind fun r =>
        incomingResult env r.1 cmsg s.plciNext r.2 := by
  have setup : incomingSetup cmsg = some (callSetup cmsg) := if_pos fit
  rw [handleIncomingCall_offers env found mem, setup, Option.bind_some]

/-- The copy of a number that does not fit has no outcome. -/
theorem handleIncomingCall_fit {s' s'' : Card} {chan : Nat} (found : newBchan env s = some (s', chan))
    (mem : env.kmalloc s.tick = true) (run : handleIncomingCall env s cmsg = some s'') : NumbersFit cmsg := by
  by_contra overrun
  have setup : incomingSetup cmsg = none := if_neg overrun
  rw [handleIncomingCall_offers env found mem, setup] at run
  cases run

/-- A rejected call waits for its DISCONNECT_IND. -/
theorem rejectCall_eq (live : s.plcis p = some plci) (listed : p ∈ s.plciList) (reject : UInt16) :
    rejectCall env s cmsg p reject = some
      ((sendMessage env s ((capiCmsgAnswer cmsg).setWord .reject reject)).setPlci p (plci.after .CONNECT_REJECT)) := by
  have moved := plciChangeState_eq (s := sendMessage env s ((capiCmsgAnswer cmsg).setWord .reject reject)) live listed
    .CONNECT_REJECT
  rwa [Card.movePlci_of_stays (Plci.stays (by decide))] at moved

/-- The code of the refusal, if the call is refused. -/
def refusal (res : Int) : Option UInt16 :=
  if res = 1 then none else if res = 0 ∨ res = 3 then some 1 else if res = 2 then some 2 else some 8

/-- Only the answer 1 is no refusal. -/
theorem refusal_none {res : Int} (accepted : refusal res = none) : res = 1 := by
  unfold refusal at accepted
  split at accepted
  · assumption
  split at accepted
  · cases accepted
  split at accepted
  · cases accepted
  · cases accepted

/-- What is sent for an answer that refuses the call. -/
theorem incomingResult_refused {res : Int} {reject : UInt16} (refused : refusal res = some reject)
    (live : s.plcis p = some plci) (listed : p ∈ s.plciList) : incomingResult env s cmsg p res = some
      ((sendMessage env s ((capiCmsgAnswer cmsg).setWord .reject reject)).setPlci p (plci.after .CONNECT_REJECT)) := by
  have reject_eq (reject : UInt16) : rejectCall env s cmsg p reject = _ := rejectCall_eq env live listed reject
  unfold refusal at refused
  unfold incomingResult
  split at refused
  · cases refused
  rename_i accepted
  split at refused
  · rename_i ignored
    cases refused
    rw [if_pos ignored]
    exact reject_eq 1
  rename_i heeded
  rw [if_neg heeded, if_neg accepted]
  split at refused
  · rename_i rejected
    cases refused
    rw [if_pos rejected]
    exact reject_eq 2
  · rename_i failed
    cases refused
    rw [if_neg failed]
    exact reject_eq 8

/-- A call that rings is alerted, unless a command has settled it in the callback. -/
theorem incomingResult_waiting (live : s.plcis p = some plci) : incomingResult env s cmsg p 1 = some
    (if plci.state = .INCOMING then
      sendMessage env (s.setPlci p { plci with msgid := s.msgid }).nextMsgid
        (capiFillAlertReq env.applId s.msgid plci.plci)
    else s) := by
  unfold incomingResult
  rw [if_neg (by decide), if_pos rfl]
  simp only [live, Option.bind_eq_bind, Option.bind_some]
  split
  · rfl
  · rfl

end Messages

/-! ## Reception -/

/-- The data that follows a message. -/
def payload (msg : Bytes) : Bytes :=
  if leNat (msg.take 2) > msg.length then msg else msg.drop (leNat (msg.take 2))

/-- A message that decodes and is handled makes a step. -/
theorem recv_eq {env : Env} {s s' : Card} {msg : Bytes} {cmsg : Cmsg} (decoded : capiMessage2cmsg msg = some cmsg)
    (handled : handleMessage env s cmsg (payload msg) = some s') :
    step env s (.recv msg) = some (confirm env s' cmsg) := by
  show capidrvRecvMessage env s msg = _
  unfold capidrvRecvMessage
  rw [decoded]
  show (handleMessage env s cmsg (payload msg)).bind _ = _
  rw [handled]
  rfl

end Capi4Linux.Capidrv
