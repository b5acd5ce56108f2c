import Capi4Linux.Capidrv.Channels

/-!
# A call from beginning to end

Whatever happened before, a call dialled on an idle line comes about when the
controller confirms it step by step, isdn4linux can end it, and then the line is
idle again and the other calls are as they were.
-/

namespace Capi4Linux.Capidrv
open Bytes Capicore Capiutil Machine

/-- No call is on the line, and nothing is left of the last one. -/
structure Idle (s : Card) (chan : Nat) : Prop where
  plcip : (s.bchans chan).plcip = none
  disconnecting : (s.bchans chan).disconnecting = false
  incoming : (s.bchans chan).incoming = false

/-- The message `msg` decodes to `cmsg`, which is `message` for the address `adr`. -/
structure Carries (msg : Bytes) (cmsg : Cmsg) (message : UInt8 × UInt8) (adr : UInt32) : Prop where
  decoded : capiMessage2cmsg msg = some cmsg
  message : cmd cmsg = message
  adr : cmsg.adr = adr

/-- `t` is `s` with one more call on a line, one more connection, and what isdn4linux was told meanwhile. -/
structure Apart (s t : Card) (chan : Nat) (incoming : Bool) (plci : Option Plci) (ncci : Option Ncci) (told : List Status) :
    Prop where
  plcis : t.plcis = Function.update s.plcis s.plciNext plci
  nccis : t.nccis = Function.update s.nccis s.ncciNext ncci
  plciList : t.plciList = (plci.map fun _ => s.plciNext).toList ++ s.plciList
  others : ∀ c, c ≠ chan → t.bchans c = s.bchans c
  plcip : (t.bchans chan).plcip = plci.map fun _ => s.plciNext
  direction : (t.bchans chan).incoming = incoming
  status : t.status = s.status ++ told

/-- The line is idle, and the records and the other lines of `t` are those of `s`. -/
structure Restored (s t : Card) (chan : Nat) : Prop where
  idle : Idle t chan
  plcis : t.plcis = s.plcis
  plciList : t.plciList = s.plciList
  nccis : t.nccis = s.nccis
  others : ∀ c, c ≠ chan → t.bchans c = s.bchans c

section Lifecycle

variable {env : Env} {s t : Card} {chan : Nat} {incoming : Bool} {plci : Plci} {ncci : Ncci} {told : List Status}
  {msg : Bytes} {cmsg : Cmsg}

/-- The call is on the card and in its list. -/
theorem Apart.live {conn : Option Ncci} (apart : Apart s t chan incoming (some plci) conn told) :
    t.plcis s.plciNext = some plci ∧ s.plciNext ∈ t.plciList := by
  refine ⟨by rw [apart.plcis, Function.update_self], ?_⟩
  rw [apart.plciList]
  exact List.mem_cons_self

/-- The newest call is found first. -/
theorem Apart.find {conn : Option Ncci} (apart : Apart s t chan incoming (some plci) conn told) {test : Plci → Bool}
    (passes : test plci = true) : findPlci t test = some (s.plciNext, plci) := by
  unfold findPlci
  rw [apart.plciList]
  show ([s.plciNext] ++ s.plciList).findSome? _ = _
  rw [List.singleton_append, List.findSome?_cons, apart.live.1]
  simp [passes]

/-- The numbers of the next records are not in use. -/
theorem Valid.fresh (valid : Valid env s) : s.plcis s.plciNext = none ∧ s.nccis s.ncciNext = none := by
  refine ⟨(plcis_none_iff s _).1 (valid.wired.fresh _ (Nat.le_refl _)), ?_⟩
  have fresh := valid.wired.ncciFresh s.ncciNext (Nat.le_refl _)
  exact Option.map_eq_none_iff.1 fresh

/-- A step of the controller is the reaction of the card to its message. -/
theorem Carries.step {message : UInt8 × UInt8} {adr : UInt32} (carries : Carries msg cmsg message adr)
    (handled : handleMessage env s cmsg (payload msg) = some t) :
    Capidrv.step env s (.recv msg) = some (confirm env t cmsg) := recv_eq carries.decoded handled

/-- The outstanding requests are no part of a channel. -/
@[simp] theorem confirm_bchans (env : Env) (s : Card) (cmsg : Cmsg) : (confirm env s cmsg).bchans = s.bchans := by
  unfold confirm
  split <;> rfl

/-- The outstanding requests are no part of what happens to one call apart from the others. -/
theorem Apart.confirm {call : Option Plci} {conn : Option Ncci} (apart : Apart s t chan incoming call conn told) (cmsg : Cmsg) :
    Apart s (confirm env t cmsg) chan incoming call conn told := by
  unfold Capidrv.confirm
  split
  · exact ⟨apart.plcis, apart.nccis, apart.plciList, apart.others, apart.plcip, apart.direction, apart.status⟩
  · exact apart

section Moves

variable {call : Option Plci} {conn : Option Ncci}

/-- An answer leaves the call as it is. -/
theorem Apart.answer (apart : Apart s t chan incoming call conn told) (env : Env) (cmsg : Cmsg) :
    Apart s (answer env t cmsg) chan incoming call conn told :=
  ⟨apart.plcis, apart.nccis, apart.plciList, apart.others, apart.plcip, apart.direction, apart.status⟩

theorem Apart.statcallb (apart : Apart s t chan incoming call conn told) (status : Status) :
    Apart s (t.statcallb status) chan incoming call conn (told ++ [status]) where
  plcis := apart.plcis
  nccis := apart.nccis
  plciList := apart.plciList
  others := apart.others
  plcip := apart.plcip
  direction := apart.direction
  status := by
    show t.status ++ [status] = _
    rw [apart.status, List.append_assoc]

/-- A change of the call is one of nothing else. -/
theorem Apart.setPlci (apart : Apart s t chan incoming (some plci) conn told) (plci' : Plci) :
    Apart s (t.setPlci s.plciNext plci') chan incoming (some plci') conn told := by
  refine ⟨?_, apart.nccis, apart.plciList, apart.others, apart.plcip, apart.direction, apart.status⟩
  rw [Card.setPlci, apart.plcis, Function.update_idem]

theorem Apart.setNcci (apart : Apart s t chan incoming call (some ncci) told) (ncci' : Ncci) :
    Apart s (t.setNcci s.ncciNext ncci') chan incoming call (some ncci') told := by
  refine ⟨apart.plcis, ?_, apart.plciList, apart.others, apart.plcip, apart.direction, apart.status⟩
  rw [Card.setNcci, apart.nccis, Function.update_idem]

/-- The flag is a field of the channel. -/
theorem Apart.flag (apart : Apart s t chan incoming call conn told) : Apart s (t.flag chan) chan incoming call conn told where
  plcis := apart.plcis
  nccis := apart.nccis
  plciList := apart.plciList
  others c other := (Function.update_of_ne other _ _).trans (apart.others c other)
  plcip := by
    rw [flag_bchan]
    exact apart.plcip
  direction := by
    rw [flag_bchan]
    exact apart.direction
  status := apart.status

/-- The call loses its only connection. -/
theorem Apart.dropNcci (apart : Apart s t chan incoming (some plci) (some ncci) told) (env : Env)
    (only : plci.ncciList = [s.ncciNext]) (plcip : ncci.plcip = s.plciNext) (here : ncci.chan = chan) :
    Apart s (t.dropNcci env s.ncciNext ncci plci) chan incoming (some { plci.after .DISCONNECT_REQ with ncciList := [] }) none
      (told ++ [.BHUP chan]) where
  plcis := by
    rw [Card.dropNcci, plcip, only, apart.plcis, Function.update_idem, List.erase_cons_head]
  nccis := by rw [Card.dropNcci, apart.nccis, Function.update_idem]
  plciList := apart.plciList
  others c other := by
    rw [Card.dropNcci, here]
    exact (Function.update_of_ne other _ _).trans (apart.others c other)
  plcip := by
    show (Function.update t.bchans ncci.chan { t.bchans ncci.chan with nccip := none } chan).plcip = _
    rw [here, Function.update_self]
    exact apart.plcip
  direction := by
    show (Function.update t.bchans ncci.chan { t.bchans ncci.chan with nccip := none } chan).incoming = _
    rw [here, Function.update_self]
    exact apart.direction
  status := by
    show t.status ++ [.BHUP ncci.chan] = _
    rw [here, apart.status, List.append_assoc]

/-- The line loses its call. -/
theorem Apart.dropPlci (apart : Apart s t chan incoming (some plci) conn told) (here : plci.chan = chan) :
    Apart s (t.dropPlci s.plciNext plci) chan false none conn (told ++ [.DHUP chan]) where
  plcis := by rw [Card.dropPlci, apart.plcis, Function.update_idem]
  nccis := apart.nccis
  plciList := by
    show t.plciList.erase s.plciNext = _
    rw [apart.plciList]
    exact List.erase_cons_head s.plciNext s.plciList
  others c other := by
    rw [Card.dropPlci, here]
    exact (Function.update_of_ne other _ _).trans (apart.others c other)
  plcip := by simp [Card.dropPlci, here]
  direction := by simp [Card.dropPlci, here]
  status := by
    show t.status ++ [.DHUP plci.chan] = _
    rw [here, apart.status, List.append_assoc]

end Moves

/-- The call is dialled. -/
theorem dial_apart {arg : Nat} (at_channel : channel env arg = some chan) (idle : Idle s chan)
    (mem : env.kmalloc s.tick = true) {phone : Msn} (ends : ¬ LeasedLine.EndlessLine env.undefined phone.chars)
    (eazmsn : Msn) (si1 si2 : UInt8) (fresh : s.nccis s.ncciNext = none) :
    ∃ t plci, step env s (.command (.DIAL arg phone eazmsn si1 si2)) = some t ∧
      Apart s t chan false (some plci) none [] ∧ t.ncciNext = s.ncciNext ∧ (t.bchans chan).disconnecting = false ∧
      t.msgid = s.msgid + 1 ∧ plci.msgid = s.msgid ∧ plci.chan = chan ∧ plci.state = .OUTGOING ∧ plci.ncciList = [] := by
  rw [← dialLine_none_iff] at ends
  obtain ⟨line, parsed⟩ := Option.ne_none_iff_exists'.mp ends
  have eq := commandDial_eq env at_channel idle.plcip mem parsed eazmsn si1 si2
  have run : step env s (.command (.DIAL arg phone eazmsn si1 si2)) = _ := congrArg (Option.map Prod.fst) eq
  refine ⟨_, _, run, ⟨rfl, ?_, rfl, fun c other => ?_, ?_, ?_, ?_⟩, rfl, ?_, rfl, rfl, rfl, rfl, rfl⟩
  · exact (Function.update_eq_self_iff.2 fresh.symm).symm
  · simp [sendMessage, putCapiMessage, Card.addPlci, Card.nextMsgid, Card.dialed, Card.setBchan, freshPlci, other]
  · simp [sendMessage, putCapiMessage, Card.addPlci, Card.nextMsgid, Card.dialed, Card.setBchan, freshPlci]
  · simp [sendMessage, putCapiMessage, Card.addPlci, Card.nextMsgid, Card.dialed, Card.setBchan, freshPlci, idle.incoming]
  · simp [sendMessage, putCapiMessage, Card.addPlci, Card.nextMsgid, Card.dialed, Card.setBchan, Card.asked]
  · simp [sendMessage, putCapiMessage, Card.addPlci, Card.nextMsgid, Card.dialed, Card.setBchan, freshPlci,
      idle.disconnecting]

/-- The controller accepts the call and gives it the number `x`. -/
theorem connectConf_apart (apart : Apart s t chan incoming (some plci) none told) (requested : plci.state = .OUTGOING)
    {x : UInt32} (route : toPlci env cmsg) (carries : Carries msg cmsg CAPI_CONNECT_CONF x)
    (number : cmsg.messagenumber = plci.msgid) (fine : cmsg.word .info = 0) :
    ∃ t', step env t (.recv msg) = some t' ∧
      Apart s t' chan incoming (some { plci with plci := x, state := .ALLOCATED }) none told ∧ t'.ncciNext = t.ncciNext ∧
      t'.bchans = t.bchans ∧ t'.msgid = t.msgid := by
  have found : findPlciByMsgid t cmsg.messagenumber = some (s.plciNext, plci) :=
    apart.find (decide_eq_true number.symm)
  have handled : handleMessage env t cmsg (payload msg) = _ :=
    (handleMessage_connectConf t (payload msg) route carries.message).trans (connectConf_fine found fine)
  have next : Plci.after { plci with plci := cmsg.adr } .CONNECT_CONF_OK = { plci with plci := x, state := .ALLOCATED } := by
    unfold Plci.after
    rw [requested, carries.adr]
    rfl
  rw [next] at handled
  refine ⟨_, carries.step handled, (apart.setPlci _).confirm cmsg, ?_⟩
  unfold Capidrv.confirm
  split <;> exact ⟨rfl, rfl, rfl⟩

/-- The controller connects the call; a connection for its data is requested. -/
theorem connectActive_apart (apart : Apart s t chan false (some plci) none told) (allocated : plci.state = .ALLOCATED)
    (here : plci.chan = chan) (none_yet : plci.ncciList = []) (mem : env.kmalloc t.tick = true) (next : t.ncciNext = s.ncciNext)
    (route : toPlci env cmsg) (carries : Carries msg cmsg CAPI_CONNECT_ACTIVE_IND plci.plci) :
    ∃ t' ncci, step env t (.recv msg) = some t' ∧
      Apart s t' chan false (some { plci with state := .ACTIVE, ncciList := [s.ncciNext] }) (some ncci) (told ++ [.DCONN chan]) ∧
      ncci.plcip = s.plciNext ∧ ncci.chan = chan ∧ ncci.state = .OUTGOING ∧ ncci.msgid = t.msgid ∧
      (t'.bchans chan).disconnecting = (t.bchans chan).disconnecting ∧ (t'.bchans chan).nccip = some s.ncciNext := by
  have found : findPlciByPlci t cmsg.adr = some (s.plciNext, plci) :=
    apart.find (decide_eq_true carries.adr.symm)
  have outgoing : (t.bchans plci.chan).incoming = false := by
    rw [here]
    exact apart.direction
  have handled : handleMessage env t cmsg (payload msg) = _ :=
    (handleMessage_connectActiveInd t (payload msg) route carries.message).trans
      (connectActiveInd_outgoing env found outgoing mem)
  have active : plci.after .CONNECT_ACTIVE_IND = { plci with state := .ACTIVE } := by
    unfold Plci.after
    rw [allocated]
    rfl
  refine ⟨_, { freshNcci s.plciNext plci.chan cmsg.adr with msgid := t.msgid, state := .OUTGOING }, carries.step handled,
    Apart.confirm ?_ cmsg, rfl, here, rfl, rfl, ?_, ?_⟩
  · refine ⟨?_, ?_, apart.plciList, fun c other => ?_, ?_, ?_, ?_⟩
    · show Function.update t.plcis s.plciNext (some { plci.after .CONNECT_ACTIVE_IND with
        ncciList := t.ncciNext :: plci.ncciList }) = _
      rw [apart.plcis, Function.update_idem, active, none_yet, next]
    · show Function.update t.nccis t.ncciNext _ = _
      rw [apart.nccis, next, Function.update_idem]
      rfl
    · show Function.update t.bchans plci.chan _ c = _
      rw [here, Function.update_of_ne other]
      exact apart.others c other
    · show (Function.update t.bchans plci.chan { t.bchans plci.chan with nccip := some t.ncciNext } chan).plcip = _
      rw [here, Function.update_self]
      exact apart.plcip
    · show (Function.update t.bchans plci.chan { t.bchans plci.chan with nccip := some t.ncciNext } chan).incoming = _
      rw [here, Function.update_self]
      exact apart.direction
    · show t.status ++ [.DCONN plci.chan] = _
      rw [apart.status, here, List.append_assoc]
  · rw [confirm_bchans]
    show (Function.update t.bchans plci.chan { t.bchans plci.chan with nccip := some t.ncciNext } chan).disconnecting = _
    rw [here, Function.update_self]
  · rw [confirm_bchans]
    show (Function.update t.bchans plci.chan { t.bchans plci.chan with nccip := some t.ncciNext } chan).nccip = _
    rw [here, Function.update_self, next]

/-- The connection of the newest call is found by the number of the call. -/
theorem Apart.findNcci (apart : Apart s t chan incoming (some plci) (some ncci) told) (only : plci.ncciList = [s.ncciNext])
    {y : UInt32} (call : plci.plci = y &&& 0xffff) {test : Ncci → Bool} (passes : test ncci = true) :
    ((findPlciByNcci t y).bind fun e => findNcciOf t e.2 test) = some (s.ncciNext, ncci) := by
  have found : findPlciByNcci t y = some (s.plciNext, plci) := apart.find (decide_eq_true call)
  rw [found, Option.bind_some]
  unfold findNcciOf
  rw [only, apart.nccis]
  simp [passes]

theorem Apart.conn (apart : Apart s t chan incoming (some plci) (some ncci) told) (only : plci.ncciList = [s.ncciNext])
    (plcip : ncci.plcip = s.plciNext) (here : ncci.chan = plci.chan) : Conn t s.ncciNext ncci plci where
  live := by rw [apart.nccis, Function.update_self]
  call := by rw [plcip]; exact apart.live.1
  listed := by rw [plcip]; exact apart.live.2
  chan := here
  member := by rw [only]; exact List.mem_singleton_self _

/-- The controller accepts the connection and gives it the number `y`. -/
theorem connectB3Conf_apart (apart : Apart s t chan incoming (some plci) (some ncci) told) (only : plci.ncciList = [s.ncciNext])
    (plcip : ncci.plcip = s.plciNext) (here : ncci.chan = plci.chan) (requested : ncci.state = .OUTGOING) {y : UInt32}
    (call : plci.plci = y &&& 0xffff) (route : toNcci env cmsg) (carries : Carries msg cmsg CAPI_CONNECT_B3_CONF y)
    (number : cmsg.messagenumber = ncci.msgid) (fine : cmsg.word .info = 0) :
    ∃ t' ncci', step env t (.recv msg) = some t' ∧ Apart s t' chan incoming (some plci) (some ncci') told ∧
      ncci'.plcip = ncci.plcip ∧ ncci'.chan = ncci.chan ∧ ncci'.ncci = y ∧ ncci'.state = .ALLOCATED ∧
      t'.bchans = t.bchans := by
  have found : findNcciByMsgid t cmsg.adr cmsg.messagenumber = some (s.ncciNext, ncci) :=
    apart.findNcci only (carries.adr ▸ call) (decide_eq_true number.symm)
  have handled : handleMessage env t cmsg (payload msg) = _ :=
    (handleMessage_connectB3Conf t (payload msg) route carries.message).trans
      (connectB3Conf_fine found (apart.conn only plcip here) fine)
  let ncci' : Ncci := { ncci with ncci := cmsg.adr }
  have next : (ncci'.after .CONNECT_B3_CONF_OK).state = .ALLOCATED ∧ (ncci'.after .CONNECT_B3_CONF_OK).ncci = cmsg.adr := by
    have state : ncci'.state = .OUTGOING := requested
    unfold Ncci.after
    rw [state]
    exact ⟨rfl, rfl⟩
  exact ⟨_, ncci'.after .CONNECT_B3_CONF_OK, carries.step handled, (apart.setNcci _).confirm cmsg, ncci'.after_plcip _,
    ncci'.after_chan _, next.2.trans carries.adr, next.1, confirm_bchans env _ cmsg⟩

/-- Data can flow. -/
theorem connectB3Active_apart (apart : Apart s t chan incoming (some plci) (some ncci) told) (only : plci.ncciList = [s.ncciNext])
    (here : ncci.chan = chan) (allocated : ncci.state = .ALLOCATED) (call : plci.plci = ncci.ncci &&& 0xffff)
    (route : toNcci env cmsg) (carries : Carries msg cmsg CAPI_CONNECT_B3_ACTIVE_IND ncci.ncci) :
    ∃ t' ncci', step env t (.recv msg) = some t' ∧
      Apart s t' chan incoming (some plci) (some ncci') (told ++ [.BCONN chan]) ∧
      ncci'.plcip = ncci.plcip ∧ ncci'.chan = ncci.chan ∧ ncci'.ncci = ncci.ncci ∧ ncci'.state = .ACTIVE ∧
      t'.bchans = t.bchans := by
  have found : Capidrv.findNcci t cmsg.adr = some (s.ncciNext, ncci) :=
    apart.findNcci only (carries.adr ▸ call) (decide_eq_true carries.adr.symm)
  have live : t.nccis s.ncciNext = some ncci := by rw [apart.nccis, Function.update_self]
  have handled : handleMessage env t cmsg (payload msg) = _ :=
    (handleMessage_connectB3ActiveInd t (payload msg) route carries.message).trans (connectB3ActiveInd_eq found live)
  have next : (ncci.after .CONNECT_B3_ACTIVE_IND).state = .ACTIVE ∧
      (ncci.after .CONNECT_B3_ACTIVE_IND).ncci = ncci.ncci := by
    unfold Ncci.after
    rw [allocated]
    exact ⟨rfl, rfl⟩
  have moved := (((apart.answer env cmsg).setNcci (ncci.after .CONNECT_B3_ACTIVE_IND)).statcallb (.BCONN ncci.chan))
  rw [here] at moved handled
  exact ⟨_, ncci.after .CONNECT_B3_ACTIVE_IND, carries.step handled, moved.confirm cmsg, ncci.after_plcip _,
    ncci.after_chan _, next.2, next.1, confirm_bchans env _ cmsg⟩

/-- isdn4linux hangs up. -/
theorem hangup_apart (apart : Apart s t chan incoming (some plci) (some ncci) told) {arg : Nat}
    (at_channel : channel env arg = some chan) (unflagged : (t.bchans chan).disconnecting = false)
    (pointer : (t.bchans chan).nccip = some s.ncciNext) (active : ncci.state = .ACTIVE) :
    ∃ t' ncci', step env t (.command (.HANGUP arg)) = some t' ∧ Apart s t' chan incoming (some plci) (some ncci') told ∧
      ncci'.plcip = ncci.plcip ∧ ncci'.chan = ncci.chan ∧ ncci'.ncci = ncci.ncci ∧ ncci'.state = .DISCONNECTING ∧
      ncci'.oldstate = .ACTIVE := by
  have live : t.nccis s.ncciNext = some ncci := by rw [apart.nccis, Function.update_self]
  have run : step env t (.command (.HANGUP arg)) = _ :=
    congrArg (Option.map Prod.fst) (commandHangup_ncci env at_channel unflagged pointer live)
  have next : (ncci.after .DISCONNECT_B3_REQ).state = .DISCONNECTING ∧
      (ncci.after .DISCONNECT_B3_REQ).ncci = ncci.ncci ∧ (ncci.after .DISCONNECT_B3_REQ).oldstate = .ACTIVE := by
    unfold Ncci.after
    rw [active]
    exact ⟨rfl, rfl, rfl⟩
  have moved := apart.flag.setNcci (ncci.after .DISCONNECT_B3_REQ)
  refine ⟨_, ncci.after .DISCONNECT_B3_REQ, run, ?_, ncci.after_plcip _, ncci.after_chan _, next.2.1, next.1, next.2.2⟩
  exact ⟨moved.plcis, moved.nccis, moved.plciList, moved.others, moved.plcip, moved.direction, moved.status⟩

/-- The connection is gone; the call is told to go. -/
theorem disconnectB3_apart (apart : Apart s t chan incoming (some plci) (some ncci) told) (only : plci.ncciList = [s.ncciNext])
    (plcip : ncci.plcip = s.plciNext) (here : ncci.chan = chan) (same : plci.chan = chan) (phased : ncci.Phased)
    (known : ncci.state ≠ .OUTGOING) (active : plci.state = .ACTIVE) (call : plci.plci = ncci.ncci &&& 0xffff)
    (route : toNcci env cmsg) (carries : Carries msg cmsg CAPI_DISCONNECT_B3_IND ncci.ncci) :
    ∃ t', step env t (.recv msg) = some t' ∧
      Apart s t' chan incoming (some { plci with state := .DISCONNECTING, ncciList := [] }) none (told ++ [.BHUP chan]) := by
  have found : Capidrv.findNcci t cmsg.adr = some (s.ncciNext, ncci) :=
    apart.findNcci only (carries.adr ▸ call) (decide_eq_true carries.adr.symm)
  have conn := apart.conn only plcip (here.trans same.symm)
  have handled : handleMessage env t cmsg (payload msg) = _ :=
    (handleMessage_disconnectB3Ind t (payload msg) route carries.message).trans
      (disconnectB3Ind_drops found conn phased known)
  have chan' : (ncci.after .DISCONNECT_B3_IND).chan = chan := (ncci.after_chan _).trans here
  have plcip' : (ncci.after .DISCONNECT_B3_IND).plcip = s.plciNext := (ncci.after_plcip _).trans plcip
  have leaving : plci.after .DISCONNECT_REQ = { plci with state := .DISCONNECTING } := by
    unfold Plci.after
    rw [active]
    rfl
  have moved := (apart.flag.setNcci (ncci.after .DISCONNECT_B3_IND)).answer env cmsg
  have dropped := moved.dropNcci env only plcip' chan'
  rw [leaving] at dropped
  rw [here] at handled
  exact ⟨_, carries.step handled, dropped.confirm cmsg⟩

/-- The call is over. -/
theorem disconnect_apart (apart : Apart s t chan incoming (some plci) none told) (here : plci.chan = chan) (phased : plci.Phased)
    (route : toPlci env cmsg) (carries : Carries msg cmsg CAPI_DISCONNECT_IND plci.plci) :
    ∃ t', step env t (.recv msg) = some t' ∧ Apart s t' chan false none none (told ++ [.DHUP chan]) ∧
      (t'.bchans chan).disconnecting = false := by
  have found : findPlciByPlci t cmsg.adr = some (s.plciNext, plci) :=
    apart.find (decide_eq_true carries.adr.symm)
  have handled : handleMessage env t cmsg (payload msg) = _ :=
    (handleMessage_disconnectInd t (payload msg) route carries.message).trans
      (disconnectInd_drops found phased (toPlci_adr route))
  rw [here] at handled
  have dropped := ((apart.flag.setPlci (plci.after .DISCONNECT_IND)).answer env cmsg).dropPlci here
  refine ⟨_, carries.step handled, dropped.confirm cmsg, ?_⟩
  have here' : (plci.after .DISCONNECT_IND).chan = chan := here
  simp [Card.dropPlci, here']

/-- A call with which data can flow is hung up, and the controller confirms the end of the connection and of the call. -/
theorem Apart.restored (apart : Apart s t chan incoming (some plci) (some ncci) told) {arg : Nat}
    (at_channel : channel env arg = some chan) (fresh : s.plcis s.plciNext = none ∧ s.nccis s.ncciNext = none)
    (call : plci.chan = chan ∧ plci.state = .ACTIVE ∧ plci.ncciList = [s.ncciNext])
    (conn : ncci.plcip = s.plciNext ∧ ncci.chan = chan ∧ ncci.state = .ACTIVE)
    (bchan : (t.bchans chan).nccip = some s.ncciNext ∧ (t.bchans chan).disconnecting = false)
    (number : plci.plci = ncci.ncci &&& 0xffff) {gone3 gone : Bytes}
    (ind3 : ∃ cmsg, toNcci env cmsg ∧ Carries gone3 cmsg CAPI_DISCONNECT_B3_IND ncci.ncci)
    (ind : ∃ cmsg, toPlci env cmsg ∧ Carries gone cmsg CAPI_DISCONNECT_IND plci.plci) :
    ∃ t', exec (step env) t [.command (.HANGUP arg), .recv gone3, .recv gone] = some t' ∧ Restored s t' chan ∧
      t'.status = t.status ++ [.BHUP chan, .DHUP chan] := by
  obtain ⟨home, up, only⟩ := call
  obtain ⟨plcip, here, active⟩ := conn
  obtain ⟨t₁, ncci₁, step₁, apart₁, plcip₁, chan₁, number₁, state₁, old₁⟩ :=
    hangup_apart apart at_channel bchan.2 bchan.1 active
  have phased : ncci₁.Phased := by
    refine ⟨?_, fun _ => ?_⟩
    · rw [state₁]
      decide
    · rw [old₁]
      decide
  have known : ncci₁.state ≠ .OUTGOING := by
    rw [state₁]
    decide
  obtain ⟨c₂, route₂, carries₂⟩ := ind3
  obtain ⟨t₂, step₂, apart₂⟩ := disconnectB3_apart apart₁ only (plcip₁.trans plcip) (chan₁.trans here) home phased known up
    (number₁ ▸ number) route₂ (number₁ ▸ carries₂)
  obtain ⟨c₃, route₃, carries₃⟩ := ind
  have leaving : PlciState.DISCONNECTING ∈ plciPhases := by decide
  obtain ⟨t₃, step₃, apart₃, clear⟩ := disconnect_apart apart₂ home ⟨leaving, fun outgoing => by cases outgoing⟩ route₃
    carries₃
  refine ⟨t₃, ?_, ⟨⟨apart₃.plcip, clear, apart₃.direction⟩, ?_, apart₃.plciList, ?_, apart₃.others⟩, ?_⟩
  · simp only [exec, step₁, step₂, step₃, Option.bind_some]
  · rw [apart₃.plcis]
    exact Function.update_eq_self_iff.2 fresh.1.symm
  · rw [apart₃.nccis]
    exact Function.update_eq_self_iff.2 fresh.2.symm
  · rw [apart₃.status, apart.status]
    simp

end Lifecycle

/-- What a controller says that goes along with a call: it accepts the call as `x`, connects it, accepts its connection
as `y`, lets data flow, and confirms the end of both. `msgid` is the number of the card's next message. -/
structure GoesAlong (env : Env) (msgid : UInt16) (x y : UInt32) (conf active conf3 active3 ind3 ind : Bytes) : Prop where
  plci : x &&& 0x7f = env.contrnr ∧ x &&& 0xffffff00 ≠ 0 ∧ x &&& 0xffff0000 = 0
  ncci : y &&& 0x7f = env.contrnr ∧ y &&& 0xffff0000 ≠ 0
  call : x = y &&& 0xffff
  conf : ∃ cmsg, Carries conf cmsg CAPI_CONNECT_CONF x ∧ cmsg.messagenumber = msgid ∧ cmsg.word .info = 0
  active : ∃ cmsg, Carries active cmsg CAPI_CONNECT_ACTIVE_IND x
  conf3 : ∃ cmsg, Carries conf3 cmsg CAPI_CONNECT_B3_CONF y ∧ cmsg.messagenumber = msgid + 1 ∧ cmsg.word .info = 0
  active3 : ∃ cmsg, Carries active3 cmsg CAPI_CONNECT_B3_ACTIVE_IND y
  ind3 : ∃ cmsg, Carries ind3 cmsg CAPI_DISCONNECT_B3_IND y
  ind : ∃ cmsg, Carries ind cmsg CAPI_DISCONNECT_IND x

/-- In every state that a card can reach, a call dialled on an idle line comes about if its number has an end:
isdn4linux is told that the line and the connection are up, and data can be sent on it. When isdn4linux hangs up it is
told that both are down; then the line is idle, and the records and the other lines are as they were before the call. -/
theorem call_completes (env : Env) (mem : ∀ t, env.kmalloc t = true) (ops : List Op) (s : Card)
    (run : exec (step env) Card.init ops = some s) {arg chan : Nat} (at_channel : channel env arg = some chan)
    (idle : Idle s chan) {phone : Msn} (ends : ¬ LeasedLine.EndlessLine env.undefined phone.chars) (eazmsn : Msn)
    (si1 si2 : UInt8) {x y : UInt32} {conf active conf3 active3 ind3 ind : Bytes}
    (along : GoesAlong env s.msgid x y conf active conf3 active3 ind3 ind) :
    ∃ s₁ s₂, exec (step env) s [.command (.DIAL arg phone eazmsn si1 si2), .recv conf, .recv active, .recv conf3,
        .recv active3] = some s₁ ∧
      exec (step env) s₁ [.command (.HANGUP arg), .recv ind3, .recv ind] = some s₂ ∧
      s₁.status = s.status ++ [.DCONN chan, .BCONN chan] ∧ s₂.status = s₁.status ++ [.BHUP chan, .DHUP chan] ∧
      (∃ n ncci, (s₁.bchans chan).nccip = some n ∧ s₁.nccis n = some ncci ∧ ncci.state = .ACTIVE ∧ ncci.ncci = y) ∧
      Restored s s₂ chan := by
  have valid : Valid env s := (always_of_inv (fun s op s' valid _ run => valid_step valid run) (valid_init env)
    (Meets.unconditional (step env) Card.init ops)).last run
  have toCall {cmsg : Cmsg} (adr : cmsg.adr = x) : toPlci env cmsg := by
    rw [toPlci, adr]
    exact along.plci
  have toConn {cmsg : Cmsg} (adr : cmsg.adr = y) : toNcci env cmsg := by
    rw [toNcci, adr]
    exact along.ncci
  -- the call and its connection come about
  obtain ⟨t₁, plci, step₁, apart₁, next₁, unflagged₁, msgid₁, number₁, chan₁, state₁, nccis₁⟩ :=
    dial_apart at_channel idle (mem _) ends eazmsn si1 si2 valid.fresh.2
  obtain ⟨c₂, carries₂, number₂, fine₂⟩ := along.conf
  obtain ⟨t₂, step₂, apart₂, next₂, bchans₂, msgid₂⟩ :=
    connectConf_apart apart₁ state₁ (toCall carries₂.adr) carries₂ (number₂.trans number₁.symm) fine₂
  obtain ⟨c₃, carries₃⟩ := along.active
  obtain ⟨t₃, ncci₃, step₃, apart₃, plcip₃, chan₃, state₃, number₃, unflagged₃, pointer₃⟩ :=
    connectActive_apart apart₂ rfl chan₁ nccis₁ (mem _) (next₂.trans next₁) (toCall carries₃.adr) carries₃
  obtain ⟨c₄, carries₄, number₄, fine₄⟩ := along.conf3
  have msgid₃ : ncci₃.msgid = s.msgid + 1 := number₃.trans (msgid₂.trans msgid₁)
  obtain ⟨t₄, ncci₄, step₄, apart₄, plcip₄, chan₄, y₄, state₄, bchans₄⟩ :=
    connectB3Conf_apart apart₃ rfl plcip₃ (chan₃.trans chan₁.symm) state₃ along.call (toConn carries₄.adr) carries₄
      (number₄.trans msgid₃.symm) fine₄
  obtain ⟨c₅, carries₅⟩ := along.active3
  obtain ⟨t₅, ncci₅, step₅, apart₅, plcip₅, chan₅, y₅, state₅, bchans₅⟩ :=
    connectB3Active_apart apart₄ rfl (chan₄.trans chan₃) state₄ (y₄ ▸ along.call) (toConn carries₅.adr) (y₄ ▸ carries₅)
  have pointer₅ : (t₅.bchans chan).nccip = some s.ncciNext := by rw [bchans₅, bchans₄, pointer₃]
  have unflagged₅ : (t₅.bchans chan).disconnecting = false := by
    rw [bchans₅, bchans₄, unflagged₃, bchans₂, unflagged₁]
  have number₅ : ncci₅.ncci = y := y₅.trans y₄
  -- both are taken down
  obtain ⟨c₇, carries₇⟩ := along.ind3
  obtain ⟨c₈, carries₈⟩ := along.ind
  obtain ⟨t₈, down, restored, told⟩ := apart₅.restored at_channel valid.fresh ⟨chan₁, rfl, rfl⟩
    ⟨plcip₅.trans (plcip₄.trans plcip₃), chan₅.trans (chan₄.trans chan₃), state₅⟩ ⟨pointer₅, unflagged₅⟩
    (number₅ ▸ along.call) ⟨c₇, toConn carries₇.adr, number₅ ▸ carries₇⟩ ⟨c₈, toCall carries₈.adr, carries₈⟩
  refine ⟨t₅, t₈, ?_, down, apart₅.status, told, ?_, restored⟩
  · simp only [exec, step₁, step₂, step₃, step₄, step₅, Option.bind_some]
  · exact ⟨s.ncciNext, ncci₅, pointer₅, by rw [apart₅.nccis, Function.update_self], state₅, number₅⟩

/-- The messages of a call that goes along where everything is granted. -/
theorem goesAlong_granting : GoesAlong Env.granting 0 0x101 0x10101
    (controllerMsg CAPI_CONNECT_CONF 0 [1, 1, 0, 0] [0, 0])
    (controllerMsg CAPI_CONNECT_ACTIVE_IND 0 [1, 1, 0, 0] [0, 0, 0])
    (controllerMsg CAPI_CONNECT_B3_CONF 1 [1, 1, 1, 0] [0, 0])
    (controllerMsg CAPI_CONNECT_B3_ACTIVE_IND 0 [1, 1, 1, 0] [0])
    (controllerMsg CAPI_DISCONNECT_B3_IND 0 [1, 1, 1, 0] [0, 0, 0])
    (controllerMsg CAPI_DISCONNECT_IND 0 [1, 1, 0, 0] [0, 0]) where
  plci := by decide
  ncci := by decide
  call := by decide
  conf := ⟨_, ⟨rfl, rfl, rfl⟩, rfl, rfl⟩
  active := ⟨_, ⟨rfl, rfl, rfl⟩⟩
  conf3 := ⟨_, ⟨rfl, rfl, rfl⟩, rfl, rfl⟩
  active3 := ⟨_, ⟨rfl, rfl, rfl⟩⟩
  ind3 := ⟨_, ⟨rfl, rfl, rfl⟩⟩
  ind := ⟨_, ⟨rfl, rfl, rfl⟩⟩

/-- A number of two digits. -/
def twelve : Msn := ⟨[49, 50], by decide, by decide⟩

/-- A call to it from beginning to end. -/
theorem call_completes_granting : ∃ s₁ s₂,
    exec (step Env.granting) Card.init [.command (.DIAL 0 twelve .empty 1 0),
      .recv (controllerMsg CAPI_CONNECT_CONF 0 [1, 1, 0, 0] [0, 0]),
      .recv (controllerMsg CAPI_CONNECT_ACTIVE_IND 0 [1, 1, 0, 0] [0, 0, 0]),
      .recv (controllerMsg CAPI_CONNECT_B3_CONF 1 [1, 1, 1, 0] [0, 0]),
      .recv (controllerMsg CAPI_CONNECT_B3_ACTIVE_IND 0 [1, 1, 1, 0] [0])] = some s₁ ∧
    exec (step Env.granting) s₁ [.command (.HANGUP 0),
      .recv (controllerMsg CAPI_DISCONNECT_B3_IND 0 [1, 1, 1, 0] [0, 0, 0]),
      .recv (controllerMsg CAPI_DISCONNECT_IND 0 [1, 1, 0, 0] [0, 0])] = some s₂ ∧
    s₂.status = s₁.status ++ [.BHUP 0, .DHUP 0] ∧ Idle s₂ 0 := by
  have ends : ¬ LeasedLine.EndlessLine Env.granting.undefined twelve.chars := by
    rw [← dialLine_none_iff]
    exact Option.some_ne_none (Sum.inl 1 : Int ⊕ Bytes)
  obtain ⟨s₁, s₂, up, down, -, told, -, restored⟩ := call_completes Env.granting (fun _ => rfl) [] Card.init rfl
    (show channel Env.granting 0 = some 0 from rfl) ⟨rfl, rfl, rfl⟩ ends .empty 1 0 goesAlong_granting
  exact ⟨s₁, s₂, up, down, told, restored.idle⟩

end Capi4Linux.Capidrv
