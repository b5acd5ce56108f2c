import Capi4Linux.Capidrv.Lifecycle

/-!
# An incoming call from beginning to end

The controller offers a call; isdn4linux lets it ring, accepts it, and the
controller connects it and its connection. The call has the first line that was
free, and once it is over nothing is left of it.
-/

namespace Capi4Linux.Capidrv
open Bytes Capicore Capiutil Machine

section Incoming

variable {env : Env} {s t : Card} {chan : Nat} {plci : Plci} {ncci : Ncci} {told : List Status} {msg : Bytes} {cmsg : Cmsg}

/-- The first line without a call. -/
structure FirstFree (env : Env) (s : Card) (chan : Nat) : Prop where
  inRange : chan < env.nbchan
  free : (s.bchans chan).plcip = none
  below : ∀ c, c < chan → (s.bchans c).plcip ≠ none

theorem FirstFree.found (first : FirstFree env s chan) :
    newBchan env s = some (s.setBchan chan { s.bchans chan with disconnecting := false }, chan) := by
  have search : (List.range env.nbchan).find? (fun i => (s.bchans i).plcip.isNone) = some chan := by
    apply List.find?_range_eq_some.2
    refine ⟨by rw [first.free]; rfl, List.mem_range.2 first.inRange, fun c below => ?_⟩
    simpa [Option.isSome_iff_ne_none] using first.below c below
  rw [newBchan, search]
  rfl

theorem offer_apart (fresh : s.nccis s.ncciNext = none) (x : UInt32) (setup : IncomingSetup) :
    Apart s ((s.offer chan x).statcallb (.ICALL chan setup)).asked chan true (some (incomingPlci chan x)) none
      [.ICALL chan setup] where
  plcis := rfl
  nccis := (Function.update_eq_self_iff.2 fresh.symm).symm
  plciList := rfl
  others c other := by
    show (s.offer chan x).bchans c = s.bchans c
    simp [Card.offer, Card.setBchan, Card.addPlci, incomingPlci, freshPlci, other]
  plcip := by
    show ((s.offer chan x).bchans chan).plcip = _
    rw [offer_bchan]
    rfl
  direction := by
    show ((s.offer chan x).bchans chan).incoming = true
    rw [offer_bchan]
  status := rfl

/-- The controller offers the call, and isdn4linux lets it ring. -/
theorem connectInd_apart (first : FirstFree env s chan) (mem : env.kmalloc s.tick = true)
    (rings : env.icall (s.tick + 1) = ([], 1)) (fresh : s.nccis s.ncciNext = none) {x : UInt32} (route : toPlci env cmsg)
    (carries : Carries msg cmsg CAPI_CONNECT_IND x) (fit : NumbersFit cmsg) :
    ∃ t plci, step env s (.recv msg) = some t ∧
      Apart s t chan true (some plci) none [.ICALL chan (callSetup cmsg)] ∧ t.ncciNext = s.ncciNext ∧
      (t.bchans chan).disconnecting = false ∧ plci.plci = x ∧ plci.chan = chan ∧ plci.state = .INCOMING ∧
      plci.ncciList = [] := by
  let offered := ((s.offer chan cmsg.adr).statcallb (.ICALL chan (callSetup cmsg))).asked
  have apart : Apart s offered chan true (some (incomingPlci chan cmsg.adr)) none [.ICALL chan (callSetup cmsg)] :=
    offer_apart fresh cmsg.adr (callSetup cmsg)
  have callback : incomingCallback env (s.offer chan cmsg.adr) chan (callSetup cmsg) = some (offered, 1) := by
    have asked : env.icall (s.offer chan cmsg.adr).tick = ([], 1) := rings
    unfold incomingCallback
    rw [asked]
    rfl
  have ringing : (incomingPlci chan cmsg.adr).state = .INCOMING := rfl
  have result : incomingResult env offered cmsg s.plciNext 1 = _ := incomingResult_waiting env apart.live.1
  rw [if_pos ringing] at result
  have handled := handleMessage_connectInd s (payload msg) route carries.message
  rw [handleIncomingCall_eq env first.found mem fit, callback, Option.bind_some, result] at handled
  have alerted := apart.setPlci { incomingPlci chan cmsg.adr with msgid := offered.msgid }
  have sent : Apart s (sendMessage env (offered.setPlci s.plciNext { incomingPlci chan cmsg.adr with
      msgid := offered.msgid }).nextMsgid (capiFillAlertReq env.applId offered.msgid cmsg.adr)) chan true
      (some { incomingPlci chan cmsg.adr with msgid := offered.msgid }) none [.ICALL chan (callSetup cmsg)] :=
    ⟨alerted.plcis, alerted.nccis, alerted.plciList, alerted.others, alerted.plcip, alerted.direction, alerted.status⟩
  refine ⟨_, _, carries.step handled, sent.confirm cmsg, ?_, ?_, carries.adr, rfl, rfl, rfl⟩
  · unfold Capidrv.confirm
    split <;> rfl
  · rw [confirm_bchans]
    show ((s.offer chan cmsg.adr).bchans chan).disconnecting = false
    rw [offer_bchan]

/-- isdn4linux accepts the call. -/
theorem acceptd_apart (apart : Apart s t chan true (some plci) none told) {arg : Nat}
    (at_channel : channel env arg = some chan) (ringing : plci.state = .INCOMING) :
    ∃ t', step env t (.command (.ACCEPTD arg)) = some t' ∧
      Apart s t' chan true (some { plci with state := .ACCEPTING }) none told ∧ t'.ncciNext = t.ncciNext ∧
      t'.bchans = t.bchans := by
  obtain ⟨live, listed⟩ := apart.live
  obtain ⟨cmsg, -, eq⟩ := commandAcceptd_eq env at_channel apart.plcip live listed
  have run : step env t (.command (.ACCEPTD arg)) = _ := congrArg (Option.map Prod.fst) eq
  have accepted : plci.after .CONNECT_RESP = { plci with state := .ACCEPTING } := by
    unfold Plci.after
    rw [ringing]
    rfl
  rw [accepted] at run
  have moved := apart.setPlci { plci with state := .ACCEPTING }
  exact ⟨_, run, ⟨moved.plcis, moved.nccis, moved.plciList, moved.others, moved.plcip, moved.direction, moved.status⟩,
    rfl, rfl⟩

/-- The controller connects an accepted call, and the card waits for the connection. -/
theorem connectActive_incoming (apart : Apart s t chan true (some plci) none told) (accepted : plci.state = .ACCEPTING)
    (here : plci.chan = chan) (route : toPlci env cmsg) (carries : Carries msg cmsg CAPI_CONNECT_ACTIVE_IND plci.plci) :
    ∃ t', step env t (.recv msg) = some t' ∧ Apart s t' chan true (some { plci with state := .ACTIVE }) none told ∧
      t'.ncciNext = t.ncciNext ∧ t'.bchans = t.bchans := by
  have found : findPlciByPlci t cmsg.adr = some (s.plciNext, plci) :=
    apart.find (decide_eq_true carries.adr.symm)
  have incoming : (t.bchans plci.chan).incoming = true := by
    rw [here]
    exact apart.direction
  have handled : handleMessage env t cmsg (payload msg) = _ :=
    (handleMessage_connectActiveInd t (payload msg) route carries.message).trans
      (connectActiveInd_incoming env found incoming)
  have active : plci.after .CONNECT_ACTIVE_IND = { plci with state := .ACTIVE } := by
    unfold Plci.after
    rw [accepted]
    rfl
  rw [active] at handled
  refine ⟨_, carries.step handled, ((apart.answer env cmsg).setPlci _).confirm cmsg, ?_, confirm_bchans env _ cmsg⟩
  unfold Capidrv.confirm
  split <;> rfl

/-- The controller offers a connection for the call, and it is accepted. -/
theorem connectB3Ind_apart (apart : Apart s t chan true (some plci) none told) (here : plci.chan = chan)
    (none_yet : plci.ncciList = []) (mem : env.kmalloc t.tick = true) (next : t.ncciNext = s.ncciNext) {y : UInt32}
    (call : plci.plci = y &&& 0xffff) (route : toNcci env cmsg) (carries : Carries msg cmsg CAPI_CONNECT_B3_IND y) :
    ∃ t' ncci, step env t (.recv msg) = some t' ∧
      Apart s t' chan true (some { plci with ncciList := [s.ncciNext] }) (some ncci) told ∧
      ncci.plcip = s.plciNext ∧ ncci.chan = chan ∧ ncci.state = .ALLOCATED ∧ ncci.ncci = y ∧
      (t'.bchans chan).disconnecting = (t.bchans chan).disconnecting ∧ (t'.bchans chan).nccip = some s.ncciNext := by
  have found : findPlciByNcci t cmsg.adr = some (s.plciNext, plci) :=
    apart.find (decide_eq_true (carries.adr ▸ call))
  have handled : handleMessage env t cmsg (payload msg) = _ :=
    (handleMessage_connectB3Ind t (payload msg) route carries.message).trans (connectB3Ind_eq env found mem)
  have bchan : (confirm env (connectB3Resp env (t.addNcci plci { freshNcci s.plciNext plci.chan cmsg.adr with
      state := .ALLOCATED, oldstate := .INCOMING }) cmsg.adr 0) cmsg).bchans chan =
      { t.bchans chan with nccip := some s.ncciNext } := by
    rw [confirm_bchans]
    show Function.update t.bchans plci.chan { t.bchans plci.chan with nccip := some t.ncciNext } chan = _
    rw [here, Function.update_self, next]
  refine ⟨_, { freshNcci s.plciNext plci.chan cmsg.adr with state := .ALLOCATED, oldstate := .INCOMING },
    carries.step handled, Apart.confirm ?_ cmsg, rfl, here, rfl, carries.adr, ?_, ?_⟩
  · refine ⟨?_, ?_, apart.plciList, fun c other => ?_, ?_, ?_, apart.status⟩
    · show Function.update t.plcis s.plciNext (some { plci with ncciList := t.ncciNext :: plci.ncciList }) = _
      rw [apart.plcis, Function.update_idem, none_yet, next]
    · show Function.update t.nccis t.ncciNext _ = _
      rw [apart.nccis, next, Function.update_idem]
    · show Function.update t.bchans plci.chan _ c = _
      rw [here, Function.update_of_ne other]
      exact apart.others c other
    · show (Function.update t.bchans plci.chan { t.bchans plci.chan with nccip := some t.ncciNext } chan).plcip = _
      rw [here, Function.update_self]
      exact apart.plcip
    · show (Function.update t.bchans plci.chan { t.bchans plci.chan with nccip := some t.ncciNext } chan).incoming = _
      rw [here, Function.update_self]
      exact apart.direction
  · rw [bchan]
  · rw [bchan]

end Incoming

/-- What a controller says that brings a call: it offers the call `x` with numbers that fit, connects it when it is
accepted, offers a connection `y` for it, lets data flow, and confirms the end of both. -/
structure Brings (env : Env) (x y : UInt32) (call : Cmsg) (ind active ind3 active3 gone3 gone : Bytes) : Prop where
  plci : x &&& 0x7f = env.contrnr ∧ x &&& 0xffffff00 ≠ 0 ∧ x &&& 0xffff0000 = 0
  ncci : y &&& 0x7f = env.contrnr ∧ y &&& 0xffff0000 ≠ 0
  number : x = y &&& 0xffff
  ind : Carries ind call CAPI_CONNECT_IND x
  fit : NumbersFit call
  active : ∃ cmsg, Carries active cmsg CAPI_CONNECT_ACTIVE_IND x
  ind3 : ∃ cmsg, Carries ind3 cmsg CAPI_CONNECT_B3_IND y
  active3 : ∃ cmsg, Carries active3 cmsg CAPI_CONNECT_B3_ACTIVE_IND y
  gone3 : ∃ cmsg, Carries gone3 cmsg CAPI_DISCONNECT_B3_IND y
  gone : ∃ cmsg, Carries gone cmsg CAPI_DISCONNECT_IND x

/-- In every state that a card can reach, an offered call that rings gets the first line without a call. When
isdn4linux accepts it and the controller connects it, data can be sent on the line; when isdn4linux hangs up, the line is
idle again, and the records and the other lines are as they were before the call. -/
theorem incoming_completes (env : Env) (mem : ∀ t, env.kmalloc t = true) (ops : List Op) (s : Card)
    (run : exec (step env) Card.init ops = some s) {chan : Nat} (first : FirstFree env s chan)
    (rings : env.icall (s.tick + 1) = ([], 1)) {arg : Nat} (at_channel : channel env arg = some chan) {x y : UInt32}
    {call : Cmsg} {ind active ind3 active3 gone3 gone : Bytes}
    (brings : Brings env x y call ind active ind3 active3 gone3 gone) :
    ∃ s₁ s₂, exec (step env) s [.recv ind, .command (.ACCEPTD arg), .recv active, .recv ind3, .recv active3] = some s₁ ∧
      exec (step env) s₁ [.command (.HANGUP arg), .recv gone3, .recv gone] = some s₂ ∧
      s₁.status = s.status ++ [.ICALL chan (callSetup call), .BCONN chan] ∧
      s₂.status = s₁.status ++ [.BHUP chan, .DHUP chan] ∧
      (∃ n ncci, (s₁.bchans chan).nccip = some n ∧ s₁.nccis n = some ncci ∧ ncci.state = .ACTIVE ∧ ncci.ncci = y) ∧
      Restored s s₂ chan := by
  have valid : Valid env s := (always_of_inv (fun s op s' valid _ run => valid_step valid run) (valid_init env)
    (Meets.unconditional (step env) Card.init ops)).last run
  have toCall {cmsg : Cmsg} (adr : cmsg.adr = x) : toPlci env cmsg := by
    rw [toPlci, adr]
    exact brings.plci
  have toConn {cmsg : Cmsg} (adr : cmsg.adr = y) : toNcci env cmsg := by
    rw [toNcci, adr]
    exact brings.ncci
  -- the call and its connection come about
  obtain ⟨t₁, plci, step₁, apart₁, next₁, unflagged₁, number₁, chan₁, state₁, nccis₁⟩ :=
    connectInd_apart first (mem _) rings valid.fresh.2 (toCall brings.ind.adr) brings.ind brings.fit
  obtain ⟨t₂, step₂, apart₂, next₂, bchans₂⟩ := acceptd_apart apart₁ at_channel state₁
  obtain ⟨c₃, carries₃⟩ := brings.active
  obtain ⟨t₃, step₃, apart₃, next₃, bchans₃⟩ :=
    connectActive_incoming apart₂ rfl chan₁ (toCall carries₃.adr) (number₁ ▸ carries₃)
  obtain ⟨c₄, carries₄⟩ := brings.ind3
  have next : t₃.ncciNext = s.ncciNext := next₃.trans (next₂.trans next₁)
  obtain ⟨t₄, ncci₄, step₄, apart₄, plcip₄, chan₄, state₄, y₄, unflagged₄, pointer₄⟩ :=
    connectB3Ind_apart apart₃ chan₁ nccis₁ (mem _) next (number₁.trans brings.number) (toConn carries₄.adr) carries₄
  obtain ⟨c₅, carries₅⟩ := brings.active3
  have number₄ : plci.plci = ncci₄.ncci &&& 0xffff := by rw [number₁, y₄, brings.number]
  obtain ⟨t₅, ncci₅, step₅, apart₅, plcip₅, chan₅, y₅, state₅, bchans₅⟩ :=
    connectB3Active_apart apart₄ rfl chan₄ state₄ number₄ (toConn carries₅.adr) (y₄ ▸ carries₅)
  have pointer₅ : (t₅.bchans chan).nccip = some s.ncciNext := by rw [bchans₅, pointer₄]
  have unflagged₅ : (t₅.bchans chan).disconnecting = false := by rw [bchans₅, unflagged₄, bchans₃, bchans₂, unflagged₁]
  have number₅ : ncci₅.ncci = y := y₅.trans y₄
  have both : plci.plci = ncci₅.ncci &&& 0xffff := by rw [number₁, number₅, brings.number]
  -- both are taken down
  obtain ⟨c₇, carries₇⟩ := brings.gone3
  obtain ⟨c₈, carries₈⟩ := brings.gone
  obtain ⟨t₈, down, restored, told⟩ := apart₅.restored at_channel valid.fresh ⟨chan₁, rfl, rfl⟩
    ⟨plcip₅.trans plcip₄, chan₅.trans chan₄, state₅⟩ ⟨pointer₅, unflagged₅⟩ both
    ⟨c₇, toConn carries₇.adr, number₅ ▸ carries₇⟩ ⟨c₈, toCall carries₈.adr, number₁ ▸ carries₈⟩
  refine ⟨t₅, t₈, ?_, down, apart₅.status, told, ?_, restored⟩
  · simp only [exec, step₁, step₂, step₃, step₄, step₅, Option.bind_some]
  · exact ⟨s.ncciNext, ncci₅, pointer₅, by rw [apart₅.nccis, Function.update_self], state₅, number₅⟩

/-- A voice call to the number 12 from the number 345. -/
def voiceCall : Bytes :=
  controllerMsg CAPI_CONNECT_IND 0 [1, 1, 0, 0] [1, 0, 3, 0x81, 49, 50, 5, 0x21, 0x83, 51, 52, 53, 0, 0, 0, 0, 0, 0]

theorem brings_granting : ∃ call, capiMessage2cmsg voiceCall = some call ∧
    Brings Env.granting 0x101 0x10101 call voiceCall
      (controllerMsg CAPI_CONNECT_ACTIVE_IND 0 [1, 1, 0, 0] [0, 0, 0])
      (controllerMsg CAPI_CONNECT_B3_IND 0 [1, 1, 1, 0] [0])
      (controllerMsg CAPI_CONNECT_B3_ACTIVE_IND 0 [1, 1, 1, 0] [0])
      (controllerMsg CAPI_DISCONNECT_B3_IND 0 [1, 1, 1, 0] [0, 0, 0])
      (controllerMsg CAPI_DISCONNECT_IND 0 [1, 1, 0, 0] [0, 0]) :=
  ⟨_, rfl, {
    plci := by decide
    ncci := by decide
    number := by decide
    ind := ⟨rfl, rfl, rfl⟩
    fit := of_decide_eq_true rfl
    active := ⟨_, ⟨rfl, rfl, rfl⟩⟩
    ind3 := ⟨_, ⟨rfl, rfl, rfl⟩⟩
    active3 := ⟨_, ⟨rfl, rfl, rfl⟩⟩
    gone3 := ⟨_, ⟨rfl, rfl, rfl⟩⟩
    gone := ⟨_, ⟨rfl, rfl, rfl⟩⟩ }⟩

/-- isdn4linux is told both numbers of the call. -/
theorem incoming_completes_granting : ∃ s₁ s₂,
    exec (step Env.granting) Card.init [.recv voiceCall, .command (.ACCEPTD 0),
      .recv (controllerMsg CAPI_CONNECT_ACTIVE_IND 0 [1, 1, 0, 0] [0, 0, 0]),
      .recv (controllerMsg CAPI_CONNECT_B3_IND 0 [1, 1, 1, 0] [0]),
      .recv (controllerMsg CAPI_CONNECT_B3_ACTIVE_IND 0 [1, 1, 1, 0] [0])] = some s₁ ∧
    exec (step Env.granting) s₁ [.command (.HANGUP 0),
      .recv (controllerMsg CAPI_DISCONNECT_B3_IND 0 [1, 1, 1, 0] [0, 0, 0]),
      .recv (controllerMsg CAPI_DISCONNECT_IND 0 [1, 1, 0, 0] [0, 0])] = some s₂ ∧
    s₁.status = [.ICALL 0 ⟨[51, 52, 53], [49, 50], 1, 0, 0x21, 0x83⟩, .BCONN 0] ∧
    s₂.status = s₁.status ++ [.BHUP 0, .DHUP 0] ∧ Restored Card.init s₂ 0 := by
  obtain ⟨call, decoded, brings⟩ := brings_granting
  have setup : (capiMessage2cmsg voiceCall).map callSetup = some ⟨[51, 52, 53], [49, 50], 1, 0, 0x21, 0x83⟩ := rfl
  rw [decoded, Option.map_some, Option.some.injEq] at setup
  obtain ⟨s₁, s₂, up, down, rings, told, -, restored⟩ := incoming_completes Env.granting (fun _ => rfl) [] Card.init rfl
    ⟨by decide, rfl, fun c below => absurd below (Nat.not_lt_zero c)⟩ rfl (show channel Env.granting 0 = some 0 from rfl) brings
  rw [setup] at rings
  exact ⟨s₁, s₂, up, down, rings, told, restored⟩

end Capi4Linux.Capidrv
