import Capi4Linux.Capidrv.Phases

/-!
# Effects and reactions

One constructor for each way in which a command, a message or a block of data
changes the calls of a card, with what was found in the tables. Everything else
is calm.
-/

namespace Capi4Linux.Capidrv
open Bytes Capicore Capiutil

/-! ## Steps that leave the calls as they are -/

/-- The data transfer of a connection is forgotten. -/
def Ncci.still (ncci : Ncci) : Ncci := { ncci with datahandle := 0, ackqueue := [] }

/-- All but the queue of unacknowledged data is as it was. -/
theorem Ncci.of_still {a b : Ncci} (same : a.still = b.still) : a.plcip = b.plcip ∧ a.ncci = b.ncci ∧
    a.msgid = b.msgid ∧ a.chan = b.chan ∧ a.state = b.state ∧ a.oldstate = b.oldstate := by
  simp only [Ncci.still, Ncci.mk.injEq] at same
  obtain ⟨plcip, ncci, msgid, chan, state, oldstate, -⟩ := same
  exact ⟨plcip, ncci, msgid, chan, state, oldstate⟩

/-- A channel is replaced by one with the same value of a field. -/
theorem field_update {α : Type} (field : Bchan → α) {bchans : Nat → Bchan} {chan : Nat} {bchan : Bchan}
    (same : field bchan = field (bchans chan)) (c : Nat) :
    field (Function.update bchans chan bchan c) = field (bchans c) := by
  rcases eq_or_ne c chan with rfl | other
  · rw [Function.update_self, same]
  · rw [Function.update_of_ne other]

/-- Calls, connections and channels are as before. -/
structure Calm (s s' : Card) : Prop where
  plcip : ∀ c, (s'.bchans c).plcip = (s.bchans c).plcip
  nccip : ∀ c, (s'.bchans c).nccip = (s.bchans c).nccip
  disconnecting : ∀ c, (s'.bchans c).disconnecting = (s.bchans c).disconnecting
  incoming : ∀ c, (s'.bchans c).incoming = (s.bchans c).incoming
  plcis : s'.plcis = s.plcis
  plciNext : s'.plciNext = s.plciNext
  plciList : s'.plciList = s.plciList
  freed : s'.freed = s.freed
  nccis : ∀ n, (s'.nccis n).map Ncci.still = (s.nccis n).map Ncci.still
  ncciNext : s'.ncciNext = s.ncciNext
  outstanding : s'.outstanding = s.outstanding

section Calm

variable {s s' s'' : Card} {n : Nat} {ncci ncci' : Ncci}

theorem Calm.refl (s : Card) : Calm s s :=
  ⟨fun _ => rfl, fun _ => rfl, fun _ => rfl, fun _ => rfl, rfl, rfl, rfl, rfl, fun _ => rfl, rfl, rfl⟩

theorem Calm.trans (calm : Calm s s') (calm' : Calm s' s'') : Calm s s'' where
  plcip c := (calm'.plcip c).trans (calm.plcip c)
  nccip c := (calm'.nccip c).trans (calm.nccip c)
  disconnecting c := (calm'.disconnecting c).trans (calm.disconnecting c)
  incoming c := (calm'.incoming c).trans (calm.incoming c)
  plcis := calm'.plcis.trans calm.plcis
  plciNext := calm'.plciNext.trans calm.plciNext
  plciList := calm'.plciList.trans calm.plciList
  freed := calm'.freed.trans calm.freed
  nccis n := (calm'.nccis n).trans (calm.nccis n)
  ncciNext := calm'.ncciNext.trans calm.ncciNext
  outstanding := calm'.outstanding.trans calm.outstanding

/-- The connection before a calm step. -/
theorem Calm.before (calm : Calm s s') (live : s'.nccis n = some ncci') :
    ∃ ncci, s.nccis n = some ncci ∧ ncci'.still = ncci.still := by
  have same := calm.nccis n
  rw [live, Option.map_some] at same
  obtain ⟨ncci, found, eq⟩ := Option.map_eq_some_iff.mp same.symm
  exact ⟨ncci, found, eq.symm⟩

/-- The connection after a calm step. -/
theorem Calm.after (calm : Calm s s') (live : s.nccis n = some ncci) :
    ∃ ncci', s'.nccis n = some ncci' ∧ ncci'.still = ncci.still := by
  have same := calm.nccis n
  rw [live, Option.map_some] at same
  exact Option.map_eq_some_iff.mp same

/-- No record has come or gone, and no pointer was set. -/
theorem Calm.links (calm : Calm s s') : s'.links = s.links := by
  have conns : ∀ n, (s'.nccis n).map (fun ncci => (ncci.plcip, ncci.chan)) =
      (s.nccis n).map fun ncci => (ncci.plcip, ncci.chan) := by
    intro n
    have same := congrArg (Option.map fun ncci : Ncci => (ncci.plcip, ncci.chan)) (calm.nccis n)
    rw [Option.map_map, Option.map_map] at same
    exact same
  unfold Card.links
  rw [funext calm.plcip, funext calm.nccip, funext conns, calm.plcis, calm.plciNext, calm.plciList, calm.freed,
    calm.ncciNext]

/-- Protocols, numbers and service indicators of a channel may change. -/
theorem Calm.setBchan (s : Card) (chan : Nat) {bchan : Bchan} (plcip : bchan.plcip = (s.bchans chan).plcip)
    (nccip : bchan.nccip = (s.bchans chan).nccip) (disconnecting : bchan.disconnecting = (s.bchans chan).disconnecting)
    (incoming : bchan.incoming = (s.bchans chan).incoming) : Calm s (s.setBchan chan bchan) := by
  have same : ∀ {α : Type} (field : Bchan → α), field bchan = field (s.bchans chan) →
      ∀ c, field ((s.setBchan chan bchan).bchans c) = field (s.bchans c) := fun field => field_update field
  exact ⟨same _ plcip, same _ nccip, same _ disconnecting, same _ incoming, rfl, rfl, rfl, rfl, fun _ => rfl, rfl, rfl⟩

/-- The queue of unacknowledged data of a connection may change. -/
theorem Calm.setNcci (live : s.nccis n = some ncci) (same : ncci'.still = ncci.still) : Calm s (s.setNcci n ncci') := by
  have nccis : ∀ m, ((s.setNcci n ncci').nccis m).map Ncci.still = (s.nccis m).map Ncci.still := by
    intro m
    show (Function.update s.nccis n (some ncci') m).map Ncci.still = (s.nccis m).map Ncci.still
    rcases eq_or_ne m n with rfl | other
    · rw [Function.update_self, live, Option.map_some, same, Option.map_some]
    · rw [Function.update_of_ne other]
  exact ⟨fun _ => rfl, fun _ => rfl, fun _ => rfl, fun _ => rfl, rfl, rfl, rfl, rfl, nccis, rfl, rfl⟩

/-- The fields besides calls, connections and channels may change. -/
theorem Calm.others (s : Card) (tick : Nat) (state : ListenState) (msgid : UInt16) (q931Buf : Nat → UInt8)
    (q931Read q931Write : Nat) (sent : List Sent) (status : List Status) (received : List (Nat × Bytes))
    (named : List (Nat × UInt32)) :
    Calm s { s with tick, state, msgid, q931Buf, q931Read, q931Write, sent, status, received, named } :=
  ⟨fun _ => rfl, fun _ => rfl, fun _ => rfl, fun _ => rfl, rfl, rfl, rfl, rfl, fun _ => rfl, rfl, rfl⟩

end Calm

/-! ## Messages that name a connection -/

def CAPI_DISCONNECT_B3_REQ : UInt8 × UInt8 := (CAPI_DISCONNECT_B3, CAPI_REQ)
def CAPI_DATA_B3_REQ : UInt8 × UInt8 := (CAPI_DATA_B3, CAPI_REQ)

/-- A DISCONNECT_B3_REQ or a DATA_B3_REQ. -/
def names (cmsg : Cmsg) : Bool := cmd cmsg = CAPI_DISCONNECT_B3_REQ || cmd cmsg = CAPI_DATA_B3_REQ

/-- Messages are sent, and the capicore answers them in order. -/
def Posts (env : Env) (s s' : Card) : Prop :=
  ∃ news, s'.sent = s.sent ++ news ∧ ∀ k e, news[k]? = some e → e.info = env.put (s.sent.length + k)

namespace Posts

variable {env : Env} {s s' s'' : Card}

theorem of_eq (env : Env) (sent : s'.sent = s.sent) : Posts env s s' :=
  ⟨[], by rw [sent, List.append_nil], nofun⟩

theorem trans (posts : Posts env s s') (posts' : Posts env s' s'') : Posts env s s'' := by
  obtain ⟨news, sent, answers⟩ := posts
  obtain ⟨news', sent', answers'⟩ := posts'
  refine ⟨news ++ news', by rw [sent', sent, List.append_assoc], ?_⟩
  intro k e found
  rcases Nat.lt_or_ge k news.length with early | late
  · rw [List.getElem?_append_left early] at found
    exact answers k e found
  · rw [List.getElem?_append_right late] at found
    rw [answers' _ e found, sent, List.length_append]
    congr 1
    omega

/-- The message sent last is answered by the capicore like any other. -/
theorem one {e : Sent} (sent : s'.sent = s.sent ++ [e]) (info : e.info = env.put s.sent.length) : Posts env s s' := by
  refine ⟨[e], sent, ?_⟩
  intro k e' found
  cases k with
  | zero =>
    cases found
    exact info
  | succ k => cases found

end Posts

/-- No connection is named in what is sent. -/
structure Silent (env : Env) (s s' : Card) : Prop where
  sent : ∃ news, s'.sent = s.sent ++ news ∧ ∀ e ∈ news, names e.cmsg = false
  posts : Posts env s s'
  named : s'.named = s.named

namespace Silent

variable {env : Env} {s s' s'' : Card}

theorem of_eq (env : Env) (sent : s'.sent = s.sent) (named : s'.named = s.named) : Silent env s s' :=
  ⟨⟨[], by rw [sent, List.append_nil], fun _ member => absurd member List.not_mem_nil⟩, Posts.of_eq env sent, named⟩

theorem refl (env : Env) (s : Card) : Silent env s s := of_eq env rfl rfl

theorem trans (silent : Silent env s s') (silent' : Silent env s' s'') : Silent env s s'' := by
  obtain ⟨⟨news, sent, quiet⟩, posts, named⟩ := silent
  obtain ⟨⟨news', sent', quiet'⟩, posts', named'⟩ := silent'
  refine ⟨⟨news ++ news', ?_, ?_⟩, posts.trans posts', named'.trans named⟩
  · rw [sent', sent, List.append_assoc]
  · intro e member
    rcases List.mem_append.mp member with first | second
    · exact quiet e first
    · exact quiet' e second

/-- A message that names no connection is sent. -/
theorem sendMessage (env : Env) (s : Card) {cmsg : Cmsg} (other : names cmsg = false) :
    Silent env s (sendMessage env s cmsg) := by
  refine ⟨⟨[⟨cmsg, [], env.put s.sent.length⟩], rfl, ?_⟩, Posts.one rfl rfl, rfl⟩
  intro e member
  rw [List.mem_singleton.mp member]
  exact other

end Silent

/-! ## Commands -/

/-- What a command of isdn4linux does. -/
inductive Effect (env : Env) (s : Card) : Command → Card → Prop where
  | calm {command : Command} {s' : Card} (calm : Calm s s') (silent : Silent env s s') : Effect env s command s'
  | dial {arg chan : Nat} {phone eazmsn : Msn} {si1 si2 : UInt8} {line : Int ⊕ Bytes}
      (at_channel : channel env arg = some chan) (free : (s.bchans chan).plcip = none)
      (mem : env.kmalloc s.tick = true) (parsed : dialLine env phone = some line) :
      Effect env s (.DIAL arg phone eazmsn si1 si2)
        { sendMessage env ((s.dialed chan phone eazmsn si1 si2).nextMsgid.addPlci
              { freshPlci chan with msgid := s.msgid, leasedline := line.isRight, state := .OUTGOING })
            (dialConnectReq env s.msgid ((s.dialed chan phone eazmsn si1 si2).bchans chan) line) with
          outstanding := s.outstanding ++ [(s.msgid, .plci s.plciNext)] }
  | acceptd {arg chan p : Nat} {plci : Plci} {cmsg : Cmsg}
      (at_channel : channel env arg = some chan) (call : (s.bchans chan).plcip = some p)
      (live : s.plcis p = some plci) (message : cmd cmsg = (CAPI_CONNECT, CAPI_RESP)) :
      Effect env s (.ACCEPTD arg) (sendMessage env (s.nextMsgid.setPlci p (plci.after .CONNECT_RESP)) cmsg)
  | hangupNcci {arg chan n : Nat} {ncci : Ncci}
      (at_channel : channel env arg = some chan) (unflagged : (s.bchans chan).disconnecting = false)
      (conn : (s.bchans chan).nccip = some n) (live : s.nccis n = some ncci) : Effect env s (.HANGUP arg)
        { sendMessage env ((s.flag chan).nextMsgid.setNcci n (ncci.after .DISCONNECT_B3_REQ))
            (capiFillDisconnectB3Req env.applId s.msgid ncci.ncci) with
          named := s.named ++ [(chan, ncci.ncci)] }
  | hangupIncoming {arg chan p : Nat} {plci : Plci}
      (at_channel : channel env arg = some chan) (unflagged : (s.bchans chan).disconnecting = false)
      (noconn : (s.bchans chan).nccip = none) (call : (s.bchans chan).plcip = some p)
      (live : s.plcis p = some plci) (waiting : plci.state = .INCOMING) : Effect env s (.HANGUP arg) (s.flag chan)
  | hangupPlci {arg chan p : Nat} {plci : Plci}
      (at_channel : channel env arg = some chan) (unflagged : (s.bchans chan).disconnecting = false)
      (noconn : (s.bchans chan).nccip = none) (call : (s.bchans chan).plcip = some p)
      (live : s.plcis p = some plci) (answered : plci.state ≠ .INCOMING) (known : plci.plci ≠ 0) :
      Effect env s (.HANGUP arg)
        (sendMessage env ((s.flag chan).nextMsgid.setPlci p (plci.after .DISCONNECT_REQ))
          (capiFillDisconnectReq env.applId s.msgid plci.plci))

section Commands

variable {env : Env} {s s' : Card} {arg : Nat} {res : Int}

/-- A dial is ignored, turned away, or begins a call. -/
theorem Effect.of_dial {phone eazmsn : Msn} {si1 si2 : UInt8}
    (run : commandDial env s arg phone eazmsn si1 si2 = some (s', res)) :
    Effect env s (.DIAL arg phone eazmsn si1 si2) s' := by
  obtain ⟨chan, at_channel, -⟩ := Option.bind_eq_some_iff.mp run
  cases free : (s.bchans chan).plcip with
  | some p =>
    have busy : (s.bchans chan).plcip.isSome = true := by rw [free]; rfl
    cases run.symm.trans (commandDial_busy env at_channel busy phone eazmsn si1 si2)
    exact .calm (Calm.refl s) (Silent.refl env s)
  | none =>
    obtain ⟨line, parsed⟩ := dialLine_of_run env run at_channel free
    cases mem : env.kmalloc s.tick with
    | false =>
      cases run.symm.trans (commandDial_nomem env at_channel free mem parsed eazmsn si1 si2)
      have dialed : Calm s (s.dialed chan phone eazmsn si1 si2) := Calm.setBchan s chan rfl rfl rfl rfl
      exact .calm (dialed.trans (Calm.others _ _ _ _ _ _ _ _ _ _ _)) (Silent.of_eq env rfl rfl)
    | true =>
      cases run.symm.trans (commandDial_eq env at_channel free mem parsed eazmsn si1 si2)
      exact .dial at_channel free mem parsed

/-- An accepted call goes on to ACCEPTING. -/
theorem Effect.of_acceptd (wired : Wired env.nbchan s.links) (run : commandAcceptd env s arg = some (s', res)) :
    Effect env s (.ACCEPTD arg) s' := by
  obtain ⟨chan, at_channel, rest⟩ := Option.bind_eq_some_iff.mp run
  obtain ⟨p, call, rest⟩ := Option.bind_eq_some_iff.mp rest
  obtain ⟨plci, live, -⟩ := Option.bind_eq_some_iff.mp rest
  obtain ⟨cmsg, ⟨message, -⟩, eq⟩ := commandAcceptd_eq env at_channel call live (wired.listedPlci live)
  cases run.symm.trans eq
  exact .acceptd at_channel call live message

/-- A hang-up is ignored, or releases the connection, else the call. -/
theorem Effect.of_hangup (wired : Wired env.nbchan s.links) (run : commandHangup env s arg = some (s', res)) :
    Effect env s (.HANGUP arg) s' := by
  obtain ⟨chan, at_channel, -⟩ := Option.bind_eq_some_iff.mp run
  have quiet : ∀ {res}, commandHangup env s arg = some (s, res) → Effect env s (.HANGUP arg) s' := by
    intro res eq
    cases run.symm.trans eq
    exact .calm (Calm.refl s) (Silent.refl env s)
  cases unflagged : (s.bchans chan).disconnecting with
  | true => exact quiet (commandHangup_flagged env at_channel unflagged)
  | false =>
    cases conn : (s.bchans chan).nccip with
    | some n =>
      obtain ⟨p, link⟩ := wired.nccip chan n conn
      obtain ⟨ncci, live, -⟩ := nccis_of_links link
      cases run.symm.trans (commandHangup_ncci env at_channel unflagged conn live)
      exact .hangupNcci at_channel unflagged conn live
    | none =>
      cases call : (s.bchans chan).plcip with
      | none =>
        obtain ⟨res, eq⟩ := commandHangup_free env at_channel conn call
        exact quiet eq
      | some p =>
        obtain ⟨ns, link⟩ := wired.owner chan p call
        obtain ⟨plci, live, -⟩ := plcis_of_links link
        have eq := commandHangup_plci env at_channel unflagged conn call live (wired.listedPlci live)
        split at eq
        · rename_i waiting
          cases run.symm.trans eq
          exact .hangupIncoming at_channel unflagged conn call live waiting
        · rename_i answered
          split at eq
          · rename_i known
            cases run.symm.trans eq
            exact .hangupPlci at_channel unflagged conn call live answered known
          · exact quiet eq

/-- Settings of a channel touch nothing else. -/
theorem Effect.of_set {set : Bchan → Bchan} {command : Command}
    (run : commandSet env s arg set = some (s', res))
    (kept : ∀ bchan : Bchan, (set bchan).plcip = bchan.plcip ∧ (set bchan).nccip = bchan.nccip ∧
      (set bchan).disconnecting = bchan.disconnecting ∧ (set bchan).incoming = bchan.incoming) :
    Effect env s command s' := by
  obtain ⟨chan, at_channel, rest⟩ := Option.bind_eq_some_iff.mp run
  cases rest
  obtain ⟨plcip, nccip, disconnecting, incoming⟩ := kept (s.bchans chan)
  exact .calm (Calm.setBchan s chan plcip nccip disconnecting incoming) (Silent.of_eq env rfl rfl)

/-- Every command of isdn4linux has one of these effects. -/
theorem Effect.of_run (wired : Wired env.nbchan s.links) {command : Command}
    (run : capidrvCommand env s command = some (s', res)) : Effect env s command s' := by
  cases command with
  | DIAL => exact Effect.of_dial run
  | ACCEPTD => exact Effect.of_acceptd wired run
  | HANGUP => exact Effect.of_hangup wired run
  | SETL2 | SETL3 | SETEAZ | CLREAZ =>
    unfold capidrvCommand at run
    exact Effect.of_set run fun _ => ⟨rfl, rfl, rfl, rfl⟩
  | IOCTL | ACCEPTB | other =>
    cases run
    exact .calm (Calm.refl s) (Silent.refl env s)

end Commands

/-! ## Messages -/

/-- The message is for a PLCI of the card. -/
def toPlci (env : Env) (cmsg : Cmsg) : Prop :=
  cmsg.adr &&& 0x7f = env.contrnr ∧ cmsg.adr &&& 0xffffff00 ≠ 0 ∧ cmsg.adr &&& 0xffff0000 = 0

/-- The message is for an NCCI of the card. -/
def toNcci (env : Env) (cmsg : Cmsg) : Prop := cmsg.adr &&& 0x7f = env.contrnr ∧ cmsg.adr &&& 0xffff0000 ≠ 0

instance (env : Env) (cmsg : Cmsg) : Decidable (toPlci env cmsg) := inferInstanceAs (Decidable (_ ∧ _ ∧ _))

instance (env : Env) (cmsg : Cmsg) : Decidable (toNcci env cmsg) := inferInstanceAs (Decidable (_ ∧ _))

/-- An address that carries an NCCI is not the bare controller. -/
theorem toNcci_wide {env : Env} {cmsg : Cmsg} (route : toNcci env cmsg) : cmsg.adr &&& 0xffffff00 ≠ 0 := by
  intro narrow
  apply route.2
  have split : cmsg.adr &&& 0xffff0000 = cmsg.adr &&& 0xffffff00 &&& 0xffff0000 := by
    rw [UInt32.and_assoc]
    rfl
  rw [split, narrow, UInt32.zero_and]

/-- An address that carries a PLCI is not zero. -/
theorem toPlci_adr {env : Env} {cmsg : Cmsg} (route : toPlci env cmsg) : cmsg.adr ≠ 0 := by
  intro zero
  apply route.2.1
  rw [zero, UInt32.zero_and]

/-- What becomes of a call that isdn4linux was told about. -/
inductive Verdict (env : Env) (s : Card) (cmsg : Cmsg) (p : Nat) : Card → Prop where
  | rejected {plci : Plci} {reject : UInt16} (live : s.plcis p = some plci) : Verdict env s cmsg p
      ((sendMessage env s ((capiCmsgAnswer cmsg).setWord .reject reject)).setPlci p (plci.after .CONNECT_REJECT))
  | alerted {plci : Plci} (live : s.plcis p = some plci) (waiting : plci.state = .INCOMING) : Verdict env s cmsg p
      (sendMessage env (s.setPlci p { plci with msgid := s.msgid }).nextMsgid
        (capiFillAlertReq env.applId s.msgid plci.plci))
  | kept : Verdict env s cmsg p s

/-- The card when isdn4linux issues its commands. -/
def Card.offered (s : Card) (cmsg : Cmsg) (chan : Nat) : Card :=
  ((s.offer chan cmsg.adr).statcallb (.ICALL chan (callSetup cmsg))).asked

/-- What a message of the controller does. -/
inductive Reaction (env : Env) (s : Card) (cmsg : Cmsg) : Card → Prop where
  | calm {s' : Card} (calm : Calm s s') (silent : Silent env s s') : Reaction env s cmsg s'
  | disconnectInd {p : Nat} {plci : Plci} (route : toPlci env cmsg) (message : cmd cmsg = CAPI_DISCONNECT_IND)
      (found : findPlciByPlci s cmsg.adr = some (p, plci)) : Reaction env s cmsg
        ((answer env ((s.flag plci.chan).setPlci p (plci.after .DISCONNECT_IND)) cmsg).dropPlci p
          (plci.after .DISCONNECT_IND))
  | disconnectConf {p : Nat} {plci : Plci} (route : toPlci env cmsg) (message : cmd cmsg = CAPI_DISCONNECT_CONF)
      (found : findPlciByPlci s cmsg.adr = some (p, plci)) : Reaction env s cmsg (s.flag plci.chan)
  | connected {p : Nat} {plci : Plci} (route : toPlci env cmsg) (message : cmd cmsg = CAPI_CONNECT_CONF)
      (found : findPlciByMsgid s cmsg.messagenumber = some (p, plci)) (fine : cmsg.word .info = 0) :
      Reaction env s cmsg (s.setPlci p (Plci.after { plci with plci := cmsg.adr } .CONNECT_CONF_OK))
  | connectFailed {p : Nat} {plci : Plci} (route : toPlci env cmsg) (message : cmd cmsg = CAPI_CONNECT_CONF)
      (found : findPlciByMsgid s cmsg.messagenumber = some (p, plci)) (error : cmsg.word .info ≠ 0)
      (requested : plci.state = .OUTGOING) : Reaction env s cmsg
        ((s.setPlci p { plci with plci := cmsg.adr }).dropPlci p { plci with plci := cmsg.adr })
  | renumbered {p : Nat} {plci : Plci} (route : toPlci env cmsg) (message : cmd cmsg = CAPI_CONNECT_CONF)
      (found : findPlciByMsgid s cmsg.messagenumber = some (p, plci)) (error : cmsg.word .info ≠ 0)
      (known : plci.state ≠ .OUTGOING) : Reaction env s cmsg (s.setPlci p { plci with plci := cmsg.adr })
  | connectActive {p : Nat} {plci : Plci} (route : toPlci env cmsg) (message : cmd cmsg = CAPI_CONNECT_ACTIVE_IND)
      (found : findPlciByPlci s cmsg.adr = some (p, plci)) (incoming : (s.bchans plci.chan).incoming = true) :
      Reaction env s cmsg ((answer env s cmsg).setPlci p (plci.after .CONNECT_ACTIVE_IND))
  | requestB3 {p : Nat} {plci : Plci} (route : toPlci env cmsg) (message : cmd cmsg = CAPI_CONNECT_ACTIVE_IND)
      (found : findPlciByPlci s cmsg.adr = some (p, plci)) (outgoing : (s.bchans plci.chan).incoming = false)
      (mem : env.kmalloc s.tick = true) :
      Reaction env s cmsg ((answer env s cmsg).requestB3 env p plci cmsg.adr)
  | unannounced {chan : Nat} (route : toPlci env cmsg) (message : cmd cmsg = CAPI_CONNECT_IND)
      (free : (s.bchans chan).plcip = none) :
      Reaction env s cmsg (s.setBchan chan { s.bchans chan with disconnecting := false }).asked
  | incomingCall {chan : Nat} {s₁ s' : Card} (route : toPlci env cmsg) (message : cmd cmsg = CAPI_CONNECT_IND)
      (found : ∃ s₀, newBchan env s = some (s₀, chan)) (mem : env.kmalloc s.tick = true) (fit : NumbersFit cmsg)
      (commands : (env.icall (s.tick + 1)).1.foldlM
        (fun s command => (capidrvCommand env s command).map Prod.fst) (s.offered cmsg chan) = some s₁)
      (verdict : incomingResult env s₁ cmsg s.plciNext (env.icall (s.tick + 1)).2 = some s') : Reaction env s cmsg s'
  | connectB3Active {n : Nat} {ncci : Ncci} {plci : Plci} (route : toNcci env cmsg)
      (message : cmd cmsg = CAPI_CONNECT_B3_ACTIVE_IND) (found : findNcci s cmsg.adr = some (n, ncci))
      (conn : Conn s n ncci plci) : Reaction env s cmsg
        (((answer env s cmsg).setNcci n (ncci.after .CONNECT_B3_ACTIVE_IND)).statcallb (.BCONN ncci.chan))
  | connectB3Ind {p : Nat} {plci : Plci} (route : toNcci env cmsg) (message : cmd cmsg = CAPI_CONNECT_B3_IND)
      (found : findPlciByNcci s cmsg.adr = some (p, plci)) (mem : env.kmalloc s.tick = true) : Reaction env s cmsg
        (connectB3Resp env (s.addNcci plci
          { freshNcci p plci.chan cmsg.adr with state := .ALLOCATED, oldstate := .INCOMING }) cmsg.adr 0)
  | connectedB3 {n : Nat} {ncci : Ncci} {plci : Plci} (route : toNcci env cmsg)
      (message : cmd cmsg = CAPI_CONNECT_B3_CONF)
      (found : findNcciByMsgid s cmsg.adr cmsg.messagenumber = some (n, ncci)) (conn : Conn s n ncci plci)
      (fine : cmsg.word .info = 0) :
      Reaction env s cmsg (s.setNcci n (Ncci.after { ncci with ncci := cmsg.adr } .CONNECT_B3_CONF_OK))
  | connectB3Failed {n : Nat} {ncci : Ncci} {plci : Plci} (route : toNcci env cmsg)
      (message : cmd cmsg = CAPI_CONNECT_B3_CONF)
      (found : findNcciByMsgid s cmsg.adr cmsg.messagenumber = some (n, ncci)) (conn : Conn s n ncci plci)
      (error : cmsg.word .info ≠ 0) (requested : ncci.state = .OUTGOING) : Reaction env s cmsg
        ((s.setNcci n { ncci with ncci := cmsg.adr }).dropNcci env n { ncci with ncci := cmsg.adr } plci)
  | renumberedB3 {n : Nat} {ncci : Ncci} {plci : Plci} (route : toNcci env cmsg)
      (message : cmd cmsg = CAPI_CONNECT_B3_CONF)
      (found : findNcciByMsgid s cmsg.adr cmsg.messagenumber = some (n, ncci)) (conn : Conn s n ncci plci)
      (error : cmsg.word .info ≠ 0) (known : ncci.state ≠ .OUTGOING) :
      Reaction env s cmsg (s.setNcci n { ncci with ncci := cmsg.adr })
  | disconnectB3Ind {n : Nat} {ncci : Ncci} {plci : Plci} (route : toNcci env cmsg)
      (message : cmd cmsg = CAPI_DISCONNECT_B3_IND) (found : findNcci s cmsg.adr = some (n, ncci))
      (conn : Conn s n ncci plci) (known : ncci.state ≠ .OUTGOING) : Reaction env s cmsg
        ((answer env ((s.flag ncci.chan).setNcci n (ncci.after .DISCONNECT_B3_IND)) cmsg).dropNcci env n
          (ncci.after .DISCONNECT_B3_IND) plci)
  | disconnectB3Early {n : Nat} {ncci : Ncci} {plci : Plci} (route : toNcci env cmsg)
      (message : cmd cmsg = CAPI_DISCONNECT_B3_IND) (found : findNcci s cmsg.adr = some (n, ncci))
      (conn : Conn s n ncci plci) (requested : ncci.state = .OUTGOING) :
      Reaction env s cmsg (answer env (s.flag ncci.chan) cmsg)
  | disconnectB3Conf {n : Nat} {ncci : Ncci} {plci : Plci} (route : toNcci env cmsg)
      (message : cmd cmsg = CAPI_DISCONNECT_B3_CONF) (found : findNcci s cmsg.adr = some (n, ncci))
      (conn : Conn s n ncci plci) (error : cmsg.word .info ≠ 0) :
      Reaction env s cmsg (s.setNcci n (ncci.after .DISCONNECT_B3_CONF_ERROR))
  | resetB3Ind {n : Nat} {ncci : Ncci} {plci : Plci} (route : toNcci env cmsg)
      (message : cmd cmsg = CAPI_RESET_B3_IND) (found : findNcci s cmsg.adr = some (n, ncci))
      (conn : Conn s n ncci plci) :
      Reaction env s cmsg (answer env (s.setNcci n (ncci.after .RESET_B3_IND)) cmsg)

section Messages

variable {env : Env} {s s' : Card} {cmsg : Cmsg} {data : Bytes}

/-- An answer is not a request. -/
theorem capiCmsgAnswer_subcommand (cmsg : Cmsg) : (capiCmsgAnswer cmsg).subcommand ≠ CAPI_REQ := by
  intro same
  have odd := congrArg (fun x : UInt8 => x.toBitVec.getLsbD 0) same
  simp [capiCmsgAnswer, CAPI_REQ] at odd

theorem names_of_other {cmsg : Cmsg} (other : cmsg.subcommand ≠ CAPI_REQ) : names cmsg = false := by
  apply Bool.or_eq_false_iff.mpr
  constructor
  · exact decide_eq_false fun same => other (congrArg Prod.snd same)
  · exact decide_eq_false fun same => other (congrArg Prod.snd same)

theorem names_answer (cmsg : Cmsg) : names (capiCmsgAnswer cmsg) = false :=
  names_of_other (capiCmsgAnswer_subcommand cmsg)

/-- The message is answered, and that is all. -/
theorem reaction_answer (env : Env) (s : Card) (cmsg : Cmsg) : Reaction env s cmsg (answer env s cmsg) :=
  .calm (Calm.others _ _ _ _ _ _ _ _ _ _ _) (Silent.sendMessage env s (names_answer cmsg))

theorem reaction_none (env : Env) (s : Card) (cmsg : Cmsg) : Reaction env s cmsg s := .calm (Calm.refl s) (Silent.refl env s)

/-- DISCONNECT_IND is answered, and the call goes if it is known. -/
theorem reaction_disconnectInd (valid : Valid env s) (route : toPlci env cmsg)
    (message : cmd cmsg = CAPI_DISCONNECT_IND) (run : disconnectInd env s cmsg = some s') : Reaction env s cmsg s' := by
  cases found : findPlciByPlci s cmsg.adr with
  | none =>
    unfold disconnectInd at run
    simp only [found, Option.some.injEq] at run
    exact run ▸ reaction_answer env s cmsg
  | some e =>
    have phased := valid.plcis e.1 e.2 (findPlci_some found).1
    cases run.symm.trans (disconnectInd_drops found phased (toPlci_adr route))
    exact .disconnectInd route message found

/-- DISCONNECT_CONF sets the flag of the channel. -/
theorem reaction_disconnectConf (route : toPlci env cmsg) (message : cmd cmsg = CAPI_DISCONNECT_CONF) :
    Reaction env s cmsg (disconnectConf s cmsg) := by
  unfold Capidrv.disconnectConf
  split
  · exact reaction_none env s cmsg
  · rename_i found
    exact .disconnectConf route message found

/-- CONNECT_CONF numbers the call, or ends it. -/
theorem reaction_connectConf (route : toPlci env cmsg) (message : cmd cmsg = CAPI_CONNECT_CONF)
    (run : connectConf s cmsg = some s') : Reaction env s cmsg s' := by
  cases found : findPlciByMsgid s cmsg.messagenumber with
  | none =>
    unfold connectConf at run
    simp only [found, Option.some.injEq] at run
    exact run ▸ reaction_none env s cmsg
  | some e =>
    rcases eq_or_ne (cmsg.word .info) 0 with fine | error
    · cases run.symm.trans (connectConf_fine found fine)
      exact .connected route message found fine
    rcases eq_or_ne e.2.state .OUTGOING with requested | known
    · cases run.symm.trans (connectConf_failed found error requested)
      exact .connectFailed route message found error requested
    · cases run.symm.trans (connectConf_renumbers found error known)
      exact .renumbered route message found error known

/-- CONNECT_ACTIVE_IND connects the call; an outgoing one requests a connection. -/
theorem reaction_connectActiveInd (route : toPlci env cmsg) (message : cmd cmsg = CAPI_CONNECT_ACTIVE_IND)
    (run : connectActiveInd env s cmsg = some s') : Reaction env s cmsg s' := by
  cases found : findPlciByPlci s cmsg.adr with
  | none =>
    unfold connectActiveInd at run
    simp only [found, Option.some.injEq] at run
    exact run ▸ reaction_none env s cmsg
  | some e =>
    obtain ⟨p, plci⟩ := e
    cases incoming : (s.bchans plci.chan).incoming with
    | true =>
      cases run.symm.trans (connectActiveInd_incoming env found incoming)
      exact .connectActive route message found incoming
    | false =>
      cases mem : env.kmalloc s.tick with
      | false =>
        cases run.symm.trans (connectActiveInd_nomem env found incoming mem)
        have answered := Silent.sendMessage env s (names_answer cmsg)
        exact .calm (Calm.others _ _ _ _ _ _ _ _ _ _ _) (answered.trans (Silent.of_eq env rfl rfl))
      | true =>
        cases run.symm.trans (connectActiveInd_outgoing env found incoming mem)
        exact .requestB3 route message found incoming mem

theorem reaction_infoInd (env : Env) (s : Card) (cmsg : Cmsg) : Reaction env s cmsg (infoInd s cmsg) := by
  unfold infoInd
  split
  · exact reaction_none env s cmsg
  · dsimp only
    split
    · exact .calm (Calm.others _ _ _ _ _ _ _ _ _ _ _) (Silent.of_eq env rfl rfl)
    · exact reaction_none env s cmsg

/-- CONNECT_IND begins a call when there is a channel, memory, and room for the numbers. -/
theorem reaction_incomingCall (route : toPlci env cmsg) (message : cmd cmsg = CAPI_CONNECT_IND)
    (run : handleIncomingCall env s cmsg = some s') : Reaction env s cmsg s' := by
  cases found : newBchan env s with
  | none =>
    cases run.symm.trans (handleIncomingCall_busy env found)
    exact reaction_none env s cmsg
  | some e =>
    obtain ⟨s₀, chan⟩ := e
    cases mem : env.kmalloc s.tick with
    | false =>
      cases run.symm.trans (handleIncomingCall_nomem env found mem)
      exact .unannounced route message (newBchan_some env found).2.1
    | true =>
      have fit := handleIncomingCall_fit env found mem run
      rw [handleIncomingCall_eq env found mem fit] at run
      obtain ⟨⟨s₁, res⟩, callback, verdict⟩ := Option.bind_eq_some_iff.mp run
      obtain ⟨s₂, commands, same⟩ := Option.bind_eq_some_iff.mp callback
      cases same
      exact .incomingCall route message ⟨s₀, found⟩ mem fit commands verdict

/-- Messages for a call, one case for each. -/
theorem reaction_handlePlci (valid : Valid env s) (route : toPlci env cmsg) (run : handlePlci env s cmsg = some s') :
    Reaction env s cmsg s' := by
  unfold handlePlci at run
  split at run
  · rename_i message
    exact reaction_disconnectInd valid route message run
  split at run
  · rename_i message
    cases run
    exact reaction_disconnectConf route message
  split at run
  · rename_i message
    exact reaction_incomingCall route message run
  split at run
  · rename_i message
    exact reaction_connectConf route message run
  split at run
  · rename_i message
    exact reaction_connectActiveInd route message run
  split at run
  · cases run
    exact reaction_infoInd env s cmsg
  · cases run
    exact reaction_none env s cmsg

/-- A CONNECT_B3_RESP is all that is sent. -/
theorem connectB3Resp_calm (env : Env) (s : Card) (x : UInt32) (reject : UInt16) :
    Calm s (connectB3Resp env s x reject) ∧ Silent env s (connectB3Resp env s x reject) := by
  constructor
  · exact Calm.others _ _ _ _ _ _ _ _ _ _ _
  · have other : (capiFillConnectB3Resp env.applId s.msgid x reject).subcommand ≠ CAPI_REQ := by
      show CAPI_RESP ≠ CAPI_REQ
      decide
    have next : Silent env s s.nextMsgid := Silent.of_eq env rfl rfl
    exact next.trans (Silent.sendMessage env s.nextMsgid (names_of_other other))

theorem reaction_connectB3ActiveInd (valid : Valid env s) (route : toNcci env cmsg)
    (message : cmd cmsg = CAPI_CONNECT_B3_ACTIVE_IND) (run : connectB3ActiveInd env s cmsg = some s') :
    Reaction env s cmsg s' := by
  cases found : findNcci s cmsg.adr with
  | none =>
    unfold connectB3ActiveInd at run
    simp only [found, Option.some.injEq] at run
    exact run ▸ reaction_none env s cmsg
  | some e =>
    obtain ⟨plci, conn, -⟩ := valid.wired.findNcci found
    cases run.symm.trans (connectB3ActiveInd_eq found conn.live)
    exact .connectB3Active route message found conn

/-- CONNECT_B3_IND gives the call a connection, when there is memory. -/
theorem reaction_connectB3Ind (route : toNcci env cmsg) (message : cmd cmsg = CAPI_CONNECT_B3_IND)
    (run : connectB3Ind env s cmsg = some s') : Reaction env s cmsg s' := by
  cases found : findPlciByNcci s cmsg.adr with
  | none =>
    unfold connectB3Ind at run
    simp only [found, Option.some.injEq] at run
    obtain ⟨calm, silent⟩ := connectB3Resp_calm env s cmsg.adr 2
    exact run ▸ .calm calm silent
  | some e =>
    cases mem : env.kmalloc s.tick with
    | false =>
      cases run.symm.trans (connectB3Ind_nomem env found mem)
      obtain ⟨calm, silent⟩ := connectB3Resp_calm env s.asked cmsg.adr 2
      have asked : Silent env s s.asked := Silent.of_eq env rfl rfl
      exact .calm ((Calm.others _ _ _ _ _ _ _ _ _ _ _).trans calm) (asked.trans silent)
    | true =>
      cases run.symm.trans (connectB3Ind_eq env found mem)
      exact .connectB3Ind route message found mem

/-- CONNECT_B3_CONF numbers the connection, or ends it. -/
theorem reaction_connectB3Conf (valid : Valid env s) (route : toNcci env cmsg)
    (message : cmd cmsg = CAPI_CONNECT_B3_CONF) (run : connectB3Conf env s cmsg = some s') :
    Reaction env s cmsg s' := by
  cases found : findNcciByMsgid s cmsg.adr cmsg.messagenumber with
  | none =>
    unfold connectB3Conf at run
    simp only [found, Option.some.injEq] at run
    exact run ▸ reaction_none env s cmsg
  | some e =>
    obtain ⟨plci, conn, -⟩ := valid.wired.findNcciByMsgid found
    rcases eq_or_ne (cmsg.word .info) 0 with fine | error
    · cases run.symm.trans (connectB3Conf_fine found conn fine)
      exact .connectedB3 route message found conn fine
    rcases eq_or_ne e.2.state .OUTGOING with requested | known
    · cases run.symm.trans (connectB3Conf_failed found conn error requested)
      exact .connectB3Failed route message found conn error requested
    · cases run.symm.trans (connectB3Conf_renumbers found conn error known)
      exact .renumberedB3 route message found conn error known

/-- DATA_B3_CONF may take an entry off the queue of unacknowledged data. -/
theorem reaction_dataB3Conf (valid : Valid env s) (run : dataB3Conf s cmsg = some s') :
    Reaction env s cmsg s' := by
  cases found : findNcci s cmsg.adr with
  | none =>
    unfold dataB3Conf at run
    simp only [found, Option.some.injEq] at run
    exact run ▸ reaction_none env s cmsg
  | some e =>
    obtain ⟨plci, conn, -⟩ := valid.wired.findNcci found
    obtain ⟨ackqueue, status, eq⟩ := dataB3Conf_eq found conn.live
    cases run.symm.trans eq
    have calm : Calm s (s.setNcci e.1 { e.2 with ackqueue }) := Calm.setNcci conn.live rfl
    exact .calm (calm.trans (Calm.others _ _ _ _ _ _ _ _ _ _ _)) (Silent.of_eq env rfl rfl)

/-- DISCONNECT_B3_IND ends the connection if it is known. -/
theorem reaction_disconnectB3Ind (valid : Valid env s) (route : toNcci env cmsg)
    (message : cmd cmsg = CAPI_DISCONNECT_B3_IND) (run : disconnectB3Ind env s cmsg = some s') :
    Reaction env s cmsg s' := by
  cases found : findNcci s cmsg.adr with
  | none =>
    unfold disconnectB3Ind at run
    simp only [found, Option.some.injEq] at run
    exact run ▸ reaction_none env s cmsg
  | some e =>
    obtain ⟨plci, conn, -⟩ := valid.wired.findNcci found
    rcases eq_or_ne e.2.state .OUTGOING with requested | known
    · cases run.symm.trans (disconnectB3Ind_early found conn requested)
      exact .disconnectB3Early route message found conn requested
    · cases run.symm.trans (disconnectB3Ind_drops found conn (valid.nccis e.1 e.2 conn.live) known)
      exact .disconnectB3Ind route message found conn known

/-- DISCONNECT_B3_CONF with an error takes the request back. -/
theorem reaction_disconnectB3Conf (valid : Valid env s) (route : toNcci env cmsg)
    (message : cmd cmsg = CAPI_DISCONNECT_B3_CONF) (run : disconnectB3Conf env s cmsg = some s') :
    Reaction env s cmsg s' := by
  cases found : findNcci s cmsg.adr with
  | none =>
    unfold disconnectB3Conf at run
    simp only [found, Option.some.injEq] at run
    exact run ▸ reaction_none env s cmsg
  | some e =>
    obtain ⟨plci, conn, -⟩ := valid.wired.findNcci found
    rcases eq_or_ne (cmsg.word .info) 0 with fine | error
    · unfold disconnectB3Conf at run
      simp only [found, fine, ne_eq, not_true_eq_false, if_false, Option.some.injEq] at run
      exact run ▸ reaction_none env s cmsg
    · cases run.symm.trans (disconnectB3Conf_eq found conn.live error)
      exact .disconnectB3Conf route message found conn error

/-- RESET_B3_IND brings the connection back to ACTIVE. -/
theorem reaction_resetB3Ind (valid : Valid env s) (route : toNcci env cmsg)
    (message : cmd cmsg = CAPI_RESET_B3_IND) (run : resetB3Ind env s cmsg = some s') : Reaction env s cmsg s' := by
  cases found : findNcci s cmsg.adr with
  | none =>
    unfold resetB3Ind at run
    simp only [found, Option.some.injEq] at run
    exact run ▸ reaction_none env s cmsg
  | some e =>
    obtain ⟨plci, conn, -⟩ := valid.wired.findNcci found
    cases run.symm.trans (resetB3Ind_eq found conn.live)
    exact .resetB3Ind route message found conn

/-- Messages for a connection, one case for each. -/
theorem reaction_handleNcci (valid : Valid env s) (route : toNcci env cmsg)
    (run : handleNcci env s cmsg = some s') : Reaction env s cmsg s' := by
  unfold handleNcci at run
  split at run
  · rename_i message
    exact reaction_connectB3ActiveInd valid route message run
  split at run
  · rename_i message
    exact reaction_connectB3Ind route message run
  split at run
  · rename_i message
    exact reaction_connectB3Conf valid route message run
  split at run
  · cases run
    exact reaction_answer env s cmsg
  split at run
  · exact reaction_dataB3Conf valid run
  split at run
  · rename_i message
    exact reaction_disconnectB3Ind valid route message run
  split at run
  · rename_i message
    exact reaction_disconnectB3Conf valid route message run
  split at run
  · rename_i message
    exact reaction_resetB3Ind valid route message run
  · cases run
    exact reaction_none env s cmsg

/-! ### The controller and data -/

theorem reaction_listenChangeState (env : Env) (s : Card) (cmsg : Cmsg) (event : ListenEvent) :
    Reaction env s cmsg (listenChangeState s event) := by
  unfold listenChangeState
  split
  · exact reaction_none env s cmsg
  · exact .calm (Calm.others _ _ _ _ _ _ _ _ _ _ _) (Silent.of_eq env rfl rfl)

theorem reaction_listenConf (env : Env) (s : Card) (cmsg : Cmsg) : Reaction env s cmsg (listenConf s cmsg) := by
  unfold listenConf
  split
  · exact reaction_listenChangeState env s cmsg _
  split
  · exact reaction_listenChangeState env s cmsg _
  · exact reaction_listenChangeState env s cmsg _

/-- The trace buffer and what isdn4linux is told are all that changes. -/
def Traced (s s' : Card) : Prop :=
  ∃ q931Buf q931Write status, s' = { s with q931Buf, q931Write, status }

theorem Traced.putbyteToStatus {s s' : Card} (traced : Traced s s') (byte : UInt8) :
    Traced s (putbyteToStatus s' byte) := by
  obtain ⟨q931Buf, q931Write, status, rfl⟩ := traced
  exact ⟨_, _, _, rfl⟩

/-- Rounds that only trace make up a loop that only traces. -/
theorem Traced.foldl {α : Type} {s s' : Card} {f : Card → α → Card} (round : ∀ s' a, Traced s s' → Traced s (f s' a))
    (traced : Traced s s') (as : List α) : Traced s (as.foldl f s') := by
  induction as generalizing s' with
  | nil => exact traced
  | cons a as ih => exact ih (round s' a traced)

/-- A trace goes to the status buffer. -/
theorem traced_handleDtraceData (s : Card) (send level2 : Bool) (data : Bytes) (len : Nat) :
    Traced s (handleDtraceData s send level2 data len) := by
  have none : Traced s s := ⟨s.q931Buf, s.q931Write, s.status, rfl⟩
  unfold handleDtraceData
  split
  · exact none
  · have head := none.foldl (fun s' byte traced => traced.putbyteToStatus byte)
      [68, if level2 then 50 else 51, if send then 62 else 60, 58]
    have body := head.foldl (fun s' i traced => traced.foldl (fun s' byte traced => traced.putbyteToStatus byte)
      [32, hexDigit (data.getD i 0 >>> 4 &&& 0xf), hexDigit (data.getD i 0 &&& 0xf)]) (List.range len)
    obtain ⟨q931Buf, q931Write, status, same⟩ := body.putbyteToStatus 10
    dsimp only
    rw [same]
    exact ⟨q931Buf, q931Write, _, rfl⟩

theorem traced_manufacturerInd (s : Card) (cmsg : Cmsg) : Traced s (manufacturerInd s cmsg) := by
  have none : Traced s s := ⟨s.q931Buf, s.q931Write, s.status, rfl⟩
  unfold manufacturerInd
  dsimp only
  split_ifs
  all_goals first
    | exact traced_handleDtraceData s _ _ _ _
    | exact none

/-- Messages for the controller touch no call. -/
theorem reaction_handleController (env : Env) (s : Card) (cmsg : Cmsg) :
    Reaction env s cmsg (handleController s cmsg) := by
  unfold handleController
  split
  · exact reaction_listenConf env s cmsg
  split
  · obtain ⟨q931Buf, q931Write, status, same⟩ := traced_manufacturerInd s cmsg
    rw [same]
    exact .calm (Calm.others _ _ _ _ _ _ _ _ _ _ _) (Silent.of_eq env rfl rfl)
  · exact reaction_none env s cmsg

/-- DATA_B3_IND is answered, and its data handed on. -/
theorem reaction_handleData (env : Env) (s : Card) (cmsg : Cmsg) (data : Bytes) :
    Reaction env s cmsg (handleData env s cmsg data) := by
  unfold handleData
  split
  · exact reaction_none env s cmsg
  · rename_i ncci _
    have given : Silent env s { s with received := s.received ++ [(ncci.chan, data)] } := Silent.of_eq env rfl rfl
    exact .calm (Calm.others _ _ _ _ _ _ _ _ _ _ _) (given.trans (Silent.sendMessage env _ (names_answer cmsg)))

/-- Whatever message comes, one of the reactions is what happens. -/
theorem reaction_handleMessage (valid : Valid env s) (run : handleMessage env s cmsg data = some s') :
    Reaction env s cmsg s' := by
  unfold handleMessage at run
  split at run
  · cases run
    exact reaction_none env s cmsg
  rename_i addressed
  have mine := not_not.mp addressed
  split at run
  · cases run
    exact reaction_handleData env s cmsg data
  split at run
  · cases run
    exact reaction_handleController env s cmsg
  rename_i wide
  split at run
  · rename_i narrow
    exact reaction_handlePlci valid ⟨mine, wide, narrow⟩ run
  · rename_i wider
    exact reaction_handleNcci valid ⟨mine, wider⟩ run

end Messages

/-! ## Data -/

/-- A calm step that sends nothing. -/
structure Still (s s' : Card) : Prop where
  calm : Calm s s'
  sent : s'.sent = s.sent
  named : s'.named = s.named

/-- A DATA_B3_REQ for a connection of a channel is sent, and the calls are as before. -/
structure Sends (env : Env) (s : Card) (chan : Nat) (ncci : UInt32) (s' : Card) : Prop where
  calm : Calm s s'
  sent : ∃ e, s'.sent = s.sent ++ [e] ∧ cmd e.cmsg = CAPI_DATA_B3_REQ ∧ e.cmsg.adr = ncci ∧
    e.info = env.put s.sent.length
  named : s'.named = s.named ++ [(chan, ncci)]

section Data

variable {env : Env} {s s' s'' : Card} {arg chan n : Nat} {ncci : Ncci}

theorem Still.trans (still : Still s s') (still' : Still s' s'') : Still s s'' :=
  ⟨still.calm.trans still'.calm, still'.sent.trans still.sent, still'.named.trans still.named⟩

/-- After the data was sent nothing else is. -/
theorem Sends.trans {x : UInt32} (sends : Sends env s chan x s') (still : Still s' s'') : Sends env s chan x s'' := by
  obtain ⟨e, sent, message⟩ := sends.sent
  exact ⟨sends.calm.trans still.calm, ⟨e, still.sent.trans sent, message⟩, still.named.trans sends.named⟩

/-- What was still before the data is sent does not count. -/
theorem Still.sends {x : UInt32} (still : Still s s') (sends : Sends env s' chan x s'') : Sends env s chan x s'' := by
  obtain ⟨e, sent, message, adr, info⟩ := sends.sent
  refine ⟨still.calm.trans sends.calm, ⟨e, ?_, message, adr, ?_⟩, ?_⟩
  · rw [sent, still.sent]
  · rw [info, still.sent]
  · rw [sends.named, still.named]

theorem still_asked (s : Card) : Still s s.asked := ⟨Calm.others _ _ _ _ _ _ _ _ _ _ _, rfl, rfl⟩

theorem still_nextMsgid (s : Card) : Still s s.nextMsgid := ⟨Calm.others _ _ _ _ _ _ _ _ _ _ _, rfl, rfl⟩

/-- Only the queue of unacknowledged data has grown. -/
theorem still_capidrvAddAck {datahandle : UInt16} {len : Int}
    (added : capidrvAddAck env s n datahandle len = some (some s')) : Still s s' := by
  obtain ⟨ncci, live, rest⟩ := Option.bind_eq_some_iff.mp added
  split at rest
  · cases rest
  · cases rest
    have set : Calm s.asked (s.asked.setNcci n { ncci with ackqueue := ncci.ackqueue ++ [(datahandle, len)] }) :=
      Calm.setNcci live rfl
    exact (still_asked s).trans ⟨set, rfl, rfl⟩

/-- Only the queue of unacknowledged data has shrunk. -/
theorem still_capidrvDelAck {datahandle : UInt16} {res : Int} (deleted : capidrvDelAck s n datahandle = some (s', res)) :
    Still s s' := by
  obtain ⟨ncci, live, rest⟩ := Option.bind_eq_some_iff.mp deleted
  split at rest
  · cases rest
    exact ⟨Calm.refl s, rfl, rfl⟩
  · cases rest
    exact ⟨Calm.setNcci live rfl, rfl, rfl⟩

/-- A block of data is sent on an active connection, or not at all. -/
theorem ifSendbuf_sends {doack : Bool} {skb buf : Buf} {res : Int}
    (run : ifSendbuf env s arg doack skb = some (s', res, buf)) : Still s s' ∨
      ∃ chan n ncci, channel env arg = some chan ∧ (s.bchans chan).nccip = some n ∧ s.nccis n = some ncci ∧
        ncci.state = .ACTIVE ∧ Sends env s chan ncci.ncci s' := by
  obtain ⟨chan, at_channel, rest⟩ := Option.bind_eq_some_iff.mp run
  dsimp only at rest
  split at rest
  · cases rest
    exact .inl ⟨Calm.refl s, rfl, rfl⟩
  rename_i n conn
  obtain ⟨ncci, live, rest⟩ := Option.bind_eq_some_iff.mp rest
  split at rest
  · cases rest
    exact .inl ⟨Calm.refl s, rfl, rfl⟩
  rename_i active
  obtain ⟨ack, added, rest⟩ := Option.bind_eq_some_iff.mp rest
  split at rest
  · cases rest
    exact .inl ((still_nextMsgid s).trans (still_asked _))
  rename_i s₁
  have before : Still s s₁ := (still_nextMsgid s).trans (still_capidrvAddAck added)
  obtain ⟨header, encoded, rest⟩ := Option.bind_eq_some_iff.mp rest
  have room : Still s (if skb.headroom < header.length then s₁.asked else s₁) := by
    split
    · exact before.trans (still_asked s₁)
    · exact before
  generalize (if skb.headroom < header.length then s₁.asked else s₁) = s₂ at rest room
  split at rest
  · obtain ⟨⟨s₃, res₃⟩, deleted, rest⟩ := Option.bind_eq_some_iff.mp rest
    cases rest
    exact .inl (room.trans (still_capidrvDelAck deleted))
  let sendcmsg := capiFillDataB3Req env.applId s.msgid ncci.ncci (env.address s.tick) (UInt16.ofNat skb.data.length)
    ncci.datahandle 0
  let s₃ := { (putCapiMessage env s₂ sendcmsg skb.data).1 with named := s₂.named ++ [(chan, ncci.ncci)] }
  have put : Sends env s₂ chan ncci.ncci s₃ :=
    ⟨Calm.others _ _ _ _ _ _ _ _ _ _ _, ⟨⟨sendcmsg, skb.data, env.put s₂.sent.length⟩, rfl, rfl, rfl, rfl⟩, rfl⟩
  refine .inr ⟨chan, n, ncci, at_channel, conn, live, not_not.mp active, ?_⟩
  apply room.sends
  split at rest
  · obtain ⟨ncci', live', rest⟩ := Option.bind_eq_some_iff.mp rest
    cases rest
    have next : Calm s₃ (s₃.setNcci n { ncci' with datahandle := ncci'.datahandle + 1 }) := Calm.setNcci live' rfl
    exact put.trans ⟨next, rfl, rfl⟩
  · obtain ⟨⟨s₄, res₄⟩, deleted, rest⟩ := Option.bind_eq_some_iff.mp rest
    cases rest
    exact put.trans (still_capidrvDelAck deleted)

end Data

/-! ## Steps -/

/-- What a step does. -/
inductive Transition (env : Env) (s : Card) : Op → Card → Prop where
  | calm {op : Op} {s' : Card} (calm : Calm s s') (silent : Silent env s s') : Transition env s op s'
  | recv {msg : Bytes} {cmsg : Cmsg} {s' : Card} (decoded : capiMessage2cmsg msg = some cmsg)
      (reaction : Reaction env s cmsg s') : Transition env s (.recv msg) (confirm env s' cmsg)
  | command {command : Command} {s' : Card} (effect : Effect env s command s') : Transition env s (.command command) s'
  | data {arg chan n : Nat} {ncci : Ncci} {doack : Bool} {skb : Buf} {s' : Card}
      (at_channel : channel env arg = some chan) (conn : (s.bchans chan).nccip = some n)
      (live : s.nccis n = some ncci) (active : ncci.state = .ACTIVE) (sends : Sends env s chan ncci.ncci s') :
      Transition env s (.sendbuf arg doack skb) s'

/-- Reading the status buffer touches no call. -/
theorem calm_ifReadstat (len : Nat) (s : Card) : Still s (ifReadstat len s).2 := by
  induction len generalizing s with
  | zero => exact ⟨Calm.refl s, rfl, rfl⟩
  | succ len ih =>
    have one : Still s { s with q931Read := if s.q931Read + 1 > 4095 then 0 else s.q931Read + 1 } :=
      ⟨Calm.others _ _ _ _ _ _ _ _ _ _ _, rfl, rfl⟩
    exact one.trans (ih _)

/-- The LISTEN_REQ of the timer touches no call. -/
theorem calm_sendListen (env : Env) (s : Card) : Calm s (sendListen env s) ∧ Silent env s (sendListen env s) := by
  have sent : Silent env s (listenReq env s) := by
    have next : Silent env s s.nextMsgid := Silent.of_eq env rfl rfl
    exact next.trans (Silent.sendMessage env _ rfl)
  unfold sendListen listenChangeState
  split
  · exact ⟨Calm.others _ _ _ _ _ _ _ _ _ _ _, sent⟩
  · exact ⟨Calm.others _ _ _ _ _ _ _ _ _ _ _, sent.trans (Silent.of_eq env rfl rfl)⟩

/-- Switching the trace on touches no call. -/
theorem calm_enableDchannelTrace (env : Env) (s : Card) (version : Option (Nat × Nat)) :
    Calm s (enableDchannelTrace env s version) ∧ Silent env s (enableDchannelTrace env s version) := by
  unfold enableDchannelTrace
  split
  · exact ⟨Calm.refl s, Silent.refl env s⟩
  · have next : Silent env s s.nextMsgid := Silent.of_eq env rfl rfl
    exact ⟨Calm.others _ _ _ _ _ _ _ _ _ _ _, next.trans (Silent.sendMessage env _ rfl)⟩

/-- Every step of a valid card is a transition. -/
theorem transition {env : Env} {s s' : Card} {op : Op} (valid : Valid env s)
    (run : step env s op = some s') : Transition env s op s' := by
  cases op with
  | recv msg =>
    obtain ⟨cmsg, decoded, rest⟩ := Option.bind_eq_some_iff.mp run
    obtain ⟨s₁, handled, rest⟩ := Option.bind_eq_some_iff.mp rest
    cases rest
    exact .recv decoded (reaction_handleMessage valid handled)
  | command command =>
    obtain ⟨⟨s₁, res⟩, done, rest⟩ := Option.map_eq_some_iff.mp run
    cases rest
    exact .command (Effect.of_run valid.wired done)
  | sendbuf arg doack skb =>
    obtain ⟨⟨s₁, res⟩, done, rest⟩ := Option.map_eq_some_iff.mp run
    cases rest
    rcases ifSendbuf_sends done with still | ⟨chan, n, ncci, at_channel, conn, live, active, sends⟩
    · exact .calm still.calm (Silent.of_eq env still.sent still.named)
    · exact .data at_channel conn live active sends
  | readstat len =>
    cases run
    have still := calm_ifReadstat len s
    exact .calm still.calm (Silent.of_eq env still.sent still.named)
  | listen =>
    cases run
    obtain ⟨calm, silent⟩ := calm_sendListen env s
    exact .calm calm silent
  | trace version =>
    cases run
    obtain ⟨calm, silent⟩ := calm_enableDchannelTrace env s version
    exact .calm calm silent

end Capi4Linux.Capidrv
