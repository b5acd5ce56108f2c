import Capi4Linux.Capidrv.Valid

/-!
# Announced connections

The controller announces an NCCI of a channel with a CONNECT_B3_IND or a
CONNECT_B3_CONF, and ends it with a DISCONNECT_B3_IND. A record of capidrv
carries the number of the call until the connection is confirmed.
-/

namespace Capi4Linux.Capidrv
open Bytes Capicore Capiutil Machine

/-! ## Announcements -/

/-- The channels and NCCIs that the controller has announced and not ended, after one more message. -/
def announce (env : Env) (s : Card) (cmsg : Cmsg) (announced : List (Nat × UInt32)) : List (Nat × UInt32) :=
  if ¬ toNcci env cmsg then announced
  else if cmd cmsg = CAPI_CONNECT_B3_IND then
    match findPlciByNcci s cmsg.adr with
    | none => announced
    | some (_, plci) => (plci.chan, cmsg.adr) :: announced
  else if cmd cmsg = CAPI_CONNECT_B3_CONF then
    match findNcciByMsgid s cmsg.adr cmsg.messagenumber with
    | none => announced
    | some (_, ncci) => if cmsg.word .info = 0 then (ncci.chan, cmsg.adr) :: announced else announced
  else if cmd cmsg = CAPI_DISCONNECT_B3_IND then announced.filter fun e => e.2 ≠ cmsg.adr
  else announced

/-- A card and what the controller has announced. -/
structure Noted where
  card : Card
  announced : List (Nat × UInt32)

def Noted.init : Noted := ⟨Card.init, []⟩

def noteOp (env : Env) (t : Noted) : Op → List (Nat × UInt32)
  | .recv msg =>
    match capiMessage2cmsg msg with
    | none => t.announced
    | some cmsg => announce env t.card cmsg t.announced
  | _ => t.announced

def noteStep (env : Env) (t : Noted) (op : Op) : Option Noted :=
  (step env t.card op).map fun s' => ⟨s', noteOp env t op⟩

/-- Each DISCONNECT_B3_REQ and DATA_B3_REQ that is sent carries an NCCI that is announced for its channel. -/
def Names (announced : List (Nat × UInt32)) (s s' : Card) : Prop :=
  ∃ news sent, s'.named = s.named ++ news ∧ s'.sent = s.sent ++ sent ∧
    ((sent.filter fun e => names e.cmsg).map fun e => e.cmsg.adr) = news.map Prod.snd ∧ ∀ e ∈ news, e ∈ announced

/-- The connection that a channel points to. -/
def Card.conn (s : Card) (c : Nat) : Option Ncci := (s.bchans c).nccip.bind s.nccis

/-- The connection of a channel carries an announced NCCI unless it is only requested. -/
def Known (announced : List (Nat × UInt32)) (s : Card) : Prop :=
  ∀ c ncci, s.conn c = some ncci → ncci.state ≠ .OUTGOING → (c, ncci.ncci) ∈ announced

/-- The command hangs up a connection that is only requested. -/
def Untimely (env : Env) (s : Card) : Command → Prop
  | .HANGUP arg => ∃ chan ncci, channel env arg = some chan ∧ (s.bchans chan).disconnecting = false ∧
      s.conn chan = some ncci ∧ ncci.state = .OUTGOING
  | _ => False

/-- What a message must find if the connections of the channels are to carry announced NCCIs. -/
structure OrderlyMessage (env : Env) (t : Noted) (cmsg : Cmsg) : Prop where
  connectInd : toPlci env cmsg → cmd cmsg = CAPI_CONNECT_IND →
    ∀ chan, (∃ s₀, newBchan env t.card = some (s₀, chan)) → env.kmalloc t.card.tick = true → NumbersFit cmsg →
      ∀ command ∈ (env.icall (t.card.tick + 1)).1, ¬ Untimely env (t.card.offered cmsg chan) command
  connectB3Conf : toNcci env cmsg → cmd cmsg = CAPI_CONNECT_B3_CONF → cmsg.word .info ≠ 0 →
    ∀ n ncci, findNcciByMsgid t.card cmsg.adr cmsg.messagenumber = some (n, ncci) → ncci.state ≠ .OUTGOING →
      (t.card.bchans ncci.chan).nccip = some n → (ncci.chan, cmsg.adr) ∈ t.announced
  disconnectB3Ind : toNcci env cmsg → cmd cmsg = CAPI_DISCONNECT_B3_IND →
    ∀ c ncci, t.card.conn c = some ncci → ncci.state ≠ .OUTGOING → ncci.ncci = cmsg.adr →
      ∃ n found, findNcci t.card cmsg.adr = some (n, found) ∧ found.chan = c ∧ found.state ≠ .OUTGOING

/-- No command hangs up a connection that is only requested, and no message leaves a channel with a connection whose
NCCI is not announced. -/
def Orderly (env : Env) (t : Noted) : Op → Prop
  | .recv msg => ∀ cmsg, capiMessage2cmsg msg = some cmsg → OrderlyMessage env t cmsg
  | .command command => ¬ Untimely env t.card command
  | _ => True

/-! ## What is sent -/

section Sent

variable {env : Env} {s s' s'' : Card} {cmsg : Cmsg} {announced : List (Nat × UInt32)}

/-- Names in one step and in the next are names in both. -/
theorem Names.trans (first : Names announced s s') (second : Names announced s' s'') : Names announced s s'' := by
  obtain ⟨news, sent, named, posted, same, known⟩ := first
  obtain ⟨news', sent', named', posted', same', known'⟩ := second
  refine ⟨news ++ news', sent ++ sent', ?_, ?_, ?_, ?_⟩
  · rw [named', named, List.append_assoc]
  · rw [posted', posted, List.append_assoc]
  · rw [List.filter_append, List.map_append, List.map_append, same, same']
  · intro e member
    rcases List.mem_append.mp member with early | late
    · exact known e early
    · exact known' e late

/-- No request for a connection is sent. -/
theorem Names.quiet {sent : List Sent} (posted : s'.sent = s.sent ++ sent) (named : s'.named = s.named)
    (quiet : ∀ e ∈ sent, Capidrv.names e.cmsg = false) : Names announced s s' := by
  refine ⟨[], sent, ?_, posted, ?_, fun _ member => absurd member List.not_mem_nil⟩
  · rw [named, List.append_nil]
  · have none : sent.filter (fun e => Capidrv.names e.cmsg) = [] := by
      apply List.filter_eq_nil_iff.mpr
      intro e member isNamed
      cases isNamed.symm.trans (quiet e member)
    rw [none]
    rfl

theorem Names.none (sent : s'.sent = s.sent) (named : s'.named = s.named) : Names announced s s' :=
  Names.quiet (sent.trans (List.append_nil _).symm) named fun _ member => absurd member List.not_mem_nil

/-- A message that is not about an NCCI names none. -/
theorem Names.other {e : Sent} (sent : s'.sent = s.sent ++ [e]) (named : s'.named = s.named)
    (other : Capidrv.names e.cmsg = false) : Names announced s s' := by
  apply Names.quiet sent named
  intro e' member
  rw [List.mem_singleton.mp member]
  exact other

theorem Names.dropPlci (s : Card) (p : Nat) (plci : Plci) : Names announced s (s.dropPlci p plci) := Names.none rfl rfl

/-- Dropping a connection sends a DISCONNECT_REQ, which names the call. -/
theorem Names.dropNcci (env : Env) (s : Card) (n : Nat) (ncci : Ncci) (plci : Plci) :
    Names announced s (s.dropNcci env n ncci plci) := Names.other rfl rfl rfl

theorem Silent.names (silent : Silent env s s') : Names announced s s' := by
  obtain ⟨sent, posted, quiet⟩ := silent.sent
  exact Names.quiet posted silent.named quiet

/-- One request for a connection is sent. -/
theorem Names.one {e : Sent} {chan : Nat} {x : UInt32} (sent : s'.sent = s.sent ++ [e])
    (named : s'.named = s.named ++ [(chan, x)]) (message : Capidrv.names e.cmsg = true) (adr : e.cmsg.adr = x)
    (known : (chan, x) ∈ announced) : Names announced s s' := by
  refine ⟨[(chan, x)], [e], named, sent, ?_, ?_⟩
  · have kept : [e].filter (fun e => Capidrv.names e.cmsg) = [e] := by
      rw [List.filter_singleton, message]
      rfl
    rw [kept, List.map_singleton, List.map_singleton, adr]
  · intro e' member
    obtain rfl := List.mem_singleton.mp member
    exact known

end Sent

/-! ## Connections of channels -/

/-- The connections of the channels keep their numbers, and none is confirmed. -/
def Keeps (s s' : Card) : Prop :=
  ∀ c ncci', s'.conn c = some ncci' → ∃ ncci, s.conn c = some ncci ∧ ncci'.ncci = ncci.ncci ∧
    (ncci'.state = .OUTGOING ↔ ncci.state = .OUTGOING)

section Connections

variable {env : Env} {s s' s'' : Card} {announced announced' : List (Nat × UInt32)} {c n : Nat}
  {ncci ncci' r : Ncci} {plci : Plci}

/-- A channel's connection is the record it points to. -/
theorem conn_pointer (pointer : (s.bchans c).nccip = some n) : s.conn c = s.nccis n := by
  rw [Card.conn, pointer, Option.bind_some]

theorem Keeps.refl (s : Card) : Keeps s s := fun _ ncci conn => ⟨ncci, conn, rfl, Iff.rfl⟩

theorem Keeps.trans (keeps : Keeps s s') (keeps' : Keeps s' s'') : Keeps s s'' := by
  intro c ncci'' conn''
  obtain ⟨ncci', conn', number', requested'⟩ := keeps' c ncci'' conn''
  obtain ⟨ncci, conn, number, requested⟩ := keeps c ncci' conn'
  exact ⟨ncci, conn, number'.trans number, requested'.trans requested⟩

/-- Where no channel's connection changes, all are kept. -/
theorem Keeps.of_eq (same : ∀ c, s'.conn c = s.conn c) : Keeps s s' := by
  intro c ncci conn
  rw [same] at conn
  exact ⟨ncci, conn, rfl, Iff.rfl⟩

theorem Calm.keeps (calm : Calm s s') : Keeps s s' := by
  intro c ncci' conn
  obtain ⟨n, pointer, live⟩ := Option.bind_eq_some_iff.mp conn
  obtain ⟨ncci, found, same⟩ := calm.before live
  obtain ⟨-, number, -, -, state, -⟩ := Ncci.of_still same
  rw [calm.nccip] at pointer
  exact ⟨ncci, (conn_pointer pointer).trans found, number, by rw [state]⟩

/-- A record is replaced. -/
theorem conn_setNcci (nccip : ∀ c, (s'.bchans c).nccip = (s.bchans c).nccip)
    (nccis : s'.nccis = Function.update s.nccis n (some ncci')) (conn : s'.conn c = some r) :
    s.conn c = some r ∨ (s.bchans c).nccip = some n ∧ r = ncci' := by
  obtain ⟨m, pointer, live⟩ := Option.bind_eq_some_iff.mp conn
  rw [nccip] at pointer
  rw [nccis] at live
  rcases eq_or_ne m n with rfl | other
  · rw [Function.update_self] at live
    exact .inr ⟨pointer, (Option.some.inj live).symm⟩
  · rw [Function.update_of_ne other] at live
    exact .inl ((conn_pointer pointer).trans live)

/-- A connection that keeps its number and is requested as before is kept. -/
theorem Keeps.setNcci (live : s.nccis n = some ncci) (nccip : ∀ c, (s'.bchans c).nccip = (s.bchans c).nccip)
    (nccis : s'.nccis = Function.update s.nccis n (some ncci')) (number : ncci'.ncci = ncci.ncci)
    (requested : ncci'.state = .OUTGOING ↔ ncci.state = .OUTGOING) : Keeps s s' := by
  intro c r conn
  rcases conn_setNcci nccip nccis conn with before | ⟨pointer, rfl⟩
  · exact ⟨r, before, rfl, Iff.rfl⟩
  · exact ⟨ncci, (conn_pointer pointer).trans live, number, requested⟩

/-- What keeps the connections keeps them known. -/
theorem Known.keeps (known : Known announced s) (keeps : Keeps s s') : Known announced s' := by
  intro c ncci' conn' confirmed
  obtain ⟨ncci, conn, number, requested⟩ := keeps c ncci' conn'
  rw [number]
  exact known c ncci conn fun early => confirmed (requested.mpr early)

/-- They stay known when more is announced. -/
theorem Known.mono (known : Known announced s) (more : ∀ e ∈ announced, e ∈ announced') : Known announced' s :=
  fun c ncci conn confirmed => more _ (known c ncci conn confirmed)

/-- The connection of one channel is new. -/
theorem Known.addNcci {nbchan : Nat} (known : Known announced s) (wired : Wired nbchan s.links) (plci : Plci)
    (here : ncci.state ≠ .OUTGOING → (plci.chan, ncci.ncci) ∈ announced) : Known announced (s.addNcci plci ncci) := by
  intro c r conn confirmed
  rcases eq_or_ne c plci.chan with rfl | elsewhere
  · have first : (s.addNcci plci ncci).conn plci.chan = some ncci := by
      simp only [Card.conn, Card.addNcci, Function.update_self, Option.bind_some]
    cases first.symm.trans conn
    exact here confirmed
  · have bchan : (s.addNcci plci ncci).bchans c = s.bchans c := Function.update_of_ne elsewhere _ _
    obtain ⟨m, pointer, live⟩ := Option.bind_eq_some_iff.mp conn
    rw [bchan] at pointer
    have old : (s.addNcci plci ncci).nccis m = s.nccis m := Function.update_of_ne (wired.pointer_old pointer) _ _
    rw [old] at live
    exact known c r ((conn_pointer pointer).trans live) confirmed

/-- The record of a connection gets another number. -/
theorem Known.setNcci {nbchan : Nat} (known : Known announced s) (wired : Wired nbchan s.links)
    (live : s.nccis n = some ncci) (here : (s.bchans ncci.chan).nccip = some n → ncci'.state ≠ .OUTGOING →
      (ncci.chan, ncci'.ncci) ∈ announced) : Known announced (s.setNcci n ncci') := by
  intro c r conn confirmed
  have same : ∀ c, ((s.setNcci n ncci').bchans c).nccip = (s.bchans c).nccip := fun _ => rfl
  rcases conn_setNcci same rfl conn with before | ⟨pointer, rfl⟩
  · exact known c r before confirmed
  · obtain ⟨p, link⟩ := wired.nccip c n pointer
    cases (links_nccis live).symm.trans link
    exact here pointer confirmed

/-- A connection is dropped: its channel has none any more. -/
theorem conn_dropNcci {nbchan : Nat} {s₀ : Card} (wired : Wired nbchan s.links) (live : s.nccis n = some ncci)
    (conn : (s₀.dropNcci env n ncci' plci).conn c = some r) (nccip : ∀ c, (s₀.bchans c).nccip = (s.bchans c).nccip)
    (nccis : s₀.nccis = Function.update s.nccis n (some ncci')) (chan : ncci'.chan = ncci.chan) :
    c ≠ ncci.chan ∧ s.conn c = some r := by
  obtain ⟨m, pointer, found⟩ := Option.bind_eq_some_iff.mp conn
  have elsewhere : c ≠ ncci.chan := by
    intro same
    rw [same, ← chan] at pointer
    simp only [Card.dropNcci, Function.update_self] at pointer
    cases pointer
  have bchan : (s₀.dropNcci env n ncci' plci).bchans c = s₀.bchans c := Function.update_of_ne (chan ▸ elsewhere) _ _
  rw [bchan, nccip] at pointer
  have other := wired.pointer_ne live elsewhere pointer
  have kept : (s₀.dropNcci env n ncci' plci).nccis m = s.nccis m := by
    show Function.update s₀.nccis n none m = s.nccis m
    rw [Function.update_of_ne other, nccis, Function.update_of_ne other]
  rw [kept] at found
  exact ⟨elsewhere, (conn_pointer pointer).trans found⟩

end Connections

/-! ## Tables -/

section Tables

variable (ncci : Ncci)

/-- The connection's state machine does not touch its number. -/
@[simp] theorem Ncci.after_ncci (event : NcciEvent) : (ncci.after event).ncci = ncci.ncci := by
  unfold Ncci.after
  split
  · rfl
  · rfl

/-- No other event makes or ends the request for a connection. -/
theorem Ncci.Phased.requested_iff {ncci : Ncci} (phased : ncci.Phased) (event : NcciEvent)
    (other : event ≠ .CONNECT_B3_CONF_OK ∧ event ≠ .CONNECT_B3_CONF_ERROR) :
    (ncci.after event).state = .OUTGOING ↔ ncci.state = .OUTGOING := by
  have table : ∀ c ∈ nccitable, c.actstate ∈ ncciPhases →
      c.nextstate ≠ some .OUTGOING ∧ (c.nextstate = none → c.actstate = .DISCONNECTING) := by decide
  have previous : ∀ state ∈ [NcciState.ALLOCATED, .ACTIVE], state ≠ .OUTGOING := by decide
  constructor
  · intro requested
    unfold Ncci.after at requested
    cases found : ncciChange ncci.state event with
    | none => simpa only [found] using requested
    | some c =>
      obtain ⟨member, state, -⟩ := ncciChange_some found
      obtain ⟨elsewhere, back⟩ := table c member (state ▸ phased.state)
      simp only [found] at requested
      cases next : c.nextstate with
      | none =>
        rw [next, Option.getD_none] at requested
        exact absurd requested (previous _ (phased.oldstate (state ▸ back next)))
      | some next' =>
        rw [next, Option.getD_some] at requested
        exact absurd (next.trans (congrArg some requested)) elsewhere
  · exact fun requested => Ncci.after_requested requested other

end Tables

/-! ## Commands -/

section Commands

variable {env : Env} {s s' : Card} {announced : List (Nat × UInt32)} {command command' : Command}

/-- Channels that keep their pointers keep their connections. -/
theorem Keeps.of_nccip (nccip : ∀ c, (s'.bchans c).nccip = (s.bchans c).nccip) (nccis : s'.nccis = s.nccis) :
    Keeps s s' := by
  apply Keeps.of_eq
  intro c
  rw [Card.conn, nccip, nccis, Card.conn]

theorem nccip_flag (s : Card) (chan c : Nat) : ((s.flag chan).bchans c).nccip = (s.bchans c).nccip :=
  field_update Bchan.nccip (by rfl) c

/-- A command gives no connection a number. -/
theorem effect_keeps (valid : Valid env s) (effect : Effect env s command s') : Keeps s s' := by
  cases effect with
  | calm calm => exact calm.keeps
  | @dial arg chan phone eazmsn si1 si2 =>
    have dialed : ∀ c, ((s.dialed chan phone eazmsn si1 si2).bchans c).nccip = (s.bchans c).nccip :=
      field_update Bchan.nccip (by rfl)
    apply Keeps.of_nccip
    · intro c
      rw [← dialed]
      exact field_update Bchan.nccip (by rfl) c
    · rfl
  | acceptd => exact Keeps.of_nccip (fun _ => rfl) rfl
  | @hangupNcci arg chan n ncci at_channel unflagged conn live =>
    have requested := (valid.nccis n ncci live).requested_iff .DISCONNECT_B3_REQ (by decide)
    exact Keeps.setNcci live (nccip_flag s chan) rfl (Ncci.after_ncci ncci _) requested
  | @hangupIncoming arg chan => exact Keeps.of_nccip (nccip_flag s chan) rfl
  | @hangupPlci arg chan => exact Keeps.of_nccip (nccip_flag s chan) rfl

/-- A command clears no flag. -/
theorem effect_flags (effect : Effect env s command s') {c : Nat} (unflagged : (s'.bchans c).disconnecting = false) :
    (s.bchans c).disconnecting = false := by
  have flag : ∀ chan, ((s.flag chan).bchans c).disconnecting = false → (s.bchans c).disconnecting = false := by
    intro chan unflagged
    rcases eq_or_ne c chan with rfl | other
    · rw [flag_bchan] at unflagged
      cases unflagged
    · have same : (s.flag chan).bchans c = s.bchans c := Function.update_of_ne other _ _
      rw [same] at unflagged
      exact unflagged
  cases effect with
  | calm calm => exact (calm.disconnecting c).symm.trans unflagged
  | @dial arg chan phone eazmsn si1 si2 =>
    have dialed : ((s.dialed chan phone eazmsn si1 si2).bchans c).disconnecting = (s.bchans c).disconnecting :=
      field_update Bchan.disconnecting (by rfl) c
    rw [← dialed, ← unflagged]
    exact (field_update Bchan.disconnecting (by rfl) c).symm
  | acceptd => exact unflagged
  | @hangupNcci arg chan => exact flag chan unflagged
  | @hangupIncoming arg chan => exact flag chan unflagged
  | @hangupPlci arg chan => exact flag chan unflagged

/-- A command makes no other one untimely. -/
theorem effect_timely (valid : Valid env s) (effect : Effect env s command s') (timely : ¬ Untimely env s command') :
    ¬ Untimely env s' command' := by
  intro untimely
  apply timely
  cases command' with
  | HANGUP arg =>
    obtain ⟨chan, ncci', at_channel, unflagged, conn', requested⟩ := untimely
    obtain ⟨ncci, conn, -, same⟩ := effect_keeps valid effect chan ncci' conn'
    exact ⟨chan, ncci, at_channel, effect_flags effect unflagged, conn, same.mp requested⟩
  | _ => exact untimely

/-- A command that is not untimely names announced NCCIs only. -/
theorem effect_names (known : Known announced s) (effect : Effect env s command s') (timely : ¬ Untimely env s command) :
    Names announced s s' := by
  cases effect with
  | calm _ silent => exact silent.names
  | dial => exact Names.other rfl rfl rfl
  | acceptd _ _ _ message =>
    have answer := congrArg Prod.snd message
    have other := names_of_other fun same => absurd (answer.symm.trans same) (by decide)
    exact Names.other rfl rfl other
  | @hangupNcci arg chan n ncci at_channel unflagged pointer live =>
    have conn := (conn_pointer pointer).trans live
    have confirmed : ncci.state ≠ .OUTGOING := fun requested =>
      timely ⟨chan, ncci, at_channel, unflagged, conn, requested⟩
    exact Names.one rfl rfl rfl rfl (known chan ncci conn confirmed)
  | hangupIncoming => exact Names.none rfl rfl
  | hangupPlci => exact Names.other rfl rfl rfl

/-- The commands that isdn4linux issues while it is told about a call. -/
theorem commands_names (valid : Valid env s) (known : Known announced s) {commands : List Command}
    (timely : ∀ command ∈ commands, ¬ Untimely env s command)
    (run : commands.foldlM (fun s command => (capidrvCommand env s command).map Prod.fst) s = some s') :
    Names announced s s' ∧ Keeps s s' := by
  induction commands generalizing s with
  | nil =>
    cases run
    exact ⟨Names.none rfl rfl, Keeps.refl _⟩
  | cons command commands ih =>
    obtain ⟨t, res, -, effect, -, rest⟩ := commands_cons valid.wired run
    have keeps := effect_keeps valid effect
    have timely' : ∀ command ∈ commands, ¬ Untimely env t command := fun command member =>
      effect_timely valid effect (timely command (List.mem_cons_of_mem _ member))
    obtain ⟨names, keeps'⟩ := ih (valid.effect effect) (known.keeps keeps) timely' rest
    exact ⟨(effect_names known effect (timely command List.mem_cons_self)).trans names, keeps.trans keeps'⟩

end Commands

/-! ## Messages -/

section Messages

variable {env : Env} {s s' : Card} {cmsg : Cmsg} {announced : List (Nat × UInt32)} {n p : Nat} {ncci : Ncci} {plci : Plci}

/-- Only a DISCONNECT_B3_IND takes an announcement back. -/
theorem announce_more (env : Env) (s : Card) (other : cmd cmsg ≠ CAPI_DISCONNECT_B3_IND) :
    ∀ e ∈ announced, e ∈ announce env s cmsg announced := by
  intro e member
  unfold announce
  split
  · exact member
  split
  · split
    · exact member
    · exact List.mem_cons_of_mem _ member
  split
  · split
    · exact member
    · split
      · exact List.mem_cons_of_mem _ member
      · exact member
  · exact member

/-- A CONNECT_B3_IND for a call announces its NCCI on the call's channel. -/
theorem announce_connectB3Ind (route : toNcci env cmsg) (message : cmd cmsg = CAPI_CONNECT_B3_IND)
    (found : findPlciByNcci s cmsg.adr = some (p, plci)) : (plci.chan, cmsg.adr) ∈ announce env s cmsg announced := by
  unfold announce
  rw [if_neg (not_not.mpr route), if_pos message, found]
  exact List.mem_cons_self

/-- A CONNECT_B3_CONF without an error announces its NCCI on the channel of the request. -/
theorem announce_connectB3Conf (route : toNcci env cmsg) (message : cmd cmsg = CAPI_CONNECT_B3_CONF)
    (found : findNcciByMsgid s cmsg.adr cmsg.messagenumber = some (n, ncci)) (fine : cmsg.word .info = 0) :
    (ncci.chan, cmsg.adr) ∈ announce env s cmsg announced := by
  have other : cmd cmsg ≠ CAPI_CONNECT_B3_IND := by
    rw [message]
    decide
  unfold announce
  rw [if_neg (not_not.mpr route), if_neg other, if_pos message, found]
  dsimp only
  rw [if_pos fine]
  exact List.mem_cons_self

theorem announce_disconnectB3Ind (route : toNcci env cmsg) (message : cmd cmsg = CAPI_DISCONNECT_B3_IND) :
    announce env s cmsg announced = announced.filter fun e => e.2 ≠ cmsg.adr := by
  have other : cmd cmsg ≠ CAPI_CONNECT_B3_IND ∧ cmd cmsg ≠ CAPI_CONNECT_B3_CONF := by
    rw [message]
    decide
  unfold announce
  rw [if_neg (not_not.mpr route), if_neg other.1, if_neg other.2, if_pos message]

/-- isdn4linux is told about a call. -/
theorem keeps_offered (s : Card) (cmsg : Cmsg) (chan : Nat) : Keeps s (s.offered cmsg chan) := by
  apply Keeps.of_nccip
  · intro c
    rcases eq_or_ne c chan with rfl | other
    · show ((s.offer c cmsg.adr).bchans c).nccip = _
      rw [offer_bchan]
    · have first : (s.offered cmsg chan).bchans c = s.bchans c := by
        simp only [Card.offered, Card.offer, Card.asked, Card.statcallb, Card.setBchan, Card.addPlci, incomingPlci,
          freshPlci, Function.update_of_ne other]
      rw [first]
  · rfl

/-- An incoming call names what its commands name. -/
theorem incomingCall_names (valid : Valid env s) (known : Known announced s) {chan : Nat} {s₁ : Card}
    (found : ∃ s₀, newBchan env s = some (s₀, chan))
    (timely : ∀ command ∈ (env.icall (s.tick + 1)).1, ¬ Untimely env (s.offered cmsg chan) command)
    (commands : (env.icall (s.tick + 1)).1.foldlM
      (fun s command => (capidrvCommand env s command).map Prod.fst) (s.offered cmsg chan) = some s₁)
    (result : incomingResult env s₁ cmsg s.plciNext (env.icall (s.tick + 1)).2 = some s') :
    Names announced s s' ∧ Keeps s s' := by
  have offered := offered_valid valid found cmsg
  have told : Names announced s (s.offered cmsg chan) := Names.none rfl rfl
  have keeps := keeps_offered s cmsg chan
  obtain ⟨issued, keeps'⟩ := commands_names offered (known.keeps keeps) timely commands
  obtain ⟨-, plci, live, listed⟩ := incoming_live valid.wired found commands
  have ended : Names announced s₁ s' ∧ Keeps s₁ s' := by
    cases verdict_of_result live listed result with
    | @rejected _ reject =>
      have other : names ((capiCmsgAnswer cmsg).setWord .reject reject) = false := names_answer cmsg
      exact ⟨Names.other rfl rfl other, Keeps.of_nccip (fun _ => rfl) rfl⟩
    | alerted => exact ⟨Names.other rfl rfl rfl, Keeps.of_nccip (fun _ => rfl) rfl⟩
    | kept => exact ⟨Names.none rfl rfl, Keeps.refl _⟩
  exact ⟨(told.trans issued).trans ended.1, (keeps.trans keeps').trans ended.2⟩

/-- An orderly message names announced NCCIs only. -/
theorem reaction_names {t : Noted} (valid : Valid env t.card) (known : Known t.announced t.card)
    (orderly : OrderlyMessage env t cmsg) (reaction : Reaction env t.card cmsg s') : Names t.announced t.card s' := by
  have answered : Names t.announced t.card (answer env t.card cmsg) := Names.other rfl rfl (names_answer cmsg)
  cases reaction with
  | calm _ silent => exact silent.names
  | connectActive | connectB3Active | disconnectB3Early | resetB3Ind =>
    exact Names.other rfl rfl (names_answer cmsg)
  | @disconnectInd p plci =>
    apply Names.trans _ (Names.dropPlci _ p (plci.after .DISCONNECT_IND))
    exact Names.other rfl rfl (names_answer cmsg)
  | connectB3Ind => exact Names.other rfl rfl rfl
  | connectB3Failed => exact Names.trans (Names.none rfl rfl) (Names.dropNcci _ _ _ _ _)
  | disconnectConf | connected | connectFailed | renumbered | unannounced | connectedB3 | renumberedB3
  | disconnectB3Conf =>
    exact Names.none rfl rfl
  | requestB3 => exact answered.trans (Names.other rfl rfl rfl)
  | @disconnectB3Ind n ncci plci =>
    apply Names.trans _ (Names.dropNcci env _ n (ncci.after .DISCONNECT_B3_IND) plci)
    exact Names.other rfl rfl (names_answer cmsg)
  | incomingCall route message found mem fit commands result =>
    have timely := orderly.connectInd route message _ found mem fit
    exact (incomingCall_names valid known found timely commands result).1

/-- Only announcements give the connections of the channels numbers. -/
theorem reaction_known {t : Noted} (valid : Valid env t.card) (known : Known t.announced t.card)
    (orderly : OrderlyMessage env t cmsg) (other : ¬ (toNcci env cmsg ∧ cmd cmsg = CAPI_DISCONNECT_B3_IND))
    (reaction : Reaction env t.card cmsg s') : Known (announce env t.card cmsg t.announced) s' := by
  have wired := valid.wired
  have more : ∀ e ∈ t.announced, e ∈ announce env t.card cmsg t.announced := by
    intro e member
    rcases ne_or_eq (cmd cmsg) CAPI_DISCONNECT_B3_IND with before | ends
    · exact announce_more env t.card before e member
    · have elsewhere : ¬ toNcci env cmsg := fun route => other ⟨route, ends⟩
      rw [announce, if_pos elsewhere]
      exact member
  have still := known.mono more
  cases reaction with
  | calm calm => exact still.keeps calm.keeps
  | @disconnectInd p plci =>
    apply still.keeps
    apply Keeps.of_nccip
    · exact fun c => (field_update Bchan.nccip (by rfl) c).trans (nccip_flag t.card plci.chan c)
    · rfl
  | @disconnectConf p plci => exact still.keeps (Keeps.of_nccip (nccip_flag t.card plci.chan) rfl)
  | connected | renumbered | connectActive => exact still.keeps (Keeps.of_nccip (fun _ => rfl) rfl)
  | connectFailed | unannounced => exact still.keeps (Keeps.of_nccip (field_update Bchan.nccip (by rfl)) rfl)
  | @requestB3 p plci =>
    have answered : Known (announce env t.card cmsg t.announced) (answer env t.card cmsg).nextMsgid := still
    exact answered.addNcci wired (plci.after .CONNECT_ACTIVE_IND) fun confirmed => absurd rfl confirmed
  | incomingCall route message found mem fit commands result =>
    have timely := orderly.connectInd route message _ found mem fit
    exact still.keeps (incomingCall_names valid known found timely commands result).2
  | connectB3Active route message found conn =>
    have requested := (valid.nccis _ _ conn.live).requested_iff .CONNECT_B3_ACTIVE_IND (by decide)
    exact still.keeps (Keeps.setNcci conn.live (fun _ => rfl) rfl (Ncci.after_ncci _ _) requested)
  | @connectB3Ind p plci route message found =>
    exact still.addNcci wired plci fun _ => announce_connectB3Ind route message found
  | connectedB3 route message found conn fine =>
    apply still.setNcci wired conn.live
    intro _ _
    rw [Ncci.after_ncci]
    exact announce_connectB3Conf route message found fine
  | connectB3Failed route message found conn =>
    apply still.keeps
    intro c r conn'
    obtain ⟨-, before⟩ := conn_dropNcci wired conn.live conn' (fun _ => rfl) rfl rfl
    exact ⟨r, before, rfl, Iff.rfl⟩
  | renumberedB3 route message found conn error confirmed =>
    apply still.setNcci wired conn.live
    intro pointer _
    exact more _ (orderly.connectB3Conf route message error _ _ found confirmed pointer)
  | disconnectB3Ind route message => exact absurd ⟨route, message⟩ other
  | disconnectB3Early route message => exact absurd ⟨route, message⟩ other
  | disconnectB3Conf route message found conn =>
    have requested := (valid.nccis _ _ conn.live).requested_iff .DISCONNECT_B3_CONF_ERROR (by decide)
    exact still.keeps (Keeps.setNcci conn.live (fun _ => rfl) rfl (Ncci.after_ncci _ _) requested)
  | resetB3Ind route message found conn =>
    have requested := (valid.nccis _ _ conn.live).requested_iff .RESET_B3_IND (by decide)
    exact still.keeps (Keeps.setNcci conn.live (fun _ => rfl) rfl (Ncci.after_ncci _ _) requested)

/-- The end of a connection takes its number from the channel that has it. -/
theorem disconnectB3Ind_known {t : Noted} (valid : Valid env t.card) (known : Known t.announced t.card)
    (orderly : OrderlyMessage env t cmsg) (route : toNcci env cmsg) (message : cmd cmsg = CAPI_DISCONNECT_B3_IND)
    (run : disconnectB3Ind env t.card cmsg = some s') : Known (announce env t.card cmsg t.announced) s' := by
  rw [announce_disconnectB3Ind route message]
  have kept : ∀ c r, t.card.conn c = some r → r.state ≠ .OUTGOING → r.ncci ≠ cmsg.adr →
      (c, r.ncci) ∈ t.announced.filter fun e => e.2 ≠ cmsg.adr := by
    intro c r conn confirmed other
    exact List.mem_filter.mpr ⟨known c r conn confirmed, decide_eq_true other⟩
  have ends := orderly.disconnectB3Ind route message
  cases found : findNcci t.card cmsg.adr with
  | none =>
    unfold disconnectB3Ind at run
    simp only [found, Option.some.injEq] at run
    subst run
    intro c r conn confirmed
    apply kept c r conn confirmed
    intro same
    obtain ⟨n, ncci, its, -⟩ := ends c r conn confirmed same
    cases found.symm.trans its
  | some e =>
    obtain ⟨n, ncci⟩ := e
    obtain ⟨plci, conn, -⟩ := valid.wired.findNcci found
    rcases eq_or_ne ncci.state .OUTGOING with requested | released
    · cases run.symm.trans (disconnectB3Ind_early found conn requested)
      intro c r conn' confirmed
      have before : t.card.conn c = some r := by
        rw [← conn', Card.conn, Card.conn]
        exact congrArg (fun m => m.bind t.card.nccis) (nccip_flag t.card ncci.chan c).symm
      apply kept c r before confirmed
      intro same
      obtain ⟨m, its, found', -, open_⟩ := ends c r before confirmed same
      cases found.symm.trans found'
      exact open_ requested
    · cases run.symm.trans (disconnectB3Ind_drops found conn (valid.nccis n ncci conn.live) released)
      intro c r conn' confirmed
      obtain ⟨elsewhere, before⟩ := conn_dropNcci valid.wired conn.live conn' (nccip_flag t.card ncci.chan) rfl
        (Ncci.after_chan ncci _)
      apply kept c r before confirmed
      intro same
      obtain ⟨m, its, found', chan, -⟩ := ends c r before confirmed same
      cases found.symm.trans found'
      exact elsewhere chan.symm

/-- What is known does not depend on the list of the outstanding. -/
theorem known_confirm {announced : List (Nat × UInt32)} : Known announced (confirm env s cmsg) ↔ Known announced s := by
  unfold confirm
  split
  · exact Iff.rfl
  · exact Iff.rfl

theorem names_confirm (names : Names announced s s') : Names announced s (confirm env s' cmsg) := by
  unfold confirm
  split
  · exact names
  · exact names

/-- An orderly message names announced NCCIs only, and its own announcements cover the connections it leaves. -/
theorem names_known_message {t : Noted} (valid : Valid env t.card) (known : Known t.announced t.card) {data : Bytes}
    (orderly : OrderlyMessage env t cmsg) (handled : handleMessage env t.card cmsg data = some s') :
    Names t.announced t.card s' ∧ Known (announce env t.card cmsg t.announced) s' := by
  have reaction := reaction_handleMessage valid handled
  refine ⟨reaction_names valid known orderly reaction, ?_⟩
  rcases em (toNcci env cmsg ∧ cmd cmsg = CAPI_DISCONNECT_B3_IND) with ⟨route, message⟩ | other
  · rw [handleMessage_disconnectB3Ind t.card data route message] at handled
    exact disconnectB3Ind_known valid known orderly route message handled
  · exact reaction_known valid known orderly other reaction

end Messages

/-! ## Runs -/

/-- What a step does to the connections of the channels. -/
theorem names_known_step {env : Env} {t : Noted} {s' : Card} {op : Op} (valid : Valid env t.card)
    (known : Known t.announced t.card) (orderly : Orderly env t op) (run : step env t.card op = some s') :
    Names t.announced t.card s' ∧ Known (noteOp env t op) s' := by
  cases op with
  | recv msg =>
    obtain ⟨cmsg, decoded, rest⟩ := Option.bind_eq_some_iff.mp run
    obtain ⟨s₁, handled, rest⟩ := Option.bind_eq_some_iff.mp rest
    cases rest
    have noted : noteOp env t (.recv msg) = announce env t.card cmsg t.announced := by
      simp only [noteOp, decoded]
    obtain ⟨names, known'⟩ := names_known_message valid known (orderly cmsg decoded) handled
    rw [noted]
    exact ⟨names_confirm names, known_confirm.mpr known'⟩
  | command command =>
    obtain ⟨⟨s₁, res⟩, done, rest⟩ := Option.map_eq_some_iff.mp run
    cases rest
    have effect := Effect.of_run valid.wired done
    exact ⟨effect_names known effect orderly, known.keeps (effect_keeps valid effect)⟩
  | sendbuf arg doack skb =>
    cases transition valid run with
    | calm calm silent => exact ⟨silent.names, known.keeps calm.keeps⟩
    | data at_channel pointer live active sends =>
      obtain ⟨e, sent, message, adr, -⟩ := sends.sent
      have confirmed := known _ _ ((conn_pointer pointer).trans live) (by rw [active]; decide)
      have isNamed : names e.cmsg = true := by
        rw [names, message]
        rfl
      exact ⟨Names.one sent sends.named isNamed adr confirmed, known.keeps sends.calm.keeps⟩
  | readstat | listen | trace =>
    cases transition valid run with
    | calm calm silent => exact ⟨silent.names, known.keeps calm.keeps⟩

/-- In a run whose steps are orderly, every DISCONNECT_B3_REQ and DATA_B3_REQ carries an NCCI that the controller has
announced for the channel and not ended. -/
theorem named_announced (env : Env) (ops : List Op) (orderly : Meets (noteStep env) (Orderly env) Noted.init ops) :
    Each (noteStep env) (fun t _ t' => Names t.announced t.card t'.card) Noted.init ops := by
  refine each_of_inv (fun t => Valid env t.card ∧ Known t.announced t.card) ?_ ⟨valid_init env, nofun⟩ orderly
  intro t op t' ⟨valid, known⟩ orderly run
  obtain ⟨s', done, rfl⟩ := Option.map_eq_some_iff.mp run
  obtain ⟨names, known'⟩ := names_known_step valid known orderly done
  exact ⟨names, valid_step valid done, known'⟩

/-- A dialled call has a number, but its connection is not confirmed yet. -/
def requestedOnly : List Op :=
  [.command (.DIAL 0 .empty .empty 1 0),
   .recv (controllerMsg CAPI_CONNECT_CONF 0 [1, 1, 0, 0] [0, 0]),
   .recv (controllerMsg CAPI_CONNECT_ACTIVE_IND 0 [1, 1, 0, 0] [0, 0, 0])]

/-- The message offers no call, ends no connection, and confirms none with an error. -/
def ordinary (msg : Bytes) : Bool :=
  match capiMessage2cmsg msg with
  | none => true
  | some cmsg => cmd cmsg ≠ CAPI_CONNECT_IND && cmd cmsg ≠ CAPI_DISCONNECT_B3_IND &&
      (cmd cmsg ≠ CAPI_CONNECT_B3_CONF || cmsg.word .info = 0)

/-- A message that is none of the ordered kinds is orderly. -/
theorem orderly_ordinary (env : Env) (t : Noted) {msg : Bytes} (isOrdinary : ordinary msg = true) : Orderly env t (.recv msg) := by
  intro cmsg decoded
  unfold ordinary at isOrdinary
  simp only [decoded, Bool.and_eq_true, Bool.or_eq_true, decide_eq_true_eq] at isOrdinary
  obtain ⟨⟨call, ends⟩, confirms⟩ := isOrdinary
  constructor
  · exact fun _ message => absurd message call
  · exact fun _ message error => absurd (confirms.resolve_left (not_not.mpr message)) error
  · exact fun _ message => absurd message ends

/-- The connection of a dialled call is confirmed. -/
def confirmedCall : List Op := requestedOnly ++ [.recv (controllerMsg CAPI_CONNECT_B3_CONF 1 [1, 1, 1, 0] [0, 0])]

/-- Its hang-up names it by its NCCI, which is announced. -/
theorem named_announced_hangup :
    Each (noteStep Env.granting) (fun t _ t' => Names t.announced t.card t'.card) Noted.init
        (confirmedCall ++ [.command (.HANGUP 0)]) ∧
      (exec (noteStep Env.granting) Noted.init (confirmedCall ++ [.command (.HANGUP 0)])).map
        (fun t => (t.announced, t.card.named)) = some ([(0, 0x10101)], [(0, 0x10101)]) := by
  refine ⟨named_announced Env.granting _ ?_, rfl⟩
  obtain ⟨t, run⟩ : ∃ t, exec (noteStep Env.granting) Noted.init confirmedCall = some t := ⟨_, rfl⟩
  have before : Meets (noteStep Env.granting) (Orderly Env.granting) Noted.init confirmedCall :=
    ⟨id, fun _ _ => ⟨orderly_ordinary _ _ rfl, fun _ _ => ⟨orderly_ordinary _ _ rfl, fun _ _ =>
      ⟨orderly_ordinary _ _ rfl, fun _ _ => trivial⟩⟩⟩⟩
  refine before.append run ⟨?_, fun _ _ => trivial⟩
  intro ⟨chan, ncci, at_channel, _, conn, requested⟩
  cases at_channel
  have here : t.card.conn 0 = some ncci := conn
  have view : (exec (noteStep Env.granting) Noted.init confirmedCall).map
      (fun t => (t.card.conn 0).map Ncci.state) = some (some .ALLOCATED) := rfl
  rw [run, Option.map_some, Option.some.injEq, here, Option.map_some, requested] at view
  cases view

/-- The hang-up of a requested connection names it by the number of the call. -/
theorem requested_named : ¬ Each (noteStep Env.granting) (fun t _ t' => Names t.announced t.card t'.card) Noted.init
    (requestedOnly ++ [.command (.HANGUP 0)]) := by
  intro each
  obtain ⟨t, run⟩ : ∃ t, exec (noteStep Env.granting) Noted.init requestedOnly = some t := ⟨_, rfl⟩
  have before : (exec (noteStep Env.granting) Noted.init requestedOnly).map
      (fun t => (t.announced, t.card.named)) = some ([], []) := rfl
  have after : (exec (noteStep Env.granting) Noted.init requestedOnly).bind
      (fun t => (noteStep Env.granting t (.command (.HANGUP 0))).map fun t' => t'.card.named) = some [(0, 0x101)] := rfl
  rw [run, Option.map_some, Option.some.injEq, Prod.mk.injEq] at before
  rw [run, Option.bind_some] at after
  obtain ⟨t', hungUp, named'⟩ := Option.map_eq_some_iff.mp after
  obtain ⟨news, sent, named, -, -, known⟩ := each.last run hungUp
  rw [before.2, named', List.nil_append] at named
  rw [← named, before.1] at known
  exact List.not_mem_nil (known (0, 0x101) List.mem_cons_self)

end Capi4Linux.Capidrv
