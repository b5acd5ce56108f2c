import Capi4Linux.Capidrv.LeasedLineScan
import Capi4Linux.Capidrv.Reactions

/-!
# What a step does to the links of a card

A message releases a call or a connection that it finds in the right state;
every other step only adds to the links. A valid card stays valid.
-/

namespace Capi4Linux.Capidrv
open Bytes Capicore Capiutil Machine

/-! ## Links -/

/-- The message releases a call: a DISCONNECT_IND, or the failure of its CONNECT_REQ. -/
structure ReleasesCall (env : Env) (s : Card) (cmsg : Cmsg) (p : Nat) (plci : Plci) : Prop where
  route : toPlci env cmsg
  live : s.plcis p = some plci
  message : cmd cmsg = CAPI_DISCONNECT_IND ∧ findPlciByPlci s cmsg.adr = some (p, plci) ∨
    cmd cmsg = CAPI_CONNECT_CONF ∧ cmsg.word .info ≠ 0 ∧ findPlciByMsgid s cmsg.messagenumber = some (p, plci) ∧
      plci.state = .OUTGOING

/-- The message releases a connection: a DISCONNECT_B3_IND, or the failure of its CONNECT_B3_REQ. -/
structure ReleasesConn (env : Env) (s : Card) (cmsg : Cmsg) (n : Nat) (ncci : Ncci) (plci : Plci) : Prop where
  route : toNcci env cmsg
  conn : Conn s n ncci plci
  message : cmd cmsg = CAPI_DISCONNECT_B3_IND ∧ findNcci s cmsg.adr = some (n, ncci) ∧ ncci.state ≠ .OUTGOING ∨
    cmd cmsg = CAPI_CONNECT_B3_CONF ∧ cmsg.word .info ≠ 0 ∧
      findNcciByMsgid s cmsg.adr cmsg.messagenumber = some (n, ncci) ∧ ncci.state = .OUTGOING

/-- The call is gone and its channel is free again. -/
structure DropsCall (s : Card) (p : Nat) (plci : Plci) (s' : Card) : Prop where
  links : s'.links = s.links.dropPlci p plci.chan
  disconnecting : (s'.bchans plci.chan).disconnecting = false
  incoming : (s'.bchans plci.chan).incoming = false

/-- What a message does to the links of the card. -/
inductive LinksAfter (env : Env) (s : Card) (cmsg : Cmsg) (s' : Card) : Prop where
  | grows (grows : Grows env.nbchan s.links s'.links)
  | call {p : Nat} {plci : Plci} (releases : ReleasesCall env s cmsg p plci) (drops : DropsCall s p plci s')
  | conn {n : Nat} {ncci : Ncci} {plci : Plci} (releases : ReleasesConn env s cmsg n ncci plci)
      (drops : s'.links = s.links.dropNcci n ncci.plcip plci.chan plci.ncciList)

section Links

variable {env : Env} {s s' : Card} {cmsg : Cmsg} {p n chan : Nat} {plci plci' : Plci} {ncci ncci' : Ncci}

/-- The record of a call is dropped after changes that touch no pointer. -/
theorem DropsCall.of_drop {s₀ : Card} (same : s₀.links = s.links) (chan : plci'.chan = plci.chan) :
    DropsCall s p plci (s₀.dropPlci p plci') := by
  have bchan : (s₀.dropPlci p plci').bchans plci.chan =
      { s₀.bchans plci'.chan with plcip := none, disconnecting := false, incoming := false } := by
    rw [← chan]
    exact Function.update_self _ _ _
  constructor
  · rw [links_dropPlci, same, chan]
  · rw [bchan]
  · rw [bchan]

/-- The links after a call was found and set to another state. -/
theorem links_setPlci_after (s₀ : Card) (same : s₀.links = s.links) (here : s₀.plcis p = some plci) (event : PlciEvent) :
    (s₀.setPlci p (plci.after event)).links = s.links := by
  have set : (s₀.setPlci p (plci.after event)).links = s₀.links := links_setPlci here rfl rfl
  rw [set, same]

/-- An event that frees nothing touches no pointer. -/
theorem links_setNcci_after (s₀ : Card) (same : s₀.links = s.links) (here : s₀.nccis n = some ncci) (event : NcciEvent) :
    (s₀.setNcci n (ncci.after event)).links = s.links :=
  (links_setNcci here (ncci.after_plcip event) (ncci.after_chan event)).trans same

/-- A command adds a call at most. -/
theorem effect_grows {command : Command} (effect : Effect env s command s') :
    Grows env.nbchan s.links s'.links := by
  cases effect with
  | calm calm => exact .of_eq calm.links
  | @dial arg chan phone eazmsn si1 si2 line at_channel free mem =>
    have dialed : (s.dialed chan phone eazmsn si1 si2).links = s.links := links_setBchan rfl rfl
    have added := links_addPlci (s.dialed chan phone eazmsn si1 si2).nextMsgid
      { freshPlci chan with msgid := s.msgid, leasedline := line.isRight, state := .OUTGOING } rfl
    rw [links_nextMsgid, dialed] at added
    apply Grows.call (channel_some at_channel).2 free
    exact .of_eq added
  | acceptd at_channel call live => exact .of_eq (links_setPlci_after _ rfl live .CONNECT_RESP)
  | @hangupNcci arg chan n ncci at_channel unflagged conn live =>
    have flagged := links_flag s chan
    exact .of_eq (links_setNcci_after _ flagged live .DISCONNECT_B3_REQ)
  | hangupIncoming => exact .of_eq (links_flag s _)
  | @hangupPlci arg chan p plci at_channel unflagged noconn call live =>
    have flagged := links_flag s chan
    exact .of_eq (links_setPlci_after _ flagged live .DISCONNECT_REQ)

/-- The first of the commands of a callback, and the rest. -/
theorem commands_cons (wired : Wired env.nbchan s.links) {command : Command} {commands : List Command}
    (run : (command :: commands).foldlM (fun s command => (capidrvCommand env s command).map Prod.fst) s = some s') :
    ∃ t res, capidrvCommand env s command = some (t, res) ∧ Effect env s command t ∧ Wired env.nbchan t.links ∧
      commands.foldlM (fun s command => (capidrvCommand env s command).map Prod.fst) t = some s' := by
  rw [List.foldlM_cons, Option.bind_eq_bind, Option.bind_eq_some_iff] at run
  obtain ⟨t, first, rest⟩ := run
  obtain ⟨⟨t', res⟩, done, rfl⟩ := Option.map_eq_some_iff.mp first
  have effect := Effect.of_run wired done
  exact ⟨t', res, done, effect, wired.grows (effect_grows effect), rest⟩

/-- What the effect of every command relates, the commands of a callback relate. -/
theorem commands_rel {R : Card → Card → Prop} (refl : ∀ s, R s s) (trans : ∀ s t u, R s t → R t u → R s u)
    (round : ∀ s command s', Wired env.nbchan s.links → Effect env s command s' → R s s')
    (wired : Wired env.nbchan s.links) {commands : List Command}
    (run : commands.foldlM (fun s command => (capidrvCommand env s command).map Prod.fst) s = some s') : R s s' := by
  induction commands generalizing s with
  | nil =>
    cases run
    exact refl _
  | cons command commands ih =>
    obtain ⟨t, res, -, effect, wired', rest⟩ := commands_cons wired run
    exact trans s t s' (round s command t wired effect) (ih wired' rest)

theorem commands_grow (wired : Wired env.nbchan s.links) {commands : List Command}
    (run : commands.foldlM (fun s command => (capidrvCommand env s command).map Prod.fst) s = some s') :
    Grows env.nbchan s.links s'.links := by
  apply commands_rel (R := fun s s' => Grows env.nbchan s.links s'.links) ?_ ?_ ?_ wired run
  · intro s
    exact .same s.links
  · intro s t u first second
    exact first.trans second
  · intro s command s' _ effect
    exact effect_grows effect

theorem links_offered (s : Card) (cmsg : Cmsg) (chan : Nat) : (s.offered cmsg chan).links = s.links.addPlci chan := by
  have freed : (s.setBchan chan { s.bchans chan with disconnecting := false }).links = s.links := links_setBchan rfl rfl
  have added := links_addPlci (s.setBchan chan { s.bchans chan with disconnecting := false })
    (incomingPlci chan cmsg.adr) rfl
  rw [freed] at added
  have offered : (s.offer chan cmsg.adr).links =
      ((s.setBchan chan { s.bchans chan with disconnecting := false }).addPlci (incomingPlci chan cmsg.adr)).links :=
    links_setBchan rfl rfl
  exact offered.trans added

/-- Whatever isdn4linux answers, one of the verdicts is what happens. -/
theorem verdict_of_result {res : Int} (live : s.plcis p = some plci) (listed : p ∈ s.plciList)
    (result : incomingResult env s cmsg p res = some s') : Verdict env s cmsg p s' := by
  cases refused : refusal res with
  | some reject =>
    cases result.symm.trans (incomingResult_refused env refused live listed)
    exact .rejected live
  | none =>
    have accepted := refusal_none refused
    subst accepted
    have eq := result.symm.trans (incomingResult_waiting env live)
    split at eq
    · rename_i waiting
      cases eq
      exact .alerted live waiting
    · cases eq
      exact .kept

theorem verdict_links (verdict : Verdict env s cmsg p s') : s'.links = s.links := by
  cases verdict with
  | rejected live => exact links_setPlci_after _ rfl live .CONNECT_REJECT
  | alerted live => exact links_setPlci live rfl rfl
  | kept => rfl

/-- After the commands the call is still there. -/
theorem incoming_live {commands : List Command} {s₁ : Card} (wired : Wired env.nbchan s.links)
    (found : ∃ s₀, newBchan env s = some (s₀, chan))
    (run : commands.foldlM (fun s command => (capidrvCommand env s command).map Prod.fst) (s.offered cmsg chan) = some s₁) :
    Grows env.nbchan s.links s₁.links ∧ ∃ plci, s₁.plcis s.plciNext = some plci ∧ s.plciNext ∈ s₁.plciList := by
  obtain ⟨s₀, found⟩ := found
  obtain ⟨inRange, free, -⟩ := newBchan_some env found
  have offered := links_offered s cmsg chan
  have wired₁ : Wired env.nbchan (s.offered cmsg chan).links := offered ▸ wired.addPlci inRange free
  have grows := commands_grow wired₁ run
  have live : (s.offered cmsg chan).links.plcis s.plciNext = some (chan, []) := by
    rw [offered]
    exact Function.update_self _ _ _
  obtain ⟨ns, kept⟩ := (grows.extends wired₁).kept _ _ _ live
  obtain ⟨plci, here, -⟩ := plcis_of_links kept
  refine ⟨.call inRange free (offered ▸ grows), plci, here, ?_⟩
  exact (wired₁.grows grows).listedPlci here

theorem drops_disconnectInd (env : Env) (cmsg : Cmsg) (live : s.plcis p = some plci) : DropsCall s p plci
    ((answer env ((s.flag plci.chan).setPlci p (plci.after .DISCONNECT_IND)) cmsg).dropPlci p
      (plci.after .DISCONNECT_IND)) := by
  have same := links_setPlci_after (s.flag plci.chan) (links_flag s _) live .DISCONNECT_IND
  exact DropsCall.of_drop same rfl

/-- CONNECT_CONF with an error drops the call. -/
theorem drops_connectConf (live : s.plcis p = some plci) (x : UInt32) : DropsCall s p plci
    ((s.setPlci p { plci with plci := x }).dropPlci p { plci with plci := x }) := by
  have same : (s.setPlci p { plci with plci := x }).links = s.links := links_setPlci live rfl rfl
  exact DropsCall.of_drop same rfl

/-- CONNECT_B3_CONF with an error drops the connection. -/
theorem drops_connectB3Conf (env : Env) (conn : Conn s n ncci plci) (x : UInt32) :
    ((s.setNcci n { ncci with ncci := x }).dropNcci env n { ncci with ncci := x } plci).links =
      s.links.dropNcci n ncci.plcip plci.chan plci.ncciList := by
  have same : (s.setNcci n { ncci with ncci := x }).links = s.links := links_setNcci conn.live rfl rfl
  have chan : Ncci.chan { ncci with ncci := x } = plci.chan := conn.chan
  rw [links_dropNcci env chan, same]

theorem drops_disconnectB3Ind (env : Env) (cmsg : Cmsg) (conn : Conn s n ncci plci) :
    ((answer env ((s.flag ncci.chan).setNcci n (ncci.after .DISCONNECT_B3_IND)) cmsg).dropNcci env n
      (ncci.after .DISCONNECT_B3_IND) plci).links = s.links.dropNcci n ncci.plcip plci.chan plci.ncciList := by
  have same := links_setNcci_after (s.flag ncci.chan) (links_flag s _) conn.live .DISCONNECT_B3_IND
  have chan := (ncci.after_chan .DISCONNECT_B3_IND).trans conn.chan
  rw [links_dropNcci env chan, links_answer, same, ncci.after_plcip]

/-- What a message does to the pointers. -/
theorem reaction_links {s' : Card} (valid : Valid env s) (reaction : Reaction env s cmsg s') :
    LinksAfter env s cmsg s' := by
  cases reaction with
  | calm calm => exact .grows (.of_eq calm.links)
  | @disconnectInd p plci route message found =>
    obtain ⟨live, -⟩ := findPlci_some found
    exact .call ⟨route, live, .inl ⟨message, found⟩⟩ (drops_disconnectInd env cmsg live)
  | disconnectConf => exact .grows (.of_eq (links_flag s _))
  | @connected p plci route message found fine =>
    obtain ⟨live, -⟩ := findPlci_some found
    exact .grows (.of_eq (links_setPlci live rfl rfl))
  | @connectFailed p plci route message found error requested =>
    obtain ⟨live, -⟩ := findPlci_some found
    exact .call ⟨route, live, .inr ⟨message, error, found, requested⟩⟩ (drops_connectConf live cmsg.adr)
  | renumbered route message found =>
    obtain ⟨live, -⟩ := findPlci_some found
    exact .grows (.of_eq (links_setPlci live rfl rfl))
  | connectActive route message found =>
    obtain ⟨live, -⟩ := findPlci_some found
    exact .grows (.of_eq (links_setPlci_after (answer env s cmsg) rfl live .CONNECT_ACTIVE_IND))
  | @requestB3 p plci route message found outgoing mem =>
    obtain ⟨live, -⟩ := findPlci_some found
    have added := links_addNcci (answer env s cmsg).nextMsgid (plci.after .CONNECT_ACTIVE_IND)
      { freshNcci p plci.chan cmsg.adr with msgid := s.msgid, state := .OUTGOING } rfl
    exact .grows (.conn (links_plcis live) (.of_eq added))
  | unannounced => exact .grows (.of_eq (links_setBchan rfl rfl))
  | incomingCall route message found mem fit commands result =>
    obtain ⟨grows, plci, live, listed⟩ := incoming_live valid.wired found commands
    have same := verdict_links (verdict_of_result live listed result)
    exact .grows (grows.trans (.of_eq same))
  | connectB3Active route message found conn =>
    exact .grows (.of_eq (links_setNcci_after (answer env s cmsg) rfl conn.live .CONNECT_B3_ACTIVE_IND))
  | @connectB3Ind p plci route message found mem =>
    obtain ⟨live, -⟩ := findPlci_some found
    have added := links_addNcci s plci
      { freshNcci p plci.chan cmsg.adr with state := .ALLOCATED, oldstate := .INCOMING } rfl
    exact .grows (.conn (links_plcis live) (.of_eq added))
  | @connectedB3 n ncci plci route message found conn =>
    exact .grows (.of_eq (links_setNcci conn.live (Ncci.after_plcip _ _) (Ncci.after_chan _ _)))
  | @connectB3Failed n ncci plci route message found conn error requested =>
    exact .conn ⟨route, conn, .inr ⟨message, error, found, requested⟩⟩ (drops_connectB3Conf env conn cmsg.adr)
  | renumberedB3 route message found conn => exact .grows (.of_eq (links_setNcci conn.live rfl rfl))
  | @disconnectB3Ind n ncci plci route message found conn known =>
    exact .conn ⟨route, conn, .inl ⟨message, found, known⟩⟩ (drops_disconnectB3Ind env cmsg conn)
  | disconnectB3Early => exact .grows (.of_eq (links_flag s _))
  | disconnectB3Conf route message found conn =>
    exact .grows (.of_eq (links_setNcci_after _ rfl conn.live .DISCONNECT_B3_CONF_ERROR))
  | resetB3Ind route message found conn =>
    exact .grows (.of_eq (links_setNcci_after _ rfl conn.live .RESET_B3_IND))

end Links

/-! ## Validity -/

section Validity

variable {env : Env} {s s' : Card} {cmsg : Cmsg} {p n : Nat}

theorem update_some {α : Type} {f : Nat → Option α} {v : Option α} {m : Nat} {a : α}
    (found : Function.update f n v m = some a) : f m = some a ∨ v = some a := by
  rcases eq_or_ne m n with rfl | other
  · rw [Function.update_self] at found
    exact .inr found
  · rw [Function.update_of_ne other] at found
    exact .inl found

theorem Card.Phased.setPlci (phased : s.Phased) {v : Option Plci} (plcis : s'.plcis = Function.update s.plcis p v)
    (nccis : s'.nccis = s.nccis) (next : ∀ plci, v = some plci → plci.Phased) : s'.Phased := by
  constructor
  · intro q plci live
    rw [plcis] at live
    rcases update_some live with old | new
    · exact phased.plcis q plci old
    · exact next plci new
  · intro m ncci live
    rw [nccis] at live
    exact phased.nccis m ncci live

theorem Card.Phased.setNcci (phased : s.Phased) {v : Option Ncci} (plcis : s'.plcis = s.plcis)
    (nccis : s'.nccis = Function.update s.nccis n v) (next : ∀ ncci, v = some ncci → ncci.Phased) : s'.Phased := by
  constructor
  · intro q plci live
    rw [plcis] at live
    exact phased.plcis q plci live
  · intro m ncci live
    rw [nccis] at live
    rcases update_some live with old | new
    · exact phased.nccis m ncci old
    · exact next ncci new

/-- A call and a connection move on. -/
theorem Card.Phased.setBoth (phased : s.Phased) {v : Option Plci} {w : Option Ncci}
    (plcis : s'.plcis = Function.update s.plcis p v) (nccis : s'.nccis = Function.update s.nccis n w)
    (call : ∀ plci, v = some plci → plci.Phased) (conn : ∀ ncci, w = some ncci → ncci.Phased) : s'.Phased := by
  have first : ({ s with plcis := s'.plcis } : Card).Phased := phased.setPlci plcis rfl call
  exact first.setNcci rfl nccis conn

theorem Card.Phased.calm (phased : s.Phased) (calm : Calm s s') : s'.Phased := by
  constructor
  · intro q plci live
    rw [calm.plcis] at live
    exact phased.plcis q plci live
  · intro m ncci live
    obtain ⟨before, found, same⟩ := calm.before live
    obtain ⟨phase, back⟩ := phased.nccis m before found
    obtain ⟨-, -, -, -, state, oldstate⟩ := Ncci.of_still same
    refine ⟨state ▸ phase, ?_⟩
    rw [state, oldstate]
    exact back

/-- These events lead to states with a number, from wherever they come. -/
theorem Plci.Phased.of_after {plci : Plci} {event : PlciEvent} (phased : plci.Phased) (safe : event ∈
    [PlciEvent.CONNECT_CONF_OK, .CONNECT_ACTIVE_IND, .CONNECT_REJECT, .DISCONNECT_REQ, .CONNECT_RESP]) :
    ∀ next, some (plci.after event) = some next → next.Phased := by
  intro next same
  cases same
  exact phased.after safe

/-- These events lead to states of a connection that is known. -/
theorem Ncci.Phased.of_after {ncci : Ncci} {event : NcciEvent} (phased : ncci.Phased) (safe : event ∈
    [NcciEvent.CONNECT_B3_CONF_OK, .CONNECT_B3_ACTIVE_IND, .RESET_B3_IND, .DISCONNECT_B3_CONF_ERROR,
      .DISCONNECT_B3_REQ]) : ∀ next, some (ncci.after event) = some next → next.Phased := by
  intro next same
  cases same
  exact phased.after safe

theorem Plci.Phased.relist {plci : Plci} (phased : plci.Phased) (ncciList : List Nat) :
    Plci.Phased { plci with ncciList } := ⟨phased.state, phased.number⟩

theorem Ncci.Phased.renumber {ncci : Ncci} (phased : ncci.Phased) (x : UInt32) :
    Ncci.Phased { ncci with ncci := x } := ⟨phased.state, phased.oldstate⟩

theorem effect_phased (phased : s.Phased) {command : Command} (effect : Effect env s command s') : s'.Phased := by
  cases effect with
  | calm calm => exact phased.calm calm
  | dial at_channel free mem =>
    refine phased.setPlci rfl rfl ?_
    intro plci same
    cases same
    exact ⟨List.mem_cons_self, fun _ => rfl⟩
  | acceptd at_channel call live => exact phased.setPlci rfl rfl ((phased.plcis _ _ live).of_after (by decide))
  | hangupNcci at_channel unflagged conn live =>
    exact phased.setNcci rfl rfl ((phased.nccis _ _ live).of_after (by decide))
  | hangupIncoming => exact ⟨phased.plcis, phased.nccis⟩
  | hangupPlci at_channel unflagged noconn call live =>
    exact phased.setPlci rfl rfl ((phased.plcis _ _ live).of_after (by decide))

theorem Valid.effect (valid : Valid env s) {command : Command} (effect : Effect env s command s') : Valid env s' :=
  ⟨effect_phased valid.toPhased effect, valid.wired.grows (effect_grows effect)⟩

theorem commands_phased (valid : Valid env s) {commands : List Command}
    (run : commands.foldlM (fun s command => (capidrvCommand env s command).map Prod.fst) s = some s') :
    Valid env s' := by
  apply commands_rel (R := fun s s' => Valid env s → Valid env s') ?_ ?_ ?_ valid.wired run valid
  · intro s valid
    exact valid
  · intro s t u first second valid
    exact second (first valid)
  · intro s command s' _ effect valid
    exact valid.effect effect

/-- A card with an offered call is valid. -/
theorem offered_valid (valid : Valid env s) {chan : Nat} (found : ∃ s₀, newBchan env s = some (s₀, chan))
    (cmsg : Cmsg) : Valid env (s.offered cmsg chan) := by
  obtain ⟨s₀, found⟩ := found
  obtain ⟨inRange, free, -⟩ := newBchan_some env found
  have phased : (s.offered cmsg chan).Phased := by
    refine valid.toPhased.setPlci rfl rfl ?_
    intro plci same
    cases same
    have state : PlciState.INCOMING ∈ plciPhases := by decide
    exact ⟨state, nofun⟩
  refine ⟨phased, ?_⟩
  rw [links_offered]
  exact valid.wired.addPlci inRange free

theorem verdict_phased (phased : s.Phased) (verdict : Verdict env s cmsg p s') : s'.Phased := by
  cases verdict with
  | rejected live => exact phased.setPlci rfl rfl ((phased.plcis _ _ live).of_after (by decide))
  | @alerted plci live waiting =>
    refine phased.setPlci rfl rfl ?_
    intro next same
    cases same
    obtain ⟨state, number⟩ := phased.plcis _ _ live
    exact ⟨state, number⟩
  | kept => exact phased

theorem reaction_phased (valid : Valid env s) (reaction : Reaction env s cmsg s') : s'.Phased := by
  have phased := valid.toPhased
  cases reaction with
  | calm calm => exact phased.calm calm
  | disconnectInd => exact phased.setPlci (Card.dropPlci_plcis rfl _) rfl nofun
  | disconnectConf => exact ⟨phased.plcis, phased.nccis⟩
  | connected route message found =>
    refine phased.setPlci rfl rfl ?_
    intro next same
    cases same
    exact (phased.plcis _ _ (findPlci_some found).1).numbered _
  | connectFailed => exact phased.setPlci (Card.dropPlci_plcis rfl _) rfl nofun
  | renumbered route message found error known =>
    refine phased.setPlci rfl rfl ?_
    intro next same
    cases same
    obtain ⟨state, -⟩ := phased.plcis _ _ (findPlci_some found).1
    exact ⟨state, fun requested => absurd requested known⟩
  | connectActive route message found =>
    exact phased.setPlci rfl rfl ((phased.plcis _ _ (findPlci_some found).1).of_after (by decide))
  | requestB3 route message found =>
    refine phased.setBoth rfl rfl ?_ ?_
    · intro next same
      cases same
      exact ((phased.plcis _ _ (findPlci_some found).1).after (by decide)).relist _
    · intro next same
      cases same
      exact ⟨List.mem_cons_self, nofun⟩
  | unannounced => exact ⟨phased.plcis, phased.nccis⟩
  | incomingCall route message found mem fit commands result =>
    have offered := offered_valid valid found cmsg
    obtain ⟨-, plci, live, listed⟩ := incoming_live valid.wired found commands
    exact verdict_phased (commands_phased offered commands).toPhased (verdict_of_result live listed result)
  | connectB3Active route message found conn =>
    exact phased.setNcci rfl rfl ((phased.nccis _ _ conn.live).of_after (by decide))
  | connectB3Ind route message found =>
    refine phased.setBoth rfl rfl ?_ ?_
    · intro next same
      cases same
      exact (phased.plcis _ _ (findPlci_some found).1).relist _
    · intro next same
      cases same
      have state : NcciState.ALLOCATED ∈ ncciPhases := by decide
      exact ⟨state, nofun⟩
  | connectedB3 route message found conn =>
    refine phased.setNcci rfl rfl ?_
    exact ((phased.nccis _ _ conn.live).renumber _).of_after (by decide)
  | connectB3Failed route message found conn =>
    refine phased.setBoth rfl (Card.dropNcci_nccis rfl env _ _) ?_ nofun
    intro next same
    cases same
    exact ((phased.plcis _ _ conn.call).after (by decide)).relist _
  | renumberedB3 route message found conn =>
    refine phased.setNcci rfl rfl ?_
    intro next same
    cases same
    exact (phased.nccis _ _ conn.live).renumber _
  | disconnectB3Ind route message found conn =>
    refine phased.setBoth rfl (Card.dropNcci_nccis rfl env _ _) ?_ nofun
    intro next same
    cases same
    exact ((phased.plcis _ _ conn.call).after (by decide)).relist _
  | disconnectB3Early => exact ⟨phased.plcis, phased.nccis⟩
  | disconnectB3Conf route message found conn =>
    exact phased.setNcci rfl rfl ((phased.nccis _ _ conn.live).of_after (by decide))
  | resetB3Ind route message found conn =>
    exact phased.setNcci rfl rfl ((phased.nccis _ _ conn.live).of_after (by decide))

theorem reaction_wired (valid : Valid env s) (reaction : Reaction env s cmsg s') : Wired env.nbchan s'.links := by
  cases reaction_links valid reaction with
  | grows grows => exact valid.wired.grows grows
  | call releases drops =>
    rw [drops.links]
    exact valid.wired.dropPlci (links_plcis releases.live)
  | conn releases drops =>
    have conn := releases.conn
    have link := links_nccis conn.live
    rw [conn.chan] at link
    rw [drops]
    exact valid.wired.dropNcci (links_plcis conn.call) link

@[simp] theorem links_confirm (env : Env) (s : Card) (cmsg : Cmsg) : (confirm env s cmsg).links = s.links := by
  unfold confirm
  split
  · rfl
  · rfl

/-- One step keeps a card valid. -/
theorem valid_step (valid : Valid env s) {op : Op} (run : step env s op = some s') : Valid env s' := by
  cases transition valid run with
  | calm calm => exact ⟨valid.toPhased.calm calm, calm.links ▸ valid.wired⟩
  | recv decoded reaction =>
    obtain ⟨plcis, nccis⟩ := reaction_phased valid reaction
    have wired := reaction_wired valid reaction
    unfold confirm
    split
    · exact ⟨⟨plcis, nccis⟩, wired⟩
    · exact ⟨⟨plcis, nccis⟩, wired⟩
  | command effect => exact valid.effect effect
  | data at_channel conn live active sends =>
    exact ⟨valid.toPhased.calm sends.calm, sends.calm.links ▸ valid.wired⟩

theorem valid_init (env : Env) : Valid env Card.init := by
  have none : ∀ {α : Type} {a : α} {P : Prop}, (none : Option α) = some a → P := fun same => nomatch same
  refine ⟨⟨fun _ _ => none, fun _ _ => none⟩, ?_⟩
  exact ⟨List.nodup_nil, fun p => ⟨fun member => absurd member List.not_mem_nil, fun live => absurd rfl live⟩,
    fun _ _ _ => none, fun _ _ => none, fun _ _ => rfl, ⟨List.nodup_nil, fun _ member => absurd member List.not_mem_nil⟩,
    fun _ _ => rfl, fun _ _ _ => none, fun _ _ _ => none, fun _ _ _ _ _ => none, fun _ _ _ => none, fun _ _ => none⟩

end Validity

/-! ## The handler of a message -/

section Routes

variable {env : Env} {cmsg : Cmsg}

/-- A message for a call goes to `handle_plci`. -/
theorem handleMessage_plci (s : Card) (data : Bytes) (route : toPlci env cmsg) (other : cmd cmsg ≠ CAPI_DATA_B3_IND) :
    handleMessage env s cmsg data = handlePlci env s cmsg := by
  unfold handleMessage
  rw [if_neg (not_not.mpr route.1), if_neg other, if_neg route.2.1, if_pos route.2.2]

/-- A message for a connection goes to `handle_ncci`. -/
theorem handleMessage_ncci (s : Card) (data : Bytes) (route : toNcci env cmsg) (other : cmd cmsg ≠ CAPI_DATA_B3_IND) :
    handleMessage env s cmsg data = handleNcci env s cmsg := by
  unfold handleMessage
  rw [if_neg (not_not.mpr route.1), if_neg other, if_neg (toNcci_wide route), if_neg route.2]

/-- A message for the handler of the PLCIs that goes elsewhere is ignored. -/
theorem handleMessage_strayPlci (data : Bytes) (other : cmd cmsg ≠ CAPI_DATA_B3_IND)
    (controller : handleController s cmsg = s) (ncci : handleNcci env s cmsg = some s) (stray : ¬ toPlci env cmsg) :
    handleMessage env s cmsg data = some s := by
  unfold handleMessage
  rw [if_neg other, controller, ncci]
  split
  · rfl
  rename_i mine
  split
  · rfl
  rename_i wide
  split
  · rename_i narrow
    exact absurd ⟨not_not.mp mine, wide, narrow⟩ stray
  · rfl

/-- A message that needs an NCCI and has none is ignored. -/
theorem handleMessage_strayNcci (data : Bytes) (other : cmd cmsg ≠ CAPI_DATA_B3_IND)
    (controller : handleController s cmsg = s) (plci : handlePlci env s cmsg = some s) (stray : ¬ toNcci env cmsg) :
    handleMessage env s cmsg data = some s := by
  unfold handleMessage
  rw [if_neg other, controller, plci]
  split
  · rfl
  rename_i mine
  split
  · rfl
  split
  · rfl
  · rename_i wide
    exact absurd ⟨not_not.mp mine, wide⟩ stray

theorem handleMessage_disconnectInd (s : Card) (data : Bytes) (route : toPlci env cmsg)
    (message : cmd cmsg = CAPI_DISCONNECT_IND) : handleMessage env s cmsg data = disconnectInd env s cmsg := by
  rw [handleMessage_plci s data route (by rw [message]; decide)]
  exact if_pos message

theorem handleMessage_connectConf (s : Card) (data : Bytes) (route : toPlci env cmsg)
    (message : cmd cmsg = CAPI_CONNECT_CONF) : handleMessage env s cmsg data = connectConf s cmsg := by
  rw [handleMessage_plci s data route (by rw [message]; decide)]
  unfold handlePlci
  rw [message]
  rfl

theorem handleMessage_disconnectConf (s : Card) (data : Bytes) (route : toPlci env cmsg)
    (message : cmd cmsg = CAPI_DISCONNECT_CONF) : handleMessage env s cmsg data = some (disconnectConf s cmsg) := by
  rw [handleMessage_plci s data route (by rw [message]; decide)]
  unfold handlePlci
  rw [message]
  rfl

theorem handleMessage_connectActiveInd (s : Card) (data : Bytes) (route : toPlci env cmsg)
    (message : cmd cmsg = CAPI_CONNECT_ACTIVE_IND) :
    handleMessage env s cmsg data = connectActiveInd env s cmsg := by
  rw [handleMessage_plci s data route (by rw [message]; decide)]
  unfold handlePlci
  rw [message]
  rfl

theorem handleMessage_connectB3Ind (s : Card) (data : Bytes) (route : toNcci env cmsg)
    (message : cmd cmsg = CAPI_CONNECT_B3_IND) : handleMessage env s cmsg data = connectB3Ind env s cmsg := by
  rw [handleMessage_ncci s data route (by rw [message]; decide)]
  unfold handleNcci
  rw [message]
  rfl

theorem handleMessage_connectB3Conf (s : Card) (data : Bytes) (route : toNcci env cmsg)
    (message : cmd cmsg = CAPI_CONNECT_B3_CONF) : handleMessage env s cmsg data = connectB3Conf env s cmsg := by
  rw [handleMessage_ncci s data route (by rw [message]; decide)]
  unfold handleNcci
  rw [message]
  rfl

theorem handleMessage_disconnectB3Ind (s : Card) (data : Bytes) (route : toNcci env cmsg)
    (message : cmd cmsg = CAPI_DISCONNECT_B3_IND) : handleMessage env s cmsg data = disconnectB3Ind env s cmsg := by
  rw [handleMessage_ncci s data route (by rw [message]; decide)]
  unfold handleNcci
  rw [message]
  rfl

theorem handleMessage_connectInd (s : Card) (data : Bytes) (route : toPlci env cmsg)
    (message : cmd cmsg = CAPI_CONNECT_IND) : handleMessage env s cmsg data = handleIncomingCall env s cmsg := by
  rw [handleMessage_plci s data route (by rw [message]; decide)]
  unfold handlePlci
  rw [message]
  rfl

theorem handleMessage_connectB3ActiveInd (s : Card) (data : Bytes) (route : toNcci env cmsg)
    (message : cmd cmsg = CAPI_CONNECT_B3_ACTIVE_IND) :
    handleMessage env s cmsg data = connectB3ActiveInd env s cmsg := by
  rw [handleMessage_ncci s data route (by rw [message]; decide)]
  exact if_pos message

theorem handleMessage_resetB3Ind (s : Card) (data : Bytes) (route : toNcci env cmsg)
    (message : cmd cmsg = CAPI_RESET_B3_IND) : handleMessage env s cmsg data = resetB3Ind env s cmsg := by
  rw [handleMessage_ncci s data route (by rw [message]; decide)]
  unfold handleNcci
  rw [message]
  rfl

/-- DATA_B3_IND goes to `handle_data`, whatever the address carries. -/
theorem handleMessage_dataB3Ind (s : Card) (data : Bytes) (mine : cmsg.adr &&& 0x7f = env.contrnr)
    (message : cmd cmsg = CAPI_DATA_B3_IND) : handleMessage env s cmsg data = some (handleData env s cmsg data) := by
  unfold handleMessage
  rw [if_neg (not_not.mpr mine), if_pos message]

theorem handleMessage_disconnectB3Conf (s : Card) (data : Bytes) (route : toNcci env cmsg)
    (message : cmd cmsg = CAPI_DISCONNECT_B3_CONF) : handleMessage env s cmsg data = disconnectB3Conf env s cmsg := by
  rw [handleMessage_ncci s data route (by rw [message]; decide)]
  unfold handleNcci
  rw [message]
  rfl

end Routes

/-! ## Definedness -/

/-- The command dials a number whose parser does not end, on a channel without a call. -/
inductive Hangs (env : Env) (s : Card) : Command → Prop where
  | dial {arg : Nat} {phone eazmsn : Msn} {si1 si2 : UInt8} (endless : LeasedLine.EndlessLine env.undefined phone.chars)
      (free : (s.bchans (arg % env.nbchan)).plcip = none) : Hangs env s (.DIAL arg phone eazmsn si1 si2)

/-- The command is not one to accept a call, and it dials no number whose parser does not end. -/
def Command.Safe (env : Env) : Command → Prop
  | .ACCEPTD _ => False
  | .DIAL _ phone _ _ _ => ¬ LeasedLine.EndlessLine env.undefined phone.chars
  | _ => True

theorem Command.Safe.ends {env : Env} {command : Command} (safe : command.Safe env) (s : Card) :
    ¬ Hangs env s command := by
  intro hangs
  cases hangs with
  | dial endless => exact safe endless

theorem Command.Safe.other {env : Env} {command : Command} (safe : command.Safe env) (arg : Nat) :
    command ≠ .ACCEPTD arg := by
  rintro rfl
  exact safe

/-- Parsing the number of a dial may go on for ever. -/
theorem dialLine_none_iff (env : Env) (num : Msn) :
    dialLine env num = none ↔ LeasedLine.EndlessLine env.undefined num.chars :=
  LeasedLine.FVteln2capi20_none_iff env.undefined num.chars

section Defined

variable {env : Env} {s : Card} {cmsg : Cmsg}

/-- Of the commands, only one to accept a call looks at a call that need not be there. -/
theorem command_defined (valid : Valid env s) (channels : 0 < env.nbchan) {command : Command}
    (other : ∀ arg, command ≠ .ACCEPTD arg) (ends : ¬ Hangs env s command) : ∃ r, capidrvCommand env s command = some r := by
  cases command with
  | DIAL arg phone eazmsn si1 si2 =>
    have at_channel := channel_eq channels arg
    cases free : (s.bchans (arg % env.nbchan)).plcip with
    | some p => exact ⟨_, commandDial_busy env at_channel (by rw [free]; rfl) phone eazmsn si1 si2⟩
    | none =>
      have parses : dialLine env phone ≠ none := fun none => ends (.dial ((dialLine_none_iff env phone).mp none) free)
      obtain ⟨line, parsed⟩ := Option.ne_none_iff_exists'.mp parses
      cases mem : env.kmalloc s.tick with
      | false => exact ⟨_, commandDial_nomem env at_channel free mem parsed eazmsn si1 si2⟩
      | true => exact ⟨_, commandDial_eq env at_channel free mem parsed eazmsn si1 si2⟩
  | HANGUP arg =>
    have at_channel := channel_eq channels arg
    cases unflagged : (s.bchans (arg % env.nbchan)).disconnecting with
    | true => exact ⟨_, commandHangup_flagged env at_channel unflagged⟩
    | false =>
      cases conn : (s.bchans (arg % env.nbchan)).nccip with
      | some n =>
        obtain ⟨p, link⟩ := valid.wired.nccip _ n conn
        obtain ⟨ncci, live, -⟩ := nccis_of_links link
        exact ⟨_, commandHangup_ncci env at_channel unflagged conn live⟩
      | none =>
        cases call : (s.bchans (arg % env.nbchan)).plcip with
        | none =>
          obtain ⟨res, eq⟩ := commandHangup_free env at_channel conn call
          exact ⟨_, eq⟩
        | some p =>
          obtain ⟨ns, link⟩ := valid.wired.owner _ p call
          obtain ⟨plci, live, -⟩ := plcis_of_links link
          exact ⟨_, commandHangup_plci env at_channel unflagged conn call live (valid.wired.listedPlci live)⟩
  | ACCEPTD arg => exact absurd rfl (other arg)
  | SETL2 | SETL3 | SETEAZ | CLREAZ =>
    simp only [capidrvCommand]
    exact ⟨_, commandSet_eq env (channel_eq channels _) _⟩
  | IOCTL | ACCEPTB | other => exact ⟨_, rfl⟩

theorem commands_defined (valid : Valid env s) (channels : 0 < env.nbchan) {commands : List Command}
    (safe : ∀ command ∈ commands, command.Safe env) :
    ∃ s', commands.foldlM (fun s command => (capidrvCommand env s command).map Prod.fst) s = some s' := by
  induction commands generalizing s with
  | nil => exact ⟨s, rfl⟩
  | cons command commands ih =>
    have first := safe command List.mem_cons_self
    obtain ⟨⟨s₁, res⟩, ran⟩ := command_defined valid channels first.other (first.ends s)
    have effect := Effect.of_run valid.wired ran
    obtain ⟨s', rest⟩ := ih (valid.effect effect) fun command member => safe command (List.mem_cons_of_mem _ member)
    refine ⟨s', ?_⟩
    rw [List.foldlM_cons, ran]
    exact rest

/-- With numbers that fit and the commands of the callback done, an incoming call has an outcome. -/
theorem incomingCall_defined (valid : Valid env s) (fit : NumbersFit cmsg)
    (commands : ∀ chan, (∃ s₀, newBchan env s = some (s₀, chan)) → env.kmalloc s.tick = true →
      ∃ s₁, (env.icall (s.tick + 1)).1.foldlM (fun s command => (capidrvCommand env s command).map Prod.fst)
        (s.offered cmsg chan) = some s₁) :
    ∃ s', handleIncomingCall env s cmsg = some s' := by
  cases found : newBchan env s with
  | none => exact ⟨_, handleIncomingCall_busy env found⟩
  | some e =>
    obtain ⟨s₀, chan⟩ := e
    cases mem : env.kmalloc s.tick with
    | false => exact ⟨_, handleIncomingCall_nomem env found mem⟩
    | true =>
      obtain ⟨s₁, run⟩ := commands chan ⟨s₀, found⟩ mem
      obtain ⟨-, plci, live, listed⟩ := incoming_live valid.wired ⟨s₀, found⟩ run
      have callback : incomingCallback env (s.offer chan cmsg.adr) chan (callSetup cmsg) =
          some (s₁, (env.icall (s.tick + 1)).2) := by
        have fold : (env.icall (s.tick + 1)).1.foldlM (fun s command => (capidrvCommand env s command).map Prod.fst)
            ((s.offer chan cmsg.adr).statcallb (.ICALL chan (callSetup cmsg))).asked = some s₁ := run
        unfold incomingCallback
        show Option.bind ((env.icall (s.tick + 1)).1.foldlM
          (fun s command => (capidrvCommand env s command).map Prod.fst) _) _ = _
        rw [fold]
        rfl
      rw [handleIncomingCall_eq env found mem fit, callback, Option.bind_some]
      cases refused : refusal (env.icall (s.tick + 1)).2 with
      | some reject => exact ⟨_, incomingResult_refused env refused live listed⟩
      | none =>
        have accepted : (env.icall (s.tick + 1)).2 = 1 := refusal_none refused
        rw [accepted]
        exact ⟨_, incomingResult_waiting env live⟩

/-- A message for a call has an outcome, if an incoming call has one. -/
theorem handlePlci_defined (valid : Valid env s) (route : toPlci env cmsg)
    (incoming : cmd cmsg = CAPI_CONNECT_IND → ∃ s', handleIncomingCall env s cmsg = some s') :
    ∃ s', handlePlci env s cmsg = some s' := by
  unfold handlePlci
  split
  · cases found : findPlciByPlci s cmsg.adr with
    | none =>
      unfold disconnectInd
      simp only [found]
      exact ⟨_, rfl⟩
    | some e => exact ⟨_, disconnectInd_drops found (valid.plcis _ _ (findPlci_some found).1) (toPlci_adr route)⟩
  split
  · exact ⟨_, rfl⟩
  split
  · rename_i message
    exact incoming message
  split
  · cases found : findPlciByMsgid s cmsg.messagenumber with
    | none =>
      unfold connectConf
      simp only [found]
      exact ⟨_, rfl⟩
    | some e => exact ⟨_, connectConf_eq found⟩
  split
  · cases found : findPlciByPlci s cmsg.adr with
    | none =>
      unfold connectActiveInd
      simp only [found]
      exact ⟨_, rfl⟩
    | some e =>
      cases direction : (s.bchans e.2.chan).incoming with
      | true => exact ⟨_, connectActiveInd_incoming env found direction⟩
      | false =>
        cases mem : env.kmalloc s.tick with
        | false => exact ⟨_, connectActiveInd_nomem env found direction mem⟩
        | true => exact ⟨_, connectActiveInd_outgoing env found direction mem⟩
  split
  · exact ⟨_, rfl⟩
  · exact ⟨_, rfl⟩

/-- CONNECT_B3_IND has an outcome on every card. -/
theorem connectB3Ind_defined (env : Env) (s : Card) (cmsg : Cmsg) : ∃ s', connectB3Ind env s cmsg = some s' := by
  cases found : findPlciByNcci s cmsg.adr with
  | none =>
    unfold connectB3Ind
    simp only [found]
    exact ⟨_, rfl⟩
  | some e =>
    cases mem : env.kmalloc s.tick with
    | false => exact ⟨_, connectB3Ind_nomem env found mem⟩
    | true => exact ⟨_, connectB3Ind_eq env found mem⟩

/-- CONNECT_B3_CONF has an outcome on a valid card. -/
theorem connectB3Conf_defined (valid : Valid env s) (cmsg : Cmsg) : ∃ s', connectB3Conf env s cmsg = some s' := by
  cases found : findNcciByMsgid s cmsg.adr cmsg.messagenumber with
  | none =>
    unfold connectB3Conf
    simp only [found]
    exact ⟨_, rfl⟩
  | some e =>
    obtain ⟨plci, conn, -⟩ := valid.wired.findNcciByMsgid found
    exact ⟨_, connectB3Conf_eq env found conn⟩

/-- A message for a connection has an outcome on a valid card. -/
theorem handleNcci_defined (valid : Valid env s) : ∃ s', handleNcci env s cmsg = some s' := by
  cases found : findNcci s cmsg.adr with
  | none =>
    unfold handleNcci connectB3ActiveInd dataB3Conf disconnectB3Ind disconnectB3Conf resetB3Ind
    simp only [found]
    obtain ⟨s₁, indicated⟩ := connectB3Ind_defined env s cmsg
    obtain ⟨s₂, confirmed⟩ := connectB3Conf_defined valid cmsg
    split_ifs
    all_goals first
      | exact ⟨_, rfl⟩
      | exact ⟨_, indicated⟩
      | exact ⟨_, confirmed⟩
  | some e =>
    obtain ⟨plci, conn, -⟩ := valid.wired.findNcci found
    unfold handleNcci
    split
    · exact ⟨_, connectB3ActiveInd_eq found conn.live⟩
    split
    · exact connectB3Ind_defined env s cmsg
    split
    · exact connectB3Conf_defined valid cmsg
    split
    · exact ⟨_, rfl⟩
    split
    · obtain ⟨ackqueue, status, eq⟩ := dataB3Conf_eq found conn.live
      exact ⟨_, eq⟩
    split
    · exact ⟨_, disconnectB3Ind_eq env found conn⟩
    split
    · rcases eq_or_ne (cmsg.word .info) 0 with fine | error
      · unfold disconnectB3Conf
        simp only [found, fine, ne_eq, not_true_eq_false, if_false]
        exact ⟨_, rfl⟩
      · exact ⟨_, disconnectB3Conf_eq found conn.live error⟩
    split
    · exact ⟨_, resetB3Ind_eq found conn.live⟩
    · exact ⟨_, rfl⟩

/-- A message makes the driver follow no pointer to a record that was freed. -/
theorem handleMessage_defined (valid : Valid env s) (data : Bytes)
    (incoming : toPlci env cmsg → cmd cmsg = CAPI_CONNECT_IND → ∃ s', handleIncomingCall env s cmsg = some s') :
    ∃ s', handleMessage env s cmsg data = some s' := by
  unfold handleMessage
  split
  · exact ⟨_, rfl⟩
  rename_i addressed
  split
  · exact ⟨_, rfl⟩
  split
  · exact ⟨_, rfl⟩
  rename_i wide
  split
  · rename_i narrow
    have route : toPlci env cmsg := ⟨not_not.mp addressed, wide, narrow⟩
    exact handlePlci_defined valid route (incoming route)
  · exact handleNcci_defined valid

end Defined

end Capi4Linux.Capidrv
