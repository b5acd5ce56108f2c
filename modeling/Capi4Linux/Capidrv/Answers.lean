import Capi4Linux.Capidrv.Buffers
import Capi4Linux.Capidrv.Correlation

/-!
# Answers to indications

An indication must be answered with one response of the same command. The
handlers answer when they find the record of the address; a CONNECT_IND is
answered by what isdn4linux makes of the call.
-/

namespace Capi4Linux.Capidrv
open Bytes Capicore Capiutil Machine

/-! ## Responses -/

/-- The indications that have a response. -/
def indications : List (UInt8 × UInt8) :=
  [CAPI_CONNECT_IND, CAPI_CONNECT_ACTIVE_IND, CAPI_DISCONNECT_IND, CAPI_CONNECT_B3_IND, CAPI_CONNECT_B3_ACTIVE_IND,
   CAPI_DISCONNECT_B3_IND, CAPI_RESET_B3_IND, CAPI_DATA_B3_IND]

/-- The message sent is a response of the same command for the same address. -/
def responds (cmsg : Cmsg) (e : Sent) : Bool := cmd e.cmsg = (cmsg.command, CAPI_RESP) && e.cmsg.adr = cmsg.adr

/-- The responses to a message among what was sent between two states. -/
def responses (cmsg : Cmsg) (s s' : Card) : Nat := (s'.sent.drop s.sent.length).countP (responds cmsg)

/-- There is one response, or the call is left to be answered later. -/
def AnsweredOnce (cmsg : Cmsg) (s s' : Card) : Prop :=
  responses cmsg s s' = 1 ∨ cmd cmsg = CAPI_CONNECT_IND ∧ responses cmsg s s' = 0 ∧
    ∃ p plci, s.plcis p = none ∧ s'.plcis p = some plci ∧ plci.plci = cmsg.adr ∧ plci.state = .INCOMING

/-- The call of a channel. -/
def Card.call (s : Card) (c : Nat) : Option Plci := (s.bchans c).plcip.bind s.plcis

/-- The command accepts a call with the number. -/
def accepts (env : Env) (s : Card) (x : UInt32) : Command → Bool
  | .ACCEPTD arg => ((channel env arg).bind fun chan => (s.call chan).map Plci.plci) = some x
  | _ => false

/-- How often a CONNECT_IND that is offered on a channel is answered: by the commands that accept a call with its
number, and by a refusal. -/
def answers (env : Env) (s : Card) (cmsg : Cmsg) (chan : Nat) : Nat :=
  (env.icall (s.tick + 1)).1.countP (accepts env (s.offered cmsg chan) cmsg.adr) +
    if (refusal (env.icall (s.tick + 1)).2).isSome then 1 else 0

/-- The commands that isdn4linux issues while it is told about a call of a channel. -/
def callbackCommands (env : Env) (s : Card) (cmsg : Cmsg) (chan : Nat) : Option Card :=
  (env.icall (s.tick + 1)).1.foldlM (fun s command => (capidrvCommand env s command).map Prod.fst)
    (s.offered cmsg chan)

/-- What an indication must find. A CONNECT_IND needs numbers that fit, a free channel, and one answer at most of
isdn4linux, whose commands accept no call that is not there. -/
@[mk_iff]
structure Answerable (env : Env) (s : Card) (cmsg : Cmsg) : Prop where
  connectInd : cmd cmsg = CAPI_CONNECT_IND →
    toPlci env cmsg ∧ NumbersFit cmsg ∧ ∃ chan, (∃ s₀, newBchan env s = some (s₀, chan)) ∧
      (∃ s₁, callbackCommands env s cmsg chan = some s₁) ∧ answers env s cmsg chan ≤ 1
  connectActiveInd : cmd cmsg = CAPI_CONNECT_ACTIVE_IND →
    toPlci env cmsg ∧ ∃ p plci, findPlciByPlci s cmsg.adr = some (p, plci)
  disconnectInd : cmd cmsg = CAPI_DISCONNECT_IND → toPlci env cmsg
  connectB3Ind : cmd cmsg = CAPI_CONNECT_B3_IND → toNcci env cmsg
  connection : cmd cmsg ∈ [CAPI_CONNECT_B3_ACTIVE_IND, CAPI_DISCONNECT_B3_IND, CAPI_RESET_B3_IND] →
    toNcci env cmsg ∧ ∃ n ncci, findNcci s cmsg.adr = some (n, ncci)
  dataB3Ind : cmd cmsg = CAPI_DATA_B3_IND → ∃ n ncci, findNcci s cmsg.adr = some (n, ncci)

section Responses

variable {env : Env} {s s' : Card} {cmsg : Cmsg}

/-- The responses of a step are those among its new messages. -/
theorem responses_of_append {news : List Sent} (sent : s'.sent = s.sent ++ news) :
    responses cmsg s s' = news.countP (responds cmsg) := by
  rw [responses, sent, List.drop_left]

theorem responds_answer (indication : cmsg.subcommand = CAPI_IND) (data : Bytes) (info : Capinfo0x11) :
    responds cmsg ⟨capiCmsgAnswer cmsg, data, info⟩ = true := by
  have subcommand : (capiCmsgAnswer cmsg).subcommand = CAPI_RESP := by
    show cmsg.subcommand ||| 0x01 = CAPI_RESP
    rw [indication]
    decide
  have message : cmd (capiCmsgAnswer cmsg) = (cmsg.command, CAPI_RESP) := congrArg (Prod.mk cmsg.command) subcommand
  rw [responds, message, decide_eq_true rfl]
  exact decide_eq_true rfl

/-- A request is no response. -/
theorem responds_request {e : Sent} (request : e.cmsg.subcommand = CAPI_REQ) : responds cmsg e = false := by
  have differ : CAPI_REQ ≠ CAPI_RESP := by decide
  have other : cmd e.cmsg ≠ (cmsg.command, CAPI_RESP) := fun same =>
    differ (request.symm.trans (congrArg Prod.snd same))
  rw [responds, decide_eq_false other, Bool.false_and]

/-- The indication is answered, and requests may follow. -/
theorem AnsweredOnce.answer (indication : cmsg.subcommand = CAPI_IND) (requests : List Sent)
    (sent : s'.sent = (answer env s cmsg).sent ++ requests) (rest : ∀ e ∈ requests, e.cmsg.subcommand = CAPI_REQ) :
    AnsweredOnce cmsg s s' := by
  have news : s'.sent = s.sent ++ (⟨capiCmsgAnswer cmsg, [], env.put s.sent.length⟩ :: requests) := by
    rw [sent]
    exact List.append_assoc _ _ _
  have none : requests.countP (responds cmsg) = 0 := by
    apply List.countP_eq_zero.mpr
    intro e member
    rw [responds_request (rest e member)]
    exact Bool.false_ne_true
  left
  rw [responses_of_append news, List.countP_cons, none, responds_answer indication]
  rfl

/-- Nothing was sent. -/
theorem not_answeredOnce (sent : s'.sent = s.sent) (plcis : s'.plcis = s.plcis) : ¬ AnsweredOnce cmsg s s' := by
  have none : responses cmsg s s' = 0 := by
    rw [responses_of_append (sent.trans (List.append_nil _).symm)]
    rfl
  rintro (one | ⟨-, -, p, plci, new, live, -⟩)
  · omega
  · rw [plcis, new] at live
    cases live

/-- An answer does not depend on the list of the outstanding. -/
theorem answeredOnce_confirm : AnsweredOnce cmsg s (confirm env s' cmsg) ↔ AnsweredOnce cmsg s s' := by
  unfold confirm
  split
  · exact Iff.rfl
  · exact Iff.rfl

end Responses

/-! ## Messages about a known or an unknown record -/

section Messages

variable {env : Env} {s s' : Card} {cmsg : Cmsg}

theorem disconnectInd_answers (valid : Valid env s) (indication : cmsg.subcommand = CAPI_IND) (route : toPlci env cmsg)
    (run : disconnectInd env s cmsg = some s') : AnsweredOnce cmsg s s' := by
  cases found : findPlciByPlci s cmsg.adr with
  | none =>
    unfold disconnectInd at run
    simp only [found, Option.some.injEq] at run
    subst run
    exact AnsweredOnce.answer indication [] (List.append_nil _).symm nofun
  | some e =>
    have phased := valid.plcis e.1 e.2 (findPlci_some found).1
    cases run.symm.trans (disconnectInd_drops found phased (toPlci_adr route))
    exact AnsweredOnce.answer indication [] (List.append_nil _).symm nofun

/-- CONNECT_ACTIVE_IND is answered for a call that is there. -/
theorem connectActiveInd_answers_iff (indication : cmsg.subcommand = CAPI_IND)
    (run : connectActiveInd env s cmsg = some s') :
    AnsweredOnce cmsg s s' ↔ ∃ p plci, findPlciByPlci s cmsg.adr = some (p, plci) := by
  cases found : findPlciByPlci s cmsg.adr with
  | none =>
    unfold connectActiveInd at run
    simp only [found, Option.some.injEq] at run
    subst run
    exact iff_of_false (not_answeredOnce rfl rfl) nofun
  | some e =>
    obtain ⟨p, plci⟩ := e
    apply iff_of_true ?_ ⟨p, plci, rfl⟩
    cases incoming : (s.bchans plci.chan).incoming with
    | true =>
      cases run.symm.trans (connectActiveInd_incoming env found incoming)
      exact AnsweredOnce.answer indication [] (List.append_nil _).symm nofun
    | false =>
      cases mem : env.kmalloc s.tick with
      | false =>
        cases run.symm.trans (connectActiveInd_nomem env found incoming mem)
        exact AnsweredOnce.answer indication [] (List.append_nil _).symm nofun
      | true =>
        cases run.symm.trans (connectActiveInd_outgoing env found incoming mem)
        refine AnsweredOnce.answer indication [_] rfl ?_
        intro e member
        rw [List.mem_singleton.mp member]
        rfl

theorem connectB3Resp_answers (message : cmd cmsg = CAPI_CONNECT_B3_IND) (reject : UInt16) {s₀ : Card}
    (sent : s₀.sent = s.sent) : AnsweredOnce cmsg s (connectB3Resp env s₀ cmsg.adr reject) := by
  have command : cmsg.command = CAPI_CONNECT_B3 := congrArg Prod.fst message
  have news : (connectB3Resp env s₀ cmsg.adr reject).sent =
      s.sent ++ [⟨capiFillConnectB3Resp env.applId s₀.msgid cmsg.adr reject, [], env.put s₀.sent.length⟩] := by
    rw [← sent]
    rfl
  left
  rw [responses_of_append news]
  have counts : responds cmsg
      ⟨capiFillConnectB3Resp env.applId s₀.msgid cmsg.adr reject, [], env.put s₀.sent.length⟩ = true := by
    rw [responds, command]
    exact Bool.and_eq_true_iff.mpr ⟨decide_eq_true rfl, decide_eq_true rfl⟩
  rw [List.countP_singleton, counts]
  rfl

theorem connectB3Ind_answers (message : cmd cmsg = CAPI_CONNECT_B3_IND) (run : connectB3Ind env s cmsg = some s') :
    AnsweredOnce cmsg s s' := by
  cases found : findPlciByNcci s cmsg.adr with
  | none =>
    unfold connectB3Ind at run
    simp only [found, Option.some.injEq] at run
    subst run
    exact connectB3Resp_answers message 2 rfl
  | some e =>
    cases mem : env.kmalloc s.tick with
    | false =>
      cases run.symm.trans (connectB3Ind_nomem env found mem)
      exact connectB3Resp_answers message 2 rfl
    | true =>
      cases run.symm.trans (connectB3Ind_eq env found mem)
      exact connectB3Resp_answers message 0 rfl

/-- CONNECT_B3_ACTIVE_IND is answered for a connection that is there. -/
theorem connectB3ActiveInd_answers_iff (valid : Valid env s) (indication : cmsg.subcommand = CAPI_IND)
    (run : connectB3ActiveInd env s cmsg = some s') :
    AnsweredOnce cmsg s s' ↔ ∃ n ncci, findNcci s cmsg.adr = some (n, ncci) := by
  cases found : findNcci s cmsg.adr with
  | none =>
    unfold connectB3ActiveInd at run
    simp only [found, Option.some.injEq] at run
    subst run
    exact iff_of_false (not_answeredOnce rfl rfl) nofun
  | some e =>
    obtain ⟨plci, conn, -⟩ := valid.wired.findNcci found
    cases run.symm.trans (connectB3ActiveInd_eq found conn.live)
    exact iff_of_true (AnsweredOnce.answer indication [] (List.append_nil _).symm nofun) ⟨e.1, e.2, rfl⟩

theorem disconnectB3Ind_answers_iff (valid : Valid env s) (indication : cmsg.subcommand = CAPI_IND)
    (run : disconnectB3Ind env s cmsg = some s') :
    AnsweredOnce cmsg s s' ↔ ∃ n ncci, findNcci s cmsg.adr = some (n, ncci) := by
  cases found : findNcci s cmsg.adr with
  | none =>
    unfold disconnectB3Ind at run
    simp only [found, Option.some.injEq] at run
    subst run
    exact iff_of_false (not_answeredOnce rfl rfl) nofun
  | some e =>
    obtain ⟨n, ncci⟩ := e
    obtain ⟨plci, conn, -⟩ := valid.wired.findNcci found
    apply iff_of_true ?_ ⟨n, ncci, rfl⟩
    rcases eq_or_ne ncci.state .OUTGOING with requested | known
    · cases run.symm.trans (disconnectB3Ind_early found conn requested)
      exact AnsweredOnce.answer indication [] (List.append_nil _).symm nofun
    · cases run.symm.trans (disconnectB3Ind_drops found conn (valid.nccis n ncci conn.live) known)
      refine AnsweredOnce.answer indication [_] rfl ?_
      intro e member
      rw [List.mem_singleton.mp member]
      rfl

theorem resetB3Ind_answers_iff (valid : Valid env s) (indication : cmsg.subcommand = CAPI_IND)
    (run : resetB3Ind env s cmsg = some s') :
    AnsweredOnce cmsg s s' ↔ ∃ n ncci, findNcci s cmsg.adr = some (n, ncci) := by
  cases found : findNcci s cmsg.adr with
  | none =>
    unfold resetB3Ind at run
    simp only [found, Option.some.injEq] at run
    subst run
    exact iff_of_false (not_answeredOnce rfl rfl) nofun
  | some e =>
    obtain ⟨plci, conn, -⟩ := valid.wired.findNcci found
    cases run.symm.trans (resetB3Ind_eq found conn.live)
    exact iff_of_true (AnsweredOnce.answer indication [] (List.append_nil _).symm nofun) ⟨e.1, e.2, rfl⟩

theorem handleData_answers_iff (indication : cmsg.subcommand = CAPI_IND) (data : Bytes) :
    AnsweredOnce cmsg s (handleData env s cmsg data) ↔ ∃ n ncci, findNcci s cmsg.adr = some (n, ncci) := by
  unfold handleData
  cases found : findNcci s cmsg.adr with
  | none => exact iff_of_false (not_answeredOnce rfl rfl) nofun
  | some e => exact iff_of_true (AnsweredOnce.answer indication [] (List.append_nil _).symm nofun) ⟨e.1, e.2, rfl⟩

end Messages

/-! ## Incoming calls -/

/-- What is sent are requests. -/
def Requests (s s' : Card) : Prop := ∃ news, s'.sent = s.sent ++ news ∧ ∀ e ∈ news, e.cmsg.subcommand = CAPI_REQ

section Commands

variable {env : Env} {s s' : Card} {cmsg : Cmsg} {arg : Nat} {res : Int} {x : UInt32}

theorem Requests.none (sent : s'.sent = s.sent) : Requests s s' := ⟨[], by rw [sent, List.append_nil], nofun⟩

theorem Requests.one {e : Sent} (sent : s'.sent = s.sent ++ [e]) (request : e.cmsg.subcommand = CAPI_REQ) :
    Requests s s' := by
  refine ⟨[e], sent, ?_⟩
  intro e' member
  rw [List.mem_singleton.mp member]
  exact request

theorem requests_dial {phone eazmsn : Msn} {si1 si2 : UInt8}
    (run : commandDial env s arg phone eazmsn si1 si2 = some (s', res)) : Requests s s' := by
  obtain ⟨chan, at_channel, -⟩ := Option.bind_eq_some_iff.mp run
  cases free : (s.bchans chan).plcip with
  | some p =>
    have busy : (s.bchans chan).plcip.isSome = true := by rw [free]; rfl
    cases run.symm.trans (commandDial_busy env at_channel busy phone eazmsn si1 si2)
    exact Requests.none rfl
  | none =>
    obtain ⟨line, parsed⟩ := dialLine_of_run env run at_channel free
    cases mem : env.kmalloc s.tick with
    | false =>
      cases run.symm.trans (commandDial_nomem env at_channel free mem parsed eazmsn si1 si2)
      exact Requests.none rfl
    | true =>
      cases run.symm.trans (commandDial_eq env at_channel free mem parsed eazmsn si1 si2)
      exact Requests.one rfl rfl

theorem requests_hangup (wired : Wired env.nbchan s.links) (run : commandHangup env s arg = some (s', res)) :
    Requests s s' := by
  obtain ⟨chan, at_channel, -⟩ := Option.bind_eq_some_iff.mp run
  cases unflagged : (s.bchans chan).disconnecting with
  | true =>
    cases run.symm.trans (commandHangup_flagged env at_channel unflagged)
    exact Requests.none rfl
  | false =>
    cases conn : (s.bchans chan).nccip with
    | some n =>
      obtain ⟨p, link⟩ := wired.nccip chan n conn
      obtain ⟨ncci, live, -⟩ := nccis_of_links link
      cases run.symm.trans (commandHangup_ncci env at_channel unflagged conn live)
      exact Requests.one rfl rfl
    | none =>
      cases call : (s.bchans chan).plcip with
      | none =>
        obtain ⟨res, eq⟩ := commandHangup_free env at_channel conn call
        cases run.symm.trans eq
        exact Requests.none rfl
      | some p =>
        obtain ⟨ns, link⟩ := wired.owner chan p call
        obtain ⟨plci, live, -⟩ := plcis_of_links link
        have eq := commandHangup_plci env at_channel unflagged conn call live (wired.listedPlci live)
        split at eq
        · cases run.symm.trans eq
          exact Requests.none rfl
        split at eq
        · cases run.symm.trans eq
          exact Requests.one rfl rfl
        · cases run.symm.trans eq
          exact Requests.none rfl

/-- The commands that only set a field of the channel send nothing. -/
theorem requests_set {set : Bchan → Bchan} (run : commandSet env s arg set = some (s', res)) : Requests s s' := by
  obtain ⟨chan, -, rest⟩ := Option.bind_eq_some_iff.mp run
  cases rest
  exact Requests.none rfl

/-- Every command but one sends requests only. -/
theorem requests_command (wired : Wired env.nbchan s.links) {command : Command}
    (run : capidrvCommand env s command = some (s', res)) (other : ∀ arg, command ≠ .ACCEPTD arg) : Requests s s' := by
  cases command with
  | DIAL => exact requests_dial run
  | ACCEPTD arg => exact absurd rfl (other arg)
  | HANGUP => exact requests_hangup wired run
  | SETL2 | SETL3 | SETEAZ | CLREAZ =>
    unfold capidrvCommand at run
    exact requests_set run
  | IOCTL | ACCEPTB | other =>
    cases run
    exact Requests.none rfl

/-- A channel's call is the record it points to. -/
theorem call_owner {c p : Nat} (owner : (s.bchans c).plcip = some p) : s.call c = s.plcis p := by
  rw [Card.call, owner, Option.bind_some]

/-- The number of a channel's call depends on its pointer and the calls only. -/
theorem number_congr {c : Nat} (plcip : (s'.bchans c).plcip = (s.bchans c).plcip) (plcis : s'.plcis = s.plcis) :
    (s'.call c).map Plci.plci = some x ↔ (s.call c).map Plci.plci = some x := by
  rw [Card.call, plcip, plcis, Card.call]

/-- The flag leaves the pointers to the calls alone. -/
theorem plcip_flag (s : Card) (chan c : Nat) : ((s.flag chan).bchans c).plcip = (s.bchans c).plcip :=
  field_update Bchan.plcip (by rfl) c

/-- A record that keeps its number is replaced. -/
theorem number_setPlci {p c : Nat} {plci plci' : Plci} (live : s.plcis p = some plci)
    (plcip : (s'.bchans c).plcip = (s.bchans c).plcip) (plcis : s'.plcis = Function.update s.plcis p (some plci'))
    (same : plci'.plci = plci.plci) : (s'.call c).map Plci.plci = some x ↔ (s.call c).map Plci.plci = some x := by
  rw [Card.call, Card.call, plcip]
  cases owner : (s.bchans c).plcip with
  | none => exact Iff.rfl
  | some q =>
    rw [Option.bind_some, Option.bind_some, plcis]
    rcases eq_or_ne q p with rfl | other
    · rw [Function.update_self, live, Option.map_some, Option.map_some, same]
    · rw [Function.update_of_ne other]

/-- A command gives no call a number, and takes none. -/
theorem effect_numbers (wired : Wired env.nbchan s.links) {command : Command} (effect : Effect env s command s')
    (known : x ≠ 0) (c : Nat) : (s'.call c).map Plci.plci = some x ↔ (s.call c).map Plci.plci = some x := by
  cases effect with
  | calm calm => exact number_congr (calm.plcip c) calm.plcis
  | @dial arg chan phone eazmsn si1 si2 line at_channel free mem =>
    rcases eq_or_ne c chan with rfl | other
    · have before : s.call c = none := by rw [Card.call, free, Option.bind_none]
      rw [before]
      simp only [Card.call, sendMessage, putCapiMessage, Card.addPlci, freshPlci, Card.nextMsgid, Card.asked,
        Function.update_self, Option.bind_some, Option.map_some, Option.map_none, Option.some.injEq]
      exact iff_of_false (fun zero => known zero.symm) (Option.some_ne_none x).symm
    · have same : (s.call c).map Plci.plci = (((s.dialed chan phone eazmsn si1 si2).bchans c).plcip.bind
          (Function.update s.plcis s.plciNext (some { freshPlci chan with
            msgid := s.msgid, leasedline := line.isRight, state := .OUTGOING }))).map Plci.plci := by
        have bchan : (s.dialed chan phone eazmsn si1 si2).bchans c = s.bchans c := Function.update_of_ne other _ _
        rw [bchan, Card.call]
        cases owner : (s.bchans c).plcip with
        | none => rfl
        | some q => rw [Option.bind_some, Option.bind_some, Function.update_of_ne (wired.owner_old owner)]
      rw [same]
      simp only [Card.call, sendMessage, putCapiMessage, Card.addPlci, freshPlci, Card.nextMsgid, Card.asked,
        Function.update_of_ne other]
      exact Iff.rfl
  | acceptd _ _ live => exact number_setPlci live rfl rfl rfl
  | @hangupNcci arg chan => exact number_congr (plcip_flag s chan c) rfl
  | @hangupIncoming arg chan => exact number_congr (plcip_flag s chan c) rfl
  | @hangupPlci arg chan p plci _ _ _ _ live => exact number_setPlci live (plcip_flag s chan c) rfl rfl

/-- A command does not change which commands accept a call with a number. -/
theorem effect_accepts (wired : Wired env.nbchan s.links) {command command' : Command}
    (effect : Effect env s command s') (known : x ≠ 0) : accepts env s' x command' = accepts env s x command' := by
  cases command' with
  | ACCEPTD arg =>
    unfold accepts
    apply decide_eq_decide.mpr
    cases channel env arg with
    | none => exact Iff.rfl
    | some chan => exact effect_numbers wired effect known chan
  | _ => rfl

/-- A command answers a call that it accepts, and no other. -/
theorem command_responds (wired : Wired env.nbchan s.links) (message : cmd cmsg = CAPI_CONNECT_IND) {command : Command}
    (run : capidrvCommand env s command = some (s', res)) : ∃ news, s'.sent = s.sent ++ news ∧
      news.countP (responds cmsg) = if accepts env s cmsg.adr command then 1 else 0 := by
  have quiet : (∀ arg, command ≠ .ACCEPTD arg) → accepts env s cmsg.adr command = false → ∃ news,
      s'.sent = s.sent ++ news ∧ news.countP (responds cmsg) = if accepts env s cmsg.adr command then 1 else 0 := by
    intro other rejects
    obtain ⟨news, sent, requests⟩ := requests_command wired run other
    refine ⟨news, sent, ?_⟩
    rw [rejects]
    apply List.countP_eq_zero.mpr
    intro e member
    rw [responds_request (requests e member)]
    exact Bool.false_ne_true
  cases command with
  | ACCEPTD arg =>
    obtain ⟨chan, at_channel, rest⟩ := Option.bind_eq_some_iff.mp run
    obtain ⟨p, call, rest⟩ := Option.bind_eq_some_iff.mp rest
    obtain ⟨plci, live, -⟩ := Option.bind_eq_some_iff.mp rest
    obtain ⟨resp, ⟨isResp, adr, -⟩, eq⟩ := commandAcceptd_eq env at_channel call live (wired.listedPlci live)
    cases run.symm.trans eq
    refine ⟨[⟨resp, [], env.put s.sent.length⟩], rfl, ?_⟩
    have accepts_eq : accepts env s cmsg.adr (.ACCEPTD arg) = decide (plci.plci = cmsg.adr) := by
      have here : s.call chan = some plci := (call_owner call).trans live
      simp only [accepts, at_channel, Option.bind_some, here, Option.map_some, Option.some.injEq]
    have command : cmsg.command = CAPI_CONNECT := congrArg Prod.fst message
    have responds_eq : responds cmsg ⟨resp, [], env.put s.sent.length⟩ = decide (plci.plci = cmsg.adr) := by
      rw [responds, isResp, command, adr, decide_eq_true rfl, Bool.true_and]
    rw [accepts_eq, List.countP_singleton, responds_eq]
  | _ => exact quiet nofun rfl

/-- The call that is offered. -/
def Waiting (s : Card) (p : Nat) (x : UInt32) : Prop :=
  ∃ plci, s.plcis p = some plci ∧ plci.plci = x ∧ plci.state = .INCOMING

/-- An incoming call waits until it is accepted. -/
theorem effect_waiting (valid : Valid env s) {command : Command} (effect : Effect env s command s') {p : Nat}
    (waiting : Waiting s p x) (rejects : accepts env s x command = false) : Waiting s' p x := by
  obtain ⟨plci, live, number, state⟩ := waiting
  cases effect with
  | calm calm => exact ⟨plci, by rw [calm.plcis, live], number, state⟩
  | dial =>
    have old := Nat.ne_of_lt (valid.wired.lt (links_plcis live))
    exact ⟨plci, (Function.update_of_ne old _ _).trans live, number, state⟩
  | @acceptd arg chan q plci' cmsg at_channel call live' =>
    have other : p ≠ q := by
      rintro rfl
      cases live.symm.trans live'
      have here : s.call chan = some plci := (call_owner call).trans live
      simp only [accepts, at_channel, Option.bind_some, here, Option.map_some, number, decide_true] at rejects
      cases rejects
    exact ⟨plci, (Function.update_of_ne other _ _).trans live, number, state⟩
  | hangupNcci => exact ⟨plci, live, number, state⟩
  | hangupIncoming => exact ⟨plci, live, number, state⟩
  | @hangupPlci arg chan q plci' at_channel unflagged noconn call live' answered =>
    have other : p ≠ q := by
      rintro rfl
      cases live.symm.trans live'
      exact answered state
    exact ⟨plci, (Function.update_of_ne other _ _).trans live, number, state⟩

/-- The commands that isdn4linux issues while it is told about a call. -/
theorem commands_respond (wired : Wired env.nbchan s.links) (message : cmd cmsg = CAPI_CONNECT_IND)
    (known : cmsg.adr ≠ 0) {commands : List Command}
    (run : commands.foldlM (fun s command => (capidrvCommand env s command).map Prod.fst) s = some s') :
    ∃ news, s'.sent = s.sent ++ news ∧ news.countP (responds cmsg) = commands.countP (accepts env s cmsg.adr) := by
  induction commands generalizing s with
  | nil =>
    cases run
    exact ⟨[], (List.append_nil _).symm, rfl⟩
  | cons command commands ih =>
    obtain ⟨t, res, done, effect, wired', rest⟩ := commands_cons wired run
    obtain ⟨news, sent, count⟩ := command_responds wired message done
    obtain ⟨news', sent', count'⟩ := ih wired' rest
    have same : accepts env t cmsg.adr = accepts env s cmsg.adr :=
      funext fun command' => effect_accepts wired effect known
    refine ⟨news ++ news', ?_, ?_⟩
    · rw [sent', sent, List.append_assoc]
    · rw [List.countP_append, List.countP_cons, count, count', same]
      omega

/-- A call waits as long as no command accepts it. -/
theorem commands_waiting (valid : Valid env s) (known : x ≠ 0) {commands : List Command}
    (run : commands.foldlM (fun s command => (capidrvCommand env s command).map Prod.fst) s = some s') {p : Nat}
    (waiting : Waiting s p x) (rejects : ∀ command ∈ commands, accepts env s x command = false) : Waiting s' p x := by
  induction commands generalizing s with
  | nil =>
    cases run
    exact waiting
  | cons command commands ih =>
    obtain ⟨t, res, -, effect, -, rest⟩ := commands_cons valid.wired run
    have waiting' := effect_waiting valid effect waiting (rejects command List.mem_cons_self)
    apply ih (valid.effect effect) rest waiting'
    intro command' member
    rw [effect_accepts valid.wired effect known]
    exact rejects command' (List.mem_cons_of_mem _ member)

end Commands

section IncomingCall

variable {env : Env} {s s₁ s' : Card} {cmsg : Cmsg} {chan : Nat}

/-- A call that is accepted waits, and only requests are sent. -/
theorem incomingResult_accepted {p : Nat} (live : ∃ plci, s₁.plcis p = some plci)
    (result : incomingResult env s₁ cmsg p 1 = some s') : Requests s₁ s' ∧
      ∀ x, Waiting s₁ p x → Waiting s' p x := by
  obtain ⟨plci, live⟩ := live
  have eq := result.symm.trans (incomingResult_waiting env live)
  split at eq
  · cases eq
    constructor
    · exact Requests.one rfl rfl
    · intro x ⟨plci', live', number, state⟩
      cases live.symm.trans live'
      exact ⟨_, Function.update_self _ _ _, number, state⟩
  · cases eq
    exact ⟨Requests.none rfl, fun x waiting => waiting⟩

/-- What isdn4linux makes of an offered call answers it once, or leaves it waiting. -/
theorem offered_answers_iff (valid : Valid env s) (found : ∃ s₀, newBchan env s = some (s₀, chan))
    (indication : cmsg.subcommand = CAPI_IND) (message : cmd cmsg = CAPI_CONNECT_IND) (known : cmsg.adr ≠ 0)
    (commands : (env.icall (s.tick + 1)).1.foldlM
      (fun s command => (capidrvCommand env s command).map Prod.fst) (s.offered cmsg chan) = some s₁)
    (result : incomingResult env s₁ cmsg s.plciNext (env.icall (s.tick + 1)).2 = some s') :
    AnsweredOnce cmsg s s' ↔ answers env s cmsg chan ≤ 1 := by
  have offered := offered_valid valid found cmsg
  obtain ⟨news, sent, count⟩ := commands_respond offered.wired message known commands
  have sent₁ : s₁.sent = s.sent ++ news := sent
  obtain ⟨-, plci, live, listed⟩ := incoming_live valid.wired found commands
  have fresh : s.plcis s.plciNext = none := valid.wired.plci_new
  unfold answers AnsweredOnce
  rw [← count]
  cases refused : refusal (env.icall (s.tick + 1)).2 with
  | some reject =>
    cases result.symm.trans (incomingResult_refused env refused live listed)
    have all : (sendMessage env s₁ ((capiCmsgAnswer cmsg).setWord .reject reject)).sent =
        s.sent ++ (news ++ [⟨(capiCmsgAnswer cmsg).setWord .reject reject, [], env.put s₁.sent.length⟩]) := by
      rw [← List.append_assoc, ← sent₁]
      rfl
    have refuses := responds_answer indication [] (env.put s₁.sent.length)
    have total : responses cmsg s ((sendMessage env s₁ ((capiCmsgAnswer cmsg).setWord .reject reject)).setPlci
        s.plciNext (plci.after .CONNECT_REJECT)) = news.countP (responds cmsg) + 1 := by
      refine (responses_of_append all).trans ?_
      rw [List.countP_append, List.countP_singleton]
      exact congrArg (_ + ·) (if_pos refuses)
    rw [total, Option.isSome_some, if_pos rfl]
    omega
  | none =>
    rw [refusal_none refused] at result
    obtain ⟨⟨more, sent', rest⟩, still⟩ := incomingResult_accepted ⟨plci, live⟩ result
    have none : more.countP (responds cmsg) = 0 := by
      apply List.countP_eq_zero.mpr
      intro e member
      rw [responds_request (rest e member)]
      exact Bool.false_ne_true
    have all : s'.sent = s.sent ++ (news ++ more) := by rw [sent', sent₁, List.append_assoc]
    have total : responses cmsg s s' = news.countP (responds cmsg) := by
      rw [responses_of_append all, List.countP_append, none, Nat.add_zero]
    rw [total, Option.isSome_none, if_neg Bool.false_ne_true, Nat.add_zero]
    constructor
    · omega
    · intro few
      rcases Nat.le_one_iff_eq_zero_or_eq_one.mp few with zero | one
      · have rejects : ∀ command ∈ (env.icall (s.tick + 1)).1,
            accepts env (s.offered cmsg chan) cmsg.adr command = false := by
          intro command member
          rw [count] at zero
          exact Bool.eq_false_iff.mpr (List.countP_eq_zero.mp zero command member)
        have waiting : Waiting (s.offered cmsg chan) s.plciNext cmsg.adr :=
          ⟨incomingPlci chan cmsg.adr, Function.update_self _ _ _, rfl, rfl⟩
        obtain ⟨plci', live', number, state⟩ := still _ (commands_waiting offered known commands waiting rejects)
        exact .inr ⟨message, zero, s.plciNext, plci', fresh, live', number, state⟩
      · exact .inl one

/-- CONNECT_IND is answered once if its numbers fit, a channel is free and its commands accept it at most once. -/
theorem incomingCall_answers_iff (valid : Valid env s) (indication : cmsg.subcommand = CAPI_IND)
    (message : cmd cmsg = CAPI_CONNECT_IND) (route : toPlci env cmsg) (mem : env.kmalloc s.tick = true) :
    (∃ s', handleIncomingCall env s cmsg = some s' ∧ AnsweredOnce cmsg s s') ↔
      NumbersFit cmsg ∧ ∃ chan, (∃ s₀, newBchan env s = some (s₀, chan)) ∧
        (∃ s₁, callbackCommands env s cmsg chan = some s₁) ∧ answers env s cmsg chan ≤ 1 := by
  have answers_iff := @offered_answers_iff env s
  constructor
  · intro ⟨s', run, answered⟩
    cases found : newBchan env s with
    | none =>
      cases run.symm.trans (handleIncomingCall_busy env found)
      exact absurd answered (not_answeredOnce rfl rfl)
    | some e =>
      obtain ⟨s₀, chan⟩ := e
      have fit := handleIncomingCall_fit env found mem run
      rw [handleIncomingCall_eq env found mem fit] at run
      obtain ⟨⟨s₁, res⟩, callback, result⟩ := Option.bind_eq_some_iff.mp run
      obtain ⟨s₂, commands, same⟩ := Option.bind_eq_some_iff.mp callback
      cases same
      have few := (answers_iff valid ⟨s₀, found⟩ indication message (toPlci_adr route) commands result).mp answered
      exact ⟨fit, chan, ⟨s₀, rfl⟩, ⟨s₁, commands⟩, few⟩
  · intro ⟨fit, chan, ⟨s₀, found⟩, ⟨s₁, commands⟩, few⟩
    obtain ⟨s', run⟩ : ∃ s', handleIncomingCall env s cmsg = some s' := by
      apply incomingCall_defined valid fit
      intro chan' ⟨s₀', found'⟩ _
      cases found.symm.trans found'
      exact ⟨s₁, commands⟩
    refine ⟨s', run, ?_⟩
    rw [handleIncomingCall_eq env found mem fit] at run
    obtain ⟨⟨s₂, res⟩, callback, result⟩ := Option.bind_eq_some_iff.mp run
    obtain ⟨s₃, commands', same⟩ := Option.bind_eq_some_iff.mp callback
    cases same
    exact (answers_iff valid ⟨s₀, found⟩ indication message (toPlci_adr route) commands' result).mpr few

end IncomingCall

/-! ## Every indication -/

section Indications

variable {env : Env} {s s' : Card} {cmsg : Cmsg}

theorem indication_of_mem (indication : cmd cmsg ∈ indications) : cmsg.subcommand = CAPI_IND := by
  simp only [indications, List.mem_cons, List.not_mem_nil, or_false] at indication
  rcases indication with message | message | message | message | message | message | message | message
  all_goals exact congrArg Prod.snd message

/-- A message for a call is ignored when its address has no PLCI. -/
theorem strayPlci_ignored (data : Bytes)
    (message : cmd cmsg ∈ [CAPI_CONNECT_IND, CAPI_CONNECT_ACTIVE_IND, CAPI_DISCONNECT_IND])
    (stray : ¬ toPlci env cmsg) : handleMessage env s cmsg data = some s := by
  simp only [List.mem_cons, List.not_mem_nil, or_false] at message
  rcases message with message | message | message
  all_goals
    apply handleMessage_strayPlci data (by rw [message]; decide) ?_ ?_ stray
    · unfold handleController
      rw [message]
      rfl
    · unfold handleNcci
      rw [message]
      rfl

/-- A message for a connection is ignored when its address has no NCCI. -/
theorem strayNcci_ignored (data : Bytes)
    (message : cmd cmsg ∈ [CAPI_CONNECT_B3_IND, CAPI_CONNECT_B3_ACTIVE_IND, CAPI_DISCONNECT_B3_IND, CAPI_RESET_B3_IND])
    (stray : ¬ toNcci env cmsg) : handleMessage env s cmsg data = some s := by
  simp only [List.mem_cons, List.not_mem_nil, or_false] at message
  rcases message with message | message | message | message
  all_goals
    apply handleMessage_strayNcci data (by rw [message]; decide) ?_ ?_ stray
    · unfold handleController
      rw [message]
      rfl
    · unfold handlePlci
      rw [message]
      rfl

/-- The handler of a message decides whether it is answered. -/
theorem answered_iff_of_route {route found : Prop} {data : Bytes} (handled : handleMessage env s cmsg data = some s')
    (stray : ¬ route → handleMessage env s cmsg data = some s)
    (handler : route → (AnsweredOnce cmsg s s' ↔ found)) : AnsweredOnce cmsg s s' ↔ route ∧ found := by
  rcases em route with here | elsewhere
  · rw [handler here]
    exact (and_iff_right here).symm
  · cases handled.symm.trans (stray elsewhere)
    exact iff_of_false (not_answeredOnce rfl rfl) fun answerable => elsewhere answerable.1

/-- The message is handled, and answered once. -/
def HandledOnce (env : Env) (s : Card) (cmsg : Cmsg) (data : Bytes) : Prop :=
  ∃ s', handleMessage env s cmsg data = some s' ∧ AnsweredOnce cmsg s s'

/-- CONNECT_IND is handled once exactly when it is answerable. -/
theorem connectInd_answered_iff (valid : Valid env s) (message : cmd cmsg = CAPI_CONNECT_IND)
    (mem : env.kmalloc s.tick = true) (data : Bytes) : HandledOnce env s cmsg data ↔ Answerable env s cmsg := by
  have ind : cmsg.subcommand = CAPI_IND := congrArg Prod.snd message
  rw [answerable_iff]
  simp +decide only [message, forall_true_left, forall_false, and_true]
  unfold HandledOnce
  rcases em (toPlci env cmsg) with route | stray
  · rw [and_iff_right route, handleMessage_connectInd s data route message]
    exact incomingCall_answers_iff valid ind message route mem
  · rw [strayPlci_ignored data (by rw [message]; decide) stray]
    apply iff_of_false
    · intro ⟨s', same, answered⟩
      cases same
      exact not_answeredOnce rfl rfl answered
    · exact fun answerable => stray answerable.1

theorem answered_iff (valid : Valid env s) (indication : cmd cmsg ∈ indications)
    (mine : cmsg.adr &&& 0x7f = env.contrnr) (mem : env.kmalloc s.tick = true) (data : Bytes) :
    HandledOnce env s cmsg data ↔ Answerable env s cmsg := by
  rcases eq_or_ne (cmd cmsg) CAPI_CONNECT_IND with incoming | other
  · exact connectInd_answered_iff valid incoming mem data
  have ind := indication_of_mem indication
  obtain ⟨s', handled⟩ := handleMessage_defined valid data fun _ incoming => absurd incoming other
  have answered : HandledOnce env s cmsg data ↔ AnsweredOnce cmsg s s' := by
    constructor
    · intro ⟨t, handled', once⟩
      cases handled.symm.trans handled'
      exact once
    · exact fun once => ⟨s', handled, once⟩
  rw [answered]
  simp only [indications, List.mem_cons, List.not_mem_nil, or_false] at indication
  rcases indication with message | message | message | message | message | message | message | message
  · exact absurd message other
  all_goals
    rw [answerable_iff]
    simp +decide only [message, forall_true_left, forall_false, and_true, true_and]
  · apply answered_iff_of_route handled (strayPlci_ignored data (by rw [message]; decide))
    intro route
    rw [handleMessage_connectActiveInd s data route message] at handled
    exact connectActiveInd_answers_iff ind handled
  · have answered : AnsweredOnce cmsg s s' ↔ toPlci env cmsg ∧ True := by
      apply answered_iff_of_route handled (strayPlci_ignored data (by rw [message]; decide))
      intro route
      rw [handleMessage_disconnectInd s data route message] at handled
      exact iff_true_intro (disconnectInd_answers valid ind route handled)
    rwa [and_true] at answered
  · have answered : AnsweredOnce cmsg s s' ↔ toNcci env cmsg ∧ True := by
      apply answered_iff_of_route handled (strayNcci_ignored data (by rw [message]; decide))
      intro route
      rw [handleMessage_connectB3Ind s data route message] at handled
      exact iff_true_intro (connectB3Ind_answers message handled)
    rwa [and_true] at answered
  · apply answered_iff_of_route handled (strayNcci_ignored data (by rw [message]; decide))
    intro route
    rw [handleMessage_connectB3ActiveInd s data route message] at handled
    exact connectB3ActiveInd_answers_iff valid ind handled
  · apply answered_iff_of_route handled (strayNcci_ignored data (by rw [message]; decide))
    intro route
    rw [handleMessage_disconnectB3Ind s data route message] at handled
    exact disconnectB3Ind_answers_iff valid ind handled
  · apply answered_iff_of_route handled (strayNcci_ignored data (by rw [message]; decide))
    intro route
    rw [handleMessage_resetB3Ind s data route message] at handled
    exact resetB3Ind_answers_iff valid ind handled
  · rw [handleMessage_dataB3Ind s data mine message] at handled
    cases handled
    exact handleData_answers_iff ind data

/-- Exactly which indications are answered with one response, and with nothing that is too large for its buffer, in
every state that the driver reaches. -/
theorem indication_answered_iff {ops : List Op} (reached : exec (step env) Card.init ops = some s) {msg : Bytes}
    (decoded : capiMessage2cmsg msg = some cmsg) (indication : cmd cmsg ∈ indications)
    (mine : cmsg.adr &&& 0x7f = env.contrnr) (mem : env.kmalloc s.tick = true) :
    (∃ s', step env s (.recv msg) = some s' ∧ AnsweredOnce cmsg s s' ∧ Packs s s') ↔
      Answerable env s cmsg ∧ (Refused env s cmsg → AnswerFits cmsg) := by
  have free := Meets.unconditional (step env) Card.init ops
  have always := always_of_inv (fun s op s' valid _ run => valid_step valid run) (valid_init env) free
  have valid : Valid env s := always.last reached
  rw [← answered_iff valid indication mine mem (payload msg)]
  constructor
  · intro ⟨s', recv, once, packs⟩
    obtain ⟨cmsg', decoded', rest⟩ := Option.bind_eq_some_iff.mp recv
    cases decoded.symm.trans decoded'
    obtain ⟨s₁, handled, same⟩ := Option.bind_eq_some_iff.mp rest
    cases same
    have fits := (handleMessage_packs_iff decoded handled).mp (packs_confirm.mp packs)
    exact ⟨⟨s₁, handled, answeredOnce_confirm.mp once⟩, fits⟩
  · intro ⟨⟨s₁, handled, once⟩, fits⟩
    have packs := (handleMessage_packs_iff decoded handled).mpr fits
    exact ⟨confirm env s₁ cmsg, recv_eq decoded handled, answeredOnce_confirm.mpr once, packs_confirm.mpr packs⟩

end Indications

/-- The indication of an active call. -/
def activeInd : Bytes := controllerMsg CAPI_CONNECT_ACTIVE_IND 0 [1, 1, 0, 0] [0, 0, 0]

/-- The controller announces the call that is dialled. -/
def dialledConf : Bytes := controllerMsg CAPI_CONNECT_CONF 0 [1, 1, 0, 0] [0, 0]

theorem indication_answered_active : ∃ s s' cmsg,
    exec (step Env.granting) Card.init [.command (.DIAL 0 .empty .empty 1 0), .recv dialledConf] = some s ∧
      capiMessage2cmsg activeInd = some cmsg ∧ step Env.granting s (.recv activeInd) = some s' ∧
      AnsweredOnce cmsg s s' ∧ Packs s s' := by
  obtain ⟨s, run⟩ : ∃ s, exec (step Env.granting) Card.init
      [.command (.DIAL 0 .empty .empty 1 0), .recv dialledConf] = some s := ⟨_, rfl⟩
  obtain ⟨cmsg, decoded⟩ : ∃ cmsg, capiMessage2cmsg activeInd = some cmsg := ⟨_, rfl⟩
  have header : (capiMessage2cmsg activeInd).map (fun cmsg => (cmd cmsg, cmsg.adr)) =
      some (CAPI_CONNECT_ACTIVE_IND, 0x0101) := rfl
  rw [decoded, Option.map_some, Option.some.injEq, Prod.mk.injEq] at header
  obtain ⟨message, adr⟩ := header
  have found : (exec (step Env.granting) Card.init
      [.command (.DIAL 0 .empty .empty 1 0), .recv dialledConf]).map
        (fun s => (findPlciByPlci s 0x0101).isSome) = some true := rfl
  rw [run, Option.map_some, Option.some.injEq] at found
  obtain ⟨⟨p, plci⟩, found⟩ := Option.isSome_iff_exists.mp found
  have answerable : Answerable Env.granting s cmsg := by
    rw [answerable_iff]
    simp +decide only [message, forall_true_left, forall_false, and_true, true_and]
    constructor
    · rw [toPlci, adr]
      decide
    · exact ⟨p, plci, by rw [adr, found]⟩
  have mine : cmsg.adr &&& 0x7f = Env.granting.contrnr := by
    rw [adr]
    decide
  have other : ¬ Refused Env.granting s cmsg := by
    intro refused
    exact absurd (message.symm.trans refused.2.1) (by decide)
  obtain ⟨s', recv, once⟩ := (indication_answered_iff run decoded (by rw [message]; decide) mine rfl).mpr
    ⟨answerable, fun refused => absurd refused other⟩
  exact ⟨s, s', cmsg, run, decoded, recv, once⟩

/-- The indication of a call that the card does not know is not answered. -/
theorem unknown_unanswered : ∃ cmsg s', capiMessage2cmsg activeInd = some cmsg ∧ cmd cmsg ∈ indications ∧
    cmsg.adr &&& 0x7f = Env.granting.contrnr ∧ step Env.granting Card.init (.recv activeInd) = some s' ∧
    ¬ AnsweredOnce cmsg Card.init s' := by
  obtain ⟨cmsg, decoded⟩ : ∃ cmsg, capiMessage2cmsg activeInd = some cmsg := ⟨_, rfl⟩
  have header : (capiMessage2cmsg activeInd).map (fun cmsg => (cmd cmsg, cmsg.adr)) =
      some (CAPI_CONNECT_ACTIVE_IND, 0x0101) := rfl
  rw [decoded, Option.map_some, Option.some.injEq, Prod.mk.injEq] at header
  obtain ⟨message, adr⟩ := header
  obtain ⟨s', recv⟩ : ∃ s', step Env.granting Card.init (.recv activeInd) = some s' := ⟨_, rfl⟩
  refine ⟨cmsg, s', decoded, by rw [message]; decide, by rw [adr]; decide, recv, ?_⟩
  have nothing : (step Env.granting Card.init (.recv activeInd)).map
      (fun s => (s.sent.length, cmsg.command)) = some (0, cmsg.command) := rfl
  rw [recv, Option.map_some, Option.some.injEq, Prod.mk.injEq] at nothing
  have silent : s'.sent = [] := List.eq_nil_of_length_eq_zero nothing.1
  rintro (one | ⟨incoming, -⟩)
  · rw [responses, silent] at one
    cases one
  · rw [message] at incoming
    exact absurd incoming (by decide)

end Capi4Linux.Capidrv
