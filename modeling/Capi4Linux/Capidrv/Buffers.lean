import Capi4Linux.Capidrv.Refusals
import Capi4Linux.Capidrv.Sizes

/-!
# The message buffers of capidrv

What a step encodes: every message that it sends, and the header of data that
cannot be sent. All of it fits the `buf` of a `_cmsg`, apart from the response
that refuses a call with a long LLC or AdditionalInfo.
-/

namespace Capi4Linux.Capidrv
open Bytes Capicore Capiutil Machine

/-- What is sent between fits. -/
def Packs (s s' : Card) : Prop := ∃ news, s'.sent = s.sent ++ news ∧ ∀ e ∈ news, Fits e.cmsg

namespace Packs

variable {s s' s'' : Card}

theorem none (sent : s'.sent = s.sent) : Packs s s' := ⟨[], by rw [sent, List.append_nil], nofun⟩

/-- Steps that pack do so one after the other. -/
theorem trans (packs : Packs s s') (packs' : Packs s' s'') : Packs s s'' := by
  obtain ⟨news, sent, fits⟩ := packs
  obtain ⟨news', sent', fits'⟩ := packs'
  refine ⟨news ++ news', by rw [sent', sent, List.append_assoc], ?_⟩
  intro e member
  rcases List.mem_append.mp member with first | second
  · exact fits e first
  · exact fits' e second

theorem sendMessage (env : Env) {cmsg : Cmsg} (fits : Fits cmsg) (sent : s'.sent = s.sent) :
    Packs s (sendMessage env s' cmsg) := by
  refine ⟨[⟨cmsg, [], env.put s'.sent.length⟩], ?_, ?_⟩
  · rw [← sent]
    rfl
  · intro e member
    rw [List.mem_singleton.mp member]
    exact fits

/-- One more message. -/
theorem append_iff (packs : Packs s s') {e : Sent} (sent : s''.sent = s'.sent ++ [e]) : Packs s s'' ↔ Fits e.cmsg := by
  obtain ⟨news, before, fits⟩ := packs
  rw [before, List.append_assoc] at sent
  constructor
  · intro ⟨news', sent', fits'⟩
    have same : news ++ [e] = news' := List.append_cancel_left (sent.symm.trans sent')
    exact fits' e (same ▸ List.mem_append_right news List.mem_cons_self)
  · intro last
    refine ⟨news ++ [e], sent, fun e' member => ?_⟩
    rcases List.mem_append.mp member with early | late
    · exact fits e' early
    · rw [List.mem_singleton.mp late]
      exact last

end Packs

/-! ## Records and commands -/

section Records

variable {env : Env} {s s' : Card} {p n arg : Nat} {res : Int}

theorem freePlci_sent (run : freePlci s p = some s') : s'.sent = s.sent := by
  obtain ⟨plci, live, run⟩ := Option.bind_eq_some_iff.mp run
  split at run
  · cases run
    rfl
  · cases run
    rfl

theorem plciChangeState_sent {event : PlciEvent} (run : plciChangeState s p event = some s') : s'.sent = s.sent := by
  obtain ⟨plci, live, run⟩ := Option.bind_eq_some_iff.mp run
  split at run
  · cases run
    rfl
  · split at run
    · obtain ⟨plci', live', run⟩ := Option.bind_eq_some_iff.mp run
      have sent := freePlci_sent run
      exact sent
    · cases run
      rfl

theorem freeNcci_sent (run : freeNcci s n = some s') : s'.sent = s.sent := by
  obtain ⟨ncci, live, run⟩ := Option.bind_eq_some_iff.mp run
  obtain ⟨plci, call, run⟩ := Option.bind_eq_some_iff.mp run
  cases run
  rfl

/-- The end of a connection hangs up its call. -/
theorem packs_ncciChangeState {event : NcciEvent} (run : ncciChangeState env s n event = some s') : Packs s s' := by
  obtain ⟨ncci, live, run⟩ := Option.bind_eq_some_iff.mp run
  split at run
  · cases run
    exact Packs.none rfl
  · split at run
    · obtain ⟨ncci', live', run⟩ := Option.bind_eq_some_iff.mp run
      obtain ⟨plci, call, run⟩ := Option.bind_eq_some_iff.mp run
      obtain ⟨s₁, hangup, run⟩ := Option.bind_eq_some_iff.mp run
      have request := Packs.sendMessage env (fits_disconnectReq env.applId s.msgid plci.plci) (s := s) rfl
      apply request.trans
      have freed := freeNcci_sent run
      have hungUp := plciChangeState_sent hangup
      exact Packs.none (freed.trans hungUp)
    · cases run
      exact Packs.none rfl

theorem newNcci_sent {x : UInt32} {made : Option Nat} (run : newNcci env s p x = some (s', made)) : s'.sent = s.sent := by
  unfold newNcci at run
  simp only at run
  split at run
  · cases run
    rfl
  · obtain ⟨plci, live, run⟩ := Option.bind_eq_some_iff.mp run
    cases run
    rfl

theorem newPlci_sent (env : Env) (s : Card) (chan : Nat) : (newPlci env s chan).1.sent = s.sent := by
  unfold newPlci
  simp only
  split
  · rfl
  · rfl

theorem capidrvDelAck_sent {handle : UInt16} (run : capidrvDelAck s n handle = some (s', res)) : s'.sent = s.sent := by
  obtain ⟨ncci, live, run⟩ := Option.bind_eq_some_iff.mp run
  split at run
  · cases run
    rfl
  · cases run
    rfl

theorem packs_dial {phone eazmsn : Msn} {si1 si2 : UInt8}
    (run : commandDial env s arg phone eazmsn si1 si2 = some (s', res)) : Packs s s' := by
  obtain ⟨chan, at_channel, run⟩ := Option.bind_eq_some_iff.mp run
  simp only at run
  split at run
  · cases run
    exact Packs.none rfl
  · let bchan : Bchan := { s.bchans chan with si1, si2, num := phone, mynum := eazmsn }
    obtain ⟨line, parsed, run⟩ := Option.bind_eq_some_iff.mp run
    have fresh := newPlci_sent env (s.setBchan chan bchan).nextMsgid chan
    split at run
    · rename_i s₁ made
      cases run
      rw [made] at fresh
      exact Packs.none fresh
    · rename_i s₁ p made
      rw [made] at fresh
      obtain ⟨plci, live, run⟩ := Option.bind_eq_some_iff.mp run
      obtain ⟨s₂, moved, run⟩ := Option.bind_eq_some_iff.mp run
      cases run
      have sent := plciChangeState_sent moved
      exact Packs.sendMessage env (fits_dialConnectReq s.msgid parsed) (sent.trans fresh)

theorem packs_acceptd (run : commandAcceptd env s arg = some (s', res)) : Packs s s' := by
  obtain ⟨chan, at_channel, run⟩ := Option.bind_eq_some_iff.mp run
  obtain ⟨p, call, run⟩ := Option.bind_eq_some_iff.mp run
  obtain ⟨plci, live, run⟩ := Option.bind_eq_some_iff.mp run
  obtain ⟨s₁, moved, run⟩ := Option.bind_eq_some_iff.mp run
  cases run
  have sent := plciChangeState_sent moved
  obtain ⟨formed, small⟩ := b1config_small (env.protoL2 (s.bchans chan).l2)
  exact Packs.sendMessage env (fits_connectResp _ _ _ _ _ _ _ formed small) sent

theorem packs_hangup (run : commandHangup env s arg = some (s', res)) : Packs s s' := by
  obtain ⟨chan, at_channel, run⟩ := Option.bind_eq_some_iff.mp run
  simp only at run
  split at run
  · cases run
    exact Packs.none rfl
  split at run
  · obtain ⟨ncci, live, run⟩ := Option.bind_eq_some_iff.mp run
    obtain ⟨s₁, moved, run⟩ := Option.bind_eq_some_iff.mp run
    cases run
    have moved := packs_ncciChangeState moved
    have request := Packs.sendMessage env (fits_disconnectB3Req env.applId s.msgid ncci.ncci) (s := s₁) rfl
    exact moved.trans request
  · obtain ⟨plci, live, run⟩ := Option.bind_eq_some_iff.mp run
    split at run
    · cases run
      exact Packs.none rfl
    split at run
    · obtain ⟨s₁, moved, run⟩ := Option.bind_eq_some_iff.mp run
      cases run
      have sent := plciChangeState_sent moved
      exact Packs.sendMessage env (fits_disconnectReq _ _ _) sent
    · cases run
      exact Packs.none rfl
  · cases run
    exact Packs.none rfl

theorem packs_command {command : Command} (run : capidrvCommand env s command = some (s', res)) : Packs s s' := by
  have set : ∀ {arg : Nat} {set : Bchan → Bchan}, commandSet env s arg set = some (s', res) → Packs s s' := by
    intro arg set run
    obtain ⟨chan, -, run⟩ := Option.bind_eq_some_iff.mp run
    cases run
    exact Packs.none rfl
  cases command with
  | DIAL => exact packs_dial run
  | ACCEPTD => exact packs_acceptd run
  | HANGUP => exact packs_hangup run
  | SETL2 | SETL3 | SETEAZ | CLREAZ =>
    unfold capidrvCommand at run
    exact set run
  | IOCTL | ACCEPTB | other =>
    cases run
    exact Packs.none rfl

end Records

/-! ## Messages -/

section Messages

variable {env : Env} {s s' : Card} {cmsg : Cmsg}

/-- An indication with nothing but an address in its response. -/
theorem packs_answer {command : UInt8} (template : Template (command, CAPI_RESP) [.par (.dword .adr)])
    (message : cmd cmsg = (command, CAPI_IND)) (sent : s'.sent = s.sent) :
    Packs s (answer env s' cmsg) :=
  Packs.sendMessage env (fits_answer template message) sent

theorem packs_handleController (s : Card) (cmsg : Cmsg) : Packs s (handleController s cmsg) := by
  have listen : ∀ event, Packs s (listenChangeState s event) := by
    intro event
    unfold listenChangeState
    split
    · exact Packs.none rfl
    · exact Packs.none rfl
  unfold handleController
  split
  · unfold listenConf
    split
    · exact listen _
    split
    · exact listen _
    · exact listen _
  split
  · obtain ⟨q931Buf, q931Write, status, same⟩ := traced_manufacturerInd s cmsg
    rw [same]
    exact Packs.none rfl
  · exact Packs.none rfl

theorem packs_disconnectInd (message : cmd cmsg = CAPI_DISCONNECT_IND)
    (run : disconnectInd env s cmsg = some s') : Packs s s' := by
  have template : Template (CAPI_DISCONNECT, CAPI_RESP) [.par (.dword .adr)] := ⟨[0x03, 0x01], rfl, rfl⟩
  unfold disconnectInd at run
  split at run
  · cases run
    exact packs_answer template message rfl
  · obtain ⟨s₁, first, run⟩ := Option.bind_eq_some_iff.mp run
    have flagged := plciChangeState_sent first
    have answered : Packs s (answer env s₁ cmsg) := packs_answer template message flagged
    exact answered.trans (Packs.none (plciChangeState_sent run))

theorem packs_connectConf (run : connectConf s cmsg = some s') : Packs s s' := by
  unfold connectConf at run
  split at run
  · cases run
    exact Packs.none rfl
  · have sent := plciChangeState_sent run
    exact Packs.none sent

/-- CONNECT_ACTIVE_IND packs its response and the CONNECT_B3_REQ. -/
theorem packs_connectActiveInd (message : cmd cmsg = CAPI_CONNECT_ACTIVE_IND)
    (run : connectActiveInd env s cmsg = some s') : Packs s s' := by
  have template : Template (CAPI_CONNECT_ACTIVE, CAPI_RESP) [.par (.dword .adr)] := ⟨[0x03, 0x01], rfl, rfl⟩
  have answered : Packs s (answer env s cmsg) := packs_answer template message rfl
  unfold connectActiveInd at run
  split at run
  · cases run
    exact Packs.none rfl
  · rename_i p plci found
    simp only at run
    split at run
    · have sent := plciChangeState_sent run
      exact answered.trans (Packs.none sent)
    · obtain ⟨⟨s₁, made⟩, fresh, run⟩ := Option.bind_eq_some_iff.mp run
      have kept := newNcci_sent fresh
      apply answered.trans
      split at run
      · rename_i same
        cases same
        cases run
        exact Packs.none kept
      · rename_i s₂ n same
        cases same
        obtain ⟨ncci, live, run⟩ := Option.bind_eq_some_iff.mp run
        obtain ⟨s₃, active, run⟩ := Option.bind_eq_some_iff.mp run
        obtain ⟨s₄, requested, run⟩ := Option.bind_eq_some_iff.mp run
        cases run
        have request := Packs.sendMessage env (fits_connectB3Req env.applId s₁.msgid plci.plci) kept
        have moved := Packs.none (plciChangeState_sent active)
        have last := packs_ncciChangeState requested
        exact (request.trans moved).trans last

theorem packs_connectB3Resp (env : Env) (x : UInt32) (reject : UInt16) (sent : s'.sent = s.sent) :
    Packs s (connectB3Resp env s' x reject) :=
  Packs.sendMessage env (fits_connectB3Resp _ _ _ _) sent

theorem packs_connectB3Ind (run : connectB3Ind env s cmsg = some s') : Packs s s' := by
  unfold connectB3Ind at run
  split at run
  · cases run
    exact packs_connectB3Resp env _ _ rfl
  · obtain ⟨⟨s₁, made⟩, fresh, run⟩ := Option.bind_eq_some_iff.mp run
    have kept := newNcci_sent fresh
    split at run
    · rename_i same
      cases same
      cases run
      exact packs_connectB3Resp env _ _ kept
    · rename_i s₂ n same
      cases same
      obtain ⟨s₃, first, run⟩ := Option.bind_eq_some_iff.mp run
      obtain ⟨ncci, live, run⟩ := Option.bind_eq_some_iff.mp run
      have incoming : Packs s s₃ := (Packs.none kept).trans (packs_ncciChangeState first)
      have response : Packs s₃ (connectB3Resp env s₃ ncci.ncci 0) := packs_connectB3Resp env _ _ rfl
      exact (incoming.trans response).trans (packs_ncciChangeState run)

/-- An indication about a connection that is found. -/
theorem packs_handleNcci (run : handleNcci env s cmsg = some s') : Packs s s' := by
  have answered : ∀ {command : UInt8} {t : Card}, cmd cmsg = (command, CAPI_IND) →
      cpars (command2Index command CAPI_RESP) = some [0x03, 0x01] → t.sent = s.sent → Packs s (answer env t cmsg) := by
    intro command t message template sent
    exact packs_answer ⟨[0x03, 0x01], template, rfl⟩ message sent
  unfold handleNcci at run
  split at run
  · rename_i message
    unfold connectB3ActiveInd at run
    split at run
    · cases run
      exact Packs.none rfl
    · obtain ⟨s₁, active, run⟩ := Option.bind_eq_some_iff.mp run
      cases run
      have moved := packs_ncciChangeState active
      exact ((answered message rfl rfl).trans moved).trans (Packs.none rfl)
  split at run
  · exact packs_connectB3Ind run
  split at run
  · unfold connectB3Conf at run
    split at run
    · cases run
      exact Packs.none rfl
    · have moved := packs_ncciChangeState run
      exact moved
  split at run
  · rename_i message
    cases run
    exact answered message rfl rfl
  split at run
  · unfold dataB3Conf at run
    split at run
    · cases run
      exact Packs.none rfl
    · obtain ⟨⟨s₁, len⟩, deleted, run⟩ := Option.bind_eq_some_iff.mp run
      have kept := capidrvDelAck_sent deleted
      simp only at run
      split at run
      · cases run
        exact Packs.none kept
      · cases run
        exact Packs.none kept
  split at run
  · rename_i message
    unfold disconnectB3Ind at run
    split at run
    · cases run
      exact Packs.none rfl
    · obtain ⟨s₁, first, run⟩ := Option.bind_eq_some_iff.mp run
      have moved := packs_ncciChangeState first
      have flagged : Packs s s₁ := moved
      have response : Packs s₁ (answer env s₁ cmsg) := packs_answer ⟨[0x03, 0x01], rfl, rfl⟩ message rfl
      exact (flagged.trans response).trans (packs_ncciChangeState run)
  split at run
  · unfold disconnectB3Conf at run
    split at run
    · cases run
      exact Packs.none rfl
    split at run
    · exact packs_ncciChangeState run
    · cases run
      exact Packs.none rfl
  split at run
  · rename_i message
    unfold resetB3Ind at run
    split at run
    · cases run
      exact Packs.none rfl
    · obtain ⟨s₁, first, run⟩ := Option.bind_eq_some_iff.mp run
      cases run
      have response : Packs s₁ (answer env s₁ cmsg) := packs_answer ⟨[0x03, 0x01], rfl, rfl⟩ message rfl
      exact (packs_ncciChangeState first).trans response
  · cases run
    exact Packs.none rfl

theorem packs_handleData (message : cmd cmsg = CAPI_DATA_B3_IND) (data : Bytes) :
    Packs s (handleData env s cmsg data) := by
  unfold handleData
  split
  · exact Packs.none rfl
  · exact Packs.sendMessage env (fits_dataB3Resp message) rfl

/-! ## Incoming calls -/

/-- The message is a CONNECT_IND that isdn4linux is told about and does not want. -/
def Refused (env : Env) (s : Card) (cmsg : Cmsg) : Prop :=
  toPlci env cmsg ∧ cmd cmsg = CAPI_CONNECT_IND ∧ (newBchan env s).isSome ∧ env.kmalloc s.tick = true ∧
    NumbersFit cmsg ∧ (env.icall (s.tick + 1)).2 ≠ 1

/-- The CONNECT_RESP that refuses the call can be read and is small. -/
def AnswerFits (cmsg : Cmsg) : Prop := ReadableCall cmsg ∧ SmallCall cmsg

/-- A rejected call is answered with the indication's own parameters. -/
theorem rejectCall_sent {p : Nat} {reject : UInt16} (run : rejectCall env s cmsg p reject = some s') :
    ∃ info, s'.sent = s.sent ++ [⟨(capiCmsgAnswer cmsg).setWord .reject reject, [], info⟩] := by
  have sent := plciChangeState_sent run
  exact ⟨_, sent⟩

/-- An incoming call that is rejected, and no other, needs an indication whose answer fits. -/
theorem incomingResult_packs_iff {msg : Bytes} (decoded : capiMessage2cmsg msg = some cmsg)
    (message : cmd cmsg = CAPI_CONNECT_IND) {s₁ : Card} (before : Packs s s₁) {p : Nat} {res : Int}
    (run : incomingResult env s₁ cmsg p res = some s') : Packs s s' ↔ (res ≠ 1 → AnswerFits cmsg) := by
  have rejected : ∀ {reject : UInt16}, res ≠ 1 → rejectCall env s₁ cmsg p reject = some s' →
      (Packs s s' ↔ (res ≠ 1 → AnswerFits cmsg)) := by
    intro reject unwanted run
    obtain ⟨info, sent⟩ := rejectCall_sent run
    rw [before.append_iff sent, fits_refusal_iff decoded message reject]
    exact ⟨fun small _ => small, fun small => small unwanted⟩
  unfold incomingResult at run
  split at run
  · rename_i ignored
    exact rejected (by omega) run
  split at run
  · rename_i wanted
    apply iff_of_true ?_ fun unwanted => absurd wanted unwanted
    obtain ⟨plci, live, run⟩ := Option.bind_eq_some_iff.mp run
    split at run
    · cases run
      exact before.trans (Packs.sendMessage env (fits_alertReq env.applId s₁.msgid plci.plci) rfl)
    · cases run
      exact before
  rename_i unwanted
  split at run
  · exact rejected unwanted run
  · exact rejected unwanted run

/-- Of all the indications only a refused CONNECT_IND can run over the buffer. -/
theorem handleIncomingCall_packs_iff {msg : Bytes} (decoded : capiMessage2cmsg msg = some cmsg)
    (route : toPlci env cmsg) (message : cmd cmsg = CAPI_CONNECT_IND)
    (run : handleIncomingCall env s cmsg = some s') : Packs s s' ↔ (Refused env s cmsg → AnswerFits cmsg) := by
  cases found : newBchan env s with
  | none =>
    cases run.symm.trans (handleIncomingCall_busy env found)
    apply iff_of_true (Packs.none rfl)
    rintro ⟨-, -, free, -⟩
    rw [found] at free
    cases free
  | some e =>
    obtain ⟨s₀, chan⟩ := e
    cases mem : env.kmalloc s.tick with
    | false =>
      cases run.symm.trans (handleIncomingCall_nomem env found mem)
      apply iff_of_true (Packs.none rfl)
      rintro ⟨-, -, -, mem', -⟩
      rw [mem] at mem'
      cases mem'
    | true =>
      have fit := handleIncomingCall_fit env found mem run
      rw [handleIncomingCall_eq env found mem fit] at run
      obtain ⟨⟨s₁, res⟩, callback, run⟩ := Option.bind_eq_some_iff.mp run
      obtain ⟨s₂, commands, same⟩ := Option.bind_eq_some_iff.mp callback
      cases same
      have issued := foldlM_rel (fun s => Packs.none rfl) (fun _ _ _ => Packs.trans) (fun s command s' round => by
        obtain ⟨⟨t, res⟩, done, same⟩ := Option.map_eq_some_iff.mp round
        cases same
        exact packs_command done) commands
      have before : Packs s s₁ := issued
      have tick : (s.offer chan cmsg.adr).tick = s.tick + 1 := rfl
      rw [incomingResult_packs_iff decoded message before run, tick]
      constructor
      · exact fun small refused => small refused.2.2.2.2.2
      · exact fun small unwanted => small ⟨route, message, by rw [found]; rfl, mem, fit, unwanted⟩

/-- A call that is refused is the only message with an answer that may not fit. -/
theorem handleMessage_packs_iff {msg : Bytes} (decoded : capiMessage2cmsg msg = some cmsg)
    {data : Bytes} (run : handleMessage env s cmsg data = some s') :
    Packs s s' ↔ (Refused env s cmsg → AnswerFits cmsg) := by
  have other : (¬ Refused env s cmsg) → Packs s s' → (Packs s s' ↔ (Refused env s cmsg → AnswerFits cmsg)) :=
    fun kept packs => iff_of_true packs fun refused => absurd refused kept
  unfold handleMessage at run
  split at run
  · rename_i strange
    cases run
    exact other (fun refused => strange refused.1.1) (Packs.none rfl)
  rename_i mine
  split at run
  · rename_i message
    cases run
    refine other (fun refused => ?_) (packs_handleData message data)
    exact absurd (message.symm.trans refused.2.1) (by decide)
  split at run
  · rename_i narrow
    cases run
    exact other (fun refused => refused.1.2.1 narrow) (packs_handleController s cmsg)
  rename_i wide
  split at run
  · rename_i narrow
    have route : toPlci env cmsg := ⟨not_not.mp mine, wide, narrow⟩
    have elsewhere : ∀ m, m ≠ CAPI_CONNECT_IND → cmd cmsg = m → ¬ Refused env s cmsg :=
      fun m differ message refused => differ (message.symm.trans refused.2.1)
    unfold handlePlci at run
    split at run
    · rename_i message
      exact other (elsewhere _ (by decide) message) (packs_disconnectInd message run)
    split at run
    · rename_i message
      cases run
      refine other (elsewhere _ (by decide) message) ?_
      unfold disconnectConf
      split
      · exact Packs.none rfl
      · exact Packs.none rfl
    split at run
    · rename_i message
      exact handleIncomingCall_packs_iff decoded route message run
    rename_i known
    split at run
    · rename_i message
      exact other (elsewhere _ (by decide) message) (packs_connectConf run)
    split at run
    · rename_i message
      exact other (elsewhere _ (by decide) message) (packs_connectActiveInd message run)
    split at run
    · rename_i message
      cases run
      refine other (elsewhere _ (by decide) message) ?_
      unfold infoInd
      split
      · exact Packs.none rfl
      · dsimp only
        split
        · exact Packs.none rfl
        · exact Packs.none rfl
    · cases run
      exact other (fun refused => known refused.2.1) (Packs.none rfl)
  · rename_i wider
    exact other (fun refused => wider refused.1.2.2) (packs_handleNcci run)

end Messages

/-! ## Runs -/

/-- The DATA_B3_REQ that `if_sendbuf` encodes for a channel with a connection. -/
def dataB3Req (env : Env) (s : Card) (arg : Nat) (skb : Buf) : Option Cmsg := do
  let chan ← channel env arg
  let n ← (s.bchans chan).nccip
  let ncci ← s.nccis n
  some (capiFillDataB3Req env.applId s.msgid ncci.ncci (env.address s.tick) (UInt16.ofNat skb.data.length)
    ncci.datahandle 0)

/-- The step gives the message to `capi_cmsg2message`: it is sent, or the header of data that may not be sent. -/
inductive Encodes (env : Env) (s : Card) (s' : Card) : Op → Cmsg → Prop where
  | sent {op : Op} {e : Sent} (news : e ∈ s'.sent.drop s.sent.length) : Encodes env s s' op e.cmsg
  | data {arg : Nat} {doack : Bool} {skb : Buf} {cmsg : Cmsg} (filled : dataB3Req env s arg skb = some cmsg) :
      Encodes env s s' (.sendbuf arg doack skb) cmsg

/-- A message of the controller can be read, to the end of its last struct. -/
def Op.WellFormed : Op → Prop
  | .recv msg => ∃ cmsg, capiMessage2cmsg msg = some cmsg ∧ cmsg.Sound
  | _ => True

/-- A call that the step refuses is small. -/
def RefusesSmall (env : Env) (s : Card) (op : Op) : Prop :=
  ∀ msg cmsg, op = .recv msg → capiMessage2cmsg msg = some cmsg → Refused env s cmsg → SmallCall cmsg

section Runs

variable {env : Env} {s s' : Card}

/-- Packing does not depend on the list of the outstanding. -/
theorem packs_confirm {cmsg : Cmsg} : Packs s (confirm env s' cmsg) ↔ Packs s s' := by
  unfold confirm
  split
  · exact Iff.rfl
  · exact Iff.rfl

/-- A step packs if every message it sends fits. -/
theorem packs_iff (grows : ∃ news, s'.sent = s.sent ++ news) :
    Packs s s' ↔ ∀ e ∈ s'.sent.drop s.sent.length, Fits e.cmsg := by
  obtain ⟨news, sent⟩ := grows
  rw [sent, List.drop_left]
  constructor
  · intro ⟨news', sent', fits⟩
    rw [List.append_cancel_left (sent.symm.trans sent')]
    exact fits
  · exact fun fits => ⟨news, sent, fits⟩

theorem packs_ifSendbuf {arg : Nat} {doack : Bool} {skb buf : Buf} {res : Int}
    (run : ifSendbuf env s arg doack skb = some (s', res, buf)) : Packs s s' := by
  obtain ⟨chan, at_channel, run⟩ := Option.bind_eq_some_iff.mp run
  dsimp only at run
  split at run
  · cases run
    exact Packs.none rfl
  rename_i n conn
  obtain ⟨ncci, live, run⟩ := Option.bind_eq_some_iff.mp run
  split at run
  · cases run
    exact Packs.none rfl
  obtain ⟨ack, added, run⟩ := Option.bind_eq_some_iff.mp run
  split at run
  · cases run
    exact Packs.none rfl
  rename_i s₁
  have before : s₁.sent = s.sent := (still_capidrvAddAck added).sent
  obtain ⟨header, encoded, run⟩ := Option.bind_eq_some_iff.mp run
  have asked : (if skb.headroom < header.length then s₁.asked else s₁).sent = s.sent := by
    split
    · exact before
    · exact before
  generalize (if skb.headroom < header.length then s₁.asked else s₁) = s₂ at run asked
  split at run
  · obtain ⟨⟨s₃, res₃⟩, deleted, run⟩ := Option.bind_eq_some_iff.mp run
    cases run
    have kept := (still_capidrvDelAck deleted).sent
    exact Packs.none (kept.trans asked)
  let sendcmsg := capiFillDataB3Req env.applId s.msgid ncci.ncci (env.address s.tick) (UInt16.ofNat skb.data.length)
    ncci.datahandle 0
  let s₃ := { (putCapiMessage env s₂ sendcmsg skb.data).1 with named := s₂.named ++ [(chan, ncci.ncci)] }
  have sent : s₃.sent = s₂.sent ++ [⟨sendcmsg, skb.data, env.put s₂.sent.length⟩] := rfl
  have put : Packs s s₃ := ((Packs.none asked).append_iff sent).mpr (fits_dataB3Req _ _ _ _ _ _ _)
  split at run
  · obtain ⟨ncci', live', run⟩ := Option.bind_eq_some_iff.mp run
    cases run
    have counted : Packs s₃ (s₃.setNcci n { ncci' with datahandle := ncci'.datahandle + 1 }) := Packs.none rfl
    exact put.trans counted
  · obtain ⟨⟨s₄, res₄⟩, deleted, run⟩ := Option.bind_eq_some_iff.mp run
    cases run
    exact put.trans (Packs.none (still_capidrvDelAck deleted).sent)

/-- Every step but the refusal of a call fits. -/
theorem step_packs_iff {op : Op} (formed : op.WellFormed) (run : step env s op = some s') :
    Packs s s' ↔ RefusesSmall env s op := by
  have other : (∀ msg, op ≠ .recv msg) → Packs s s' → (Packs s s' ↔ RefusesSmall env s op) :=
    fun differ packs => iff_of_true packs fun msg _ recv => absurd recv (differ msg)
  cases op with
  | recv msg =>
    obtain ⟨cmsg, decoded, sound⟩ := formed
    obtain ⟨cmsg', decoded', run⟩ := Option.bind_eq_some_iff.mp run
    cases decoded.symm.trans decoded'
    obtain ⟨s₁, handled, run⟩ := Option.bind_eq_some_iff.mp run
    cases run
    rw [packs_confirm, handleMessage_packs_iff decoded handled]
    constructor
    · intro fits msg' cmsg' recv decoded' refused
      cases recv
      cases decoded.symm.trans decoded'
      exact (fits refused).2
    · exact fun small refused => ⟨readableCall_of_sound sound, small msg cmsg rfl decoded refused⟩
  | command command =>
    obtain ⟨⟨s₁, res⟩, done, same⟩ := Option.map_eq_some_iff.mp run
    cases same
    exact other nofun (packs_command done)
  | sendbuf arg doack skb =>
    obtain ⟨⟨s₁, res⟩, done, same⟩ := Option.map_eq_some_iff.mp run
    cases same
    exact other nofun (packs_ifSendbuf done)
  | readstat len =>
    cases run
    exact other nofun (Packs.none (calm_ifReadstat len s).sent)
  | listen =>
    cases run
    refine other nofun ?_
    have request : Packs s (listenReq env s) := Packs.sendMessage env (fits_listenReq _ _ _ _ _ _) rfl
    unfold sendListen listenChangeState
    split
    · exact request
    · exact request.trans (Packs.none rfl)
  | trace version =>
    cases run
    refine other nofun ?_
    unfold enableDchannelTrace
    split
    · exact Packs.none rfl
    · have data : ∀ (old : Prop) [Decidable old], WellFormed (some (if old then [4, 128, 12, 0, 0] else [4, 2, 3, 0, 0])) ∧
          structLength (some (if old then [4, 128, 12, 0, 0] else [4, 2, 3, 0, 0])) ≤ 100 := by
        intro old _
        split
        · exact ⟨⟨5, rfl, by decide⟩, by decide⟩
        · exact ⟨⟨5, rfl, by decide⟩, by decide⟩
      exact Packs.sendMessage env (fits_manufacturerReq _ _ _ _ _ _ (data _).1 (data _).2) rfl

/-- What a step encodes fits exactly if a call that it refuses is small. -/
theorem encodings_iff (valid : Valid env s) {op : Op} (formed : op.WellFormed) (run : step env s op = some s') :
    (∀ cmsg, Encodes env s s' op cmsg → Fits cmsg) ↔ RefusesSmall env s op := by
  obtain ⟨news, sent, -⟩ := posts_step valid run
  rw [← step_packs_iff formed run, packs_iff ⟨news, sent⟩]
  constructor
  · exact fun fits e member => fits e.cmsg (.sent member)
  · intro fits cmsg encodes
    cases encodes with
    | sent member => exact fits _ member
    | data filled =>
      obtain ⟨chan, -, filled⟩ := Option.bind_eq_some_iff.mp filled
      obtain ⟨n, -, filled⟩ := Option.bind_eq_some_iff.mp filled
      obtain ⟨ncci, -, filled⟩ := Option.bind_eq_some_iff.mp filled
      cases filled
      exact fits_dataB3Req _ _ _ _ _ _ _

end Runs

/-- In every run, all that capidrv encodes fits the buffers exactly if the calls it refuses are small. -/
theorem encodings_fit_iff (env : Env) {ops : List Op} (formed : ∀ op ∈ ops, op.WellFormed) :
    Each (step env) (fun s op s' => ∀ cmsg, Encodes env s s' op cmsg → Fits cmsg) Card.init ops ↔
      Each (step env) (fun s op _ => RefusesSmall env s op) Card.init ops := by
  apply Each.congr
  apply each_of_inv (Valid env) ?_ (valid_init env) (Meets.of_mem formed Card.init)
  intro s op s' valid formed run
  exact ⟨encodings_iff valid formed run, valid_step valid run⟩

/-- isdn4linux finds no device for a call. -/
def Env.refusing : Env := { Env.granting with icall := fun _ => ([], 0) }

/-- A CONNECT_IND with two numbers without digits and an LLC of the given bytes. -/
def callInd (llc : Bytes) : Bytes :=
  controllerMsg CAPI_CONNECT_IND 0 [1, 1, 0, 0]
    ([0, 0, 1, 0x80, 2, 0, 0x80, 0, 0, 0] ++ (UInt8.ofNat llc.length :: llc) ++ [0, 0])

theorem callInd_formed {llc : Bytes} (few : llc.length ≤ 200) : Formed (callInd llc) := by
  have counted : (UInt8.ofNat llc.length).toNat = llc.length := by
    rw [UInt8.toNat_ofNat']
    omega
  have small : UInt8.ofNat llc.length ≠ 0xff := by
    intro full
    rw [full] at counted
    have last : (0xff : UInt8).toNat = 255 := rfl
    omega
  have params : ([0, 0, 1, 0x80, 2, 0, 0x80, 0, 0, 0] ++ (UInt8.ofNat llc.length :: llc) ++ [0, 0] : Bytes).length =
      13 + llc.length := by
    simp only [List.length_append, List.length_cons, List.length_nil]
    omega
  have size : (callInd llc).length = 25 + llc.length := by
    simp only [callInd, controllerMsg, List.length_append, List.length_cons, List.length_nil]
    omega
  refine ⟨by omega, ?_, ?_⟩
  · show (UInt8.ofNat (12 + _)).toNat + 256 * 0 = _
    rw [size, params, UInt8.toNat_ofNat']
    omega
  · refine ⟨0x02, 0x82, [0x03, 0x14, 0x0e, 0x10, 0x0f, 0x11, 0x0b, 0x28, 0x22, 0x04, 0x0c, 0x27, 0x2f, 0x1c, 0x01, 0x01],
      rfl, rfl, rfl, ?_⟩
    have empty : ∀ f, ItemValue (.par (.cstruct f)) [0] := fun f => .par (.short (by decide) rfl)
    have cip : ItemValue (.par (.word .cipValue)) [0, 0] := .par (.word 0 0)
    have address : ItemValue (.par (.dword .adr)) [1, 1, 0, 0] := .par (.dword 1 1 0 0)
    have compatibility : ItemValue (.par (.cstruct .llc)) (UInt8.ofNat llc.length :: llc) := .par (.short small counted.symm)
    have others : ItemValues [.par (.cstruct .hlc), .comp .additionalInfo additionalInfo] [0, 0] :=
      .cons (empty _) (.cons .default .nil)
    have front := ItemValues.cons (empty .bc) (.cons compatibility others)
    have called := ItemValues.cons (empty .calledPartySubaddress) (.cons (empty .callingPartySubaddress) front)
    have callingNumber : ItemValue (.par (.cstruct .callingPartyNumber)) [2, 0, 0x80] := .par (.short (by decide) rfl)
    have calledNumber : ItemValue (.par (.cstruct .calledPartyNumber)) [1, 0x80] := .par (.short (by decide) rfl)
    have numbers := ItemValues.cons calledNumber (.cons callingNumber called)
    have whole := ItemValues.cons address (.cons cip numbers)
    exact whole

/-- A call without an LLC is refused, and its response fits. -/
theorem encodings_fit_refused : (∀ op ∈ [Op.recv (callInd [])], op.WellFormed) ∧
    (∃ s, exec (step Env.refusing) Card.init [.recv (callInd [])] = some s) ∧
    Each (step Env.refusing) (fun s op s' => ∀ cmsg, Encodes Env.refusing s s' op cmsg → Fits cmsg) Card.init
      [.recv (callInd [])] := by
  have formed : ∀ op ∈ [Op.recv (callInd [])], op.WellFormed := by
    intro op member
    rw [List.mem_singleton.mp member]
    exact (callInd_formed (Nat.zero_le _)).sound
  refine ⟨formed, ⟨_, rfl⟩, (encodings_fit_iff Env.refusing formed).mpr fun s' _ => ⟨?_, trivial⟩⟩
  intro msg cmsg same decoded _
  cases same
  have info : (capiMessage2cmsg (callInd [])).map (fun cmsg =>
      (structLength (cmsg.cstruct .llc), cmsg.cmstruct .additionalInfo)) = some (1, .default) := rfl
  rw [decoded, Option.map_some, Option.some.injEq, Prod.mk.injEq] at info
  rw [SmallCall, info.1, info.2]
  exact Nat.le_of_ble_eq_true rfl

/-- The response to a call with an LLC of 200 bytes is written past the end of the buffer. -/
theorem refusal_overflows : (∀ op ∈ [Op.recv (callInd (List.replicate 200 0))], op.WellFormed) ∧
    ¬ Each (step Env.refusing) (fun s op s' => ∀ cmsg, Encodes Env.refusing s s' op cmsg → Fits cmsg) Card.init
      [.recv (callInd (List.replicate 200 0))] := by
  have formed : (Op.recv (callInd (List.replicate 200 0))).WellFormed :=
    (callInd_formed (Nat.le_of_eq List.length_replicate)).sound
  refine ⟨fun op member => ?_, fun each => ?_⟩
  · rw [List.mem_singleton.mp member]
    exact formed
  have defined : (step Env.refusing Card.init (.recv (callInd (List.replicate 200 0)))).isSome = true := by decide +kernel
  obtain ⟨s', run⟩ := Option.isSome_iff_exists.mp defined
  have small := (encodings_iff (valid_init Env.refusing) formed run).mp (each s' run).1
  obtain ⟨cmsg, decoded, -⟩ := formed
  have header : (capiMessage2cmsg (callInd (List.replicate 200 0))).map (fun cmsg =>
      (cmd cmsg, cmsg.adr, structLength (cmsg.cstruct .llc))) = some (CAPI_CONNECT_IND, 0x0101, 201) := by
    decide +kernel
  have numbers : ((capiMessage2cmsg (callInd (List.replicate 200 0))).map fun cmsg => decide (NumbersFit cmsg)) =
      some true := by decide +kernel
  rw [decoded, Option.map_some, Option.some.injEq] at header numbers
  have message : cmd cmsg = CAPI_CONNECT_IND := (Prod.mk.inj header).1
  obtain ⟨adr, length⟩ := Prod.mk.inj (Prod.mk.inj header).2
  have route : toPlci Env.refusing cmsg := by
    rw [toPlci, adr]
    decide
  have bound := small _ cmsg rfl decoded ⟨route, message, rfl, rfl, of_decide_eq_true numbers, by decide⟩
  unfold SmallCall at bound
  rw [length] at bound
  omega

end Capi4Linux.Capidrv
