import Capi4Linux.Capidrv.Outcomes

/-!
# Listening

`send_listen` hands a LISTEN_REQ to the controller and records it afterwards.
The timer may send again before the confirmation, and the tasklet may receive
the confirmation before the request is recorded: a run is any order of these
steps.
-/

namespace Capi4Linux.Capidrv
open Bytes Capicore Capiutil Machine

/-! ## Requests and confirmations -/

/-- The card, how many calls of `send_listen` have their request still to record, the numbers of the requests that are
not confirmed, oldest first, and whether a request was granted. -/
structure Listening where
  card : Card
  recording : Nat
  unanswered : List UInt16
  granted : Bool

inductive ListenOp where
  | request
  | record
  | confirmed (msg : Bytes)

/-- The controller confirms the request with the number. -/
def confirmsListen (env : Env) (cmsg : Cmsg) (number : UInt16) : Prop :=
  cmd cmsg = CAPI_LISTEN_CONF ∧ cmsg.adr &&& 0x7f = env.contrnr ∧ cmsg.adr &&& 0xffffff00 = 0 ∧
    cmsg.messagenumber = number

instance (env : Env) (cmsg : Cmsg) (number : UInt16) : Decidable (confirmsListen env cmsg number) :=
  inferInstanceAs (Decidable (_ ∧ _ ∧ _ ∧ _))

/-- The request is granted. -/
def grants (s : Card) (cmsg : Cmsg) : Bool := cmsg.word .info = 0 && s.cipmask ≠ 0

namespace Listening

/-- The card that starts up. -/
def init : Listening := ⟨Card.init, 0, [], false⟩

/-- No request is under way. -/
def Quiet (l : Listening) : Prop := l.recording = 0 ∧ l.unanswered = []

/-- A card without requests under way listens or does not, and does if a request was granted. -/
def Settled (l : Listening) : Prop :=
  l.Quiet → (l.card.state = .NONE ∨ l.card.state = .ACTIVE) ∧ (l.granted = true → l.card.state = .ACTIVE)

end Listening

/-- The first half of `send_listen`: a request is handed to the controller. -/
def listenRequest (env : Env) (l : Listening) : Option Listening :=
  if env.put l.card.sent.length = .NOERR then
    some { l with
      card := listenReq env l.card
      recording := l.recording + 1
      unanswered := l.unanswered ++ [l.card.msgid] }
  else none

/-- The second half of `send_listen`. -/
def listenRecord (l : Listening) : Option Listening :=
  if l.recording = 0 then none
  else some { l with card := listenChangeState l.card .REQ, recording := l.recording - 1 }

/-- The confirmation of the oldest request is received. -/
def listenReceive (env : Env) (l : Listening) (msg : Bytes) : Option Listening :=
  match capiMessage2cmsg msg, l.unanswered with
  | some cmsg, number :: unanswered =>
    if confirmsListen env cmsg number then
      (capidrvRecvMessage env l.card msg).map fun card =>
        { l with card, unanswered, granted := l.granted || grants l.card cmsg }
    else none
  | _, _ => none

def listenStep (env : Env) (l : Listening) : ListenOp → Option Listening
  | .request => listenRequest env l
  | .record => listenRecord l
  | .confirmed msg => listenReceive env l msg

/-- A confirmation comes after its request was recorded, and one that grants finds the card waiting or listening. -/
def Timely (l : Listening) : ListenOp → Prop
  | .confirmed msg => l.recording < l.unanswered.length ∧
      ∀ cmsg, capiMessage2cmsg msg = some cmsg → grants l.card cmsg = true → l.card.state ≠ .NONE
  | _ => True

/-! ## The states of the card -/

/-- The state after an event. -/
def ListenState.after (state : ListenState) (event : ListenEvent) : ListenState :=
  ((listentable.find? fun p => p.actstate = state ∧ p.event = event).map ListenStateChange.nextstate).getD state

/-- The event of a confirmation. -/
def confirmation (s : Card) (cmsg : Cmsg) : ListenEvent :=
  if cmsg.word .info ≠ 0 then .CONF_ERROR else if s.cipmask = 0 then .CONF_EMPTY else .CONF_OK

/-- The listen state machine changes the state only. -/
theorem listenChangeState_eq (s : Card) (event : ListenEvent) :
    listenChangeState s event = { s with state := s.state.after event } := by
  unfold listenChangeState ListenState.after
  cases listentable.find? fun p => p.actstate = s.state ∧ p.event = event with
  | none => rfl
  | some p => rfl

theorem listenConf_eq (s : Card) (cmsg : Cmsg) :
    listenConf s cmsg = { s with state := s.state.after (confirmation s cmsg) } := by
  unfold listenConf confirmation
  split
  · exact listenChangeState_eq s .CONF_ERROR
  split
  · exact listenChangeState_eq s .CONF_EMPTY
  · exact listenChangeState_eq s .CONF_OK

theorem confirmation_of_grants {s : Card} {cmsg : Cmsg} (granted : grants s cmsg = true) :
    confirmation s cmsg = .CONF_OK := by
  obtain ⟨fine, mask⟩ := Bool.and_eq_true_iff.mp granted
  unfold confirmation
  rw [if_neg (not_not.mpr (of_decide_eq_true fine)), if_neg (of_decide_eq_true mask)]

/-- What is received changes only the listen state. -/
theorem recv_listenConf {env : Env} {s : Card} {msg : Bytes} {cmsg : Cmsg} {number : UInt16}
    (decoded : capiMessage2cmsg msg = some cmsg) (confirms : confirmsListen env cmsg number) :
    ∃ s', capidrvRecvMessage env s msg = some s' ∧ s'.state = s.state.after (confirmation s cmsg) ∧
      s'.cipmask = s.cipmask := by
  obtain ⟨message, mine, controller, -⟩ := confirms
  have handled : handleMessage env s cmsg (payload msg) = some (listenConf s cmsg) := by
    have other : CAPI_LISTEN_CONF ≠ CAPI_DATA_B3_IND := by decide
    unfold handleMessage handleController
    rw [if_neg (not_not.mpr mine), message, if_neg other, if_pos controller, if_pos rfl]
  refine ⟨confirm env (listenConf s cmsg) cmsg, recv_eq decoded handled, ?_⟩
  rw [listenConf_eq]
  unfold confirm
  split
  · exact ⟨rfl, rfl⟩
  · exact ⟨rfl, rfl⟩

/-- `send_listen` without a confirmation between its halves. -/
theorem listenRecord_listenRequest {env : Env} {l : Listening} (accepted : env.put l.card.sent.length = .NOERR) :
    (listenRequest env l).bind listenRecord =
      some { l with card := sendListen env l.card, unanswered := l.unanswered ++ [l.card.msgid] } := by
  unfold listenRequest
  rw [if_pos accepted, Option.bind_some]
  unfold listenRecord
  rw [if_neg (Nat.succ_ne_zero _)]
  rfl

/-! ## Runs -/

/-- The card waits only while a recorded request is not confirmed, and does not forget a request that was granted. -/
structure Heard (l : Listening) : Prop where
  recording : l.recording ≤ l.unanswered.length
  waiting : l.card.state = .WAIT_CONF ∨ l.card.state = .ACTIVE_WAIT_CONF → l.recording < l.unanswered.length
  granted : l.granted = true → l.card.cipmask ≠ 0 ∧ (l.card.state = .ACTIVE ∨ l.card.state = .ACTIVE_WAIT_CONF)

section Runs

variable {env : Env} {l l' : Listening}

theorem heard_init : Heard Listening.init := ⟨Nat.le_refl _, nofun, nofun⟩

/-- With nothing outstanding the card is settled. -/
theorem Heard.settled (heard : Heard l) : l.Settled := by
  intro ⟨recorded, answered⟩
  have idle : ¬ (l.card.state = .WAIT_CONF ∨ l.card.state = .ACTIVE_WAIT_CONF) := by
    intro waiting
    have open_request := heard.waiting waiting
    rw [answered] at open_request
    exact Nat.not_lt_zero _ open_request
  constructor
  · cases state : l.card.state with
    | NONE => exact .inl rfl
    | ACTIVE => exact .inr rfl
    | WAIT_CONF => exact absurd (.inl state) idle
    | ACTIVE_WAIT_CONF => exact absurd (.inr state) idle
  · intro granted
    exact (heard.granted granted).2.resolve_right fun waiting => idle (.inr waiting)

/-- A request is one more that is not answered. -/
theorem heard_request (heard : Heard l) (run : listenRequest env l = some l') : Heard l' := by
  unfold listenRequest at run
  split at run
  · cases run
    constructor
    · show l.recording + 1 ≤ (l.unanswered ++ [l.card.msgid]).length
      have before := heard.recording
      rw [List.length_append, List.length_singleton]
      omega
    · intro waiting
      show l.recording + 1 < (l.unanswered ++ [l.card.msgid]).length
      have before := heard.waiting waiting
      rw [List.length_append, List.length_singleton]
      omega
    · exact heard.granted
  · cases run

/-- Its state is recorded before it is answered. -/
theorem heard_record (heard : Heard l) (run : listenRecord l = some l') : Heard l' := by
  unfold listenRecord at run
  split at run
  · cases run
  rename_i recording
  cases run
  have before := heard.recording
  constructor
  · show l.recording - 1 ≤ l.unanswered.length
    omega
  · intro _
    show l.recording - 1 < l.unanswered.length
    omega
  · intro granted
    obtain ⟨mask, state⟩ := heard.granted granted
    rw [listenChangeState_eq]
    refine ⟨mask, .inr ?_⟩
    rcases state with state | state
    · rw [state]
      rfl
    · rw [state]
      rfl

/-- After a confirmation the card does not wait. -/
theorem after_confirmation (state : ListenState) (s : Card) (cmsg : Cmsg) :
    state.after (confirmation s cmsg) = .NONE ∨ state.after (confirmation s cmsg) = .ACTIVE := by
  have table : ∀ state event, event ≠ ListenEvent.REQ →
      ListenState.after state event = .NONE ∨ ListenState.after state event = .ACTIVE := by
    intro state event other
    cases event with
    | REQ => exact absurd rfl other
    | CONF_ERROR | CONF_EMPTY | CONF_OK => cases state <;> decide
  apply table
  unfold confirmation
  split
  · decide
  split
  · decide
  · decide

/-- A request that was granted is not forgotten. -/
theorem after_granted {state : ListenState} {event : ListenEvent} (listens : state = .ACTIVE ∨ state = .ACTIVE_WAIT_CONF)
    (other : event = .CONF_ERROR ∨ event = .CONF_OK) : state.after event = .ACTIVE := by
  rcases listens with rfl | rfl
  · rcases other with rfl | rfl
    · decide
    · decide
  · rcases other with rfl | rfl
    · decide
    · decide

/-- With a CIP mask a LISTEN_CONF is one of two events. -/
theorem confirmation_of_mask {s : Card} (mask : s.cipmask ≠ 0) (cmsg : Cmsg) :
    confirmation s cmsg = .CONF_ERROR ∨ confirmation s cmsg = .CONF_OK := by
  unfold confirmation
  rw [if_neg mask]
  split
  · exact .inl rfl
  · exact .inr rfl

theorem after_ok {state : ListenState} (known : state ≠ .NONE) : state.after .CONF_OK = .ACTIVE := by
  cases state with
  | NONE => exact absurd rfl known
  | WAIT_CONF | ACTIVE | ACTIVE_WAIT_CONF => decide

/-- A timely confirmation answers a request that is recorded. -/
theorem heard_confirmed (heard : Heard l) {msg : Bytes} (timely : Timely l (.confirmed msg))
    (run : listenReceive env l msg = some l') : Heard l' := by
  unfold listenReceive at run
  split at run
  · rename_i cmsg number unanswered decoded oldest
    split at run
    · rename_i confirms
      obtain ⟨card, received, state, mask⟩ := @recv_listenConf env l.card msg cmsg number decoded confirms
      rw [received] at run
      cases run
      have idle := after_confirmation l.card.state l.card cmsg
      have recorded := timely.1
      rw [oldest, List.length_cons] at recorded
      constructor
      · exact Nat.lt_succ_iff.mp recorded
      · intro waiting
        rw [← state] at idle
        rcases waiting with waiting | waiting
        · rw [waiting] at idle
          exact absurd idle (by decide)
        · rw [waiting] at idle
          exact absurd idle (by decide)
      · intro granted
        rw [state, mask]
        rcases Bool.or_eq_true_iff.mp granted with before | now
        · obtain ⟨masked, listens⟩ := heard.granted before
          exact ⟨masked, .inl (after_granted listens (confirmation_of_mask masked cmsg))⟩
        · have masked := of_decide_eq_true (Bool.and_eq_true_iff.mp now).2
          rw [confirmation_of_grants now]
          exact ⟨masked, .inl (after_ok (timely.2 cmsg decoded now))⟩
    · cases run
  · cases run

/-- In every order of requests and confirmations in which each confirmation comes after its request was recorded, and
one that grants finds the card waiting or listening, the card listens afterwards if a request was granted. -/
theorem listen_confirmed (env : Env) (ops : List ListenOp)
    (timely : Meets (listenStep env) Timely Listening.init ops) :
    Always (listenStep env) Listening.Settled Listening.init ops := by
  have keep : ∀ l op l', Heard l → Timely l op → listenStep env l op = some l' → Heard l' := by
    intro l op l' heard timely run
    cases op with
    | request => exact heard_request heard run
    | record => exact heard_record heard run
    | confirmed msg => exact heard_confirmed heard timely run
  have heard := always_of_inv keep heard_init timely
  exact heard.mono fun l heard => heard.settled

end Runs

/-- The confirmation of the first request. -/
def listenConfirmed : Bytes := controllerMsg CAPI_LISTEN_CONF 0 [1, 0, 0, 0] [0, 0]

theorem listen_confirmed_recorded : Always (listenStep Env.granting) Listening.Settled Listening.init
    [.request, .record, .confirmed listenConfirmed] := by
  apply listen_confirmed
  refine ⟨trivial, fun l requested => ⟨trivial, fun l' recorded => ⟨?_, fun _ _ => trivial⟩⟩⟩
  cases requested
  cases recorded
  constructor
  · exact Nat.zero_lt_one
  · intro cmsg _ _ idle
    cases idle

/-- The confirmation is received before the request is recorded, and the card waits for ever. -/
theorem confirmation_missed : ¬ Always (listenStep Env.granting) Listening.Settled Listening.init
    [.request, .confirmed listenConfirmed, .record] := by
  intro always
  obtain ⟨l, run⟩ : ∃ l, exec (listenStep Env.granting) Listening.init
      [.request, .confirmed listenConfirmed, .record] = some l := ⟨_, rfl⟩
  have reached : (exec (listenStep Env.granting) Listening.init
      [.request, .confirmed listenConfirmed, .record]).map (fun l => (l.recording, l.unanswered, l.card.state)) =
        some (0, [], .WAIT_CONF) := rfl
  rw [run, Option.map_some, Option.some.injEq] at reached
  simp only [Prod.mk.injEq] at reached
  obtain ⟨recording, unanswered, state⟩ := reached
  obtain ⟨idle, -⟩ := always.last run ⟨recording, unanswered⟩
  rw [state] at idle
  exact absurd idle (by decide)

end Capi4Linux.Capidrv
