import Capi4Linux.Capidrv.Valid

/-!
# Refused messages

The capicore may refuse a message for the moment. `if_sendbuf` reports that to
its caller; `send_message` does not look at the answer and keeps nothing, so a
control message is lost exactly when it is refused.
-/

namespace Capi4Linux.Capidrv
open Bytes Capicore Capiutil Machine

/-- A message of `send_message`: data is sent by `if_sendbuf`. -/
def control (e : Sent) : Bool := cmd e.cmsg ≠ CAPI_DATA_B3_REQ

namespace Card

/-- The messages that `send_message` was given. -/
def built (s : Card) : List Cmsg := (s.sent.filter control).map Sent.cmsg

/-- Those that the capicore took. -/
def accepted (s : Card) : List Cmsg := (s.sent.filter fun e => control e && e.info = .NOERR).map Sent.cmsg

/-- Those kept for another attempt: `send_message` has no place to keep one. -/
def held (_ : Card) : List Cmsg := []

/-- No control message is lost. -/
def Lossless (s : Card) : Prop := s.built = s.accepted ++ s.held

end Card

/-- The capicore takes every control message of the step. -/
def Admits (env : Env) (s : Card) (op : Op) : Prop :=
  ∀ s', step env s op = some s' → ∀ (k : Nat) e, s.sent.length ≤ k → s'.sent[k]? = some e → control e = true →
    env.put k = .NOERR

section Refusals

variable {env : Env} {s s' : Card} {cmsg : Cmsg}

/-- Nothing is lost when every control message sent was taken. -/
theorem Card.lossless_iff (s : Card) :
    s.Lossless ↔ ∀ (k : Nat) e, s.sent[k]? = some e → control e = true → e.info = .NOERR := by
  have split : (s.sent.filter fun e => control e && e.info = .NOERR) =
      (s.sent.filter control).filter fun e => e.info = .NOERR := by
    rw [List.filter_filter]
    exact List.filter_congr fun e _ => Bool.and_comm _ _
  constructor
  · intro lossless k e found isControl
    have lengths := congrArg List.length lossless
    simp only [Card.built, Card.accepted, Card.held, List.append_nil, List.length_map, split] at lengths
    have all := List.length_filter_eq_length_iff.mp lengths.symm
    have member := List.mem_filter.mpr ⟨List.mem_of_getElem? found, isControl⟩
    exact of_decide_eq_true (all e member)
  · intro fine
    have all : ∀ e ∈ s.sent.filter control, decide (e.info = .NOERR) = true := by
      intro e member
      obtain ⟨sent, isControl⟩ := List.mem_filter.mp member
      obtain ⟨k, found⟩ := List.mem_iff_getElem?.mp sent
      exact decide_eq_true (fine k e found isControl)
    unfold Card.Lossless Card.built Card.accepted Card.held
    rw [split, List.filter_eq_self.mpr all, List.append_nil]

/-! ## What a step sends -/

theorem posts_effect {command : Command} (effect : Effect env s command s') : Posts env s s' := by
  cases effect with
  | calm _ silent => exact silent.posts
  | dial => exact Posts.one rfl rfl
  | acceptd => exact Posts.one rfl rfl
  | hangupNcci => exact Posts.one rfl rfl
  | hangupIncoming => exact Posts.of_eq env rfl
  | hangupPlci => exact Posts.one rfl rfl

/-- So is what a list of commands sends. -/
theorem posts_commands (wired : Wired env.nbchan s.links) {commands : List Command}
    (run : commands.foldlM (fun s command => (capidrvCommand env s command).map Prod.fst) s = some s') :
    Posts env s s' := by
  apply commands_rel ?_ ?_ ?_ wired run
  · intro s
    exact Posts.of_eq env rfl
  · intro s t u first second
    exact first.trans second
  · intro s command s' _ effect
    exact posts_effect effect

/-- Messages that are answered one after the other. -/
theorem Posts.two {e e' : Sent} (sent : s'.sent = s.sent ++ [e] ++ [e']) (info : e.info = env.put s.sent.length)
    (info' : e'.info = env.put (s.sent ++ [e]).length) : Posts env s s' := by
  have first : Posts env s { s with sent := s.sent ++ [e] } := Posts.one rfl info
  exact first.trans (Posts.one sent info')

/-- What a message makes the driver send is posted. -/
theorem posts_reaction (valid : Valid env s) (reaction : Reaction env s cmsg s') : Posts env s s' := by
  cases reaction with
  | calm _ silent => exact silent.posts
  | disconnectInd | connectActive | connectB3Active | connectB3Ind | disconnectB3Early | resetB3Ind =>
    exact Posts.one rfl rfl
  | disconnectConf | connected | connectFailed | renumbered | unannounced | connectedB3 | renumberedB3
  | disconnectB3Conf =>
    exact Posts.of_eq env rfl
  | requestB3 | disconnectB3Ind => exact Posts.two rfl rfl rfl
  | connectB3Failed => exact Posts.one rfl rfl
  | @incomingCall chan s₁ _ route message found mem fit commands result =>
    have offered := offered_valid valid found cmsg
    have told : Posts env s (s.offered cmsg chan) := Posts.of_eq env rfl
    have issued := posts_commands offered.wired commands
    obtain ⟨-, plci, live, listed⟩ := incoming_live valid.wired found commands
    have ended : Posts env s₁ s' := by
      cases verdict_of_result live listed result with
      | rejected => exact Posts.one rfl rfl
      | alerted => exact Posts.one rfl rfl
      | kept => exact Posts.of_eq env rfl
    exact (told.trans issued).trans ended

theorem posts_step (valid : Valid env s) {op : Op} (run : step env s op = some s') : Posts env s s' := by
  cases transition valid run with
  | calm _ silent => exact silent.posts
  | command effect => exact posts_effect effect
  | data _ _ _ _ sends =>
    obtain ⟨e, sent, -, -, info⟩ := sends.sent
    exact Posts.one sent info
  | recv decoded reaction =>
    have posts := posts_reaction valid reaction
    unfold confirm
    split
    · exact posts.trans (Posts.of_eq env rfl)
    · exact posts

/-- Every message has the answer that the capicore gives at its place. -/
def Answered (env : Env) (s : Card) : Prop := ∀ (k : Nat) e, s.sent[k]? = some e → e.info = env.put k

/-- What is posted has the capicore's answer. -/
theorem Answered.posts (answered : Answered env s) (posts : Posts env s s') : Answered env s' := by
  obtain ⟨news, sent, answers⟩ := posts
  intro k e found
  rw [sent] at found
  rcases Nat.lt_or_ge k s.sent.length with early | late
  · rw [List.getElem?_append_left early] at found
    exact answered k e found
  · rw [List.getElem?_append_right late] at found
    rw [answers _ e found]
    congr 1
    omega

/-- A step whose control messages are taken loses nothing. -/
theorem lossless_step (lossless : s.Lossless) (posts : Posts env s s') (answered : Answered env s') {op : Op}
    (admits : Admits env s op) (run : step env s op = some s') : s'.Lossless := by
  have before := s.lossless_iff.mp lossless
  apply s'.lossless_iff.mpr
  intro k e found isControl
  rcases Nat.lt_or_ge k s.sent.length with early | late
  · obtain ⟨news, sent, -⟩ := posts
    rw [sent, List.getElem?_append_left early] at found
    exact before k e found isControl
  · rw [answered k e found]
    exact admits s' run k e late found isControl

/-- At every moment of a run the control messages built so far are those the capicore took, exactly when it takes
every control message of every step. -/
theorem control_lossless_iff (env : Env) (ops : List Op) :
    Always (step env) Card.Lossless Card.init ops ↔ Meets (step env) (Admits env) Card.init ops := by
  have free := Meets.unconditional (step env) Card.init ops
  have start : Answered env Card.init := nofun
  apply always_iff_meets (fun s => Valid env s ∧ Answered env s ∧ s.Lossless) (fun s inv => inv.2.2) ?_ ?_
    ⟨valid_init env, start, rfl⟩ free
  · intro s op s' ⟨valid, answered, lossless⟩ _ admits run
    have posts := posts_step valid run
    have answered' := answered.posts posts
    exact ⟨valid_step valid run, answered', lossless_step lossless posts answered' admits run⟩
  · intro s op ⟨valid, answered, _⟩ _ refuses
    simp only [Admits, not_forall] at refuses
    obtain ⟨s', run, k, e, -, found, isControl, refused⟩ := refuses
    refine ⟨s', run, fun lossless => refused ?_⟩
    rw [← answered.posts (posts_step valid run) k e found]
    exact s'.lossless_iff.mp lossless k e found isControl

/-- A card whose messages are all refused for the moment. -/
def Env.congested : Env := { Env.granting with put := fun _ => .QUEUEFULL }

/-- The CONNECT_REQ of a dial is lost when the queue is full. -/
theorem connect_request_lost :
    ¬ Always (step Env.congested) Card.Lossless Card.init [.command (.DIAL 0 .empty .empty 1 0)] := by
  intro always
  obtain ⟨s', run⟩ : ∃ s', exec (step Env.congested) Card.init [.command (.DIAL 0 .empty .empty 1 0)] = some s' :=
    ⟨_, rfl⟩
  have lengths : (exec (step Env.congested) Card.init [.command (.DIAL 0 .empty .empty 1 0)]).map
      (fun s => (s.built.length, s.accepted.length)) = some (1, 0) := rfl
  rw [run] at lengths
  simp only [Option.map_some, Option.some.injEq, Prod.mk.injEq] at lengths
  have same := congrArg List.length (always.last run)
  simp only [Card.held, List.append_nil] at same
  omega

end Refusals

end Capi4Linux.Capidrv
