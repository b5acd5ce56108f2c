import Capi4Linux.Capidrv.Valid

/-!
# Commands on a channel without a call

isdn4linux issues commands at any time, and while it is told about an incoming
call. Every pointer of a channel leads to a record, and a command checks the
pointer before it follows it, except the one that accepts a call.
-/

namespace Capi4Linux.Capidrv
open Bytes Capicore Capiutil Machine

/-- The channel has a call or a connection only if there is a record of it. -/
structure Leads (s : Card) (chan : Nat) : Prop where
  plcip : ∀ p, (s.bchans chan).plcip = some p → ∃ plci, s.plcis p = some plci
  nccip : ∀ n, (s.bchans chan).nccip = some n → ∃ ncci, s.nccis n = some ncci

/-- The channel has neither a call nor a connection. -/
def Bare (s : Card) (chan : Nat) : Prop := (s.bchans chan).plcip = none ∧ (s.bchans chan).nccip = none

/-- The command follows no pointer to a missing record; it has a result unless the number that it dials has no end.
One to accept or to hang up a call that is not there leaves the card as it is and is refused, or the call is being hung
up already. -/
structure Harmless (env : Env) (s : Card) (command : Command) : Prop where
  defined : (∃ r, capidrvCommand env s command = some r) ∨ Hangs env s command
  leads : ∀ chan, Leads s chan
  acceptd : ∀ arg, command = .ACCEPTD arg → Bare s (arg % env.nbchan) →
    ∃ res, capidrvCommand env s command = some (s, res) ∧ res < 0
  hangup : ∀ arg, command = .HANGUP arg → Bare s (arg % env.nbchan) →
    ∃ res, capidrvCommand env s command = some (s, res) ∧
      (res < 0 ∨ (s.bchans (arg % env.nbchan)).disconnecting = true ∧ res = 0)

/-- A command to accept a call is for a channel that has one. -/
def HasCall (env : Env) (s : Card) (command : Command) : Prop :=
  ∀ arg, command = .ACCEPTD arg → (s.bchans (arg % env.nbchan)).plcip ≠ none

/-- The card after a command. -/
def issue (env : Env) (s : Card) (command : Command) : Option Card := (capidrvCommand env s command).map Prod.fst

/-- `P` holds of every command that is issued in the step, with the card it is issued to: of the step's own, and of
those that isdn4linux issues in turn while it is told about an incoming call. -/
def Issues (env : Env) (P : Card → Command → Prop) (s : Card) : Op → Prop
  | .command command => P s command
  | .recv msg => ∀ cmsg, capiMessage2cmsg msg = some cmsg → toPlci env cmsg → cmd cmsg = CAPI_CONNECT_IND →
      ∀ chan, (∃ s₀, newBchan env s = some (s₀, chan)) → env.kmalloc s.tick = true → NumbersFit cmsg →
        Meets (issue env) P (s.offered cmsg chan) (env.icall (s.tick + 1)).1
  | _ => True

section Commands

variable {env : Env} {s s' : Card} {chan arg p : Nat}

theorem exec_issue (env : Env) (s : Card) (commands : List Command) : exec (issue env) s commands =
    commands.foldlM (fun s command => (capidrvCommand env s command).map Prod.fst) s := by
  induction commands generalizing s with
  | nil => rfl
  | cons command commands ih =>
    rw [List.foldlM_cons]
    apply Option.bind_congr
    intro s₁ _
    exact ih s₁

/-- The commands of an incoming call are issued to the card on which it is offered. -/
theorem handleIncomingCall_issues {cmsg : Cmsg} {s₀ : Card} (found : newBchan env s = some (s₀, chan))
    (mem : env.kmalloc s.tick = true) (fit : NumbersFit cmsg) : handleIncomingCall env s cmsg =
      (exec (issue env) (s.offered cmsg chan) (env.icall (s.tick + 1)).1).bind fun s₁ =>
        incomingResult env s₁ cmsg s.plciNext (env.icall (s.tick + 1)).2 := by
  rw [handleIncomingCall_eq env found mem fit, exec_issue]
  exact Option.bind_assoc _ _ _

theorem Valid.leads (valid : Valid env s) (chan : Nat) : Leads s chan := by
  constructor
  · intro p call
    obtain ⟨ns, link⟩ := valid.wired.owner chan p call
    obtain ⟨plci, live, -⟩ := plcis_of_links link
    exact ⟨plci, live⟩
  · intro n conn
    obtain ⟨p, link⟩ := valid.wired.nccip chan n conn
    obtain ⟨ncci, live, -⟩ := nccis_of_links link
    exact ⟨ncci, live⟩

theorem issue_valid (valid : Valid env s) {command : Command} (done : issue env s command = some s') :
    Valid env s' := by
  obtain ⟨⟨s₁, res⟩, ran, rfl⟩ := Option.map_eq_some_iff.mp done
  exact valid.effect (Effect.of_run valid.wired ran)

/-- The pointer to the call is followed unchecked. -/
theorem commandAcceptd_none (channels : 0 < env.nbchan) (free : (s.bchans (arg % env.nbchan)).plcip = none) :
    commandAcceptd env s arg = none := by
  unfold commandAcceptd
  simp only [channel_eq channels, free, Option.bind_eq_bind, Option.bind_some, Option.bind_none]

theorem commandHangup_bare (channels : 0 < env.nbchan) (bare : Bare s (arg % env.nbchan)) :
    ∃ res, commandHangup env s arg = some (s, res) ∧
      (res < 0 ∨ (s.bchans (arg % env.nbchan)).disconnecting = true ∧ res = 0) := by
  have at_channel := channel_eq channels arg
  obtain ⟨free, noconn⟩ := bare
  cases flagged : (s.bchans (arg % env.nbchan)).disconnecting with
  | true => exact ⟨0, commandHangup_flagged env at_channel flagged, .inr ⟨rfl, rfl⟩⟩
  | false =>
    refine ⟨- EINVAL, ?_, .inl (by decide)⟩
    unfold commandHangup
    simp only [at_channel, noconn, free, flagged, Option.bind_eq_bind, Option.bind_some]
    rfl

/-- On a valid card only the command that accepts a call can do harm. -/
theorem harmless_iff (channels : 0 < env.nbchan) (valid : Valid env s) (command : Command) :
    Harmless env s command ↔ HasCall env s command := by
  constructor
  · intro harmless arg same free
    subst same
    rcases harmless.defined with ⟨r, ran⟩ | hangs
    · have stuck : capidrvCommand env s (.ACCEPTD arg) = none := commandAcceptd_none channels free
      rw [stuck] at ran
      cases ran
    · cases hangs
  · intro hasCall
    constructor
    · cases command with
      | ACCEPTD arg =>
        obtain ⟨p, call⟩ := Option.ne_none_iff_exists'.mp (hasCall arg rfl)
        obtain ⟨plci, live⟩ := (valid.leads _).plcip p call
        have listed := valid.wired.listedPlci live
        obtain ⟨cmsg, -, eq⟩ := commandAcceptd_eq env (channel_eq channels arg) call live listed
        exact .inl ⟨_, eq⟩
      | _ =>
        rw [or_iff_not_imp_right]
        exact command_defined valid channels (fun _ => nofun)
    · exact valid.leads
    · intro arg same bare
      exact absurd bare.1 (hasCall arg same)
    · intro arg same bare
      subst same
      exact commandHangup_bare channels bare

/-- The commands that isdn4linux issues in turn. -/
theorem issued_harmless_iff (channels : 0 < env.nbchan) (valid : Valid env s) (commands : List Command) :
    Meets (issue env) (Harmless env) s commands ↔ Meets (issue env) (HasCall env) s commands := by
  apply meets_iff_meets (Valid env) ?_ ?_ valid (Meets.unconditional _ s commands)
  · intro s command valid _
    exact harmless_iff channels valid command
  · intro s command s' valid _ _ done
    exact issue_valid valid done

theorem issues_harmless_iff (channels : 0 < env.nbchan) (valid : Valid env s) (op : Op) :
    Issues env (Harmless env) s op ↔ Issues env (HasCall env) s op := by
  cases op with
  | command command => exact harmless_iff channels valid command
  | recv msg =>
    have same : ∀ cmsg chan, (∃ s₀, newBchan env s = some (s₀, chan)) →
        (Meets (issue env) (Harmless env) (s.offered cmsg chan) (env.icall (s.tick + 1)).1 ↔
          Meets (issue env) (HasCall env) (s.offered cmsg chan) (env.icall (s.tick + 1)).1) := by
      intro cmsg chan found
      exact issued_harmless_iff channels (offered_valid valid found cmsg) _
    constructor
    · intro harmless cmsg decoded route message chan found mem fit
      exact (same cmsg chan found).mp (harmless cmsg decoded route message chan found mem fit)
    · intro hasCall cmsg decoded route message chan found mem fit
      exact (same cmsg chan found).mpr (hasCall cmsg decoded route message chan found mem fit)
  | _ => exact Iff.rfl

end Commands

/-- The commands of a run do no harm exactly when none accepts a call on a channel that has none. -/
theorem commands_harmless_iff (env : Env) (channels : 0 < env.nbchan) (ops : List Op) :
    Meets (step env) (Issues env (Harmless env)) Card.init ops ↔
      Meets (step env) (Issues env (HasCall env)) Card.init ops := by
  apply meets_iff_meets (Valid env) ?_ ?_ (valid_init env) (Meets.unconditional _ _ ops)
  · intro s op valid _
    exact issues_harmless_iff channels valid op
  · intro s op s' valid _ _ run
    exact valid_step valid run

/-- A call is hung up on a free channel: the command is refused. -/
theorem commands_harmless_hangup : Meets (step Env.granting) (Issues Env.granting (Harmless Env.granting)) Card.init
    [.command (.HANGUP 0), .command (.SETL2 1), .command (.HANGUP 3)] := by
  apply (commands_harmless_iff Env.granting (by decide) _).mpr
  have other : ∀ op ∈ [Op.command (.HANGUP 0), .command (.SETL2 1), .command (.HANGUP 3)],
      ∀ s, Issues Env.granting (HasCall Env.granting) s op := by
    intro op member s
    simp only [List.mem_cons, List.not_mem_nil, or_false] at member
    rcases member with rfl | rfl | rfl
    all_goals exact fun _ => nofun
  refine ⟨other _ (by simp) _, fun s₁ _ => ⟨other _ (by simp) _, fun s₂ _ => ⟨other _ (by simp) _, fun _ _ => trivial⟩⟩⟩

/-- On a card without calls, a command to accept one follows the null pointer of its channel. -/
theorem acceptd_harmful : ¬ Meets (step Env.granting) (Issues Env.granting (Harmless Env.granting)) Card.init
    [.command (.ACCEPTD 0)] := by
  intro harmless
  rcases harmless.1.defined with ⟨r, ran⟩ | hangs
  · cases ran
  · cases hangs

end Capi4Linux.Capidrv
