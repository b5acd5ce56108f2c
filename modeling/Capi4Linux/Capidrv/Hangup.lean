import Capi4Linux.Capidrv.Valid

/-!
# The hang-up flag

`disconnecting` is set when a channel is hung up or disconnected and makes
`ISDN_CMD_HANGUP` do nothing. It should be set only while the call of the
channel or its connection is being released.
-/

namespace Capi4Linux.Capidrv
open Bytes Capicore Capiutil Machine

/-! ## Views of a channel -/

def PlciState.Ending (state : PlciState) : Prop := state = .DISCONNECTING ∨ state = .DISCONNECTED

def NcciState.Ending (state : NcciState) : Prop := state = .DISCONNECTING ∨ state = .DISCONNECTED

instance : DecidablePred PlciState.Ending := fun _ => inferInstanceAs (Decidable (_ ∨ _))

instance : DecidablePred NcciState.Ending := fun _ => inferInstanceAs (Decidable (_ ∨ _))

/-- The flag of a channel and the states of its call and its connection. -/
structure View where
  flag : Bool
  call : Option PlciState
  conn : Option NcciState

def Card.view (s : Card) (c : Nat) : View where
  flag := (s.bchans c).disconnecting
  call := (s.bchans c).plcip.bind fun p => (s.plcis p).map Plci.state
  conn := (s.bchans c).nccip.bind fun n => (s.nccis n).map Ncci.state

/-- A flagged channel has no call, or the call or its connection is being released. -/
def View.Truthful (v : View) : Prop :=
  v.flag = true → (∀ state, v.call = some state → state.Ending) ∨ ∃ state, v.conn = some state ∧ state.Ending

/-- If a channel with a call is flagged, the release of the call or of its connection is in progress. -/
def Truthful (s : Card) : Prop :=
  ∀ c p plci, (s.bchans c).disconnecting = true → (s.bchans c).plcip = some p → s.plcis p = some plci →
    plci.state.Ending ∨ ∃ n ncci, (s.bchans c).nccip = some n ∧ s.nccis n = some ncci ∧ ncci.state.Ending

section Views

variable {s s' : Card} {c chan p n : Nat} {plci : Plci} {ncci : Ncci}

/-- The channel's view shows the state of the call it points to. -/
theorem view_call (owner : (s.bchans c).plcip = some p) (live : s.plcis p = some plci) :
    (s.view c).call = some plci.state := by
  simp only [Card.view, owner, live, Option.bind_some, Option.map_some]

/-- The channel's view shows the state of the connection it points to. -/
theorem view_conn (pointer : (s.bchans c).nccip = some n) (live : s.nccis n = some ncci) :
    (s.view c).conn = some ncci.state := by
  simp only [Card.view, pointer, live, Option.bind_some, Option.map_some]

/-- A card is truthful when every channel's view is. -/
theorem truthful_iff : Truthful s ↔ ∀ c, (s.view c).Truthful := by
  constructor
  · intro truthful c flag
    cases owner : (s.bchans c).plcip with
    | none =>
      refine .inl fun state call => ?_
      simp only [Card.view, owner, Option.bind_none] at call
      cases call
    | some p =>
      cases live : s.plcis p with
      | none =>
        refine .inl fun state call => ?_
        simp only [Card.view, owner, live, Option.bind_some, Option.map_none] at call
        cases call
      | some plci =>
        rcases truthful c p plci flag owner live with ending | ⟨n, ncci, pointer, conn, ending⟩
        · refine .inl fun state call => ?_
          rw [view_call owner live] at call
          cases call
          exact ending
        · exact .inr ⟨ncci.state, view_conn pointer conn, ending⟩
  · intro truthful c p plci flag owner live
    rcases truthful c flag with call | ⟨state, conn, ending⟩
    · exact .inl (call plci.state (view_call owner live))
    · obtain ⟨n, pointer, conn⟩ := Option.bind_eq_some_iff.mp conn
      obtain ⟨ncci, found, rfl⟩ := Option.map_eq_some_iff.mp conn
      exact .inr ⟨n, ncci, pointer, found, ending⟩

/-- The view of a channel that a step leaves alone. -/
theorem view_same (bchan : s'.bchans c = s.bchans c) (plcis : ∀ q, (s.bchans c).plcip = some q → s'.plcis q = s.plcis q)
    (nccis : ∀ m, (s.bchans c).nccip = some m → s'.nccis m = s.nccis m) : s'.view c = s.view c := by
  have call : ((s.bchans c).plcip.bind fun p => (s'.plcis p).map Plci.state) =
      (s.bchans c).plcip.bind fun p => (s.plcis p).map Plci.state := by
    cases owner : (s.bchans c).plcip with
    | none => rfl
    | some q => simp only [Option.bind_some, plcis q owner]
  have conn : ((s.bchans c).nccip.bind fun n => (s'.nccis n).map Ncci.state) =
      (s.bchans c).nccip.bind fun n => (s.nccis n).map Ncci.state := by
    cases pointer : (s.bchans c).nccip with
    | none => rfl
    | some m => simp only [Option.bind_some, nccis m pointer]
  unfold Card.view
  rw [bchan, call, conn]

/-- A calm change leaves every channel's view as it is. -/
theorem Calm.view (calm : Calm s s') (c : Nat) : s'.view c = s.view c := by
  have conn : ∀ n, (s'.nccis n).map Ncci.state = (s.nccis n).map Ncci.state := by
    intro n
    have same := congrArg (Option.map Ncci.state) (calm.nccis n)
    rw [Option.map_map, Option.map_map] at same
    exact same
  unfold Card.view
  rw [calm.disconnecting, calm.plcip, calm.nccip, calm.plcis, funext conn]

/-- One channel is left to look at. -/
theorem truthful_step (truthful : Truthful s) (others : ∀ c, c ≠ chan → s'.view c = s.view c)
    (here : (s'.view chan).Truthful) : Truthful s' := by
  have before := truthful_iff.mp truthful
  apply truthful_iff.mpr
  intro c
  rcases eq_or_ne c chan with rfl | other
  · exact here
  · rw [others c other]
    exact before c

end Views

/-! ## Releases in the tables -/

section Tables

variable {plci : Plci} {ncci : Ncci}

/-- A call in one of the driver's phases is ending only in `ST_PLCI_DISCONNECTING`. -/
theorem Plci.Phased.ending_iff (phased : plci.Phased) : plci.state.Ending ↔ plci.state = .DISCONNECTING := by
  have never : PlciState.DISCONNECTED ∉ plciPhases := by decide
  constructor
  · rintro (ending | ended)
    · exact ending
    · exact absurd (ended ▸ phased.state) never
  · exact .inl

/-- A connection in one of the driver's phases is ending only in `ST_NCCI_DISCONNECTING`. -/
theorem Ncci.Phased.ending_iff (phased : ncci.Phased) : ncci.state.Ending ↔ ncci.state = .DISCONNECTING := by
  have never : NcciState.DISCONNECTED ∉ ncciPhases := by decide
  constructor
  · rintro (ending | ended)
    · exact ending
    · exact absurd (ended ▸ phased.state) never
  · exact .inl

/-- A call that is being released waits for its DISCONNECT_IND. -/
theorem Plci.after_ending (ending : plci.state = .DISCONNECTING) {event : PlciEvent} (other : event ≠ .DISCONNECT_IND) :
    (plci.after event).state = .DISCONNECTING := by
  have table : ∀ c ∈ plcitable, c.actstate = .DISCONNECTING → c.event = .DISCONNECT_IND := by decide
  rw [Plci.after]
  cases found : plciChange plci.state event with
  | none => exact ending
  | some c =>
    obtain ⟨member, state, same⟩ := plciChange_some found
    exact absurd (same.symm.trans (table c member (state.trans ending))) other

/-- A connection being disconnected stays so until it is told that it is, or that it cannot be. -/
theorem Ncci.after_ending (ending : ncci.state = .DISCONNECTING) {event : NcciEvent}
    (other : event ≠ .DISCONNECT_B3_IND ∧ event ≠ .DISCONNECT_B3_CONF_ERROR) :
    (ncci.after event).state = .DISCONNECTING := by
  have table : ∀ c ∈ nccitable, c.actstate = .DISCONNECTING →
      c.event = .DISCONNECT_B3_IND ∨ c.event = .DISCONNECT_B3_CONF_ERROR := by decide
  unfold Ncci.after
  cases found : ncciChange ncci.state event with
  | none => exact ending
  | some c =>
    obtain ⟨member, state, same⟩ := ncciChange_some found
    rcases table c member (state.trans ending) with eq | eq
    · exact absurd (same.symm.trans eq) other.1
    · exact absurd (same.symm.trans eq) other.2

/-- A disconnect request releases a call, unless it has no number yet. -/
theorem Plci.Phased.after_disconnectReq (phased : plci.Phased) :
    (plci.after .DISCONNECT_REQ).state.Ending ↔ plci.state ≠ .OUTGOING := by
  have table : ∀ state ∈ plciPhases, ((plciChange state .DISCONNECT_REQ).elim state PlciStateChange.nextstate) =
      if state = .OUTGOING then .OUTGOING else .DISCONNECTING := by decide
  have next : (plci.after .DISCONNECT_REQ).state = if plci.state = .OUTGOING then .OUTGOING else .DISCONNECTING :=
    table plci.state phased.state
  rw [next]
  split
  · rename_i requested
    constructor
    · rintro (same | same)
      · cases same
      · cases same
    · exact fun known => absurd requested known
  · rename_i known
    constructor
    · exact fun _ => known
    · exact fun _ => .inl rfl

/-- A disconnect request ends every connection but one still requested, which has no such transition. -/
theorem Ncci.after_disconnectB3Req (ncci : Ncci) (phased : ncci.Phased) :
    (ncci.after .DISCONNECT_B3_REQ).state.Ending ↔ ncci.state ≠ .OUTGOING := by
  have table : ∀ state ∈ ncciPhases, state ≠ .OUTGOING → state ≠ .DISCONNECTING →
      (ncciChange state .DISCONNECT_B3_REQ).map NcciStateChange.nextstate = some (some .DISCONNECTING) := by decide
  constructor
  · intro ending requested
    rw [Ncci.after, requested] at ending
    rcases ending with same | same
    · cases requested.symm.trans same
    · cases requested.symm.trans same
  · intro known
    rcases eq_or_ne ncci.state .DISCONNECTING with ending | going
    · exact .inl (Ncci.after_ending ending (by decide))
    · obtain ⟨c, found, next⟩ := Option.map_eq_some_iff.mp (table ncci.state phased.state known going)
      left
      unfold Ncci.after
      simp only [found, next, Option.getD_some]

end Tables

/-! ## Steps that keep the flag true -/

/-- The connection of the channel is being released. -/
def Card.ConnEnding (s : Card) (c : Nat) : Prop :=
  ∃ n ncci, (s.bchans c).nccip = some n ∧ s.nccis n = some ncci ∧ ncci.state.Ending

section Steps

variable {env : Env} {s s' : Card} {p n chan : Nat} {plci plci' : Plci} {ncci ncci' : Ncci}

/-- A channel's connection is ending when its view says so. -/
theorem connEnding_iff (s : Card) (c : Nat) : s.ConnEnding c ↔ ∃ state, (s.view c).conn = some state ∧ state.Ending := by
  constructor
  · intro ⟨n, ncci, pointer, live, ending⟩
    exact ⟨ncci.state, view_conn pointer live, ending⟩
  · intro ⟨state, conn, ending⟩
    obtain ⟨n, pointer, conn⟩ := Option.bind_eq_some_iff.mp conn
    obtain ⟨ncci, live, rfl⟩ := Option.map_eq_some_iff.mp conn
    exact ⟨n, ncci, pointer, live, ending⟩

/-- What the flag says of a channel with a call. -/
theorem truthful_here_iff (owner : (s.bchans chan).plcip = some p) (live : s.plcis p = some plci) :
    (s.view chan).Truthful ↔ ((s.bchans chan).disconnecting = true → plci.state.Ending ∨ s.ConnEnding chan) := by
  rw [connEnding_iff]
  have call := view_call owner live
  constructor
  · intro truthful flag
    rcases truthful flag with ending | conn
    · exact .inl (ending _ call)
    · exact .inr conn
  · intro truthful flag
    rcases truthful flag with ending | conn
    · refine .inl fun state same => ?_
      rw [call] at same
      cases same
      exact ending
    · exact .inr conn

/-- A channel without the flag is truthful. -/
theorem truthful_unflagged (unflagged : (s.bchans chan).disconnecting = false) : (s.view chan).Truthful := by
  intro flag
  cases unflagged.symm.trans flag

/-- A channel without a call is truthful. -/
theorem truthful_vacant (vacant : (s.bchans chan).plcip = none) : (s.view chan).Truthful := by
  intro _
  refine .inl fun state call => ?_
  simp only [Card.view, vacant, Option.bind_none] at call
  cases call

/-- A card stays truthful when a call changes and is ending wherever it was. -/
theorem truthful_setPlci (truthful : Truthful s) (live : s.plcis p = some plci) (bchans : s'.bchans = s.bchans)
    (plcis : s'.plcis = Function.update s.plcis p (some plci')) (nccis : s'.nccis = s.nccis)
    (keeps : plci.state.Ending → plci'.state.Ending) : Truthful s' := by
  intro c q r flag owner here
  rw [bchans] at flag owner
  rw [plcis] at here
  rw [bchans, nccis]
  rcases eq_or_ne q p with rfl | other
  · rw [Function.update_self] at here
    cases here
    rcases truthful c q plci flag owner live with ending | conn
    · exact .inl (keeps ending)
    · exact .inr conn
  · rw [Function.update_of_ne other] at here
    exact truthful c q r flag owner here

/-- A card stays truthful when a connection changes and is ending wherever it was. -/
theorem truthful_setNcci (truthful : Truthful s) (live : s.nccis n = some ncci) (bchans : s'.bchans = s.bchans)
    (plcis : s'.plcis = s.plcis) (nccis : s'.nccis = Function.update s.nccis n (some ncci'))
    (keeps : ncci.state.Ending → ncci'.state.Ending) : Truthful s' := by
  intro c q r flag owner here
  rw [bchans] at flag owner
  rw [plcis] at here
  rw [bchans, nccis]
  rcases truthful c q r flag owner here with ending | ⟨m, conn, pointer, found, ending⟩
  · exact .inl ending
  right
  rcases eq_or_ne m n with rfl | other
  · cases found.symm.trans live
    exact ⟨m, ncci', pointer, Function.update_self _ _ _, keeps ending⟩
  · exact ⟨m, conn, pointer, (Function.update_of_ne other _ _).trans found, ending⟩

/-- A card stays truthful in a calm change. -/
theorem truthful_calm (truthful : Truthful s) (calm : Calm s s') : Truthful s' := by
  apply truthful_iff.mpr
  intro c
  rw [calm.view]
  exact truthful_iff.mp truthful c

/-- A step at one channel that has a call afterwards. -/
theorem truthful_step_iff (truthful : Truthful s) (others : ∀ c, c ≠ chan → s'.view c = s.view c)
    (owner : (s'.bchans chan).plcip = some p) (live : s'.plcis p = some plci) :
    Truthful s' ↔ ((s'.bchans chan).disconnecting = true → plci.state.Ending ∨ s'.ConnEnding chan) := by
  rw [← truthful_here_iff owner live]
  constructor
  · exact fun after => truthful_iff.mp after chan
  · exact truthful_step truthful others

/-- Whether a channel's connection is ending depends on its pointer and the connections only. -/
theorem connEnding_congr (nccip : (s'.bchans chan).nccip = (s.bchans chan).nccip) (nccis : s'.nccis = s.nccis) :
    s'.ConnEnding chan ↔ s.ConnEnding chan := by
  unfold Card.ConnEnding
  rw [nccip, nccis]

/-- A channel's connection is ending when the record it points to is. -/
theorem connEnding_pointer (pointer : (s.bchans chan).nccip = some n) (live : s.nccis n = some ncci) :
    s.ConnEnding chan ↔ ncci.state.Ending := by
  constructor
  · intro ⟨m, conn, its, found, ending⟩
    cases pointer.symm.trans its
    cases live.symm.trans found
    exact ending
  · exact fun ending => ⟨n, ncci, pointer, live, ending⟩

/-- A channel without a connection has none that is ending. -/
theorem not_connEnding (pointer : (s.bchans chan).nccip = none) : ¬ s.ConnEnding chan := by
  intro ⟨n, ncci, its, _⟩
  cases pointer.symm.trans its

/-- The channel is flagged and nothing else. -/
theorem truthful_flag_iff (truthful : Truthful s) (bchans : s'.bchans = (s.flag chan).bchans) (plcis : s'.plcis = s.plcis)
    (nccis : s'.nccis = s.nccis) (owner : (s.bchans chan).plcip = some p) (live : s.plcis p = some plci) :
    Truthful s' ↔ plci.state.Ending ∨ s.ConnEnding chan := by
  have bchan : s'.bchans chan = { s.bchans chan with disconnecting := true } := by
    rw [bchans]
    exact Function.update_self _ _ _
  have others : ∀ c, c ≠ chan → s'.view c = s.view c := by
    intro c other
    apply view_same
    · rw [bchans]
      exact Function.update_of_ne other _ _
    · exact fun q _ => congrFun plcis q
    · exact fun m _ => congrFun nccis m
  have owner' : (s'.bchans chan).plcip = some p := by rw [bchan, owner]
  have live' : s'.plcis p = some plci := by rw [plcis, live]
  have nccip : (s'.bchans chan).nccip = (s.bchans chan).nccip := by rw [bchan]
  rw [truthful_step_iff truthful others owner' live', connEnding_congr nccip nccis, bchan]
  exact ⟨fun flagged => flagged rfl, fun ending _ => ending⟩

end Steps

/-! ## Commands -/

section Commands

variable {env : Env} {s : Card} {chan p n : Nat} {plci : Plci} {ncci : Ncci}

/-- A DIAL clears the flag of its channel. -/
theorem truthful_dial (valid : Valid env s) (truthful : Truthful s) {s' : Card} {phone eazmsn : Msn} {si1 si2 : UInt8}
    {leasedline : Bool} {cmsg : Cmsg} {outstanding : List (UInt16 × Call)}
    (eq : s' = { sendMessage env ((s.dialed chan phone eazmsn si1 si2).nextMsgid.addPlci
      { freshPlci chan with msgid := s.msgid, leasedline, state := .OUTGOING }) cmsg with outstanding }) :
    Truthful s' ↔ ((s.bchans chan).disconnecting = true → s.ConnEnding chan) := by
  let dialed := s.dialed chan phone eazmsn si1 si2
  have first : dialed.bchans chan = { s.bchans chan with si1, si2, num := phone, mynum := eazmsn } :=
    Function.update_self _ _ _
  have bchan : s'.bchans chan = { dialed.bchans chan with plcip := some s.plciNext } := by
    rw [eq]
    exact Function.update_self _ _ _
  rw [first] at bchan
  have others : ∀ c, c ≠ chan → s'.view c = s.view c := by
    intro c other
    rw [eq]
    apply view_same
    · exact (Function.update_of_ne other _ _).trans (Function.update_of_ne other _ _)
    · exact fun q owner => Function.update_of_ne (valid.wired.owner_old owner) _ _
    · exact fun _ _ => rfl
  have owner : (s'.bchans chan).plcip = some s.plciNext := by rw [bchan]
  have live : s'.plcis s.plciNext = some { freshPlci chan with msgid := s.msgid, leasedline, state := .OUTGOING } := by
    rw [eq]
    exact Function.update_self _ _ _
  have nccip : (s'.bchans chan).nccip = (s.bchans chan).nccip := by rw [bchan]
  have nccis : s'.nccis = s.nccis := by rw [eq]; rfl
  have requested : ¬ PlciState.OUTGOING.Ending := by decide
  rw [truthful_step_iff truthful others owner live, connEnding_congr nccip nccis, bchan]
  exact ⟨fun after flag => (after flag).resolve_left requested, fun before flag => .inr (before flag)⟩

/-- A hang-up of a connection: the flag is true unless the connection is requested only. -/
theorem truthful_hangupNcci (valid : Valid env s) (truthful : Truthful s) {s' : Card} {cmsg : Cmsg}
    {named : List (Nat × UInt32)} (pointer : (s.bchans chan).nccip = some n) (conn : s.nccis n = some ncci)
    (eq : s' = { sendMessage env ((s.flag chan).nextMsgid.setNcci n (ncci.after .DISCONNECT_B3_REQ)) cmsg with named }) :
    Truthful s' ↔ ∀ p plci, (s.bchans chan).plcip = some p → s.plcis p = some plci →
      plci.state.Ending ∨ ncci.state ≠ .OUTGOING := by
  obtain ⟨p', link⟩ := valid.wired.nccip chan n pointer
  have mine := links_nccis conn
  cases mine.symm.trans link
  have bchan : s'.bchans ncci.chan = { s.bchans ncci.chan with disconnecting := true } := by
    rw [eq]
    exact Function.update_self _ _ _
  have others : ∀ c, c ≠ ncci.chan → s'.view c = s.view c := by
    intro c other
    rw [eq]
    apply view_same
    · exact Function.update_of_ne other _ _
    · exact fun _ _ => rfl
    · exact fun m its => Function.update_of_ne (valid.wired.pointer_ne conn other its) _ _
  have plcis : s'.plcis = s.plcis := by rw [eq]; rfl
  have pointer' : (s'.bchans ncci.chan).nccip = some n := by rw [bchan, pointer]
  have conn' : s'.nccis n = some (ncci.after .DISCONNECT_B3_REQ) := by
    rw [eq]
    exact Function.update_self _ _ _
  cases owner : (s.bchans ncci.chan).plcip with
  | none =>
    constructor
    · intro _ p plci its
      cases its
    · intro _
      apply truthful_step truthful others
      apply truthful_vacant
      rw [bchan, owner]
  | some p =>
    obtain ⟨ns, link⟩ := valid.wired.owner _ p owner
    obtain ⟨plci, live, -⟩ := plcis_of_links link
    have owner' : (s'.bchans ncci.chan).plcip = some p := by rw [bchan, owner]
    have live' : s'.plcis p = some plci := by rw [plcis, live]
    rw [truthful_step_iff truthful others owner' live', connEnding_pointer pointer' conn',
      Ncci.after_disconnectB3Req ncci (valid.nccis n ncci conn), bchan]
    constructor
    · intro after q r its found
      cases its
      cases live.symm.trans found
      exact after rfl
    · exact fun before _ => before p plci rfl live

/-- A hang-up of a call that has a number releases it. -/
theorem truthful_hangupPlci (valid : Valid env s) (truthful : Truthful s) {s' : Card} {cmsg : Cmsg}
    (owner : (s.bchans chan).plcip = some p) (live : s.plcis p = some plci) (known : plci.plci ≠ 0)
    (eq : s' = sendMessage env ((s.flag chan).nextMsgid.setPlci p (plci.after .DISCONNECT_REQ)) cmsg) :
    Truthful s' := by
  obtain ⟨ns, link⟩ := valid.wired.owner chan p owner
  cases (links_plcis live).symm.trans link
  have phased := valid.plcis p plci live
  have others : ∀ c, c ≠ plci.chan → s'.view c = s.view c := by
    intro c other
    rw [eq]
    apply view_same
    · exact Function.update_of_ne other _ _
    · exact fun q its => Function.update_of_ne (valid.wired.owner_ne live other its) _ _
    · exact fun _ _ => rfl
  have owner' : (s'.bchans plci.chan).plcip = some p := by
    rw [eq]
    show ((s.flag plci.chan).bchans plci.chan).plcip = some p
    rw [flag_bchan, owner]
  have live' : s'.plcis p = some (plci.after .DISCONNECT_REQ) := by
    rw [eq]
    exact Function.update_self _ _ _
  apply (truthful_step_iff truthful others owner' live').mpr
  intro _
  left
  apply phased.after_disconnectReq.mpr
  exact fun requested => known (phased.number requested)

end Commands

/-! ## Messages -/

section Messages

variable {env : Env} {s s₀ s' : Card} {cmsg : Cmsg} {chan p n : Nat} {plci plci' : Plci} {ncci ncci' : Ncci}

/-- Dropping a call leaves its channel without one. -/
theorem truthful_dropPlci (valid : Valid env s) (truthful : Truthful s) (live : s.plcis p = some plci)
    (bchans : ∀ c, c ≠ plci.chan → s₀.bchans c = s.bchans c) (plcis : ∀ q, q ≠ p → s₀.plcis q = s.plcis q)
    (nccis : s₀.nccis = s.nccis) (chan : plci'.chan = plci.chan) : Truthful (s₀.dropPlci p plci') := by
  have others : ∀ c, c ≠ plci.chan → (s₀.dropPlci p plci').view c = s.view c := by
    intro c other
    apply view_same
    · exact (Function.update_of_ne (chan ▸ other) _ _).trans (bchans c other)
    · intro q its
      have else' := valid.wired.owner_ne live other its
      exact (Function.update_of_ne else' _ _).trans (plcis q else')
    · exact fun m _ => congrFun nccis m
  apply truthful_step truthful others
  apply truthful_vacant
  show (Function.update s₀.bchans plci'.chan _ plci.chan).plcip = none
  rw [chan, Function.update_self]

/-- Dropping a connection sends its call a DISCONNECT_REQ, which ends every call but one still requested. -/
theorem truthful_dropNcci_iff (valid : Valid env s) (truthful : Truthful s) (conn : Conn s n ncci plci)
    (bchans : ∀ c, c ≠ ncci.chan → s₀.bchans c = s.bchans c)
    (plcip : (s₀.bchans ncci.chan).plcip = (s.bchans ncci.chan).plcip) (plcis : s₀.plcis = s.plcis)
    (nccis : ∀ m, m ≠ n → s₀.nccis m = s.nccis m) (same : ncci'.plcip = ncci.plcip) (chan : ncci'.chan = ncci.chan) :
    Truthful (s₀.dropNcci env n ncci' plci) ↔
      ((s₀.bchans ncci.chan).disconnecting = true → plci.state ≠ .OUTGOING) := by
  let s' := s₀.dropNcci env n ncci' plci
  have phased := valid.plcis _ plci conn.call
  have bchan : s'.bchans ncci.chan = { s₀.bchans ncci.chan with nccip := none } := by
    show Function.update s₀.bchans ncci'.chan { s₀.bchans ncci'.chan with nccip := none } ncci.chan = _
    rw [chan, Function.update_self]
  have calls : ∀ q, q ≠ ncci.plcip → s'.plcis q = s.plcis q := by
    intro q other
    rw [← same] at other
    exact (Function.update_of_ne other _ _).trans (congrFun plcis q)
  have others : ∀ c, c ≠ ncci.chan → s'.view c = s.view c := by
    intro c other
    apply view_same
    · rw [← bchans c other]
      rw [← chan] at other
      exact Function.update_of_ne other _ _
    · intro q its
      exact calls q (valid.wired.owner_ne conn.call (conn.chan ▸ other) its)
    · intro m its
      have else' := valid.wired.pointer_ne conn.live other its
      exact (Function.update_of_ne else' _ _).trans (nccis m else')
  have owner := (valid.wired.chan _ _ _ (links_plcis conn.call)).2
  rw [← conn.chan] at owner
  have owner' : (s'.bchans ncci.chan).plcip = some ncci.plcip := by
    rw [bchan]
    exact plcip.trans owner
  have live' : s'.plcis ncci.plcip = some { plci.after .DISCONNECT_REQ with ncciList := plci.ncciList.erase n } := by
    rw [← same]
    exact Function.update_self _ _ _
  have pointer : (s'.bchans ncci.chan).nccip = none := by rw [bchan]
  rw [truthful_step_iff truthful others owner' live', bchan]
  constructor
  · intro after flag
    exact phased.after_disconnectReq.mp ((after flag).resolve_right (not_connEnding pointer))
  · exact fun known flag => .inl (phased.after_disconnectReq.mpr (known flag))

/-- A new connection becomes its channel's, so a flagged channel needs an ending call. -/
theorem truthful_addNcci_iff (valid : Valid env s) (truthful : Truthful s) (live : s.plcis p = some plci)
    (bchans : s'.bchans =
      Function.update s.bchans plci.chan { s.bchans plci.chan with nccip := some s.ncciNext })
    (plcis : s'.plcis = Function.update s.plcis p (some plci'))
    (nccis : s'.nccis = Function.update s.nccis s.ncciNext (some ncci))
    (same : plci'.state.Ending ↔ plci.state.Ending) (going : ¬ ncci.state.Ending) :
    Truthful s' ↔ ((s.bchans plci.chan).disconnecting = true → plci.state.Ending) := by
  have bchan : s'.bchans plci.chan = { s.bchans plci.chan with nccip := some s.ncciNext } := by
    rw [bchans, Function.update_self]
  have others : ∀ c, c ≠ plci.chan → s'.view c = s.view c := by
    intro c other
    apply view_same
    · rw [bchans, Function.update_of_ne other]
    · intro q its
      rw [plcis, Function.update_of_ne (valid.wired.owner_ne live other its)]
    · intro m its
      rw [nccis, Function.update_of_ne (valid.wired.pointer_old its)]
  have owner := (valid.wired.chan _ _ _ (links_plcis live)).2
  have owner' : (s'.bchans plci.chan).plcip = some p := by
    rw [bchan]
    exact owner
  have live' : s'.plcis p = some plci' := by rw [plcis, Function.update_self]
  have pointer : (s'.bchans plci.chan).nccip = some s.ncciNext := by rw [bchan]
  have conn : s'.nccis s.ncciNext = some ncci := by rw [nccis, Function.update_self]
  rw [truthful_step_iff truthful others owner' live', connEnding_pointer pointer conn, bchan, same]
  exact ⟨fun after flag => (after flag).resolve_right going, fun before flag => .inl (before flag)⟩

/-- A call that becomes active is not released by that. -/
theorem Plci.Phased.after_active (phased : plci.Phased) :
    (plci.after .CONNECT_ACTIVE_IND).state.Ending ↔ plci.state.Ending := by
  have table : ∀ c ∈ plcitable, c.event = .CONNECT_ACTIVE_IND → c.nextstate ≠ .DISCONNECTING ∧
      c.nextstate ≠ .DISCONNECTED := by decide
  constructor
  · intro ending
    rw [Plci.after] at ending
    cases found : plciChange plci.state .CONNECT_ACTIVE_IND with
    | none =>
      rw [found] at ending
      exact ending
    | some c =>
      rw [found] at ending
      obtain ⟨member, -, same⟩ := plciChange_some found
      obtain ⟨going, on⟩ := table c member same
      rcases ending with ending | ended
      · exact absurd ending going
      · exact absurd ended on
  · intro ending
    exact .inl (Plci.after_ending (phased.ending_iff.mp ending) (by decide))

/-- A disconnect request that failed leaves the connection as it was before. -/
theorem Ncci.Phased.after_confError (phased : ncci.Phased) :
    ¬ (ncci.after .DISCONNECT_B3_CONF_ERROR).state.Ending := by
  have table : ∀ state ∈ ncciPhases, state ≠ .DISCONNECTING → ncciChange state .DISCONNECT_B3_CONF_ERROR = none := by
    decide
  rcases eq_or_ne ncci.state .DISCONNECTING with ending | going
  · have back : ∀ state ∈ [NcciState.ALLOCATED, .ACTIVE], state ≠ .DISCONNECTING ∧ state ≠ .DISCONNECTED := by decide
    obtain ⟨first, second⟩ := back _ (phased.oldstate ending)
    have next : (ncci.after .DISCONNECT_B3_CONF_ERROR).state = ncci.oldstate := by
      unfold Ncci.after
      rw [ending]
      rfl
    rw [next]
    rintro (same | same)
    · exact first same
    · exact second same
  · have kept : ncci.after .DISCONNECT_B3_CONF_ERROR = ncci := by
      unfold Ncci.after
      rw [table ncci.state phased.state going]
    rw [kept, phased.ending_iff]
    exact going

/-- A refused DISCONNECT_B3_REQ leaves the flag on a connection that is up again. -/
theorem truthful_disconnectB3Conf_iff (valid : Valid env s) (truthful : Truthful s) (conn : Conn s n ncci plci) :
    Truthful (s.setNcci n (ncci.after .DISCONNECT_B3_CONF_ERROR)) ↔ ((s.bchans ncci.chan).disconnecting = true →
      (s.bchans ncci.chan).nccip = some n → plci.state.Ending) := by
  let s' := s.setNcci n (ncci.after .DISCONNECT_B3_CONF_ERROR)
  have phased := valid.nccis n ncci conn.live
  have others : ∀ c, c ≠ ncci.chan → s'.view c = s.view c := by
    intro c other
    apply view_same
    · rfl
    · exact fun _ _ => rfl
    · exact fun m its => Function.update_of_ne (valid.wired.pointer_ne conn.live other its) _ _
  have owner := (valid.wired.chan _ _ _ (links_plcis conn.call)).2
  rw [← conn.chan] at owner
  have call : s'.plcis ncci.plcip = some plci := conn.call
  rw [truthful_step_iff truthful others owner call]
  have now : s'.nccis n = some (ncci.after .DISCONNECT_B3_CONF_ERROR) := Function.update_self _ _ _
  constructor
  · intro after flag pointer
    apply (after flag).resolve_right
    rw [connEnding_pointer (s := s') pointer now]
    exact phased.after_confError
  · intro before flag
    rcases eq_or_ne (s.bchans ncci.chan).nccip (some n) with pointer | other
    · exact .inl (before flag pointer)
    · rcases truthful ncci.chan _ plci flag owner conn.call with ending | ⟨m, its, pointer, found, ending⟩
      · exact .inl ending
      · have else' : m ≠ n := by
          rintro rfl
          exact other pointer
        exact .inr ⟨m, its, pointer, (Function.update_of_ne else' _ _).trans found, ending⟩

/-- A requested connection on a flagged channel is truthful only beside an ending call. -/
theorem truthful_requestB3_iff (valid : Valid env s) (truthful : Truthful s) (live : s.plcis p = some plci) :
    Truthful ((answer env s cmsg).requestB3 env p plci cmsg.adr) ↔
      ((s.bchans plci.chan).disconnecting = true → plci.state.Ending) := by
  refine truthful_addNcci_iff valid truthful live rfl rfl rfl ?_ ?_
  · exact (valid.plcis _ _ live).after_active
  · show ¬ NcciState.OUTGOING.Ending
    decide

theorem truthful_connectB3Ind_iff (valid : Valid env s) (truthful : Truthful s) (live : s.plcis p = some plci) :
    Truthful (connectB3Resp env (s.addNcci plci
      { freshNcci p plci.chan cmsg.adr with state := .ALLOCATED, oldstate := .INCOMING }) cmsg.adr 0) ↔
      ((s.bchans plci.chan).disconnecting = true → plci.state.Ending) := by
  refine truthful_addNcci_iff valid truthful live rfl rfl rfl ?_ ?_
  · exact Iff.rfl
  · show ¬ NcciState.ALLOCATED.Ending
    decide

/-- A connection that could not be made is dropped as if it had ended. -/
theorem truthful_connectB3Failed_iff (valid : Valid env s) (truthful : Truthful s) (conn : Conn s n ncci plci) :
    Truthful ((s.setNcci n { ncci with ncci := cmsg.adr }).dropNcci env n { ncci with ncci := cmsg.adr } plci) ↔
      ((s.bchans ncci.chan).disconnecting = true → plci.state ≠ .OUTGOING) := by
  refine truthful_dropNcci_iff valid truthful conn (fun _ _ => rfl) rfl rfl ?_ rfl rfl
  exact fun m other => Function.update_of_ne other _ _

/-- A DISCONNECT_B3_IND flags the channel and drops the connection. -/
theorem truthful_disconnectB3Ind_iff (valid : Valid env s) (truthful : Truthful s) (conn : Conn s n ncci plci) :
    Truthful ((answer env ((s.flag ncci.chan).setNcci n (ncci.after .DISCONNECT_B3_IND)) cmsg).dropNcci env n
      (ncci.after .DISCONNECT_B3_IND) plci) ↔ plci.state ≠ .OUTGOING := by
  let s₀ := answer env ((s.flag ncci.chan).setNcci n (ncci.after .DISCONNECT_B3_IND)) cmsg
  have bchan : s₀.bchans ncci.chan = { s.bchans ncci.chan with disconnecting := true } := flag_bchan s ncci.chan
  have dropped : Truthful (s₀.dropNcci env n (ncci.after .DISCONNECT_B3_IND) plci) ↔
      ((s₀.bchans ncci.chan).disconnecting = true → plci.state ≠ .OUTGOING) := by
    refine truthful_dropNcci_iff valid truthful conn ?_ ?_ rfl ?_ (ncci.after_plcip _) (ncci.after_chan _)
    · exact fun c other => Function.update_of_ne other _ _
    · rw [bchan]
    · exact fun m other => Function.update_of_ne other _ _
  rw [bchan] at dropped
  exact dropped.trans ⟨fun known => known rfl, fun known _ => known⟩

/-- A DISCONNECT_B3_IND for a connection that stays flags the channel all the same. -/
theorem truthful_disconnectB3Early_iff (valid : Valid env s) (truthful : Truthful s) (conn : Conn s n ncci plci) :
    Truthful (answer env (s.flag ncci.chan) cmsg) ↔ plci.state.Ending ∨ s.ConnEnding ncci.chan := by
  have owner := (valid.wired.chan _ _ _ (links_plcis conn.call)).2
  rw [← conn.chan] at owner
  exact truthful_flag_iff truthful rfl rfl rfl owner conn.call

/-- A DISCONNECT_CONF flags its channel whatever the call's state. -/
theorem truthful_disconnectConf_iff (valid : Valid env s) (truthful : Truthful s) (live : s.plcis p = some plci) :
    Truthful (s.flag plci.chan) ↔ plci.state.Ending ∨ s.ConnEnding plci.chan := by
  have owner := (valid.wired.chan _ _ _ (links_plcis live)).2
  exact truthful_flag_iff truthful rfl rfl rfl owner live

end Messages

/-! ## Runs -/

/-- What a message must find if it is not to leave a flag that is not true. -/
structure SincereMessage (env : Env) (s : Card) (cmsg : Cmsg) : Prop where
  disconnectConf : toPlci env cmsg → cmd cmsg = CAPI_DISCONNECT_CONF →
    ∀ p plci, findPlciByPlci s cmsg.adr = some (p, plci) → plci.state.Ending ∨ s.ConnEnding plci.chan
  connectActiveInd : toPlci env cmsg → cmd cmsg = CAPI_CONNECT_ACTIVE_IND →
    ∀ p plci, findPlciByPlci s cmsg.adr = some (p, plci) → (s.bchans plci.chan).incoming = false →
      env.kmalloc s.tick = true → (s.bchans plci.chan).disconnecting = true → plci.state.Ending
  connectB3Ind : toNcci env cmsg → cmd cmsg = CAPI_CONNECT_B3_IND →
    ∀ p plci, findPlciByNcci s cmsg.adr = some (p, plci) → env.kmalloc s.tick = true →
      (s.bchans plci.chan).disconnecting = true → plci.state.Ending
  connectB3Conf : toNcci env cmsg → cmd cmsg = CAPI_CONNECT_B3_CONF → cmsg.word .info ≠ 0 →
    ∀ n ncci plci, findNcciByMsgid s cmsg.adr cmsg.messagenumber = some (n, ncci) → Conn s n ncci plci →
      ncci.state = .OUTGOING → (s.bchans ncci.chan).disconnecting = true → plci.state ≠ .OUTGOING
  disconnectB3Ind : toNcci env cmsg → cmd cmsg = CAPI_DISCONNECT_B3_IND →
    ∀ n ncci plci, findNcci s cmsg.adr = some (n, ncci) → Conn s n ncci plci →
      (ncci.state ≠ .OUTGOING → plci.state ≠ .OUTGOING) ∧
      (ncci.state = .OUTGOING → plci.state.Ending ∨ s.ConnEnding ncci.chan)
  disconnectB3Conf : toNcci env cmsg → cmd cmsg = CAPI_DISCONNECT_B3_CONF → cmsg.word .info ≠ 0 →
    ∀ n ncci plci, findNcci s cmsg.adr = some (n, ncci) → Conn s n ncci plci →
      (s.bchans ncci.chan).disconnecting = true → (s.bchans ncci.chan).nccip = some n → plci.state.Ending

/-- The step leaves no flag that is not true. -/
def Sincere (env : Env) (s : Card) : Op → Prop
  | .command (.DIAL arg phone _ _ _) => ∀ chan, channel env arg = some chan → (s.bchans chan).plcip = none →
      ¬ LeasedLine.EndlessLine env.undefined phone.chars → env.kmalloc s.tick = true →
        (s.bchans chan).disconnecting = true → s.ConnEnding chan
  | .command (.HANGUP arg) => ∀ chan p plci, channel env arg = some chan → (s.bchans chan).disconnecting = false →
      (s.bchans chan).plcip = some p → s.plcis p = some plci →
        (∀ n ncci, (s.bchans chan).nccip = some n → s.nccis n = some ncci → plci.state.Ending ∨ ncci.state ≠ .OUTGOING) ∧
        ((s.bchans chan).nccip = none → plci.state ≠ .INCOMING)
  | .recv msg => ∀ cmsg, capiMessage2cmsg msg = some cmsg → SincereMessage env s cmsg
  | _ => True

section Runs

variable {env : Env} {s s' : Card} {cmsg : Cmsg}

/-- A sincere command keeps the card truthful. -/
theorem truthful_effect (valid : Valid env s) (truthful : Truthful s) {command : Command}
    (sincere : Sincere env s (.command command)) (effect : Effect env s command s') : Truthful s' := by
  cases effect with
  | calm calm => exact truthful_calm truthful calm
  | @dial arg chan phone eazmsn si1 si2 line at_channel free mem parsed =>
    have ends : ¬ LeasedLine.EndlessLine env.undefined phone.chars := by
      rw [← dialLine_none_iff, parsed]
      nofun
    exact (truthful_dial valid truthful rfl).mpr (sincere _ at_channel free ends mem)
  | acceptd at_channel call live =>
    have phased := valid.plcis _ _ live
    refine truthful_setPlci truthful live rfl rfl rfl fun ending => .inl ?_
    exact Plci.after_ending (phased.ending_iff.mp ending) (by decide)
  | hangupNcci at_channel unflagged pointer conn =>
    apply (truthful_hangupNcci valid truthful pointer conn rfl).mpr
    intro p plci owner live
    exact (sincere _ p plci at_channel unflagged owner live).1 _ _ pointer conn
  | hangupIncoming at_channel unflagged noconn call live waiting =>
    exact absurd waiting ((sincere _ _ _ at_channel unflagged call live).2 noconn)
  | hangupPlci at_channel unflagged noconn call live answered known =>
    exact truthful_hangupPlci valid truthful call live known rfl

/-- An incoming call keeps the card truthful, whatever the verdict. -/
theorem truthful_incomingCall (valid : Valid env s) (truthful : Truthful s) {chan : Nat} {res : Int}
    (found : ∃ s₀, newBchan env s = some (s₀, chan))
    (verdict : incomingResult env (s.offered cmsg chan) cmsg s.plciNext res = some s') : Truthful s' := by
  have run : ([] : List Command).foldlM (fun s command => (capidrvCommand env s command).map Prod.fst)
      (s.offered cmsg chan) = some (s.offered cmsg chan) := rfl
  obtain ⟨-, plci, live, listed⟩ := incoming_live valid.wired found run
  have valid' := offered_valid valid found cmsg
  have offered : Truthful (s.offered cmsg chan) := by
    have others : ∀ c, c ≠ chan → (s.offered cmsg chan).view c = s.view c := by
      intro c other
      apply view_same
      · exact (Function.update_of_ne other _ _).trans
          ((Function.update_of_ne other _ _).trans (Function.update_of_ne other _ _))
      · exact fun q its => Function.update_of_ne (valid.wired.owner_old its) _ _
      · exact fun _ _ => rfl
    apply truthful_step truthful others
    apply truthful_unflagged
    exact congrArg Bchan.disconnecting (offer_bchan s chan cmsg.adr)
  cases verdict_of_result live listed verdict with
  | rejected live =>
    have phased := valid'.plcis _ _ live
    refine truthful_setPlci offered live rfl rfl rfl fun ending => .inl ?_
    exact Plci.after_ending (phased.ending_iff.mp ending) (by decide)
  | alerted live => exact truthful_setPlci offered live rfl rfl rfl fun ending => ending
  | kept => exact offered

/-- A sincere message keeps the card truthful. -/
theorem truthful_reaction (valid : Valid env s) (truthful : Truthful s) (quiet : ∀ t, (env.icall t).1 = [])
    (sincere : SincereMessage env s cmsg) (reaction : Reaction env s cmsg s') : Truthful s' := by
  cases reaction with
  | calm calm => exact truthful_calm truthful calm
  | disconnectInd route message found =>
    obtain ⟨live, -⟩ := findPlci_some found
    refine truthful_dropPlci valid truthful live ?_ ?_ rfl rfl
    · exact fun c other => Function.update_of_ne other _ _
    · exact fun q other => Function.update_of_ne other _ _
  | disconnectConf route message found =>
    obtain ⟨live, -⟩ := findPlci_some found
    exact (truthful_disconnectConf_iff valid truthful live).mpr (sincere.disconnectConf route message _ _ found)
  | connected route message found =>
    obtain ⟨live, -⟩ := findPlci_some found
    have phased := valid.plcis _ _ live
    refine truthful_setPlci truthful live rfl rfl rfl fun ending => .inl ?_
    exact Plci.after_ending (phased.ending_iff.mp ending) (by decide)
  | connectFailed route message found =>
    obtain ⟨live, -⟩ := findPlci_some found
    refine truthful_dropPlci valid truthful live (fun _ _ => rfl) ?_ rfl rfl
    exact fun q other => Function.update_of_ne other _ _
  | renumbered route message found =>
    obtain ⟨live, -⟩ := findPlci_some found
    exact truthful_setPlci truthful live rfl rfl rfl fun ending => ending
  | connectActive route message found =>
    obtain ⟨live, -⟩ := findPlci_some found
    have phased := valid.plcis _ _ live
    exact truthful_setPlci truthful live rfl rfl rfl phased.after_active.mpr
  | requestB3 route message found outgoing mem =>
    obtain ⟨live, -⟩ := findPlci_some found
    apply (truthful_requestB3_iff valid truthful live).mpr
    exact sincere.connectActiveInd route message _ _ found outgoing mem
  | @unannounced chan route message free =>
    apply @truthful_step _ _ chan truthful
    · exact fun c other => view_same (Function.update_of_ne other _ _) (fun _ _ => rfl) (fun _ _ => rfl)
    apply truthful_unflagged
    show (Function.update s.bchans chan _ chan).disconnecting = false
    rw [Function.update_self]
  | incomingCall route message found mem fit commands result =>
    rw [quiet] at commands
    cases commands
    exact truthful_incomingCall valid truthful found result
  | connectB3Active route message found conn =>
    have phased := valid.nccis _ _ conn.live
    refine truthful_setNcci truthful conn.live rfl rfl rfl fun ending => .inl ?_
    exact Ncci.after_ending (phased.ending_iff.mp ending) (by decide)
  | connectB3Ind route message found mem =>
    obtain ⟨live, -⟩ := findPlci_some found
    apply (truthful_connectB3Ind_iff valid truthful live).mpr
    exact sincere.connectB3Ind route message _ _ found mem
  | connectedB3 route message found conn =>
    have phased := (valid.nccis _ _ conn.live).renumber cmsg.adr
    refine truthful_setNcci truthful conn.live rfl rfl rfl fun ending => .inl ?_
    exact Ncci.after_ending (phased.ending_iff.mp ending) (by decide)
  | connectB3Failed route message found conn error requested =>
    apply (truthful_connectB3Failed_iff valid truthful conn).mpr
    exact sincere.connectB3Conf route message error _ _ _ found conn requested
  | renumberedB3 route message found conn =>
    exact truthful_setNcci truthful conn.live rfl rfl rfl fun ending => ending
  | disconnectB3Ind route message found conn known =>
    apply (truthful_disconnectB3Ind_iff valid truthful conn).mpr
    exact (sincere.disconnectB3Ind route message _ _ _ found conn).1 known
  | disconnectB3Early route message found conn requested =>
    apply (truthful_disconnectB3Early_iff valid truthful conn).mpr
    exact (sincere.disconnectB3Ind route message _ _ _ found conn).2 requested
  | disconnectB3Conf route message found conn error =>
    apply (truthful_disconnectB3Conf_iff valid truthful conn).mpr
    exact sincere.disconnectB3Conf route message error _ _ _ found conn
  | resetB3Ind route message found conn =>
    have phased := valid.nccis _ _ conn.live
    refine truthful_setNcci truthful conn.live rfl rfl rfl fun ending => .inl ?_
    exact Ncci.after_ending (phased.ending_iff.mp ending) (by decide)

/-- Truth does not depend on the list of the outstanding. -/
theorem truthful_confirm : Truthful (confirm env s cmsg) ↔ Truthful s := by
  unfold confirm
  split
  · exact Iff.rfl
  · exact Iff.rfl

/-- A sincere step keeps the card truthful. -/
theorem truthful_of_sincere (valid : Valid env s) (truthful : Truthful s) (quiet : ∀ t, (env.icall t).1 = []) {op : Op}
    (sincere : Sincere env s op) (run : step env s op = some s') : Truthful s' := by
  cases transition valid run with
  | calm calm => exact truthful_calm truthful calm
  | command effect => exact truthful_effect valid truthful sincere effect
  | data _ _ _ _ sends => exact truthful_calm truthful sends.calm
  | recv decoded reaction =>
    exact truthful_confirm.mpr (truthful_reaction valid truthful quiet (sincere _ decoded) reaction)

/-- A step after which every flag is true met the condition. -/
theorem sincere_command (valid : Valid env s) (truthful : Truthful s) {command : Command}
    (after : ∀ r, capidrvCommand env s command = some r → Truthful r.1) : Sincere env s (.command command) := by
  cases command with
  | DIAL arg phone eazmsn si1 si2 =>
    intro chan at_channel free ends mem
    rw [← dialLine_none_iff] at ends
    obtain ⟨line, parsed⟩ := Option.ne_none_iff_exists'.mp ends
    have eq := commandDial_eq env at_channel free mem parsed eazmsn si1 si2
    exact (truthful_dial valid truthful rfl).mp (after _ eq)
  | HANGUP arg =>
    intro chan p plci at_channel unflagged owner live
    constructor
    · intro n ncci pointer conn
      have eq := commandHangup_ncci env at_channel unflagged pointer conn
      exact (truthful_hangupNcci valid truthful pointer conn rfl).mp (after _ eq) p plci owner live
    · intro noconn waiting
      have eq := commandHangup_plci env at_channel unflagged noconn owner live (valid.wired.listedPlci live)
      rw [if_pos waiting] at eq
      have flagged := after _ eq
      rcases (truthful_flag_iff truthful rfl rfl rfl owner live).mp flagged with ending | ending
      · rw [waiting] at ending
        exact absurd ending (by decide)
      · exact not_connEnding noconn ending
  | _ => trivial

/-- A message that keeps the card truthful is sincere. -/
theorem sincere_message (valid : Valid env s) (truthful : Truthful s) (data : Bytes)
    (after : ∀ s', handleMessage env s cmsg data = some s' → Truthful s') : SincereMessage env s cmsg := by
  constructor
  · intro route message p plci found
    have run : disconnectConf s cmsg = s.flag plci.chan := by
      unfold disconnectConf
      rw [found]
      rfl
    have flagged := after _ (handleMessage_disconnectConf s data route message)
    rw [run] at flagged
    exact (truthful_disconnectConf_iff valid truthful (findPlci_some found).1).mp flagged
  · intro route message p plci found outgoing mem
    have run := connectActiveInd_outgoing env found outgoing mem
    rw [← handleMessage_connectActiveInd s data route message] at run
    exact (truthful_requestB3_iff valid truthful (findPlci_some found).1).mp (after _ run)
  · intro route message p plci found mem
    have run := connectB3Ind_eq env found mem
    rw [← handleMessage_connectB3Ind s data route message] at run
    exact (truthful_connectB3Ind_iff valid truthful (findPlci_some found).1).mp (after _ run)
  · intro route message error n ncci plci found conn requested
    have run : connectB3Conf env s cmsg = _ := connectB3Conf_failed found conn error requested
    rw [← handleMessage_connectB3Conf s data route message] at run
    exact (truthful_connectB3Failed_iff valid truthful conn).mp (after _ run)
  · intro route message n ncci plci found conn
    constructor
    · intro known
      have run : disconnectB3Ind env s cmsg = _ := disconnectB3Ind_drops found conn (valid.nccis _ _ conn.live) known
      rw [← handleMessage_disconnectB3Ind s data route message] at run
      exact (truthful_disconnectB3Ind_iff valid truthful conn).mp (after _ run)
    · intro requested
      have run : disconnectB3Ind env s cmsg = _ := disconnectB3Ind_early found conn requested
      rw [← handleMessage_disconnectB3Ind s data route message] at run
      exact (truthful_disconnectB3Early_iff valid truthful conn).mp (after _ run)
  · intro route message error n ncci plci found conn
    have run : disconnectB3Conf env s cmsg = _ := disconnectB3Conf_eq found conn.live error
    rw [← handleMessage_disconnectB3Conf s data route message] at run
    exact (truthful_disconnectB3Conf_iff valid truthful conn).mp (after _ run)

/-- A step that keeps the card truthful is sincere. -/
theorem sincere_of_truthful (valid : Valid env s) (truthful : Truthful s) {op : Op}
    (after : ∀ s', step env s op = some s' → Truthful s') : Sincere env s op := by
  cases op with
  | recv msg =>
    intro cmsg decoded
    refine sincere_message valid truthful (payload msg) fun s' handled => ?_
    exact truthful_confirm.mp (after _ (recv_eq decoded handled))
  | command command =>
    apply sincere_command valid truthful
    intro r run
    exact after r.1 (congrArg (Option.map Prod.fst) run)
  | _ => trivial

/-- The hang-up flags of a card are true through a run in which isdn4linux issues no command while it is told about
a call, exactly when every step meets the condition. -/
theorem hangup_flag_truthful_iff (env : Env) (quiet : ∀ t, (env.icall t).1 = []) (ops : List Op) :
    Always (step env) Truthful Card.init ops ↔ Meets (step env) (Sincere env) Card.init ops := by
  have free := Meets.unconditional (step env) Card.init ops
  have start : Truthful Card.init := nofun
  apply always_iff_meets (fun s => Valid env s ∧ Truthful s) (fun s inv => inv.2) ?_ ?_ ⟨valid_init env, start⟩ free
  · intro s op s' ⟨valid, truthful⟩ _ sincere run
    exact ⟨valid_step valid run, truthful_of_sincere valid truthful quiet sincere run⟩
  · intro s op ⟨valid, truthful⟩ _ insincere
    by_contra none
    apply insincere
    apply sincere_of_truthful valid truthful
    intro s' run
    by_contra broken
    exact none ⟨s', run, broken⟩

end Runs

/-- A dialled call that has a number. -/
def numberedCall : List Op :=
  [.command (.DIAL 0 .empty .empty 1 0), .recv (controllerMsg CAPI_CONNECT_CONF 0 [1, 1, 0, 0] [0, 0])]

/-- Its hang-up sets the flag, and the call is being released. -/
theorem hangup_flag_truthful_numbered :
    Always (step Env.granting) Truthful Card.init (numberedCall ++ [.command (.HANGUP 0)]) ∧
      (exec (step Env.granting) Card.init (numberedCall ++ [.command (.HANGUP 0)])).map (fun s => s.view 0) =
        some ⟨true, some .DISCONNECTING, none⟩ := by
  refine ⟨(hangup_flag_truthful_iff Env.granting (fun _ => rfl) _).mpr ?_, rfl⟩
  obtain ⟨s, run⟩ : ∃ s, exec (step Env.granting) Card.init numberedCall = some s := ⟨_, rfl⟩
  have before : Meets (step Env.granting) (Sincere Env.granting) Card.init numberedCall := by
    refine ⟨fun _ _ _ _ _ flagged => (Bool.false_ne_true flagged).elim, fun s₁ _ =>
      ⟨fun cmsg decoded => ?_, fun _ _ => trivial⟩⟩
    have message : (capiMessage2cmsg (controllerMsg CAPI_CONNECT_CONF 0 [1, 1, 0, 0] [0, 0])).map cmd =
      some CAPI_CONNECT_CONF := rfl
    rw [decoded, Option.map_some, Option.some.injEq] at message
    constructor
    all_goals exact fun _ other => absurd (message.symm.trans other) (by decide)
  refine before.append run ⟨?_, fun _ _ => trivial⟩
  have view : (exec (step Env.granting) Card.init numberedCall).map (fun s =>
      ((s.bchans 0).nccip, (s.bchans 0).plcip.map fun p => (s.plcis p).map Plci.state)) =
        some (none, some (some .ALLOCATED)) := rfl
  rw [run, Option.map_some, Option.some.injEq, Prod.mk.injEq] at view
  intro chan p plci at_channel _ owner live
  cases at_channel
  have owner : (s.bchans 0).plcip = some p := owner
  rw [owner, Option.map_some, live, Option.map_some, Option.some.injEq, Option.some.injEq] at view
  constructor
  · intro n ncci pointer
    cases view.1.symm.trans pointer
  · intro _
    rw [view.2]
    decide

/-- A dialled call is connected and hung up; the controller refuses to release the connection. -/
def refusedRelease : List Op :=
  [.command (.DIAL 0 .empty .empty 1 0),
   .recv (controllerMsg CAPI_CONNECT_CONF 0 [1, 1, 0, 0] [0, 0]),
   .recv (controllerMsg CAPI_CONNECT_ACTIVE_IND 0 [1, 1, 0, 0] [0, 0, 0]),
   .recv (controllerMsg CAPI_CONNECT_B3_CONF 1 [1, 1, 1, 0] [0, 0]),
   .command (.HANGUP 0),
   .recv (controllerMsg CAPI_DISCONNECT_B3_CONF 2 [1, 1, 1, 0] [1, 0])]

/-- The flag stays, so that the call can not be hung up any more. -/
theorem refused_release_flagged : ¬ Always (step Env.granting) Truthful Card.init refusedRelease := by
  intro always
  obtain ⟨s', run⟩ : ∃ s', exec (step Env.granting) Card.init refusedRelease = some s' := ⟨_, rfl⟩
  have view : (exec (step Env.granting) Card.init refusedRelease).map (fun s => s.view 0) =
      some ⟨true, some .ACTIVE, some .ALLOCATED⟩ := rfl
  rw [run, Option.map_some, Option.some.injEq] at view
  have truthful := truthful_iff.mp (always.last run) 0
  rw [view] at truthful
  rcases truthful rfl with call | ⟨state, conn, ending⟩
  · exact absurd (call .ACTIVE rfl) (by decide)
  · cases conn
    exact absurd ending (by decide)

end Capi4Linux.Capidrv
