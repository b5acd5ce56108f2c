import Capi4Linux.Capidrv.Outcomes

/-!
# Phases

Between two steps the records of a card are wired, and a call or a connection
is in one of a few states of its table.
-/

namespace Capi4Linux.Capidrv
open Bytes Capicore Capiutil

/-! ## Phases -/

def plciPhases : List PlciState := [.OUTGOING, .ALLOCATED, .ACTIVE, .INCOMING, .ACCEPTING, .DISCONNECTING]

def ncciPhases : List NcciState := [.OUTGOING, .ALLOCATED, .ACTIVE, .DISCONNECTING]

/-- A call between two steps; the controller has not given an outgoing call its number yet. -/
structure Plci.Phased (plci : Plci) : Prop where
  state : plci.state ∈ plciPhases
  number : plci.state = .OUTGOING → plci.plci = 0

/-- A connection between two steps; a disconnect request that fails takes it back. -/
structure Ncci.Phased (ncci : Ncci) : Prop where
  state : ncci.state ∈ ncciPhases
  oldstate : ncci.state = .DISCONNECTING → ncci.oldstate ∈ [NcciState.ALLOCATED, .ACTIVE]

section Phases

variable {plci : Plci} {ncci : Ncci}

/-- The events of a call keep it in the driver's phases. -/
theorem Plci.Phased.after (phased : plci.Phased) {event : PlciEvent} (safe : event ∈ [PlciEvent.CONNECT_CONF_OK,
    .CONNECT_ACTIVE_IND, .CONNECT_REJECT, .DISCONNECT_REQ, .CONNECT_RESP]) : (plci.after event).Phased := by
  have table : ∀ c ∈ plcitable, c.event ∈ [PlciEvent.CONNECT_CONF_OK, .CONNECT_ACTIVE_IND, .CONNECT_REJECT,
      .DISCONNECT_REQ, .CONNECT_RESP] → c.actstate ∈ plciPhases → c.nextstate ∈ plciPhases ∧ c.nextstate ≠ .OUTGOING := by
    decide
  unfold Plci.after
  cases found : plciChange plci.state event with
  | none => exact phased
  | some c =>
    obtain ⟨member, state, same⟩ := plciChange_some found
    obtain ⟨next, known⟩ := table c member (same ▸ safe) (state ▸ phased.state)
    exact ⟨next, fun outgoing => absurd outgoing known⟩

/-- A confirmation gives a call its number. -/
theorem Plci.Phased.numbered (phased : plci.Phased) (x : UInt32) :
    (Plci.after { plci with plci := x } .CONNECT_CONF_OK).Phased := by
  have moved : (plci.after .CONNECT_CONF_OK).Phased := phased.after List.mem_cons_self
  refine ⟨moved.state, ?_⟩
  intro outgoing
  have known : plci.state ≠ .OUTGOING := by
    intro state
    rw [Plci.after, state] at outgoing
    cases outgoing
  have only : ∀ c ∈ plcitable, c.event = .CONNECT_CONF_OK → c.nextstate ≠ .OUTGOING := by decide
  rw [Plci.after] at outgoing
  cases found : plciChange plci.state .CONNECT_CONF_OK with
  | none =>
    rw [found] at outgoing
    exact absurd outgoing known
  | some c =>
    rw [found] at outgoing
    obtain ⟨member, -, same⟩ := plciChange_some found
    exact absurd outgoing (only c member same)

theorem Plci.after_of_error (other : plci.state ≠ .OUTGOING) : plci.after .CONNECT_CONF_ERROR = plci := by
  have only : ∀ c ∈ plcitable, c.event = .CONNECT_CONF_ERROR → c.actstate = .OUTGOING := by decide
  unfold Plci.after
  cases found : plciChange plci.state .CONNECT_CONF_ERROR with
  | none => rfl
  | some c =>
    obtain ⟨member, state, same⟩ := plciChange_some found
    exact absurd (state.symm.trans (only c member same)) other

/-- The end of a call releases it, unless it has no number yet. -/
theorem Plci.Phased.leaves (phased : plci.Phased) (known : plci.plci ≠ 0) :
    (plci.after .DISCONNECT_IND).leaves .DISCONNECT_RESP = true := by
  have table : ∀ state ∈ plciPhases, state ≠ .OUTGOING →
      (plciChange state .DISCONNECT_IND).map PlciStateChange.nextstate = some .DISCONNECTED := by decide
  obtain ⟨c, found, next⟩ := Option.map_eq_some_iff.mp
    (table plci.state phased.state fun outgoing => known (phased.number outgoing))
  apply (Plci.leaves_iff _ _).mpr
  refine .inr (.inl ⟨?_, rfl⟩)
  rw [Plci.after, found]
  exact next

/-- The events of a connection keep it in the driver's phases. -/
theorem Ncci.Phased.after (phased : ncci.Phased) {event : NcciEvent} (safe : event ∈ [NcciEvent.CONNECT_B3_CONF_OK,
    .CONNECT_B3_ACTIVE_IND, .RESET_B3_IND, .DISCONNECT_B3_CONF_ERROR, .DISCONNECT_B3_REQ]) :
    (ncci.after event).Phased := by
  have table : ∀ c ∈ nccitable, c.event ∈ [NcciEvent.CONNECT_B3_CONF_OK, .CONNECT_B3_ACTIVE_IND, .RESET_B3_IND,
      .DISCONNECT_B3_CONF_ERROR, .DISCONNECT_B3_REQ] → c.actstate ∈ ncciPhases →
      (c.nextstate = none → c.actstate = .DISCONNECTING) ∧ c.nextstate.getD .ALLOCATED ∈ ncciPhases ∧
        (c.nextstate = some .DISCONNECTING → c.actstate ∈ [NcciState.ALLOCATED, .ACTIVE]) := by decide
  unfold Ncci.after
  cases found : ncciChange ncci.state event with
  | none => exact phased
  | some c =>
    obtain ⟨member, state, same⟩ := ncciChange_some found
    obtain ⟨previous, phase, going⟩ := table c member (same ▸ safe) (state ▸ phased.state)
    cases next : c.nextstate with
    | none =>
      have old := phased.oldstate (state ▸ previous next)
      have back : ∀ state ∈ [NcciState.ALLOCATED, .ACTIVE], state ∈ ncciPhases ∧ state ≠ .DISCONNECTING := by decide
      obtain ⟨phase', ended⟩ := back _ old
      refine ⟨?_, fun disconnecting => ?_⟩
      · simp only [next, Option.getD_none, phase']
      · simp only [next, Option.getD_none] at disconnecting
        exact absurd disconnecting ended
    | some st =>
      rw [next, Option.getD_some] at phase
      refine ⟨?_, fun disconnecting => ?_⟩
      · simp only [next, Option.getD_some, phase]
      · simp only [next, Option.getD_some] at disconnecting
        exact going (next.trans (congrArg some disconnecting))

theorem Ncci.after_of_error (other : ncci.state ≠ .OUTGOING) : ncci.after .CONNECT_B3_CONF_ERROR = ncci := by
  have only : ∀ c ∈ nccitable, c.event = .CONNECT_B3_CONF_ERROR → c.actstate = .OUTGOING := by decide
  unfold Ncci.after
  cases found : ncciChange ncci.state .CONNECT_B3_CONF_ERROR with
  | none => rfl
  | some c =>
    obtain ⟨member, state, same⟩ := ncciChange_some found
    exact absurd (state.symm.trans (only c member same)) other

/-- The end of a connection releases it, unless it is requested only. -/
theorem Ncci.Phased.leaves (phased : ncci.Phased) (known : ncci.state ≠ .OUTGOING) :
    (ncci.after .DISCONNECT_B3_IND).leaves .DISCONNECT_B3_RESP = true := by
  have table : ∀ state ∈ ncciPhases, state ≠ .OUTGOING →
      (ncciChange state .DISCONNECT_B3_IND).map NcciStateChange.nextstate = some (some .DISCONNECTED) := by decide
  obtain ⟨c, found, next⟩ := Option.map_eq_some_iff.mp (table ncci.state phased.state known)
  apply (Ncci.leaves_iff _ _).mpr
  refine .inr ⟨?_, rfl⟩
  unfold Ncci.after
  simp only [found, next, Option.getD_some]

/-- A requested connection waits for its confirmation. -/
theorem Ncci.after_requested {ncci : Ncci} (requested : ncci.state = .OUTGOING) {event : NcciEvent}
    (other : event ≠ .CONNECT_B3_CONF_OK ∧ event ≠ .CONNECT_B3_CONF_ERROR) : (ncci.after event).state = .OUTGOING := by
  have table : ∀ c ∈ nccitable, c.actstate = .OUTGOING →
      c.event = .CONNECT_B3_CONF_OK ∨ c.event = .CONNECT_B3_CONF_ERROR := by decide
  unfold Ncci.after
  cases found : ncciChange ncci.state event with
  | none => exact requested
  | some c =>
    obtain ⟨member, state, same⟩ := ncciChange_some found
    rcases table c member (state.trans requested) with eq | eq
    · exact absurd (same.symm.trans eq) other.1
    · exact absurd (same.symm.trans eq) other.2

theorem Ncci.after_of_requested (requested : ncci.state = .OUTGOING) : ncci.after .DISCONNECT_B3_IND = ncci := by
  unfold Ncci.after
  rw [requested]
  rfl

end Phases

structure Card.Phased (s : Card) : Prop where
  plcis : ∀ p plci, s.plcis p = some plci → plci.Phased
  nccis : ∀ n ncci, s.nccis n = some ncci → ncci.Phased

/-- A card between two steps. -/
structure Valid (env : Env) (s : Card) : Prop extends s.Phased where
  wired : Wired env.nbchan s.links

/-! ## The messages that depend on the phase -/

section Messages

variable {env : Env} {s : Card} {cmsg : Cmsg} {p n : Nat} {plci : Plci} {ncci : Ncci}

/-- DISCONNECT_IND drops a call with a number. -/
theorem disconnectInd_drops (found : findPlciByPlci s cmsg.adr = some (p, plci)) (phased : plci.Phased)
    (known : cmsg.adr ≠ 0) : disconnectInd env s cmsg = some
      ((answer env ((s.flag plci.chan).setPlci p (plci.after .DISCONNECT_IND)) cmsg).dropPlci p
        (plci.after .DISCONNECT_IND)) := by
  obtain ⟨-, -, same⟩ := findPlci_some found
  have leaves := phased.leaves (of_decide_eq_true same ▸ known)
  rw [disconnectInd_eq env found, Card.movePlci, leaves]
  rfl

/-- CONNECT_CONF without an error gives the call its number. -/
theorem connectConf_fine (found : findPlciByMsgid s cmsg.messagenumber = some (p, plci)) (fine : cmsg.word .info = 0) :
    connectConf s cmsg = some (s.setPlci p (Plci.after { plci with plci := cmsg.adr } .CONNECT_CONF_OK)) := by
  rw [connectConf_eq found, if_neg (not_not.mpr fine), Card.movePlci_of_stays (Plci.stays (by decide))]
  simp only [Card.setPlci, Function.update_idem]

/-- CONNECT_CONF with an error drops a call still requested. -/
theorem connectConf_failed (found : findPlciByMsgid s cmsg.messagenumber = some (p, plci))
    (error : cmsg.word .info ≠ 0) (requested : plci.state = .OUTGOING) : connectConf s cmsg =
      some ((s.setPlci p { plci with plci := cmsg.adr }).dropPlci p { plci with plci := cmsg.adr }) := by
  have leaves : Plci.leaves { plci with plci := cmsg.adr } .CONNECT_CONF_ERROR = true :=
    (Plci.leaves_iff _ _).mpr (.inl ⟨requested, rfl⟩)
  rw [connectConf_eq found, if_pos error, Card.movePlci, leaves]
  rfl

/-- CONNECT_CONF with an error only gives any other call a number. -/
theorem connectConf_renumbers (found : findPlciByMsgid s cmsg.messagenumber = some (p, plci))
    (error : cmsg.word .info ≠ 0) (known : plci.state ≠ .OUTGOING) :
    connectConf s cmsg = some (s.setPlci p { plci with plci := cmsg.adr }) := by
  have stays : Plci.leaves { plci with plci := cmsg.adr } .CONNECT_CONF_ERROR = false := by
    apply Bool.eq_false_iff.mpr
    intro leaves
    rcases (Plci.leaves_iff _ _).mp leaves with ⟨outgoing, -⟩ | ⟨-, same⟩ | ⟨-, same⟩
    · exact known outgoing
    · cases same
    · cases same
  have same : Plci.after { plci with plci := cmsg.adr } .CONNECT_CONF_ERROR = { plci with plci := cmsg.adr } :=
    Plci.after_of_error known
  rw [connectConf_eq found, if_pos error, Card.movePlci_of_stays stays, same]
  simp only [Card.setPlci, Function.update_idem]

/-- CONNECT_B3_CONF without an error gives the connection its number. -/
theorem connectB3Conf_fine (found : findNcciByMsgid s cmsg.adr cmsg.messagenumber = some (n, ncci))
    (conn : Conn s n ncci plci) (fine : cmsg.word .info = 0) : connectB3Conf env s cmsg =
      some (s.setNcci n (Ncci.after { ncci with ncci := cmsg.adr } .CONNECT_B3_CONF_OK)) := by
  rw [connectB3Conf_eq env found conn, if_neg (not_not.mpr fine), Card.moveNcci_of_stays (Ncci.stays (by decide))]
  simp only [Card.setNcci, Function.update_idem]

/-- CONNECT_B3_CONF with an error drops a connection still requested. -/
theorem connectB3Conf_failed (found : findNcciByMsgid s cmsg.adr cmsg.messagenumber = some (n, ncci))
    (conn : Conn s n ncci plci) (error : cmsg.word .info ≠ 0) (requested : ncci.state = .OUTGOING) :
    connectB3Conf env s cmsg =
      some ((s.setNcci n { ncci with ncci := cmsg.adr }).dropNcci env n { ncci with ncci := cmsg.adr } plci) := by
  have leaves : Ncci.leaves { ncci with ncci := cmsg.adr } .CONNECT_B3_CONF_ERROR = true :=
    (Ncci.leaves_iff _ _).mpr (.inl ⟨requested, rfl⟩)
  rw [connectB3Conf_eq env found conn, if_pos error, Card.moveNcci, leaves]
  rfl

/-- CONNECT_B3_CONF with an error only gives any other connection a number. -/
theorem connectB3Conf_renumbers (found : findNcciByMsgid s cmsg.adr cmsg.messagenumber = some (n, ncci))
    (conn : Conn s n ncci plci) (error : cmsg.word .info ≠ 0) (known : ncci.state ≠ .OUTGOING) :
    connectB3Conf env s cmsg = some (s.setNcci n { ncci with ncci := cmsg.adr }) := by
  have stays : Ncci.leaves { ncci with ncci := cmsg.adr } .CONNECT_B3_CONF_ERROR = false := by
    apply Bool.eq_false_iff.mpr
    intro leaves
    rcases (Ncci.leaves_iff _ _).mp leaves with ⟨outgoing, -⟩ | ⟨-, same⟩
    · exact known outgoing
    · cases same
  have same : Ncci.after { ncci with ncci := cmsg.adr } .CONNECT_B3_CONF_ERROR = { ncci with ncci := cmsg.adr } :=
    Ncci.after_of_error known
  rw [connectB3Conf_eq env found conn, if_pos error, Card.moveNcci_of_stays stays, same]
  simp only [Card.setNcci, Function.update_idem]

/-- DISCONNECT_B3_IND drops a connection that is not only requested. -/
theorem disconnectB3Ind_drops (found : findNcci s cmsg.adr = some (n, ncci)) (conn : Conn s n ncci plci)
    (phased : ncci.Phased) (known : ncci.state ≠ .OUTGOING) : disconnectB3Ind env s cmsg = some
      ((answer env ((s.flag ncci.chan).setNcci n (ncci.after .DISCONNECT_B3_IND)) cmsg).dropNcci env n
        (ncci.after .DISCONNECT_B3_IND) plci) := by
  rw [disconnectB3Ind_eq env found conn, Card.moveNcci, phased.leaves known]
  rfl

/-- DISCONNECT_B3_IND leaves a connection still requested in place. -/
theorem disconnectB3Ind_early (found : findNcci s cmsg.adr = some (n, ncci)) (conn : Conn s n ncci plci)
    (requested : ncci.state = .OUTGOING) :
    disconnectB3Ind env s cmsg = some (answer env (s.flag ncci.chan) cmsg) := by
  have stays : ncci.leaves .DISCONNECT_B3_RESP = false := by
    rw [Ncci.leaves, requested]
    rfl
  have kept : ncci.after .DISCONNECT_B3_RESP = ncci := by
    rw [Ncci.after, requested]
    rfl
  have same : Function.update s.nccis n (some ncci) = s.nccis := by rw [← conn.live, Function.update_eq_self]
  rw [disconnectB3Ind_eq env found conn, Ncci.after_of_requested requested, Card.moveNcci_of_stays stays, kept]
  simp only [Card.setNcci, answer, sendMessage, putCapiMessage, Card.flag, Card.setBchan, same]

end Messages

end Capi4Linux.Capidrv
