import Capi4Linux.Capidrv.Links
import Capi4Linux.Capidrv.Step

/-!
# What the functions of capidrv do

While the records are wired, every function has an outcome, and this module
says which: the state machines move a record to its next state or drop it, and
the handlers are made of these moves.
-/

namespace Capi4Linux.Capidrv
open Bytes Capicore Capiutil

/-! ## The links of a card -/

/-- The links of a card. -/
def Card.links (s : Card) : Links where
  plcip c := (s.bchans c).plcip
  nccip c := (s.bchans c).nccip
  plcis p := (s.plcis p).map fun plci => (plci.chan, plci.ncciList)
  plciNext := s.plciNext
  plciList := s.plciList
  nccis n := (s.nccis n).map fun ncci => (ncci.plcip, ncci.chan)
  ncciNext := s.ncciNext
  freed := s.freed

section Links

variable {s : Card} {p n chan : Nat} {plci plci' : Plci} {ncci ncci' : Ncci} {bchan : Bchan}

/-- A call is among the links with its channel and its connections. -/
theorem links_plcis (live : s.plcis p = some plci) : s.links.plcis p = some (plci.chan, plci.ncciList) := by
  simp only [Card.links, live, Option.map_some]

/-- A connection is among the links with its call and its channel. -/
theorem links_nccis (live : s.nccis n = some ncci) : s.links.nccis n = some (ncci.plcip, ncci.chan) := by
  simp only [Card.links, live, Option.map_some]

/-- A call among the links is on the card. -/
theorem plcis_of_links {c : Nat} {ns : List Nat} (live : s.links.plcis p = some (c, ns)) :
    ∃ plci, s.plcis p = some plci ∧ plci.chan = c ∧ plci.ncciList = ns := by
  obtain ⟨plci, found, same⟩ := Option.map_eq_some_iff.mp live
  simp only [Prod.mk.injEq] at same
  exact ⟨plci, found, same⟩

/-- A connection among the links is on the card. -/
theorem nccis_of_links {q c : Nat} (live : s.links.nccis n = some (q, c)) :
    ∃ ncci, s.nccis n = some ncci ∧ ncci.plcip = q ∧ ncci.chan = c := by
  obtain ⟨ncci, found, same⟩ := Option.map_eq_some_iff.mp live
  simp only [Prod.mk.injEq] at same
  exact ⟨ncci, found, same⟩

/-- A call that keeps its channel and its connections keeps the links. -/
theorem links_setPlci (live : s.plcis p = some plci) (chan : plci'.chan = plci.chan)
    (nccis : plci'.ncciList = plci.ncciList) : (s.setPlci p plci').links = s.links := by
  have same : ∀ q, ((s.setPlci p plci').plcis q).map (fun plci => (plci.chan, plci.ncciList)) =
      (s.plcis q).map fun plci => (plci.chan, plci.ncciList) := by
    intro q
    rcases eq_or_ne q p with rfl | other
    · simp only [Card.setPlci, Function.update_self, live, Option.map_some, chan, nccis]
    · simp only [Card.setPlci, Function.update_of_ne other]
  unfold Card.links
  rw [funext same]
  rfl

/-- A connection that keeps its call and its channel keeps the links. -/
theorem links_setNcci (live : s.nccis n = some ncci) (plcip : ncci'.plcip = ncci.plcip)
    (chan : ncci'.chan = ncci.chan) : (s.setNcci n ncci').links = s.links := by
  have same : ∀ m, ((s.setNcci n ncci').nccis m).map (fun ncci => (ncci.plcip, ncci.chan)) =
      (s.nccis m).map fun ncci => (ncci.plcip, ncci.chan) := by
    intro m
    rcases eq_or_ne m n with rfl | other
    · simp only [Card.setNcci, Function.update_self, live, Option.map_some, chan, plcip]
    · simp only [Card.setNcci, Function.update_of_ne other]
  unfold Card.links
  rw [funext same]
  rfl

/-- A channel that keeps its pointers keeps the links. -/
theorem links_setBchan (plcip : bchan.plcip = (s.bchans chan).plcip) (nccip : bchan.nccip = (s.bchans chan).nccip) :
    (s.setBchan chan bchan).links = s.links := by
  have plcips : ∀ c, ((s.setBchan chan bchan).bchans c).plcip = (s.bchans c).plcip := by
    intro c
    rcases eq_or_ne c chan with rfl | other
    · simp only [Card.setBchan, Function.update_self, plcip]
    · simp only [Card.setBchan, Function.update_of_ne other]
  have nccips : ∀ c, ((s.setBchan chan bchan).bchans c).nccip = (s.bchans c).nccip := by
    intro c
    rcases eq_or_ne c chan with rfl | other
    · simp only [Card.setBchan, Function.update_self, nccip]
    · simp only [Card.setBchan, Function.update_of_ne other]
  unfold Card.links
  rw [funext plcips, funext nccips]
  rfl

@[simp] theorem links_sendMessage (env : Env) (s : Card) (cmsg : Cmsg) : (sendMessage env s cmsg).links = s.links := rfl

@[simp] theorem links_answer (env : Env) (s : Card) (cmsg : Cmsg) : (answer env s cmsg).links = s.links := rfl

@[simp] theorem links_statcallb (s : Card) (status : Status) : (s.statcallb status).links = s.links := rfl

@[simp] theorem links_nextMsgid (s : Card) : s.nextMsgid.links = s.links := rfl

@[simp] theorem links_asked (s : Card) : s.asked.links = s.links := rfl

@[simp] theorem links_listenChangeState (s : Card) (event : ListenEvent) :
    (listenChangeState s event).links = s.links := by
  unfold listenChangeState
  split
  · rfl
  · rfl

end Links

/-! ## Moves of a PLCI -/

def plciChange (state : PlciState) (event : PlciEvent) : Option PlciStateChange :=
  plcitable.find? fun c => c.actstate = state ∧ c.event = event

/-- The record after an event. -/
def Plci.after (plci : Plci) (event : PlciEvent) : Plci :=
  { plci with state := (plciChange plci.state event).elim plci.state PlciStateChange.nextstate }

/-- The event makes `p0` free the record. -/
def Plci.leaves (plci : Plci) (event : PlciEvent) : Bool :=
  (plciChange plci.state event).any PlciStateChange.changefunc

/-- `p0`. -/
def Card.dropPlci (s : Card) (p : Nat) (plci : Plci) : Card :=
  { s.statcallb (.DHUP plci.chan) with
    bchans := Function.update s.bchans plci.chan
      { s.bchans plci.chan with plcip := none, disconnecting := false, incoming := false }
    plciList := s.plciList.erase p
    plcis := Function.update s.plcis p none
    freed := s.freed ++ [p] }

/-- The calls after one was set and then dropped. -/
theorem Card.dropPlci_plcis {s s₀ : Card} {p : Nat} {v : Option Plci} (plcis : s₀.plcis = Function.update s.plcis p v)
    (plci : Plci) : (s₀.dropPlci p plci).plcis = Function.update s.plcis p none := by
  show Function.update s₀.plcis p none = _
  rw [plcis, Function.update_idem]

def Card.movePlci (s : Card) (p : Nat) (plci : Plci) (event : PlciEvent) : Card :=
  if plci.leaves event then s.dropPlci p plci else s.setPlci p (plci.after event)

/-- A transition found is one of `plcitable`. -/
theorem plciChange_some {state : PlciState} {event : PlciEvent} {c : PlciStateChange}
    (found : plciChange state event = some c) : c ∈ plcitable ∧ c.actstate = state ∧ c.event = event := by
  have passes := List.find?_some found
  exact ⟨List.mem_of_find?_eq_some found, of_decide_eq_true passes⟩

/-- Only a request that failed and the end of a call free the record. -/
theorem Plci.leaves_iff (plci : Plci) (event : PlciEvent) : plci.leaves event = true ↔
    (plci.state = .OUTGOING ∧ event = .CONNECT_CONF_ERROR) ∨ (plci.state = .DISCONNECTED ∧ event = .DISCONNECT_RESP) ∨
      (plci.state = .RESUMEING ∧ event = .RESUME_CONF_ERROR) := by
  have table : ∀ c ∈ plcitable, c.changefunc = true →
      (c.actstate = .OUTGOING ∧ c.event = .CONNECT_CONF_ERROR) ∨
        (c.actstate = .DISCONNECTED ∧ c.event = .DISCONNECT_RESP) ∨
        (c.actstate = .RESUMEING ∧ c.event = .RESUME_CONF_ERROR) := by decide
  constructor
  · intro leaves
    obtain ⟨c, found, changefunc⟩ := (Option.any_eq_true _ _).mp leaves
    obtain ⟨member, state, same⟩ := plciChange_some found
    rw [← state, ← same]
    exact table c member changefunc
  · rw [Plci.leaves]
    rintro (⟨state, rfl⟩ | ⟨state, rfl⟩ | ⟨state, rfl⟩)
    · rw [state]
      rfl
    · rw [state]
      rfl
    · rw [state]
      rfl

theorem p0_eq {s : Card} {p : Nat} {plci : Plci} (live : s.plcis p = some plci) (listed : p ∈ s.plciList) :
    p0 s p = some (s.dropPlci p plci) := by
  have live' : (s.statcallb (.DHUP plci.chan)).plcis p = some plci := live
  unfold p0 freePlci
  simp only [live, live', Option.bind_eq_bind, Option.bind_some]
  exact if_pos listed

/-- On a live call the state machine moves it. -/
theorem plciChangeState_eq {s : Card} {p : Nat} {plci : Plci} (live : s.plcis p = some plci) (listed : p ∈ s.plciList)
    (event : PlciEvent) : plciChangeState s p event = some (s.movePlci p plci event) := by
  unfold plciChangeState Card.movePlci Plci.leaves Plci.after plciChange
  simp only [live, Option.bind_eq_bind, Option.bind_some]
  cases found : plcitable.find? fun c => c.actstate = plci.state ∧ c.event = event with
  | none =>
    have same : s.setPlci p plci = s := by rw [Card.setPlci, ← live, Function.update_eq_self]
    exact congrArg some same.symm
  | some c =>
    simp only [Option.any_some, Option.elim_some]
    split
    · let plci' : Plci := { plci with state := c.nextstate }
      have now : (s.setPlci p plci').plcis p = some plci' := Function.update_self _ _ _
      have free := p0_eq now (s := s.setPlci p plci') listed
      show p0 (s.setPlci p plci') p = _
      rw [free]
      simp only [Card.dropPlci, Card.setPlci, Function.update_idem]
      rfl
    · rfl

/-- A call that does not leave only changes state. -/
theorem Card.movePlci_of_stays {s : Card} {p : Nat} {plci : Plci} {event : PlciEvent} (stays : plci.leaves event = false) :
    s.movePlci p plci event = s.setPlci p (plci.after event) := by
  rw [Card.movePlci, stays]
  rfl

/-- Dropping a call clears its channel's pointer and its record. -/
theorem links_dropPlci (s : Card) (p : Nat) (plci : Plci) :
    (s.dropPlci p plci).links = s.links.dropPlci p plci.chan := by
  have plcips : ∀ c, ((s.dropPlci p plci).bchans c).plcip =
      Function.update (fun c => (s.bchans c).plcip) plci.chan none c := by
    intro c
    rcases eq_or_ne c plci.chan with rfl | other
    · simp only [Card.dropPlci, Function.update_self]
    · simp only [Card.dropPlci, Function.update_of_ne other]
  have nccips : ∀ c, ((s.dropPlci p plci).bchans c).nccip = (s.bchans c).nccip := by
    intro c
    rcases eq_or_ne c plci.chan with rfl | other
    · simp only [Card.dropPlci, Function.update_self]
    · simp only [Card.dropPlci, Function.update_of_ne other]
  have calls : ∀ q, ((s.dropPlci p plci).plcis q).map (fun plci => (plci.chan, plci.ncciList)) =
      Function.update (fun q => (s.plcis q).map fun plci => (plci.chan, plci.ncciList)) p none q := by
    intro q
    rcases eq_or_ne q p with rfl | other
    · simp only [Card.dropPlci, Function.update_self, Option.map_none]
    · simp only [Card.dropPlci, Function.update_of_ne other]
  unfold Card.links Links.dropPlci
  rw [funext plcips, funext nccips, funext calls]
  rfl

/-! ## Moves of an NCCI -/

def ncciChange (state : NcciState) (event : NcciEvent) : Option NcciStateChange :=
  nccitable.find? fun c => c.actstate = state ∧ c.event = event

/-- The record after an event. -/
def Ncci.after (ncci : Ncci) (event : NcciEvent) : Ncci :=
  match ncciChange ncci.state event with
  | none => ncci
  | some c => { ncci with state := c.nextstate.getD ncci.oldstate, oldstate := c.actstate }

/-- The event makes `n0` free the record. -/
def Ncci.leaves (ncci : Ncci) (event : NcciEvent) : Bool :=
  (ncciChange ncci.state event).any NcciStateChange.changefunc

/-- `n0`. -/
def Card.dropNcci (env : Env) (s : Card) (n : Nat) (ncci : Ncci) (plci : Plci) : Card :=
  { (sendMessage env s.nextMsgid (capiFillDisconnectReq env.applId s.msgid plci.plci)).statcallb (.BHUP ncci.chan) with
    plcis := Function.update s.plcis ncci.plcip
      (some { plci.after .DISCONNECT_REQ with ncciList := plci.ncciList.erase n })
    bchans := Function.update s.bchans ncci.chan { s.bchans ncci.chan with nccip := none }
    nccis := Function.update s.nccis n none }

/-- The connections after one was set and then dropped. -/
theorem Card.dropNcci_nccis {s s₀ : Card} {n : Nat} {w : Option Ncci} (nccis : s₀.nccis = Function.update s.nccis n w)
    (env : Env) (ncci : Ncci) (plci : Plci) : (s₀.dropNcci env n ncci plci).nccis = Function.update s.nccis n none := by
  show Function.update s₀.nccis n none = _
  rw [nccis, Function.update_idem]

def Card.moveNcci (env : Env) (s : Card) (n : Nat) (ncci : Ncci) (plci : Plci) (event : NcciEvent) : Card :=
  if ncci.leaves event then s.dropNcci env n ncci plci else s.setNcci n (ncci.after event)

/-- A transition found is one of `nccitable`. -/
theorem ncciChange_some {state : NcciState} {event : NcciEvent} {c : NcciStateChange}
    (found : ncciChange state event = some c) : c ∈ nccitable ∧ c.actstate = state ∧ c.event = event := by
  have passes := List.find?_some found
  exact ⟨List.mem_of_find?_eq_some found, of_decide_eq_true passes⟩

/-- Only a request that failed and the end of a connection free the record. -/
theorem Ncci.leaves_iff (ncci : Ncci) (event : NcciEvent) : ncci.leaves event = true ↔
    (ncci.state = .OUTGOING ∧ event = .CONNECT_B3_CONF_ERROR) ∨
      (ncci.state = .DISCONNECTED ∧ event = .DISCONNECT_B3_RESP) := by
  have table : ∀ c ∈ nccitable, c.changefunc = true →
      (c.actstate = .OUTGOING ∧ c.event = .CONNECT_B3_CONF_ERROR) ∨
        (c.actstate = .DISCONNECTED ∧ c.event = .DISCONNECT_B3_RESP) := by decide
  constructor
  · intro leaves
    obtain ⟨c, found, changefunc⟩ := (Option.any_eq_true _ _).mp leaves
    obtain ⟨member, state, same⟩ := ncciChange_some found
    rw [← state, ← same]
    exact table c member changefunc
  · rw [Ncci.leaves]
    rintro (⟨state, rfl⟩ | ⟨state, rfl⟩)
    · rw [state]
      rfl
    · rw [state]
      rfl

@[simp] theorem Ncci.after_plcip (ncci : Ncci) (event : NcciEvent) : (ncci.after event).plcip = ncci.plcip := by
  unfold Ncci.after
  split
  · rfl
  · rfl

@[simp] theorem Ncci.after_chan (ncci : Ncci) (event : NcciEvent) : (ncci.after event).chan = ncci.chan := by
  unfold Ncci.after
  split
  · rfl
  · rfl

/-- A call that is to disconnect stays until it has. -/
theorem Plci.stays_disconnectReq (plci : Plci) : plci.leaves .DISCONNECT_REQ = false := by
  rw [Plci.leaves]
  generalize plci.state = state
  cases state <;> rfl

/-- An event that does not free the record needs no PLCI. -/
theorem ncciChangeState_of_stays (env : Env) {s : Card} {n : Nat} {ncci : Ncci} (live : s.nccis n = some ncci)
    (event : NcciEvent) (stays : ncci.leaves event = false) :
    ncciChangeState env s n event = some (s.setNcci n (ncci.after event)) := by
  unfold ncciChangeState Ncci.after
  unfold Ncci.leaves at stays
  simp only [live, Option.bind_eq_bind, Option.bind_some, ncciChange] at stays ⊢
  cases found : nccitable.find? fun c => c.actstate = ncci.state ∧ c.event = event with
  | none =>
    have same : s.setNcci n ncci = s := by rw [Card.setNcci, ← live, Function.update_eq_self]
    exact congrArg some same.symm
  | some c =>
    rw [found] at stays
    simp only [Option.any_some] at stays
    simp only [stays]
    rfl

/-- Freeing a connection takes it off its call. -/
theorem freeNcci_eq {s : Card} {n : Nat} {ncci : Ncci} {plci : Plci} (live : s.nccis n = some ncci)
    (call : s.plcis ncci.plcip = some plci) : freeNcci s n = some
      { s with
        plcis := Function.update s.plcis ncci.plcip (some { plci with ncciList := plci.ncciList.erase n })
        bchans := Function.update s.bchans ncci.chan { s.bchans ncci.chan with nccip := none }
        nccis := Function.update s.nccis n none } := by
  unfold freeNcci
  simp only [live, call, Option.bind_eq_bind, Option.bind_some]
  rfl

theorem n0_eq (env : Env) {s : Card} {n : Nat} {ncci : Ncci} {plci : Plci} (live : s.nccis n = some ncci)
    (call : s.plcis ncci.plcip = some plci) (listed : ncci.plcip ∈ s.plciList) :
    n0 env s n = some (s.dropNcci env n ncci plci) := by
  let s₁ := sendMessage env s.nextMsgid (capiFillDisconnectReq env.applId s.msgid plci.plci)
  let s₂ := s₁.setPlci ncci.plcip (plci.after .DISCONNECT_REQ)
  have change : plciChangeState s₁ ncci.plcip .DISCONNECT_REQ = some s₂ := by
    have moved := plciChangeState_eq (s := s₁) call listed .DISCONNECT_REQ
    rwa [Card.movePlci_of_stays plci.stays_disconnectReq] at moved
  have call₂ : (s₂.statcallb (.BHUP ncci.chan)).plcis ncci.plcip = some (plci.after .DISCONNECT_REQ) :=
    Function.update_self _ _ _
  have free := freeNcci_eq (s := s₂.statcallb (.BHUP ncci.chan)) (n := n) live call₂
  unfold n0
  simp only [live, call, Option.bind_eq_bind, Option.bind_some]
  show (plciChangeState s₁ ncci.plcip .DISCONNECT_REQ).bind _ = _
  rw [change, Option.bind_some, free]
  simp only [s₂, Card.statcallb, Card.setPlci, Function.update_idem]
  rfl

/-- On a live connection the state machine moves it. -/
theorem ncciChangeState_eq {env : Env} {s : Card} {n : Nat} {ncci : Ncci} {plci : Plci}
    (live : s.nccis n = some ncci) (call : s.plcis ncci.plcip = some plci) (listed : ncci.plcip ∈ s.plciList)
    (event : NcciEvent) : ncciChangeState env s n event = some (s.moveNcci env n ncci plci event) := by
  unfold Card.moveNcci
  split
  · rename_i leaves
    obtain ⟨c, found, changefunc⟩ := (Option.any_eq_true _ _).mp leaves
    let ncci' : Ncci := { ncci with state := c.nextstate.getD ncci.oldstate, oldstate := c.actstate }
    have now : (s.setNcci n ncci').nccis n = some ncci' := Function.update_self _ _ _
    have free := n0_eq env (s := s.setNcci n ncci') now call listed
    unfold ncciChange at found
    unfold ncciChangeState
    simp only [live, Option.bind_eq_bind, Option.bind_some, found, changefunc, if_true]
    rw [free]
    simp only [Card.dropNcci, Card.setNcci, Function.update_idem]
    rfl
  · rename_i stays
    exact ncciChangeState_of_stays env live event (Bool.eq_false_iff.mpr stays)

/-- Dropping a connection clears its channel's pointer, its call's list and its record. -/
theorem links_dropNcci (env : Env) {s : Card} {n : Nat} {ncci : Ncci} {plci : Plci} (chan : ncci.chan = plci.chan) :
    (s.dropNcci env n ncci plci).links = s.links.dropNcci n ncci.plcip plci.chan plci.ncciList := by
  have plcips : ∀ c, ((s.dropNcci env n ncci plci).bchans c).plcip = (s.bchans c).plcip := by
    intro c
    rcases eq_or_ne c ncci.chan with rfl | other
    · simp only [Card.dropNcci, Function.update_self]
    · simp only [Card.dropNcci, Function.update_of_ne other]
  have nccips : ∀ c, ((s.dropNcci env n ncci plci).bchans c).nccip =
      Function.update (fun c => (s.bchans c).nccip) plci.chan none c := by
    intro c
    rw [← chan]
    rcases eq_or_ne c ncci.chan with rfl | other
    · simp only [Card.dropNcci, Function.update_self]
    · simp only [Card.dropNcci, Function.update_of_ne other]
  have calls : ∀ q, ((s.dropNcci env n ncci plci).plcis q).map (fun plci => (plci.chan, plci.ncciList)) =
      Function.update (fun q => (s.plcis q).map fun plci => (plci.chan, plci.ncciList)) ncci.plcip
        (some (plci.chan, plci.ncciList.erase n)) q := by
    intro q
    rcases eq_or_ne q ncci.plcip with rfl | other
    · simp only [Card.dropNcci, Function.update_self, Option.map_some, Plci.after]
    · simp only [Card.dropNcci, Function.update_of_ne other]
  have conns : ∀ m, ((s.dropNcci env n ncci plci).nccis m).map (fun ncci => (ncci.plcip, ncci.chan)) =
      Function.update (fun m => (s.nccis m).map fun ncci => (ncci.plcip, ncci.chan)) n none m := by
    intro m
    rcases eq_or_ne m n with rfl | other
    · simp only [Card.dropNcci, Function.update_self, Option.map_none]
    · simp only [Card.dropNcci, Function.update_of_ne other]
  unfold Card.links Links.dropNcci
  rw [funext plcips, funext nccips, funext calls, funext conns]
  rfl

end Capi4Linux.Capidrv
