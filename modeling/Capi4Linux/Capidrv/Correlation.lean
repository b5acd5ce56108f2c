import Capi4Linux.Capidrv.Valid

/-!
# Confirmations

A request waits for a confirmation with its message number. The confirmation is
given to a handler by the width of its address, and the handler takes the first
listed record with the number: that is the record of the request unless another
one in front of it carries the number too.
-/

namespace Capi4Linux.Capidrv
open Bytes Capicore Capiutil Machine

/-! ## First on a list -/

/-- The first of a list of which the test holds. -/
def FirstOf {α : Type*} (l : List α) (test : α → Prop) (a : α) : Prop :=
  ∃ l₁ l₂, l = l₁ ++ a :: l₂ ∧ test a ∧ ∀ b ∈ l₁, ¬ test b

/-- A search for a record with a property finds the first one that has it. -/
theorem findSome?_iff_firstOf {α β : Type*} {l : List α} {record : α → Option β} {test : β → Bool} {P : β → Prop}
    (tests : ∀ b, test b = true ↔ P b) {a : α} {b : β} :
    (l.findSome? fun a => (record a).bind fun b => if test b then some (a, b) else none) = some (a, b) ↔
      record a = some b ∧ FirstOf l (fun a => ∃ b, record a = some b ∧ P b) a := by
  have looks : ∀ a' b', ((record a').bind fun b => if test b then some (a', b) else none) = some b' ↔
      ∃ b, record a' = some b ∧ P b ∧ b' = (a', b) := by
    intro a' b'
    rw [Option.bind_eq_some_iff]
    constructor
    · intro ⟨b, live, passes⟩
      split at passes
      · rename_i ok
        exact ⟨b, live, (tests b).mp ok, (Option.some.inj passes).symm⟩
      · cases passes
    · intro ⟨b, live, ok, same⟩
      exact ⟨b, live, by rw [if_pos ((tests b).mpr ok), same]⟩
  have misses : ∀ a', ((record a').bind fun b => if test b then some (a', b) else none) = none ↔
      ¬ ∃ b, record a' = some b ∧ P b := by
    intro a'
    rw [Option.eq_none_iff_forall_ne_some]
    constructor
    · intro none ⟨b, live, ok⟩
      exact none (a', b) ((looks a' _).mpr ⟨b, live, ok, rfl⟩)
    · intro none b' found
      obtain ⟨b, live, ok, -⟩ := (looks a' b').mp found
      exact none ⟨b, live, ok⟩
  rw [List.findSome?_eq_some_iff]
  constructor
  · intro ⟨l₁, a', l₂, split, found, before⟩
    obtain ⟨b', live, ok, same⟩ := (looks a' _).mp found
    cases same
    exact ⟨live, l₁, l₂, split, ⟨b, live, ok⟩, fun c member => (misses c).mp (before c member)⟩
  · intro ⟨live, l₁, l₂, split, ⟨b', live', ok⟩, before⟩
    cases live.symm.trans live'
    exact ⟨l₁, a, l₂, split, (looks a _).mpr ⟨b, live, ok, rfl⟩, fun c member => (misses c).mpr (before c member)⟩

/-! ## What a confirmation does -/

/-- The first listed call with the message number. -/
def Card.FirstCall (s : Card) (m : UInt16) : Nat → Prop :=
  FirstOf s.plciList fun p => ∃ plci, s.plcis p = some plci ∧ plci.msgid = m

/-- The first connection with the message number of the first listed call with the number in the NCCI. -/
def Card.FirstConn (s : Card) (x : UInt32) (m : UInt16) (n : Nat) : Prop :=
  ∃ p plci, s.plcis p = some plci ∧
    FirstOf s.plciList (fun p => ∃ plci, s.plcis p = some plci ∧ plci.plci = x &&& 0xffff) p ∧
    FirstOf plci.ncciList (fun n => ∃ ncci, s.nccis n = some ncci ∧ ncci.msgid = m) n

/-- A CONNECT_CONF numbers the call of its request, or frees it with its channel; no other record changes. -/
structure ConnectAnswered (cmsg : Cmsg) (s : Card) (p : Nat) (s' : Card) : Prop where
  others : ∀ q, q ≠ p → s'.plcis q = s.plcis q
  nccis : s'.nccis = s.nccis
  fine : cmsg.word .info = 0 → ∃ plci, s.plcis p = some plci ∧
    s'.plcis p = some { plci with plci := cmsg.adr, state := .ALLOCATED } ∧ s'.bchans = s.bchans
  failed : cmsg.word .info ≠ 0 → ∃ plci, s.plcis p = some plci ∧ s'.plcis p = none ∧ p ∈ s'.freed ∧
    (s'.bchans plci.chan).plcip = none ∧ ∀ c, c ≠ plci.chan → s'.bchans c = s.bchans c

/-- A CONNECT_B3_CONF numbers the connection of its request, or frees it; no other connection changes. -/
structure ConnectB3Answered (cmsg : Cmsg) (s : Card) (n : Nat) (s' : Card) : Prop where
  others : ∀ m, m ≠ n → s'.nccis m = s.nccis m
  fine : cmsg.word .info = 0 → ∃ ncci, s.nccis n = some ncci ∧
    s'.nccis n = some { ncci with ncci := cmsg.adr, state := .ALLOCATED, oldstate := .OUTGOING } ∧
    s'.plcis = s.plcis ∧ s'.bchans = s.bchans
  failed : cmsg.word .info ≠ 0 → ∃ ncci, s.nccis n = some ncci ∧ s'.nccis n = none ∧
    (s'.bchans ncci.chan).nccip = none ∧ ∀ q, q ≠ ncci.plcip → s'.plcis q = s.plcis q

/-- A confirmation of the controller of the card acts on the record of each request that waits with its message
number. One that is fine carries a PLCI or an NCCI; one with an error may carry any address. -/
def Correlates (env : Env) (s : Card) : Op → Card → Prop
  | .recv msg, s' => ∀ cmsg, capiMessage2cmsg msg = some cmsg → cmsg.adr &&& 0x7f = env.contrnr →
      (cmd cmsg = CAPI_CONNECT_CONF → (cmsg.word .info = 0 → toPlci env cmsg) →
        ∀ p, (cmsg.messagenumber, .plci p) ∈ s.outstanding → ConnectAnswered cmsg s p s') ∧
      (cmd cmsg = CAPI_CONNECT_B3_CONF → (cmsg.word .info = 0 → toNcci env cmsg) →
        ∀ n, (cmsg.messagenumber, .ncci n) ∈ s.outstanding → ConnectB3Answered cmsg s n s')
  | _, _ => True

/-- Such a confirmation carries a PLCI or an NCCI also when it has an error, and no record in front of that of the
request has the message number. -/
def Matched (env : Env) (s : Card) : Op → Prop
  | .recv msg => ∀ cmsg, capiMessage2cmsg msg = some cmsg → cmsg.adr &&& 0x7f = env.contrnr →
      (cmd cmsg = CAPI_CONNECT_CONF → (cmsg.word .info = 0 → toPlci env cmsg) →
        ∀ p, (cmsg.messagenumber, .plci p) ∈ s.outstanding → toPlci env cmsg ∧ s.FirstCall cmsg.messagenumber p) ∧
      (cmd cmsg = CAPI_CONNECT_B3_CONF → (cmsg.word .info = 0 → toNcci env cmsg) →
        ∀ n, (cmsg.messagenumber, .ncci n) ∈ s.outstanding →
          toNcci env cmsg ∧ s.FirstConn cmsg.adr cmsg.messagenumber n)
  | _ => True

section Lookups

variable {s : Card} {m : UInt16} {x : UInt32} {p n : Nat} {plci : Plci} {ncci : Ncci}

/-- The search by message number finds the first call of the list that bears it. -/
theorem findPlciByMsgid_iff : findPlciByMsgid s m = some (p, plci) ↔ s.plcis p = some plci ∧ s.FirstCall m p :=
  findSome?_iff_firstOf fun _ => decide_eq_true_iff

/-- The search by an NCCI finds the first call whose number is the NCCI's low word. -/
theorem findPlciByNcci_iff : findPlciByNcci s x = some (p, plci) ↔ s.plcis p = some plci ∧
    FirstOf s.plciList (fun p => ∃ plci, s.plcis p = some plci ∧ plci.plci = x &&& 0xffff) p :=
  findSome?_iff_firstOf fun _ => decide_eq_true_iff

/-- Among the connections of the call an NCCI belongs to, the search by message number finds the first. -/
theorem findNcciByMsgid_iff :
    findNcciByMsgid s x m = some (n, ncci) ↔ s.nccis n = some ncci ∧ s.FirstConn x m n := by
  have inner : ∀ plci : Plci, (findNcciOf s plci fun nccip => nccip.msgid = m) = some (n, ncci) ↔ s.nccis n = some ncci ∧
      FirstOf plci.ncciList (fun n => ∃ ncci, s.nccis n = some ncci ∧ ncci.msgid = m) n := by
    intro plci
    exact findSome?_iff_firstOf fun _ => decide_eq_true_iff
  unfold findNcciByMsgid
  rw [Option.bind_eq_some_iff]
  constructor
  · intro ⟨⟨p, plci⟩, call, conn⟩
    obtain ⟨live, first⟩ := findPlciByNcci_iff.mp call
    obtain ⟨live', first'⟩ := (inner plci).mp conn
    exact ⟨live', p, plci, live, first, first'⟩
  · intro ⟨live', p, plci, live, first, first'⟩
    exact ⟨(p, plci), findPlciByNcci_iff.mpr ⟨live, first⟩, (inner plci).mpr ⟨live', first'⟩⟩

end Lookups

/-! ## Requests that wait -/

/-- The record of a request is there, and it waits for its confirmation with the message number. -/
def Awaited (s : Card) : UInt16 × Call → Prop
  | (m, .plci p) => ∃ plci, s.plcis p = some plci ∧ plci.msgid = m ∧ plci.state = .OUTGOING
  | (m, .ncci n) => ∃ ncci, s.nccis n = some ncci ∧ ncci.msgid = m ∧ ncci.state = .OUTGOING

/-- Requests that wait go on waiting, except some. -/
structure Lasts (kept : UInt16 × Call → Prop) (s s' : Card) : Prop where
  plcis : ∀ p plci, s.plcis p = some plci → plci.state = .OUTGOING → kept (plci.msgid, .plci p) →
    ∃ plci', s'.plcis p = some plci' ∧ plci'.msgid = plci.msgid ∧ plci'.state = .OUTGOING
  nccis : ∀ n ncci, s.nccis n = some ncci → ncci.state = .OUTGOING → kept (ncci.msgid, .ncci n) →
    ∃ ncci', s'.nccis n = some ncci' ∧ ncci'.msgid = ncci.msgid ∧ ncci'.state = .OUTGOING

section Waiting

variable {env : Env} {s s' s'' : Card} {kept : UInt16 × Call → Prop} {p n : Nat} {plci plci' : Plci} {ncci ncci' : Ncci}

/-- What lasts keeps an awaited confirmation awaited. -/
theorem Lasts.awaited (lasts : Lasts kept s s') {e : UInt16 × Call} (awaited : Awaited s e) (here : kept e) :
    Awaited s' e := by
  obtain ⟨m, call⟩ := e
  cases call with
  | plci p =>
    obtain ⟨plci, live, rfl, requested⟩ := awaited
    exact lasts.plcis p plci live requested here
  | ncci n =>
    obtain ⟨ncci, live, rfl, requested⟩ := awaited
    exact lasts.nccis n ncci live requested here

/-- Where no record changes, every request lasts. -/
theorem Lasts.of_eq (kept : UInt16 × Call → Prop) (plcis : s'.plcis = s.plcis) (nccis : s'.nccis = s.nccis) :
    Lasts kept s s' := by
  constructor
  · intro p plci live requested _
    exact ⟨plci, by rw [plcis, live], rfl, requested⟩
  · intro n ncci live requested _
    exact ⟨ncci, by rw [nccis, live], rfl, requested⟩

theorem Lasts.trans (lasts : Lasts kept s s') (lasts' : Lasts kept s' s'') : Lasts kept s s'' := by
  constructor
  · intro p plci live requested here
    obtain ⟨plci', live', same, requested'⟩ := lasts.plcis p plci live requested here
    obtain ⟨plci'', live'', same', requested''⟩ := lasts'.plcis p plci' live' requested' (same ▸ here)
    exact ⟨plci'', live'', same'.trans same, requested''⟩
  · intro n ncci live requested here
    obtain ⟨ncci', live', same, requested'⟩ := lasts.nccis n ncci live requested here
    obtain ⟨ncci'', live'', same', requested''⟩ := lasts'.nccis n ncci' live' requested' (same ▸ here)
    exact ⟨ncci'', live'', same'.trans same, requested''⟩

theorem Lasts.calm (kept : UInt16 × Call → Prop) (calm : Calm s s') : Lasts kept s s' := by
  constructor
  · intro p plci live requested _
    exact ⟨plci, by rw [calm.plcis, live], rfl, requested⟩
  · intro n ncci live requested _
    obtain ⟨ncci', live', same⟩ := calm.after live
    obtain ⟨-, -, msgid, -, state, -⟩ := Ncci.of_still same
    exact ⟨ncci', live', msgid, state.trans requested⟩

/-- The record of one call and that of one connection change. -/
theorem Lasts.update {v : Option Plci} {w : Option Ncci} (plcis : s'.plcis = Function.update s.plcis p v)
    (nccis : s'.nccis = Function.update s.nccis n w)
    (call : ∀ plci, s.plcis p = some plci → plci.state = .OUTGOING → kept (plci.msgid, .plci p) →
      ∃ plci', v = some plci' ∧ plci'.msgid = plci.msgid ∧ plci'.state = .OUTGOING)
    (conn : ∀ ncci, s.nccis n = some ncci → ncci.state = .OUTGOING → kept (ncci.msgid, .ncci n) →
      ∃ ncci', w = some ncci' ∧ ncci'.msgid = ncci.msgid ∧ ncci'.state = .OUTGOING) : Lasts kept s s' := by
  constructor
  · intro q r found requested isKept
    rcases eq_or_ne q p with rfl | other
    · obtain ⟨plci', same, rest⟩ := call r found requested isKept
      exact ⟨plci', by rw [plcis, Function.update_self, same], rest⟩
    · exact ⟨r, by rw [plcis, Function.update_of_ne other, found], rfl, requested⟩
  · intro m r found requested isKept
    rcases eq_or_ne m n with rfl | other
    · obtain ⟨ncci', same, rest⟩ := conn r found requested isKept
      exact ⟨ncci', by rw [nccis, Function.update_self, same], rest⟩
    · exact ⟨r, by rw [nccis, Function.update_of_ne other, found], rfl, requested⟩

/-- A change of one call keeps the requests of all the others. -/
theorem Lasts.setPlci {v : Option Plci} (plcis : s'.plcis = Function.update s.plcis p v) (nccis : s'.nccis = s.nccis)
    (call : ∀ plci, s.plcis p = some plci → plci.state = .OUTGOING → kept (plci.msgid, .plci p) →
      ∃ plci', v = some plci' ∧ plci'.msgid = plci.msgid ∧ plci'.state = .OUTGOING) : Lasts kept s s' := by
  have same : s'.nccis = Function.update s.nccis 0 (s.nccis 0) := nccis.trans (Function.update_eq_self 0 s.nccis).symm
  exact Lasts.update plcis same call fun ncci live requested _ => ⟨ncci, live, rfl, requested⟩

/-- A change of one connection keeps the requests of all the others. -/
theorem Lasts.setNcci {w : Option Ncci} (plcis : s'.plcis = s.plcis) (nccis : s'.nccis = Function.update s.nccis n w)
    (conn : ∀ ncci, s.nccis n = some ncci → ncci.state = .OUTGOING → kept (ncci.msgid, .ncci n) →
      ∃ ncci', w = some ncci' ∧ ncci'.msgid = ncci.msgid ∧ ncci'.state = .OUTGOING) : Lasts kept s s' := by
  have same : s'.plcis = Function.update s.plcis 0 (s.plcis 0) := plcis.trans (Function.update_eq_self 0 s.plcis).symm
  exact Lasts.update same nccis (fun plci live requested _ => ⟨plci, live, rfl, requested⟩) conn

/-- A requested call waits for its confirmation. -/
theorem Plci.after_requested (requested : plci.state = .OUTGOING) {event : PlciEvent}
    (other : event ≠ .CONNECT_CONF_OK ∧ event ≠ .CONNECT_CONF_ERROR) : (plci.after event).state = .OUTGOING := by
  have table : ∀ c ∈ plcitable, c.actstate = .OUTGOING →
      c.event = .CONNECT_CONF_OK ∨ c.event = .CONNECT_CONF_ERROR := by decide
  unfold Plci.after
  cases found : plciChange plci.state event with
  | none => exact requested
  | some c =>
    obtain ⟨member, state, same⟩ := plciChange_some found
    rcases table c member (state.trans requested) with eq | eq
    · exact absurd (same.symm.trans eq) other.1
    · exact absurd (same.symm.trans eq) other.2

@[simp] theorem Ncci.after_msgid (ncci : Ncci) (event : NcciEvent) : (ncci.after event).msgid = ncci.msgid := by
  unfold Ncci.after
  split
  · rfl
  · rfl

/-- An event of a call that is not its confirmation. -/
theorem Lasts.plciAfter (kept : UInt16 × Call → Prop) (live : s.plcis p = some plci) {event : PlciEvent}
    (plcis : s'.plcis = Function.update s.plcis p (some (plci.after event))) (nccis : s'.nccis = s.nccis)
    (other : event ≠ .CONNECT_CONF_OK ∧ event ≠ .CONNECT_CONF_ERROR) : Lasts kept s s' := by
  apply Lasts.setPlci plcis nccis
  intro r found requested _
  cases live.symm.trans found
  exact ⟨plci.after event, rfl, rfl, Plci.after_requested requested other⟩

/-- A connection that is waiting for its confirmation takes no other event. -/
theorem Lasts.ncciAfter (kept : UInt16 × Call → Prop) (live : s.nccis n = some ncci) {event : NcciEvent}
    (plcis : s'.plcis = s.plcis) (nccis : s'.nccis = Function.update s.nccis n (some (ncci.after event)))
    (other : event ≠ .CONNECT_B3_CONF_OK ∧ event ≠ .CONNECT_B3_CONF_ERROR) : Lasts kept s s' := by
  apply Lasts.setNcci plcis nccis
  intro r found requested _
  cases live.symm.trans found
  exact ⟨ncci.after event, rfl, Ncci.after_msgid ncci event, Ncci.after_requested requested other⟩

/-- A call whose request does not wait any more. -/
theorem Lasts.plciDone (live : s.plcis p = some plci) {v : Option Plci} (plcis : s'.plcis = Function.update s.plcis p v)
    (nccis : s'.nccis = s.nccis) (done : plci.state = .OUTGOING → ¬ kept (plci.msgid, .plci p)) : Lasts kept s s' := by
  apply Lasts.setPlci plcis nccis
  intro r found requested here
  cases live.symm.trans found
  exact absurd here (done requested)

/-- A connection whose request does not wait any more. -/
theorem Lasts.ncciDone (live : s.nccis n = some ncci) {w : Option Ncci} (plcis : s'.plcis = s.plcis)
    (nccis : s'.nccis = Function.update s.nccis n w) (done : ncci.state = .OUTGOING → ¬ kept (ncci.msgid, .ncci n)) :
    Lasts kept s s' := by
  apply Lasts.setNcci plcis nccis
  intro r found requested here
  cases live.symm.trans found
  exact absurd here (done requested)

/-- A call is dropped. -/
theorem Lasts.dropPlci {s₀ : Card} {v : Option Plci} (live : s.plcis p = some plci)
    (plcis : s₀.plcis = Function.update s.plcis p v) (nccis : s₀.nccis = s.nccis)
    (done : plci.state = .OUTGOING → ¬ kept (plci.msgid, .plci p)) : Lasts kept s (s₀.dropPlci p plci') := by
  have conns : (s₀.dropPlci p plci').nccis = s.nccis := nccis
  exact Lasts.plciDone live (Card.dropPlci_plcis plcis plci') conns done

theorem Card.dropPlci_outstanding (s : Card) (p : Nat) (plci : Plci) :
    (s.dropPlci p plci).outstanding = s.outstanding := rfl

theorem Card.dropNcci_outstanding (env : Env) (s : Card) (n : Nat) (ncci : Ncci) (plci : Plci) :
    (s.dropNcci env n ncci plci).outstanding = s.outstanding := rfl

/-- A connection is dropped; its call goes on. -/
theorem Lasts.dropNcci {s₀ : Card} (conn : Conn s n ncci plci) (plcis : s₀.plcis = s.plcis)
    (nccis : s₀.nccis = Function.update s.nccis n (some ncci')) (plcip : ncci'.plcip = ncci.plcip)
    (done : ncci.state = .OUTGOING → ¬ kept (ncci.msgid, .ncci n)) : Lasts kept s (s₀.dropNcci env n ncci' plci) := by
  let plci' : Plci := { plci.after .DISCONNECT_REQ with ncciList := plci.ncciList.erase n }
  have calls : (s₀.dropNcci env n ncci' plci).plcis = Function.update s.plcis ncci.plcip (some plci') := by
    rw [← plcis, ← plcip]
    rfl
  apply Lasts.update calls (Card.dropNcci_nccis nccis env ncci' plci)
  · intro r found requested _
    cases conn.call.symm.trans found
    exact ⟨plci', rfl, rfl, Plci.after_requested requested (by decide)⟩
  · intro r found requested here
    cases conn.live.symm.trans found
    exact absurd here (done requested)

/-- A new record has no request yet. -/
theorem Wired.plci_new {nbchan : Nat} (wired : Wired nbchan s.links) : s.plcis s.plciNext = none := by
  by_contra live
  obtain ⟨plci, found⟩ := Option.ne_none_iff_exists'.mp live
  exact Nat.lt_irrefl _ (wired.lt (links_plcis found))

theorem Wired.ncci_new {nbchan : Nat} (wired : Wired nbchan s.links) : s.nccis s.ncciNext = none := by
  by_contra live
  obtain ⟨ncci, found⟩ := Option.ne_none_iff_exists'.mp live
  exact Nat.lt_irrefl _ (wired.ncci_lt (links_nccis found))

/-- A new call takes no other call's place. -/
theorem Lasts.addPlci {nbchan : Nat} (kept : UInt16 × Call → Prop) (wired : Wired nbchan s.links) {plci : Plci}
    (plcis : s'.plcis = Function.update s.plcis s.plciNext (some plci)) (nccis : s'.nccis = s.nccis) :
    Lasts kept s s' := by
  apply Lasts.setPlci plcis nccis
  intro r found
  cases wired.plci_new.symm.trans found

/-- A new connection takes no other connection's place. -/
theorem Lasts.addNcci {nbchan : Nat} (kept : UInt16 × Call → Prop) (wired : Wired nbchan s.links) {plci plci' : Plci}
    {ncci : Ncci} (live : s.plcis p = some plci) (plcis : s'.plcis = Function.update s.plcis p (some plci'))
    (nccis : s'.nccis = Function.update s.nccis s.ncciNext (some ncci)) (msgid : plci'.msgid = plci.msgid)
    (requested : plci.state = .OUTGOING → plci'.state = .OUTGOING) : Lasts kept s s' := by
  apply Lasts.update plcis nccis
  · intro r found outgoing _
    cases live.symm.trans found
    exact ⟨plci', rfl, msgid, requested outgoing⟩
  · intro r found
    cases wired.ncci_new.symm.trans found

end Waiting

/-- Each request that is new waits, and those that were there go on waiting. -/
structure Waits (kept : UInt16 × Call → Prop) (s s' : Card) : Prop extends Lasts kept s s' where
  news : ∀ e ∈ s'.outstanding, kept e → e ∈ s.outstanding ∨ Awaited s' e

section Requests

variable {env : Env} {s s' s'' : Card} {kept : UInt16 × Call → Prop} {cmsg : Cmsg}

/-- Where the outstanding requests do not change, those that last wait. -/
theorem Lasts.waits (lasts : Lasts kept s s') (outstanding : s'.outstanding = s.outstanding) : Waits kept s s' :=
  ⟨lasts, fun _ member _ => .inl (outstanding ▸ member)⟩

theorem Waits.trans (waits : Waits kept s s') (waits' : Waits kept s' s'') : Waits kept s s'' := by
  refine ⟨waits.toLasts.trans waits'.toLasts, ?_⟩
  intro e member here
  rcases waits'.news e member here with before | new
  · rcases waits.news e before here with old | new
    · exact .inl old
    · exact .inr (waits'.awaited new here)
  · exact .inr new

/-- After a step in which requests wait, all that are kept are still awaited. -/
theorem Waits.all (waits : Waits kept s s') (awaited : ∀ e ∈ s.outstanding, Awaited s e) :
    ∀ e ∈ s'.outstanding, kept e → Awaited s' e := by
  intro e member here
  rcases waits.news e member here with old | new
  · exact waits.awaited (awaited e old) here
  · exact new

/-- One request is new. -/
theorem Lasts.asks (lasts : Lasts kept s s') {e : UInt16 × Call} (outstanding : s'.outstanding = s.outstanding ++ [e])
    (awaited : Awaited s' e) : Waits kept s s' := by
  refine ⟨lasts, fun e' member _ => ?_⟩
  rw [outstanding] at member
  rcases List.mem_append.mp member with old | new
  · exact .inl old
  · rw [List.mem_singleton.mp new]
    exact .inr awaited

/-- A command's own request waits, and those before it go on waiting. -/
theorem effect_waits (kept : UInt16 × Call → Prop) (wired : Wired env.nbchan s.links) {command : Command}
    (effect : Effect env s command s') : Waits kept s s' := by
  cases effect with
  | calm calm => exact Lasts.waits (Lasts.calm kept calm) calm.outstanding
  | dial =>
    apply Lasts.asks
    · exact Lasts.addPlci kept wired rfl rfl
    · rfl
    · exact ⟨_, Function.update_self _ _ _, rfl, rfl⟩
  | acceptd _ _ live => exact Lasts.waits (Lasts.plciAfter kept live rfl rfl (by decide)) rfl
  | hangupNcci _ _ _ live => exact Lasts.waits (Lasts.ncciAfter kept live rfl rfl (by decide)) rfl
  | hangupIncoming => exact Lasts.waits (Lasts.of_eq kept rfl rfl) rfl
  | hangupPlci _ _ _ _ live => exact Lasts.waits (Lasts.plciAfter kept live rfl rfl (by decide)) rfl

theorem commands_wait (kept : UInt16 × Call → Prop) (wired : Wired env.nbchan s.links) {commands : List Command}
    (run : commands.foldlM (fun s command => (capidrvCommand env s command).map Prod.fst) s = some s') :
    Waits kept s s' := by
  apply commands_rel ?_ ?_ ?_ wired run
  · intro s
    exact Lasts.waits (Lasts.of_eq kept rfl rfl) rfl
  · intro s t u first second
    exact first.trans second
  · intro s command s' wired effect
    exact effect_waits kept wired effect

/-- The requests that a message does not confirm. -/
def Unconfirmed (env : Env) (cmsg : Cmsg) (e : UInt16 × Call) : Prop :=
  cmsg.adr &&& 0x7f = env.contrnr → confirms cmsg e = false

/-- A message takes off the outstanding requests those it confirms, and no others. -/
theorem mem_confirm {e : UInt16 × Call} :
    e ∈ (confirm env s cmsg).outstanding ↔ e ∈ s.outstanding ∧ Unconfirmed env cmsg e := by
  unfold confirm Unconfirmed
  split
  · rename_i mine
    rw [List.mem_filter, Bool.not_eq_true']
    exact and_congr_right fun _ => ⟨fun other _ => other, fun other => other mine⟩
  · rename_i strange
    exact ⟨fun member => ⟨member, fun mine => absurd mine strange⟩, fun ⟨member, _⟩ => member⟩

/-- Whether a request is awaited does not depend on the list of the outstanding. -/
theorem awaited_confirm {e : UInt16 × Call} : Awaited (confirm env s cmsg) e ↔ Awaited s e := by
  obtain ⟨m, call⟩ := e
  unfold confirm
  split
  · cases call <;> exact Iff.rfl
  · exact Iff.rfl

/-- A call with a number is not requested any more. -/
theorem Plci.Phased.numbered_requested {plci : Plci} (phased : plci.Phased) {x : UInt32} (number : plci.plci = x)
    (known : x ≠ 0) : plci.state ≠ .OUTGOING := by
  intro requested
  exact known (number.symm.trans (phased.number requested))

/-- What becomes of an incoming call concerns no request. -/
theorem verdict_waits (kept : UInt16 × Call → Prop) {p : Nat} (verdict : Verdict env s cmsg p s') : Waits kept s s' := by
  cases verdict with
  | rejected live => exact Lasts.waits (Lasts.plciAfter kept live rfl rfl (by decide)) rfl
  | alerted live waiting =>
    have known : PlciState.INCOMING ≠ .OUTGOING := by decide
    exact Lasts.waits (Lasts.plciDone live rfl rfl fun requested => absurd (waiting.symm.trans requested) known) rfl
  | kept => exact Lasts.waits (Lasts.of_eq kept rfl rfl) rfl

/-- A CONNECT_CONF confirms the call with its message number. -/
theorem confirms_call (mine : cmsg.adr &&& 0x7f = env.contrnr) (message : cmd cmsg = CAPI_CONNECT_CONF) (p : Nat) :
    ¬ Unconfirmed env cmsg (cmsg.messagenumber, .plci p) := by
  intro other
  have same := other mine
  simp only [confirms, message, decide_true, Bool.and_self] at same
  cases same

/-- A CONNECT_B3_CONF confirms the connection with its message number. -/
theorem confirms_conn (mine : cmsg.adr &&& 0x7f = env.contrnr) (message : cmd cmsg = CAPI_CONNECT_B3_CONF) (n : Nat) :
    ¬ Unconfirmed env cmsg (cmsg.messagenumber, .ncci n) := by
  intro other
  have same := other mine
  simp only [confirms, message, decide_true, Bool.and_self] at same
  cases same

/-- What a message does to the requests that it does not confirm. -/
theorem reaction_waits (valid : Valid env s) (reaction : Reaction env s cmsg s') :
    Waits (Unconfirmed env cmsg) s s' := by
  have wired := valid.wired
  have numbered : toPlci env cmsg → ∀ {p plci}, findPlciByPlci s cmsg.adr = some (p, plci) →
      s.plcis p = some plci ∧ plci.state ≠ .OUTGOING := by
    intro route p plci found
    obtain ⟨live, -, same⟩ := findPlci_some found
    exact ⟨live, (valid.plcis p plci live).numbered_requested (of_decide_eq_true same) (toPlci_adr route)⟩
  have called : toPlci env cmsg → cmd cmsg = CAPI_CONNECT_CONF →
      ∀ {p plci}, findPlciByMsgid s cmsg.messagenumber = some (p, plci) →
        s.plcis p = some plci ∧ ¬ Unconfirmed env cmsg (plci.msgid, .plci p) := by
    intro route message p plci found
    obtain ⟨live, -, same⟩ := findPlci_some found
    rw [of_decide_eq_true same]
    exact ⟨live, confirms_call route.1 message p⟩
  have connected : toNcci env cmsg → cmd cmsg = CAPI_CONNECT_B3_CONF →
      ∀ {n ncci}, findNcciByMsgid s cmsg.adr cmsg.messagenumber = some (n, ncci) →
        ¬ Unconfirmed env cmsg (ncci.msgid, .ncci n) := by
    intro route message n ncci found
    obtain ⟨plci, -, same, -⟩ := wired.findNcciByMsgid found
    rw [same]
    exact confirms_conn route.1 message n
  cases reaction with
  | calm calm => exact Lasts.waits (Lasts.calm _ calm) calm.outstanding
  | disconnectInd route message found =>
    obtain ⟨live, known⟩ := numbered route found
    apply Lasts.waits
    · exact Lasts.dropPlci live rfl rfl fun requested => absurd requested known
    · exact Card.dropPlci_outstanding _ _ _
  | disconnectConf => exact Lasts.waits (Lasts.of_eq _ rfl rfl) rfl
  | connected route message found =>
    obtain ⟨live, confirmed⟩ := called route message found
    exact Lasts.waits (Lasts.plciDone live rfl rfl fun _ => confirmed) rfl
  | connectFailed route message found =>
    obtain ⟨live, confirmed⟩ := called route message found
    apply Lasts.waits
    · exact Lasts.dropPlci live rfl rfl fun _ => confirmed
    · exact Card.dropPlci_outstanding _ _ _
  | renumbered route message found error known =>
    obtain ⟨live, confirmed⟩ := called route message found
    exact Lasts.waits (Lasts.plciDone live rfl rfl fun _ => confirmed) rfl
  | connectActive route message found =>
    exact Lasts.waits (Lasts.plciAfter _ (findPlci_some found).1 rfl rfl (by decide)) rfl
  | requestB3 route message found =>
    obtain ⟨live, known⟩ := numbered route found
    apply Lasts.asks
    · exact Lasts.addNcci _ wired live rfl rfl rfl fun requested => absurd requested known
    · rfl
    · exact ⟨_, Function.update_self _ _ _, rfl, rfl⟩
  | unannounced => exact Lasts.waits (Lasts.of_eq _ rfl rfl) rfl
  | @incomingCall chan s₁ _ route message found mem fit commands result =>
    have offered := offered_valid valid found cmsg
    have told : Waits (Unconfirmed env cmsg) s (s.offered cmsg chan) :=
      Lasts.waits (Lasts.addPlci _ wired rfl rfl) rfl
    obtain ⟨-, plci, live, listed⟩ := incoming_live wired found commands
    have ended := verdict_waits (Unconfirmed env cmsg) (verdict_of_result live listed result)
    exact (told.trans (commands_wait _ offered.wired commands)).trans ended
  | connectB3Active route message found conn =>
    exact Lasts.waits (Lasts.ncciAfter _ conn.live rfl rfl (by decide)) rfl
  | connectB3Ind route message found =>
    exact Lasts.waits (Lasts.addNcci _ wired (findPlci_some found).1 rfl rfl rfl id) rfl
  | connectedB3 route message found conn =>
    exact Lasts.waits (Lasts.ncciDone conn.live rfl rfl fun _ => connected route message found) rfl
  | connectB3Failed route message found conn =>
    apply Lasts.waits
    · exact Lasts.dropNcci conn rfl rfl rfl fun _ => connected route message found
    · exact Card.dropNcci_outstanding _ _ _ _ _
  | renumberedB3 route message found conn =>
    exact Lasts.waits (Lasts.ncciDone conn.live rfl rfl fun _ => connected route message found) rfl
  | @disconnectB3Ind n ncci plci route message found conn known =>
    apply Lasts.waits
    · refine Lasts.dropNcci conn rfl rfl ?_ fun requested => absurd requested known
      exact Ncci.after_plcip ncci .DISCONNECT_B3_IND
    · exact Card.dropNcci_outstanding _ _ _ _ _
  | disconnectB3Early => exact Lasts.waits (Lasts.of_eq _ rfl rfl) rfl
  | disconnectB3Conf route message found conn =>
    exact Lasts.waits (Lasts.ncciAfter _ conn.live rfl rfl (by decide)) rfl
  | resetB3Ind route message found conn =>
    exact Lasts.waits (Lasts.ncciAfter _ conn.live rfl rfl (by decide)) rfl

/-- In a step requests go on waiting, but for those that a received message confirms. -/
theorem waits_step (valid : Valid env s) {op : Op} (transition : Transition env s op s') :
    (∃ msg cmsg s₁, op = .recv msg ∧ Waits (Unconfirmed env cmsg) s s₁ ∧ s' = confirm env s₁ cmsg) ∨
      Waits (fun _ => True) s s' := by
  cases transition with
  | calm calm => exact .inr (Lasts.waits (Lasts.calm _ calm) calm.outstanding)
  | command effect => exact .inr (effect_waits _ valid.wired effect)
  | data _ _ _ _ sends => exact .inr (Lasts.waits (Lasts.calm _ sends.calm) sends.calm.outstanding)
  | recv decoded reaction => exact .inl ⟨_, _, _, rfl, reaction_waits valid reaction, rfl⟩

/-- After a step each outstanding request has a record that waits. -/
theorem awaited_step (valid : Valid env s) (awaited : ∀ e ∈ s.outstanding, Awaited s e) {op : Op}
    (run : step env s op = some s') : ∀ e ∈ s'.outstanding, Awaited s' e := by
  intro e member
  rcases waits_step valid (transition valid run) with ⟨msg, cmsg, s₁, -, waits, rfl⟩ | waits
  · obtain ⟨before, unconfirmed⟩ := mem_confirm.mp member
    exact awaited_confirm.mpr (waits.all awaited e before unconfirmed)
  · exact waits.all awaited e member trivial

end Requests

/-! ## Confirmations -/

section Confirmations

variable {env : Env} {s s' : Card} {cmsg : Cmsg} {p n : Nat} {plci : Plci} {ncci : Ncci}

/-- A confirmation whose address is for another handler is ignored. -/
theorem handleMessage_strayConf (s : Card) (data : Bytes) (message : cmd cmsg = CAPI_CONNECT_CONF)
    (stray : ¬ toPlci env cmsg) : handleMessage env s cmsg data = some s := by
  apply handleMessage_strayPlci data (by rw [message]; decide) ?_ ?_ stray
  · unfold handleController
    rw [message]
    rfl
  · unfold handleNcci
    rw [message]
    rfl

/-- A CONNECT_B3_CONF without an NCCI is ignored. -/
theorem handleMessage_strayB3Conf (s : Card) (data : Bytes) (message : cmd cmsg = CAPI_CONNECT_B3_CONF)
    (stray : ¬ toNcci env cmsg) : handleMessage env s cmsg data = some s := by
  apply handleMessage_strayNcci data (by rw [message]; decide) ?_ ?_ stray
  · unfold handleController
    rw [message]
    rfl
  · unfold handlePlci
    rw [message]
    rfl

/-- The confirmation acts on the call that is found. -/
theorem connectConf_found (live : s.plcis p = some plci) (requested : plci.state = .OUTGOING)
    (found : findPlciByMsgid s cmsg.messagenumber = some (p, plci)) :
    ∃ s', connectConf s cmsg = some s' ∧ ConnectAnswered cmsg s p s' := by
  rcases eq_or_ne (cmsg.word .info) 0 with fine | error
  · refine ⟨_, connectConf_fine found fine, ?_⟩
    have after : Plci.after { plci with plci := cmsg.adr } .CONNECT_CONF_OK =
        { plci with plci := cmsg.adr, state := .ALLOCATED } := by
      rw [Plci.after, requested]
      rfl
    constructor
    · exact fun q other => Function.update_of_ne other _ _
    · rfl
    · intro _
      rw [after]
      exact ⟨plci, live, Function.update_self _ _ _, rfl⟩
    · exact fun error => absurd fine error
  · refine ⟨_, connectConf_failed found error requested, ?_⟩
    constructor
    · exact fun q other => (Function.update_of_ne other _ _).trans (Function.update_of_ne other _ _)
    · rfl
    · exact fun fine => absurd fine error
    · intro _
      refine ⟨plci, live, Function.update_self _ _ _, List.mem_append_right _ (List.mem_singleton_self p), ?_, ?_⟩
      · show (Function.update s.bchans plci.chan _ plci.chan).plcip = none
        rw [Function.update_self]
      · exact fun c elsewhere => Function.update_of_ne elsewhere _ _

/-- The confirmation does not act on a call that is not found. -/
theorem connectConf_elsewhere (elsewhere : ∀ plci, findPlciByMsgid s cmsg.messagenumber ≠ some (p, plci)) :
    ∃ s', connectConf s cmsg = some s' ∧ s'.plcis p = s.plcis p := by
  cases found : findPlciByMsgid s cmsg.messagenumber with
  | none =>
    refine ⟨s, ?_, rfl⟩
    unfold connectConf
    simp only [found]
  | some e =>
    obtain ⟨q, plci⟩ := e
    have other : p ≠ q := by
      intro same
      exact elsewhere plci (same ▸ found)
    rcases eq_or_ne (cmsg.word .info) 0 with fine | error
    · exact ⟨_, connectConf_fine found fine, Function.update_of_ne other _ _⟩
    rcases eq_or_ne plci.state .OUTGOING with requested | known
    · refine ⟨_, connectConf_failed found error requested, ?_⟩
      exact (Function.update_of_ne other _ _).trans (Function.update_of_ne other _ _)
    · exact ⟨_, connectConf_renumbers found error known, Function.update_of_ne other _ _⟩

/-- A call that goes on waiting was not answered. -/
theorem not_connectAnswered (live : s.plcis p = some plci) (requested : plci.state = .OUTGOING)
    (same : s'.plcis p = s.plcis p) : ¬ ConnectAnswered cmsg s p s' := by
  intro answered
  rcases eq_or_ne (cmsg.word .info) 0 with fine | error
  · obtain ⟨r, found, after, -⟩ := answered.fine fine
    rw [same, live] at after
    have ended := congrArg Plci.state (Option.some.inj after)
    cases requested.symm.trans ended
  · obtain ⟨r, found, after, -⟩ := answered.failed error
    rw [same, live] at after
    cases after

/-- The CONNECT_B3_CONF answers the requested connection that the search finds. -/
theorem connectB3Conf_found (env : Env) (conn : Conn s n ncci plci) (requested : ncci.state = .OUTGOING)
    (found : findNcciByMsgid s cmsg.adr cmsg.messagenumber = some (n, ncci)) :
    ∃ s', connectB3Conf env s cmsg = some s' ∧ ConnectB3Answered cmsg s n s' := by
  rcases eq_or_ne (cmsg.word .info) 0 with fine | error
  · refine ⟨_, connectB3Conf_fine found conn fine, ?_⟩
    have after : Ncci.after { ncci with ncci := cmsg.adr } .CONNECT_B3_CONF_OK =
        { ncci with ncci := cmsg.adr, state := .ALLOCATED, oldstate := .OUTGOING } := by
      rw [Ncci.after, requested]
      rfl
    constructor
    · exact fun m other => Function.update_of_ne other _ _
    · intro _
      rw [after]
      exact ⟨ncci, conn.live, Function.update_self _ _ _, rfl, rfl⟩
    · exact fun error => absurd fine error
  · refine ⟨_, connectB3Conf_failed found conn error requested, ?_⟩
    constructor
    · exact fun m other => (Function.update_of_ne other _ _).trans (Function.update_of_ne other _ _)
    · exact fun fine => absurd fine error
    · intro _
      refine ⟨ncci, conn.live, Function.update_self _ _ _, ?_, ?_⟩
      · show (Function.update s.bchans ncci.chan _ ncci.chan).nccip = none
        rw [Function.update_self]
      · exact fun q other => Function.update_of_ne other _ _

/-- A CONNECT_B3_CONF for which the search finds something else leaves the connection alone. -/
theorem connectB3Conf_elsewhere (wired : Wired env.nbchan s.links)
    (elsewhere : ∀ ncci, findNcciByMsgid s cmsg.adr cmsg.messagenumber ≠ some (n, ncci)) :
    ∃ s', connectB3Conf env s cmsg = some s' ∧ s'.nccis n = s.nccis n := by
  cases found : findNcciByMsgid s cmsg.adr cmsg.messagenumber with
  | none =>
    refine ⟨s, ?_, rfl⟩
    unfold connectB3Conf
    simp only [found]
  | some e =>
    obtain ⟨m, ncci⟩ := e
    obtain ⟨plci, conn, -⟩ := wired.findNcciByMsgid found
    have other : n ≠ m := by
      intro same
      exact elsewhere ncci (same ▸ found)
    rcases eq_or_ne (cmsg.word .info) 0 with fine | error
    · exact ⟨_, connectB3Conf_fine found conn fine, Function.update_of_ne other _ _⟩
    rcases eq_or_ne ncci.state .OUTGOING with requested | known
    · refine ⟨_, connectB3Conf_failed found conn error requested, ?_⟩
      exact (Function.update_of_ne other _ _).trans (Function.update_of_ne other _ _)
    · exact ⟨_, connectB3Conf_renumbers found conn error known, Function.update_of_ne other _ _⟩

/-- A requested connection that has not changed has not been answered. -/
theorem not_connectB3Answered (live : s.nccis n = some ncci) (requested : ncci.state = .OUTGOING)
    (same : s'.nccis n = s.nccis n) : ¬ ConnectB3Answered cmsg s n s' := by
  intro answered
  rcases eq_or_ne (cmsg.word .info) 0 with fine | error
  · obtain ⟨r, found, after, -⟩ := answered.fine fine
    rw [same, live] at after
    have ended := congrArg Ncci.state (Option.some.inj after)
    cases requested.symm.trans ended
  · obtain ⟨r, found, after, -⟩ := answered.failed error
    rw [same, live] at after
    cases after

/-- When a confirmation acts on the call of its request. -/
theorem connectAnswered_iff (data : Bytes) (message : cmd cmsg = CAPI_CONNECT_CONF) (live : s.plcis p = some plci)
    (requested : plci.state = .OUTGOING) : ∃ s', handleMessage env s cmsg data = some s' ∧
      (ConnectAnswered cmsg s p s' ↔ toPlci env cmsg ∧ s.FirstCall cmsg.messagenumber p) := by
  rcases em (toPlci env cmsg) with route | stray
  · rw [handleMessage_connectConf s data route message]
    rcases em (s.FirstCall cmsg.messagenumber p) with first | late
    · obtain ⟨s', run, answered⟩ := connectConf_found live requested (findPlciByMsgid_iff.mpr ⟨live, first⟩)
      exact ⟨s', run, iff_of_true answered ⟨route, first⟩⟩
    · have elsewhere : ∀ plci, findPlciByMsgid s cmsg.messagenumber ≠ some (p, plci) := fun plci found =>
        late (findPlciByMsgid_iff.mp found).2
      obtain ⟨s', run, same⟩ := connectConf_elsewhere elsewhere
      exact ⟨s', run, iff_of_false (not_connectAnswered live requested same) fun matched => late matched.2⟩
  · refine ⟨s, handleMessage_strayConf s data message stray, ?_⟩
    exact iff_of_false (not_connectAnswered live requested rfl) fun matched => stray matched.1

/-- When a confirmation acts on the connection of its request. -/
theorem connectB3Answered_iff (wired : Wired env.nbchan s.links) (data : Bytes)
    (message : cmd cmsg = CAPI_CONNECT_B3_CONF) (live : s.nccis n = some ncci) (requested : ncci.state = .OUTGOING) :
    ∃ s', handleMessage env s cmsg data = some s' ∧
      (ConnectB3Answered cmsg s n s' ↔ toNcci env cmsg ∧ s.FirstConn cmsg.adr cmsg.messagenumber n) := by
  rcases em (toNcci env cmsg) with route | stray
  · rw [handleMessage_connectB3Conf s data route message]
    rcases em (s.FirstConn cmsg.adr cmsg.messagenumber n) with first | late
    · have found := findNcciByMsgid_iff.mpr ⟨live, first⟩
      obtain ⟨plci, conn, -⟩ := wired.findNcciByMsgid found
      obtain ⟨s', run, answered⟩ := connectB3Conf_found env conn requested found
      exact ⟨s', run, iff_of_true answered ⟨route, first⟩⟩
    · have elsewhere : ∀ ncci, findNcciByMsgid s cmsg.adr cmsg.messagenumber ≠ some (n, ncci) := fun ncci found =>
        late (findNcciByMsgid_iff.mp found).2
      obtain ⟨s', run, same⟩ := connectB3Conf_elsewhere wired elsewhere
      exact ⟨s', run, iff_of_false (not_connectB3Answered live requested same) fun matched => late matched.2⟩
  · refine ⟨s, handleMessage_strayB3Conf s data message stray, ?_⟩
    exact iff_of_false (not_connectB3Answered live requested rfl) fun matched => stray matched.1

/-- That a call is answered does not depend on the list of the outstanding. -/
theorem connectAnswered_confirm : ConnectAnswered cmsg s p (confirm env s' cmsg) ↔ ConnectAnswered cmsg s p s' := by
  unfold confirm
  split
  · exact ⟨fun h => ⟨h.others, h.nccis, h.fine, h.failed⟩, fun h => ⟨h.others, h.nccis, h.fine, h.failed⟩⟩
  · exact Iff.rfl

theorem connectB3Answered_confirm :
    ConnectB3Answered cmsg s n (confirm env s' cmsg) ↔ ConnectB3Answered cmsg s n s' := by
  unfold confirm
  split
  · exact ⟨fun h => ⟨h.others, h.fine, h.failed⟩, fun h => ⟨h.others, h.fine, h.failed⟩⟩
  · exact Iff.rfl

end Confirmations

/-! ## Runs -/

section Runs

variable {env : Env} {s s' : Card} {cmsg : Cmsg}

/-- A confirmation that matches reaches the record that sent the request. -/
theorem correlates_step (valid : Valid env s) (awaited : ∀ e ∈ s.outstanding, Awaited s e) {op : Op}
    (matched : Matched env s op) (run : step env s op = some s') : Correlates env s op s' := by
  cases op with
  | recv msg =>
    intro cmsg decoded mine
    obtain ⟨calls, conns⟩ := matched cmsg decoded mine
    constructor
    · intro message carries p waiting
      obtain ⟨plci, live, -, requested⟩ := awaited _ waiting
      obtain ⟨s₁, handled, answered⟩ := connectAnswered_iff (payload msg) message live requested
      cases run.symm.trans (recv_eq decoded handled)
      exact connectAnswered_confirm.mpr (answered.mpr (calls message carries p waiting))
    · intro message carries n waiting
      obtain ⟨ncci, live, -, requested⟩ := awaited _ waiting
      obtain ⟨s₁, handled, answered⟩ := connectB3Answered_iff valid.wired (payload msg) message live requested
      cases run.symm.trans (recv_eq decoded handled)
      exact connectB3Answered_confirm.mpr (answered.mpr (conns message carries n waiting))
  | _ => trivial

/-- A confirmation that does not match is lost on the record that waits for it. -/
theorem not_correlates_step (valid : Valid env s) (awaited : ∀ e ∈ s.outstanding, Awaited s e) {op : Op}
    (unmatched : ¬ Matched env s op) : ∃ s', step env s op = some s' ∧ ¬ Correlates env s op s' := by
  cases op with
  | recv msg =>
    simp only [Matched, not_forall] at unmatched
    obtain ⟨cmsg, decoded, mine, unmatched⟩ := unmatched
    rcases not_and_or.mp unmatched with call | conn
    · simp only [not_forall] at call
      obtain ⟨message, carries, p, waiting, stray⟩ := call
      obtain ⟨plci, live, -, requested⟩ := awaited _ waiting
      obtain ⟨s₁, handled, answered⟩ := connectAnswered_iff (payload msg) message live requested
      refine ⟨_, recv_eq decoded handled, fun correlates => stray ?_⟩
      have acts := (correlates cmsg decoded mine).1 message carries p waiting
      exact answered.mp (connectAnswered_confirm.mp acts)
    · simp only [not_forall] at conn
      obtain ⟨message, carries, n, waiting, stray⟩ := conn
      obtain ⟨ncci, live, -, requested⟩ := awaited _ waiting
      obtain ⟨s₁, handled, answered⟩ := connectB3Answered_iff valid.wired (payload msg) message live requested
      refine ⟨_, recv_eq decoded handled, fun correlates => stray ?_⟩
      have acts := (correlates cmsg decoded mine).2 message carries n waiting
      exact answered.mp (connectB3Answered_confirm.mp acts)
  | _ => exact absurd trivial unmatched

/-- The confirmations of a run act on the records of their requests, exactly when each is given to the handler of its
kind and no record in front of that of the request has the message number. -/
theorem confirmations_correlate_iff (env : Env) (ops : List Op) :
    Each (step env) (Correlates env) Card.init ops ↔ Meets (step env) (Matched env) Card.init ops := by
  have free := Meets.unconditional (step env) Card.init ops
  apply each_iff_meets (fun s => Valid env s ∧ ∀ e ∈ s.outstanding, Awaited s e) ?_ ?_ ⟨valid_init env, nofun⟩ free
  · intro s op s' ⟨valid, awaited⟩ _ matched run
    exact ⟨correlates_step valid awaited matched run, valid_step valid run, awaited_step valid awaited run⟩
  · intro s op ⟨valid, awaited⟩ _ unmatched
    exact not_correlates_step valid awaited unmatched

end Runs

/-- The answer of the controller to a dialled call; it has an error and its own number as the address. -/
def refusedDial : Bytes := controllerMsg CAPI_CONNECT_CONF 0 [1, 0, 0, 0] [1, 0]

/-- The record of the call is not freed. -/
theorem refusal_ignored : ¬ Each (step Env.granting) (Correlates Env.granting) Card.init
    [.command (.DIAL 0 .empty .empty 1 0), .recv refusedDial] := by
  intro each
  obtain ⟨s, dialled⟩ : ∃ s, step Env.granting Card.init (.command (.DIAL 0 .empty .empty 1 0)) = some s := ⟨_, rfl⟩
  have outstanding : (step Env.granting Card.init (.command (.DIAL 0 .empty .empty 1 0))).map Card.outstanding =
      some [(0, .plci 0)] := rfl
  have live : (step Env.granting Card.init (.command (.DIAL 0 .empty .empty 1 0))).bind (fun s =>
      (step Env.granting s (.recv refusedDial)).map fun s' => (s'.plcis 0).isSome) = some true := rfl
  rw [dialled, Option.map_some, Option.some.injEq] at outstanding
  rw [dialled, Option.bind_some] at live
  obtain ⟨s', refused, live⟩ := Option.map_eq_some_iff.mp live
  obtain ⟨cmsg, decoded⟩ : ∃ cmsg, capiMessage2cmsg refusedDial = some cmsg := ⟨_, rfl⟩
  have header : (capiMessage2cmsg refusedDial).map (fun cmsg =>
      (cmd cmsg, cmsg.messagenumber, cmsg.adr &&& 0x7f, cmsg.word .info)) = some (CAPI_CONNECT_CONF, 0, 1, 1) := rfl
  rw [decoded, Option.map_some, Option.some.injEq] at header
  simp only [Prod.mk.injEq] at header
  obtain ⟨message, number, mine, error⟩ := header
  have failed : cmsg.word .info ≠ 0 := by
    rw [error]
    decide
  have waiting : (cmsg.messagenumber, Call.plci 0) ∈ s.outstanding := by
    rw [number, outstanding]
    exact List.mem_singleton_self _
  have correlates := ((each s dialled).2 s' refused).1
  have answered := (correlates cmsg decoded mine).1 message (fun fine => absurd fine failed) 0 waiting
  obtain ⟨plci, -, freed, -⟩ := answered.failed failed
  rw [freed] at live
  cases live

end Capi4Linux.Capidrv
