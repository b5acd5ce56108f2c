import Capi4Linux.Capidrv.Valid

/-!
# Bookkeeping of connections

The pointer of a channel to its connection, the connections of a call and the
call of a connection agree until a call is released together with a connection,
or a connection while its call has another.
-/

namespace Capi4Linux.Capidrv
open Bytes Capicore Capiutil Machine

/-! ## Links -/

/-- Pointers lead to live records, and a channel with connections has a pointer. -/
structure Intact (l : Links) : Prop where
  nccip : ∀ c n, l.nccip c = some n → ∃ p ns, l.plcip c = some p ∧ l.nccis n = some (p, c) ∧ l.plcis p = some (c, ns)
  owner : ∀ n p c, l.nccis n = some (p, c) → l.plcis p ≠ none
  pointer : ∀ c p ns, l.plcip c = some p → l.plcis p = some (c, ns) → ns ≠ [] → l.nccip c ≠ none

namespace Intact

variable {nbchan : Nat} {l l' : Links} {p n chan : Nat} {ns : List Nat}

/-- A new call keeps the records intact. -/
theorem addPlci (intact : Intact l) (wired : Wired nbchan l) (free : l.plcip chan = none) :
    Intact (l.addPlci chan) := by
  have old : ∀ q c ms, l.plcis q = some (c, ms) → (l.addPlci chan).plcis q = some (c, ms) := by
    intro q c ms live
    simp only [Links.addPlci, Function.update_of_ne (Nat.ne_of_lt (wired.lt live)), live]
  constructor
  · intro c m pointer
    obtain ⟨q, ms, owner, conn, live⟩ := intact.nccip c m pointer
    have elsewhere : c ≠ chan := by
      rintro rfl
      cases owner.symm.trans free
    refine ⟨q, ms, ?_, conn, old q c ms live⟩
    simp only [Links.addPlci, Function.update_of_ne elsewhere, owner]
  · intro m q c conn
    obtain ⟨⟨c', ms⟩, live⟩ := Option.ne_none_iff_exists'.mp (intact.owner m q c conn)
    rw [old q c' ms live]
    exact Option.some_ne_none _
  · intro c q ms owner live some
    rcases eq_or_ne c chan with rfl | elsewhere
    · simp only [Links.addPlci, Function.update_self, Option.some.injEq] at owner
      subst owner
      simp only [Links.addPlci, Function.update_self, Option.some.injEq, Prod.mk.injEq] at live
      exact absurd live.2.symm some
    · simp only [Links.addPlci, Function.update_of_ne elsewhere] at owner
      obtain ⟨ms', before⟩ := wired.owner c q owner
      cases live.symm.trans (old q c ms' before)
      exact intact.pointer c q ms owner before some

theorem addNcci (intact : Intact l) (wired : Wired nbchan l) (live : l.plcis p = some (chan, ns)) :
    Intact (l.addNcci p chan ns) := by
  have calls : ∀ q, (l.addNcci p chan ns).plcis q = none ↔ l.plcis q = none := by
    intro q
    rcases eq_or_ne q p with rfl | other
    · simp [Links.addNcci, live]
    · simp only [Links.addNcci, Function.update_of_ne other]
  constructor
  · intro c m pointer
    rcases eq_or_ne c chan with rfl | elsewhere
    · simp only [Links.addNcci, Function.update_self, Option.some.injEq] at pointer
      subst pointer
      exact ⟨p, _, (wired.chan p c ns live).2, Function.update_self _ _ _, Function.update_self _ _ _⟩
    · simp only [Links.addNcci, Function.update_of_ne elsewhere] at pointer
      obtain ⟨q, ms, owner, conn, call⟩ := intact.nccip c m pointer
      have other : q ≠ p := by
        rintro rfl
        cases call.symm.trans live
        exact elsewhere rfl
      refine ⟨q, ms, owner, ?_, ?_⟩
      · simp only [Links.addNcci, Function.update_of_ne (Nat.ne_of_lt (wired.ncci_lt conn)), conn]
      · simp only [Links.addNcci, Function.update_of_ne other, call]
  · intro m q c conn
    rw [ne_eq, calls]
    rcases eq_or_ne m l.ncciNext with rfl | old
    · simp only [Links.addNcci, Function.update_self, Option.some.injEq, Prod.mk.injEq] at conn
      rw [← conn.1, live]
      exact Option.some_ne_none _
    · simp only [Links.addNcci, Function.update_of_ne old] at conn
      exact intact.owner m q c conn
  · intro c q ms owner call some
    rcases eq_or_ne c chan with rfl | elsewhere
    · simp only [Links.addNcci, Function.update_self, ne_eq, reduceCtorEq, not_false_eq_true]
    · have other : q ≠ p := by
        rintro rfl
        simp only [Links.addNcci, Function.update_self, Option.some.injEq, Prod.mk.injEq] at call
        exact elsewhere call.1.symm
      simp only [Links.addNcci, Function.update_of_ne other] at call
      simp only [Links.addNcci, Function.update_of_ne elsewhere]
      exact intact.pointer c q ms owner call some

theorem grows (intact : Intact l) (wired : Wired nbchan l) (grows : Grows nbchan l l') : Intact l' := by
  induction grows with
  | same => exact intact
  | call inRange free _ ih => exact ih (intact.addPlci wired free) (wired.addPlci inRange free)
  | conn live _ ih => exact ih (intact.addNcci wired live) (wired.addNcci live)

/-- A call may go once it has no connections. -/
theorem dropPlci_iff (intact : Intact l) (wired : Wired nbchan l) (live : l.plcis p = some (chan, ns)) :
    Intact (l.dropPlci p chan) ↔ ns = [] := by
  constructor
  · intro after
    apply List.eq_nil_iff_forall_not_mem.mpr
    intro m member
    have conn := (wired.ncciListed p chan ns live m).mp member
    exact after.owner m p chan conn (Function.update_self _ _ _)
  · rintro rfl
    have unused : ∀ m c, l.nccis m ≠ some (p, c) := by
      intro m c conn
      obtain rfl := wired.ncciChan m p c chan [] conn live
      exact absurd ((wired.ncciListed p c [] live m).mpr conn) List.not_mem_nil
    have owner := (wired.chan p chan [] live).2
    constructor
    · intro c m pointer
      obtain ⟨q, ms, its, conn, call⟩ := intact.nccip c m pointer
      have other : q ≠ p := by
        rintro rfl
        exact unused m c conn
      have elsewhere : c ≠ chan := by
        rintro rfl
        cases its.symm.trans owner
        exact other rfl
      refine ⟨q, ms, ?_, conn, ?_⟩
      · simp only [Links.dropPlci, Function.update_of_ne elsewhere, its]
      · simp only [Links.dropPlci, Function.update_of_ne other, call]
    · intro m q c conn
      have other : q ≠ p := by
        rintro rfl
        exact unused m c conn
      simp only [Links.dropPlci, Function.update_of_ne other]
      exact intact.owner m q c conn
    · intro c q ms its call some
      have elsewhere : c ≠ chan := by
        rintro rfl
        simp [Links.dropPlci] at its
      have other : q ≠ p := by
        rintro rfl
        simp [Links.dropPlci] at call
      simp only [Links.dropPlci, Function.update_of_ne elsewhere] at its
      simp only [Links.dropPlci, Function.update_of_ne other] at call
      exact intact.pointer c q ms its call some

/-- A connection may go if it is the only one of its call. -/
theorem dropNcci_iff (intact : Intact l) (wired : Wired nbchan l) (live : l.plcis p = some (chan, ns))
    (conn : l.nccis n = some (p, chan)) : Intact (l.dropNcci n p chan ns) ↔ ns = [n] := by
  have member := (wired.ncciListed p chan ns live n).mpr conn
  have owner := (wired.chan p chan ns live).2
  constructor
  · intro after
    by_contra more
    have rest : ns.erase n ≠ [] := by
      rw [ne_eq, List.erase_eq_nil_iff]
      rintro (none | one)
      · rw [none] at member
        exact List.not_mem_nil member
      · exact more one
    exact after.pointer chan p (ns.erase n) owner (Function.update_self _ _ _) rest (Function.update_self _ _ _)
  · rintro rfl
    constructor
    · intro c m pointer
      have elsewhere : c ≠ chan := by
        rintro rfl
        simp [Links.dropNcci] at pointer
      simp only [Links.dropNcci, Function.update_of_ne elsewhere] at pointer
      obtain ⟨q, ms, its, conn', call⟩ := intact.nccip c m pointer
      have other : q ≠ p := by
        rintro rfl
        cases call.symm.trans live
        exact elsewhere rfl
      have kept : m ≠ n := by
        rintro rfl
        cases conn'.symm.trans conn
        exact other rfl
      refine ⟨q, ms, its, ?_, ?_⟩
      · simp only [Links.dropNcci, Function.update_of_ne kept, conn']
      · simp only [Links.dropNcci, Function.update_of_ne other, call]
    · intro m q c conn'
      have kept : m ≠ n := by
        rintro rfl
        simp [Links.dropNcci] at conn'
      simp only [Links.dropNcci, Function.update_of_ne kept] at conn'
      rcases eq_or_ne q p with rfl | other
      · simp [Links.dropNcci]
      · simp only [Links.dropNcci, Function.update_of_ne other]
        exact intact.owner m q c conn'
    · intro c q ms its call some
      rcases eq_or_ne q p with rfl | other
      · simp only [Links.dropNcci, Function.update_self, List.erase_cons_head, Option.some.injEq, Prod.mk.injEq] at call
        exact absurd call.2.symm some
      · simp only [Links.dropNcci, Function.update_of_ne other] at call
        have elsewhere : c ≠ chan := by
          rintro rfl
          cases owner.symm.trans its
          exact other rfl
        simp only [Links.dropNcci, Function.update_of_ne elsewhere]
        exact intact.pointer c q ms its call some

end Intact

/-! ## Cards -/

/-- The pointer of a channel leads to a live connection of the live call of the channel and is there when the call
has a connection; every connection has a live call. -/
structure Booked (s : Card) : Prop where
  nccip : ∀ c n, (s.bchans c).nccip = some n → ∃ ncci plci, s.nccis n = some ncci ∧
    (s.bchans c).plcip = some ncci.plcip ∧ s.plcis ncci.plcip = some plci ∧ n ∈ plci.ncciList
  owner : ∀ n ncci, s.nccis n = some ncci → ∃ plci, s.plcis ncci.plcip = some plci
  pointer : ∀ c p plci, (s.bchans c).plcip = some p → s.plcis p = some plci → plci.ncciList ≠ [] →
    (s.bchans c).nccip ≠ none

/-- No message releases a call that has connections, or a connection of a call that has another. -/
def ReleasesAlone (env : Env) (s : Card) : Op → Prop
  | .recv msg => ∀ cmsg, capiMessage2cmsg msg = some cmsg →
      (∀ p plci, ReleasesCall env s cmsg p plci → plci.ncciList = []) ∧
      ∀ n ncci plci, ReleasesConn env s cmsg n ncci plci → plci.ncciList = [n]
  | _ => True

section Cards

variable {env : Env} {s s' : Card} {cmsg : Cmsg}

/-- On a wired card to be booked is to be intact. -/
theorem booked_iff {nbchan : Nat} (wired : Wired nbchan s.links) : Booked s ↔ Intact s.links := by
  constructor
  · intro booked
    constructor
    · intro c n pointer
      obtain ⟨ncci, plci, conn, owner, call, member⟩ := booked.nccip c n pointer
      obtain ⟨p, link⟩ := wired.nccip c n pointer
      have mine := links_nccis conn
      cases mine.symm.trans link
      obtain ⟨ns, its⟩ := wired.owner _ _ owner
      exact ⟨_, ns, owner, link, its⟩
    · intro n p c conn
      obtain ⟨ncci, found, rfl, -⟩ := nccis_of_links conn
      obtain ⟨plci, call⟩ := booked.owner n ncci found
      rw [links_plcis call]
      exact Option.some_ne_none _
    · intro c p ns owner call some
      obtain ⟨plci, found, -, rfl⟩ := plcis_of_links call
      exact booked.pointer c p plci owner found some
  · intro intact
    constructor
    · intro c n pointer
      obtain ⟨p, ns, owner, conn, call⟩ := intact.nccip c n pointer
      obtain ⟨ncci, found, rfl, -⟩ := nccis_of_links conn
      obtain ⟨plci, live, -, same⟩ := plcis_of_links call
      refine ⟨ncci, plci, found, owner, live, ?_⟩
      rw [same]
      exact (wired.ncciListed _ _ _ call n).mpr conn
    · intro n ncci conn
      obtain ⟨⟨c, ns⟩, call⟩ := Option.ne_none_iff_exists'.mp (intact.owner n _ _ (links_nccis conn))
      obtain ⟨plci, live, -⟩ := plcis_of_links call
      exact ⟨plci, live⟩
    · intro c p plci owner live some
      obtain ⟨ns, call⟩ := wired.owner c p owner
      have mine := links_plcis live
      cases mine.symm.trans call
      exact intact.pointer _ p _ owner call some

/-- What the message releases is dropped. -/
theorem ReleasesCall.run {p : Nat} {plci : Plci} (valid : Valid env s) (releases : ReleasesCall env s cmsg p plci)
    (data : Bytes) : ∃ s', handleMessage env s cmsg data = some s' ∧ DropsCall s p plci s' := by
  obtain ⟨route, live, ⟨message, found⟩ | ⟨message, error, found, requested⟩⟩ := releases
  · rw [handleMessage_disconnectInd s data route message,
      disconnectInd_drops found (valid.plcis p plci live) (toPlci_adr route)]
    exact ⟨_, rfl, drops_disconnectInd env cmsg live⟩
  · rw [handleMessage_connectConf s data route message, connectConf_failed found error requested]
    exact ⟨_, rfl, drops_connectConf live cmsg.adr⟩

/-- A message that releases a connection drops it. -/
theorem ReleasesConn.run {n : Nat} {ncci : Ncci} {plci : Plci} (valid : Valid env s)
    (releases : ReleasesConn env s cmsg n ncci plci) (data : Bytes) : ∃ s', handleMessage env s cmsg data = some s' ∧
      s'.links = s.links.dropNcci n ncci.plcip plci.chan plci.ncciList := by
  obtain ⟨route, conn, ⟨message, found, known⟩ | ⟨message, error, found, requested⟩⟩ := releases
  · rw [handleMessage_disconnectB3Ind s data route message,
      disconnectB3Ind_drops found conn (valid.nccis n ncci conn.live) known]
    exact ⟨_, rfl, drops_disconnectB3Ind env cmsg conn⟩
  · rw [handleMessage_connectB3Conf s data route message, connectB3Conf_failed found conn error requested]
    exact ⟨_, rfl, drops_connectB3Conf env conn cmsg.adr⟩

/-- The connection it releases is among the links, and its call too. -/
theorem ReleasesConn.links {n : Nat} {ncci : Ncci} {plci : Plci} (releases : ReleasesConn env s cmsg n ncci plci) :
    s.links.plcis ncci.plcip = some (plci.chan, plci.ncciList) ∧ s.links.nccis n = some (ncci.plcip, plci.chan) := by
  obtain ⟨-, conn, -⟩ := releases
  constructor
  · exact links_plcis conn.call
  · rw [links_nccis conn.live, conn.chan]

/-- A step that releases no call with connections keeps the records intact. -/
theorem intact_step (valid : Valid env s) (intact : Intact s.links) {op : Op} (alone : ReleasesAlone env s op)
    (run : step env s op = some s') : Intact s'.links := by
  cases transition valid run with
  | calm calm => exact calm.links ▸ intact
  | command effect => exact intact.grows valid.wired (effect_grows effect)
  | data at_channel conn live active sends => exact sends.calm.links ▸ intact
  | recv decoded reaction =>
    obtain ⟨calls, conns⟩ := alone _ decoded
    rw [links_confirm]
    cases reaction_links valid reaction with
    | grows grows => exact intact.grows valid.wired grows
    | call releases drops =>
      rw [drops.links]
      exact (intact.dropPlci_iff valid.wired (links_plcis releases.live)).mpr (calls _ _ releases)
    | conn releases drops =>
      obtain ⟨call, conn⟩ := releases.links
      rw [drops]
      exact (intact.dropNcci_iff valid.wired call conn).mpr (conns _ _ _ releases)

theorem not_intact_step (valid : Valid env s) (intact : Intact s.links) {op : Op} (alone : ¬ ReleasesAlone env s op) :
    ∃ s', step env s op = some s' ∧ ¬ Intact s'.links := by
  cases op with
  | recv msg =>
    simp only [ReleasesAlone, not_forall] at alone
    obtain ⟨cmsg, decoded, alone⟩ := alone
    rcases not_and_or.mp alone with call | conn
    · simp only [not_forall] at call
      obtain ⟨p, plci, releases, others⟩ := call
      obtain ⟨s₁, handled, drops⟩ := releases.run valid (payload msg)
      refine ⟨_, recv_eq decoded handled, ?_⟩
      rw [links_confirm, drops.links]
      exact fun after => others ((intact.dropPlci_iff valid.wired (links_plcis releases.live)).mp after)
    · simp only [not_forall] at conn
      obtain ⟨n, ncci, plci, releases, others⟩ := conn
      obtain ⟨s₁, handled, drops⟩ := releases.run valid (payload msg)
      obtain ⟨call, conn⟩ := releases.links
      refine ⟨_, recv_eq decoded handled, ?_⟩
      rw [links_confirm, drops]
      exact fun after => others ((intact.dropNcci_iff valid.wired call conn).mp after)
  | _ => exact absurd trivial alone

/-- The connections of a card are booked through a run exactly when no message releases a call that has connections,
or a connection of a call that has another. -/
theorem connections_booked_iff (env : Env) (ops : List Op) :
    Always (step env) Booked Card.init ops ↔ Meets (step env) (ReleasesAlone env) Card.init ops := by
  have free := Meets.unconditional (step env) Card.init ops
  have start : Intact Card.init.links := ⟨nofun, nofun, nofun⟩
  apply always_iff_meets (fun s => Valid env s ∧ Intact s.links) ?_ ?_ ?_ ⟨valid_init env, start⟩ free
  · intro s ⟨valid, intact⟩
    exact (booked_iff valid.wired).mpr intact
  · intro s op s' ⟨valid, intact⟩ _ alone run
    exact ⟨valid_step valid run, intact_step valid intact alone run⟩
  · intro s op ⟨valid, intact⟩ _ alone
    obtain ⟨s', run, broken⟩ := not_intact_step valid intact alone
    refine ⟨s', run, fun booked => broken ?_⟩
    exact (booked_iff (valid_step valid run).wired).mp booked

end Cards

/-- A dialled call gets a connection from the controller and is then disconnected. -/
def disconnectedFirst : List Op :=
  [.command (.DIAL 0 .empty .empty 1 0),
   .recv (controllerMsg CAPI_CONNECT_CONF 0 [1, 1, 0, 0] [0, 0]),
   .recv (controllerMsg CAPI_CONNECT_B3_IND 0 [1, 1, 1, 0] [0]),
   .recv (controllerMsg CAPI_DISCONNECT_IND 0 [1, 1, 0, 0] [0, 0])]

/-- The record of the connection is left without a call. -/
theorem connection_orphaned : ¬ Always (step Env.granting) Booked Card.init disconnectedFirst := by
  intro always
  obtain ⟨s', run⟩ : ∃ s', exec (step Env.granting) Card.init disconnectedFirst = some s' := ⟨_, rfl⟩
  have conn : (exec (step Env.granting) Card.init disconnectedFirst).bind
      (fun s => (s.nccis 0).map Ncci.plcip) = some 0 := rfl
  have call : (exec (step Env.granting) Card.init disconnectedFirst).map (fun s => (s.plcis 0).isSome) =
      some false := rfl
  rw [run] at conn call
  obtain ⟨ncci, found, plcip⟩ := Option.map_eq_some_iff.mp conn
  obtain ⟨plci, live⟩ := (always.last run).owner 0 ncci found
  rw [plcip] at live
  simp [live] at call

end Capi4Linux.Capidrv
