import Capi4Linux.Capidrv.Lifecycle

/-!
# The end of a call, at any stage

Whatever stage a call is at, the controller can end it: it ends the connections
of the call, the newest first, and then the call. Nothing is left of the call,
and the others do not notice.
-/

namespace Capi4Linux.Capidrv
open Bytes Capicore Capiutil Machine

/-- The message ends a connection of the call with number `x`: it refuses the connection, if that is not confirmed yet,
or disconnects it. -/
def EndsConn (env : Env) (x : UInt32) (ncci : Ncci) (msg : Bytes) : Prop :=
  ∃ cmsg, capiMessage2cmsg msg = some cmsg ∧ toNcci env cmsg ∧ cmsg.adr &&& 0xffff = x ∧
    if ncci.state = .OUTGOING then
      cmd cmsg = CAPI_CONNECT_B3_CONF ∧ cmsg.messagenumber = ncci.msgid ∧ cmsg.word .info ≠ 0
    else cmd cmsg = CAPI_DISCONNECT_B3_IND ∧ cmsg.adr = ncci.ncci

/-- `t` is `s` after call `p` lost the connections `lost`; it still has `ns`. -/
structure Loses (s t : Card) (p : Nat) (plci : Plci) (lost ns : List Nat) : Prop where
  call : ∃ plci', t.plcis = Function.update s.plcis p (some plci') ∧ plci'.plci = plci.plci ∧ plci'.chan = plci.chan ∧
    plci'.ncciList = ns
  nccis : ∀ m, t.nccis m = if m ∈ lost then none else s.nccis m
  plciList : t.plciList = s.plciList
  freed : t.freed = s.freed
  others : ∀ c, c ≠ plci.chan → t.bchans c = s.bchans c
  nccip : (t.bchans plci.chan).nccip = if lost = [] then (s.bchans plci.chan).nccip else none
  status : t.status = s.status ++ List.replicate lost.length (.BHUP plci.chan)

/-- `t` is `s` without call `p` and its connections `lost`. -/
structure Ended (s t : Card) (p : Nat) (plci : Plci) (lost : List Nat) : Prop where
  idle : Idle t plci.chan
  plcis : t.plcis = Function.update s.plcis p none
  nccis : ∀ m, t.nccis m = if m ∈ lost then none else s.nccis m
  plciList : t.plciList = s.plciList.erase p
  freed : t.freed = s.freed ++ [p]
  others : ∀ c, c ≠ plci.chan → t.bchans c = s.bchans c
  nccip : (t.bchans plci.chan).nccip = if lost = [] then (s.bchans plci.chan).nccip else none
  status : t.status = s.status ++ List.replicate lost.length (.BHUP plci.chan) ++ [.DHUP plci.chan]

section Endings

variable {env : Env} {s t : Card} {p n : Nat} {plci : Plci} {ncci : Ncci} {lost ns : List Nat} {msg : Bytes} {cmsg : Cmsg}

/-- A record that is the only one to pass a test is found. -/
theorem findPlci_only {test : Plci → Bool} (live : s.plcis p = some plci) (listed : p ∈ s.plciList)
    (passes : test plci = true) (only : ∀ q other, s.plcis q = some other → test other = true → q = p) :
    findPlci s test = some (p, plci) := by
  unfold findPlci
  generalize s.plciList = ps at listed
  induction ps with
  | nil => cases listed
  | cons q ps ih =>
    rw [List.findSome?_cons]
    cases here : s.plcis q with
    | none =>
      have later : p ∈ ps := by
        rcases List.mem_cons.1 listed with rfl | later
        · cases live.symm.trans here
        · exact later
      exact ih later
    | some other =>
      cases hit : test other with
      | true =>
        obtain rfl := only q other here hit
        cases live.symm.trans here
        simp [hit]
      | false =>
        have later : p ∈ ps := by
          rcases List.mem_cons.1 listed with rfl | later
          · cases live.symm.trans here
            cases passes.symm.trans hit
          · exact later
        simpa [hit] using ih later

theorem Loses.refl (live : s.plcis p = some plci) : Loses s s p plci [] plci.ncciList := by
  refine ⟨⟨plci, (Function.update_eq_self_iff.2 live.symm).symm, rfl, rfl, rfl⟩, fun m => ?_, rfl, rfl, fun _ _ => rfl, ?_, ?_⟩
  · rw [if_neg List.not_mem_nil]
  · rw [if_pos rfl]
  · rw [List.length_nil, List.replicate_zero, List.append_nil]

theorem Loses.confirm (loses : Loses s t p plci lost ns) (cmsg : Cmsg) :
    Loses s (confirm env t cmsg) p plci lost ns := by
  unfold Capidrv.confirm
  split
  · exact ⟨loses.call, loses.nccis, loses.plciList, loses.freed, loses.others, loses.nccip, loses.status⟩
  · exact loses

/-- One more connection is dropped. -/
theorem Loses.dropNcci (loses : Loses s t p plci lost (n :: ns)) {call : Plci} (live : t.plcis p = some call)
    {u : Card} (plcis : u.plcis = t.plcis) (nccis : ∀ m, m ≠ n → u.nccis m = t.nccis m) (list : u.plciList = t.plciList)
    (freed : u.freed = t.freed) (bchans : ∀ c, c ≠ plci.chan → u.bchans c = t.bchans c) (status : u.status = t.status)
    (env : Env) (plcip : ncci.plcip = p) (here : ncci.chan = plci.chan) :
    Loses s (u.dropNcci env n ncci call) p plci (lost ++ [n]) ns := by
  obtain ⟨call', replaced, number, chan, list'⟩ := loses.call
  have same : call = call' := by
    rw [replaced, Function.update_self] at live
    exact (Option.some.inj live).symm
  subst same
  refine ⟨⟨{ call.after .DISCONNECT_REQ with ncciList := call.ncciList.erase n }, ?_, number, chan, ?_⟩, fun m => ?_,
    list.trans loses.plciList, freed.trans loses.freed, fun c other => ?_, ?_, ?_⟩
  · rw [Card.dropNcci, plcip, plcis, replaced, Function.update_idem]
  · show call.ncciList.erase n = ns
    rw [list', List.erase_cons_head]
  · show Function.update u.nccis n none m = _
    rcases eq_or_ne m n with rfl | other
    · simp
    · rw [Function.update_of_ne other, nccis m other, loses.nccis]
      simp [other]
  · show Function.update u.bchans ncci.chan _ c = _
    rw [here, Function.update_of_ne other, bchans c other, loses.others c other]
  · show (Function.update u.bchans ncci.chan { u.bchans ncci.chan with nccip := none } plci.chan).nccip = _
    rw [here, Function.update_self]
    simp
  · show u.status ++ [.BHUP ncci.chan] = _
    rw [here, status, loses.status, List.append_assoc, List.length_append, List.length_singleton, List.replicate_succ']

/-- The message for the newest connection ends it. -/
theorem conn_ends (valid : Valid env t) (loses : Loses s t p plci lost (n :: ns))
    (unique : ∀ q other, s.plcis q = some other → other.plci = plci.plci → q = p) (fresh : n ∉ lost)
    (here : s.nccis n = some ncci) (ends : EndsConn env plci.plci ncci msg) :
    ∃ t', step env t (.recv msg) = some t' ∧ Loses s t' p plci (lost ++ [n]) ns := by
  obtain ⟨call, replaced, number, chan, list⟩ := loses.call
  obtain ⟨cmsg, decoded, route, narrow, message⟩ := ends
  have call_live : t.plcis p = some call := by rw [replaced, Function.update_self]
  have conn_live : t.nccis n = some ncci := by rw [loses.nccis, if_neg fresh, here]
  have member : n ∈ call.ncciList := list ▸ List.mem_cons_self
  obtain ⟨plcip, conn⟩ := valid.wired.conn call_live member conn_live
  have only : ∀ q other, t.plcis q = some other → decide (other.plci = cmsg.adr &&& 0xffff) = true → q = p := by
    intro q other found same
    by_contra apart
    rw [replaced, Function.update_of_ne apart] at found
    exact apart (unique q other found ((of_decide_eq_true same).trans narrow))
  have found : findPlciByNcci t cmsg.adr = some (p, call) :=
    findPlci_only call_live (valid.wired.listedPlci call_live) (decide_eq_true (number.trans narrow.symm)) only
  have first {test : Ncci → Bool} (passes : test ncci = true) : findNcciOf t call test = some (n, ncci) := by
    unfold findNcciOf
    rw [list, List.findSome?_cons, conn_live]
    simp [passes]
  have home : ncci.chan = plci.chan := conn.chan.trans chan
  split at message
  · rename_i requested
    obtain ⟨message, known, error⟩ := message
    have found' : findNcciByMsgid t cmsg.adr cmsg.messagenumber = some (n, ncci) := by
      unfold findNcciByMsgid
      rw [found, Option.bind_some]
      exact first (decide_eq_true known.symm)
    have handled : handleMessage env t cmsg (payload msg) = _ :=
      (handleMessage_connectB3Conf t (payload msg) route message).trans (connectB3Conf_failed found' conn error requested)
    refine ⟨_, recv_eq decoded handled, Loses.confirm ?_ cmsg⟩
    exact loses.dropNcci (u := t.setNcci n { ncci with ncci := cmsg.adr }) call_live rfl
      (fun m other => Function.update_of_ne other _ _) rfl rfl (fun _ _ => rfl) rfl env plcip home
  · rename_i known
    obtain ⟨message, same⟩ := message
    have found' : findNcci t cmsg.adr = some (n, ncci) := by
      unfold findNcci
      rw [found, Option.bind_some]
      exact first (decide_eq_true same.symm)
    have handled : handleMessage env t cmsg (payload msg) = _ :=
      (handleMessage_disconnectB3Ind t (payload msg) route message).trans
        (disconnectB3Ind_drops found' conn (valid.nccis n ncci conn_live) known)
    refine ⟨_, recv_eq decoded handled, Loses.confirm ?_ cmsg⟩
    refine loses.dropNcci (u := answer env ((t.flag ncci.chan).setNcci n (ncci.after .DISCONNECT_B3_IND)) cmsg) call_live rfl
      (fun m other => ?_) rfl rfl (fun c other => ?_) rfl env ((ncci.after_plcip _).trans plcip)
      ((ncci.after_chan _).trans home)
    · exact Function.update_of_ne other _ _
    · show Function.update t.bchans ncci.chan _ c = _
      rw [home, Function.update_of_ne other]

/-- The connections of a call are ended one after the other. -/
theorem conns_end (unique : ∀ q other, s.plcis q = some other → other.plci = plci.plci → q = p) {msgs : List Bytes} :
    ∀ {t : Card} {lost : List Nat}, Valid env t → Loses s t p plci lost ns → (lost ++ ns).Nodup →
      List.Forall₂ (fun n msg => ∃ ncci, s.nccis n = some ncci ∧ EndsConn env plci.plci ncci msg) ns msgs →
      ∃ t', exec (step env) t (msgs.map .recv) = some t' ∧ Valid env t' ∧ Loses s t' p plci (lost ++ ns) [] := by
  induction ns generalizing msgs with
  | nil =>
    intro t lost valid loses _ ends
    cases ends
    exact ⟨t, rfl, valid, by rwa [List.append_nil]⟩
  | cons n ns ih =>
    intro t lost valid loses nodup ends
    cases ends with
    | @cons _ msg _ msgs first rest =>
      obtain ⟨ncci, here, first⟩ := first
      have fresh : n ∉ lost := fun member => (List.nodup_append.1 nodup).2.2 n member n List.mem_cons_self rfl
      obtain ⟨t₁, run, loses₁⟩ := conn_ends valid loses unique fresh here first
      rw [← List.singleton_append, ← List.append_assoc] at nodup
      obtain ⟨t', runs, valid', loses'⟩ := ih (valid_step valid run) loses₁ nodup rest
      refine ⟨t', ?_, valid', ?_⟩
      · rw [List.map_cons, exec, run]
        exact runs
      · rwa [List.append_assoc] at loses'

/-- The record of the call goes. -/
theorem Loses.dropPlci (loses : Loses s t p plci lost ns) {call : Plci} {u : Card}
    (plcis : u.plcis = Function.update t.plcis p (some call)) (nccis : u.nccis = t.nccis)
    (list : u.plciList = t.plciList) (freed : u.freed = t.freed) (bchans : ∀ c, c ≠ plci.chan → u.bchans c = t.bchans c)
    (nccip : (u.bchans plci.chan).nccip = (t.bchans plci.chan).nccip) (status : u.status = t.status)
    (here : call.chan = plci.chan) : Ended s (u.dropPlci p call) p plci lost := by
  obtain ⟨call', replaced, -⟩ := loses.call
  refine ⟨⟨?_, ?_, ?_⟩, ?_, ?_, ?_, ?_, fun c other => ?_, ?_, ?_⟩
  · simp [Card.dropPlci, here]
  · simp [Card.dropPlci, here]
  · simp [Card.dropPlci, here]
  · rw [Card.dropPlci, plcis, replaced, Function.update_idem, Function.update_idem]
  · intro m
    exact (congrFun nccis m).trans (loses.nccis m)
  · show u.plciList.erase p = _
    rw [list, loses.plciList]
  · show u.freed ++ [p] = _
    rw [freed, loses.freed]
  · show Function.update u.bchans call.chan _ c = _
    rw [here, Function.update_of_ne other, bchans c other, loses.others c other]
  · show (Function.update u.bchans call.chan _ plci.chan).nccip = _
    rw [here, Function.update_self]
    exact nccip.trans loses.nccip
  · show u.status ++ [.DHUP call.chan] = _
    rw [here, status, loses.status]

theorem Ended.confirm (ended : Ended s t p plci lost) (cmsg : Cmsg) : Ended s (confirm env t cmsg) p plci lost := by
  unfold Capidrv.confirm
  split
  · exact ⟨⟨ended.idle.plcip, ended.idle.disconnecting, ended.idle.incoming⟩, ended.plcis, ended.nccis, ended.plciList,
      ended.freed, ended.others, ended.nccip, ended.status⟩
  · exact ended

end Endings

/-- The messages of a controller that ends call `p` as it is in `s`, and the connections that they end. A call that is
not confirmed yet is refused. -/
inductive EndsCall (env : Env) (s : Card) (plci : Plci) : List Bytes → List Nat → Prop
  | refuse {msg : Bytes} {cmsg : Cmsg} : plci.state = .OUTGOING → capiMessage2cmsg msg = some cmsg → toPlci env cmsg →
      cmd cmsg = CAPI_CONNECT_CONF → cmsg.messagenumber = plci.msgid → cmsg.word .info ≠ 0 → EndsCall env s plci [msg] []
  | disconnect {msgs : List Bytes} {last : Bytes} {cmsg : Cmsg} : plci.state ≠ .OUTGOING →
      List.Forall₂ (fun n msg => ∃ ncci, s.nccis n = some ncci ∧ EndsConn env plci.plci ncci msg) plci.ncciList msgs →
      Carries last cmsg CAPI_DISCONNECT_IND plci.plci → toPlci env cmsg →
      EndsCall env s plci (msgs ++ [last]) plci.ncciList

/-- The controller has one call only under the number of this one; before it gives a number, that of the request. -/
def Sole (s : Card) (p : Nat) (plci : Plci) : Prop :=
  ∀ q other, s.plcis q = some other →
    (if plci.state = .OUTGOING then other.msgid = plci.msgid else other.plci = plci.plci) → q = p

/-- In every state that a card can reach, a call at any stage is over when the controller ends its connections and the
call: its line is idle, isdn4linux is told of the end of each connection and then of the call, the record of the call
is freed, and the records and lines of other calls are as they were. -/
theorem call_ends (env : Env) (ops : List Op) {s : Card} (run : exec (step env) Card.init ops = some s) {p : Nat}
    {plci : Plci} (live : s.plcis p = some plci) (known : Sole s p plci) {msgs : List Bytes} {lost : List Nat}
    (ends : EndsCall env s plci msgs lost) :
    ∃ s', exec (step env) s (msgs.map .recv) = some s' ∧ Ended s s' p plci lost := by
  have valid : Valid env s := (always_of_inv (fun s op s' valid _ run => valid_step valid run) (valid_init env)
    (Meets.unconditional (step env) Card.init ops)).last run
  cases ends with
  | @refuse msg cmsg requested decoded route message number error =>
    have found : findPlciByMsgid s cmsg.messagenumber = some (p, plci) := by
      apply findPlci_only live (valid.wired.listedPlci live) (decide_eq_true number.symm)
      intro q other here same
      apply known q other here
      rw [if_pos requested]
      exact (of_decide_eq_true same).trans number
    have handled : handleMessage env s cmsg (payload msg) = _ :=
      (handleMessage_connectConf s (payload msg) route message).trans (connectConf_failed found error requested)
    refine ⟨_, by rw [List.map_cons, List.map_nil, exec, recv_eq decoded handled]; rfl, ?_⟩
    have ended : Ended s ((s.setPlci p { plci with plci := cmsg.adr }).dropPlci p { plci with plci := cmsg.adr }) p plci [] :=
      (Loses.refl live).dropPlci rfl rfl rfl rfl (fun _ _ => rfl) rfl rfl rfl
    exact ended.confirm cmsg
  | @disconnect msgs last cmsg confirmed conns carries route =>
    have unique : ∀ q other, s.plcis q = some other → other.plci = plci.plci → q = p := by
      intro q other here same
      apply known q other here
      rwa [if_neg confirmed]
    have nodup := valid.wired.ncciNodup p _ _ (links_plcis live)
    obtain ⟨t, runs, valid', loses⟩ := conns_end unique valid (Loses.refl live) nodup conns
    rw [List.nil_append] at loses
    obtain ⟨call, replaced, number, chan, list⟩ := loses.call
    have call_live : t.plcis p = some call := by rw [replaced, Function.update_self]
    have found : findPlciByPlci t cmsg.adr = some (p, call) := by
      apply findPlci_only call_live (valid'.wired.listedPlci call_live) (decide_eq_true (number.trans carries.adr.symm))
      intro q other here same
      by_contra apart
      rw [replaced, Function.update_of_ne apart] at here
      exact apart (unique q other here ((of_decide_eq_true same).trans carries.adr))
    have handled : handleMessage env t cmsg (payload last) = _ :=
      (handleMessage_disconnectInd t (payload last) route carries.message).trans
        (disconnectInd_drops found (valid'.plcis p call call_live) (toPlci_adr route))
    have last_step := carries.step handled
    refine ⟨_, by rw [List.map_append, exec_append, runs, Option.bind_some, List.map_singleton, exec, last_step]; rfl, ?_⟩
    have flagged : ∀ c, c ≠ plci.chan → (t.flag call.chan).bchans c = t.bchans c := by
      intro c other
      rw [chan]
      exact Function.update_of_ne other _ _
    have pointer : ((t.flag call.chan).bchans plci.chan).nccip = (t.bchans plci.chan).nccip := by
      rw [chan, flag_bchan]
    have ended := loses.dropPlci (u := answer env ((t.flag call.chan).setPlci p (call.after .DISCONNECT_IND)) cmsg) rfl rfl
      rfl rfl flagged pointer rfl chan
    exact ended.confirm cmsg

/-- A call comes about. -/
def dialling : List Op :=
  [.command (.DIAL 0 .empty .empty 1 0), .recv (controllerMsg CAPI_CONNECT_CONF 0 [1, 1, 0, 0] [0, 0]),
    .recv (controllerMsg CAPI_CONNECT_ACTIVE_IND 0 [1, 1, 0, 0] [0, 0, 0]),
    .recv (controllerMsg CAPI_CONNECT_B3_CONF 1 [1, 1, 1, 0] [0, 0])]

/-- The card then. -/
def dialled : Card := (exec (step Env.granting) Card.init dialling).getD Card.init

/-- The controller ends it. -/
def ending : List Bytes :=
  [controllerMsg CAPI_DISCONNECT_B3_IND 0 [1, 1, 1, 0] [0, 0, 0], controllerMsg CAPI_DISCONNECT_IND 0 [1, 1, 0, 0] [0, 0]]

theorem call_ends_dialled : exec (step Env.granting) Card.init dialling = some dialled ∧
    ∃ s', exec (step Env.granting) dialled (ending.map .recv) = some s' ∧ Idle s' 0 ∧
      s'.status = dialled.status ++ [.BHUP 0, .DHUP 0] := by
  have run : exec (step Env.granting) Card.init dialling = some dialled := rfl
  have valid : Valid Env.granting dialled :=
    (always_of_inv (fun s op s' valid _ run => valid_step valid run) (valid_init Env.granting)
      (Meets.unconditional (step Env.granting) Card.init dialling)).last run
  have known : Sole dialled 0 { plci := 0x101, msgid := 0, chan := 0, state := .ACTIVE, leasedline := false, ncciList := [0] } := by
    intro q other here _
    exact List.mem_singleton.1 (valid.wired.listedPlci here : q ∈ [0])
  have conns : List.Forall₂ (fun n msg => ∃ ncci, dialled.nccis n = some ncci ∧ EndsConn Env.granting 0x101 ncci msg) [0]
      [controllerMsg CAPI_DISCONNECT_B3_IND 0 [1, 1, 1, 0] [0, 0, 0]] :=
    .cons ⟨_, rfl, _, rfl, by decide, rfl, by decide⟩ .nil
  have gone : ∃ cmsg, Carries (controllerMsg CAPI_DISCONNECT_IND 0 [1, 1, 0, 0] [0, 0]) cmsg CAPI_DISCONNECT_IND 0x101 ∧
      toPlci Env.granting cmsg := ⟨_, ⟨rfl, rfl, rfl⟩, by decide⟩
  obtain ⟨cmsg, carries, route⟩ := gone
  obtain ⟨s', runs, ended⟩ := call_ends Env.granting dialling run rfl known (.disconnect (by decide) conns carries route)
  exact ⟨run, s', runs, ended.idle, ended.status⟩

end Capi4Linux.Capidrv
