import Capi4Linux.Capidrv.Sendbuf
import Capi4Linux.Lib.AckQueue

/-!
# Acknowledged blocks

isdn4linux is told once of every block that it sent with `doack`: by the first
DATA_B3_CONF with the handle of the block. The runs are calls of `if_sendbuf`
for a channel and DATA_B3_CONF messages for its connection, in any order.
-/

namespace Capi4Linux.Capidrv
open Bytes Capicore Capiutil Machine AckQueue

/-- A block that was sent: its length, and `doack`. -/
abbrev Block : Type := Nat × Bool

/-- What `ackqueue` has for it. -/
def Block.entry (block : Block) : Int := ackLen block.2 block.1

/-! ## Runs on one connection -/

/-- NCCI `x` is the connection of a channel. -/
structure OnChannel (chan n : Nat) (x : UInt32) (s : Card) (ncci : Ncci) : Prop where
  conn : (s.bchans chan).nccip = some n
  found : findNcci s x = some (n, ncci)
  chan : ncci.chan = chan

/-- A call of `if_sendbuf` for the channel, or a DATA_B3_CONF for the NCCI. -/
def OnConnection (env : Env) (chan : Nat) (x : UInt32) : Op → Prop
  | .sendbuf arg _ _ => channel env arg = some chan
  | .recv msg => ∃ cmsg, capiMessage2cmsg msg = some cmsg ∧ cmd cmsg = CAPI_DATA_B3_CONF ∧ cmsg.adr = x
  | _ => False

/-- What a step tells about the blocks of a connection: one is accepted, or a handle is confirmed. -/
def events (env : Env) (n : Nat) (s : Card) : Op → List (Event UInt16 Block)
  | .sendbuf arg doack skb =>
    match s.nccis n, ifSendbufPaths env s arg doack skb with
    | some ncci, some o => if o.accepted = [] then [] else [.sent ncci.datahandle (skb.data.length, doack)]
    | _, _ => []
  | .recv msg =>
    match capiMessage2cmsg msg with
    | some cmsg => [.confirmed (cmsg.word .dataHandle)]
    | none => []
  | _ => []

/-- A step, with the events of the run so far. -/
def traced (env : Env) (n : Nat) (t : Card × List (Event UInt16 Block)) (op : Op) :
    Option (Card × List (Event UInt16 Block)) :=
  (step env t.1 op).map fun s' => (s', events env n t.1 op ++ t.2)

/-- The callbacks for an event: one for the confirmation of a block sent with `doack` that waits for it. -/
def owed (chan : Nat) (before : List (Event UInt16 Block)) : Event UInt16 Block → List Status
  | .sent _ _ => []
  | .confirmed datahandle =>
    match waiting datahandle before with
    | some (len, true) => [.BSENT chan len]
    | _ => []

/-- A block is sent with a handle under which none waits. -/
def HandleFree (n : Nat) (t : Card × List (Event UInt16 Block)) : Op → Prop
  | .sendbuf _ _ _ => ∀ ncci, t.1.nccis n = some ncci → waiting ncci.datahandle t.2 = none
  | _ => True

section Steps

variable {env : Env} {s s' : Card} {chan n : Nat} {x : UInt32} {ncci ncci' : Ncci}

/-- Looking for an NCCI in a card in which its record was changed. -/
theorem findNcci_changed (found : findNcci s x = some (n, ncci)) (plcis : s'.plcis = s.plcis)
    (plciList : s'.plciList = s.plciList) (nccis : s'.nccis = Function.update s.nccis n (some ncci'))
    (same : ncci'.ncci = ncci.ncci) : findNcci s' x = some (n, ncci') := by
  obtain ⟨e, call, conn⟩ := Option.bind_eq_some_iff.mp found
  have call' : findPlciByNcci s' x = some e := by
    rw [← call]
    unfold findPlciByNcci findPlci
    rw [plcis, plciList]
  rw [findNcci, call', Option.bind_some]
  unfold findNcciOf at conn ⊢
  obtain ⟨front, m, rest, list, here, passed⟩ := List.findSome?_eq_some_iff.mp conn
  obtain ⟨live, -, number⟩ := findNcciOf_some conn
  have here : m = n := by
    obtain ⟨ncci', live', hit⟩ := Option.bind_eq_some_iff.mp here
    split at hit
    · cases hit
      rfl
    · cases hit
  subst here
  apply List.findSome?_eq_some_iff.mpr
  refine ⟨front, m, rest, list, ?_, ?_⟩
  · have test : ncci'.ncci = x := same.trans (of_decide_eq_true number)
    rw [nccis, Function.update_self, Option.bind_some, if_pos (decide_eq_true test)]
  · intro k member
    have other : k ≠ m := by
      rintro rfl
      have missed := passed k member
      rw [live, Option.bind_some, if_pos number] at missed
      cases missed
    rw [nccis, Function.update_of_ne other]
    exact passed k member

theorem OnChannel.live (on : OnChannel chan n x s ncci) : s.nccis n = some ncci := by
  obtain ⟨e, -, conn⟩ := Option.bind_eq_some_iff.mp on.found
  exact (findNcciOf_some conn).1

/-- What neither a call of `if_sendbuf` nor a DATA_B3_CONF touches. -/
structure SameCalls (s s' : Card) : Prop where
  bchans : s'.bchans = s.bchans
  plcis : s'.plcis = s.plcis
  plciList : s'.plciList = s.plciList

theorem SameCalls.trans {s'' : Card} (same : SameCalls s s') (same' : SameCalls s' s'') : SameCalls s s'' :=
  ⟨same'.bchans.trans same.bchans, same'.plcis.trans same.plcis, same'.plciList.trans same.plciList⟩

/-- A connection that keeps its number and channel is still the channel's. -/
theorem OnChannel.changed (on : OnChannel chan n x s ncci) (same : SameCalls s s')
    (nccis : s'.nccis = Function.update s.nccis n (some ncci')) (number : ncci'.ncci = ncci.ncci)
    (place : ncci'.chan = ncci.chan) : OnChannel chan n x s' ncci' where
  conn := by
    rw [same.bchans]
    exact on.conn
  found := findNcci_changed on.found same.plcis same.plciList nccis number
  chan := place.trans on.chan

/-- Where no connection changes it is the channel's as before. -/
theorem OnChannel.same (on : OnChannel chan n x s ncci) (same : SameCalls s s') (nccis : s'.nccis = s.nccis) :
    OnChannel chan n x s' ncci := by
  apply on.changed same ?_ rfl rfl
  rw [nccis, ← on.live, Function.update_eq_self]

/-- A block on a channel is accepted and gets an entry, or it leaves nothing behind. -/
inductive Queues (n : Nat) (s : Card) (ncci : Ncci) (block : Block) (o : Sending) : Prop
  | accepted (taken : o.accepted ≠ []) (nccis : o.card.nccis = Function.update s.nccis n (some
      { ncci with
        ackqueue := ncci.ackqueue ++ [(ncci.datahandle, block.entry)]
        datahandle := ncci.datahandle + 1 }))
  | refused (none : o.accepted = []) (nccis : o.card.nccis = s.nccis)

/-- Both paths send a block under a handle not in use. -/
theorem ifSendbufPaths_sends {arg : Nat} (doack : Bool) (skb : Buf) (on : OnChannel chan n x s ncci)
    (at_channel : channel env arg = some chan) (fresh : ∀ e ∈ ncci.ackqueue, e.1 ≠ ncci.datahandle) :
    ∃ o, ifSendbufPaths env s arg doack skb = some o ∧ SameCalls s o.card ∧ o.card.status = s.status ∧
      Queues n s ncci (skb.data.length, doack) o := by
  by_cases active : ncci.state = .ACTIVE
  · have put : ∀ tick given owner, let o := posted env s chan n ncci doack skb tick given owner
        SameCalls s o.card ∧ o.card.status = s.status ∧ Queues n s ncci (skb.data.length, doack) o := by
      intro tick given owner
      unfold posted
      by_cases taken : env.put s.sent.length = .NOERR
      · simp only [taken, if_true]
        exact ⟨⟨rfl, rfl, rfl⟩, rfl, .accepted (List.cons_ne_nil _ _) rfl⟩
      · simp only [taken, if_false]
        exact ⟨⟨rfl, rfl, rfl⟩, trivial, .refused rfl rfl⟩
    have none : ∀ tick, let o := withdrawn s tick skb
        SameCalls s o.card ∧ o.card.status = s.status ∧ Queues n s ncci (skb.data.length, doack) o :=
      fun tick => ⟨⟨rfl, rfl, rfl⟩, rfl, .refused rfl rfl⟩
    refine ⟨_, ifSendbufPaths_eq on.live fresh at_channel on.conn active, ?_⟩
    split
    · exact none _
    split
    · exact put _ _ _
    split
    · exact put _ _ _
    · exact none _
  · refine ⟨⟨s, 0, skb, .caller, []⟩, ?_, ⟨rfl, rfl, rfl⟩, rfl, .refused rfl rfl⟩
    unfold ifSendbufPaths
    simp only [at_channel, on.conn, on.live, Option.bind_eq_bind, Option.bind_some]
    exact if_pos active

/-- A block is never answered with a callback. -/
theorem sendbuf_owes {es : List (Event UInt16 Block)} {arg : Nat} (doack : Bool) (skb : Buf)
    (on : OnChannel chan n x s ncci) (records : Records Block.entry ncci.ackqueue es)
    (at_channel : channel env arg = some chan) (none : waiting ncci.datahandle es = none) :
    ∃ s', step env s (.sendbuf arg doack skb) = some s' ∧
      s'.status = s.status ++ (events env n s (.sendbuf arg doack skb)).flatMap (owed chan es) ∧
      ∃ ncci', OnChannel chan n x s' ncci' ∧
        Records Block.entry ncci'.ackqueue (events env n s (.sendbuf arg doack skb) ++ es) := by
  obtain ⟨o, sent, same, status, queues⟩ := ifSendbufPaths_sends doack skb on at_channel (records.fresh none)
  have run : step env s (.sendbuf arg doack skb) = some o.card := by
    rw [step, ifSendbuf_eq_paths, sent]
    rfl
  have told : events env n s (.sendbuf arg doack skb) =
      if o.accepted = [] then [] else [.sent ncci.datahandle (skb.data.length, doack)] := by
    simp only [events, on.live, sent]
  rw [told]
  refine ⟨o.card, run, ?_⟩
  cases queues with
  | accepted taken nccis =>
    rw [if_neg taken]
    refine ⟨?_, _, on.changed same nccis rfl rfl, records.sent none _⟩
    rw [status]
    exact (List.append_nil _).symm
  | refused none nccis =>
    rw [if_pos none]
    refine ⟨?_, ncci, on.same same nccis, records⟩
    rw [status]
    exact (List.append_nil _).symm

/-- The first entry of a handle goes, if there is one. -/
theorem capidrvDelAck_eq (live : s.nccis n = some ncci) (datahandle : UInt16) : capidrvDelAck s n datahandle =
    some (s.setNcci n { ncci with ackqueue := AckQueue.confirm datahandle ncci.ackqueue },
      ((entry datahandle ncci.ackqueue).map Prod.snd).getD (-1)) := by
  unfold capidrvDelAck
  simp only [live, Option.bind_eq_bind, Option.bind_some]
  cases known : entry datahandle ncci.ackqueue with
  | none =>
    have missing : ncci.ackqueue.find? (fun e => decide (e.1 = datahandle)) = none := known
    have same : s.setNcci n ncci = s := by rw [Card.setNcci, ← live, Function.update_eq_self]
    rw [missing, confirm_of_none known]
    exact congrArg (fun t => some (t, -1)) same.symm
  | some e =>
    have first : ncci.ackqueue.find? (fun e => decide (e.1 = datahandle)) = some e := known
    rw [first]
    rfl

/-- The outstanding requests are no part of the calls. -/
theorem confirm_keeps (env : Env) (s : Card) (cmsg : Cmsg) : SameCalls s (confirm env s cmsg) ∧
    (confirm env s cmsg).nccis = s.nccis ∧ (confirm env s cmsg).status = s.status := by
  unfold confirm
  split
  · exact ⟨⟨rfl, rfl, rfl⟩, rfl, rfl⟩
  · exact ⟨⟨rfl, rfl, rfl⟩, rfl, rfl⟩

/-- A confirmation is answered with a callback if a block sent with `doack` waits for it. -/
theorem dataB3Conf_owes {es : List (Event UInt16 Block)} {cmsg : Cmsg} (on : OnChannel chan n cmsg.adr s ncci)
    (records : Records Block.entry ncci.ackqueue es) : ∃ s', dataB3Conf s cmsg = some s' ∧ SameCalls s s' ∧
      s'.nccis = Function.update s.nccis n
        (some { ncci with ackqueue := AckQueue.confirm (cmsg.word .dataHandle) ncci.ackqueue }) ∧
      s'.status = s.status ++ owed chan es (.confirmed (cmsg.word .dataHandle)) := by
  let len := ((waiting (cmsg.word .dataHandle) es).map Block.entry).getD (-1)
  let t := s.setNcci n { ncci with ackqueue := AckQueue.confirm (cmsg.word .dataHandle) ncci.ackqueue }
  have run : dataB3Conf s cmsg = some (if len < 0 then t else t.statcallb (.BSENT ncci.chan len)) := by
    have first : (entry (cmsg.word .dataHandle) ncci.ackqueue).map Prod.snd =
        (waiting (cmsg.word .dataHandle) es).map Block.entry := by
      rw [records.entries, Option.map_map]
      rfl
    unfold dataB3Conf
    rw [on.found]
    simp only [capidrvDelAck_eq on.live, Option.bind_eq_bind, Option.bind_some, len, ← first]
    split
    · rfl
    · rfl
  have silent : len < 0 → owed chan es (.confirmed (cmsg.word .dataHandle)) = [] := by
    intro negative
    cases waits : waiting (cmsg.word .dataHandle) es with
    | none => simp only [owed, waits]
    | some block =>
      obtain ⟨k, doack⟩ := block
      cases doack with
      | false => simp only [owed, waits]
      | true =>
        have value : len = k := by simp only [len, waits]; rfl
        omega
  have told : ¬ len < 0 → owed chan es (.confirmed (cmsg.word .dataHandle)) = [.BSENT ncci.chan len] := by
    intro positive
    cases waits : waiting (cmsg.word .dataHandle) es with
    | none =>
      have value : len = -1 := by simp only [len, waits]; rfl
      omega
    | some block =>
      obtain ⟨k, doack⟩ := block
      cases doack with
      | false =>
        have value : len = -1 := by simp only [len, waits]; rfl
        omega
      | true =>
        have value : len = k := by simp only [len, waits]; rfl
        simp only [owed, waits, value, on.chan]
  by_cases negative : len < 0
  · rw [if_pos negative] at run
    refine ⟨t, run, ⟨rfl, rfl, rfl⟩, rfl, ?_⟩
    rw [silent negative, List.append_nil]
    rfl
  · rw [if_neg negative] at run
    refine ⟨_, run, ⟨rfl, rfl, rfl⟩, rfl, ?_⟩
    rw [told negative]
    rfl

/-- A DATA_B3_CONF acknowledges the block with its handle. -/
theorem conf_owes {es : List (Event UInt16 Block)} {msg : Bytes} {cmsg : Cmsg} (route : toNcci env cmsg)
    (on : OnChannel chan n cmsg.adr s ncci) (records : Records Block.entry ncci.ackqueue es)
    (decoded : capiMessage2cmsg msg = some cmsg) (message : cmd cmsg = CAPI_DATA_B3_CONF) :
    ∃ s', step env s (.recv msg) = some s' ∧
      s'.status = s.status ++ (events env n s (.recv msg)).flatMap (owed chan es) ∧
      ∃ ncci', OnChannel chan n cmsg.adr s' ncci' ∧
        Records Block.entry ncci'.ackqueue (events env n s (.recv msg) ++ es) := by
  have told : events env n s (.recv msg) = [.confirmed (cmsg.word .dataHandle)] := by simp only [events, decoded]
  obtain ⟨t, done, same, nccis, status⟩ := dataB3Conf_owes on records
  have routed : ∀ data, handleMessage env s cmsg data = some t := by
    intro data
    rw [handleMessage_ncci s data route (by rw [message]; decide), ← done]
    unfold handleNcci
    rw [message]
    rfl
  have run : step env s (.recv msg) = some (confirm env t cmsg) := by
    rw [step, capidrvRecvMessage, decoded]
    simp only [routed, Option.bind_eq_bind, Option.bind_some]
  obtain ⟨same', nccis', status'⟩ := confirm_keeps env t cmsg
  rw [told]
  refine ⟨_, run, ?_, _, on.changed (same.trans same') (nccis'.trans nccis) rfl rfl, records.confirmed _⟩
  rw [status', status, List.flatMap_cons, List.flatMap_nil, List.append_nil]

end Steps

/-- In every run of calls of `if_sendbuf` and DATA_B3_CONF messages on one connection in which no handle is used while a
block waits under it, isdn4linux is told of the blocks sent with `doack`, each when its first confirmation comes and
with its own length, and of nothing else. -/
theorem bsent_once {env : Env} {s : Card} {chan n : Nat} {x : UInt32} {ncci : Ncci} {ops : List Op}
    (wide : x &&& 0xffff0000 ≠ 0) (mine : x &&& 0x7f = env.contrnr) (on : OnChannel chan n x s ncci)
    (new : ncci.ackqueue = []) (calls : ∀ op ∈ ops, OnConnection env chan x op)
    (free : Meets (traced env n) (HandleFree n) (s, []) ops) :
    (∃ t, exec (traced env n) (s, []) ops = some t) ∧
      Each (traced env n) (fun t op t' =>
        t'.1.status = t.1.status ++ (events env n t.1 op).flatMap (owed chan t.2)) (s, []) ops := by
  let Inv (t : Card × List (Event UInt16 Block)) : Prop :=
    ∃ ncci, OnChannel chan n x t.1 ncci ∧ Records Block.entry ncci.ackqueue t.2
  have start : Inv (s, []) := ⟨ncci, on, by rw [new]; exact .nil⟩
  have allowed : Meets (traced env n) (fun t op => OnConnection env chan x op ∧ HandleFree n t op) (s, []) ops :=
    (Meets.of_mem calls _).and free
  have one : ∀ t op, Inv t → OnConnection env chan x op ∧ HandleFree n t op → ∃ t', traced env n t op = some t' ∧
      t'.1.status = t.1.status ++ (events env n t.1 op).flatMap (owed chan t.2) ∧ Inv t' := by
    intro t op ⟨ncci, on, records⟩ ⟨call, free⟩
    have lift : (∃ s', step env t.1 op = some s' ∧
        s'.status = t.1.status ++ (events env n t.1 op).flatMap (owed chan t.2) ∧
        ∃ ncci', OnChannel chan n x s' ncci' ∧ Records Block.entry ncci'.ackqueue (events env n t.1 op ++ t.2)) →
        ∃ t', traced env n t op = some t' ∧
          t'.1.status = t.1.status ++ (events env n t.1 op).flatMap (owed chan t.2) ∧ Inv t' := by
      intro ⟨s', run, status, inv⟩
      refine ⟨(s', events env n t.1 op ++ t.2), ?_, status, inv⟩
      rw [traced, run]
      rfl
    apply lift
    match op, call with
    | .sendbuf arg doack skb, at_channel => exact sendbuf_owes doack skb on records at_channel (free ncci on.live)
    | .recv msg, ⟨cmsg, decoded, message, adr⟩ =>
      subst adr
      exact conf_owes ⟨mine, wide⟩ on records decoded message
  constructor
  · obtain ⟨t, run, -⟩ := exec_of_inv (fun t op inv c => by
      obtain ⟨t', run, -, inv'⟩ := one t op inv c
      exact ⟨t', run, inv'⟩) start allowed
    exact ⟨t, run⟩
  · apply each_of_inv Inv ?_ start allowed
    intro t op t' inv c run
    obtain ⟨t'', run', status, inv'⟩ := one t op inv c
    cases run.symm.trans run'
    exact ⟨status, inv'⟩

/-- A DATA_B3_CONF of the connection of `connectedCard`. -/
def dataConf (handle : UInt8) : Bytes := controllerMsg CAPI_DATA_B3_CONF 0 [1, 1, 1, 0] [handle, 0, 0, 0]

/-- A block, an unknown handle, its own handle twice. -/
def confirmedTwice : List Op :=
  [.sendbuf 0 true ⟨30, [1, 2, 3]⟩, .recv (dataConf 9), .recv (dataConf 7), .recv (dataConf 7)]

/-- One of the three confirmations is answered. -/
theorem bsent_once_twice :
    (∃ t, exec (traced Env.granting 0) (connectedCard, []) confirmedTwice = some t) ∧
      Each (traced Env.granting 0) (fun t op t' =>
        t'.1.status = t.1.status ++ (events Env.granting 0 t.1 op).flatMap (owed 0 t.2)) (connectedCard, [])
        confirmedTwice := by
  have conf : ∀ handle ∈ [(7 : UInt8), 9], OnConnection Env.granting 0 0x10101 (.recv (dataConf handle)) := by
    intro handle member
    simp only [List.mem_cons, List.not_mem_nil, or_false] at member
    rcases member with rfl | rfl
    · exact ⟨_, rfl, rfl, rfl⟩
    · exact ⟨_, rfl, rfl, rfl⟩
  have calls : ∀ op ∈ confirmedTwice, OnConnection Env.granting 0 0x10101 op := by
    simp only [confirmedTwice, List.forall_mem_cons]
    exact ⟨rfl, conf 9 (by decide), conf 7 (by decide), conf 7 (by decide), nofun⟩
  have free : Meets (traced Env.granting 0) (HandleFree 0) (connectedCard, []) confirmedTwice :=
    ⟨fun _ _ => rfl, fun _ _ => ⟨trivial, fun _ _ => ⟨trivial, fun _ _ => ⟨trivial, fun _ _ => trivial⟩⟩⟩⟩
  exact bsent_once (by decide) rfl ⟨rfl, rfl, rfl⟩ rfl calls free

end Capi4Linux.Capidrv
