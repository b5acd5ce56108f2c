import Capi4Linux.Capi.Detached
import Mathlib.Logic.Relation

/-!
# Rounds of the data loops

What one round of `handle_minor_recv` and of `handle_minor_send` can do, with
any memory, any line discipline and any answer of the capicore. The loops are
sequences of such rounds, and a round only goes through its own minor.
-/

namespace Capi4Linux.Capi
open Bytes Capicore Machine

/-- Only the queues of minor `p` and the logs are changed. -/
structure Through (p : Nat) (s s' : Driver) : Prop where
  devs : s'.devs = s.devs
  devNext : s'.devNext = s.devNext
  minorNext : s'.minorNext = s.minorNext
  capiminorList : s'.capiminorList = s.capiminorList
  ttys : s'.ttys = s.ttys
  others : ∀ q, q ≠ p → s'.minors q = s.minors q
  links : (s'.minors p).map Capiminor.links = (s.minors p).map Capiminor.links

namespace Through

theorem refl (p : Nat) (s : Driver) : Through p s s :=
  ⟨rfl, rfl, rfl, rfl, rfl, fun _ _ => rfl, rfl⟩

/-- Two changes through one minor are one. -/
theorem trans {p : Nat} {s t u : Driver} (first : Through p s t) (second : Through p t u) : Through p s u where
  devs := second.devs.trans first.devs
  devNext := second.devNext.trans first.devNext
  minorNext := second.minorNext.trans first.minorNext
  capiminorList := second.capiminorList.trans first.capiminorList
  ttys := second.ttys.trans first.ttys
  others q other := (second.others q other).trans (first.others q other)
  links := second.links.trans first.links

/-- A minor that keeps its links. -/
theorem setMinor {p : Nat} {s : Driver} {mp mp' : Capiminor} (live : s.minors p = some mp)
    (same : mp'.links = mp.links) : Through p s (s.setMinor p mp') := by
  refine ⟨rfl, rfl, rfl, rfl, rfl, fun q other => Function.update_of_ne other _ _, ?_⟩
  have now : (s.setMinor p mp').minors p = some mp' := Function.update_self _ _ _
  rw [now, live, Option.map_some, Option.map_some, same]

/-- The logs and the tick are not looked at. -/
theorem logs {p : Nat} {s s' : Driver} (through : Through p s s') (tick : Nat) (talks : List (Nat × Bool))
    (accepted received : List (Nat × Bytes)) : Through p s { s' with tick, talks, accepted, received } :=
  ⟨through.devs, through.devNext, through.minorNext, through.capiminorList, through.ttys, through.others,
    through.links⟩

/-- A change through a minor keeps the links. -/
theorem sameLinks {p : Nat} {s s' : Driver} (through : Through p s s') : SameLinks s s' where
  minors q := by
    by_cases here : q = p
    · subst here
      have same := congrArg (Option.map fun l : Bool × Nat × Nat × Option Nat × Int => (l.1, l.2.1, l.2.2.1))
        through.links
      rw [Option.map_map, Option.map_map] at same
      exact same
    · rw [through.others q here]
  devs d := by rw [through.devs]
  capiminorList := through.capiminorList
  minorNext := through.minorNext
  devNext := through.devNext

end Through

/-! ## Reception -/

/-- One round of `handle_minor_recv`: the head of `inqueue` stays, or it is answered and delivered. -/
inductive RecvRound (p : Nat) (s s' : Driver) : Prop
  | stuck {mp : Capiminor} {msgid : UInt16} : s.minors p = some mp → Through p s s' →
      s'.minors p = some { mp with msgid } → s'.accepted = s.accepted → s'.received = s.received → RecvRound p s s'
  | delivered {mp : Capiminor} {skb : Skb} {inqueue : List Skb} {tty : Nat} {cdev : Capidev} :
      s.minors p = some mp → mp.inqueue = skb :: inqueue → mp.tty = some tty → s.devs mp.ap = some cdev →
      Through p s s' →
      s'.minors p = some { mp with msgid := mp.msgid + 1, inqueue, inbytes := mp.inbytes - .ofNat skb.len } →
      s'.accepted = s.accepted ++ [(mp.ap, dataB3Resp cdev.ap mp (skb.u16 (CAPI_MSG_BASELEN + 4 + 4 + 2)))] →
      s'.received = s.received ++ [(tty, (skb.pull skb.msgLen).data)] → RecvRound p s s'

section Reception

variable {env : Env} {p : Nat} {s s' : Driver} {mp : Capiminor} {skb : Skb}

/-- A response is built or memory is short. -/
theorem genDataB3RespFor_cases {resp : Option Bytes} (live : s.minors p = some mp)
    (run : genDataB3RespFor env s p skb = some (s', resp)) :
    (resp = none ∧ s' = s) ∨
      ∃ cdev, s.devs mp.ap = some cdev ∧
        resp = some (dataB3Resp cdev.ap mp (skb.u16 (CAPI_MSG_BASELEN + 4 + 4 + 2))) ∧
        s' = (s.talk p mp).setMinor p { mp with msgid := mp.msgid + 1 } := by
  obtain ⟨mp', live', run⟩ := Option.bind_eq_some_iff.mp run
  obtain rfl := Option.some.inj (live.symm.trans live')
  split at run
  · cases run
    exact .inl ⟨rfl, rfl⟩
  · obtain ⟨cdev, dev, run⟩ := Option.bind_eq_some_iff.mp run
    cases run
    exact .inr ⟨cdev, dev, rfl, rfl⟩

/-- What `handle_recv_skb` can do with an indication. -/
theorem handleRecvSkb_cases {ok : Bool} (live : s.minors p = some mp)
    (run : handleRecvSkb env s p skb = some (s', ok)) :
    Through p s s' ∧
      ((ok = false ∧ (∃ msgid, s'.minors p = some { mp with msgid }) ∧ s'.accepted = s.accepted ∧
          s'.received = s.received) ∨
        ∃ tty cdev, ok = true ∧ mp.tty = some tty ∧ s.devs mp.ap = some cdev ∧
          s'.minors p = some { mp with msgid := mp.msgid + 1 } ∧
          s'.accepted = s.accepted ++ [(mp.ap, dataB3Resp cdev.ap mp (skb.u16 (CAPI_MSG_BASELEN + 4 + 4 + 2)))] ∧
          s'.received = s.received ++ [(tty, (skb.pull skb.msgLen).data)]) := by
  have asked : Through p s s.asked := (Through.refl p s).logs _ s.talks s.accepted s.received
  obtain ⟨mp', live', run⟩ := Option.bind_eq_some_iff.mp run
  obtain rfl := Option.some.inj (live.symm.trans live')
  simp only at run
  rcases Option.eq_none_or_eq_some mp.tty with own | ⟨tty, own⟩
  · rw [own] at run
    cases run
    exact ⟨asked, .inl ⟨rfl, ⟨_, live⟩, rfl, rfl⟩⟩
  · rw [own] at run
    simp only at run
    split at run
    · cases run
      exact ⟨asked, .inl ⟨rfl, ⟨_, live⟩, rfl, rfl⟩⟩
    split at run
    · cases run
      exact ⟨asked, .inl ⟨rfl, ⟨_, live⟩, rfl, rfl⟩⟩
    split at run
    · cases run
      exact ⟨asked, .inl ⟨rfl, ⟨_, live⟩, rfl, rfl⟩⟩
    obtain ⟨⟨s₁, resp⟩, gen, run⟩ := Option.bind_eq_some_iff.mp run
    rcases genDataB3RespFor_cases live gen with ⟨rfl, rfl⟩ | ⟨cdev, dev, rfl, rfl⟩
    · cases run
      exact ⟨asked, .inl ⟨rfl, ⟨_, live⟩, rfl, rfl⟩⟩
    · simp only at run
      have talked : Through p s (s.talk p mp) := (Through.refl p s).logs s.tick _ s.accepted s.received
      have built : Through p s ((s.talk p mp).setMinor p { mp with msgid := mp.msgid + 1 }) :=
        talked.trans (@Through.setMinor p (s.talk p mp) mp _ live rfl)
      have counted : ((s.talk p mp).setMinor p { mp with msgid := mp.msgid + 1 }).minors p =
          some { mp with msgid := mp.msgid + 1 } := Function.update_self _ _ _
      split at run
      · rename_i refused
        cases run
        rw [putCapiMessage, if_neg refused]
        exact ⟨built.logs _ _ s.accepted s.received, .inl ⟨rfl, ⟨_, counted⟩, rfl, rfl⟩⟩
      · rename_i taken
        cases run
        rw [putCapiMessage, if_pos (not_not.mp taken)]
        exact ⟨built.logs _ _ _ _, .inr ⟨tty, cdev, rfl, own, dev, counted, rfl, rfl⟩⟩

/-- The loop of receives is a row of rounds. -/
theorem handleMinorRecvLoop_rounds {fuel : Nat} (run : handleMinorRecvLoop env fuel s p = some s') :
    Relation.ReflTransGen (RecvRound p) s s' := by
  induction fuel generalizing s with
  | zero => cases run
  | succ fuel ih =>
    obtain ⟨mp, live, run⟩ := Option.bind_eq_some_iff.mp run
    simp only at run
    split at run
    · cases run
      exact .refl
    · rename_i skb inqueue queue
      obtain ⟨⟨s₂, ok⟩, one, run⟩ := Option.bind_eq_some_iff.mp run
      have taken : Through p s (s.setMinor p { mp with inqueue, inbytes := mp.inbytes - .ofNat skb.len }) :=
        .setMinor live rfl
      have here : (s.setMinor p { mp with inqueue, inbytes := mp.inbytes - .ofNat skb.len }).minors p =
          some { mp with inqueue, inbytes := mp.inbytes - .ofNat skb.len } := Function.update_self _ _ _
      obtain ⟨through, outcome⟩ := handleRecvSkb_cases here one
      rcases outcome with ⟨rfl, ⟨msgid, minor⟩, accepted, received⟩ |
        ⟨tty, cdev, rfl, own, dev, minor, accepted, received⟩
      · -- the message goes back to the head of the queue
        obtain ⟨mp₂, live₂, run⟩ := Option.bind_eq_some_iff.mp run
        obtain rfl := Option.some.inj (minor.symm.trans live₂)
        cases run
        have back : s₂.setMinor p { mp with
              msgid, inqueue := skb :: inqueue, inbytes := mp.inbytes - .ofNat skb.len + .ofNat skb.len } =
            s₂.setMinor p { mp with msgid } := by
          rw [Int32.sub_add_cancel, ← queue]
        show Relation.ReflTransGen _ s (s₂.setMinor p _)
        rw [back]
        apply Relation.ReflTransGen.single
        exact .stuck live ((taken.trans through).trans (.setMinor minor rfl)) (Function.update_self _ _ _) accepted
          received
      · apply Relation.ReflTransGen.head _ (ih run)
        exact .delivered live queue own dev (taken.trans through) minor accepted received

theorem handleMinorRecv_rounds (run : handleMinorRecv env s p = some s') : Relation.ReflTransGen (RecvRound p) s s' := by
  obtain ⟨mp, -, run⟩ := Option.bind_eq_some_iff.mp run
  exact handleMinorRecvLoop_rounds run

end Reception

/-! ## Transmission -/

/-- One round of `handle_minor_send`: the head of `outqueue` stays, or it is accepted, or it is dropped. -/
inductive SendRound (p : Nat) (s s' : Driver) : Prop
  | held {mp : Capiminor} {ackqueue : List UInt16} : s.minors p = some mp → ackqueue.Perm mp.ackqueue →
      Through p s s' → s'.minors p = some { mp with msgid := mp.msgid + 1, ackqueue } → s'.accepted = s.accepted →
      s'.received = s.received → SendRound p s s'
  | accepted {mp : Capiminor} {skb : Skb} {outqueue : List Skb} {cdev : Capidev} {address : UInt32} :
      s.minors p = some mp → mp.outqueue = skb :: outqueue → s.devs mp.ap = some cdev → Through p s s' →
      s'.minors p = some { mp with
        msgid := mp.msgid + 1, outqueue, ackqueue := mp.ackqueue ++ [mp.datahandle], nack := mp.nack + 1,
        datahandle := mp.datahandle + 1, outbytes := mp.outbytes - .ofNat (UInt16.ofNat skb.len).toNat } →
      s'.accepted = s.accepted ++
        [(mp.ap, dataB3Req cdev.ap mp address (UInt16.ofNat skb.len) ++ skb.data)] →
      s'.received = s.received → SendRound p s s'
  | dropped {mp : Capiminor} {skb : Skb} {outqueue : List Skb} {ackqueue : List UInt16} : s.minors p = some mp →
      mp.outqueue = skb :: outqueue → ackqueue.Perm mp.ackqueue → Through p s s' →
      s'.minors p = some { mp with
        msgid := mp.msgid + 1, outqueue, ackqueue, outbytes := mp.outbytes - .ofNat (UInt16.ofNat skb.len).toNat } →
      s'.accepted = s.accepted → s'.received = s.received → SendRound p s s'

section Transmission

variable {env : Env} {p : Nat} {s s' : Driver}

/-- A handle that was just added is taken out again; of two equal ones it is the first. -/
theorem capiminorDelAck_added (mp : Capiminor) (h : UInt16) :
    ∃ ackqueue, ackqueue.Perm mp.ackqueue ∧ capiminorDelAck (capincciAddAck mp h) h = { mp with ackqueue } := by
  refine ⟨(mp.ackqueue ++ [h]).erase h, ?_, ?_⟩
  · have swapped : (mp.ackqueue ++ [h]).Perm (h :: mp.ackqueue) := List.perm_append_singleton h mp.ackqueue
    have erased := swapped.erase h
    rwa [List.erase_cons_head] at erased
  · have member : h ∈ (capincciAddAck mp h).ackqueue := List.mem_append_right _ (List.mem_singleton_self h)
    rw [capiminorDelAck, if_pos member]
    simp [capincciAddAck]

/-- The loop of sends is a row of rounds. -/
theorem handleMinorSendLoop_rounds {fuel count n : Nat}
    (run : handleMinorSendLoop env fuel s p count = some (s', n)) : Relation.ReflTransGen (SendRound p) s s' := by
  induction fuel generalizing s count with
  | zero => cases run
  | succ fuel ih =>
    obtain ⟨mp, live, run⟩ := Option.bind_eq_some_iff.mp run
    simp only at run
    split at run
    · cases run
      exact .refl
    · rename_i skb outqueue queue
      obtain ⟨cdev, dev, run⟩ := Option.bind_eq_some_iff.mp run
      have pulled : ∀ len, (skb.push (dataB3Req cdev.ap mp (env.address s.tick) len)).pull CAPI_DATA_B3_REQ_LEN = skb := by
        intro len
        have size : (dataB3Req cdev.ap mp (env.address s.tick) len).length = CAPI_DATA_B3_REQ_LEN := rfl
        unfold Skb.pull Skb.push Skb.len
        simp [← size]
      rw [pulled] at run
      have step {s₁ : Driver} {mp' : Capiminor} (base : Through p s s₁) (here : s₁.minors p = some mp)
          (same : mp'.links = mp.links) : Through p s (s₁.setMinor p mp') := base.trans (.setMinor here same)
      have said (talks : List (Nat × Bool)) (accepted : List (Nat × Bytes)) :
          Through p s { s with tick := s.tick + 1, talks, accepted } :=
        (Through.refl p s).logs (s.tick + 1) talks accepted s.received
      split at run
      · -- no memory for the handle
        cases run
        apply Relation.ReflTransGen.single
        refine .held live (List.Perm.refl _) (step (said _ _) live rfl) ?_ rfl rfl
        rw [← queue]
        exact Function.update_self _ _ _
      · obtain ⟨ackqueue, perm, undone⟩ := capiminorDelAck_added { mp with msgid := mp.msgid + 1, outqueue } mp.datahandle
        rw [undone] at run
        split at run
        · rename_i ok
          rw [putCapiMessage, if_pos ok] at run
          apply Relation.ReflTransGen.head _ (ih run)
          exact .accepted live queue dev (step (said _ _) live rfl) (Function.update_self _ _ _) rfl rfl
        · rename_i refused
          rw [putCapiMessage, if_neg refused] at run
          split at run
          · cases run
            apply Relation.ReflTransGen.single
            refine .held live perm (step (said _ _) live rfl) ?_ rfl rfl
            rw [← queue]
            exact Function.update_self _ _ _
          · apply Relation.ReflTransGen.head _ (ih run)
            exact .dropped live queue perm (step (said _ _) live rfl) (Function.update_self _ _ _) rfl rfl

theorem handleMinorSend_rounds {n : Nat} (run : handleMinorSend env s p = some (s', n)) :
    Relation.ReflTransGen (SendRound p) s s' := by
  obtain ⟨mp, -, run⟩ := Option.bind_eq_some_iff.mp run
  split at run
  · cases run
    exact .refl
  · exact handleMinorSendLoop_rounds run

end Transmission

/-! ## The loops as a whole -/

/-- A round of receives goes through its minor. -/
theorem RecvRound.through {p : Nat} {s s' : Driver} (round : RecvRound p s s') : Through p s s' := by
  cases round with
  | stuck _ through => exact through
  | delivered _ _ _ _ through => exact through

theorem SendRound.through {p : Nat} {s s' : Driver} (round : SendRound p s s') : Through p s s' := by
  cases round with
  | held _ _ through => exact through
  | accepted _ _ _ through => exact through
  | dropped _ _ _ through => exact through

/-- What every round keeps, the loop keeps. -/
theorem rounds_keep {R : Driver → Driver → Prop} {P : Driver → Prop} (keep : ∀ s s', R s s' → P s → P s')
    {s s' : Driver} (rounds : Relation.ReflTransGen R s s') (start : P s) : P s' := by
  induction rounds with
  | refl => exact start
  | tail _ round ih => exact keep _ _ round ih

section Through

variable {env : Env} {p : Nat} {s s' : Driver}

/-- A reception goes through its minor. -/
theorem handleMinorRecv_through (run : handleMinorRecv env s p = some s') : Through p s s' :=
  rounds_keep (P := Through p s) (fun _ _ round through => through.trans round.through) (handleMinorRecv_rounds run)
    (.refl p s)

theorem handleMinorSend_through {n : Nat} (run : handleMinorSend env s p = some (s', n)) : Through p s s' :=
  rounds_keep (P := Through p s) (fun _ _ round through => through.trans round.through) (handleMinorSend_rounds run)
    (.refl p s)

end Through

end Capi4Linux.Capi
