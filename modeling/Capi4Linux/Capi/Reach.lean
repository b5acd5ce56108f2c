import Capi4Linux.Capi.Moves

/-!
# What runs reach

`capi_recv_message` does one of three things with a message: it opens an NCCI
for it, hands it to the minor of its NCCI, or queues it for the user. In every
run, whatever its calls do, the records stay linked.
-/

namespace Capi4Linux.Capi
open Bytes Capicore Machine

/-- The message opens an NCCI. -/
def Skb.Connects (skb : Skb) : Prop :=
  (skb.cmd = CAPI_CONNECT_B3_CONF ∧ skb.u16 12 = 0) ∨ skb.cmd = CAPI_CONNECT_B3_IND

/-- A DATA_B3_IND or DATA_B3_CONF whose NCCI has a minor at its first record. -/
def Capidev.diverts (cdev : Capidev) (skb : Skb) : Bool :=
  skb.u8 4 == CAPI_DATA_B3 && (skb.u8 5 == CAPI_IND || skb.u8 5 == CAPI_CONF) &&
    ((capincciFind cdev skb.ncci).bind Capincci.minorp).isSome

section Messages

variable {env : Env} {s s' : Driver} {d : Nat} {cdev : Capidev} {skb : Skb}

/-- The message is the last of the file's queue. -/
theorem recvqueueTail_eq (dev : s.devs d = some cdev) :
    recvqueueTail s d skb = some (s.setDev d { cdev with recvqueue := cdev.recvqueue ++ [skb] }) := by
  rw [recvqueueTail, dev]
  rfl

/-- A message for a minor goes through it; another DATA_B3 message is the user's. -/
theorem recvDataB3_cases {p : Nat} (run : recvDataB3 env s d p skb = some s') :
    ((skb.u8 5 = CAPI_IND ∨ skb.u8 5 = CAPI_CONF) ∧ Through p s s') ∨
      (skb.u8 5 ≠ CAPI_IND ∧ skb.u8 5 ≠ CAPI_CONF ∧ recvqueueTail s d skb = some s') := by
  unfold recvDataB3 at run
  split at run
  · rename_i ind
    obtain ⟨mp, live, run⟩ := Option.bind_eq_some_iff.mp run
    have through := handleMinorRecv_through run
    refine .inl ⟨.inl ind, Through.trans ?_ through⟩
    exact .setMinor live rfl
  split at run
  · rename_i conf
    obtain ⟨mp, live, run⟩ := Option.bind_eq_some_iff.mp run
    obtain ⟨⟨s₁, n⟩, sent, run⟩ := Option.bind_eq_some_iff.mp run
    cases run
    have through := handleMinorSend_through sent
    refine .inl ⟨.inr conf, Through.trans ?_ through⟩
    exact .setMinor live (capiminorDelAck_links mp _).1
  · rename_i ind conf
    exact .inr ⟨ind, conf, run⟩

/-- Everything `capi_recv_message` does with a message. -/
inductive RecvOne (env : Env) (s : Driver) (d : Nat) (cdev : Capidev) (skb : Skb) (s' : Driver) : Prop
  | connected {s₁ : Driver} : skb.Connects → skb.u8 4 ≠ CAPI_DATA_B3 → capincciAlloc env s d skb.ncci = some s₁ →
      recvqueueTail s₁ d skb = some s' → RecvOne env s d cdev skb s'
  | diverted {p : Nat} : ¬ skb.Connects → cdev.diverts skb = true →
      (capincciFind cdev skb.ncci).bind Capincci.minorp = some p → Through p s s' →
      recvDataB3 env s d p skb = some s' → RecvOne env s d cdev skb s'
  | queued : ¬ skb.Connects → cdev.diverts skb = false → recvqueueTail s d skb = some s' → RecvOne env s d cdev skb s'

/-- A message about a connection is no data. -/
theorem Skb.Connects.not_data (connects : skb.Connects) : skb.u8 4 ≠ CAPI_DATA_B3 := by
  have command : skb.u8 4 = 0x82 := by
    rcases connects with ⟨conf, -⟩ | ind
    · exact congrArg Prod.fst conf
    · exact congrArg Prod.fst ind
  rw [command]
  decide

theorem recvOne_cases (dev : s.devs d = some cdev) (run : recvOne env s d skb = some s') :
    RecvOne env s d cdev skb s' := by
  obtain ⟨s₁, first, run⟩ := Option.bind_eq_some_iff.mp run
  obtain ⟨s₂, second, run⟩ := Option.bind_eq_some_iff.mp run
  by_cases connects : skb.Connects
  · have other := connects.not_data
    rw [if_pos other] at run
    have alloc : capincciAlloc env s d skb.ncci = some s₂ := by
      by_cases ind : skb.cmd = CAPI_CONNECT_B3_IND
      · have apart : skb.cmd ≠ CAPI_CONNECT_B3_CONF := by
          rw [ind]
          decide
        rw [if_neg fun conf => apart conf.1] at first
        cases first
        rwa [if_pos ind] at second
      · rw [if_pos (connects.resolve_right ind)] at first
        rw [if_neg ind] at second
        cases second
        exact first
    exact .connected connects other alloc run
  · rw [if_neg fun conf => connects (.inl conf)] at first
    cases first
    rw [if_neg fun ind => connects (.inr ind)] at second
    cases second
    by_cases data : skb.u8 4 = CAPI_DATA_B3
    · rw [if_neg (not_not_intro data)] at run
      obtain ⟨cdev', dev', run⟩ := Option.bind_eq_some_iff.mp run
      obtain rfl := Option.some.inj (dev.symm.trans dev')
      cases found : (capincciFind cdev skb.ncci).bind Capincci.minorp with
      | none =>
        rw [found] at run
        exact .queued connects (by simp [Capidev.diverts, found]) run
      | some p =>
        rw [found] at run
        rcases recvDataB3_cases run with ⟨sub, through⟩ | ⟨ind, conf, queued⟩
        · exact .diverted connects (by simpa [Capidev.diverts, data, found] using sub) found through run
        · exact .queued connects (by simp [Capidev.diverts, ind, conf]) queued
    · rw [if_pos data] at run
      exact .queued connects (by simp [Capidev.diverts, data]) run

/-- A message is fetched for a file. -/
theorem recvOne_file {skb : Skb} (run : recvOne env s d skb = some s') : ∃ cdev, s.devs d = some cdev := by
  obtain ⟨s₁, first, run⟩ := Option.bind_eq_some_iff.mp run
  obtain ⟨s₂, second, run⟩ := Option.bind_eq_some_iff.mp run
  split at first
  · obtain ⟨cdev, dev, -⟩ := Option.bind_eq_some_iff.mp first
    exact ⟨cdev, dev⟩
  cases first
  split at second
  · obtain ⟨cdev, dev, -⟩ := Option.bind_eq_some_iff.mp second
    exact ⟨cdev, dev⟩
  cases second
  split at run
  · obtain ⟨cdev, dev, -⟩ := Option.bind_eq_some_iff.mp run
    exact ⟨cdev, dev⟩
  · obtain ⟨cdev, dev, -⟩ := Option.bind_eq_some_iff.mp run
    exact ⟨cdev, dev⟩

/-- A minor nothing has passed through yet. -/
structure Capiminor.Born (mp : Capiminor) : Prop where
  closed : mp.tty = none
  ttyskb : mp.ttyskb = none
  inqueue : mp.inqueue = [] ∧ mp.inbytes = 0
  outqueue : mp.outqueue = [] ∧ mp.outbytes = 0
  ackqueue : mp.ackqueue = [] ∧ mp.nack = 0

/-- What `capincci_alloc` does without looking at its minor. -/
structure Allocated (s s' : Driver) (d : Nat) (cdev : Capidev) (np : Capincci) : Prop where
  devs : s'.devs = Function.update s.devs d (some { cdev with nccis := cdev.nccis ++ [np] })
  others : ∀ q, q ≠ s.minorNext → s'.minors q = s.minors q
  newborn : ∀ mp, s'.minors s.minorNext = some mp → s.minors s.minorNext = some mp ∨ mp.Born
  minorNext : s.minorNext ≤ s'.minorNext
  devNext : s'.devNext = s.devNext
  accepted : s'.accepted = s.accepted
  received : s'.received = s.received

/-- An NCCI is allocated or memory is short. -/
theorem capincciAlloc_cases {ncci : UInt32} (dev : s.devs d = some cdev) (run : capincciAlloc env s d ncci = some s') :
    (env.kmalloc s.tick = false ∧ s' = s.asked) ∨
      ∃ np : Capincci, np.ncci = ncci ∧ Allocated s s' d cdev np := by
  obtain ⟨cdev', dev', run⟩ := Option.bind_eq_some_iff.mp run
  obtain rfl := Option.some.inj (dev.symm.trans dev')
  simp only at run
  split at run
  · rename_i full
    cases run
    exact .inl ⟨by simpa using full, rfl⟩
  obtain ⟨⟨s₁, minorp⟩, minor, run⟩ := Option.bind_eq_some_iff.mp run
  cases run
  have kept {s₂ : Driver} (minors : s₂.minors = s.minors) : ∀ mp, s₂.minors s.minorNext = some mp →
      s.minors s.minorNext = some mp ∨ mp.Born := by
    intro mp live
    rw [minors] at live
    exact .inl live
  have aside : s₁.devs = s.devs ∧ (∀ q, q ≠ s.minorNext → s₁.minors q = s.minors q) ∧
      (∀ mp, s₁.minors s.minorNext = some mp → s.minors s.minorNext = some mp ∨ mp.Born) ∧
      s.minorNext ≤ s₁.minorNext ∧ s₁.devNext = s.devNext ∧ s₁.accepted = s.accepted ∧ s₁.received = s.received := by
    unfold capincciMinor at minor
    split at minor
    · cases minor
      exact ⟨rfl, fun _ _ => rfl, kept rfl, Nat.le_refl _, rfl, rfl, rfl⟩
    obtain ⟨⟨s₂, minorp'⟩, alloc, minor⟩ := Option.bind_eq_some_iff.mp minor
    unfold capiminorAlloc at alloc
    simp only at alloc
    split at alloc
    · cases alloc
      cases minor
      exact ⟨rfl, fun _ _ => rfl, kept rfl, Nat.le_refl _, rfl, rfl, rfl⟩
    obtain ⟨numbers, -, alloc⟩ := Option.bind_eq_some_iff.mp alloc
    split at alloc
    · cases alloc
      obtain ⟨mp, born, minor⟩ := Option.bind_eq_some_iff.mp minor
      cases (Function.update_self _ _ _).symm.trans born
      cases minor
      refine ⟨rfl, fun q other => ?_, fun mp live => ?_, Nat.le_succ _, rfl, rfl, rfl⟩
      · exact (Function.update_of_ne other _ _).trans (Function.update_of_ne other _ _)
      · cases (Function.update_self _ _ _).symm.trans live
        exact .inr ⟨rfl, rfl, ⟨rfl, rfl⟩, ⟨rfl, rfl⟩, ⟨rfl, rfl⟩⟩
    · cases alloc
      cases minor
      exact ⟨rfl, fun _ _ => rfl, kept rfl, Nat.le_succ _, rfl, rfl, rfl⟩
  obtain ⟨devs, minors, newborn, minorNext, devNext, accepted, received⟩ := aside
  refine .inr ⟨{ ncci, minorp }, rfl, ?_, minors, newborn, minorNext, devNext, accepted, received⟩
  show Function.update s₁.devs d _ = _
  rw [devs]

end Messages

/-! ## Links -/

section Links

variable {env : Env} {s s' : Driver} {d tty : Nat} {cdev : Capidev} {skb : Skb}

/-- A change through one minor keeps the records wired. -/
theorem Wired.through {p : Nat} (wired : Wired s) (through : Through p s s') : Wired s' :=
  wired.same through.sameLinks

theorem Wired.asked (wired : Wired s) : Wired s.asked :=
  wired.tame (.asked s)

/-- A change of a file but for its NCCIs keeps the records wired. -/
theorem Wired.setDev (wired : Wired s) {cdev' : Capidev} (dev : s.devs d = some cdev)
    (same : cdev'.nccis = cdev.nccis) : Wired (s.setDev d cdev') :=
  wired.same (.setDev dev same)

theorem Wired.recvqueueTail (wired : Wired s) (run : recvqueueTail s d skb = some s') : Wired s' := by
  obtain ⟨cdev, dev, run⟩ := Option.bind_eq_some_iff.mp run
  cases run
  exact wired.setDev dev rfl

theorem Wired.alloc {ncci : UInt32} (wired : Wired s) (dev : s.devs d = some cdev)
    (run : Capi.capincciAlloc env s d ncci = some s') : Wired s' := by
  obtain ⟨s₁, run', outcome⟩ := wired.capincciAlloc env dev ncci
  obtain rfl := Option.some.inj (run.symm.trans run')
  rcases outcome with tame | ⟨np, new⟩
  · exact wired.tame tame
  · exact wired.newNcci dev new

theorem Wired.recvOne (wired : Wired s) (dev : s.devs d = some cdev) (run : recvOne env s d skb = some s') :
    Wired s' := by
  cases recvOne_cases dev run with
  | connected _ _ alloc queued => exact (wired.alloc dev alloc).recvqueueTail queued
  | diverted _ _ _ through => exact wired.through through
  | queued _ _ queued => exact wired.recvqueueTail queued

/-- Every message `capi_recv_message` fetches is a step of the file. -/
theorem capiRecvMessageLoop_keeps {P : Driver → Prop}
    (one : ∀ (s s' : Driver) (cdev : Capidev) (skb : Skb) (msgQueue : List Skb), P s → s.devs d = some cdev →
      cdev.ap.msgQueue = skb :: msgQueue →
      Capi.recvOne env (s.setDev d { cdev with ap := { cdev.ap with msgQueue } }) d skb = some s' → P s')
    {fuel : Nat} (start : P s) (run : capiRecvMessageLoop env fuel s d = some s') : P s' := by
  induction fuel generalizing s with
  | zero => cases run
  | succ fuel ih =>
    obtain ⟨cdev, dev, run⟩ := Option.bind_eq_some_iff.mp run
    split at run
    · cases run
      exact start
    split at run
    · cases run
      exact start
    · rename_i skb msgQueue queue
      obtain ⟨s₁, first, rest⟩ := Option.bind_eq_some_iff.mp run
      exact ih (one s s₁ cdev skb msgQueue start dev queue first) rest

theorem Wired.capiRecvMessage (wired : Wired s) (run : capiRecvMessage env s d = some s') : Wired s' := by
  obtain ⟨cdev, -, run⟩ := Option.bind_eq_some_iff.mp run
  apply capiRecvMessageLoop_keeps (P := Wired) _ wired run
  intro s s' cdev skb msgQueue wired dev queue one
  have fetched : Wired (s.setDev d { cdev with ap := { cdev.ap with msgQueue } }) := wired.setDev dev rfl
  exact fetched.recvOne (Function.update_self _ _ _) one

theorem Wired.capiRead {count : Nat} {result : Int ⊕ Bytes} (wired : Wired s)
    (run : capiRead env s d count = some (s', result)) : Wired s' := by
  obtain ⟨cdev, dev, run⟩ := Option.bind_eq_some_iff.mp run
  split at run
  · cases run
    exact wired
  obtain ⟨s₁, fetch, run⟩ := Option.bind_eq_some_iff.mp run
  have wired₁ : Wired s₁ := by
    split at fetch
    · exact wired.capiRecvMessage fetch
    · cases fetch
      exact wired
  obtain ⟨cdev₁, dev₁, run⟩ := Option.bind_eq_some_iff.mp run
  split at run
  · cases run
    exact wired₁
  split at run
  · cases run
    exact wired₁
  simp only at run
  split at run
  · cases run
    exact wired₁.asked
  · cases run
    exact (wired₁.asked).setDev dev₁ rfl

theorem Wired.capiPoll {ready : Bool} (wired : Wired s) (run : capiPoll env s d = some (s', ready)) : Wired s' := by
  obtain ⟨cdev, dev, run⟩ := Option.bind_eq_some_iff.mp run
  split at run
  · cases run
    exact wired
  obtain ⟨s₁, fetch, run⟩ := Option.bind_eq_some_iff.mp run
  obtain ⟨cdev₁, -, run⟩ := Option.bind_eq_some_iff.mp run
  cases run
  exact wired.capiRecvMessage fetch

/-- NCCIs of an open file can be freed, and the records stay wired. -/
theorem Wired.capincciFree (wired : Wired s) (dev : s.devs d = some cdev) (ncci : UInt32) :
    ∃ s', Capi.capincciFree s d ncci = some s' ∧ Wired s' := by
  have one (s : Driver) (cdev : Capidev) (kept : List Capincci) (np : Capincci) (rest : List Capincci)
      (wired : Wired (s.setDev d { cdev with nccis := kept ++ np :: rest })) :
      ∃ s', Capi.capincciUnlink s np.minorp = some s' ∧ Wired (s'.setDev d { cdev with nccis := kept ++ rest }) := by
    obtain ⟨s', unlink, drop⟩ := wired.capincciUnlink
    exact ⟨s', unlink, wired.dropped drop⟩
  obtain ⟨s', run, wired', -⟩ := capincciFree_keeps one dev wired ncci
  exact ⟨s', run, wired'⟩

theorem Wired.freed {ncci : UInt32} (wired : Wired s) (dev : s.devs d = some cdev)
    (run : Capi.capincciFree s d ncci = some s') : Wired s' := by
  obtain ⟨s₁, run', wired₁⟩ := wired.capincciFree dev ncci
  obtain rfl := Option.some.inj (run.symm.trans run')
  exact wired₁

/-- The NCCIs of a DISCONNECT_B3_RESP can be taken. -/
theorem Wired.prepare (wired : Wired s) (dev : s.devs d = some cdev) (skb : Skb) :
    ∃ s₁, prepare s d skb = some s₁ := by
  unfold Capi.prepare
  split
  · obtain ⟨s₁, run, -⟩ := wired.capincciFree dev skb.ncci
    exact ⟨s₁, run⟩
  · exact ⟨s, rfl⟩

theorem Wired.capiWrite {buf : Bytes} {result : Int} (wired : Wired s) (run : capiWrite env s d buf = some (s', result)) :
    Wired s' := by
  obtain ⟨cdev, dev, -⟩ := Option.bind_eq_some_iff.mp run
  by_cases unregistered : cdev.ap.id = 0
  · simp only [Capi.capiWrite, dev, Option.bind_eq_bind, Option.bind_some, if_pos unregistered] at run
    cases run
    exact wired
  have asked : Wired s.asked := wired.asked
  cases capiWrite_wrote dev unregistered run with
  | failed => exact asked
  | invalid => exact asked
  | @put s₁ _ _ prepared =>
    have wired₁ : Wired s₁ := by
      unfold Capi.prepare at prepared
      split at prepared
      · exact asked.freed dev prepared
      · cases prepared
        exact asked
    have here : s₁.devs d = some { cdev with nccis := (Skb.ofUser buf (env.slab s.tick)).leaves cdev.nccis } := by
      rw [prepare_devs prepared dev, Function.update_self]
    rw [← (putCapiMessage_minors s₁ d (withApplId buf cdev.ap.id) (env.put s.tick)).1] at here
    exact (wired₁.tame (.putCapiMessage _ _ _ _)).setDev here rfl

theorem Wired.capidevFree (wired : Wired s) (run : capidevFree s d = some s') : Wired s' := by
  obtain ⟨cdev, dev, run⟩ := Option.bind_eq_some_iff.mp run
  obtain ⟨s₁, free, run⟩ := Option.bind_eq_some_iff.mp run
  cases run
  have released : Wired (s.setDev d { cdev with
      ap := if cdev.ap.id ≠ 0 then { cdev.ap with id := 0, msgQueue := [] } else cdev.ap, recvqueue := [] }) :=
    wired.setDev dev rfl
  have freed := capincciFree_freed (Function.update_self _ _ _) free
  have empty : s₁.devs d = _ := (congrFun freed.devs d).trans (Function.update_self _ _ _)
  exact (released.freed (Function.update_self _ _ _) free).closedFile empty (by simp [Capincci.taken]) _

theorem Wired.ttyOpen (wired : Wired s) (run : ttyOpen env s tty = some s') : Wired s' := by
  obtain ⟨⟨s₁, result⟩, opened, counted⟩ := Option.map_eq_some_iff.mp run
  have wired₁ : Wired s₁ := by
    obtain ⟨found, -, opened⟩ := Option.bind_eq_some_iff.mp opened
    cases found with
    | none =>
      cases opened
      exact wired
    | some p =>
      obtain ⟨mp, live, opened⟩ := Option.bind_eq_some_iff.mp opened
      split at opened
      · cases opened
        exact wired
      · obtain ⟨s₂, received, opened⟩ := Option.bind_eq_some_iff.mp opened
        cases opened
        apply Wired.through _ (handleMinorRecv_through received)
        apply wired.same
        have same : SameLinks s (s.setMinor p { mp with
            tty := if mp.ttyopencount = 0 then some tty else mp.tty, ttyopencount := mp.ttyopencount + 1 }) :=
          .setMinor live ⟨rfl, rfl, rfl⟩
        exact same.retty _ s.opens
  subst counted
  unfold countOpen
  split
  · exact wired₁.same ((SameLinks.refl s₁).retty s₁.ttys _)
  · exact wired₁

theorem Wired.ttyClose (wired : Wired s) (run : ttyClose s tty = some s') : Wired s' := by
  obtain ⟨s₁, closed, rfl⟩ := Option.map_eq_some_iff.mp run
  have counted {t : Driver} (wired : Wired t) : Wired (countClose tty t) :=
    wired.same ((SameLinks.refl t).retty t.ttys _)
  apply counted
  unfold capincTtyClose at closed
  split at closed
  · cases closed
    exact wired
  rename_i p ref
  obtain ⟨mp, live, closed⟩ := Option.bind_eq_some_iff.mp closed
  -- the minor after the close, with or without its tty
  obtain ⟨mp', s₂, closed, link, live₂, wired₂⟩ : ∃ (mp' : Capiminor) (s₂ : Driver),
      (if ¬ mp'.nccip then capiminorFree s₂ p else some s₂) = some s₁ ∧ mp'.nccip = mp.nccip ∧
        s₂.minors p = some mp' ∧ Wired s₂ := by
    by_cases last : mp.ttyopencount - 1 = 0
    · simp only [last, if_true] at closed
      let mp' : Capiminor := { mp with tty := none, ttyopencount := 0 }
      have same : SameLinks s (s.setMinor p mp') := .setMinor live ⟨rfl, rfl, rfl⟩
      exact ⟨mp', _, closed, rfl, Function.update_self _ _ _, wired.same (same.retty _ s.opens)⟩
    · simp only [last, if_false] at closed
      let mp' : Capiminor := { mp with ttyopencount := mp.ttyopencount - 1 }
      have same : SameLinks s (s.setMinor p mp') := .setMinor live ⟨rfl, rfl, rfl⟩
      exact ⟨mp', _, closed, rfl, Function.update_self _ _ _, wired.same same⟩
  split at closed
  · rename_i detached
    obtain ⟨free, wired'⟩ := wired₂.freeDetached live₂ (by simpa using detached)
    cases closed.symm.trans free
    exact wired'
  · cases closed
    exact wired₂

theorem Wired.ttyCall {n : Nat} (wired : Wired s) (call : TtyCall n tty s s') : Wired s' := by
  rcases call with rfl | ⟨p, -, moves⟩
  · exact wired
  · exact wired.through moves.through

end Links

/-- Every call keeps the records linked, also one that fails. -/
theorem Wired.step {env : Env} {s s' : Driver} {op : Op} (wired : Wired s) (run : step env s op = some s') : Wired s' := by
  have touch {d : Nat} {cdev cdev' : Capidev} (dev : s.devs d = some cdev) (same : cdev'.nccis = cdev.nccis) :
      Wired (s.setDev d cdev') := wired.setDev dev same
  cases op with
  | openFile =>
    cases run
    unfold capidevAlloc
    simp only
    split
    · exact wired.asked
    · exact Wired.newFile (wired.asked) rfl _
  | ioctlRegister d info id =>
    obtain ⟨⟨s₁, result⟩, call, rfl⟩ := Option.map_eq_some_iff.mp run
    obtain ⟨cdev, dev, call⟩ := Option.bind_eq_some_iff.mp call
    split at call
    · cases call
      exact wired
    split at call
    · cases call
      exact touch dev rfl
    · cases call
      exact touch dev rfl
  | ioctlFlags d set userflags =>
    obtain ⟨cdev, dev, run⟩ := Option.bind_eq_some_iff.mp run
    cases run
    exact touch dev rfl
  | enqueue d skb =>
    obtain ⟨cdev, dev, run⟩ := Option.bind_eq_some_iff.mp run
    cases run
    exact touch dev rfl
  | signalError d info =>
    obtain ⟨cdev, dev, run⟩ := Option.bind_eq_some_iff.mp run
    cases run
    exact touch dev rfl
  | read d count =>
    obtain ⟨⟨s₁, result⟩, call, rfl⟩ := Option.map_eq_some_iff.mp run
    exact wired.capiRead call
  | poll d =>
    obtain ⟨⟨s₁, result⟩, call, rfl⟩ := Option.map_eq_some_iff.mp run
    exact wired.capiPoll call
  | write d buf =>
    obtain ⟨⟨s₁, result⟩, call, rfl⟩ := Option.map_eq_some_iff.mp run
    exact wired.capiWrite call
  | release d => exact wired.capidevFree run
  | ttyOpen tty => exact wired.ttyOpen run
  | ttyClose tty => exact wired.ttyClose run
  | ttyWrite tty fromUser buf =>
    obtain ⟨⟨s₁, result⟩, call, rfl⟩ := Option.map_eq_some_iff.mp run
    exact wired.ttyCall (capincTtyWrite_call call)
  | ttyPutChar tty ch => exact wired.ttyCall (capincTtyPutChar_call run 0)
  | ttyFlushChars tty => exact wired.ttyCall (capincTtyFlushChars_call run 0)
  | ttyThrottle tty => exact wired.ttyCall (capincTtyThrottle_call run 0)
  | ttyUnthrottle tty => exact wired.ttyCall (capincTtyUnthrottle_call run 0)
  | ttyStop tty => exact wired.ttyCall (capincTtyStop_call run 0)
  | ttyStart tty => exact wired.ttyCall (capincTtyStart_call run 0)

/-- The records are linked in every state a run reaches. -/
theorem wired_reached {env : Env} {ops : List Op} {s : Driver} (run : exec (step env) .init ops = some s) : Wired s := by
  have always : Always (step env) Wired .init ops :=
    always_of_inv (fun _ _ _ wired _ next => wired.step next) .init (.unconditional (step env) _ _)
  exact always.last run

end Capi4Linux.Capi
