import Capi4Linux.Capi.Turns

/-!
# The books of all minors

`bookStep` is a step of the driver with the books kept. An event is about one
minor at most: it takes turns, and the others are left alone, lose their NCCI or
are new.
-/

namespace Capi4Linux.Capi
open Bytes Capicore Machine

/-- The minor an event is about. -/
def Event.minor (s : Driver) : Event → Option Nat
  | .message d skb => (s.devs d).bind fun cdev =>
    if cdev.diverts skb then (capincciFind cdev skb.ncci).bind Capincci.minorp else none
  | .call (.ttyOpen tty) => (capiminorFind s tty).join
  | .call (.ttyClose tty) | .call (.ttyWrite tty _ _) | .call (.ttyPutChar tty _) | .call (.ttyFlushChars tty)
  | .call (.ttyThrottle tty) | .call (.ttyUnthrottle tty) | .call (.ttyStop tty) | .call (.ttyStart tty) => s.ttys tty
  | .call _ => none

/-- What a message for a minor enters into its book. -/
def Event.enter (b : Book) : Event → Book
  | .message _ skb => if skb.u8 5 = CAPI_IND then b.arrive skb else b.confirm (skb.u16 (CAPI_MSG_BASELEN + 4))
  | .call _ => b

/-- The book of the minor an event is about, after the event. -/
def Event.book (s s' : Driver) (event : Event) (b : Book) : Book :=
  (event.enter b).enter (s'.accepted.drop s.accepted.length) (s'.received.drop s.received.length)

/-- The driver and the book of every minor. -/
structure Ledger where
  driver : Driver
  books : Nat → Book

def Ledger.init : Ledger := ⟨.init, fun _ => .empty⟩

def bookStep (env : Env) (x : Ledger) (event : Event) : Option Ledger :=
  (eventStep env x.driver event).map fun s =>
    { driver := s
      books := match event.minor x.driver with
        | none => x.books
        | some p => Function.update x.books p (event.book x.driver s (x.books p)) }

/-- Messages are fetched one at a time; `short` is asked of the length of a write to a tty, `framed` of a DATA_B3_IND. -/
def Event.Carries (short : Nat → Prop) (framed : Skb → Prop) : Event → Prop
  | .message _ skb => skb.cmd = (CAPI_DATA_B3, CAPI_IND) → framed skb
  | .call (.read _ _) | .call (.poll _) => False
  | .call (.ttyWrite _ _ buf) => short buf.length
  | .call _ => True

/-- In an event about no minor nothing is accepted or given to a line discipline, the message of a write apart. -/
def Unbooked (s s' : Driver) (event : Event) : Prop :=
  event.minor s = none → s'.received = s.received ∧
    ((∀ d buf, event ≠ .call (.write d buf)) → s'.accepted = s.accepted)

/-- What an event does to the minors. -/
structure Turned (short : Nat → Prop) (framed : Skb → Prop) (event : Event) (s s' : Driver) : Prop where
  minorNext : s.minorNext ≤ s'.minorNext
  others : ∀ q mq', event.minor s ≠ some q → s'.minors q = some mq' →
    (∃ mq, s.minors q = some mq ∧ (mq' = mq ∨ mq' = { mq with nccip := false })) ∨ (s.minorNext ≤ q ∧ mq'.Born)
  own : ∀ p, event.minor s = some p →
    (∃ mp, s.minors p = some mp ∧ ∀ b mp', s'.minors p = some mp' →
      Turns short framed (mp, b) (mp', event.book s s' b)) ∨
    (s'.minors p = s.minors p ∧ ∀ b, event.book s s' b = b)
  unbooked : Unbooked s s' event

section Events

variable {short : Nat → Prop} {framed : Skb → Prop} {env : Env} {event : Event} {s s' : Driver} {d tty p : Nat}

/-- No minor is touched. -/
theorem Turned.still (minors : s'.minors = s.minors) (minorNext : s'.minorNext = s.minorNext)
    (idle : event.minor s = none) (received : s'.received = s.received) (accepted : s'.accepted = s.accepted) :
    Turned short framed event s s' := by
  refine ⟨Nat.le_of_eq minorNext.symm, ?_, ?_, fun _ => ⟨received, fun _ => accepted⟩⟩
  · intro q mq' _ live
    rw [minors] at live
    exact .inl ⟨mq', live, .inl rfl⟩
  · intro p about
    cases idle.symm.trans about

/-- The minor of the event takes turns. -/
theorem Turned.served {mp : Capiminor} (minorNext : s'.minorNext = s.minorNext)
    (others : ∀ q, q ≠ p → s'.minors q = s.minors q) (about : event.minor s = some p)
    (live : s.minors p = some mp)
    (turns : ∀ b, ∃ mp' accepted received, s'.minors p = some mp' ∧ s'.accepted = s.accepted ++ accepted ∧
      s'.received = s.received ++ received ∧
      Turns short framed (mp, b) (mp', (event.enter b).enter accepted received)) : Turned short framed event s s' := by
  refine ⟨Nat.le_of_eq minorNext.symm, ?_, ?_, fun idle => by cases idle.symm.trans about⟩
  · intro q mq' other live'
    have apart : q ≠ p := by
      rintro rfl
      exact other about
    rw [others q apart] at live'
    exact .inl ⟨mq', live', .inl rfl⟩
  · intro q here
    obtain rfl := Option.some.inj (about.symm.trans here)
    refine .inl ⟨mp, live, fun b mp' live' => ?_⟩
    obtain ⟨mp₁, accepted, received, live₁, accepts, receives, turns⟩ := turns b
    obtain rfl := Option.some.inj (live₁.symm.trans live')
    unfold Event.book
    rw [accepts, receives, List.drop_left, List.drop_left]
    exact turns

/-- The call does nothing. -/
theorem Turned.alone (op : Op) (s : Driver) : Turned short framed (.call op) s s := by
  refine ⟨Nat.le_refl _, fun q mq' _ live => .inl ⟨mq', live, .inl rfl⟩, fun p _ => .inr ⟨rfl, fun b => ?_⟩,
    fun _ => ⟨rfl, fun _ => rfl⟩⟩
  unfold Event.book
  rw [List.drop_length, List.drop_length]
  exact Book.enter_nil b

/-- A call on a tty. -/
theorem TtyCall.turned {op : Op} {n : Nat} (fits : short n) (call : TtyCall n tty s s')
    (about : (Event.call op).minor s = s.ttys tty) : Turned short framed (.call op) s s' := by
  rcases call with rfl | ⟨p, ref, moves⟩
  · exact .alone op _
  · rcases Relation.ReflTransGen.cases_head moves with rfl | ⟨t, move, -⟩
    · exact .alone op _
    · obtain ⟨mp, live⟩ := move.live
      apply Turned.served moves.through.minorNext moves.through.others (about.trans ref) live
      intro b
      exact moves.served fits mp b live

/-! ## Messages -/

/-- A message for `recvqueue` concerns no minor. -/
theorem recvqueueTail_minors {skb : Skb} (run : recvqueueTail s d skb = some s') :
    s'.minors = s.minors ∧ s'.minorNext = s.minorNext ∧ s'.received = s.received ∧ s'.accepted = s.accepted := by
  obtain ⟨cdev, dev, run⟩ := Option.bind_eq_some_iff.mp run
  cases run
  exact ⟨rfl, rfl, rfl, rfl⟩

/-- An NCCI is opened, with a new minor or without. -/
theorem capincciAlloc_minors {cdev : Capidev} {ncci : UInt32} (dev : s.devs d = some cdev)
    (run : capincciAlloc env s d ncci = some s') :
    s.minorNext ≤ s'.minorNext ∧ s'.received = s.received ∧ s'.accepted = s.accepted ∧
      ∀ q mq', s'.minors q = some mq' → s.minors q = some mq' ∨ (s.minorNext ≤ q ∧ mq'.Born) := by
  rcases capincciAlloc_cases dev run with ⟨-, rfl⟩ | ⟨np, -, new⟩
  · exact ⟨Nat.le_refl _, rfl, rfl, fun q mq' live => .inl live⟩
  · refine ⟨new.minorNext, new.received, new.accepted, fun q mq' live => ?_⟩
    by_cases young : q = s.minorNext
    · subst young
      rcases new.newborn mq' live with old | born
      · exact .inl old
      · exact .inr ⟨Nat.le_refl _, born⟩
    · rw [new.others q young] at live
      exact .inl live

/-- A DATA_B3_IND or DATA_B3_CONF is entered into the book of its minor, which then takes its turns. -/
theorem recvDataB3_turns {skb : Skb} {mp : Capiminor} (live : s.minors p = some mp)
    (fits : skb.u8 5 = CAPI_IND → framed skb) (sub : skb.u8 5 = CAPI_IND ∨ skb.u8 5 = CAPI_CONF)
    (run : recvDataB3 env s d p skb = some s') (b : Book) :
    ∃ mp' accepted received, s'.minors p = some mp' ∧ s'.accepted = s.accepted ++ accepted ∧
      s'.received = s.received ++ received ∧
      Turns short framed (mp, b) (mp', ((Event.message d skb).enter b).enter accepted received) := by
  unfold recvDataB3 at run
  split at run
  · rename_i ind
    obtain ⟨mp₀, live₀, run⟩ := Option.bind_eq_some_iff.mp run
    obtain rfl := Option.some.inj (live.symm.trans live₀)
    have served : Served short framed p _ s' := handleMinorRecv_served run
    obtain ⟨mp', accepted, received, live', accepts, receives, turns⟩ :=
      served _ (b.arrive skb) (Function.update_self _ _ _)
    refine ⟨mp', accepted, received, live', accepts, receives, ?_⟩
    rw [Event.enter, if_pos ind]
    exact .head (.arrived (fits ind)) turns
  · rename_i other
    have conf := sub.resolve_left other
    rw [if_pos conf] at run
    obtain ⟨mp₀, live₀, run⟩ := Option.bind_eq_some_iff.mp run
    obtain rfl := Option.some.inj (live.symm.trans live₀)
    obtain ⟨⟨s₁, n⟩, sent, run⟩ := Option.bind_eq_some_iff.mp run
    cases run
    have served : Served short framed p _ s₁ := handleMinorSend_served sent
    obtain ⟨mp', accepted, received, live', accepts, receives, turns⟩ :=
      served _ (b.confirm (skb.u16 (CAPI_MSG_BASELEN + 4))) (Function.update_self _ _ _)
    refine ⟨mp', accepted, received, live', accepts, receives, ?_⟩
    rw [Event.enter, if_neg other]
    exact .head .confirmed turns

/-- A message turns the minor it is for. -/
theorem recvOne_turned {skb : Skb} (wired : Wired s) (fits : skb.cmd = (CAPI_DATA_B3, CAPI_IND) → framed skb)
    (run : recvOne env s d skb = some s') : Turned short framed (.message d skb) s s' := by
  obtain ⟨cdev, dev⟩ := recvOne_file run
  have about (away : cdev.diverts skb = false) : (Event.message d skb).minor s = none := by
    simp [Event.minor, dev, away]
  cases recvOne_cases dev run with
  | connected connects other alloc queued =>
    have idle := about (by simp [Capidev.diverts, other])
    obtain ⟨minors, minorNext, received, accepted⟩ := recvqueueTail_minors queued
    obtain ⟨later, received₁, accepted₁, old⟩ := capincciAlloc_minors dev alloc
    refine ⟨by omega, fun q mq' _ live => ?_, fun p here => (by cases idle.symm.trans here),
      fun _ => ⟨received.trans received₁, fun _ => accepted.trans accepted₁⟩⟩
    rw [minors] at live
    rcases old q mq' live with same | born
    · exact .inl ⟨mq', same, .inl rfl⟩
    · exact .inr born
  | @diverted p _ diverts found through data =>
    obtain ⟨np, first, minorp⟩ := Option.bind_eq_some_iff.mp found
    obtain ⟨mp, live, -⟩ := wired.owned d cdev np p dev (List.mem_of_find?_eq_some first) minorp
    have shape : skb.u8 4 = CAPI_DATA_B3 ∧ (skb.u8 5 = CAPI_IND ∨ skb.u8 5 = CAPI_CONF) := by
      simp only [Capidev.diverts, Bool.and_eq_true, Bool.or_eq_true, beq_iff_eq] at diverts
      exact diverts.1
    apply Turned.served through.minorNext through.others _ live
    · intro b
      apply recvDataB3_turns live _ shape.2 data b
      intro ind
      apply fits
      exact Prod.ext shape.1 ind
    · simp [Event.minor, dev, diverts, found]
  | queued _ away queued =>
    obtain ⟨minors, minorNext, received, accepted⟩ := recvqueueTail_minors queued
    exact .still minors minorNext (about away) received accepted

/-! ## Calls on files -/

/-- Minors are freed or lose their NCCI. -/
structure Fewer (s s' : Driver) : Prop where
  minorNext : s'.minorNext = s.minorNext
  minors : ∀ q mq', s'.minors q = some mq' → ∃ mq, s.minors q = some mq ∧ (mq' = mq ∨ mq' = { mq with nccip := false })

theorem Fewer.refl (s : Driver) : Fewer s s := ⟨rfl, fun _ mq' live => ⟨mq', live, .inl rfl⟩⟩

theorem Fewer.trans {t : Driver} (first : Fewer s t) (second : Fewer t s') : Fewer s s' := by
  refine ⟨second.minorNext.trans first.minorNext, fun q mq' live => ?_⟩
  obtain ⟨mq₁, live₁, change₁⟩ := second.minors q mq' live
  obtain ⟨mq₂, live₂, change₂⟩ := first.minors q mq₁ live₁
  refine ⟨mq₂, live₂, ?_⟩
  rcases change₁ with rfl | rfl
  · exact change₂
  · rcases change₂ with rfl | rfl
    · exact .inr rfl
    · exact .inr rfl

/-- An event that frees minors turns none. -/
theorem Fewer.turned (fewer : Fewer s s') (idle : event.minor s = none) (unbooked : Unbooked s s' event) :
    Turned short framed event s s' := by
  refine ⟨Nat.le_of_eq fewer.minorNext.symm, fun q mq' _ live => .inl (fewer.minors q mq' live), fun p here => ?_,
    unbooked⟩
  cases idle.symm.trans here

/-- Freeing a minor leaves the others. -/
theorem capiminorFree_fewer (run : capiminorFree s p = some s') : Fewer s s' := by
  obtain ⟨mp, -, run⟩ := Option.bind_eq_some_iff.mp run
  split at run
  · cases run
    refine ⟨rfl, fun q mq' live => ?_⟩
    by_cases here : q = p
    · subst here
      cases (Function.update_self _ _ _).symm.trans live
    · exact ⟨mq', (Function.update_of_ne here _ _).symm.trans live, .inl rfl⟩
  · cases run

theorem capiminorFree_logs (run : capiminorFree s p = some s') :
    s'.accepted = s.accepted ∧ s'.received = s.received := by
  obtain ⟨mp, -, run⟩ := Option.bind_eq_some_iff.mp run
  split at run
  · cases run
    exact ⟨rfl, rfl⟩
  · cases run

/-- Unlinking an NCCI leaves the other minors. -/
theorem capincciUnlink_fewer {minorp : Option Nat} (run : capincciUnlink s minorp = some s') : Fewer s s' := by
  cases minorp with
  | none =>
    cases run
    exact .refl _
  | some p =>
    obtain ⟨mp, live, run⟩ := Option.bind_eq_some_iff.mp run
    split at run
    · cases run
      refine ⟨rfl, fun q mq' live' => ?_⟩
      by_cases here : q = p
      · subst here
        cases (Function.update_self _ _ _).symm.trans live'
        exact ⟨mp, live, .inr rfl⟩
      · exact ⟨mq', (Function.update_of_ne here _ _).symm.trans live', .inl rfl⟩
    · exact capiminorFree_fewer run

theorem capincciFreeLoop_fewer {ncci : UInt32} {nccis : List Capincci} (run : capincciFreeLoop ncci nccis s = some s') :
    Fewer s s' := by
  induction nccis generalizing s with
  | nil =>
    cases run
    exact .refl _
  | cons np nccis ih =>
    unfold capincciFreeLoop at run
    split at run
    · obtain ⟨s₁, first, rest⟩ := Option.bind_eq_some_iff.mp run
      exact (capincciUnlink_fewer first).trans (ih rest)
    · exact ih run

theorem capincciFree_fewer {ncci : UInt32} (run : capincciFree s d ncci = some s') : Fewer s s' := by
  obtain ⟨cdev, -, run⟩ := Option.bind_eq_some_iff.mp run
  obtain ⟨s₁, loop, run⟩ := Option.bind_eq_some_iff.mp run
  cases run
  have fewer := capincciFreeLoop_fewer loop
  exact ⟨fewer.minorNext, fewer.minors⟩

/-- A write frees minors at most. -/
theorem capiWrite_fewer {buf : Bytes} {result : Int} (run : capiWrite env s d buf = some (s', result)) : Fewer s s' := by
  have asked : Fewer s s.asked := ⟨rfl, (Fewer.refl s).minors⟩
  obtain ⟨cdev, dev, -⟩ := Option.bind_eq_some_iff.mp run
  by_cases unregistered : cdev.ap.id = 0
  · simp only [capiWrite, dev, Option.bind_eq_bind, Option.bind_some, if_pos unregistered] at run
    cases run
    exact .refl _
  cases capiWrite_wrote dev unregistered run with
  | failed => exact asked
  | invalid => exact asked
  | @put s₁ _ _ prepared =>
    have freed : Fewer s.asked s₁ := by
      unfold prepare at prepared
      split at prepared
      · exact capincciFree_fewer prepared
      · cases prepared
        exact .refl _
    apply (asked.trans freed).trans
    unfold answered putCapiMessage
    split
    · exact ⟨rfl, (Fewer.refl s₁).minors⟩
    · exact ⟨rfl, (Fewer.refl s₁).minors⟩

theorem capidevFree_fewer (run : capidevFree s d = some s') : Fewer s s' := by
  obtain ⟨cdev, -, run⟩ := Option.bind_eq_some_iff.mp run
  obtain ⟨s₁, free, run⟩ := Option.bind_eq_some_iff.mp run
  cases run
  have fewer := capincciFree_fewer free
  exact ⟨fewer.minorNext, fewer.minors⟩

theorem capiWrite_received {buf : Bytes} {result : Int} (run : capiWrite env s d buf = some (s', result)) :
    s'.received = s.received := by
  obtain ⟨cdev, dev, -⟩ := Option.bind_eq_some_iff.mp run
  by_cases unregistered : cdev.ap.id = 0
  · simp only [capiWrite, dev, Option.bind_eq_bind, Option.bind_some, if_pos unregistered] at run
    cases run
    rfl
  cases capiWrite_wrote dev unregistered run with
  | failed => rfl
  | invalid => rfl
  | @put s₁ _ _ prepared =>
    have freed : s₁.received = s.received := by
      rcases prepare_cases prepared dev with ⟨-, freed⟩ | ⟨-, rfl⟩
      · exact freed.received
      · rfl
    rw [← freed]
    unfold answered putCapiMessage
    split <;> rfl

/-- A release neither receives nor sends. -/
theorem capidevFree_logs (run : capidevFree s d = some s') :
    s'.received = s.received ∧ s'.accepted = s.accepted := by
  obtain ⟨cdev, -, run⟩ := Option.bind_eq_some_iff.mp run
  obtain ⟨s₁, free, run⟩ := Option.bind_eq_some_iff.mp run
  cases run
  have freed := capincciFree_freed (Function.update_self _ _ _) free
  exact ⟨freed.received, freed.accepted⟩

/-! ## Open and close -/

theorem ttyOpen_turned (wired : Wired s) (run : ttyOpen env s tty = some s') :
    Turned short framed (.call (.ttyOpen tty)) s s' := by
  obtain ⟨⟨s₁, result⟩, opened, rfl⟩ := Option.map_eq_some_iff.mp run
  have counted : (countOpen tty (s₁, result)).minors = s₁.minors ∧
      (countOpen tty (s₁, result)).minorNext = s₁.minorNext ∧
      (countOpen tty (s₁, result)).accepted = s₁.accepted ∧ (countOpen tty (s₁, result)).received = s₁.received := by
    unfold countOpen
    split <;> exact ⟨rfl, rfl, rfl, rfl⟩
  have refused : countOpen tty (s, - ENXIO) = s := rfl
  obtain ⟨found, find, opened⟩ := Option.bind_eq_some_iff.mp opened
  cases found with
  | none =>
    cases opened
    rw [refused]
    exact .alone _ s
  | some p =>
    obtain ⟨mp, live, opened⟩ := Option.bind_eq_some_iff.mp opened
    have number : mp.minor = tty := by
      obtain ⟨found', find', named⟩ := wired.capiminorFind tty
      cases find.symm.trans find'
      obtain ⟨mp', live', number⟩ := named p rfl
      cases live.symm.trans live'
      exact number
    split at opened
    · cases opened
      rw [refused]
      exact .alone _ s
    · obtain ⟨s₂, received, opened⟩ := Option.bind_eq_some_iff.mp opened
      cases opened
      obtain ⟨minors, minorNext, accepted, receives⟩ := counted
      have through := handleMinorRecv_through received
      apply Turned.served _ _ _ live
      · intro b
        rw [minors, accepted, receives]
        have served : Served short framed p _ _ := handleMinorRecv_served received
        obtain ⟨mp', accepted', received', live', accepts', receives', turns⟩ :=
          served _ b (Function.update_self _ _ _)
        refine ⟨mp', accepted', received', live', accepts', receives', ?_⟩
        rw [← number] at turns
        exact .head .opened turns
      · exact minorNext.trans through.minorNext
      · intro q apart
        rw [minors, through.others q apart]
        exact Function.update_of_ne apart _ _
      · simp [Event.minor, find]

theorem ttyClose_turned (run : ttyClose s tty = some s') : Turned short framed (.call (.ttyClose tty)) s s' := by
  obtain ⟨s₁, closed, rfl⟩ := Option.map_eq_some_iff.mp run
  have counted : Turned short framed (.call (.ttyClose tty)) s s₁ →
      Turned short framed (.call (.ttyClose tty)) s (countClose tty s₁) :=
    fun turned => ⟨turned.minorNext, turned.others, turned.own, turned.unbooked⟩
  apply counted
  unfold capincTtyClose at closed
  split at closed
  · cases closed
    exact .alone _ _
  rename_i p ref
  obtain ⟨mp, live, closed⟩ := Option.bind_eq_some_iff.mp closed
  let mp' : Capiminor := { mp with
    tty := if mp.ttyopencount - 1 = 0 then none else mp.tty, ttyopencount := mp.ttyopencount - 1 }
  -- the minor after the close, before it may be freed
  obtain ⟨s₂, closed, minors, minorNext, accepted, received⟩ : ∃ s₂,
      (if ¬ mp'.nccip then capiminorFree s₂ p else some s₂) = some s₁ ∧
        s₂.minors = Function.update s.minors p (some mp') ∧ s₂.minorNext = s.minorNext ∧ s₂.accepted = s.accepted ∧
        s₂.received = s.received := by
    by_cases last : mp.ttyopencount - 1 = 0
    · simp only [last, if_true] at closed
      exact ⟨_, closed, by simp only [Driver.setMinor, mp', last, if_true], rfl, rfl, rfl⟩
    · simp only [last, if_false] at closed
      exact ⟨_, closed, by simp only [Driver.setMinor, mp', last, if_false], rfl, rfl, rfl⟩
  obtain ⟨fewer, logs⟩ : Fewer s₂ s₁ ∧ s₁.accepted = s₂.accepted ∧ s₁.received = s₂.received := by
    split at closed
    · exact ⟨capiminorFree_fewer closed, capiminorFree_logs closed⟩
    · cases closed
      exact ⟨.refl _, rfl, rfl⟩
  refine ⟨Nat.le_of_eq (fewer.minorNext.trans minorNext).symm, ?_, ?_, fun idle => by cases idle.symm.trans ref⟩
  · intro q mq other live'
    have apart : q ≠ p := by
      rintro rfl
      exact other ref
    obtain ⟨mq₂, live₂, change⟩ := fewer.minors q mq live'
    rw [minors, Function.update_of_ne apart] at live₂
    exact .inl ⟨mq₂, live₂, change⟩
  · intro q here
    obtain rfl := Option.some.inj (ref.symm.trans here)
    refine .inl ⟨mp, live, fun b mq live' => ?_⟩
    have book : (Event.call (.ttyClose tty)).book s s₁ b = b := by
      unfold Event.book
      rw [logs.1, logs.2, accepted, received, List.drop_length, List.drop_length]
      exact Book.enter_nil b
    rw [book]
    obtain ⟨mq₂, live₂, change⟩ := fewer.minors p mq live'
    rw [minors] at live₂
    cases (Function.update_self _ _ _).symm.trans live₂
    have turned : Turns short framed (mp, b) (mp', b) := .single .closed
    rcases change with rfl | rfl
    · exact turned
    · exact turned.tail .detached

/-! ## Events -/

/-- Every event is turns of its minor, and leaves the others with their books. -/
theorem eventStep_turned (zero : short 0) (wired : Wired s) (carries : event.Carries short framed)
    (run : eventStep env s event = some s') : Turned short framed event s s' := by
  cases event with
  | message d skb => exact recvOne_turned wired carries run
  | call op =>
    cases op with
    | openFile =>
      cases run
      unfold capidevAlloc
      simp only
      split <;> exact .still rfl rfl rfl rfl rfl
    | ioctlRegister d info id =>
      obtain ⟨⟨s₁, result⟩, call, rfl⟩ := Option.map_eq_some_iff.mp run
      obtain ⟨cdev, dev, call⟩ := Option.bind_eq_some_iff.mp call
      split at call
      · cases call
        exact .still rfl rfl rfl rfl rfl
      · split at call <;> cases call <;> exact .still rfl rfl rfl rfl rfl
    | ioctlFlags d set userflags =>
      obtain ⟨cdev, dev, run⟩ := Option.bind_eq_some_iff.mp run
      cases run
      exact .still rfl rfl rfl rfl rfl
    | enqueue d skb =>
      obtain ⟨cdev, dev, run⟩ := Option.bind_eq_some_iff.mp run
      cases run
      exact .still rfl rfl rfl rfl rfl
    | signalError d info =>
      obtain ⟨cdev, dev, run⟩ := Option.bind_eq_some_iff.mp run
      cases run
      exact .still rfl rfl rfl rfl rfl
    | read d count => exact carries.elim
    | poll d => exact carries.elim
    | write d buf =>
      obtain ⟨⟨s₁, result⟩, call, rfl⟩ := Option.map_eq_some_iff.mp run
      apply (capiWrite_fewer call).turned rfl
      exact fun _ => ⟨capiWrite_received call, fun other => absurd rfl (other d buf)⟩
    | release d =>
      apply (capidevFree_fewer run).turned rfl
      exact fun _ => ⟨(capidevFree_logs run).1, fun _ => (capidevFree_logs run).2⟩
    | ttyOpen tty => exact ttyOpen_turned wired run
    | ttyClose tty => exact ttyClose_turned run
    | ttyWrite tty fromUser buf =>
      obtain ⟨⟨s₁, result⟩, call, rfl⟩ := Option.map_eq_some_iff.mp run
      exact (capincTtyWrite_call call).turned carries rfl
    | ttyPutChar tty ch => exact (capincTtyPutChar_call run 0).turned zero rfl
    | ttyFlushChars tty => exact (capincTtyFlushChars_call run 0).turned zero rfl
    | ttyThrottle tty => exact (capincTtyThrottle_call run 0).turned zero rfl
    | ttyUnthrottle tty => exact (capincTtyUnthrottle_call run 0).turned zero rfl
    | ttyStop tty => exact (capincTtyStop_call run 0).turned zero rfl
    | ttyStart tty => exact (capincTtyStart_call run 0).turned zero rfl

end Events

/-! ## Runs -/

/-- Every live minor has `I` with its book. -/
structure Kept (I : Capiminor × Book → Prop) (x : Ledger) : Prop where
  wired : Wired x.driver
  unborn : ∀ p, x.driver.minorNext ≤ p → x.books p = .empty
  holds : ∀ p mp, x.driver.minors p = some mp → I (mp, x.books p)

section Runs

variable {short : Nat → Prop} {framed : Skb → Prop} {env : Env} {I : Capiminor × Book → Prop} {x x' : Ledger}
  {event : Event}

theorem Kept.init (I : Capiminor × Book → Prop) : Kept I .init :=
  ⟨.init, fun _ _ => rfl, fun p mp live => by cases live⟩

/-- What every turn keeps every step keeps. -/
theorem Kept.step (kept : Kept I x) (zero : short 0) (born : ∀ mp : Capiminor, mp.Born → I (mp, .empty))
    (turn : ∀ a b, Turn short framed a b → I a → I b) (carries : event.Carries short framed)
    (run : bookStep env x event = some x') : Kept I x' := by
  obtain ⟨s', next, rfl⟩ := Option.map_eq_some_iff.mp run
  have turned := eventStep_turned zero kept.wired carries next
  have wired' := eventStep_wired kept.wired next
  -- the minors the event is not about
  have aside (books : Nat → Book) (q : Nat) (mq' : Capiminor) (other : event.minor x.driver ≠ some q)
      (same : books q = x.books q) (live : s'.minors q = some mq') : I (mq', books q) := by
    rw [same]
    rcases turned.others q mq' other live with ⟨mq, live₀, rfl | rfl⟩ | ⟨young, fresh⟩
    · exact kept.holds q _ live₀
    · exact turn _ _ .detached (kept.holds q mq live₀)
    · rw [kept.unborn q young]
      exact born mq' fresh
  cases about : event.minor x.driver with
  | none =>
    refine ⟨wired', fun p young => kept.unborn p (turned.minorNext.trans young), fun p mp live => ?_⟩
    apply aside x.books p mp _ rfl live
    rw [about]
    nofun
  | some p =>
    simp only
    rcases turned.own p about with ⟨mp, live, turns⟩ | ⟨same, alone⟩
    · have aged := kept.wired.aged live
      refine ⟨wired', fun q young => ?_, fun q mq live' => ?_⟩
      · have later : x.driver.minorNext ≤ q := turned.minorNext.trans young
        have apart : q ≠ p := by omega
        exact (Function.update_of_ne apart _ _).trans (kept.unborn q later)
      · by_cases here : q = p
        · subst here
          show I (mq, Function.update x.books q _ q)
          rw [Function.update_self]
          exact (turns _ mq live').keep turn (kept.holds q mp live)
        · apply aside _ q mq _ (Function.update_of_ne here _ _) live'
          rw [about]
          exact fun eq => here (Option.some.inj eq).symm
    · have books : Function.update x.books p (event.book x.driver s' (x.books p)) = x.books := by
        rw [alone]
        exact Function.update_eq_self p x.books
      rw [books]
      refine ⟨wired', fun q young => kept.unborn q (turned.minorNext.trans young), fun q mq live' => ?_⟩
      by_cases here : q = p
      · subst here
        rw [same] at live'
        exact kept.holds q mq live'
      · apply aside x.books q mq _ rfl live'
        rw [about]
        exact fun eq => here (Option.some.inj eq).symm

/-- What a new minor has and every turn keeps, all minors have in every run. -/
theorem minors_keep (env : Env) (zero : short 0) (born : ∀ mp : Capiminor, mp.Born → I (mp, .empty))
    (turn : ∀ a b, Turn short framed a b → I a → I b) {events : List Event}
    (carries : ∀ event ∈ events, event.Carries short framed) : Always (bookStep env) (Kept I) .init events := by
  apply @always_of_inv _ _ _ (Kept I) (fun _ event => event.Carries short framed) _ _ _ (.init I) (.of_mem carries _)
  intro x event x' kept carries run
  exact kept.step zero born turn carries run

/-- Nothing is missing in the books. -/
theorem books_complete (env : Env) (zero : short 0) {events : List Event}
    (carries : ∀ event ∈ events, event.Carries short framed) :
    Each (bookStep env) (fun x event x' => Unbooked x.driver x'.driver event) .init events := by
  apply each_of_inv (fun x : Ledger => Wired x.driver) _ Wired.init (Meets.of_mem carries Ledger.init)
  intro x event x' wired carries run
  obtain ⟨s', next, rfl⟩ := Option.map_eq_some_iff.mp run
  exact ⟨(eventStep_turned zero wired carries next).unbooked, eventStep_wired wired next⟩

end Runs

end Capi4Linux.Capi
