import Capi4Linux.Capilib.Links
import Capi4Linux.Lib.Projection

/-!
# Connections do not disturb each other

All connections of a device driver share one list that is searched by
application and NCCI, and the same pair may be on it more than once. A run of
calls for any pairs shows of one pair what its own calls, and the releases of
its application, show alone.
-/

namespace Capi4Linux.Capilib
open Pool Projection

/-- What a device driver asks of capilib. -/
inductive Call where
  | newNcci (applid : UInt16) (ncci : UInt32) (winsize : Nat)
  | freeNcci (applid : UInt16) (ncci : UInt32)
  | dataB3Req (applid : UInt16) (ncci : UInt32) (msgid : UInt16)
  | dataB3Conf (applid : UInt16) (ncci : UInt32) (msgid : UInt16)
  | releaseAppl (applid : UInt16)

/-- One call on the list `head`; `capilib_data_b3_req` alone returns a value. -/
def Call.run (maxwin : Nat) (head : List CapilibNcci) : Call → Option (Option DataB3Info × List CapilibNcci)
  | .newNcci applid ncci winsize => some (none, capilibNewNcci maxwin true head applid ncci winsize)
  | .freeNcci applid ncci => some (none, capilibFreeNcci head applid ncci)
  | .dataB3Req applid ncci msgid =>
    let (info, head) := capilibDataB3Req head applid ncci msgid
    some (some info, head)
  | .dataB3Conf applid ncci msgid => (capilibDataB3Conf maxwin head applid ncci msgid).map (none, ·)
  | .releaseAppl applid => some (none, capilibReleaseAppl head applid)

/-- The call is made for the pair, or releases its application. -/
def Call.concerns (applid : UInt16) (ncci : UInt32) : Call → Bool
  | .newNcci applid' ncci' _ => applid' = applid ∧ ncci' = ncci
  | .freeNcci applid' ncci' => applid' = applid ∧ ncci' = ncci
  | .dataB3Req applid' ncci' _ => applid' = applid ∧ ncci' = ncci
  | .dataB3Conf applid' ncci' _ => applid' = applid ∧ ncci' = ncci
  | .releaseAppl applid' => applid' = applid

/-- The record belongs to the pair. -/
def CapilibNcci.isOf (applid : UInt16) (ncci : UInt32) (np : CapilibNcci) : Bool :=
  np.applid = applid ∧ np.ncci = ncci

/-- The records of the pair, with their windows. -/
def records (applid : UInt16) (ncci : UInt32) (head : List CapilibNcci) : List CapilibNcci :=
  head.filter (CapilibNcci.isOf applid ncci)

/-! ## The search for a pair -/

section Search

variable (applid : UInt16) (ncci : UInt32)

theorem skips_iff (np : CapilibNcci) :
    (np.applid ≠ applid ∨ np.ncci ≠ ncci) ↔ ¬ CapilibNcci.isOf applid ncci np = true := by
  simp only [CapilibNcci.isOf, decide_eq_true_eq]
  tauto

/-- `capilib_free_ncci` takes out the first record of the pair. -/
theorem capilibFreeNcci_eq (head : List CapilibNcci) :
    onFirst (CapilibNcci.isOf applid ncci) (fun _ => some (none, [])) none head =
      some ((none : Option DataB3Info), capilibFreeNcci head applid ncci) := by
  induction head with
  | nil => rfl
  | cons np rest ih =>
    rw [onFirst, capilibFreeNcci]
    by_cases happlid : np.applid = applid
    · by_cases hncci : np.ncci = ncci
      · rw [if_pos (by simp [CapilibNcci.isOf, happlid, hncci]), if_neg (by simpa using happlid),
          if_neg (by simpa using hncci)]
        rfl
      · rw [if_neg (by simp [CapilibNcci.isOf, hncci]), if_neg (by simpa using happlid), if_pos hncci, ih]
        rfl
    · rw [if_neg (by simp [CapilibNcci.isOf, happlid]), if_pos happlid, ih]
      rfl

/-- `capilib_data_b3_req` changes the first record of the pair. -/
theorem capilibDataB3Req_eq (head : List CapilibNcci) (msgid : UInt16) :
    onFirst (CapilibNcci.isOf applid ncci)
        (fun np => some (some (if (mqEnqueue np msgid).1 then .CAPI_NOERROR else .CAPI_SENDQUEUEFULL),
          [(mqEnqueue np msgid).2])) (some .CAPI_NOERROR) head =
      some ((some (capilibDataB3Req head applid ncci msgid).1 : Option DataB3Info),
        (capilibDataB3Req head applid ncci msgid).2) := by
  induction head with
  | nil => rfl
  | cons np rest ih =>
    rw [onFirst, capilibDataB3Req]
    by_cases skip : np.applid ≠ applid ∨ np.ncci ≠ ncci
    · rw [if_neg ((skips_iff applid ncci np).mp skip), if_pos skip, ih]
      rfl
    · have hit : CapilibNcci.isOf applid ncci np = true := by
        by_contra no
        exact skip ((skips_iff applid ncci np).mpr no)
      rw [if_pos hit, if_neg skip]
      rfl

/-- So does `capilib_data_b3_conf`. -/
theorem capilibDataB3Conf_eq (maxwin : Nat) (head : List CapilibNcci) (msgid : UInt16) :
    onFirst (CapilibNcci.isOf applid ncci)
        (fun np => (mqDequeue maxwin np msgid).map fun done => (none, [done.2])) none head =
      (capilibDataB3Conf maxwin head applid ncci msgid).map ((none : Option DataB3Info), ·) := by
  induction head with
  | nil => rfl
  | cons np rest ih =>
    rw [onFirst, capilibDataB3Conf]
    by_cases skip : np.applid ≠ applid ∨ np.ncci ≠ ncci
    · rw [if_neg ((skips_iff applid ncci np).mp skip), if_pos skip, ih]
      cases capilibDataB3Conf maxwin rest applid ncci msgid with
      | none => rfl
      | some rest' => rfl
    · have hit : CapilibNcci.isOf applid ncci np = true := by
        by_contra no
        exact skip ((skips_iff applid ncci np).mpr no)
      rw [if_pos hit, if_neg skip]
      cases mqDequeue maxwin np msgid with
      | none => rfl
      | some done => rfl

/-- `capilib_release_appl` takes out the records of the application and no other. -/
theorem capilibReleaseAppl_eq (head : List CapilibNcci) :
    capilibReleaseAppl head applid = head.filter (fun np => np.applid ≠ applid) := by
  induction head with
  | nil => rfl
  | cons np rest ih =>
    rw [capilibReleaseAppl, ih]
    by_cases h : np.applid ≠ applid
    · rw [if_pos h, List.filter_cons_of_pos (by simpa using h)]
    · rw [if_neg h, List.filter_cons_of_neg (by simpa using h)]

end Search

/-! ## Queues whose links end -/

/-- The entries of a pool are queued or free and no link leads back. An entry
that `mq_enqueue` left off the queue is in neither list. -/
structure Threaded (maxwin : Nat) (np : CapilibNcci) (q f : List Nat) : Prop where
  queue : Chain np.next np.msgidqueue q
  free : Chain np.next np.msgidfree f
  distinct : (q ++ f).Nodup
  room : q.length + f.length ≤ maxwin
  last : ∀ l, np.msgidlast = some l → l ∉ f ∧ (l ∈ q → q.getLast? = some l)

/-- A record whose queue can be walked. -/
def CapilibNcci.Sound (maxwin : Nat) (np : CapilibNcci) : Prop :=
  ∃ q f, Threaded maxwin np q f

theorem mqInit_sound {maxwin : Nat} (window : 1 ≤ maxwin) (np : CapilibNcci) (room : np.winsize ≤ maxwin) :
    (mqInit np).Sound maxwin := by
  rcases Nat.eq_zero_or_pos np.winsize with closed | pos
  · obtain ⟨queue, last, -⟩ := mqInitLoop_frame (np.winsize - 1) 1
      { np with msgidqueue := none, msgidlast := none, nmsg := 0, msgidpool := fun _ => ⟨none, 0⟩,
                msgidfree := some 0 }
    refine ⟨[], [0], queue, mqInit_free_zero np closed, by simp, by simpa using window, ?_⟩
    intro l h
    cases last.symm.trans h
  · have linked := mqInit_linked np pos
    refine ⟨_, _, linked.queue, linked.free, linked.distinct, ?_, ?_⟩
    · have size := linked.size
      rw [mqInit_winsize] at size
      omega
    · intro l h
      cases linked.last.symm.trans h

/-- An enqueued entry leaves the free list; it ends the queue, or `msgidlast`
alone knows it. -/
theorem mqEnqueue_sound {maxwin : Nat} {np : CapilibNcci} (sound : np.Sound maxwin) (msgid : UInt16) :
    (mqEnqueue np msgid).2.Sound maxwin := by
  obtain ⟨q, f, h⟩ := sound
  cases f with
  | nil =>
    have none : np.msgidfree = none := h.free
    have full : mqEnqueue np msgid = (false, np) := by simp [mqEnqueue, none]
    rw [full]
    exact ⟨q, [], h⟩
  | cons i f =>
    obtain ⟨front, back⟩ := h.free
    obtain ⟨np', run, next, -, queue, last, free, -, -⟩ := mqEnqueue_fields front msgid
    have sep : i ∉ q ∧ i ∉ f ∧ q.Nodup ∧ f.Nodup ∧ (∀ j ∈ q, j ∉ f) := by
      have := h.distinct
      simp only [List.nodup_append, List.nodup_cons, List.mem_cons] at this
      grind
    obtain ⟨offQ, offF, nodupQ, -, apart⟩ := sep
    have room := h.room
    simp only [List.length_cons] at room
    -- the old last entry is not free, so the rest of the free list keeps its links
    have away : ∀ l, np.msgidlast = some l → l ≠ i ∧ l ∉ f := by
      intro l e
      have := (h.last l e).1
      simp only [List.mem_cons, not_or] at this
      exact this
    have free' : Chain np'.next np'.msgidfree f := by
      rw [free, next]
      have kept := back.update none offF
      cases e : np.msgidlast with
      | none => exact kept
      | some l => exact kept.update _ (away l e).2
    have ends : np'.next i = none := by
      rw [next]
      cases e : np.msgidlast with
      | none => simp
      | some l => simp [Function.update_of_ne (away l e).1.symm]
    rw [run]
    rcases List.eq_nil_or_concat q with rfl | ⟨d, t, rfl⟩
    · -- an empty queue holds the new entry
      have empty : np.msgidqueue = none := h.queue
      refine ⟨[i], f, ?_, free', by simpa using h.distinct, by simp; omega, ?_⟩
      · rw [queue, if_pos empty]
        exact ⟨rfl, ends⟩
      · intro l e
        obtain rfl := Option.some.inj (last.symm.trans e)
        exact ⟨offF, fun _ => rfl⟩
    · simp only [List.concat_eq_append] at *
      have full : np.msgidqueue ≠ none := by
        rw [h.queue.head_eq]
        cases d <;> simp
      by_cases tail : np.msgidlast = some t
      · -- the old last entry is linked to the new one
        have once : t ∉ d := by
          simp only [List.nodup_append, List.mem_singleton] at nodupQ
          exact fun hl => nodupQ.2.2 t hl t rfl rfl
        refine ⟨d ++ [t] ++ [i], f, ?_, free', by simpa using h.distinct, by simp at room ⊢; omega, ?_⟩
        · rw [queue, if_neg full]
          refine seg_append.2 ⟨some i, ?_, rfl, ends⟩
          rw [next, tail]
          exact (h.queue.update none offQ).redirect once
        · intro l e
          obtain rfl := Option.some.inj (last.symm.trans e)
          exact ⟨offF, fun _ => by simp⟩
      · -- the entry is linked to one off the queue, or to none
        have off : ∀ l, np.msgidlast = some l → l ∉ d ++ [t] := by
          intro l e mem
          have ends := (h.last l e).2 mem
          rw [List.getLast?_concat] at ends
          exact tail (e.trans ends.symm)
        refine ⟨d ++ [t], f, ?_, free', ?_, by omega, ?_⟩
        · rw [queue, if_neg full, next]
          have kept := h.queue.update none offQ
          cases e : np.msgidlast with
          | none => exact kept
          | some l => exact kept.update _ (off l e)
        · exact h.distinct.sublist (List.Sublist.append_left (List.sublist_cons_self i f) _)
        · intro l e
          obtain rfl := Option.some.inj (last.symm.trans e)
          exact ⟨offF, fun mem => absurd mem offQ⟩

/-- Every confirmation comes to an end. -/
theorem mqDequeue_sound {maxwin : Nat} {np : CapilibNcci} (sound : np.Sound maxwin) (msgid : UInt16) :
    ∃ found np', mqDequeue maxwin np msgid = some (found, np') ∧ np'.Sound maxwin := by
  obtain ⟨q, f, h⟩ := sound
  have room := h.room
  by_cases known : msgid ∈ q.map np.ids
  · -- split the queue at the first entry with this id
    obtain ⟨a, b, split, first⟩ := List.eq_append_cons_of_mem known
    rw [List.map_eq_append_iff] at split
    obtain ⟨qa, qb, rfl, mapA, mapB⟩ := split
    obtain ⟨i, qb, rfl, found, rfl⟩ := List.map_eq_cons_iff.1 mapB
    have differ : ∀ j ∈ qa, np.ids j ≠ msgid := fun j hj e => first (mapA ▸ List.mem_map.2 ⟨j, hj, e⟩)
    have run := mqDequeue_found h.queue (show (qa ++ i :: qb).length ≤ maxwin by omega) differ found
    obtain ⟨queue, free, distinct, -, last, -, -⟩ := mqUnlink_chains h.queue h.free h.distinct
    refine ⟨true, _, run, qa ++ qb, i :: f, queue, free, distinct, ?_, ?_⟩
    · simp only [List.length_append, List.length_cons] at room ⊢
      omega
    · intro l e
      rw [last] at e
      split at e
      · cases e
      · rename_i other
        have ne : l ≠ i := fun same => other (same ▸ e)
        obtain ⟨offF, tail⟩ := h.last l e
        refine ⟨by simp [ne, offF], fun mem => ?_⟩
        -- the last entry of the queue is not the one taken out
        have ends := tail (by simp only [List.mem_append, List.mem_cons] at mem ⊢; tauto)
        rcases List.eq_nil_or_concat qb with rfl | ⟨d, t, rfl⟩
        · rw [List.getLast?_concat] at ends
          exact absurd (Option.some.inj ends).symm ne
        · rw [List.concat_eq_append, ← List.cons_append, ← List.append_assoc, List.getLast?_concat] at ends
          rw [List.concat_eq_append, ← List.append_assoc, List.getLast?_concat, ends]
  · have run := mqDequeue_absent h.queue (show q.length ≤ maxwin by omega) known
    exact ⟨false, np, run, q, f, h⟩

/-! ## One call -/

theorem mqEnqueue_isOf {applid : UInt16} {ncci : UInt32} {np : CapilibNcci} {msgid : UInt16}
    (own : CapilibNcci.isOf applid ncci np = true) :
    CapilibNcci.isOf applid ncci (mqEnqueue np msgid).2 = true := by
  cases front : np.msgidfree with
  | none =>
    have full : mqEnqueue np msgid = (false, np) := by simp [mqEnqueue, front]
    rw [full]
    exact own
  | some i =>
    obtain ⟨np', run, -, -, -, -, -, -, -, happlid, hncci⟩ := mqEnqueue_fields front msgid
    rw [run]
    simpa [CapilibNcci.isOf, happlid, hncci] using own

theorem mqUnlink_isOf {applid : UInt16} {ncci : UInt32} {np : CapilibNcci} (pp : Link) (i : Nat)
    (own : CapilibNcci.isOf applid ncci np = true) :
    CapilibNcci.isOf applid ncci (mqUnlink np pp i) = true := by
  obtain ⟨-, -, -, -, -, -, -, happlid, hncci⟩ := mqUnlink_fields np pp i
  simp only [CapilibNcci.isOf, happlid, hncci]
  cases pp with
  | queue => exact own
  | next j => exact own

theorem mqDequeueLoop_isOf {applid : UInt16} {ncci : UInt32} {np np' : CapilibNcci} {msgid : UInt16} {found : Bool}
    (own : CapilibNcci.isOf applid ncci np = true) {fuel : Nat} {pp : Link}
    (run : mqDequeueLoop np msgid fuel pp = some (found, np')) : CapilibNcci.isOf applid ncci np' = true := by
  induction fuel generalizing pp with
  | zero => cases run
  | succ fuel ih =>
    rw [mqDequeueLoop] at run
    split at run
    · cases run
      exact own
    · split at run
      · cases run
        exact mqUnlink_isOf _ _ own
      · exact ih run

section Calls

variable {maxwin : Nat} {applid : UInt16} {ncci : UInt32}

/-- The call changes the first record of the pair, in a way that keeps the pair
and is defined on a queue that can be walked, and answers from it. -/
def Call.Searches (maxwin : Nat) (c : Call) (applid : UInt16) (ncci : UInt32) : Prop :=
  ∃ f absent,
    (∀ np r nps, CapilibNcci.isOf applid ncci np = true → f np = some (r, nps) →
      ∀ np' ∈ nps, CapilibNcci.isOf applid ncci np' = true) ∧
    (∀ np, np.Sound maxwin → ∃ r nps, f np = some (r, nps) ∧ ∀ np' ∈ nps, np'.Sound maxwin) ∧
    ∀ head, Call.run maxwin head c = onFirst (CapilibNcci.isOf applid ncci) f absent head

theorem freeNcci_searches : (Call.freeNcci applid ncci).Searches maxwin applid ncci := by
  refine ⟨_, _, ?_, ?_, fun head => (capilibFreeNcci_eq applid ncci head).symm⟩
  · intro np r nps _ made np' mem
    cases made
    cases mem
  · intro np _
    exact ⟨_, [], rfl, by simp⟩

theorem dataB3Req_searches (msgid : UInt16) :
    (Call.dataB3Req applid ncci msgid).Searches maxwin applid ncci := by
  refine ⟨_, _, ?_, ?_, fun head => (capilibDataB3Req_eq applid ncci head msgid).symm⟩
  · intro np r nps own made np' mem
    cases made
    obtain rfl := List.mem_singleton.mp mem
    exact mqEnqueue_isOf own
  · intro np sound
    exact ⟨_, _, rfl, by simpa using mqEnqueue_sound sound msgid⟩

theorem dataB3Conf_searches (msgid : UInt16) :
    (Call.dataB3Conf applid ncci msgid).Searches maxwin applid ncci := by
  refine ⟨_, _, ?_, ?_, fun head => (capilibDataB3Conf_eq applid ncci maxwin head msgid).symm⟩
  · intro np r nps own made np' mem
    obtain ⟨done, run, made⟩ := Option.map_eq_some_iff.mp made
    cases made
    obtain rfl := List.mem_singleton.mp mem
    exact mqDequeueLoop_isOf own run
  · intro np sound
    obtain ⟨found, np', run, sound'⟩ := mqDequeue_sound sound msgid
    exact ⟨none, [np'], by rw [run]; rfl, by simpa using sound'⟩

/-- A search for the pair finds the same record in lists that agree on it. -/
theorem Call.Searches.own {c : Call} (h : c.Searches maxwin applid ncci) {head head' other : List CapilibNcci}
    (same : records applid ncci head = records applid ncci other) {r : Option DataB3Info}
    (run : Call.run maxwin head c = some (r, head')) :
    ∃ other', Call.run maxwin other c = some (r, other') ∧
      records applid ncci head' = records applid ncci other' := by
  obtain ⟨f, absent, keep, -, search⟩ := h
  rw [search] at run
  have projected := @filter_onFirst_own _ _ _ _ absent keep head
  rw [run, show head.filter _ = other.filter _ from same, filter_onFirst_own keep other] at projected
  obtain ⟨⟨r', other'⟩, run', done⟩ := Option.map_eq_some_iff.mp projected
  obtain ⟨rfl, kept⟩ := Prod.mk.inj done
  exact ⟨other', (search other).trans run', kept.symm⟩

/-- A search for another pair leaves the records of this one alone. -/
theorem Call.Searches.other {c : Call} {applid' : UInt16} {ncci' : UInt32} (h : c.Searches maxwin applid' ncci')
    (differ : ¬ (applid' = applid ∧ ncci' = ncci)) {head head' : List CapilibNcci} {r : Option DataB3Info}
    (run : Call.run maxwin head c = some (r, head')) :
    records applid ncci head' = records applid ncci head := by
  obtain ⟨f, absent, keep, -, search⟩ := h
  rw [search] at run
  apply filter_onFirst_other _ keep run
  intro np own
  simp only [CapilibNcci.isOf, decide_eq_true_eq, decide_eq_false_iff_not] at own ⊢
  rintro ⟨happlid, hncci⟩
  exact differ ⟨own.1.symm.trans happlid, own.2.symm.trans hncci⟩

/-- A search has a result when every queue can be walked. -/
theorem Call.Searches.total {c : Call} (h : c.Searches maxwin applid ncci) {head : List CapilibNcci}
    (sound : ∀ np ∈ head, np.Sound maxwin) :
    ∃ r head', Call.run maxwin head c = some (r, head') ∧ ∀ np ∈ head', np.Sound maxwin := by
  obtain ⟨f, absent, -, total, search⟩ := h
  rw [search]
  exact onFirst_forall total sound

/-- A new record joins the records of its own pair. -/
theorem newNcci_records (head : List CapilibNcci) (applid' : UInt16) (ncci' : UInt32) (winsize : Nat) :
    records applid ncci (capilibNewNcci maxwin true head applid' ncci' winsize) =
      records applid ncci head ++
        records applid ncci (capilibNewNcci maxwin true [] applid' ncci' winsize) := by
  simp only [capilibNewNcci, if_true, records, List.filter_append, List.nil_append]

/-- A release takes all records of the pairs of its application. -/
theorem releaseAppl_records (head : List CapilibNcci) (applid' : UInt16) :
    records applid ncci (capilibReleaseAppl head applid') =
      (records applid ncci head).filter (fun np => np.applid ≠ applid') := by
  rw [capilibReleaseAppl_eq, records, records, List.filter_filter, List.filter_filter]
  congr 1
  funext np
  exact Bool.and_comm _ _

/-- What a call does to the records of a pair depends on them alone, and only
the calls of the pair and the releases of its application do anything. -/
theorem unwinds : Unwinds (Call.run maxwin) (Call.concerns applid ncci) (records applid ncci) where
  ignored head c r head' foreign run := by
    cases c with
    | newNcci applid' ncci' winsize =>
      cases run
      rw [newNcci_records]
      have away : records applid ncci (capilibNewNcci maxwin true [] applid' ncci' winsize) = [] := by
        simpa [records, capilibNewNcci, CapilibNcci.isOf, Call.concerns] using foreign
      rw [away, List.append_nil]
    | freeNcci applid' ncci' => exact freeNcci_searches.other (of_decide_eq_false foreign) run
    | dataB3Req applid' ncci' msgid => exact (dataB3Req_searches msgid).other (of_decide_eq_false foreign) run
    | dataB3Conf applid' ncci' msgid => exact (dataB3Conf_searches msgid).other (of_decide_eq_false foreign) run
    | releaseAppl applid' =>
      cases run
      rw [releaseAppl_records]
      apply List.filter_eq_self.mpr
      intro np mem
      have own := (List.mem_filter.mp mem).2
      simp only [CapilibNcci.isOf, decide_eq_true_eq] at own
      have differ : applid' ≠ applid := of_decide_eq_false foreign
      simpa [own.1] using differ.symm
  alike head other c r head' own same run := by
    cases c with
    | newNcci applid' ncci' winsize =>
      cases run
      refine ⟨_, rfl, ?_⟩
      rw [newNcci_records, same, ← newNcci_records]
    | freeNcci applid' ncci' =>
      obtain ⟨rfl, rfl⟩ := of_decide_eq_true own
      exact freeNcci_searches.own same run
    | dataB3Req applid' ncci' msgid =>
      obtain ⟨rfl, rfl⟩ := of_decide_eq_true own
      exact (dataB3Req_searches msgid).own same run
    | dataB3Conf applid' ncci' msgid =>
      obtain ⟨rfl, rfl⟩ := of_decide_eq_true own
      exact (dataB3Conf_searches msgid).own same run
    | releaseAppl applid' =>
      cases run
      refine ⟨_, rfl, ?_⟩
      rw [releaseAppl_records, same, ← releaseAppl_records]

/-- Every call is defined on records whose queues can be walked, and leaves such
records. -/
theorem Call.run_sound (window : 1 ≤ maxwin) (head : List CapilibNcci) (c : Call)
    (sound : ∀ np ∈ head, np.Sound maxwin) :
    ∃ r head', Call.run maxwin head c = some (r, head') ∧ ∀ np ∈ head', np.Sound maxwin := by
  cases c with
  | newNcci applid ncci winsize =>
    refine ⟨none, _, rfl, ?_⟩
    intro np mem
    rw [capilibNewNcci, if_pos rfl] at mem
    rcases List.mem_append.mp mem with old | new
    · exact sound np old
    · obtain rfl := List.mem_singleton.mp new
      apply mqInit_sound window
      show (if winsize > maxwin then maxwin else winsize) ≤ maxwin
      split
      · omega
      · omega
  | freeNcci applid ncci => exact freeNcci_searches.total sound
  | dataB3Req applid ncci msgid => exact (dataB3Req_searches msgid).total sound
  | dataB3Conf applid ncci msgid => exact (dataB3Conf_searches msgid).total sound
  | releaseAppl applid =>
    refine ⟨none, _, rfl, ?_⟩
    rw [capilibReleaseAppl_eq]
    intro np mem
    exact sound np (List.mem_filter.mp mem).1

/-- Connections are independent. Whatever a run of calls does, the calls for a
pair and the releases of its application give the same results when they are
made alone, and leave the records of the pair the same. A run has a result on
every list whose queues can be walked, the empty one to begin with, and leaves
such a list. A release takes the records of its application and no other. -/
theorem connections_independent (window : 1 ≤ maxwin) (head : List CapilibNcci) (calls : List Call)
    (applid : UInt16) (ncci : UInt32) :
    (∀ rs after, results (Call.run maxwin) head calls = some (rs, after) →
      ∃ alone, results (Call.run maxwin) head (calls.filter (Call.concerns applid ncci)) =
          some (rs.filter (fun r => r.1.concerns applid ncci), alone) ∧
        records applid ncci after = records applid ncci alone) ∧
    ((∀ np ∈ head, np.Sound maxwin) →
      ∃ rs after, results (Call.run maxwin) head calls = some (rs, after) ∧ ∀ np ∈ after, np.Sound maxwin) ∧
    capilibReleaseAppl head applid = head.filter (fun np => np.applid ≠ applid) := by
  refine ⟨?_, ?_, capilibReleaseAppl_eq applid head⟩
  · intro rs after run
    exact unwinds.project rfl run
  · intro sound
    exact results_of_inv (I := fun head => ∀ np ∈ head, np.Sound maxwin)
      (fun head c good => Call.run_sound window head c good) sound calls

/-- Two connections, one of them added twice, in turns. -/
theorem connections_independent_turns :
    ∃ rs after, results (Call.run 8) []
        [.newNcci 1 0x101 1, .newNcci 2 0x201 2, .newNcci 1 0x101 2, .dataB3Req 2 0x201 7, .dataB3Req 1 0x101 7,
          .dataB3Req 1 0x101 8, .releaseAppl 2, .dataB3Conf 1 0x101 7] = some (rs, after) ∧
      ∃ alone, results (Call.run 8) []
          [.newNcci 1 0x101 1, .newNcci 1 0x101 2, .dataB3Req 1 0x101 7, .dataB3Req 1 0x101 8, .dataB3Conf 1 0x101 7] =
          some (rs.filter (fun r => r.1.concerns 1 0x101), alone) ∧
        records 1 0x101 after = records 1 0x101 alone := by
  obtain ⟨project, defined, -⟩ := connections_independent (show (1 : Nat) ≤ 8 by decide) []
    [.newNcci 1 0x101 1, .newNcci 2 0x201 2, .newNcci 1 0x101 2, .dataB3Req 2 0x201 7, .dataB3Req 1 0x101 7,
      .dataB3Req 1 0x101 8, .releaseAppl 2, .dataB3Conf 1 0x101 7] 1 0x101
  obtain ⟨rs, after, run, -⟩ := defined (by simp)
  exact ⟨rs, after, run, project rs after run⟩

end Calls

end Capi4Linux.Capilib
