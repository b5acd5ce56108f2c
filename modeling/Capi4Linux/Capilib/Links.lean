import Capi4Linux.Capilib.Queue
import Capi4Linux.Lib.Pool

/-!
# The links of a message id queue

What `mq_init`, `mq_enqueue` and `mq_dequeue` do to the two lists that share
the pool. `Linked np q f gone` describes a queue holding the entries `q` and a
free list holding `f`; `gone` says that `msgidlast` was reset while entries
remained, which is what `mq_dequeue` leaves behind when it takes the last one.
-/

namespace Capi4Linux.Capilib
open Pool

namespace CapilibNcci

/-- The ids in the pool. -/
def ids (np : CapilibNcci) (i : Nat) : UInt16 := (np.msgidpool i).msgid

@[simp] theorem next_setNext (np : CapilibNcci) (i : Nat) (v : Option Nat) :
    (np.setNext i v).next = Function.update np.next i v := by
  funext j
  by_cases h : j = i <;> simp [next, setNext, Function.update, h]

@[simp] theorem ids_setNext (np : CapilibNcci) (i : Nat) (v : Option Nat) : (np.setNext i v).ids = np.ids := by
  funext j
  by_cases h : j = i <;> simp [ids, setNext, Function.update, h]

@[simp] theorem next_setMsgid (np : CapilibNcci) (i : Nat) (v : UInt16) : (np.setMsgid i v).next = np.next := by
  funext j
  by_cases h : j = i <;> simp [next, setMsgid, Function.update, h]

@[simp] theorem ids_setMsgid (np : CapilibNcci) (i : Nat) (v : UInt16) :
    (np.setMsgid i v).ids = Function.update np.ids i v := by
  funext j
  by_cases h : j = i <;> simp [ids, setMsgid, Function.update, h]

end CapilibNcci

/-- The shape of the two lists of an NCCI. -/
structure Linked (np : CapilibNcci) (q f : List Nat) (gone : Bool) : Prop where
  queue : Chain np.next np.msgidqueue q
  free : Chain np.next np.msgidfree f
  distinct : (q ++ f).Nodup
  size : q.length + f.length = np.winsize
  count : np.nmsg = q.length
  last : np.msgidlast = if gone then none else q.getLast?

/-- A queue is no longer than its window. -/
theorem Linked.fits {np : CapilibNcci} {q f : List Nat} {gone : Bool} {maxwin : Nat} (h : Linked np q f gone)
    (room : np.winsize ≤ maxwin) : q.length ≤ maxwin := by
  have size := h.size
  omega

/-! ## `mq_init` -/

theorem mqInitLoop_frame (n : Nat) : ∀ (i : Nat) (np : CapilibNcci), let np' := mqInitLoop n i np
    np'.msgidqueue = np.msgidqueue ∧ np'.msgidlast = np.msgidlast ∧ np'.nmsg = np.nmsg ∧
      np'.winsize = np.winsize ∧ np'.applid = np.applid ∧ np'.ncci = np.ncci := by
  induction n with
  | zero => intro i np; exact ⟨rfl, rfl, rfl, rfl, rfl, rfl⟩
  | succ n ih => intro i np; exact ih (i + 1) _

/-- The loop stacks the entries `i, …, i + n - 1` on the free list. -/
theorem mqInitLoop_free (n : Nat) : ∀ (i : Nat) (np : CapilibNcci) (f : List Nat),
    Chain np.next np.msgidfree f → (∀ j ∈ f, j < i) →
    Chain (mqInitLoop n i np).next (mqInitLoop n i np).msgidfree ((List.range' i n).reverse ++ f) := by
  induction n with
  | zero => intro i np f h _; simpa [mqInitLoop] using h
  | succ n ih =>
    intro i np f h low
    have off : i ∉ f := fun hi => Nat.lt_irrefl i (low i hi)
    have step := ih (i + 1) { np.setNext i np.msgidfree with msgidfree := some i } (i :: f) ?_ ?_
    · simpa only [mqInitLoop, List.range'_succ, List.reverse_cons, List.append_assoc, List.cons_append,
        List.nil_append] using step
    · refine ⟨rfl, ?_⟩
      change Seg (np.setNext i np.msgidfree).next ((np.setNext i np.msgidfree).next i) f none
      rw [CapilibNcci.next_setNext, Function.update_self]
      exact h.update _ off
    · intro j hj
      rcases List.mem_cons.1 hj with rfl | hj
      · omega
      · have := low j hj; omega

/-- A fresh queue is empty and has all its entries free. -/
theorem mqInit_linked (np : CapilibNcci) (h : 0 < np.winsize) :
    Linked (mqInit np) [] (List.range np.winsize).reverse false := by
  have range : List.range np.winsize = 0 :: List.range' 1 (np.winsize - 1) := by
    obtain ⟨n, hn⟩ := Nat.exists_eq_add_of_lt h
    rw [List.range_eq_range', show np.winsize = n + 1 by omega, List.range'_succ]
    simp
  obtain ⟨queue, last, count, size, -, -⟩ := mqInitLoop_frame (np.winsize - 1) 1
    { np with msgidqueue := none, msgidlast := none, nmsg := 0, msgidpool := fun _ => ⟨none, 0⟩,
              msgidfree := some 0 }
  refine ⟨queue, ?_, ?_, ?_, ?_, ?_⟩
  · rw [range, List.reverse_cons]
    exact mqInitLoop_free _ 1 _ [0] ⟨rfl, rfl⟩ (by simp)
  · rw [List.nil_append]
    exact (List.reverse_perm _).nodup_iff.2 List.nodup_range
  · simpa [mqInit] using size.symm
  · simpa [mqInit] using count
  · simpa [mqInit] using last

/-- Without a window there is one free entry all the same. -/
theorem mqInit_free_zero (np : CapilibNcci) (h : np.winsize = 0) :
    Chain (mqInit np).next (mqInit np).msgidfree [0] := by
  simp only [mqInit, h, Nat.zero_sub]
  exact ⟨rfl, rfl⟩

@[simp] theorem mqInit_winsize (np : CapilibNcci) : (mqInit np).winsize = np.winsize :=
  (mqInitLoop_frame _ _ _).2.2.2.1

@[simp] theorem mqInit_applid (np : CapilibNcci) : (mqInit np).applid = np.applid :=
  (mqInitLoop_frame _ _ _).2.2.2.2.1

@[simp] theorem mqInit_ncci (np : CapilibNcci) : (mqInit np).ncci = np.ncci :=
  (mqInitLoop_frame _ _ _).2.2.2.2.2

/-! ## `mq_enqueue` -/

theorem mqEnqueue_full {np : CapilibNcci} {q : List Nat} {gone : Bool} (h : Linked np q [] gone)
    (msgid : UInt16) : mqEnqueue np msgid = (false, np) := by
  have none : np.msgidfree = none := h.free
  simp [mqEnqueue, none]

/-- The fields that the links of a queue do not touch. -/
def CapilibNcci.Same (np np' : CapilibNcci) : Prop :=
  np'.winsize = np.winsize ∧ np'.applid = np.applid ∧ np'.ncci = np.ncci

theorem mqLinkLast_fields (np : CapilibNcci) (mq : Nat) : let np' := mqLinkLast np mq
    np'.next = (match np.msgidlast with
      | some l => Function.update np.next l (some mq)
      | none => np.next) ∧
    np'.ids = np.ids ∧ np'.msgidqueue = np.msgidqueue ∧ np'.msgidlast = some mq ∧
    np'.msgidfree = np.msgidfree ∧ np'.nmsg = np.nmsg ∧ np.Same np' := by
  unfold mqLinkLast
  cases np.msgidlast with
  | none => exact ⟨rfl, rfl, rfl, rfl, rfl, rfl, rfl, rfl, rfl⟩
  | some l =>
    exact ⟨CapilibNcci.next_setNext _ _ _, CapilibNcci.ids_setNext _ _ _, rfl, rfl, rfl, rfl, rfl, rfl, rfl⟩

theorem mqLinkFirst_fields (np : CapilibNcci) (mq : Nat) : let np' := mqLinkFirst np mq
    np'.next = np.next ∧ np'.ids = np.ids ∧
    np'.msgidqueue = (if np.msgidqueue = none then some mq else np.msgidqueue) ∧
    np'.msgidlast = np.msgidlast ∧ np'.msgidfree = np.msgidfree ∧ np'.nmsg = np.nmsg ∧ np.Same np' := by
  unfold mqLinkFirst
  split
  · exact ⟨rfl, rfl, rfl, rfl, rfl, rfl, rfl, rfl, rfl⟩
  · exact ⟨rfl, rfl, rfl, rfl, rfl, rfl, rfl, rfl, rfl⟩

/-- What an accepted `mq_enqueue` writes. -/
theorem mqEnqueue_fields {np : CapilibNcci} {i : Nat} (h : np.msgidfree = some i) (msgid : UInt16) :
    ∃ np', mqEnqueue np msgid = (true, np') ∧
      np'.next = (match np.msgidlast with
        | some l => Function.update (Function.update np.next i none) l (some i)
        | none => Function.update np.next i none) ∧
      np'.ids = Function.update np.ids i msgid ∧
      np'.msgidqueue = (if np.msgidqueue = none then some i else np.msgidqueue) ∧
      np'.msgidlast = some i ∧ np'.msgidfree = np.next i ∧ np'.nmsg = np.nmsg + 1 ∧ np.Same np' := by
  let n2 := ({ np with msgidfree := np.next i }.setMsgid i msgid).setNext i none
  have next2 : n2.next = Function.update np.next i none := by
    rw [CapilibNcci.next_setNext, CapilibNcci.next_setMsgid]; rfl
  have ids2 : n2.ids = Function.update np.ids i msgid := by
    rw [CapilibNcci.ids_setNext, CapilibNcci.ids_setMsgid]; rfl
  obtain ⟨next3, ids3, queue3, last3, free3, count3, same3⟩ := mqLinkLast_fields n2 i
  obtain ⟨next4, ids4, queue4, last4, free4, count4, same4⟩ := mqLinkFirst_fields (mqLinkLast n2 i) i
  refine ⟨{ mqLinkFirst (mqLinkLast n2 i) i with nmsg := (mqLinkFirst (mqLinkLast n2 i) i).nmsg + 1 },
    by simp only [mqEnqueue, h]; rfl, ?_, ?_, ?_, ?_, ?_, ?_, ?_⟩
  · exact (next4.trans next3).trans (by rw [next2]; rfl)
  · exact (ids4.trans ids3).trans ids2
  · exact queue4.trans (by rw [queue3]; rfl)
  · exact last4.trans last3
  · exact free4.trans free3
  · exact congrArg (· + 1) (count4.trans count3)
  · exact ⟨same4.1.trans same3.1, same4.2.1.trans same3.2.1, same4.2.2.trans same3.2.2⟩

/-- With the tail in place the first free entry joins the end of the queue. -/
theorem mqEnqueue_linked {np : CapilibNcci} {q f : List Nat} {i : Nat} (h : Linked np q (i :: f) false)
    (msgid : UInt16) :
    ∃ np', mqEnqueue np msgid = (true, np') ∧ Linked np' (q ++ [i]) f false ∧
      (q ++ [i]).map np'.ids = q.map np.ids ++ [msgid] ∧ np.Same np' := by
  obtain ⟨front, back⟩ := h.free
  obtain ⟨np', run, next, ids, queue, last, free, count, same⟩ := mqEnqueue_fields front msgid
  have sep : i ∉ q ∧ i ∉ f ∧ q.Nodup ∧ f.Nodup ∧ (∀ j ∈ q, j ∉ f) := by
    have := h.distinct
    simp only [List.nodup_append, List.nodup_cons, List.mem_cons] at this
    grind
  obtain ⟨offQ, offF, nodupQ, nodupF, apart⟩ := sep
  have size := h.size
  have tail := h.last
  simp only [Bool.false_eq_true, if_false] at tail
  refine ⟨np', run, ⟨?_, ?_, by simpa using h.distinct, ?_, ?_, ?_⟩, ?_, same⟩
  · rcases List.eq_nil_or_concat q with rfl | ⟨d, l, rfl⟩
    · -- an empty queue: the entry becomes its head as well
      have empty : np.msgidqueue = none := h.queue
      rw [queue, if_pos empty, next, tail]
      simp
    · -- the old last entry is linked to the new one
      simp only [List.concat_eq_append] at *
      have full : np.msgidqueue ≠ none := by
        have := h.queue.head_eq
        rw [this]; cases d <;> simp
      rw [queue, if_neg full, next, tail]
      simp only [List.getLast?_append, List.getLast?_singleton, Option.some_or]
      have once : l ∉ d := by
        have := nodupQ; simp only [List.nodup_append, List.mem_singleton] at this
        intro hl; exact this.2.2 l hl l rfl rfl
      have moved := ((h.queue.update none offQ).redirect (r := some i) once)
      refine seg_append.2 ⟨_, moved, ?_⟩
      have ne : i ≠ l := fun e => offQ (by simp [e])
      simp [Function.update_of_ne ne]
  · rw [free, next]
    have kept := back.update none offF
    rw [tail]
    cases e : q.getLast? with
    | none => exact kept
    | some l => exact kept.update _ (apart l (List.mem_of_getLast? e))
  · rw [same.1, ← size]; simp; omega
  · rw [count, h.count]; simp
  · rw [last]; simp
  · have kept : q.map (Function.update np.ids i msgid) = q.map np.ids :=
      List.map_congr_left fun j hj => Function.update_of_ne (fun e : j = i => offQ (e ▸ hj)) _ _
    rw [ids, List.map_append, kept]; simp

/-- Once the tail is gone, an accepted message is not reachable from the queue. -/
theorem mqEnqueue_lost {np : CapilibNcci} {q f : List Nat} {i : Nat} (h : Linked np q (i :: f) true)
    (left : q ≠ []) (msgid : UInt16) :
    ∃ np', mqEnqueue np msgid = (true, np') ∧ Chain np'.next np'.msgidqueue q ∧ np'.nmsg = q.length + 1 := by
  obtain ⟨front, back⟩ := h.free
  obtain ⟨np', run, next, ids, queue, last, free, count, same⟩ := mqEnqueue_fields front msgid
  have offQ : i ∉ q := by
    have := h.distinct
    simp only [List.nodup_append, List.nodup_cons, List.mem_cons] at this
    grind
  have tail : np.msgidlast = none := by simpa using h.last
  have full : np.msgidqueue ≠ none := by
    rw [h.queue.head_eq]; cases q <;> simp_all
  refine ⟨np', run, ?_, by rw [count, h.count]⟩
  rw [queue, if_neg full, next, tail]
  exact h.queue.update none offQ

/-! ## `mq_dequeue` -/

/-- The link that leads past the entries `done`. -/
def linkAfter (done : List Nat) : Link :=
  match done.getLast? with
  | none => .queue
  | some l => .next l

theorem linkAfter_load {np : CapilibNcci} {done : List Nat} {r : Option Nat}
    (h : Seg np.next np.msgidqueue done r) : np.load (linkAfter done) = r := by
  rcases List.eq_nil_or_concat done with rfl | ⟨d, l, rfl⟩
  · exact h
  · simp only [List.concat_eq_append] at *
    obtain ⟨m, -, back⟩ := seg_append.1 h
    simpa [linkAfter, CapilibNcci.load] using back.2

/-- Writing through that link changes what follows `done` and nothing else. -/
theorem linkAfter_store {np : CapilibNcci} {done : List Nat} {r : Option Nat} (v : Option Nat)
    (h : Seg np.next np.msgidqueue done r) (nodup : done.Nodup) :
    let np' := np.store v (linkAfter done)
    Seg np'.next np'.msgidqueue done v ∧ (∀ j ∉ done, np'.next j = np.next j) ∧ np'.ids = np.ids ∧
      np'.msgidfree = np.msgidfree ∧ np'.msgidlast = np.msgidlast ∧ np'.nmsg = np.nmsg ∧ np.Same np' := by
  rcases List.eq_nil_or_concat done with rfl | ⟨d, l, rfl⟩
  · exact ⟨rfl, fun _ _ => rfl, rfl, rfl, rfl, rfl, rfl, rfl, rfl⟩
  · simp only [List.concat_eq_append] at *
    have once : l ∉ d := by
      simp only [List.nodup_append, List.mem_singleton] at nodup
      intro hl; exact nodup.2.2 l hl l rfl rfl
    have link : linkAfter (d ++ [l]) = .next l := by simp [linkAfter]
    rw [link]
    refine ⟨?_, ?_, CapilibNcci.ids_setNext _ _ _, rfl, rfl, rfl, rfl, rfl, rfl⟩
    · simp only [CapilibNcci.store, CapilibNcci.next_setNext]
      exact h.redirect once
    · intro j hj
      have ne : j ≠ l := fun e => hj (by simp [e])
      simp [CapilibNcci.store, Function.update_of_ne ne]

theorem mqResetLast_eq (np : CapilibNcci) (mq : Nat) :
    mqResetLast np mq = { np with msgidlast := if np.msgidlast = some mq then none else np.msgidlast } := by
  unfold mqResetLast
  split
  · rfl
  · rfl

/-- What unlinking the entry `i` writes, besides the link to it. -/
theorem mqUnlink_fields (np : CapilibNcci) (pp : Link) (i : Nat) :
    let np' := np.store (np.next i) pp
    let np'' := mqUnlink np pp i
    np''.next = Function.update np'.next i np'.msgidfree ∧ np''.ids = np'.ids ∧
      np''.msgidqueue = np'.msgidqueue ∧
      np''.msgidlast = (if np'.msgidlast = some i then none else np'.msgidlast) ∧
      np''.msgidfree = some i ∧ np''.nmsg = np'.nmsg - 1 ∧ np'.Same np'' := by
  have unlink : mqUnlink np pp i = (fun np => { np.setNext i np.msgidfree with
      msgidfree := some i, nmsg := np.nmsg - 1 }) (mqResetLast (np.store (np.next i) pp) i) := rfl
  rw [unlink, mqResetLast_eq]
  exact ⟨CapilibNcci.next_setNext _ _ _, CapilibNcci.ids_setNext _ _ _, rfl, rfl, rfl, rfl, rfl, rfl, rfl⟩

/-- The loop passes over the entries of `done` and `skip`, whose ids differ. -/
theorem mqDequeueLoop_skip {np : CapilibNcci} {msgid : UInt16} (skip : List Nat) :
    ∀ (fuel : Nat) (done : List Nat) (r : Option Nat), Seg np.next np.msgidqueue (done ++ skip) r →
      (∀ j ∈ skip, np.ids j ≠ msgid) →
      mqDequeueLoop np msgid (skip.length + fuel) (linkAfter done) =
        mqDequeueLoop np msgid fuel (linkAfter (done ++ skip)) := by
  induction skip with
  | nil => intro fuel done r _ _; simp
  | cons j skip ih =>
    intro fuel done r h differ
    obtain ⟨m, front, back⟩ := seg_append.1 h
    have load : np.load (linkAfter done) = some j := (linkAfter_load front).trans back.1
    have ne : (np.msgidpool j).msgid ≠ msgid := differ j (by simp)
    have rest := ih fuel (done ++ [j]) r (by simpa using h) fun k hk => differ k (by simp [hk])
    rw [List.append_assoc] at rest
    rw [List.length_cons, Nat.add_right_comm, mqDequeueLoop, load]
    simp only [ne, if_false]
    simpa [linkAfter] using rest

/-- A confirmation of an id that is not queued changes nothing. -/
theorem mqDequeue_absent {np : CapilibNcci} {q : List Nat} {maxwin : Nat}
    (queue : Chain np.next np.msgidqueue q) (room : q.length ≤ maxwin) {msgid : UInt16}
    (absent : msgid ∉ q.map np.ids) : mqDequeue maxwin np msgid = some (false, np) := by
  have differ : ∀ j ∈ q, np.ids j ≠ msgid := fun j hj e => absent (List.mem_map.2 ⟨j, hj, e⟩)
  have fuel : maxwin + 1 = q.length + (maxwin - q.length + 1) := by omega
  have skip := mqDequeueLoop_skip q (maxwin - q.length + 1) [] none queue differ
  rw [List.nil_append, ← fuel] at skip
  rw [mqDequeue]
  change mqDequeueLoop np msgid (maxwin + 1) (linkAfter []) = _
  rw [skip, mqDequeueLoop, linkAfter_load queue]

/-- Unlinking the entry behind `a` takes it out of the queue and puts it before
the free entries. -/
theorem mqUnlink_chains {np : CapilibNcci} {a b f : List Nat} {i : Nat}
    (queue : Chain np.next np.msgidqueue (a ++ i :: b)) (free : Chain np.next np.msgidfree f)
    (distinct : ((a ++ i :: b) ++ f).Nodup) : let np' := mqUnlink np (linkAfter a) i
    Chain np'.next np'.msgidqueue (a ++ b) ∧ Chain np'.next np'.msgidfree (i :: f) ∧ ((a ++ b) ++ i :: f).Nodup ∧
      np'.ids = np.ids ∧ np'.msgidlast = (if np.msgidlast = some i then none else np.msgidlast) ∧
      np'.nmsg = np.nmsg - 1 ∧ np.Same np' := by
  obtain ⟨m, front, rfl, back⟩ := seg_append.1 queue
  have sep : a.Nodup ∧ i ∉ a ∧ i ∉ b ∧ i ∉ f ∧ (∀ j ∈ a, j ∉ b) ∧ (∀ j ∈ a, j ∉ f) := by
    have := distinct
    simp only [List.nodup_append, List.nodup_cons, List.mem_cons, List.mem_append] at this
    grind
  obtain ⟨nodupA, offA, offB, offF, apartAB, apartAF⟩ := sep
  obtain ⟨seg, off, ids, kept, last, count, same⟩ := linkAfter_store (np.next i) front nodupA
  obtain ⟨next', ids', queue', last', free', count', same'⟩ := mqUnlink_fields np (linkAfter a) i
  generalize np.store (np.next i) (linkAfter a) = np1 at *
  generalize mqUnlink np (linkAfter a) i = np2 at *
  refine ⟨?_, ?_, ?_, ids'.trans ids, ?_, ?_,
    same'.1.trans same.1, same'.2.1.trans same.2.1, same'.2.2.trans same.2.2⟩
  · rw [queue', next']
    have rest : Seg np1.next (np.next i) b none := back.frame fun j hj => off j fun ha => apartAB j ha hj
    exact (seg_append.2 ⟨_, seg, rest⟩).update _ (by simp [offA, offB])
  · refine ⟨free', ?_⟩
    rw [next', Function.update_self, kept]
    exact (free.frame fun j hj => off j fun ha => apartAF j ha hj).update _ offF
  · have perm : List.Perm ((a ++ i :: b) ++ f) ((a ++ b) ++ i :: f) := by
      simp only [List.append_assoc, List.cons_append]
      exact List.perm_middle.symm.append_left a
    exact perm.nodup_iff.1 distinct
  · rw [last', last]
  · rw [count', count]

/-- When the unlinked entry was the last of the queue, `msgidlast` is reset. -/
theorem mqUnlink_linked {np : CapilibNcci} {a b f : List Nat} {i : Nat} {gone : Bool}
    (h : Linked np (a ++ i :: b) f gone) :
    Linked (mqUnlink np (linkAfter a) i) (a ++ b) (i :: f)
        (if a ++ b = [] then false else gone || b.isEmpty) ∧
      (mqUnlink np (linkAfter a) i).ids = np.ids ∧ np.Same (mqUnlink np (linkAfter a) i) := by
  obtain ⟨queue, free, distinct, ids, last, count, same⟩ := mqUnlink_chains h.queue h.free h.distinct
  have offB : i ∉ b := by
    have := h.distinct
    simp only [List.nodup_append, List.nodup_cons] at this
    grind
  have size := h.size
  simp only [List.length_append, List.length_cons] at size
  refine ⟨⟨queue, free, distinct, ?_, ?_, ?_⟩, ids, same⟩
  · rw [same.1, ← size]; simp; omega
  · rw [count, h.count]; simp; omega
  · rw [last, h.last]
    -- the reset happens exactly when nothing follows the entry
    rcases List.eq_nil_or_concat b with rfl | ⟨d, l, rfl⟩
    · have tail : (a ++ [i]).getLast? = some i := by simp
      cases gone with
      | false => cases a <;> simp_all
      | true => cases a <;> simp
    · have ne : l ≠ i := fun e => offB (by simp [e])
      have tail : (a ++ i :: d.concat l).getLast? = some l := by
        rw [List.concat_eq_append, ← List.cons_append, ← List.append_assoc, List.getLast?_concat]
      have tail' : (a ++ d.concat l).getLast? = some l := by
        rw [List.concat_eq_append, ← List.append_assoc, List.getLast?_concat]
      cases gone with
      | false => rw [tail, tail']; simp [ne]
      | true => simp

/-- A confirmation of a queued id unlinks the first entry that carries it. -/
theorem mqDequeue_found {np : CapilibNcci} {a b : List Nat} {i : Nat} {maxwin : Nat}
    (queue : Chain np.next np.msgidqueue (a ++ i :: b)) (room : (a ++ i :: b).length ≤ maxwin) {msgid : UInt16}
    (first : ∀ j ∈ a, np.ids j ≠ msgid) (found : np.ids i = msgid) :
    mqDequeue maxwin np msgid = some (true, mqUnlink np (linkAfter a) i) := by
  obtain ⟨m, front, rfl, back⟩ := seg_append.1 queue
  simp only [List.length_append, List.length_cons] at room
  have fuel : maxwin + 1 = a.length + (maxwin - a.length + 1) := by omega
  have skip := mqDequeueLoop_skip a (maxwin - a.length + 1) [] (some i) front first
  rw [List.nil_append, ← fuel] at skip
  rw [mqDequeue]
  change mqDequeueLoop np msgid (maxwin + 1) (linkAfter []) = _
  rw [skip, mqDequeueLoop, linkAfter_load front]
  simp only [show (np.msgidpool i).msgid = msgid from found, if_true]

end Capi4Linux.Capilib
