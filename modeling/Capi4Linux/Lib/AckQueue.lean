import Mathlib.Data.List.Nodup

/-!
# Queues of unconfirmed blocks

Blocks are sent under a handle and confirmed by it. The sender keeps an entry
for every block that is not confirmed; a confirmation takes the first entry of
its handle. What a confirmation is answered with depends on the history alone:
it is the first one for the last block sent under its handle, or there is
nothing to answer.
-/

namespace AckQueue

variable {κ α β : Type*} [DecidableEq κ]

/-- A block is sent under a handle, or a handle is confirmed. -/
inductive Event (κ α : Type*) where
  | sent (k : κ) (a : α)
  | confirmed (k : κ)

/-- The block that waits for a confirmation of `k`: the last one sent under it, unless `k` was confirmed since. The
latest event is the first of the list. -/
def waiting (k : κ) : List (Event κ α) → Option α
  | [] => none
  | .sent k' a :: es => if k' = k then some a else waiting k es
  | .confirmed k' :: es => if k' = k then none else waiting k es

/-- The queue after a confirmation. -/
def confirm (k : κ) (queue : List (κ × β)) : List (κ × β) := queue.eraseP fun e => e.1 = k

/-- The first entry of a handle. -/
def entry (k : κ) (queue : List (κ × β)) : Option (κ × β) := queue.find? fun e => e.1 = k

/-- The queue has one entry for every block that waits. -/
structure Records (f : α → β) (queue : List (κ × β)) (es : List (Event κ α)) : Prop where
  distinct : (queue.map Prod.fst).Nodup
  entries : ∀ k, entry k queue = (waiting k es).map fun a => (k, f a)

variable {f : α → β} {queue : List (κ × β)} {es : List (Event κ α)} {k : κ}

theorem entry_none_iff : entry k queue = none ↔ ∀ e ∈ queue, e.1 ≠ k := by
  simp [entry]

theorem confirm_of_none (none : entry k queue = none) : confirm k queue = queue := by
  apply List.eraseP_of_forall_not
  simpa using entry_none_iff.mp none

/-- A confirmation leaves no entry of its handle. -/
theorem confirm_gone (distinct : (queue.map Prod.fst).Nodup) : ∀ e ∈ confirm k queue, e.1 ≠ k := by
  induction queue with
  | nil => exact nofun
  | cons a queue ih =>
    obtain ⟨out, distinct⟩ := List.nodup_cons.mp distinct
    intro e member same
    by_cases first : a.1 = k
    · rw [confirm, List.eraseP_cons_of_pos (by simpa using first)] at member
      apply out
      rw [first, ← same]
      exact List.mem_map_of_mem member
    · rw [confirm, List.eraseP_cons_of_neg (by simpa using first)] at member
      rcases List.mem_cons.mp member with rfl | member
      · exact first same
      · exact ih distinct e member same

/-- The other entries stay. -/
theorem entry_confirm {k' : κ} (other : k ≠ k') : entry k' (confirm k queue) = entry k' queue := by
  induction queue with
  | nil => rfl
  | cons a queue ih =>
    by_cases first : a.1 = k
    · have differ : a.1 ≠ k' := fun same => other (first.symm.trans same)
      rw [confirm, List.eraseP_cons_of_pos (by simpa using first), entry, entry,
        List.find?_cons_of_neg (by simpa using differ)]
    · rw [confirm, List.eraseP_cons_of_neg (by simpa using first)]
      by_cases here : a.1 = k'
      · rw [entry, entry, List.find?_cons_of_pos (by simpa using here), List.find?_cons_of_pos (by simpa using here)]
      · rw [entry, entry, List.find?_cons_of_neg (by simpa using here), List.find?_cons_of_neg (by simpa using here)]
        exact ih

namespace Records

theorem nil : Records f ([] : List (κ × β)) ([] : List (Event κ α)) :=
  ⟨List.nodup_nil, fun _ => rfl⟩

/-- A handle without a waiting block is not in the queue. -/
theorem fresh (records : Records f queue es) (none : waiting k es = none) : ∀ e ∈ queue, e.1 ≠ k := by
  apply entry_none_iff.mp
  rw [records.entries, none]
  rfl

theorem sent (records : Records f queue es) (none : waiting k es = none) (a : α) :
    Records f (queue ++ [(k, f a)]) (.sent k a :: es) := by
  have fresh := records.fresh none
  constructor
  · rw [List.map_append, List.nodup_append]
    refine ⟨records.distinct, List.nodup_singleton _, ?_⟩
    intro k' member k'' last
    obtain ⟨e, old, rfl⟩ := List.mem_map.mp member
    rw [List.map_singleton, List.mem_singleton] at last
    rw [last]
    exact fresh e old
  · intro k'
    rw [entry, List.find?_append]
    show (entry k' queue).or _ = _
    rw [records.entries, waiting]
    by_cases same : k = k'
    · subst same
      rw [none]
      simp
    · rw [if_neg same]
      cases waiting k' es with
      | none => simp [same]
      | some b => rfl

theorem confirmed (records : Records f queue es) (k : κ) : Records f (confirm k queue) (.confirmed k :: es) := by
  constructor
  · exact records.distinct.sublist (List.eraseP_sublist.map Prod.fst)
  · intro k'
    rw [waiting]
    by_cases same : k = k'
    · subst same
      rw [if_pos rfl]
      exact entry_none_iff.mpr (confirm_gone records.distinct)
    · rw [if_neg same, ← records.entries]
      exact entry_confirm same

end Records

end AckQueue
