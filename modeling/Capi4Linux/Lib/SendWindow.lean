import Mathlib.Data.List.Basic

/-!
# Send windows

A sender may have at most `cap` unconfirmed messages. `pending` are their ids
in the order of sending; an id may occur more than once. Confirmations come in
any order and take the oldest message with that id.
-/

/-- The unconfirmed messages of a sender, never more than the window. -/
structure SendWindow (α : Type*) where
  cap : Nat
  pending : List α
  bounded : pending.length ≤ cap

namespace SendWindow

variable {α : Type*}

/-- A window with nothing sent. -/
def empty (cap : Nat) : SendWindow α := ⟨cap, [], Nat.zero_le cap⟩

/-- Free slots. -/
def free (w : SendWindow α) : Nat := w.cap - w.pending.length

/-- Another message may be sent. -/
def Open (w : SendWindow α) : Prop := w.pending.length < w.cap

instance (w : SendWindow α) : Decidable w.Open := Nat.decLt w.pending.length w.cap

/-- Send `a`; a full window refuses it. -/
def req (w : SendWindow α) (a : α) : SendWindow α :=
  if h : w.Open then ⟨w.cap, w.pending ++ [a], by rw [List.length_append, List.length_singleton]; exact h⟩ else w

@[simp] theorem req_cap (w : SendWindow α) (a : α) : (w.req a).cap = w.cap := by
  unfold req; split <;> rfl

theorem req_pending {w : SendWindow α} (a : α) (h : w.Open) : (w.req a).pending = w.pending ++ [a] := by
  simp [req, h]

theorem req_full {w : SendWindow α} (a : α) (h : ¬ w.Open) : w.req a = w := by
  simp [req, h]

variable [DecidableEq α]

/-- Confirm `a`. -/
def conf (w : SendWindow α) (a : α) : SendWindow α :=
  ⟨w.cap, w.pending.erase a, Nat.le_trans List.length_erase_le w.bounded⟩

@[simp] theorem conf_cap (w : SendWindow α) (a : α) : (w.conf a).cap = w.cap := rfl

@[simp] theorem conf_pending (w : SendWindow α) (a : α) : (w.conf a).pending = w.pending.erase a := rfl

/-- A confirmation of an unconfirmed id frees exactly one slot. -/
theorem conf_free {w : SendWindow α} {a : α} (h : a ∈ w.pending) : (w.conf a).free = w.free + 1 := by
  have := w.bounded
  have hl := List.length_erase_of_mem h
  have hp := List.length_pos_of_mem h
  simp only [free, conf_cap, conf_pending]; omega

/-- Any other confirmation changes nothing. -/
theorem conf_of_not_mem {w : SendWindow α} {a : α} (h : a ∉ w.pending) : w.conf a = w := by
  cases w
  simp only [conf, mk.injEq, true_and]
  exact List.erase_of_not_mem h

end SendWindow
