import Mathlib.Data.List.Basic
import Mathlib.Logic.Relation

/-!
# Wake-ups that are not lost

Producers put items where the consumer looks and call it afterwards. The
consumer goes to sleep only after it has found nothing. A call is remembered
while the consumer sleeps; a consumer that is awake may forget it, since it will
look once more.
-/

namespace Wakeup

/-- What waits for a consumer, and its producers; a producer owes a call from the time it puts something. -/
structure Mailbox (ι : Type*) where
  waiting : Prop
  owing : ι → Bool
  called : Bool
  asleep : Bool

variable {ι : Type*}

/-- A consumer that sleeps while something waits was called, or will be. -/
def Noticed (m : Mailbox ι) : Prop :=
  m.waiting → m.asleep = true → m.called = true ∨ ∃ i, m.owing i = true

theorem noticed_of_awake {m : Mailbox ι} (awake : m.asleep = false) : Noticed m :=
  fun _ asleep => absurd (awake.symm.trans asleep) Bool.false_ne_true

/-- When every producer has called and no call is waiting, a consumer that sleeps has missed nothing. -/
theorem Noticed.empty {m : Mailbox ι} (noticed : Noticed m) (asleep : m.asleep = true) (quiet : m.called = false)
    (silent : ∀ i, m.owing i = false) : ¬ m.waiting := by
  intro left
  rcases noticed left asleep with called | ⟨i, owing⟩
  · exact absurd (quiet.symm.trans called) Bool.false_ne_true
  · exact absurd ((silent i).symm.trans owing) Bool.false_ne_true

variable [DecidableEq ι]

/-- One move of a producer or of the consumer. -/
inductive Turn (m : Mailbox ι) : Mailbox ι → Prop
  | put (i : ι) (waiting : Prop) : Turn m { m with waiting, owing := Function.update m.owing i true }
  | call (i : ι) : Turn m { m with owing := Function.update m.owing i false, called := true }
  | take (waiting : Prop) (fewer : waiting → m.waiting) : Turn m { m with waiting }
  | wake : Turn m { m with asleep := false }
  | forget (awake : m.asleep = false) : Turn m { m with called := false }
  | sleep (empty : ¬ m.waiting) : Turn m { m with asleep := true }

theorem Noticed.turn {m m' : Mailbox ι} (noticed : Noticed m) (turn : Turn m m') : Noticed m' := by
  cases turn with
  | put i waiting =>
    intro _ _
    exact .inr ⟨i, Function.update_self i true m.owing⟩
  | call i =>
    intro _ _
    exact .inl rfl
  | take waiting fewer =>
    intro left asleep
    exact noticed (fewer left) asleep
  | wake => exact noticed_of_awake rfl
  | forget awake => exact noticed_of_awake awake
  | sleep empty =>
    intro left _
    exact absurd left empty

/-- Several moves in a row. -/
theorem Noticed.turns {m m' : Mailbox ι} (noticed : Noticed m) (turns : Relation.ReflTransGen Turn m m') :
    Noticed m' := by
  induction turns with
  | refl => exact noticed
  | tail _ turn ih => exact ih.turn turn

end Wakeup
