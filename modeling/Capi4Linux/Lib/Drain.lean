import Mathlib.Data.List.Basic

/-!
# Emptying a queue under back-pressure

A loop takes the head of a queue and offers it. The offer is accepted, or the
loop stops with the item put back, or the item is dropped and the loop goes on.
An item carries a list of `β`. Nothing is lost exactly while every dropped item
carries nothing.
-/

namespace Drain

/-- What becomes of an offer. -/
inductive Verdict where
  | accept
  | hold
  | drop
  deriving DecidableEq

variable {α β : Type*} (verdict : Nat → Verdict) (content : α → List β)

/-- The items accepted and the items left; the offers are counted from `t`. -/
def drain : Nat → List α → List α × List α
  | _, [] => ([], [])
  | t, x :: q =>
    match verdict t with
    | .accept => (x :: (drain (t + 1) q).1, (drain (t + 1) q).2)
    | .hold => ([], x :: q)
    | .drop => drain (t + 1) q

/-- No item that carries anything is dropped before the loop ends. -/
def Undropped : Nat → List α → Prop
  | _, [] => True
  | t, x :: q => verdict t = .hold ∨ (verdict t = .drop → content x = []) ∧ Undropped (t + 1) q

variable {verdict content}

/-- What is left was queued. -/
theorem drain_subset (q : List α) : ∀ t, (drain verdict t q).2 ⊆ q := by
  induction q with
  | nil => intro t; exact List.Subset.refl []
  | cons x q ih =>
    intro t
    rw [drain]
    cases verdict t with
    | accept => exact List.subset_cons_of_subset x (ih (t + 1))
    | hold => exact List.Subset.refl _
    | drop => exact List.subset_cons_of_subset x (ih (t + 1))

/-- The loop only ever takes away. -/
theorem drain_length_le (q : List α) : ∀ t,
    ((drain verdict t q).1.flatMap content).length + ((drain verdict t q).2.flatMap content).length ≤
      (q.flatMap content).length := by
  induction q with
  | nil => intro t; exact Nat.le_refl 0
  | cons x q ih =>
    intro t
    have rest := ih (t + 1)
    rw [drain]
    cases verdict t with
    | accept =>
      simp only [List.flatMap_cons, List.length_append]
      omega
    | hold => simp
    | drop =>
      simp only [List.flatMap_cons, List.length_append]
      omega

/-- What was queued is what was accepted and what is left. -/
theorem drain_undropped (q : List α) : ∀ {t}, Undropped verdict content t q →
    (drain verdict t q).1.flatMap content ++ (drain verdict t q).2.flatMap content = q.flatMap content := by
  induction q with
  | nil => intro t _; rfl
  | cons x q ih =>
    intro t kept
    rw [drain]
    cases answer : verdict t with
    | accept =>
      rcases kept with held | ⟨-, kept⟩
      · rw [answer] at held
        cases held
      · simp only [List.flatMap_cons, List.append_assoc, ih kept]
    | hold => rfl
    | drop =>
      rcases kept with held | ⟨empty, kept⟩
      · rw [answer] at held
        cases held
      · simp only [List.flatMap_cons, empty answer, List.nil_append, ih kept]

theorem undropped_of_forall (never : ∀ t, verdict t ≠ .drop) (q : List α) : ∀ t, Undropped verdict content t q := by
  induction q with
  | nil => intro t; trivial
  | cons x q ih =>
    intro t
    apply Or.inr
    constructor
    · intro drop
      exact absurd drop (never t)
    · exact ih (t + 1)

/-- Otherwise something is missing. -/
theorem drain_dropped (q : List α) : ∀ {t}, ¬ Undropped verdict content t q →
    ((drain verdict t q).1.flatMap content).length + ((drain verdict t q).2.flatMap content).length <
      (q.flatMap content).length := by
  induction q with
  | nil => intro t lost; exact absurd trivial lost
  | cons x q ih =>
    intro t lost
    rw [Undropped, not_or] at lost
    obtain ⟨going, lost⟩ := lost
    rw [drain]
    cases answer : verdict t with
    | accept =>
      have later : ¬ Undropped verdict content (t + 1) q := by
        intro kept
        apply lost
        refine ⟨fun drop => ?_, kept⟩
        rw [answer] at drop
        cases drop
      have rest := ih later
      simp only [List.flatMap_cons, List.length_append]
      omega
    | hold => exact absurd answer going
    | drop =>
      simp only [List.flatMap_cons, List.length_append]
      rcases Classical.em (content x = []) with empty | full
      · have later : ¬ Undropped verdict content (t + 1) q := fun kept => lost ⟨fun _ => empty, kept⟩
        have rest := ih later
        omega
      · have some := List.length_pos_iff.2 full
        have rest := @drain_length_le α β verdict content q (t + 1)
        omega

end Drain
