import Mathlib.Data.List.Basic

/-!
# Projecting a run onto a part of the state

A machine answers each call with a result. A part of its state is seen through
`view`, and some calls concern that part. When every other call leaves the view
alone and a concerned call depends on nothing else, a run shows of that part
what the concerned calls show when they are made alone.

The second half gives the two conditions for a list of records that is searched
for the first record of a key and viewed through the records of one key.
-/

namespace Projection

section Runs

variable {σ α ρ ν : Type*} (step : σ → α → Option (ρ × σ))

/-- The calls of a run with their results, and the state at its end. -/
def results : σ → List α → Option (List (α × ρ) × σ)
  | s, [] => some ([], s)
  | s, a :: as => (step s a).bind fun (r, s') => (results s' as).map fun (rs, t) => ((a, r) :: rs, t)

variable {step}

theorem results_cons {s t : σ} {a : α} {as : List α} {rs : List (α × ρ)} :
    results step s (a :: as) = some (rs, t) ↔
      ∃ r s' rest, step s a = some (r, s') ∧ results step s' as = some (rest, t) ∧ rs = (a, r) :: rest := by
  constructor
  · intro run
    obtain ⟨⟨r, s'⟩, first, run⟩ := Option.bind_eq_some_iff.mp run
    obtain ⟨⟨rest, t'⟩, last, run⟩ := Option.map_eq_some_iff.mp run
    cases run
    exact ⟨r, s', rest, first, last, rfl⟩
  · rintro ⟨r, s', rest, first, last, rfl⟩
    simp [results, first, last]

/-- Calls that are defined and keep an invariant make up defined runs. -/
theorem results_of_inv {I : σ → Prop} (keep : ∀ s a, I s → ∃ r s', step s a = some (r, s') ∧ I s') {s : σ}
    (inv : I s) (as : List α) : ∃ rs t, results step s as = some (rs, t) ∧ I t := by
  induction as generalizing s with
  | nil => exact ⟨[], s, rfl, inv⟩
  | cons a as ih =>
    obtain ⟨r, s', first, inv'⟩ := keep s a inv
    obtain ⟨rest, t, last, inv''⟩ := ih inv'
    exact ⟨(a, r) :: rest, t, results_cons.mpr ⟨r, s', rest, first, last, rfl⟩, inv''⟩

variable (step) (concerns : α → Bool) (view : σ → ν)

/-- What one call may do to the view. -/
structure Unwinds : Prop where
  /-- A call that does not concern the view leaves it alone. -/
  ignored : ∀ s a r s', concerns a = false → step s a = some (r, s') → view s' = view s
  /-- A call that concerns it acts on equal views alike. -/
  alike : ∀ s t a r s', concerns a = true → view s = view t → step s a = some (r, s') →
    ∃ t', step t a = some (r, t') ∧ view s' = view t'

variable {step concerns view}

/-- The concerned calls of a run have the same results, and the view ends the
same, when they are made alone. -/
theorem Unwinds.project (h : Unwinds step concerns view) {s t s' : σ} (same : view s = view t) {as : List α}
    {rs : List (α × ρ)} (run : results step s as = some (rs, s')) :
    ∃ t', results step t (as.filter concerns) = some (rs.filter (fun r => concerns r.1), t') ∧ view s' = view t' := by
  induction as generalizing s t rs with
  | nil =>
    cases run
    exact ⟨t, rfl, same⟩
  | cons a as ih =>
    obtain ⟨r, s₁, rest, first, last, rfl⟩ := results_cons.mp run
    cases own : concerns a with
    | true =>
      obtain ⟨t₁, first', same'⟩ := h.alike s t a r s₁ own same first
      obtain ⟨t', last', done⟩ := ih same' last
      refine ⟨t', ?_, done⟩
      rw [List.filter_cons_of_pos own, List.filter_cons_of_pos (by simpa using own)]
      exact results_cons.mpr ⟨r, t₁, _, first', last', rfl⟩
    | false =>
      have kept := h.ignored s a r s₁ own first
      rw [List.filter_cons_of_neg (by simpa using own), List.filter_cons_of_neg (by simpa using own)]
      exact ih (kept.trans same) last

end Runs

section FirstMatch

variable {α ρ : Type*} (p : α → Bool) (f : α → Option (ρ × List α)) (absent : ρ)

/-- Replace the first element that meets `p` by what `f` makes of it. -/
def onFirst : List α → Option (ρ × List α)
  | [] => some (absent, [])
  | x :: xs =>
    if p x then (f x).map fun (r, ys) => (r, ys ++ xs)
    else (onFirst xs).map fun (r, ys) => (r, x :: ys)

variable {p f absent}

/-- Among the elements that meet `p` alone, the replacement is the same one. -/
theorem filter_onFirst_own (keep : ∀ x r ys, p x = true → f x = some (r, ys) → ∀ y ∈ ys, p y = true) (xs : List α) :
    onFirst p f absent (xs.filter p) = (onFirst p f absent xs).map fun (r, ys) => (r, ys.filter p) := by
  induction xs with
  | nil => rfl
  | cons x xs ih =>
    cases hit : p x with
    | true =>
      rw [List.filter_cons_of_pos hit, onFirst, onFirst, if_pos hit, if_pos hit]
      cases made : f x with
      | none => rfl
      | some made' =>
        obtain ⟨r, ys⟩ := made'
        have whole : ys.filter p = ys := List.filter_eq_self.mpr (keep x r ys hit made)
        simp [whole]
    | false =>
      rw [List.filter_cons_of_neg (by simpa using hit), onFirst, if_neg (by simpa using hit), ih]
      cases onFirst p f absent xs with
      | none => rfl
      | some done => simp [hit]

/-- Elements of another kind are not touched. -/
theorem filter_onFirst_other {q : α → Bool} (apart : ∀ x, p x = true → q x = false)
    (keep : ∀ x r ys, p x = true → f x = some (r, ys) → ∀ y ∈ ys, p y = true) {xs ys : List α} {r : ρ}
    (run : onFirst p f absent xs = some (r, ys)) : ys.filter q = xs.filter q := by
  induction xs generalizing ys with
  | nil =>
    cases run
    rfl
  | cons x xs ih =>
    rw [onFirst] at run
    split at run
    · rename_i hit
      obtain ⟨⟨r', zs⟩, made, run⟩ := Option.map_eq_some_iff.mp run
      cases run
      have gone : zs.filter q = [] := by
        apply List.filter_eq_nil_iff.mpr
        intro y hy
        simp [apart y (keep x r zs hit made y hy)]
      rw [List.filter_append, gone, List.nil_append, List.filter_cons_of_neg (by simp [apart x hit])]
    · obtain ⟨⟨r', zs⟩, rest, run⟩ := Option.map_eq_some_iff.mp run
      cases run
      rw [List.filter_cons, List.filter_cons, ih rest]

/-- A replacement that is defined on good elements and makes good ones keeps a
list good. -/
theorem onFirst_forall {P : α → Prop} (keep : ∀ x, P x → ∃ r ys, f x = some (r, ys) ∧ ∀ y ∈ ys, P y) {xs : List α}
    (all : ∀ x ∈ xs, P x) : ∃ r ys, onFirst p f absent xs = some (r, ys) ∧ ∀ y ∈ ys, P y := by
  induction xs with
  | nil => exact ⟨absent, [], rfl, all⟩
  | cons x xs ih =>
    obtain ⟨first, rest⟩ := List.forall_mem_cons.mp all
    rw [onFirst]
    split
    · obtain ⟨r, ys, made, good⟩ := keep x first
      refine ⟨r, ys ++ xs, by rw [made]; rfl, ?_⟩
      intro y mem
      rcases List.mem_append.mp mem with mem | mem
      · exact good y mem
      · exact rest y mem
    · obtain ⟨r, ys, run, good⟩ := ih rest
      exact ⟨r, x :: ys, by rw [run]; rfl, List.forall_mem_cons.mpr ⟨first, good⟩⟩

end FirstMatch

section Keyed

variable {α ρ κ : Type*} [DecidableEq κ] {key : α → κ} {p : α → Bool} {g : α → Option (ρ × α)} {absent : ρ}

/-- The element of a key after the first one that meets `p` was stepped: when all that meet `p` have one key, that
element is the one stepped. -/
theorem find_onFirst (keep : ∀ x r y, g x = some (r, y) → key y = key x) {xs : List α} (distinct : (xs.map key).Nodup)
    (only : ∀ x ∈ xs, ∀ y ∈ xs, p x = true → p y = true → key x = key y) {r : ρ} {ys : List α}
    (run : onFirst p (fun x => (g x).map fun (r, y) => (r, [y])) absent xs = some (r, ys)) (k : κ) :
    ((xs.find? fun x => key x = k).bind fun x => if p x then (g x).map Prod.snd else some x) =
        ys.find? (fun x => key x = k) ∧ ys.map key = xs.map key := by
  induction xs generalizing ys with
  | nil =>
    cases run
    exact ⟨rfl, rfl⟩
  | cons x xs ih =>
    obtain ⟨off, distinct⟩ := List.nodup_cons.mp distinct
    have others : ∀ y ∈ xs, key y ≠ key x := fun y mem same => off (same ▸ List.mem_map_of_mem mem)
    rw [onFirst] at run
    split at run
    · rename_i hit
      obtain ⟨⟨r', zs⟩, made, run⟩ := Option.map_eq_some_iff.mp run
      obtain ⟨⟨r'', y⟩, step, same⟩ := Option.map_eq_some_iff.mp made
      cases same
      cases run
      have kept := keep x _ y step
      have rest : ∀ z ∈ xs, p z = false := by
        intro z mem
        by_contra met
        exact others z mem (only z (List.mem_cons_of_mem x mem) x List.mem_cons_self (by simpa using met) hit)
      refine ⟨?_, by simp [kept]⟩
      by_cases here : key x = k
      · simp [here, hit, step, kept]
      · rw [List.find?_cons_of_neg (by simpa using here), List.singleton_append,
          List.find?_cons_of_neg (by simpa [kept] using here)]
        cases found : xs.find? fun x => key x = k with
        | none => rfl
        | some z => simp [rest z (List.mem_of_find?_eq_some found)]
    · rename_i miss
      obtain ⟨⟨r', zs⟩, tail, run⟩ := Option.map_eq_some_iff.mp run
      cases run
      obtain ⟨found, keys⟩ := ih distinct
        (fun y mem z mem' => only y (List.mem_cons_of_mem x mem) z (List.mem_cons_of_mem x mem')) tail
      refine ⟨?_, by simp [keys]⟩
      by_cases here : key x = k
      · simp [here, miss]
      · rw [List.find?_cons_of_neg (by simpa using here), List.find?_cons_of_neg (by simpa using here)]
        exact found

/-- The step is defined when every element that meets `p` can be stepped. -/
theorem onFirst_defined {xs : List α} (defined : ∀ x ∈ xs, p x = true → ∃ e, g x = some e) :
    ∃ r ys, onFirst p (fun x => (g x).map fun (r, y) => (r, [y])) absent xs = some (r, ys) := by
  induction xs with
  | nil => exact ⟨absent, [], rfl⟩
  | cons x xs ih =>
    rw [onFirst]
    split
    · rename_i hit
      obtain ⟨⟨r, y⟩, step⟩ := defined x List.mem_cons_self hit
      exact ⟨r, y :: xs, by rw [step]; rfl⟩
    · obtain ⟨r, ys, run⟩ := ih fun y mem => defined y (List.mem_cons_of_mem x mem)
      exact ⟨r, x :: ys, by rw [run]; rfl⟩

end Keyed

end Projection
