import Mathlib.Data.List.Basic

/-!
# Runs of a partial step function

A machine is a step function `σ → α → Option σ`; `none` is a step without a
defined outcome. A run is the list of its labels, so a theorem about every
label list is a theorem about every order of steps. `Always` looks at the
states a run reaches, `Each` at its steps, `Meets` at the state and the label
before each step. `always_iff_meets` and `each_iff_meets` turn one-step facts
into the exact condition under which a whole run behaves.
-/

namespace Machine

variable {σ α : Type*} (step : σ → α → Option σ)

/-- The state after the labels `as`, when every step is defined. -/
def exec : σ → List α → Option σ
  | s, [] => some s
  | s, a :: as => (step s a).bind fun s' => exec s' as

/-- `P` holds in every state the run reaches, the first one included. -/
def Always (P : σ → Prop) : σ → List α → Prop
  | s, [] => P s
  | s, a :: as => P s ∧ ∀ s', step s a = some s' → Always P s' as

/-- `Q` holds of every step of the run. -/
def Each (Q : σ → α → σ → Prop) : σ → List α → Prop
  | _, [] => True
  | s, a :: as => ∀ s', step s a = some s' → Q s a s' ∧ Each Q s' as

/-- Every step of the run is taken from a state and with a label that meet `C`. -/
def Meets (C : σ → α → Prop) : σ → List α → Prop
  | _, [] => True
  | s, a :: as => C s a ∧ ∀ s', step s a = some s' → Meets C s' as

variable {step}

theorem exec_append (s : σ) (as bs : List α) :
    exec step s (as ++ bs) = (exec step s as).bind fun s' => exec step s' bs := by
  induction as generalizing s with
  | nil => rfl
  | cons a as ih =>
    simp only [List.cons_append, exec]
    cases step s a with
    | none => rfl
    | some s' => exact ih s'

/-- A state property of a run, read off its prefixes. -/
theorem always_iff_exec {P : σ → Prop} {s : σ} {as : List α} :
    Always step P s as ↔ ∀ pre, pre <+: as → ∀ s', exec step s pre = some s' → P s' := by
  induction as generalizing s with
  | nil =>
    constructor
    · rintro h pre hp s' hs
      obtain rfl := List.prefix_nil.1 hp
      cases hs; exact h
    · intro h; exact h [] (List.prefix_refl _) s rfl
  | cons a as ih =>
    constructor
    · rintro ⟨h, hr⟩ pre hp s' hs
      cases pre with
      | nil => cases hs; exact h
      | cons b pre =>
        obtain ⟨rfl, rest⟩ := List.cons_prefix_cons.1 hp
        simp only [exec, Option.bind_eq_some_iff] at hs
        obtain ⟨t, ht, hs⟩ := hs
        exact ih.1 (hr t ht) pre rest s' hs
    · intro h
      refine ⟨h [] (List.nil_prefix) s rfl, fun t ht => ih.2 fun pre hp s' hs => ?_⟩
      exact h (a :: pre) (List.cons_prefix_cons.2 ⟨rfl, hp⟩) s' (by simp [exec, ht, hs])

theorem Meets.mono {C D : σ → α → Prop} (h : ∀ s a, C s a → D s a) {s : σ} {as : List α}
    (m : Meets step C s as) : Meets step D s as := by
  induction as generalizing s with
  | nil => trivial
  | cons a as ih => exact ⟨h _ _ m.1, fun t ht => ih (m.2 t ht)⟩

theorem Meets.of_forall {C : σ → α → Prop} (h : ∀ s a, C s a) (s : σ) (as : List α) : Meets step C s as := by
  induction as generalizing s with
  | nil => trivial
  | cons a as ih => exact ⟨h s a, fun t _ => ih t⟩

/-- The run of which nothing is asked. -/
theorem Meets.unconditional (step : σ → α → Option σ) (s : σ) (as : List α) : Meets step (fun _ _ => True) s as :=
  Meets.of_forall (fun _ _ => trivial) s as

theorem Meets.of_mem {C : α → Prop} {as : List α} (h : ∀ a ∈ as, C a) (s : σ) : Meets step (fun _ a => C a) s as := by
  induction as generalizing s with
  | nil => trivial
  | cons a as ih => exact ⟨h a List.mem_cons_self, fun t _ => ih (fun b hb => h b (List.mem_cons_of_mem a hb)) t⟩

theorem Meets.and {C D : σ → α → Prop} {s : σ} {as : List α} (m : Meets step C s as) (m' : Meets step D s as) :
    Meets step (fun s a => C s a ∧ D s a) s as := by
  induction as generalizing s with
  | nil => trivial
  | cons a as ih => exact ⟨⟨m.1, m'.1⟩, fun t ht => ih (m.2 t ht) (m'.2 t ht)⟩

theorem Meets.append {C : σ → α → Prop} {s s' : σ} {as bs : List α} (m : Meets step C s as)
    (run : exec step s as = some s') (m' : Meets step C s' bs) : Meets step C s (as ++ bs) := by
  induction as generalizing s with
  | nil => cases run; exact m'
  | cons a as ih =>
    obtain ⟨t, first, rest⟩ := Option.bind_eq_some_iff.1 run
    refine ⟨m.1, fun u hu => ?_⟩
    cases first.symm.trans hu
    exact ih (m.2 t first) rest

theorem Each.mono {Q R : σ → α → σ → Prop} (h : ∀ s a s', Q s a s' → R s a s') {s : σ} {as : List α}
    (m : Each step Q s as) : Each step R s as := by
  induction as generalizing s with
  | nil => trivial
  | cons a as ih => exact fun t ht => ⟨h _ _ _ (m t ht).1, ih (m t ht).2⟩

/-- Two properties that agree on every step of a run. -/
theorem Each.congr {Q R : σ → α → σ → Prop} {s : σ} {as : List α} (same : Each step (fun s a s' => Q s a s' ↔ R s a s') s as) :
    Each step Q s as ↔ Each step R s as := by
  induction as generalizing s with
  | nil => exact Iff.rfl
  | cons a as ih =>
    constructor
    · exact fun m t ht => ⟨(same t ht).1.mp (m t ht).1, (ih (same t ht).2).mp (m t ht).2⟩
    · exact fun m t ht => ⟨(same t ht).1.mpr (m t ht).1, (ih (same t ht).2).mpr (m t ht).2⟩

section Rules

variable {Inv P : σ → Prop} {G C : σ → α → Prop} {Q : σ → α → σ → Prop}

/-- The invariant rule: what every allowed step preserves holds along the run. -/
theorem always_of_inv (keep : ∀ s a s', Inv s → C s a → step s a = some s' → Inv s')
    {s : σ} {as : List α} (h : Inv s) (m : Meets step C s as) : Always step Inv s as := by
  induction as generalizing s with
  | nil => exact h
  | cons a as ih => exact ⟨h, fun t ht => ih (keep s a t h m.1 ht) (m.2 t ht)⟩

/-- What every allowed step does when the invariant holds, every step of the run does. -/
theorem each_of_inv (Inv : σ → Prop) (keep : ∀ s a s', Inv s → C s a → step s a = some s' → Q s a s' ∧ Inv s')
    {s : σ} {as : List α} (h : Inv s) (m : Meets step C s as) : Each step Q s as := by
  induction as generalizing s with
  | nil => trivial
  | cons a as ih =>
    intro t ht
    obtain ⟨q, inv⟩ := keep s a t h m.1 ht
    exact ⟨q, ih inv (m.2 t ht)⟩

theorem Always.mono (h : ∀ s, Inv s → P s) {s : σ} {as : List α} (m : Always step Inv s as) :
    Always step P s as := by
  induction as generalizing s with
  | nil => exact h _ m
  | cons a as ih => exact ⟨h _ m.1, fun t ht => ih (m.2 t ht)⟩

theorem Always.head {s : σ} {as : List α} (m : Always step P s as) : P s := by
  cases as with
  | nil => exact m
  | cons a as => exact m.1

/-- Two properties that agree on every state of a run. -/
theorem Always.congr {P Q : σ → Prop} {s : σ} {as : List α} (same : Always step (fun s => P s ↔ Q s) s as) :
    Always step P s as ↔ Always step Q s as := by
  induction as generalizing s with
  | nil => exact same
  | cons a as ih =>
    constructor
    · exact fun m => ⟨same.1.mp m.1, fun t ht => (ih (same.2 t ht)).mp (m.2 t ht)⟩
    · exact fun m => ⟨same.1.mpr m.1, fun t ht => (ih (same.2 t ht)).mpr (m.2 t ht)⟩

/-- The last state of a run is one of those it reaches. -/
theorem Always.last {s s' : σ} {as : List α} (m : Always step P s as) (hs : exec step s as = some s') :
    P s' :=
  always_iff_exec.1 m as (List.prefix_refl _) s' hs

/-- The last step of a run is one of its steps. -/
theorem Each.last {s s' s'' : σ} {as : List α} {a : α} (m : Each step Q s (as ++ [a])) (run : exec step s as = some s')
    (next : step s' a = some s'') : Q s' a s'' := by
  induction as generalizing s with
  | nil => cases run; exact (m s'' next).1
  | cons b as ih =>
    obtain ⟨t, first, rest⟩ := Option.bind_eq_some_iff.1 run
    exact ih (m t first).2 rest

/-- A run behaves exactly when each of its steps meets the condition: steps that
meet it keep the invariant, and the first one that does not breaks `P`. The
runs are those whose steps are allowed by `G`. -/
theorem always_iff_meets (Inv : σ → Prop) (sound : ∀ s, Inv s → P s)
    (good : ∀ s a s', Inv s → G s a → C s a → step s a = some s' → Inv s')
    (bad : ∀ s a, Inv s → G s a → ¬ C s a → ∃ s', step s a = some s' ∧ ¬ P s')
    {s : σ} {as : List α} (h : Inv s) (g : Meets step G s as) :
    Always step P s as ↔ Meets step C s as := by
  induction as generalizing s with
  | nil => exact ⟨fun _ => trivial, fun _ => sound s h⟩
  | cons a as ih =>
    constructor
    · rintro ⟨-, hr⟩
      have ha : C s a := by
        by_contra hc
        obtain ⟨t, ht, hp⟩ := bad s a h g.1 hc
        exact hp (hr t ht).head
      exact ⟨ha, fun t ht => (ih (good s a t h g.1 ha ht) (g.2 t ht)).1 (hr t ht)⟩
    · rintro ⟨ha, hr⟩
      exact ⟨sound s h, fun t ht => (ih (good s a t h g.1 ha ht) (g.2 t ht)).2 (hr t ht)⟩

/-- The same for a property of steps. -/
theorem each_iff_meets (Inv : σ → Prop)
    (good : ∀ s a s', Inv s → G s a → C s a → step s a = some s' → Q s a s' ∧ Inv s')
    (bad : ∀ s a, Inv s → G s a → ¬ C s a → ∃ s', step s a = some s' ∧ ¬ Q s a s')
    {s : σ} {as : List α} (h : Inv s) (g : Meets step G s as) :
    Each step Q s as ↔ Meets step C s as := by
  induction as generalizing s with
  | nil => exact ⟨fun _ => trivial, fun _ => trivial⟩
  | cons a as ih =>
    constructor
    · intro hr
      have ha : C s a := by
        by_contra hc
        obtain ⟨t, ht, hq⟩ := bad s a h g.1 hc
        exact hq (hr t ht).1
      exact ⟨ha, fun t ht => (ih (good s a t h g.1 ha ht).2 (g.2 t ht)).1 (hr t ht).2⟩
    · rintro ⟨ha, hr⟩ t ht
      obtain ⟨q, inv⟩ := good s a t h g.1 ha ht
      exact ⟨q, (ih inv (g.2 t ht)).2 (hr t ht)⟩

/-- Two conditions on steps that agree while the invariant holds, of which one keeps it. -/
theorem meets_iff_meets {D : σ → α → Prop} (Inv : σ → Prop) (same : ∀ s a, Inv s → G s a → (D s a ↔ C s a))
    (keep : ∀ s a s', Inv s → G s a → C s a → step s a = some s' → Inv s')
    {s : σ} {as : List α} (h : Inv s) (g : Meets step G s as) : Meets step D s as ↔ Meets step C s as := by
  induction as generalizing s with
  | nil => exact Iff.rfl
  | cons a as ih =>
    constructor
    · intro ⟨d, rest⟩
      have c := (same s a h g.1).1 d
      exact ⟨c, fun t ht => (ih (keep s a t h g.1 c ht) (g.2 t ht)).1 (rest t ht)⟩
    · intro ⟨c, rest⟩
      exact ⟨(same s a h g.1).2 c, fun t ht => (ih (keep s a t h g.1 c ht) (g.2 t ht)).2 (rest t ht)⟩

/-- The invariant at the end of a run whose steps are known to be of a kind. -/
theorem inv_of_each (Inv : σ → Prop) (keep : ∀ s a s', Inv s → C s a → step s a = some s' → Q s a s' → Inv s')
    {s s' : σ} {as : List α} (h : Inv s) (m : Meets step C s as) (each : Each step Q s as)
    (run : exec step s as = some s') : Inv s' := by
  induction as generalizing s with
  | nil => cases run; exact h
  | cons a as ih =>
    obtain ⟨t, first, rest⟩ := Option.bind_eq_some_iff.1 run
    obtain ⟨kind, each⟩ := each t first
    exact ih (keep s a t h m.1 first kind) (m.2 t first) each rest

/-- A run has a last state when every allowed step is defined and keeps the invariant. -/
theorem exec_of_inv (total : ∀ s a, Inv s → C s a → ∃ s', step s a = some s' ∧ Inv s')
    {s : σ} {as : List α} (h : Inv s) (m : Meets step C s as) : ∃ s', exec step s as = some s' ∧ Inv s' := by
  induction as generalizing s with
  | nil => exact ⟨s, rfl, h⟩
  | cons a as ih =>
    obtain ⟨t, ht, inv⟩ := total s a h m.1
    obtain ⟨s', hs, inv'⟩ := ih inv (m.2 t ht)
    exact ⟨s', by simp [exec, ht, hs], inv'⟩

/-- A run has a last state and behaves exactly when each of its steps meets the condition: the first
one that does not has no outcome, or breaks `P`. -/
theorem exec_always_iff_meets (Inv : σ → Prop) (sound : ∀ s, Inv s → P s)
    (good : ∀ s a, Inv s → G s a → C s a → ∃ s', step s a = some s' ∧ Inv s')
    (bad : ∀ s a, Inv s → G s a → ¬ C s a → ∀ s', step s a = some s' → ¬ P s')
    {s : σ} {as : List α} (h : Inv s) (g : Meets step G s as) :
    ((∃ s', exec step s as = some s') ∧ Always step P s as) ↔ Meets step C s as := by
  induction as generalizing s with
  | nil => exact ⟨fun _ => trivial, fun _ => ⟨⟨s, rfl⟩, sound s h⟩⟩
  | cons a as ih =>
    constructor
    · rintro ⟨⟨s', run⟩, -, hr⟩
      obtain ⟨t, ht, rest⟩ := Option.bind_eq_some_iff.mp run
      have ha : C s a := by
        by_contra hc
        exact bad s a h g.1 hc t ht (hr t ht).head
      refine ⟨ha, fun u hu => ?_⟩
      obtain ⟨u', hu', inv⟩ := good s a h g.1 ha
      obtain rfl := Option.some.inj (hu.symm.trans hu')
      obtain rfl := Option.some.inj (ht.symm.trans hu)
      exact (ih inv (g.2 t ht)).1 ⟨⟨s', rest⟩, hr t ht⟩
    · rintro ⟨ha, hr⟩
      obtain ⟨t, ht, inv⟩ := good s a h g.1 ha
      obtain ⟨⟨s', run⟩, always⟩ := (ih inv (g.2 t ht)).2 (hr t ht)
      refine ⟨⟨s', by simp [exec, ht, run]⟩, sound s h, fun u hu => ?_⟩
      obtain rfl := Option.some.inj (ht.symm.trans hu)
      exact always

end Rules

/-- What every round of a partial loop relates, the loop relates. -/
theorem foldlM_rel {β : Type*} {R : σ → σ → Prop} (refl : ∀ s, R s s) (trans : ∀ s t u, R s t → R t u → R s u)
    {f : σ → β → Option σ} (round : ∀ s b s', f s b = some s' → R s s') {bs : List β} {s s' : σ}
    (run : bs.foldlM f s = some s') : R s s' := by
  induction bs generalizing s with
  | nil => cases run; exact refl _
  | cons b bs ih =>
    rw [List.foldlM_cons, Option.bind_eq_bind, Option.bind_eq_some_iff] at run
    obtain ⟨t, first, run⟩ := run
    exact trans s t s' (round s b t first) (ih run)

end Machine
