import Capi4Linux.Lib.Run

/-!
# Clients of a machine

A machine is used through its contract: a condition under which a call may be
made. A client is a machine of its own, whose state holds the state of the
machine it uses and whose steps make calls of it. When every step of the client
makes its calls as the contract wants them, every run of the client is also a
run of the machine that keeps the contract, and whatever is known of such runs
holds of the machine in the client's hands.
-/

namespace Machine

variable {σ α τ β : Type*} (step : σ → α → Option σ) (asks : σ → α → List β)

/-- The calls that a run of the client makes. -/
def asked : σ → List α → List β
  | _, [] => []
  | s, a :: as => asks s a ++ (step s a).elim [] fun s' => asked s' as

/-- One step of a client: it comes out, its calls keep the contract `D`, and they lead the machine to where the
client sees it afterwards. -/
structure Honours (inner : τ → β → Option τ) (D : τ → β → Prop) (view : σ → τ) (Inv : σ → Prop) (s : σ) (a : α) (s' : σ) :
    Prop where
  comes : step s a = some s'
  kept : Inv s'
  contract : Meets inner D (view s) (asks s a)
  leads : exec inner (view s) (asks s a) = some (view s')

variable {step asks} {inner : τ → β → Option τ} {D : τ → β → Prop} {view : σ → τ} {Inv : σ → Prop} {C : σ → α → Prop}

/-- A client whose steps honour the contract honours it in every run. -/
theorem honours_run (one : ∀ s a, Inv s → C s a → ∃ s', Honours step asks inner D view Inv s a s') {s : σ} {as : List α}
    (start : Inv s) (allowed : Meets step C s as) :
    ∃ t, exec step s as = some t ∧ Inv t ∧ Meets inner D (view s) (asked step asks s as) ∧
      exec inner (view s) (asked step asks s as) = some (view t) := by
  induction as generalizing s with
  | nil => exact ⟨s, rfl, start, trivial, rfl⟩
  | cons a as ih =>
    obtain ⟨s', first⟩ := one s a start allowed.1
    obtain ⟨t, rest, inv, contract, leads⟩ := ih first.kept (allowed.2 s' first.comes)
    have calls : asked step asks s (a :: as) = asks s a ++ asked step asks s' as := by
      rw [asked, first.comes]
      rfl
    refine ⟨t, ?_, inv, ?_, ?_⟩
    · rw [exec, first.comes]
      exact rest
    · rw [calls]
      exact first.contract.append first.leads contract
    · rw [calls, exec_append, first.leads]
      exact leads

end Machine
