import Capi4Linux.Kernelcapi.Frames

/-!
# kernelcapi: calls one after another

A client may pass any number to `kernelcapi_release`, `kernelcapi_put_message`,
`kernelcapi_get_message` and `kernelcapi_set_signal`. The comparison with
`CAPI_MAX_APPLS` refuses the large ones; number 0 and a number that nobody has
lead outside the table and to an empty slot.
-/

namespace Capi4Linux.Kernelcapi
open Capicore Machine

/-- A call of a client, a message from a driver, or anything else that happens in the capicore. -/
inductive Call where
  | register (mem : Option Nat) (datablklen : UInt32) (info : Nat → Capinfo0x10)
  | release (applid : UInt16)
  | putMessage (applid : UInt16) (msg : List UInt8) (answer : Capinfo0x11)
  | getMessage (applid : UInt16)
  | setSignal (applid : UInt16) (signal : Option Nat) (param : UInt32)
  | enqueue (a : Nat) (msg : List UInt8)
  | other (l : Section)

/-- The number that a call carries. -/
def Call.applid : Call → Option UInt16
  | .release applid => some applid
  | .putMessage applid _ _ => some applid
  | .getMessage applid => some applid
  | .setSignal applid _ _ => some applid
  | _ => none

/-- kernelcapi, and which numbers are registered: returned by `kernelcapi_register` and not released since. -/
structure Calls where
  state : State
  issued : UInt16 → Option Nat

def Calls.init : Calls := ⟨State.init, fun _ => none⟩

/-- What a call that carries a number returns and leaves behind. -/
def respond (cfg : Config) (s : State) : Call → Option (Capinfo0x11 × State)
  | .release applid => kernelcapiRelease cfg s applid
  | .putMessage applid msg answer => kernelcapiPutMessage cfg s applid msg answer
  | .getMessage applid => (kernelcapiGetMessage cfg s applid).map fun (info, _, s) => (info, s)
  | .setSignal applid signal param => kernelcapiSetSignal cfg s applid signal param
  | _ => none

def stepCalls (cfg : Config) (s : Calls) : Call → Option Calls
  | .register mem datablklen info => (kernelcapiRegister cfg s.state mem datablklen info).map fun
    | (_, some applid, state) => ⟨state, Function.update s.issued applid mem⟩
    | (_, none, state) => ⟨state, s.issued⟩
  | .release applid => (respond cfg s.state (.release applid)).map fun (_, state) =>
    ⟨state, Function.update s.issued applid none⟩
  | .putMessage applid msg answer => (respond cfg s.state (.putMessage applid msg answer)).map fun (_, state) =>
    ⟨state, s.issued⟩
  | .getMessage applid => (respond cfg s.state (.getMessage applid)).map fun (_, state) => ⟨state, s.issued⟩
  | .setSignal applid signal param => (respond cfg s.state (.setSignal applid signal param)).map fun (_, state) =>
    ⟨state, s.issued⟩
  | .enqueue a msg => some ⟨capiApplEnqueueMessage s.state a msg, s.issued⟩
  | .other l => (Capicore.step cfg s.state.core l).map fun core => ⟨{ s.state with core := core }, s.issued⟩

/-- Clients may call with any number. Memory comes fresh, drivers write to registered applications, and what else
happens in the capicore follows its life cycles and is not done with the applications of kernelcapi. -/
def AllowedCall (cfg : Config) (s : Calls) : Call → Prop
  | .register mem datablklen info => ∀ a, mem = some a →
    s.state.core.applPhase a = .fresh ∧ InRange cfg s.state.core (.applRegister a datablklen info)
  | .enqueue a _ => s.state.core.applPhase a = .registered
  | .other l => Allowed s.state.core l ∧ InRange cfg s.state.core l ∧ ∀ id a, s.issued id = some a → user l ≠ some a
  | _ => True

/-- Only application `a`, and the slot of its number, are touched. -/
structure ActsOn (id : UInt16) (a : Nat) (s s' : State) : Prop where
  core : Apart a s.core s'.core
  appl : ∀ b ≠ a, s'.appl b = s.appl b
  table : ∀ i, i + 1 ≠ id.toNat → s'.kernelcapiAppls i = s.kernelcapiAppls i

/-- The call has an outcome. A number that is not registered is answered with `ILLAPPNR` and nothing else, a
registered one acts on its application. -/
def Robust (cfg : Config) (s : Calls) (l : Call) : Prop :=
  (∃ s', stepCalls cfg s l = some s') ∧ ∀ id, l.applid = some id →
    match s.issued id with
    | none => respond cfg s.state l = some (.ILLAPPNR, s.state)
    | some a => ∃ info s', respond cfg s.state l = some (info, s') ∧ ActsOn id a s.state s'

/-- The number of the call is registered or above `CAPI_MAX_APPLS`. -/
def KnownOrLarge (cfg : Config) (s : Calls) (l : Call) : Prop :=
  ∀ id, l.applid = some id → s.issued id ≠ none ∨ cfg.maxAppls < id.toNat

/-- The table holds what was issued, under the numbers of the capicore. -/
structure Calls.Good (cfg : Config) (s : Calls) : Prop where
  core : Registry cfg s.state.core
  issued : ∀ id a, s.issued id = some a →
    s.state.core.applPhase a = .registered ∧ (s.state.core.appl a).id = id
  table : ∀ id, id ≠ 0 → s.state.kernelcapiAppls (id.toNat - 1) = s.issued id
  quiet : ∀ p ∈ s.state.core.puts, ∀ id, s.issued id ≠ some p.appl

/-- At the start no number is issued. -/
theorem Calls.good_init (cfg : Config) : Calls.init.Good cfg where
  core := registry_init cfg
  issued := fun _ _ issued => nomatch issued
  table := fun _ _ => rfl
  quiet := fun _ member => nomatch member

/-- A number is illegal above the maximum. -/
theorem illegalApplid_iff (cfg : Config) (id : UInt16) : illegalApplid cfg id = true ↔ cfg.maxAppls < id.toNat := by
  unfold illegalApplid
  rw [decide_eq_true_iff]
  omega

section Responses

variable {cfg : Config} {s : State} {l : Call} {id : UInt16}

/-- The guard answers before anything is looked at. -/
theorem respond_large (carries : l.applid = some id) (large : cfg.maxAppls < id.toNat) :
    respond cfg s l = some (.ILLAPPNR, s) := by
  have illegal := (illegalApplid_iff cfg id).2 large
  cases l with
  | release => cases carries; rw [respond, kernelcapiRelease, if_pos illegal]
  | putMessage => cases carries; rw [respond, kernelcapiPutMessage, if_pos illegal]
  | getMessage => cases carries; rw [respond, kernelcapiGetMessage, if_pos illegal]; rfl
  | setSignal => cases carries; rw [respond, kernelcapiSetSignal, if_pos illegal]
  | _ => cases carries

/-- A number that passes it and has no application has no outcome. -/
theorem respond_empty (carries : l.applid = some id) (small : ¬ cfg.maxAppls < id.toNat) (empty : s.slot id = none) :
    respond cfg s l = none := by
  have legal := mt (illegalApplid_iff cfg id).1 small
  cases l with
  | release => cases carries; rw [respond, kernelcapiRelease, if_neg legal, empty]; rfl
  | putMessage => cases carries; rw [respond, kernelcapiPutMessage, if_neg legal, empty]; rfl
  | getMessage => cases carries; rw [respond, kernelcapiGetMessage, if_neg legal, empty]; rfl
  | setSignal => cases carries; rw [respond, kernelcapiSetSignal, if_neg legal, empty]; rfl
  | _ => cases carries

end Responses

/-- A call for application `a` that is not a release. -/
structure Served (cfg : Config) (a : Nat) (s s' : State) : Prop where
  core : Registry cfg s'.core
  apart : Apart a s.core s'.core
  appls : s'.core.appl = s.core.appl
  phase : s'.core.applPhase = s.core.applPhase
  others : ∀ b ≠ a, s'.appl b = s.appl b
  table : s'.kernelcapiAppls = s.kernelcapiAppls

section Calls

variable {cfg : Config} {s s' : Calls} {l : Call} {id : UInt16} {a : Nat}

/-- The application's own structure is all that changes. -/
theorem Served.setAppl (h : Registry cfg s.state.core) (appl : KernelcapiAppl) :
    Served cfg a s.state (s.state.setAppl a appl) := by
  refine ⟨h, ⟨fun _ _ => rfl, fun _ _ => rfl, rfl, [], ?_, fun e member => nomatch member⟩, rfl, rfl, ?_, rfl⟩
  · exact (List.append_nil _).symm
  · intro b other
    exact Function.update_of_ne other _ _

/-- An issued number is between one and the maximum. -/
theorem Calls.Good.range (good : s.Good cfg) (issued : s.issued id = some a) :
    id ≠ 0 ∧ ¬ cfg.maxAppls < id.toNat := by
  obtain ⟨registered, same⟩ := good.issued id a issued
  obtain ⟨low, high⟩ := id_range good.core registered
  rw [same] at low high
  refine ⟨fun zero => ?_, by omega⟩
  rw [zero] at low
  exact absurd low (by decide)

/-- The table holds what was issued. -/
theorem Calls.Good.slot (good : s.Good cfg) (id : UInt16) : s.state.slot id = s.issued id := by
  unfold State.slot
  split
  · rename_i zero
    cases issued : s.issued id with
    | none => rfl
    | some a => exact absurd zero (good.range issued).1
  · rename_i nonzero
    exact good.table id nonzero

theorem Calls.Good.holder (good : s.Good cfg) (issued : s.issued id = some a) :
    ∀ p ∈ s.state.core.puts, p.appl ≠ a :=
  fun p member mine => good.quiet p member id (mine ▸ issued)

/-- An issued number can be released. -/
theorem kernelcapiRelease_registered (good : s.Good cfg) (issued : s.issued id = some a) :
    ∃ info s', kernelcapiRelease cfg s.state id = some (info, s') ∧ Registry cfg s'.core ∧
      Apart a s.state.core s'.core ∧ s'.core.appl = s.state.core.appl ∧ (∀ b ≠ a, s'.appl b = s.state.appl b) ∧
      s'.kernelcapiAppls = Function.update s.state.kernelcapiAppls (id.toNat - 1) none := by
  have legal := mt (illegalApplid_iff cfg id).1 (good.range issued).2
  have slot := (good.slot id).trans issued
  obtain ⟨info, core, run, keep, apart, appls, -⟩ :=
    capiRelease_apart good.core (good.issued id a issued).1 (good.holder issued)
  unfold kernelcapiRelease kernelcapiReleaseCore
  rw [if_neg legal, slot]
  simp only [Option.bind_eq_bind, Option.bind_some, run]
  exact ⟨info, _, rfl, keep, apart, appls, fun b other => Function.update_of_ne other _ _, rfl⟩

/-- The other calls of a registered number. -/
theorem respond_registered (good : s.Good cfg) (carries : l.applid = some id) (issued : s.issued id = some a)
    (keeps : l ≠ .release id) : ∃ info s', respond cfg s.state l = some (info, s') ∧ Served cfg a s.state s' := by
  have legal := mt (illegalApplid_iff cfg id).1 (good.range issued).2
  have slot := (good.slot id).trans issued
  cases l with
  | release => cases carries; exact absurd rfl keeps
  | putMessage _ msg answer =>
    cases carries
    obtain ⟨info, core, run, keep, apart, appls, phase⟩ :=
      capiPutMessageAnswered_apart good.core (good.issued id a issued).1 msg answer
    simp only [respond, kernelcapiPutMessage, if_neg legal, slot, Option.bind_eq_bind, Option.bind_some, run]
    split
    · exact ⟨_, _, rfl, keep, apart, appls, phase, fun b other => Function.update_of_ne other _ _, rfl⟩
    · exact ⟨_, _, rfl, keep, apart, appls, phase, fun _ _ => rfl, rfl⟩
  | getMessage _ =>
    cases carries
    simp only [respond, kernelcapiGetMessage, if_neg legal, slot, Option.bind_eq_bind, Option.bind_some]
    split
    · exact ⟨_, _, rfl, Served.setAppl good.core _⟩
    · exact ⟨_, _, rfl, Served.setAppl good.core _⟩
  | setSignal _ signal param =>
    cases carries
    simp only [respond, kernelcapiSetSignal, if_neg legal, slot, Option.bind_eq_bind, Option.bind_some]
    exact ⟨_, _, rfl, Served.setAppl good.core _⟩
  | _ => cases carries

/-- A served call leaves what was issued in place. -/
theorem Served.good (good : s.Good cfg) {state : State} (served : Served cfg a s.state state) :
    Calls.Good cfg ⟨state, s.issued⟩ where
  core := served.core
  issued := by
    intro id b issued
    rw [served.phase, served.appls]
    exact good.issued id b issued
  table := by
    intro id nonzero
    rw [served.table]
    exact good.table id nonzero
  quiet := by
    intro p member
    rw [served.apart.puts] at member
    exact good.quiet p member

theorem Calls.Good.release (good : s.Good cfg) (issued : s.issued id = some a) {state : State}
    (keep : Registry cfg state.core) (apart : Apart a s.state.core state.core)
    (appls : state.core.appl = s.state.core.appl)
    (table : state.kernelcapiAppls = Function.update s.state.kernelcapiAppls (id.toNat - 1) none) :
    Calls.Good cfg ⟨state, Function.update s.issued id none⟩ := by
  have old : ∀ {id' b}, Function.update s.issued id none id' = some b → id' ≠ id ∧ s.issued id' = some b := by
    intro id' b now
    rcases eq_or_ne id' id with rfl | other
    · rw [Function.update_self] at now
      cases now
    · rw [Function.update_of_ne other] at now
      exact ⟨other, now⟩
  constructor
  · exact keep
  · intro id' b now
    obtain ⟨other, before⟩ := old now
    obtain ⟨registered, same⟩ := good.issued id' b before
    have ne : b ≠ a := by
      intro twice
      rw [twice, (good.issued id a issued).2] at same
      exact other same.symm
    exact ⟨(apart.phase b ne).trans registered, by rw [appls]; exact same⟩
  · intro id' nonzero
    show state.kernelcapiAppls (id'.toNat - 1) = Function.update s.issued id none id'
    rw [table]
    rcases eq_or_ne id' id with rfl | other
    · rw [Function.update_self, Function.update_self]
    · rw [Function.update_of_ne (index_ne nonzero (good.range issued).1 other), Function.update_of_ne other]
      exact good.table id' nonzero
  · intro p member id' now
    rw [apart.puts] at member
    exact good.quiet p member id' (old now).2

theorem Calls.Good.register (good : s.Good cfg) {datablklen : UInt32} {info : Nat → Capinfo0x10}
    (fresh : s.state.core.applPhase a = .fresh)
    (narrow : InRange cfg s.state.core (.applRegister a datablklen info)) :
    ∃ s', stepCalls cfg s (.register (some a) datablklen info) = some s' ∧ s'.Good cfg := by
  obtain ⟨r, core, run, keep, apart, joined, refused⟩ := capiRegister_apart good.core fresh datablklen info narrow
  have other : ∀ {id b}, s.issued id = some b → b ≠ a := by
    intro id b issued same
    have registered := (good.issued id b issued).1
    rw [same, fresh] at registered
    cases registered
  have kept : ∀ {id b}, s.issued id = some b → core.applPhase b = .registered ∧ (core.appl b).id = id := by
    intro id b issued
    obtain ⟨registered, same⟩ := good.issued id b issued
    exact ⟨(apart.phase b (other issued)).trans registered, by rw [apart.appl b (other issued)]; exact same⟩
  have quiet : ∀ p ∈ core.puts, p.appl ≠ a ∧ ∀ id, s.issued id ≠ some p.appl := by
    intro p member
    rw [apart.puts] at member
    refine ⟨fun same => ?_, good.quiet p member⟩
    have listed := (good.core.listed.phase _).1 (good.core.puts p member).1
    rw [same, fresh] at listed
    cases listed
  obtain ⟨appl, run⟩ := kernelcapiRegisterCore_eq run
  rcases eq_or_ne r .NOERR with ok | failed
  · have registered := joined ok
    obtain ⟨low, high⟩ := id_range keep registered
    have legal : ¬ illegalApplid cfg (core.appl a).id = true := mt (illegalApplid_iff cfg _).1 (by omega)
    have nonzero : (core.appl a).id ≠ 0 := by
      intro zero
      rw [zero] at low
      exact absurd low (by decide)
    let state : State := { s.state.setAppl a appl with
      core := core
      kernelcapiAppls := Function.update s.state.kernelcapiAppls ((core.appl a).id.toNat - 1) (some a) }
    have step : stepCalls cfg s (.register (some a) datablklen info) =
        some ⟨state, Function.update s.issued (core.appl a).id (some a)⟩ := by
      simp only [stepCalls, kernelcapiRegister, run, Option.bind_eq_bind, Option.bind_some, if_neg (not_not_intro ok),
        kernelcapiRegisterSlot, if_neg legal]
      rfl
    refine ⟨_, step, keep, ?_, ?_, ?_⟩
    · intro id b now
      change Function.update s.issued (core.appl a).id (some a) id = some b at now
      rcases eq_or_ne id (core.appl a).id with rfl | older
      · rw [Function.update_self] at now
        cases now
        exact ⟨registered, rfl⟩
      · rw [Function.update_of_ne older] at now
        exact kept now
    · intro id positive
      dsimp only [state]
      rcases eq_or_ne id (core.appl a).id with rfl | older
      · rw [Function.update_self, Function.update_self]
      · rw [Function.update_of_ne (index_ne positive nonzero older), Function.update_of_ne older]
        exact good.table id positive
    · intro p member id
      show Function.update s.issued (core.appl a).id (some a) id ≠ some p.appl
      obtain ⟨ne, unissued⟩ := quiet p member
      rcases eq_or_ne id (core.appl a).id with rfl | older
      · rw [Function.update_self]
        exact fun same => ne (Option.some.inj same).symm
      · rw [Function.update_of_ne older]
        exact unissued id
  · have step : stepCalls cfg s (.register (some a) datablklen info) =
        some ⟨{ s.state.setAppl a appl with core := core }, s.issued⟩ := by
      simp only [stepCalls, kernelcapiRegister, run, Option.bind_eq_bind, Option.bind_some, if_pos failed]
      rfl
    exact ⟨_, step, keep, fun id b issued => kept issued, good.table, fun p member => (quiet p member).2⟩

theorem Calls.Good.other (good : s.Good cfg) {l : Section} (allowed : AllowedCall cfg s (.other l)) :
    ∃ s', stepCalls cfg s (.other l) = some s' ∧ s'.Good cfg := by
  obtain ⟨allowed, narrow, foreign⟩ := allowed
  obtain ⟨core, run, keep⟩ := good.core.step allowed narrow
  refine ⟨⟨{ s.state with core := core }, s.issued⟩, by rw [stepCalls, run]; rfl, keep, ?_, good.table, ?_⟩
  · intro id a issued
    have apart : registrant l ≠ some a := by
      intro same
      apply foreign id a issued
      cases l with
      | putLookup => cases same
      | _ => exact same
    obtain ⟨phase, number⟩ := step_others good.core allowed narrow run apart
    exact ⟨phase.trans (good.issued id a issued).1, number.trans (good.issued id a issued).2⟩
  · intro p member id issued
    rcases step_puts good.core allowed narrow run p member with ⟨q, old, same⟩ | named
    · exact good.quiet q old id (same ▸ issued)
    · exact foreign id p.appl issued named

/-- A call with a number that is not a release, seen from the run. -/
theorem stepCalls_respond (carries : l.applid = some id) (keeps : l ≠ .release id) :
    stepCalls cfg s l = (respond cfg s.state l).map fun r => ⟨r.2, s.issued⟩ := by
  cases l with
  | release => cases carries; exact absurd rfl keeps
  | putMessage => rfl
  | getMessage => rfl
  | setSignal => rfl
  | _ => cases carries

/-- The answer to a number that is too large. -/
theorem robust_large (good : s.Good cfg) (carries : l.applid = some id) (large : cfg.maxAppls < id.toNat) :
    Robust cfg s l ∧ stepCalls cfg s l = some s := by
  have answer := respond_large (s := s.state) carries large
  have free : s.issued id = none := by
    rw [Option.eq_none_iff_forall_ne_some]
    intro a issued
    exact (good.range issued).2 large
  have stays : stepCalls cfg s l = some s := by
    rcases eq_or_ne l (.release id) with rfl | keeps
    · have unchanged : Function.update s.issued id none = s.issued := by
        rw [← free, Function.update_eq_self]
      simp only [stepCalls, answer, Option.map_some, unchanged]
    · rw [stepCalls_respond carries keeps, answer]
      rfl
  refine ⟨⟨⟨s, stays⟩, fun id' carries' => ?_⟩, stays⟩
  rw [carries] at carries'
  cases carries'
  rw [free]
  exact answer

/-- The answer to a registered number. -/
theorem robust_registered (good : s.Good cfg) (carries : l.applid = some id) (issued : s.issued id = some a) :
    Robust cfg s l ∧ ∀ s', stepCalls cfg s l = some s' → s'.Good cfg := by
  have robust : ∀ {info state next}, respond cfg s.state l = some (info, state) → stepCalls cfg s l = some next →
      ActsOn id a s.state state → Robust cfg s l := by
    intro info state next answer run acts
    refine ⟨⟨next, run⟩, fun id' carries' => ?_⟩
    rw [carries] at carries'
    cases carries'
    rw [issued]
    exact ⟨info, state, answer, acts⟩
  rcases eq_or_ne l (.release id) with rfl | keeps
  · obtain ⟨info, state, answer, keep, apart, appls, others, table⟩ := kernelcapiRelease_registered good issued
    have run : stepCalls cfg s (.release id) = some ⟨state, Function.update s.issued id none⟩ := by
      simp only [stepCalls, respond, answer, Option.map_some]
    constructor
    · apply robust answer run
      refine ⟨apart, others, fun i other => ?_⟩
      have nonzero : id.toNat ≠ 0 := fun zero => (good.range issued).1 (UInt16.toNat_inj.1 zero)
      have elsewhere : i ≠ id.toNat - 1 := by omega
      rw [table, Function.update_of_ne elsewhere]
    · intro s' run'
      rw [run] at run'
      cases run'
      exact good.release issued keep apart appls table
  · obtain ⟨info, state, answer, served⟩ := respond_registered good carries issued keeps
    have run : stepCalls cfg s l = some ⟨state, s.issued⟩ := by
      rw [stepCalls_respond carries keeps, answer]
      rfl
    constructor
    · apply robust answer run
      exact ⟨served.apart, served.others, fun i _ => congrFun served.table i⟩
    · intro s' run'
      rw [run] at run'
      cases run'
      exact served.good good

/-- A call without a number. -/
theorem robust_plain (plain : l.applid = none) (next : ∃ s', stepCalls cfg s l = some s' ∧ s'.Good cfg) :
    Robust cfg s l ∧ ∀ s', stepCalls cfg s l = some s' → s'.Good cfg := by
  obtain ⟨next, run, good⟩ := next
  refine ⟨⟨⟨next, run⟩, fun id carries => ?_⟩, fun s' run' => ?_⟩
  · rw [plain] at carries
    cases carries
  · rw [run] at run'
    cases run'
    exact good

/-- A call with a number that is registered or too large is answered as it should, and keeps the books. -/
theorem stepCalls_good (good : s.Good cfg) (allowed : AllowedCall cfg s l) (known : KnownOrLarge cfg s l) :
    Robust cfg s l ∧ ∀ s', stepCalls cfg s l = some s' → s'.Good cfg := by
  cases carries : l.applid with
  | some id =>
    rcases known id carries with issued | large
    · obtain ⟨a, issued⟩ := Option.ne_none_iff_exists'.1 issued
      exact robust_registered good carries issued
    · obtain ⟨robust, stays⟩ := robust_large good carries large
      refine ⟨robust, fun s' run => ?_⟩
      rw [stays] at run
      cases run
      exact good
  | none =>
    apply robust_plain carries
    cases l with
    | register mem datablklen info =>
      cases mem with
      | none => exact ⟨_, rfl, good.core, good.issued, good.table, good.quiet⟩
      | some a => exact good.register (allowed a rfl).1 (allowed a rfl).2
    | enqueue a msg => exact ⟨_, rfl, good.core, good.issued, good.table, good.quiet⟩
    | other l => exact good.other allowed
    | _ => cases carries

/-- Any other number has no outcome. -/
theorem Robust.known (good : s.Good cfg) (robust : Robust cfg s l) : KnownOrLarge cfg s l := by
  intro id carries
  by_contra unknown
  rw [not_or, not_not] at unknown
  obtain ⟨issued, small⟩ := unknown
  have answer := robust.2 id carries
  rw [issued] at answer
  rw [respond_empty carries small ((good.slot id).trans issued)] at answer
  cases answer

end Calls

/-- In a run of calls every number is answered as it should, if and only if each is registered or above
`CAPI_MAX_APPLS`. -/
theorem calls_robust_iff (cfg : Config) (ls : List Call) (allowed : Meets (stepCalls cfg) (AllowedCall cfg) Calls.init ls) :
    Meets (stepCalls cfg) (Robust cfg) Calls.init ls ↔ Meets (stepCalls cfg) (KnownOrLarge cfg) Calls.init ls := by
  apply meets_iff_meets (Calls.Good cfg) ?_ ?_ (Calls.good_init cfg) allowed
  · intro s l good ok
    exact ⟨fun robust => robust.known good, fun known => (stepCalls_good good ok known).1⟩
  · intro s l s' good ok known run
    exact (stepCalls_good good ok known).2 s' run

/-- A client registers, sets its signal, releases, and tries a number above the limit. -/
theorem calls_robust_client :
    Meets (stepCalls ⟨4, 64, by decide, by decide⟩) (Robust ⟨4, 64, by decide, by decide⟩) Calls.init
      [.register (some 0) 2048 (fun _ => .NOERR), .setSignal 1 (some 7) 0, .release 1, .getMessage 65] ↔
    Meets (stepCalls ⟨4, 64, by decide, by decide⟩) (KnownOrLarge ⟨4, 64, by decide, by decide⟩) Calls.init
      [.register (some 0) 2048 (fun _ => .NOERR), .setSignal 1 (some 7) 0, .release 1, .getMessage 65] := by
  apply calls_robust_iff
  refine ⟨?_, fun _ _ => ⟨trivial, fun _ _ => ⟨trivial, fun _ _ => ⟨trivial, fun _ _ => trivial⟩⟩⟩⟩
  intro a mem
  cases mem
  exact ⟨rfl, fun _ => .inl (by decide)⟩

/-- Number 0 leads outside the table, and number 1 to an empty slot once it is released; neither call returns. -/
theorem calls_astray :
    ¬ Robust ⟨4, 64, by decide, by decide⟩ Calls.init (.getMessage 0) ∧
    ∃ s, exec (stepCalls ⟨4, 64, by decide, by decide⟩) Calls.init
        [.register (some 0) 2048 (fun _ => .NOERR), .release 1] = some s ∧
      s.issued 1 = none ∧ ¬ Robust ⟨4, 64, by decide, by decide⟩ s (.release 1) := by
  refine ⟨?_, _, rfl, rfl, ?_⟩
  · intro ⟨⟨_, run⟩, _⟩
    cases run
  · intro ⟨⟨_, run⟩, _⟩
    cases run

end Capi4Linux.Kernelcapi
