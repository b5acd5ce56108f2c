import Capi4Linux.Kernelcapi.Frames

/-!
# kernelcapi: many clients

Each call of `capi_register` and `capi_release` and each write of the table is
one step, in any order of the clients. A number is free again as soon as
`capi_release` has returned, but `kernelcapi_release` empties its slot only
after that.
-/

namespace Capi4Linux.Kernelcapi
open Capicore Machine

/-- How far the client of an application has come. -/
inductive Client where
  | absent
  /-- `capi_register` has accepted the application. -/
  | registering
  /-- `kernelcapi_register` has returned the number. -/
  | held (applid : UInt16)
  /-- `kernelcapi_release` has read application `a` from the slot. -/
  | releasing (applid : UInt16) (a : Nat)
  /-- `capi_release` has returned. -/
  | released (applid : UInt16)
  /-- The slot is empty and the application freed. -/
  | gone
  deriving DecidableEq

/-- kernelcapi with its clients, each named by the application that its registration created. -/
structure Clients where
  state : State
  client : Nat → Client

def Clients.init : Clients := ⟨State.init, fun _ => .absent⟩

def Clients.move (s : Clients) (h : Nat) (state : State) (c : Client) : Clients :=
  ⟨state, Function.update s.client h c⟩

/-- The steps of the clients, and anything else that happens in the capicore. -/
inductive ClientStep where
  | register (mem : Option Nat) (datablklen : UInt32) (info : Nat → Capinfo0x10)
  | write (h : Nat)
  | releaseBegin (h : Nat)
  | releaseCore (h : Nat)
  | releaseSlot (h : Nat)
  | other (l : Section)

def stepClients (cfg : Config) (s : Clients) : ClientStep → Option Clients
  | .register none _ _ => some s
  | .register (some h) datablklen info => (kernelcapiRegisterCore cfg s.state h datablklen info).map fun (r, state) =>
    if r ≠ .NOERR then { s with state := state } else s.move h state .registering
  | .write h =>
    match kernelcapiRegisterSlot cfg s.state h with
    | (_, some applid, state) => some (s.move h state (.held applid))
    | (_, none, state) => some (s.move h state .gone)
  | .releaseBegin h =>
    match s.client h with
    | .held applid =>
      if illegalApplid cfg applid then some (s.move h s.state .gone)
      else (s.state.slot applid).map fun a => s.move h s.state (.releasing applid a)
    | _ => none
  | .releaseCore h =>
    match s.client h with
    | .releasing applid a => (kernelcapiReleaseCore cfg s.state a).map fun (_, state) => s.move h state (.released applid)
    | _ => none
  | .releaseSlot h =>
    match s.client h with
    | .released applid => some (s.move h (kernelcapiReleaseSlot s.state applid) .gone)
    | _ => none
  | .other l => (Capicore.step cfg s.state.core l).map fun core => { s with state := { s.state with core := core } }

/-- The client has an application in the capicore. -/
def Client.Owner : Client → Prop
  | .registering => True
  | .held _ => True
  | .releasing _ _ => True
  | _ => False

/-- Memory comes fresh, each client takes its steps in order, an application is released when no message of it is
underway, and what else happens in the capicore neither registers nor releases an application of kernelcapi. -/
def AllowedStep (cfg : Config) (s : Clients) : ClientStep → Prop
  | .register mem datablklen info => ∀ h, mem = some h → s.client h = .absent ∧
    s.state.core.applPhase h = .fresh ∧ InRange cfg s.state.core (.applRegister h datablklen info)
  | .write h => s.client h = .registering
  | .releaseBegin h => ∃ applid, s.client h = .held applid
  | .releaseCore h => ∃ applid a, s.client h = .releasing applid a ∧ ∀ p ∈ s.state.core.puts, p.appl ≠ a
  | .releaseSlot h => ∃ applid, s.client h = .released applid
  | .other l => Allowed s.state.core l ∧ InRange cfg s.state.core l ∧
    ∀ h, (s.client h).Owner → registrant l ≠ some h

/-- The slot of every number that a client holds leads to the application its registration created. -/
def NoneLost (s : Clients) : Prop :=
  ∀ h applid, s.client h = .held applid → s.state.kernelcapiAppls (applid.toNat - 1) = some h

/-- A slot is emptied only while nobody holds its number. -/
def EmptiesFree (s : Clients) : ClientStep → Prop
  | .releaseSlot h => ∀ applid, s.client h = .released applid → ∀ other, s.client other ≠ .held applid
  | _ => True

/-- What a client may rely on. -/
def Client.Sound (s : Clients) (h : Nat) : Client → Prop
  | .registering => s.state.core.applPhase h = .registered
  | .held applid => s.state.core.applPhase h = .registered ∧ (s.state.core.appl h).id = applid ∧
    s.state.kernelcapiAppls (applid.toNat - 1) = some h
  | .releasing applid a => a = h ∧ s.state.core.applPhase h = .registered ∧ applid ≠ 0
  | .released applid => applid ≠ 0
  | _ => True

structure Clients.Good (cfg : Config) (s : Clients) : Prop where
  core : Registry cfg s.state.core
  sound : ∀ h, (s.client h).Sound s h

/-- At the start there are no clients. -/
theorem Clients.good_init (cfg : Config) : Clients.init.Good cfg :=
  ⟨registry_init cfg, fun _ => trivial⟩

section Steps

variable {cfg : Config} {s s' : Clients} {h : Nat}

/-- Every client that holds a number is in the table. -/
theorem Clients.Good.noneLost (good : s.Good cfg) : NoneLost s := by
  intro h applid held
  have sound := good.sound h
  rw [held] at sound
  exact sound.2.2

/-- An owner's application is registered. -/
theorem Clients.Good.registered (good : s.Good cfg) (owner : (s.client h).Owner) :
    s.state.core.applPhase h = .registered := by
  have sound := good.sound h
  cases now : s.client h with
  | registering => rw [now] at sound; exact sound
  | held => rw [now] at sound; exact sound.1
  | releasing => rw [now] at sound; exact sound.2.1
  | _ => rw [now] at owner; exact owner.elim

/-- A client stays sound while its application keeps phase and number, and the slot of a number it holds stays. -/
theorem Client.Sound.keep {c : Client} (sound : c.Sound s h)
    (phase : c.Owner → s'.state.core.applPhase h = s.state.core.applPhase h)
    (number : c.Owner → (s'.state.core.appl h).id = (s.state.core.appl h).id)
    (slot : ∀ applid, c = .held applid → s'.state.kernelcapiAppls (applid.toNat - 1) =
      s.state.kernelcapiAppls (applid.toNat - 1)) : c.Sound s' h := by
  cases c with
  | registering => exact (phase trivial).trans sound
  | held applid => exact ⟨(phase trivial).trans sound.1, (number trivial).trans sound.2.1, (slot applid rfl).trans sound.2.2⟩
  | releasing applid a => exact ⟨sound.1, (phase trivial).trans sound.2.1, sound.2.2⟩
  | _ => exact sound

/-- One client moves: it is sound afterwards, and the others do not notice. -/
theorem Clients.Good.move (good : s.Good cfg) {state : State} {c : Client} (keep : Registry cfg state.core)
    (mine : c.Sound (s.move h state c) h)
    (phase : ∀ other ≠ h, (s.client other).Owner → state.core.applPhase other = s.state.core.applPhase other)
    (number : ∀ other ≠ h, (s.client other).Owner → (state.core.appl other).id = (s.state.core.appl other).id)
    (slot : ∀ other ≠ h, ∀ applid, s.client other = .held applid →
      state.kernelcapiAppls (applid.toNat - 1) = s.state.kernelcapiAppls (applid.toNat - 1)) :
    (s.move h state c).Good cfg := by
  constructor
  · exact keep
  · intro other
    rcases eq_or_ne other h with rfl | ne
    · have now : (s.move other state c).client other = c := Function.update_self _ _ _
      rw [now]
      exact mine
    · have now : (s.move h state c).client other = s.client other := Function.update_of_ne ne _ _
      rw [now]
      exact (good.sound other).keep (phase other ne) (number other ne) (slot other ne)

/-- Nobody moves. -/
theorem Clients.Good.stay (good : s.Good cfg) {state : State} (keep : Registry cfg state.core)
    (phase : ∀ h, (s.client h).Owner → state.core.applPhase h = s.state.core.applPhase h)
    (number : ∀ h, (s.client h).Owner → (state.core.appl h).id = (s.state.core.appl h).id)
    (slot : state.kernelcapiAppls = s.state.kernelcapiAppls) : Clients.Good cfg { s with state := state } := by
  constructor
  · exact keep
  · intro h
    exact (good.sound h).keep (phase h) (number h) fun applid _ => by rw [slot]

/-- The number of a held application. -/
theorem Clients.Good.held (good : s.Good cfg) {applid : UInt16} (held : s.client h = .held applid) :
    s.state.core.applPhase h = .registered ∧ (s.state.core.appl h).id = applid ∧
      s.state.kernelcapiAppls (applid.toNat - 1) = some h ∧ applid ≠ 0 ∧ ¬ illegalApplid cfg applid = true := by
  have sound := good.sound h
  rw [held] at sound
  obtain ⟨registered, same, slot⟩ := sound
  obtain ⟨low, high⟩ := id_range good.core registered
  rw [same] at low high
  refine ⟨registered, same, slot, fun zero => ?_, fun illegal => ?_⟩
  · rw [zero] at low
    exact absurd low (by decide)
  · unfold illegalApplid at illegal
    rw [decide_eq_true_iff] at illegal
    omega

/-- A registration goes through. -/
theorem Clients.Good.register (good : s.Good cfg) {datablklen : UInt32} {info : Nat → Capinfo0x10}
    (allowed : AllowedStep cfg s (.register (some h) datablklen info)) :
    ∃ s', stepClients cfg s (.register (some h) datablklen info) = some s' ∧ s'.Good cfg := by
  obtain ⟨absent, fresh, narrow⟩ := allowed h rfl
  obtain ⟨r, core, run, keep, apart, joined, -⟩ := capiRegister_apart good.core fresh datablklen info narrow
  obtain ⟨appl, run⟩ := kernelcapiRegisterCore_eq run
  have other : ∀ b, (s.client b).Owner → b ≠ h := by
    intro b owner same
    rw [same, absent] at owner
    exact owner
  rw [stepClients, run]
  simp only [Option.map_some]
  rcases eq_or_ne r .NOERR with ok | failed
  · rw [if_neg (not_not_intro ok)]
    refine ⟨_, rfl, good.move keep (joined ok) ?_ ?_ ?_⟩
    · intro b ne _
      exact apart.phase b ne
    · intro b ne _
      exact congrArg CapiAppl.id (apart.appl b ne)
    · intro _ _ _ _
      rfl
  · rw [if_pos failed]
    refine ⟨_, rfl, good.stay keep ?_ ?_ rfl⟩
    · intro b owner
      exact apart.phase b (other b owner)
    · intro b owner
      exact congrArg CapiAppl.id (apart.appl b (other b owner))

/-- The slot of a new client is written. -/
theorem Clients.Good.write (good : s.Good cfg) (registering : s.client h = .registering) :
    ∃ s', stepClients cfg s (.write h) = some s' ∧ s'.Good cfg := by
  have registered := good.registered (h := h) (by rw [registering]; trivial)
  obtain ⟨low, high⟩ := id_range good.core registered
  have legal : ¬ illegalApplid cfg (s.state.core.appl h).id = true := by
    unfold illegalApplid
    rw [decide_eq_true_iff]
    omega
  have nonzero : (s.state.core.appl h).id ≠ 0 := by
    intro zero
    rw [zero] at low
    exact absurd low (by decide)
  rw [stepClients, kernelcapiRegisterSlot]
  simp only [if_neg legal]
  refine ⟨_, rfl, good.move good.core ⟨registered, rfl, Function.update_self _ _ _⟩ ?_ ?_ ?_⟩
  · intro _ _ _
    rfl
  · intro _ _ _
    rfl
  · intro b ne applid held
    obtain ⟨registered', same, -, nonzero', -⟩ := good.held held
    have different : applid ≠ (s.state.core.appl h).id := by
      intro twice
      exact ne (id_inj good.core registered' registered (same.trans twice))
    exact Function.update_of_ne (index_ne nonzero' nonzero different) _ _

theorem Clients.Good.releaseBegin (good : s.Good cfg) {applid : UInt16} (held : s.client h = .held applid) :
    ∃ s', stepClients cfg s (.releaseBegin h) = some s' ∧ s'.Good cfg := by
  obtain ⟨registered, same, slot, nonzero, legal⟩ := good.held held
  have found : s.state.slot applid = some h := by
    rw [State.slot, if_neg nonzero]
    exact slot
  have run : stepClients cfg s (.releaseBegin h) = some (s.move h s.state (.releasing applid h)) := by
    simp only [stepClients, held, if_neg legal, found, Option.map_some]
  refine ⟨_, run, good.move good.core ⟨rfl, registered, nonzero⟩ ?_ ?_ ?_⟩
  · intro _ _ _
    rfl
  · intro _ _ _
    rfl
  · intro _ _ _ _
    rfl

theorem Clients.Good.releaseCore (good : s.Good cfg) {applid : UInt16} {a : Nat}
    (releasing : s.client h = .releasing applid a) (quiet : ∀ p ∈ s.state.core.puts, p.appl ≠ a) :
    ∃ s', stepClients cfg s (.releaseCore h) = some s' ∧ s'.Good cfg := by
  have sound := good.sound h
  rw [releasing] at sound
  obtain ⟨rfl, registered, nonzero⟩ := sound
  obtain ⟨info, core, run, keep, apart, appls, -⟩ := capiRelease_apart good.core registered quiet
  have run' : stepClients cfg s (.releaseCore a) = some (s.move a
      { s.state.setAppl a { s.state.appl a with msgQueue := [] } with core := core } (.released applid)) := by
    simp only [stepClients, releasing, kernelcapiReleaseCore, run, Option.bind_eq_bind, Option.bind_some]
    rfl
  refine ⟨_, run', good.move keep nonzero ?_ ?_ ?_⟩
  · intro b ne _
    exact apart.phase b ne
  · intro b _ _
    show (core.appl b).id = _
    rw [appls]
  · intro _ _ _ _
    rfl

/-- A slot that nobody else holds may be emptied. -/
theorem Clients.Good.releaseSlot (good : s.Good cfg) {applid : UInt16} (released : s.client h = .released applid)
    (free : ∀ other, s.client other ≠ .held applid) :
    ∃ s', stepClients cfg s (.releaseSlot h) = some s' ∧ s'.Good cfg := by
  have nonzero := good.sound h
  rw [released] at nonzero
  have run : stepClients cfg s (.releaseSlot h) = some (s.move h (kernelcapiReleaseSlot s.state applid) .gone) := by
    simp only [stepClients, released]
  refine ⟨_, run, good.move good.core trivial ?_ ?_ ?_⟩
  · intro _ _ _
    rfl
  · intro _ _ _
    rfl
  · intro b _ applid' held
    obtain ⟨-, -, -, nonzero', -⟩ := good.held held
    have different : applid' ≠ applid := by
      intro same
      exact free b (same ▸ held)
    exact Function.update_of_ne (index_ne nonzero' nonzero different) _ _

theorem Clients.Good.other (good : s.Good cfg) {l : Section} (allowed : AllowedStep cfg s (.other l)) :
    ∃ s', stepClients cfg s (.other l) = some s' ∧ s'.Good cfg := by
  obtain ⟨allowed, narrow, foreign⟩ := allowed
  obtain ⟨core, run, keep⟩ := good.core.step allowed narrow
  refine ⟨{ s with state := { s.state with core := core } }, by rw [stepClients, run]; rfl, good.stay keep ?_ ?_ rfl⟩
  · intro h owner
    exact (step_others good.core allowed narrow run (foreign h owner)).1
  · intro h owner
    exact (step_others good.core allowed narrow run (foreign h owner)).2

/-- A step that empties no slot in use keeps every client sound. -/
theorem stepClients_good (good : s.Good cfg) {l : ClientStep} (allowed : AllowedStep cfg s l)
    (free : EmptiesFree s l) : ∃ s', stepClients cfg s l = some s' ∧ s'.Good cfg := by
  cases l with
  | register mem datablklen info =>
    cases mem with
    | none => exact ⟨s, rfl, good⟩
    | some h => exact good.register allowed
  | write h => exact good.write allowed
  | releaseBegin h =>
    obtain ⟨applid, held⟩ := allowed
    exact good.releaseBegin held
  | releaseCore h =>
    obtain ⟨applid, a, releasing, quiet⟩ := allowed
    exact good.releaseCore releasing quiet
  | releaseSlot h =>
    obtain ⟨applid, released⟩ := allowed
    exact good.releaseSlot released (free applid released)
  | other l => exact good.other allowed

/-- Emptying the slot of a number in use loses its application. -/
theorem stepClients_lost {l : ClientStep} (allowed : AllowedStep cfg s l)
    (used : ¬ EmptiesFree s l) : ∃ s', stepClients cfg s l = some s' ∧ ¬ NoneLost s' := by
  cases l with
  | releaseSlot h =>
    obtain ⟨applid, released⟩ := allowed
    have run : stepClients cfg s (.releaseSlot h) = some (s.move h (kernelcapiReleaseSlot s.state applid) .gone) := by
      simp only [stepClients, released]
    refine ⟨_, run, fun kept => used fun applid' released' other held => ?_⟩
    rw [released] at released'
    cases released'
    have ne : other ≠ h := by
      intro same
      rw [same, released] at held
      cases held
    have still : (s.move h (kernelcapiReleaseSlot s.state applid) .gone).client other = .held applid :=
      (Function.update_of_ne ne _ _).trans held
    have slot := kept other applid still
    have empty : (s.move h (kernelcapiReleaseSlot s.state applid) .gone).state.kernelcapiAppls (applid.toNat - 1) = none :=
      Function.update_self _ _ _
    rw [empty] at slot
    cases slot
  | _ => exact absurd trivial used

end Steps

/-- In every run the slot of each number in use leads to the application registered under it, if and only if no slot
is emptied while its number is in use again; such a run goes through. -/
theorem clients_kept_iff (cfg : Config) (ls : List ClientStep)
    (allowed : Meets (stepClients cfg) (AllowedStep cfg) Clients.init ls) :
    (Always (stepClients cfg) NoneLost Clients.init ls ↔ Meets (stepClients cfg) EmptiesFree Clients.init ls) ∧
    (Meets (stepClients cfg) EmptiesFree Clients.init ls → ∃ s, exec (stepClients cfg) Clients.init ls = some s) := by
  constructor
  · apply always_iff_meets (Clients.Good cfg) ?_ ?_ ?_ (Clients.good_init cfg) allowed
    · intro s good
      exact good.noneLost
    · intro s l s' good ok free run
      obtain ⟨s2, run2, good2⟩ := stepClients_good good ok free
      rw [run] at run2
      cases run2
      exact good2
    · intro s l _ ok used
      exact stepClients_lost ok used
  · intro free
    obtain ⟨s, run, -⟩ := exec_of_inv (fun s l good ok => stepClients_good good ok.1 ok.2) (Clients.good_init cfg)
      (allowed.and free)
    exact ⟨s, run⟩

/-- One client after the other. -/
def takingTurns : List ClientStep :=
  [.register (some 0) 2048 (fun _ => .NOERR), .write 0, .releaseBegin 0, .releaseCore 0, .releaseSlot 0,
    .register (some 1) 2048 (fun _ => .NOERR), .write 1]

/-- The second client registers while the first is about to empty its slot. -/
def overlapping : List ClientStep :=
  [.register (some 0) 2048 (fun _ => .NOERR), .write 0, .releaseBegin 0, .releaseCore 0,
    .register (some 1) 2048 (fun _ => .NOERR), .write 1, .releaseSlot 0]

theorem takingTurns_allowed :
    Meets (stepClients ⟨4, 64, by decide, by decide⟩) (AllowedStep ⟨4, 64, by decide, by decide⟩) Clients.init
      takingTurns := by
  refine ⟨fun _ mem => ?_, fun _ run => ?_⟩
  · cases mem
    exact ⟨rfl, rfl, fun _ => .inl (by decide)⟩
  cases run
  refine ⟨rfl, fun _ run => ?_⟩
  cases run
  refine ⟨⟨_, rfl⟩, fun _ run => ?_⟩
  cases run
  refine ⟨⟨_, _, rfl, fun _ member => nomatch member⟩, fun _ run => ?_⟩
  cases run
  refine ⟨⟨_, rfl⟩, fun _ run => ?_⟩
  cases run
  refine ⟨fun _ mem => ?_, fun _ run => ?_⟩
  · cases mem
    exact ⟨rfl, rfl, fun _ => .inl (by decide)⟩
  cases run
  exact ⟨rfl, fun _ _ => trivial⟩

theorem overlapping_allowed :
    Meets (stepClients ⟨4, 64, by decide, by decide⟩) (AllowedStep ⟨4, 64, by decide, by decide⟩) Clients.init
      overlapping := by
  refine ⟨fun _ mem => ?_, fun _ run => ?_⟩
  · cases mem
    exact ⟨rfl, rfl, fun _ => .inl (by decide)⟩
  cases run
  refine ⟨rfl, fun _ run => ?_⟩
  cases run
  refine ⟨⟨_, rfl⟩, fun _ run => ?_⟩
  cases run
  refine ⟨⟨_, _, rfl, fun _ member => nomatch member⟩, fun _ run => ?_⟩
  cases run
  refine ⟨fun _ mem => ?_, fun _ run => ?_⟩
  · cases mem
    exact ⟨rfl, rfl, fun _ => .inl (by decide)⟩
  cases run
  refine ⟨rfl, fun _ run => ?_⟩
  cases run
  exact ⟨⟨_, rfl⟩, fun _ _ => trivial⟩

theorem clients_kept_turns :
    (Always (stepClients ⟨4, 64, by decide, by decide⟩) NoneLost Clients.init takingTurns ↔
      Meets (stepClients ⟨4, 64, by decide, by decide⟩) EmptiesFree Clients.init takingTurns) ∧
    (Meets (stepClients ⟨4, 64, by decide, by decide⟩) EmptiesFree Clients.init takingTurns →
      ∃ s, exec (stepClients ⟨4, 64, by decide, by decide⟩) Clients.init takingTurns = some s) :=
  clients_kept_iff _ _ takingTurns_allowed

/-- The second client holds number 1, and the slot of number 1 is empty. -/
theorem clients_lost : ∃ s, exec (stepClients ⟨4, 64, by decide, by decide⟩) Clients.init overlapping = some s ∧
    Meets (stepClients ⟨4, 64, by decide, by decide⟩) (AllowedStep ⟨4, 64, by decide, by decide⟩) Clients.init
      overlapping ∧
    s.client 1 = .held 1 ∧ s.state.kernelcapiAppls 0 = none ∧ ¬ NoneLost s := by
  refine ⟨_, rfl, overlapping_allowed, rfl, rfl, fun kept => ?_⟩
  have slot := kept 1 1 rfl
  cases slot

end Capi4Linux.Kernelcapi
