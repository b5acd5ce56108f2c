import Capi4Linux.Capicore.Registry

/-!
# The calls of the driver operations

A device driver hears of an application once, is told of its release when it had
accepted it and is still listed, gets messages only in between, and hears nothing
after its registration failed or its `capi_device_unregister` returned.
-/

namespace Capi4Linux.Capicore
open Capi4Linux.Capicore.Core Machine

/-- The driver of `d` accepted application `a`. -/
def Accepted (c : Core) (d a : Nat) : Prop := .capiRegister d a .NOERR ∈ c.calls

instance (c : Core) (d a : Nat) : Decidable (Accepted c d a) := inferInstanceAs (Decidable (_ ∈ _))

/-- A registered application and a listed device. -/
def Paired (c : Core) (d a : Nat) : Prop := d ∈ c.capiDevsList ∧ a ∈ c.capiApplsList

instance (c : Core) (d a : Nat) : Decidable (Paired c d a) := inferInstanceAs (Decidable (_ ∧ _))

/-- The driver of `d` is asked to register `a`. -/
def DrvCall.registers (d a : Nat) : DrvCall → Bool
  | .capiRegister d' a' _ => d' = d ∧ a' = a
  | _ => false

/-- The device whose driver is called. -/
def DrvCall.dev : DrvCall → Nat
  | .capiRegister d _ _ => d
  | .capiRelease d _ => d
  | .capiPutMessage d _ _ => d

/-- `capi_device_register` has failed, or `capi_device_unregister` has returned. -/
def DevPhase.Done : DevPhase → Prop
  | .returned _ => True
  | .put => True
  | _ => False

/-- The device cannot have been registered yet. -/
def DevPhase.Early : DevPhase → Prop
  | .absent => True
  | .alloced => True
  | _ => False

/-- The application that a section releases. -/
def Section.releases : Section → Option Nat
  | .applRelease a => some a
  | _ => none

/-- Section `l` releases `a` while `d` is listed and has accepted it. -/
def Releases (c : Core) (l : Section) (d a : Nat) : Prop :=
  l.releases = some a ∧ Accepted c d a ∧ d ∈ c.capiDevsList

instance (c : Core) (l : Section) (d a : Nat) : Decidable (Releases c l d a) :=
  inferInstanceAs (Decidable (_ ∧ _ ∧ _))

/-- The driver calls of one section: a registration for every pair that comes about, a release for every accepted
pair that the section ends, messages of registered and accepted applications, and none to a device that is done. -/
def CallsMeet (c : Core) (l : Section) (c' : Core) : Prop :=
  ∃ new, c'.calls = c.calls ++ new ∧
    (∀ d a, new.countP (DrvCall.registers d a) = if Paired c' d a ∧ ¬ Paired c d a then 1 else 0) ∧
    (∀ d a, new.count (.capiRelease d a) = if Releases c l d a then 1 else 0) ∧
    (∀ d a msg, .capiPutMessage d a msg ∈ new → c.applPhase a = .registered ∧ Accepted c d a) ∧
    ∀ e ∈ new, ¬ (c.devPhase e.dev).Done

/-! ## What a section can do -/

/-- Devices keep their numbers, and only a free slot gets a new one. -/
structure IdsKept (c c' : Core) : Prop where
  forth : ∀ d dev, c.device d = some dev → dev.id ≠ 0 → c'.device d = none ∨ ∃ dev', c'.device d = some dev' ∧ dev'.id = dev.id
  back : ∀ d dev', c'.device d = some dev' → dev'.id ≠ 0 → ∃ dev, c.device d = some dev ∧ dev.id = dev'.id

theorem IdsKept.of_same {c c' : Core} (device : c'.device = c.device) : IdsKept c c' :=
  ⟨fun _ dev live _ => .inr ⟨dev, by rw [device]; exact live, rfl⟩,
    fun _ dev live _ => ⟨dev, by rw [← device]; exact live, rfl⟩⟩

theorem IdsKept.of_update {c c' : Core} {d : Nat} {dev dev' : CapiDevice} (live : c.device d = some dev)
    (device : c'.device = Function.update c.device d (some dev')) (id : dev'.id = dev.id) : IdsKept c c' := by
  refine ⟨fun e v h nz => .inr ?_, fun e v h nz => ?_⟩
  · rw [device]
    by_cases eq : e = d
    · subst eq
      rw [live] at h
      cases h
      exact ⟨dev', by simp, id⟩
    · exact ⟨v, by rw [Function.update_of_ne eq]; exact h, rfl⟩
  · rw [device] at h
    by_cases eq : e = d
    · subst eq
      rw [Function.update_self] at h
      cases h
      exact ⟨dev, live, id.symm⟩
    · rw [Function.update_of_ne eq] at h
      exact ⟨v, h, rfl⟩

/-- Each device is kept, or loses a reference. -/
theorem IdsKept.of_dropped {c c' : Core} (device : ∀ d, c'.device d = c.device d ∨
    c'.device d = (c.device d).bind CapiDevice.dropped) : IdsKept c c' := by
  constructor
  · intro d dev live _
    rcases device d with same | dropped
    · exact .inr ⟨dev, same.trans live, rfl⟩
    · rw [live, Option.bind_some] at dropped
      cases left : dev.dropped with
      | none => exact .inl (dropped.trans left)
      | some dev' => exact .inr ⟨dev', dropped.trans left, (dropped_id left).1⟩
  · intro d dev' live' _
    rcases device d with same | dropped
    · exact ⟨dev', same.symm.trans live', rfl⟩
    · obtain ⟨dev, live, left⟩ := Option.bind_eq_some_iff.1 (dropped.symm.trans live')
      exact ⟨dev, live, (dropped_id left).1.symm⟩

/-- The applications, their bits and the listed devices stay, or devices leave the list. -/
structure Still (c c' : Core) : Prop where
  list : c'.capiApplsList = c.capiApplsList
  bits : ∀ a ∈ c.capiApplsList, (c'.appl a).devs = (c.appl a).devs
  applPhase : c'.applPhase = c.applPhase
  devs : ∀ d ∈ c'.capiDevsList, d ∈ c.capiDevsList
  early : ∀ d, (c'.devPhase d).Early → (c.devPhase d).Early
  ids : IdsKept c c'

/-- How a section can end. -/
inductive Effect (cfg : Config) (c : Core) : Section → Core → Prop
  | still {l : Section} {c' : Core} (other : l.releases = none) (still : Still c c') (calls : c'.calls = c.calls) :
    Effect cfg c l c'
  | entered {p : Put} {dev : CapiDevice} {c' : Core} (still : Still c c') (underway : Underway c p)
    (live : c.device p.dev = some dev) (free : dev.sem.writer = false)
    (calls : c'.calls = c.calls ++ [.capiPutMessage p.dev p.appl p.msg]) : Effect cfg c (.putEnter p) c'
  | bound {d i : Nat} {info : Nat → Capinfo0x10} {dev : CapiDevice} {c' : Core} (alloced : c.devPhase d = .alloced)
    (live : c.device d = some dev) (unnumbered : dev.id = 0) (free : c.capiDevsTable i = none)
    (list : c'.capiApplsList = c.capiApplsList) (applPhase : c'.applPhase = c.applPhase)
    (device : ∃ dev', dev'.id = i + 1 ∧ c'.device = Function.update c.device d (some dev'))
    (appl : ∀ a, c'.appl a = if a ∈ c.capiApplsList ∧ info a = .NOERR then (c.appl a).marked i else c.appl a)
    (calls : c'.calls = c.calls ++ c.capiApplsList.map fun a => .capiRegister d a (info a))
    (devs : c'.capiDevsList = c.capiDevsList ++ [d]) (devPhase : c'.devPhase = Function.update c.devPhase d .bound) :
    Effect cfg c (.deviceRegister d info) c'
  | joined {a : Nat} {datablklen : UInt32} {info : Nat → Capinfo0x10} {c' : Core} (fresh : c.applPhase a = .fresh)
    (perm : c'.capiApplsList.Perm (a :: c.capiApplsList)) (joined : Joined c a info c') :
    Effect cfg c (.applRegister a datablklen info) c'
  | released {a : Nat} {c1 : Core} (registered : c.applPhase a = .registered)
    (released : ReleasedTo c a 0 (0 + cfg.maxDevs) c1) :
    Effect cfg c (.applRelease a) ({ c1 with capiApplsList := c1.capiApplsList.erase a }.setApplPhase a .released)

section Effects

variable {cfg : Config} {c c' : Core}

theorem Still.of_devices (list : c'.capiApplsList = c.capiApplsList) (appl : c'.appl = c.appl)
    (applPhase : c'.applPhase = c.applPhase) (devs : ∀ d ∈ c'.capiDevsList, d ∈ c.capiDevsList)
    (early : ∀ d, (c'.devPhase d).Early → (c.devPhase d).Early) (ids : IdsKept c c') : Still c c' :=
  ⟨list, fun _ _ => by rw [appl], applPhase, devs, early, ids⟩

theorem Still.of_same (list : c'.capiApplsList = c.capiApplsList) (appl : c'.appl = c.appl)
    (applPhase : c'.applPhase = c.applPhase) (devs : c'.capiDevsList = c.capiDevsList)
    (devPhase : c'.devPhase = c.devPhase) (ids : IdsKept c c') : Still c c' := by
  apply Still.of_devices list appl applPhase ?_ ?_ ids
  · intro d listed
    rwa [← devs]
  · intro d early
    rwa [← devPhase]

theorem early_update {d : Nat} {p : DevPhase} (late : ¬ p.Early) (e : Nat)
    (early : (Function.update c.devPhase d p e).Early) : (c.devPhase e).Early := by
  by_cases eq : e = d
  · subst eq
    rw [Function.update_self] at early
    exact absurd early late
  · rwa [Function.update_of_ne eq] at early

/-- A device that is allocated has no number yet. -/
theorem Registry.alloc_still (h : Registry cfg c) : Still c (capiDeviceAlloc c true) := by
  have absent : c.device c.allocated = none := by
    have shape := h.shaped c.allocated
    rw [h.fresh _ (Nat.le_refl _)] at shape
    exact shape
  have device : (capiDeviceAlloc c true).device =
      Function.update c.device c.allocated (some ⟨0, ⟨false, 0⟩, 1, .zeroed⟩) := by
    simp [capiDeviceAlloc, setDevice, setDevPhase]
  have devPhase : (capiDeviceAlloc c true).devPhase = Function.update c.devPhase c.allocated .alloced := by
    simp [capiDeviceAlloc, setDevice, setDevPhase]
  refine .of_devices rfl rfl rfl (fun _ hd => hd) ?_ ⟨?_, ?_⟩
  · intro d early
    rw [devPhase] at early
    by_cases eq : d = c.allocated
    · subst eq
      rw [h.fresh _ (Nat.le_refl _)]
      trivial
    · rwa [Function.update_of_ne eq] at early
  · intro d dev live _
    have ne : d ≠ c.allocated := fun eq => by rw [eq, absent] at live; cases live
    exact .inr ⟨dev, by rw [device, Function.update_of_ne ne]; exact live, rfl⟩
  · intro d dev live nz
    rw [device] at live
    by_cases eq : d = c.allocated
    · subst eq
      rw [Function.update_self] at live
      cases live
      exact absurd rfl nz
    · rw [Function.update_of_ne eq] at live
      exact ⟨dev, live, rfl⟩

/-- What a section does to the pairs of devices and applications. -/
theorem step_effect (h : Registry cfg c) {l : Section} (allowed : Allowed c l) (narrow : InRange cfg c l)
    (run : step cfg c l = some c') : Effect cfg c l c' := by
  cases l with
  | deviceAlloc mem =>
    cases run
    refine .still rfl ?_ (by cases mem <;> rfl)
    cases mem with
    | false => exact .of_same rfl rfl rfl rfl rfl (.of_same rfl)
    | true => exact h.alloc_still
  | deviceRegister d info =>
    have shape := h.shaped d
    rw [show c.devPhase d = .alloced from allowed] at shape
    obtain ⟨dev, live, zero⟩ := shape
    rw [step, capiDeviceRegister_eq live] at run
    split at run
    · cases run
      refine .still rfl (.of_devices rfl rfl rfl (fun _ hd => hd) (early_update fun e => e) ?_) rfl
      exact .of_update live rfl zero.symm
    · rename_i i search
      cases run
      exact .bound allowed live zero (addCapiDeviceLoop_some _ search).2 rfl rfl ⟨_, rfl, rfl⟩ (fun _ => rfl) rfl rfl rfl
  | deviceRegisterSysfs d res =>
    cases run
    unfold capiDeviceRegisterSysfs
    split
    · exact .still rfl (.of_devices rfl rfl rfl (fun _ hd => hd) (early_update fun e => e) (.of_same rfl)) rfl
    · exact .still rfl (.of_devices rfl rfl rfl (fun _ hd => hd) (early_update fun e => e) (.of_same rfl)) rfl
  | deviceUnlink d =>
    obtain ⟨dev, live⟩ : ∃ dev, c.device d = some dev := h.live (by rcases allowed with on | on <;> rw [on] <;> rfl)
    rw [step, unlinkCapiDevice_eq live] at run
    cases run
    refine .still rfl (.of_devices rfl rfl rfl (fun _ hd => List.mem_of_mem_erase hd) (early_update fun e => e) ?_) rfl
    exact .of_update live rfl rfl
  | deviceDrain d =>
    obtain ⟨dev, live⟩ : ∃ dev, c.device d = some dev := h.live (by obtain ⟨⟨err, on⟩, -⟩ := allowed; rw [on]; rfl)
    rw [step, drainCapiDevice_eq live] at run
    cases run
    refine .still rfl (.of_devices rfl rfl rfl (fun _ hd => hd) (early_update fun e => e) ?_) rfl
    exact .of_update live rfl rfl
  | devicePut d =>
    obtain ⟨dev, live⟩ : ∃ dev, c.device d = some dev :=
      h.live (by rcases allowed with on | ⟨err, on⟩ <;> rw [on] <;> rfl)
    rw [step, capiDevicePut_eq live] at run
    cases run
    refine .still rfl (.of_devices rfl rfl rfl (fun _ hd => hd) (early_update fun e => e) ?_) rfl
    apply IdsKept.of_dropped
    intro e
    rcases eq_or_ne e d with rfl | other
    · rw [live]
      exact .inr (Function.update_self _ _ _)
    · exact .inl (Function.update_of_ne other _ _)
  | applRegister a datablklen info =>
    obtain ⟨r, c2, run', -, joined, refused⟩ := h.applRegister allowed datablklen info narrow
    rw [step, run'] at run
    cases run
    by_cases ok : r = .NOERR
    · exact .joined allowed (joined ok).2 (joined ok).1
    · obtain ⟨⟨appl, frame⟩, others⟩ := refused ok
      have new := h.listed.unlisted allowed
      refine .still rfl ⟨by rw [frame], ?_, by rw [frame], ?_, ?_, ?_⟩ (by rw [frame])
      · intro b hb
        rw [others b fun e => new (e ▸ hb)]
      · rw [frame]; exact fun _ hd => hd
      · rw [frame]; exact fun _ he => he
      · rw [frame]; exact (.of_same rfl)
  | applRelease a =>
    obtain ⟨r, c1, run', released, -⟩ := h.applRelease allowed.1 allowed.2
    rw [step, run'] at run
    cases run
    exact .released allowed.1 released
  | applSignalError a info =>
    cases run
    unfold capiApplSignalError
    dsimp only
    split
    · refine .still rfl ⟨rfl, fun b _ => ?_, rfl, fun _ hd => hd, fun _ he => he,
        (.of_same rfl)⟩ rfl
      by_cases eq : b = a
      · subst eq; simp [setAppl]
      · simp [setAppl, eq]
    · exact .still rfl (.of_same rfl rfl rfl rfl rfl (.of_same rfl)) rfl
  | putLookup a msg =>
    simp only [step, Option.map_eq_some_iff] at run
    obtain ⟨r, -, rfl⟩ := run
    cases r with
    | inl info => exact .still rfl (.of_same rfl rfl rfl rfl rfl (.of_same rfl)) rfl
    | inr p =>
      exact .still rfl (.of_same rfl rfl rfl rfl rfl (.of_same rfl)) rfl
  | putEnter p =>
    have underway := h.puts p allowed.1
    obtain ⟨dev, live, -, -⟩ := h.underway_live underway
    rw [step, capiPutMessageEnter_eq live] at run
    by_cases writer : dev.sem.writer
    · rw [if_pos writer] at run
      cases run
      exact .still rfl (.of_same rfl rfl rfl rfl rfl (.of_same rfl)) rfl
    · rw [if_neg writer] at run
      cases run
      refine .entered (.of_same rfl rfl rfl rfl rfl ?_) underway live (by simpa using writer) rfl
      exact .of_update live rfl rfl
  | putLeave p info =>
    obtain ⟨dev, live, -, -⟩ := h.underway_live (h.puts p allowed.1)
    rw [step, capiPutMessageLeave_eq live] at run
    cases run
    refine .still rfl (.of_same rfl rfl rfl rfl rfl ?_) rfl
    exact .of_update live rfl rfl

/-- The calls so far: who is on the list has its bits by acceptance, every pair was registered once and released
at most once. -/
structure Traced (c : Core) : Prop where
  accepted : ∀ a ∈ c.capiApplsList, ∀ d dev, c.device d = some dev → dev.id ≠ 0 →
    ((c.appl a).devs (dev.id - 1) = true ↔ Accepted c d a)
  once : ∀ d a, c.calls.countP (DrvCall.registers d a) ≤ 1
  paired : ∀ d a, Paired c d a → c.calls.countP (DrvCall.registers d a) = 1
  early : ∀ d a, c.applPhase a = .fresh ∨ (c.devPhase d).Early → c.calls.countP (DrvCall.registers d a) = 0
  released : ∀ d a, c.calls.count (.capiRelease d a) ≤ 1
  holding : ∀ d a, c.applPhase a ≠ .released → c.calls.count (.capiRelease d a) = 0

/-- A device that accepted an application was asked. -/
theorem Accepted.registers {d a : Nat} (h : Accepted c d a) : 0 < c.calls.countP (DrvCall.registers d a) :=
  List.countP_pos_iff.2 ⟨_, h, by simp [DrvCall.registers]⟩

theorem traced_init : Traced Core.init := by
  refine ⟨?_, ?_, ?_, ?_, ?_, ?_⟩ <;> simp [Core.init, Paired]

/-- A pair that comes about has not been registered before. -/
def Fresh (c c' : Core) : Prop :=
  ∀ d a, Paired c' d a → ¬ Paired c d a → c.applPhase a = .fresh ∨ (c.devPhase d).Early

/-- The counts follow from the calls of the section. -/
theorem Traced.step {l : Section} (t : Traced c) (calls : CallsMeet c l c') (new : Fresh c c')
    (fresh : ∀ a, c'.applPhase a = .fresh → c.applPhase a = .fresh)
    (registered : ∀ d a, Paired c' d a → c'.applPhase a ≠ .fresh ∧ ¬ (c'.devPhase d).Early)
    (early : ∀ d, (c'.devPhase d).Early → (c.devPhase d).Early)
    (releases : ∀ d a, Releases c l d a → c.applPhase a = .registered ∧ c'.applPhase a = .released)
    (gone : ∀ a, c.applPhase a = .released → c'.applPhase a = .released)
    (accepted : ∀ a ∈ c'.capiApplsList, ∀ d dev, c'.device d = some dev → dev.id ≠ 0 →
      ((c'.appl a).devs (dev.id - 1) = true ↔ Accepted c' d a)) : Traced c' := by
  obtain ⟨tail, eq, register, release, -, -⟩ := calls
  have counts : ∀ d a, c'.calls.countP (DrvCall.registers d a) =
      c.calls.countP (DrvCall.registers d a) + if Paired c' d a ∧ ¬ Paired c d a then 1 else 0 := fun d a => by
    rw [eq, List.countP_append, register]
  have releasing : ∀ d a, c'.calls.count (.capiRelease d a) =
      c.calls.count (.capiRelease d a) + if Releases c l d a then 1 else 0 := fun d a => by
    rw [eq, List.count_append, release]
  refine ⟨accepted, fun d a => ?_, fun d a pair => ?_, fun d a young => ?_, fun d a => ?_, fun d a held => ?_⟩
  · rw [counts]
    split
    · rename_i both
      rw [t.early d a (new d a both.1 both.2)]
    · exact t.once d a
  · rw [counts]
    by_cases before : Paired c d a
    · rw [if_neg fun both => both.2 before, t.paired d a before]
    · rw [if_pos ⟨pair, before⟩, t.early d a (new d a pair before)]
  · rw [counts, if_neg]
    · rw [t.early d a (young.imp (fresh a) (early d))]
    · rintro ⟨pair, -⟩
      obtain ⟨old, late⟩ := registered d a pair
      exact young.elim old late
  · rw [releasing]
    split
    · rename_i now
      rw [t.holding d a (by rw [(releases d a now).1]; exact nofun)]
    · exact t.released d a
  · rw [releasing, if_neg fun now => held (releases d a now).2]
    exact t.holding d a fun e => held (gone a e)

/-- On a list without repetition, asking `d` for each member asks it once for each. -/
theorem countP_registers {as : List Nat} (nodup : as.Nodup) (d : Nat) (info : Nat → Capinfo0x10) (e b : Nat) :
    (as.map fun a => DrvCall.capiRegister d a (info a)).countP (DrvCall.registers e b) =
      if d = e ∧ b ∈ as then 1 else 0 := by
  rw [List.countP_map]
  have same : (DrvCall.registers e b ∘ fun a => DrvCall.capiRegister d a (info a)) = fun a => decide (d = e) && a == b := by
    funext a
    simp only [Function.comp, DrvCall.registers]
    grind
  rw [same]
  by_cases eq : d = e
  · simp only [eq, decide_true, Bool.true_and, true_and]
    exact (List.Nodup.count nodup : as.count b = _)
  · simp [eq]

/-- The same from the application's side. -/
theorem countP_registers' {ds : List Nat} (nodup : ds.Nodup) (a : Nat) (info : Nat → Capinfo0x10) (e b : Nat) :
    (ds.map fun d => DrvCall.capiRegister d a (info d)).countP (DrvCall.registers e b) =
      if a = b ∧ e ∈ ds then 1 else 0 := by
  rw [List.countP_map]
  have same : (DrvCall.registers e b ∘ fun d => DrvCall.capiRegister d a (info d)) = fun d => decide (a = b) && d == e := by
    funext d
    simp only [Function.comp, DrvCall.registers]
    grind
  rw [same]
  by_cases eq : a = b
  · simp only [eq, decide_true, Bool.true_and, true_and]
    exact (List.Nodup.count nodup : ds.count e = _)
  · simp [eq]

/-- A listed device is not done with. -/
theorem listed_notDone {p : DevPhase} (on : p.Listed) : ¬ p.Done := by
  cases p with
  | returned => exact on.elim
  | put => exact on.elim
  | _ => exact fun e => e

/-- A listed device is past its start. -/
theorem listed_notEarly {p : DevPhase} (on : p.Listed) : ¬ p.Early := by
  cases p with
  | absent => exact on.elim
  | alloced => exact on.elim
  | _ => exact fun e => e

theorem Still.paired (still : Still c c') {d a : Nat} (pair : Paired c' d a) : Paired c d a :=
  ⟨still.devs d pair.1, still.list ▸ pair.2⟩

theorem not_releases {l : Section} (other : l.releases = none) (d a : Nat) : ¬ Releases c l d a := by
  rintro ⟨now, -⟩
  rw [other] at now
  cases now

/-- A section that only asks for registrations, once for each pair that comes about. -/
theorem CallsMeet.of_asks {l : Section} {new : List DrvCall} (other : l.releases = none) (calls : c'.calls = c.calls ++ new)
    (register : ∀ d a, new.countP (DrvCall.registers d a) = if Paired c' d a ∧ ¬ Paired c d a then 1 else 0)
    (asks : ∀ e ∈ new, ∃ d a info, e = .capiRegister d a info ∧ ¬ (c.devPhase d).Done) : CallsMeet c l c' := by
  refine ⟨new, calls, register, fun d a => ?_, fun d a msg member => ?_, fun e member => ?_⟩
  · rw [if_neg (not_releases other d a)]
    apply List.count_eq_zero.2
    intro member
    obtain ⟨_, _, _, eq, -⟩ := asks _ member
    cases eq
  · obtain ⟨_, _, _, eq, -⟩ := asks _ member
    cases eq
  · obtain ⟨d, a, info, rfl, busy⟩ := asks e member
    exact busy

/-- A device that is done has its semaphore taken for writing. -/
theorem Registry.not_done (h : Registry cfg c) {d : Nat} {dev : CapiDevice} (live : c.device d = some dev) (nz : dev.id ≠ 0)
    (free : dev.sem.writer = false) : ¬ (c.devPhase d).Done := by
  intro done
  have shape := h.shaped d
  rw [live] at shape
  have writer : dev.sem.writer = true := by
    generalize c.devPhase d = q at done shape
    cases q with
    | returned => obtain ⟨_, ⟨⟩, off⟩ := shape; exact (off nz).2
    | put => exact (shape dev rfl nz).2
    | _ => exact done.elim
  rw [free] at writer
  cases writer

/-- Drivers are told that an application is gone that they accepted and that are still listed. -/
theorem calls_released (h : Registry cfg c) (t : Traced c) {a : Nat} {c1 : Core} (registered : c.applPhase a = .registered)
    (released : ReleasedTo c a 0 (0 + cfg.maxDevs) c1) :
    CallsMeet c (.applRelease a) ({ c1 with capiApplsList := c1.capiApplsList.erase a }.setApplPhase a .released) := by
  obtain ⟨table, device, calls, frame, nodup, mem⟩ := released.frame
  have member := (h.listed.phase a).2 registered
  refine ⟨calls, by rw [frame]; rfl, fun e b => ?_, fun e b => ?_, ?_, ?_⟩
  · have none : calls.countP (DrvCall.registers e b) = 0 := by
      rw [List.countP_eq_zero]
      intro x hx
      obtain ⟨d, dev, rfl, -⟩ := (mem x).1 hx
      exact Bool.false_ne_true
    rw [none, if_neg]
    rintro ⟨⟨he, hb⟩, before⟩
    refine before ⟨?_, ?_⟩
    · rw [frame] at he; exact he
    · rw [frame] at hb; exact List.mem_of_mem_erase hb
  · rw [nodup.count]
    refine if_congr ?_ rfl rfl
    rw [mem]
    constructor
    · rintro ⟨d, dev, same, live, ⟨low, -, bit⟩, entry⟩
      cases same
      have shape := h.shaped e
      rw [live] at shape
      exact ⟨rfl, (t.accepted a member e dev live (by omega)).1 bit, (h.devs.2 e).2 ((shape.entry (by omega)).1 entry)⟩
    · rintro ⟨same, accepted, he⟩
      cases same
      obtain ⟨dev, live, nz⟩ := h.listed_live e he
      have shape := h.shaped e
      rw [live] at shape
      have bound := h.number e dev live
      exact ⟨e, dev, rfl, live, ⟨by omega, by omega, (t.accepted a member e dev live nz).2 accepted⟩,
        (shape.entry nz).2 ((h.devs.2 e).1 he)⟩
  · intro d b msg new
    obtain ⟨_, _, eq, -⟩ := (mem _).1 new
    cases eq
  · intro x hx
    obtain ⟨d, dev, rfl, live, ⟨low, -, -⟩, entry⟩ := (mem x).1 hx
    have shape := h.shaped d
    rw [live] at shape
    exact listed_notDone ((shape.entry (by omega)).1 entry)

/-- Every section calls the drivers as it should. -/
theorem Effect.calls {l : Section} (h : Registry cfg c) (t : Traced c) (effect : Effect cfg c l c') : CallsMeet c l c' := by
  cases effect with
  | still other still calls =>
    have none : c'.calls = c.calls ++ [] := by rw [calls, List.append_nil]
    refine .of_asks other none (fun d a => ?_) (by simp)
    rw [if_neg fun both => both.2 (still.paired both.1)]
    rfl
  | @entered p dev _ still underway live free calls =>
    obtain ⟨member, i, bit, slot⟩ := underway
    obtain ⟨dev', live', nz, bit'⟩ := h.underway_live ⟨member, i, bit, slot⟩
    rw [live] at live'
    cases live'
    refine ⟨_, calls, fun d a => ?_, fun d a => ?_, ?_, ?_⟩
    · rw [if_neg fun both => both.2 (still.paired both.1)]
      rfl
    · rw [if_neg (not_releases rfl d a)]
      simp
    · intro d a msg new
      simp only [List.mem_singleton, DrvCall.capiPutMessage.injEq] at new
      obtain ⟨rfl, rfl, -⟩ := new
      exact ⟨(h.listed.phase _).1 member, (t.accepted _ member _ dev live nz).1 bit'⟩
    · intro e new
      obtain rfl := List.mem_singleton.1 new
      exact h.not_done live nz free
  | @bound d i info dev _ alloced live unnumbered free list applPhase device appl calls devs devPhase =>
    have off : d ∉ c.capiDevsList := fun hd => by
      have := (h.devs.2 d).1 hd
      rw [alloced] at this
      exact this
    refine .of_asks rfl calls (fun e b => ?_) ?_
    · rw [countP_registers h.listed.numbered.nodup]
      refine if_congr ?_ rfl rfl
      unfold Paired
      rw [devs, list, List.mem_append, List.mem_singleton]
      constructor
      · rintro ⟨rfl, hb⟩
        exact ⟨⟨.inr rfl, hb⟩, fun before => off before.1⟩
      · rintro ⟨⟨old | rfl, hb⟩, before⟩
        · exact absurd ⟨old, hb⟩ before
        · exact ⟨rfl, hb⟩
    · intro e new
      obtain ⟨a, -, rfl⟩ := List.mem_map.1 new
      refine ⟨_, _, _, rfl, ?_⟩
      rw [alloced]
      exact fun e => e
  | @joined a _ info _ fresh perm joined =>
    obtain ⟨list, appl, device, frame⟩ := joined.frame
    have absent := h.listed.unlisted fresh
    have devs : c'.capiDevsList = c.capiDevsList := by rw [frame]
    have calls : c'.calls = c.calls ++ c.capiDevsList.map fun d => .capiRegister d a (info d) := by rw [frame]
    refine .of_asks rfl calls (fun e b => ?_) ?_
    · rw [countP_registers' h.devs.1]
      refine if_congr ?_ rfl rfl
      unfold Paired
      rw [devs, perm.mem_iff, List.mem_cons]
      constructor
      · rintro ⟨rfl, he⟩
        exact ⟨⟨he, .inl rfl⟩, fun before => absent before.2⟩
      · rintro ⟨⟨he, rfl | old⟩, before⟩
        · exact ⟨rfl, he⟩
        · exact absurd ⟨he, old⟩ before
    · intro e new
      obtain ⟨d, hd, rfl⟩ := List.mem_map.1 new
      exact ⟨_, _, _, rfl, listed_notDone ((h.devs.2 d).1 hd)⟩
  | released registered released => exact calls_released h t registered released

theorem ReleasedTo.ids {a lo hi : Nat} (h : ReleasedTo c a lo hi c') : IdsKept c c' := by
  apply IdsKept.of_dropped
  intro d
  rw [h.device d]
  cases c.device d with
  | none => exact .inl rfl
  | some dev =>
    rw [Option.bind_some, Option.bind_some]
    split
    · exact .inr rfl
    · exact .inl rfl

/-- Bits still mean acceptance when neither bits nor numbers change and no driver answers a registration. -/
theorem Traced.accepted_of (t : Traced c) (list : ∀ a ∈ c'.capiApplsList, a ∈ c.capiApplsList)
    (bits : ∀ a ∈ c'.capiApplsList, (c'.appl a).devs = (c.appl a).devs) (ids : IdsKept c c')
    (calls : ∀ d a, Accepted c' d a ↔ Accepted c d a) :
    ∀ a ∈ c'.capiApplsList, ∀ d dev, c'.device d = some dev → dev.id ≠ 0 →
      ((c'.appl a).devs (dev.id - 1) = true ↔ Accepted c' d a) := by
  intro a ha d dev' live' nz
  obtain ⟨dev, live, id⟩ := ids.back d dev' live' nz
  rw [bits a ha, calls, ← id]
  exact t.accepted a (list a ha) d dev live (id ▸ nz)

theorem accepted_append_iff {α : Type} {xs : List α} {call : α → DrvCall} (calls : c'.calls = c.calls ++ xs.map call)
    (d a : Nat) : Accepted c' d a ↔ Accepted c d a ∨ ∃ x ∈ xs, call x = .capiRegister d a .NOERR := by
  unfold Accepted
  rw [calls, List.mem_append, List.mem_map]

/-- Nobody has accepted before the device is registered, or the application. -/
theorem Traced.unaccepted (t : Traced c) {d a : Nat} (young : c.applPhase a = .fresh ∨ (c.devPhase d).Early) :
    ¬ Accepted c d a := by
  intro old
  have asked := old.registers
  rw [t.early d a young] at asked
  exact Nat.lt_irrefl _ asked

/-- The slot of a device that is registered gets the answers of its driver. -/
theorem Traced.accepted_bound (h : Registry cfg c) (t : Traced c) {d i : Nat} {info : Nat → Capinfo0x10} {dev : CapiDevice}
    (alloced : c.devPhase d = .alloced) (free : c.capiDevsTable i = none) (id : dev.id = i + 1)
    (list : c'.capiApplsList = c.capiApplsList) (device : c'.device = Function.update c.device d (some dev))
    (appl : ∀ a, c'.appl a = if a ∈ c.capiApplsList ∧ info a = .NOERR then (c.appl a).marked i else c.appl a)
    (calls : c'.calls = c.calls ++ c.capiApplsList.map fun a => .capiRegister d a (info a)) :
    ∀ a ∈ c'.capiApplsList, ∀ e v, c'.device e = some v → v.id ≠ 0 →
      ((c'.appl a).devs (v.id - 1) = true ↔ Accepted c' e a) := by
  intro a ha e v live nz
  rw [list] at ha
  have accepted : Accepted c' e a ↔ Accepted c e a ∨ (e = d ∧ info a = .NOERR) := by
    rw [accepted_append_iff calls]
    refine or_congr Iff.rfl ⟨?_, ?_⟩
    · rintro ⟨b, hb, same⟩
      simp only [DrvCall.capiRegister.injEq] at same
      obtain ⟨rfl, rfl, answer⟩ := same
      exact ⟨rfl, answer⟩
    · rintro ⟨rfl, answer⟩
      exact ⟨a, ha, by rw [answer]⟩
  rw [accepted, appl a]
  rw [device] at live
  by_cases here : e = d
  · subst here
    rw [Function.update_self] at live
    cases live
    have clear : (c.appl a).devs i = false := by
      by_contra bit
      have taken := h.bits a ha i (by simpa using bit)
      rw [free] at taken
      cases taken
    have none : ¬ Accepted c e a := t.unaccepted (.inr (by rw [alloced]; trivial))
    rw [id]
    by_cases ok : info a = .NOERR
    · simp [ha, ok, CapiAppl.marked]
    · simp [ok, clear, none]
  · rw [Function.update_of_ne here] at live
    have other : v.id - 1 ≠ i := by
      intro same
      have taken := (h.slots i e).2 ⟨v, live, by omega⟩
      rw [free] at taken
      cases taken
    have bit : ((if a ∈ c.capiApplsList ∧ info a = .NOERR then (c.appl a).marked i else c.appl a).devs (v.id - 1)) =
        (c.appl a).devs (v.id - 1) := by
      split
      · simp [CapiAppl.marked, other]
      · rfl
    rw [bit]
    simp only [here, false_and, or_false]
    exact t.accepted a ha e v live nz

/-- An application that is registered gets the answers of all drivers. -/
theorem Traced.accepted_joined (h : Registry cfg c) (t : Traced c) {a : Nat} {info : Nat → Capinfo0x10}
    (fresh : c.applPhase a = .fresh) (perm : c'.capiApplsList.Perm (a :: c.capiApplsList)) (joined : Joined c a info c') :
    ∀ b ∈ c'.capiApplsList, ∀ d v, c'.device d = some v → v.id ≠ 0 →
      ((c'.appl b).devs (v.id - 1) = true ↔ Accepted c' d b) := by
  obtain ⟨list, appl, device, frame⟩ := joined.frame
  intro b hb d v live' nz
  have origin : ∃ dev, c.device d = some dev ∧ dev.id = v.id := by
    rw [joined.device] at live'
    split at live'
    · obtain ⟨dev, live, rfl⟩ := Option.map_eq_some_iff.1 live'
      exact ⟨dev, live, rfl⟩
    · exact ⟨v, live', rfl⟩
  obtain ⟨dev, live, id⟩ := origin
  have calls : c'.calls = c.calls ++ c.capiDevsList.map fun d => .capiRegister d a (info d) := by rw [frame]
  have accepted : Accepted c' d b ↔ Accepted c d b ∨ (b = a ∧ d ∈ c.capiDevsList ∧ info d = .NOERR) := by
    rw [accepted_append_iff calls]
    refine or_congr Iff.rfl ⟨?_, ?_⟩
    · rintro ⟨e, he, same⟩
      simp only [DrvCall.capiRegister.injEq] at same
      obtain ⟨rfl, rfl, answer⟩ := same
      exact ⟨rfl, he, answer⟩
    · rintro ⟨rfl, hd, answer⟩
      exact ⟨d, hd, by rw [answer]⟩
  rw [accepted, ← id]
  have nz : dev.id ≠ 0 := id ▸ nz
  by_cases same : b = a
  · subst same
    simp only [t.unaccepted (.inl fresh), true_and, false_or]
    exact h.joined_bit joined live nz
  · have hb : b ∈ c.capiApplsList := (List.mem_cons.1 (perm.subset hb)).resolve_left same
    rw [joined.others b same]
    simp only [same, false_and, or_false]
    exact t.accepted b hb d dev live nz

/-- The calls go on as the pairs do. -/
theorem Effect.traced {l : Section} (h : Registry cfg c) (h' : Registry cfg c') (t : Traced c)
    (effect : Effect cfg c l c') : Traced c' := by
  have calls := effect.calls h t
  have registered : ∀ d a, Paired c' d a → c'.applPhase a ≠ .fresh ∧ ¬ (c'.devPhase d).Early := by
    rintro d a ⟨hd, ha⟩
    refine ⟨?_, listed_notEarly ((h'.devs.2 d).1 hd)⟩
    rw [(h'.listed.phase a).1 ha]
    exact nofun
  cases effect with
  | still other still eq =>
    refine t.step calls ?_ (fun a e => still.applPhase ▸ e) registered still.early ?_
      (fun a e => still.applPhase.symm ▸ e) ?_
    · intro d a pair before
      exact absurd (still.paired pair) before
    · intro d a now
      exact absurd now (not_releases other d a)
    · exact t.accepted_of (fun a ha => still.list ▸ ha) (fun a ha => still.bits a (still.list ▸ ha)) still.ids
        fun d a => by rw [Accepted, eq, Accepted]
  | entered still underway live free eq =>
    refine t.step calls ?_ (fun a e => still.applPhase ▸ e) registered still.early ?_
      (fun a e => still.applPhase.symm ▸ e) ?_
    · intro d a pair before
      exact absurd (still.paired pair) before
    · rintro d a ⟨now, -⟩
      cases now
    · exact t.accepted_of (fun a ha => still.list ▸ ha) (fun a ha => still.bits a (still.list ▸ ha)) still.ids
        fun d a => by simp [Accepted, eq]
  | @bound d i info dev _ alloced live unnumbered free list applPhase device appl eq devs devPhase =>
    obtain ⟨dev', id, device⟩ := device
    refine t.step calls ?_ (fun a e => applPhase ▸ e) registered ?_ ?_ (fun a e => applPhase.symm ▸ e) ?_
    · rintro e a ⟨he, ha⟩ before
      rw [devs, List.mem_append, List.mem_singleton] at he
      rcases he with he | rfl
      · exact absurd ⟨he, list ▸ ha⟩ before
      · exact .inr (by rw [alloced]; trivial)
    · intro e early
      rw [devPhase] at early
      exact early_update (p := .bound) (fun late => late) e early
    · rintro e a ⟨now, -⟩
      cases now
    · exact t.accepted_bound h alloced free id list device appl eq
  | @joined a _ info _ fresh perm joined =>
    obtain ⟨list, appl, device, frame⟩ := joined.frame
    have phase : c'.applPhase = Function.update c.applPhase a .registered := by rw [frame]
    have devPhase : c'.devPhase = c.devPhase := by rw [frame]
    have list' : c'.capiDevsList = c.capiDevsList := by rw [frame]
    refine t.step calls ?_ ?_ registered (fun d e => devPhase ▸ e) ?_ ?_ ?_
    · rintro d b ⟨hd, hb⟩ before
      rcases List.mem_cons.1 (perm.subset hb) with rfl | hb
      · exact .inl fresh
      · exact absurd ⟨list' ▸ hd, hb⟩ before
    · intro b e
      rw [phase] at e
      by_cases same : b = a
      · rw [same]; exact fresh
      · rwa [Function.update_of_ne same] at e
    · rintro d b ⟨now, -⟩
      cases now
    · intro b e
      rw [phase]
      by_cases same : b = a
      · rw [same, fresh] at e; cases e
      · rwa [Function.update_of_ne same]
    · exact t.accepted_joined h fresh perm joined
  | @released a c1 registered' released =>
    have ids := released.ids
    obtain ⟨table, device, tail, frame, nodup, mem⟩ := released.frame
    refine t.step calls ?_ ?_ registered ?_ ?_ ?_ ?_
    · rintro d b ⟨hd, hb⟩ before
      refine absurd ⟨?_, ?_⟩ before
      · rw [frame] at hd; exact hd
      · rw [frame] at hb; exact List.mem_of_mem_erase hb
    · intro b e
      change Function.update c1.applPhase a .released b = .fresh at e
      by_cases same : b = a
      · rw [same, Function.update_self] at e; cases e
      · rw [Function.update_of_ne same, frame] at e; exact e
    · intro d e
      rw [frame] at e; exact e
    · rintro d b ⟨now, -⟩
      cases now
      exact ⟨registered', Function.update_self _ _ _⟩
    · intro b e
      change Function.update c1.applPhase a .released b = .released
      by_cases same : b = a
      · rw [same, Function.update_self]
      · rw [Function.update_of_ne same, frame]; exact e
    · refine t.accepted_of ?_ ?_ ⟨ids.forth, ids.back⟩ ?_
      · intro b hb
        rw [frame] at hb; exact List.mem_of_mem_erase hb
      · intro b _
        rw [frame]; rfl
      · intro d b
        unfold Accepted
        rw [frame]
        change _ ∈ c.calls ++ tail ↔ _
        rw [List.mem_append]
        refine ⟨fun both => both.elim id fun new => ?_, .inl⟩
        obtain ⟨_, _, same, -⟩ := (mem _).1 new
        cases same

/-- A slot keeps its device until the device is freed, and is empty then. -/
def SlotKept (c c' : Core) : Prop :=
  ∀ i d, c.capiDevsTable i = some d → c'.capiDevsTable i = some d ∨ (c'.capiDevsTable i = none ∧ c'.device d = none)

theorem IdsKept.slotKept (slots : Slots c) (slots' : Slots c') (ids : IdsKept c c') : SlotKept c c' := by
  intro i d slot
  obtain ⟨dev, live, id⟩ := (slots i d).1 slot
  rcases ids.forth d dev live (by omega) with gone | ⟨dev', live', id'⟩
  · refine .inr ⟨?_, gone⟩
    cases now : c'.capiDevsTable i with
    | none => rfl
    | some e =>
      -- whoever is there now was there before
      obtain ⟨dev', live', id'⟩ := (slots' i e).1 now
      obtain ⟨dev2, live2, id2⟩ := ids.back e dev' live' (by omega)
      have slot2 := (slots i e).2 ⟨dev2, live2, by omega⟩
      rw [slot] at slot2
      cases slot2
      rw [gone] at live'
      cases live'
  · exact .inl ((slots' i d).2 ⟨dev', live', by omega⟩)

/-- A slot is kept until it is drained. -/
theorem Effect.slotKept {l : Section} (h : Registry cfg c) (h' : Registry cfg c') (effect : Effect cfg c l c') :
    SlotKept c c' := by
  cases effect with
  | still other still eq => exact still.ids.slotKept h.slots h'.slots
  | entered still underway live free eq => exact still.ids.slotKept h.slots h'.slots
  | @bound d i info dev _ alloced live unnumbered free list applPhase device appl eq devs devPhase =>
    obtain ⟨dev', id, device⟩ := device
    intro j e slot
    obtain ⟨v, live', id'⟩ := (h.slots j e).1 slot
    refine .inl ((h'.slots j e).2 ⟨v, ?_, id'⟩)
    have other : e ≠ d := fun same => by
      rw [same, live] at live'
      cases live'
      omega
    rw [device, Function.update_of_ne other]
    exact live'
  | joined fresh perm joined =>
    intro i d slot
    obtain ⟨dev, live, id⟩ := (h.slots i d).1 slot
    have stays : ∃ dev', c'.device d = some dev' ∧ dev'.id = dev.id := by
      rw [joined.device]
      split
      · exact ⟨dev.held 1, by rw [live]; rfl, rfl⟩
      · exact ⟨dev, live, rfl⟩
    obtain ⟨dev', live', id'⟩ := stays
    exact .inl ((h'.slots i d).2 ⟨dev', live', id'.trans id⟩)
  | released registered released =>
    have ids := released.ids
    exact IdsKept.slotKept h.slots h'.slots ⟨ids.forth, ids.back⟩

/-- One section from a good state. -/
theorem step_good (h : Registry cfg c) (t : Traced c) {l : Section} (allowed : Allowed c l)
    (narrow : InRange cfg c l) :
    ∃ c', step cfg c l = some c' ∧ (Registry cfg c' ∧ Traced c') ∧ CallsMeet c l c' ∧ SlotKept c c' := by
  obtain ⟨c', run, h'⟩ := h.step allowed narrow
  have effect := step_effect h allowed narrow run
  exact ⟨c', run, ⟨h', effect.traced h h' t⟩, effect.calls h t, effect.slotKept h h'⟩

end Effects

/-! ## Runs -/

/-- Table, bits and counts describe which registered application holds which device: a bit leads to the live device
with that number, whose driver accepted the application, and the references beyond the driver's own are those of
the applications with the bit. -/
structure InOrder (c : Core) : Prop where
  registered : c.capiApplsList.Nodup ∧ ∀ a, a ∈ c.capiApplsList ↔ c.applPhase a = .registered
  bits : ∀ a, c.applPhase a = .registered → ∀ i, (c.appl a).devs i = true →
    ∃ d dev, c.capiDevsTable i = some d ∧ c.device d = some dev ∧ dev.id = i + 1 ∧ Accepted c d a
  refs : ∀ d dev, c.device d = some dev → dev.refs = own (c.devPhase d) + holders c dev.id

/-- A registry with its trace is in order. -/
theorem Registry.inOrder {cfg : Config} {c : Core} (h : Registry cfg c) (t : Traced c) : InOrder c := by
  refine ⟨⟨h.listed.numbered.nodup, h.listed.phase⟩, fun a registered i bit => ?_, fun d dev live => (h.refs d dev live).1⟩
  have member := (h.listed.phase a).2 registered
  obtain ⟨d, slot⟩ := Option.isSome_iff_exists.1 (h.bits a member i bit)
  obtain ⟨dev, live, id⟩ := (h.slots i d).1 slot
  refine ⟨d, dev, slot, live, id, (t.accepted a member d dev live (by omega)).1 ?_⟩
  rw [id]
  exact bit

/-- Drivers were asked once for each pair, and heard of each release at most once. -/
structure Disciplined (c : Core) : Prop where
  paired : ∀ d a, Paired c d a → c.calls.countP (DrvCall.registers d a) = 1
  once : ∀ d a, c.calls.countP (DrvCall.registers d a) ≤ 1
  released : ∀ d a, c.calls.count (.capiRelease d a) ≤ 1

section Runs

variable {cfg : Config} {ls : List Section}

/-- Runs from a state in which registry and calls agree. -/
theorem run_good {c : Core} (h : Registry cfg c) (t : Traced c)
    (allowed : Meets (step cfg) (fun c l => Allowed c l ∧ InRange cfg c l) c ls) :
    (∃ c', exec (step cfg) c ls = some c') ∧ Always (step cfg) (fun c => Registry cfg c ∧ Traced c) c ls ∧
      Each (step cfg) (fun c l c' => CallsMeet c l c' ∧ SlotKept c c') c ls := by
  have good : ∀ c l, Registry cfg c ∧ Traced c → Allowed c l ∧ InRange cfg c l →
      ∃ c', step cfg c l = some c' ∧ (Registry cfg c' ∧ Traced c') ∧ CallsMeet c l c' ∧ SlotKept c c' :=
    fun c l h ok => step_good h.1 h.2 ok.1 ok.2
  have only : ∀ c l c', Registry cfg c ∧ Traced c → Allowed c l ∧ InRange cfg c l → step cfg c l = some c' →
      (CallsMeet c l c' ∧ SlotKept c c') ∧ Registry cfg c' ∧ Traced c' := by
    intro c l c' h ok run
    obtain ⟨c2, run2, keep, meets⟩ := good c l h ok
    rw [run] at run2
    cases run2
    exact ⟨meets, keep⟩
  refine ⟨?_, ?_, each_of_inv _ only ⟨h, t⟩ allowed⟩
  · obtain ⟨c', run, -⟩ := exec_of_inv (fun c l h ok => (good c l h ok).imp fun _ s => ⟨s.1, s.2.1⟩) ⟨h, t⟩ allowed
    exact ⟨c', run⟩
  · exact always_of_inv (fun c l c' h ok run => (only c l c' h ok run).2) ⟨h, t⟩ allowed

theorem inRange_of_small {c : Core} (small : cfg.maxAppls < 65535) (l : Section) : InRange cfg c l := by
  cases l with
  | applRegister => exact fun _ => .inl small
  | _ => trivial

/-- Below 65535 numbers no registration wraps. -/
theorem run_small (small : cfg.maxAppls < 65535) (allowed : Meets (step cfg) Allowed Core.init ls) :
    (∃ c', exec (step cfg) Core.init ls = some c') ∧
      Always (step cfg) (fun c => Registry cfg c ∧ Traced c) Core.init ls ∧
      Each (step cfg) (fun c l c' => CallsMeet c l c' ∧ SlotKept c c') Core.init ls :=
  run_good (registry_init cfg) traced_init (allowed.mono fun _ l ok => ⟨ok, inRange_of_small small l⟩)

/-- In every run no `BUG_ON` fires and no freed device is looked at, the registry is in order in every state, and
a slot changes hands only after its device was freed. -/
theorem registry_in_order (small : cfg.maxAppls < 65535) (allowed : Meets (step cfg) Allowed Core.init ls) :
    (∃ c, exec (step cfg) Core.init ls = some c) ∧ Always (step cfg) InOrder Core.init ls ∧
      Each (step cfg) (fun c _ c' => SlotKept c c') Core.init ls := by
  obtain ⟨run, always, each⟩ := run_small small allowed
  exact ⟨run, always.mono fun _ h => h.1.inOrder h.2, each.mono fun _ _ _ m => m.2⟩

/-- In every run each section calls the drivers as it should, and the calls add up. -/
theorem drivers_called (small : cfg.maxAppls < 65535) (allowed : Meets (step cfg) Allowed Core.init ls) :
    (∃ c, exec (step cfg) Core.init ls = some c) ∧ Each (step cfg) CallsMeet Core.init ls ∧
      Always (step cfg) Disciplined Core.init ls := by
  obtain ⟨run, always, each⟩ := run_small small allowed
  exact ⟨run, each.mono fun _ _ _ m => m.1, always.mono fun _ h => ⟨h.2.paired, h.2.once, h.2.released⟩⟩

end Runs

/-- A message of 12 bytes to controller 1. -/
def oneMessage : List UInt8 := [12, 0, 1, 0, 0x05, 0x80, 1, 0, 1, 0, 0, 0]

/-- A device meets three applications: it accepts 0 and 2 and refuses 1. Application 0 puts a message and is released,
of which the driver is told; the device outlives its driver's reference until application 2 is gone. -/
def meeting : List Section :=
  [.deviceAlloc true, .deviceRegister 0 (fun _ => .NOERR), .deviceRegisterSysfs 0 0,
    .applRegister 0 2048 (fun _ => .NOERR), .applRegister 1 2048 (fun _ => .MSGBUFSIZETOOSMALL),
    .applRegister 2 2048 (fun _ => .NOERR), .putLookup 0 (some oneMessage), .putEnter ⟨0, 0, oneMessage, false⟩,
    .putLeave ⟨0, 0, oneMessage, true⟩ .NOERR, .applRelease 0, .deviceUnlink 0, .deviceDrain 0, .devicePut 0,
    .applRelease 2, .applRelease 1]

theorem meeting_allowed : Meets (step ⟨4, 64, by decide, by decide⟩) Allowed Core.init meeting := by
  -- one bullet for each section, in the order of the run
  refine ⟨trivial, fun _ h => ?_⟩
  cases h
  refine ⟨rfl, fun _ h => ?_⟩
  cases h
  refine ⟨rfl, fun _ h => ?_⟩
  cases h
  refine ⟨rfl, fun _ h => ?_⟩
  cases h
  refine ⟨rfl, fun _ h => ?_⟩
  cases h
  refine ⟨rfl, fun _ h => ?_⟩
  cases h
  refine ⟨rfl, fun _ h => ?_⟩
  cases h
  refine ⟨⟨List.mem_cons_self, rfl⟩, fun _ h => ?_⟩
  cases h
  refine ⟨⟨List.mem_cons_self, rfl⟩, fun _ h => ?_⟩
  cases h
  refine ⟨⟨rfl, fun _ hp => nomatch hp⟩, fun _ h => ?_⟩
  cases h
  refine ⟨.inr rfl, fun _ h => ?_⟩
  cases h
  refine ⟨⟨⟨_, rfl⟩, fun _ h => ?_⟩, fun _ h => ?_⟩
  · cases h; exact ⟨rfl, rfl⟩
  cases h
  refine ⟨.inr ⟨_, rfl⟩, fun _ h => ?_⟩
  cases h
  refine ⟨⟨rfl, fun _ hp => nomatch hp⟩, fun _ h => ?_⟩
  cases h
  exact ⟨⟨rfl, fun _ hp => nomatch hp⟩, fun _ _ => trivial⟩

theorem registry_in_order_meeting :
    (∃ c, exec (step ⟨4, 64, by decide, by decide⟩) Core.init meeting = some c) ∧
      Always (step ⟨4, 64, by decide, by decide⟩) InOrder Core.init meeting ∧
      Each (step ⟨4, 64, by decide, by decide⟩) (fun c _ c' => SlotKept c c') Core.init meeting :=
  registry_in_order (by decide) meeting_allowed

/-- What the driver hears of the three. -/
theorem drivers_called_meeting :
    (∃ c, exec (step ⟨4, 64, by decide, by decide⟩) Core.init meeting = some c ∧
      c.calls = [.capiRegister 0 0 .NOERR, .capiRegister 0 1 .MSGBUFSIZETOOSMALL, .capiRegister 0 2 .NOERR,
        .capiPutMessage 0 0 oneMessage, .capiRelease 0 0]) ∧
      Each (step ⟨4, 64, by decide, by decide⟩) CallsMeet Core.init meeting ∧
      Always (step ⟨4, 64, by decide, by decide⟩) Disciplined Core.init meeting :=
  ⟨⟨_, rfl, rfl⟩, (drivers_called (by decide) meeting_allowed).2⟩

end Capi4Linux.Capicore
