import Capi4Linux.Capicore.Queries
import Capi4Linux.Capicore.Registry
import Mathlib.Data.List.Nodup

/-!
# The directory of devices

To those who ask, the capicore is a map from device numbers to the fields of the
devices. A number is in it from the moment its device gives the semaphore free
until it takes it for good, and an entry stays while somebody reads it.
-/

namespace Capi4Linux.Capicore
open Capi4Linux.Capicore.Core Machine

/-- The phases in which the semaphore of a device can be taken for reading. -/
def DevPhase.answering : DevPhase → Bool
  | .bound => true
  | .failing => true
  | .registered => true
  | .unlinked _ => true
  | _ => false

/-- The number and the semaphore of a device. -/
def face (dev : CapiDevice) : Nat × RwSemaphore := (dev.id, dev.sem)

/-- The devices that answer keep their numbers and semaphores. -/
def FacesKept (c c' : Core) : Prop :=
  ∀ e dev', (c.devPhase e).answering → c'.device e = some dev' → ∃ dev, c.device e = some dev ∧ face dev' = face dev

/-- The section belongs to the thread of the driver that owns device `d`. -/
def Section.drives (d : Nat) : Section → Prop
  | .deviceRegister e _ => e = d
  | .deviceRegisterSysfs e _ => e = d
  | .deviceUnlink e => e = d
  | .deviceDrain e => e = d
  | .devicePut e => e = d
  | _ => False

/-- What a section does to phases, numbers and semaphores. -/
inductive Shift (c : Core) : Section → Core → Prop
  | calm {l : Section} {c' : Core} (opens : Desk.opens c' l = []) (closes : Desk.closes l = [])
    (phases : ∀ e, (c'.devPhase e).answering = (c.devPhase e).answering)
    (faces : FacesKept c c') (inside : c'.puts.filter (·.inside) = c.puts.filter (·.inside)) : Shift c l c'
  | opened {d : Nat} {info : Nat → Capinfo0x10} {dev' : CapiDevice} {c' : Core} (alloced : c.devPhase d = .alloced)
    (phase : c'.devPhase = Function.update c.devPhase d .bound)
    (device : c'.device = Function.update c.device d (some dev')) (sem : dev'.sem = ⟨false, 0⟩)
    (puts : c'.puts = c.puts) : Shift c (.deviceRegister d info) c'
  | closed {d : Nat} {dev dev' : CapiDevice} {err err' : Bool} {c' : Core} (unlinked : c.devPhase d = .unlinked err)
    (live : c.device d = some dev) (idle : dev.sem.readers = 0)
    (phase : c'.devPhase = Function.update c.devPhase d (.returned err'))
    (device : c'.device = Function.update c.device d (some dev')) (puts : c'.puts = c.puts) :
    Shift c (.deviceDrain d) c'
  | entered {p : Put} {dev : CapiDevice} {c' : Core} (outside : p.inside = false) (live : c.device p.dev = some dev)
    (numbered : dev.id ≠ 0) (free : dev.sem.writer = false) (phase : c'.devPhase = c.devPhase)
    (device : c'.device = Function.update c.device p.dev
      (some { dev with sem := { dev.sem with readers := dev.sem.readers + 1 } }))
    (puts : c'.puts = { p with inside := true } :: c.puts.erase p) : Shift c (.putEnter p) c'
  | left {p : Put} {dev : CapiDevice} {info : Capinfo0x11} {c' : Core} (member : p ∈ c.puts) (inside : p.inside = true)
    (live : c.device p.dev = some dev) (phase : c'.devPhase = c.devPhase)
    (device : c'.device = Function.update c.device p.dev
      (some { dev with sem := { dev.sem with readers := dev.sem.readers - 1 } }))
    (puts : c'.puts = c.puts.erase p) : Shift c (.putLeave p info) c'

section Shifts

variable {cfg : Config} {c c' : Core}

/-- Only its own thread takes a device from one phase to the next. -/
theorem phase_kept (h : Registry cfg c) {l : Section} (allowed : Allowed c l) (narrow : InRange cfg c l)
    (run : step cfg c l = some c') {e : Nat} (begun : c.devPhase e ≠ .absent) (other : ¬ l.drives e) :
    c'.devPhase e = c.devPhase e := by
  have moved : ∀ {d : Nat} (p : DevPhase), ¬ d = e → Function.update c.devPhase d p e = c.devPhase e :=
    fun p ne => Function.update_of_ne (Ne.symm ne) _ _
  cases l with
  | deviceAlloc mem =>
    cases run
    cases mem with
    | false => rfl
    | true => exact moved _ fun same => begun (h.fresh e (by omega))
  | deviceRegister d info =>
    obtain ⟨dev, live⟩ := h.live (d := d) (by rw [show c.devPhase d = .alloced from allowed]; rfl)
    rw [step, capiDeviceRegister_eq live] at run
    split at run
    · cases run; exact moved _ other
    · cases run; exact moved _ other
  | deviceRegisterSysfs d res =>
    cases run
    unfold capiDeviceRegisterSysfs
    split
    · exact moved _ other
    · exact moved _ other
  | deviceUnlink d =>
    obtain ⟨dev, live⟩ := h.live (d := d) (by rcases allowed with on | on <;> rw [on] <;> rfl)
    rw [step, unlinkCapiDevice_eq live] at run
    cases run
    exact moved _ other
  | deviceDrain d =>
    obtain ⟨dev, live⟩ := h.live (d := d) (by obtain ⟨⟨err, on⟩, -⟩ := allowed; rw [on]; rfl)
    rw [step, drainCapiDevice_eq live] at run
    cases run
    exact moved _ other
  | devicePut d =>
    obtain ⟨dev, live⟩ := h.live (d := d) (by rcases allowed with on | ⟨err, on⟩ <;> rw [on] <;> rfl)
    rw [step, capiDevicePut_eq live] at run
    cases run
    exact moved _ other
  | applRegister a datablklen info =>
    obtain ⟨r, c2, run', -, joined, refused⟩ := h.applRegister allowed datablklen info narrow
    rw [step, run'] at run
    cases run
    by_cases ok : r = .NOERR
    · obtain ⟨_, _, _, frame⟩ := (joined ok).1.frame
      rw [frame]
    · obtain ⟨_, frame⟩ := (refused ok).frame
      rw [frame]
  | applRelease a =>
    obtain ⟨r, c1, run', released, -⟩ := h.applRelease allowed.1 allowed.2
    rw [step, run'] at run
    cases run
    obtain ⟨_, _, _, frame, -⟩ := released.frame
    rw [frame]
    rfl
  | applSignalError a info =>
    cases run
    unfold capiApplSignalError
    dsimp only
    split
    · rfl
    · rfl
  | putLookup a msg =>
    obtain ⟨r, -, rfl⟩ := Option.map_eq_some_iff.1 run
    cases r with
    | inl info => rfl
    | inr p => rfl
  | putEnter p =>
    obtain ⟨dev, live, -, -⟩ := h.underway_live (h.puts p allowed.1)
    rw [step, capiPutMessageEnter_eq live] at run
    split at run
    · cases run; rfl
    · cases run; rfl
  | putLeave p info =>
    obtain ⟨dev, live, -, -⟩ := h.underway_live (h.puts p allowed.1)
    rw [step, capiPutMessageLeave_eq live] at run
    cases run
    rfl

theorem FacesKept.of_same (device : c'.device = c.device) : FacesKept c c' :=
  fun _ dev' _ live => ⟨dev', by rw [← device]; exact live, rfl⟩

/-- A device that does not answer may change as it likes. -/
theorem FacesKept.of_mute {d : Nat} {v : Option CapiDevice} (mute : (c.devPhase d).answering = false)
    (device : c'.device = Function.update c.device d v) : FacesKept c c' := by
  intro e dev' answering live
  have ne : e ≠ d := fun same => by rw [same, mute] at answering; cases answering
  rw [device, Function.update_of_ne ne] at live
  exact ⟨dev', live, rfl⟩

/-- A device whose other fields change keeps its face. -/
theorem FacesKept.of_update {d : Nat} {dev v : CapiDevice} (live : c.device d = some dev) (same : face v = face dev)
    (device : c'.device = Function.update c.device d (some v)) : FacesKept c c' := by
  intro e dev' _ live'
  rw [device] at live'
  by_cases eq : e = d
  · subst eq
    rw [Function.update_self] at live'
    cases live'
    exact ⟨dev, live, same⟩
  · rw [Function.update_of_ne eq] at live'
    exact ⟨dev', live', rfl⟩

/-- A phase that answers as the last one did. -/
theorem answering_update {d : Nat} {p : DevPhase} (same : p.answering = (c.devPhase d).answering) (e : Nat) :
    (Function.update c.devPhase d p e).answering = (c.devPhase e).answering := by
  by_cases eq : e = d
  · subst eq
    rw [Function.update_self]
    exact same
  · rw [Function.update_of_ne eq]

/-- A put that was just looked up is not inside the device. -/
theorem capiPutMessageLookup_outside {a : Nat} {msg : Option (List UInt8)} {p : Put}
    (look : capiPutMessageLookup cfg c a msg = some (.inr p)) : p.inside = false := by
  unfold capiPutMessageLookup at look
  dsimp only at look
  split at look
  · cases look
  · cases msg with
    | none => cases look
    | some msg =>
      dsimp only at look
      split at look
      · cases look
      · split at look
        · cases look
        · obtain ⟨d, -, same⟩ := Option.bind_eq_some_iff.1 look
          cases same
          rfl

/-- Dropping a call that waits outside. -/
theorem filter_erase_outside {puts : List Put} {p : Put} (outside : p.inside = false) :
    (puts.erase p).filter (·.inside) = puts.filter (·.inside) := by
  induction puts with
  | nil => rfl
  | cons q puts ih =>
    rw [List.erase_cons]
    split
    · rename_i same
      rw [beq_iff_eq] at same
      rw [List.filter_cons_of_neg (by rw [same, outside]; simp)]
    · rw [List.filter_cons, List.filter_cons, ih]

/-- What a section does to the faces and to who answers. -/
theorem step_shift (h : Registry cfg c) {l : Section} (allowed : Allowed c l) (narrow : InRange cfg c l)
    (run : step cfg c l = some c') : Shift c l c' := by
  cases l with
  | deviceAlloc mem =>
    cases run
    cases mem with
    | false => exact .calm rfl rfl (fun _ => rfl) (.of_same rfl) rfl
    | true =>
      have unborn := h.fresh c.allocated (Nat.le_refl _)
      have mute : (c.devPhase c.allocated).answering = false := by rw [unborn]; rfl
      exact .calm rfl rfl (answering_update mute.symm) (.of_mute mute rfl) rfl
  | deviceRegister d info =>
    have alloced : c.devPhase d = .alloced := allowed
    obtain ⟨dev, live⟩ := h.live (d := d) (by rw [alloced]; rfl)
    rw [step, capiDeviceRegister_eq live] at run
    split at run
    · cases run
      have mute : (c.devPhase d).answering = false := by rw [alloced]; rfl
      refine .calm ?_ rfl (answering_update mute.symm) (.of_mute mute rfl) rfl
      simp [Desk.opens]
    · cases run
      exact .opened alloced rfl rfl rfl rfl
  | deviceRegisterSysfs d res =>
    cases run
    have bound : c.devPhase d = .bound := allowed
    have answering : (c.devPhase d).answering = true := by rw [bound]; rfl
    unfold capiDeviceRegisterSysfs
    split
    · exact .calm rfl rfl (answering_update answering.symm) (.of_same rfl) rfl
    · exact .calm rfl rfl (answering_update answering.symm) (.of_same rfl) rfl
  | deviceUnlink d =>
    have answering : (c.devPhase d).answering = true := by rcases allowed with on | on <;> rw [on] <;> rfl
    obtain ⟨dev, live⟩ := h.live (d := d) (by rcases allowed with on | on <;> rw [on] <;> rfl)
    rw [step, unlinkCapiDevice_eq live] at run
    cases run
    exact .calm rfl rfl (answering_update answering.symm) (.of_update (v := { dev with entry := .self }) live rfl rfl) rfl
  | deviceDrain d =>
    obtain ⟨⟨err, unlinked⟩, free⟩ := allowed
    obtain ⟨dev, live⟩ := h.live (d := d) (by rw [unlinked]; rfl)
    rw [step, drainCapiDevice_eq live] at run
    cases run
    exact .closed unlinked live (free dev live).2 rfl rfl rfl
  | devicePut d =>
    have mute : (c.devPhase d).answering = false := by rcases allowed with on | ⟨err, on⟩ <;> rw [on] <;> rfl
    obtain ⟨dev, live⟩ := h.live (d := d) (by rcases allowed with on | ⟨err, on⟩ <;> rw [on] <;> rfl)
    rw [step, capiDevicePut_eq live] at run
    cases run
    exact .calm rfl rfl (answering_update mute.symm) (.of_mute mute rfl) rfl
  | applRegister a datablklen info =>
    obtain ⟨r, c2, run', -, joined, refused⟩ := h.applRegister allowed datablklen info narrow
    rw [step, run'] at run
    cases run
    by_cases ok : r = .NOERR
    · have joined := (joined ok).1
      obtain ⟨_, _, _, frame⟩ := joined.frame
      refine .calm rfl rfl (fun _ => by rw [frame]) ?_ (by rw [frame])
      intro e dev' _ live'
      rw [joined.device] at live'
      split at live'
      · obtain ⟨dev, live, rfl⟩ := Option.map_eq_some_iff.1 live'
        exact ⟨dev, live, rfl⟩
      · exact ⟨dev', live', rfl⟩
    · obtain ⟨_, frame⟩ := (refused ok).frame
      exact .calm rfl rfl (fun _ => by rw [frame]) (.of_same (by rw [frame])) (by rw [frame])
  | applRelease a =>
    obtain ⟨r, c1, run', released, -⟩ := h.applRelease allowed.1 allowed.2
    rw [step, run'] at run
    cases run
    obtain ⟨_, _, _, frame, -⟩ := released.frame
    refine .calm rfl rfl (fun _ => by rw [frame]; rfl) ?_ (by rw [frame]; rfl)
    intro e dev' _ live'
    obtain ⟨dev, live, left⟩ := Option.bind_eq_some_iff.1 ((released.device e).symm.trans live')
    split at left
    · obtain ⟨id, -, sem, -⟩ := dropped_id left
      exact ⟨dev, live, Prod.ext id sem⟩
    · cases left
      exact ⟨dev', live, rfl⟩
  | applSignalError a info =>
    cases run
    unfold capiApplSignalError
    dsimp only
    split
    · exact .calm rfl rfl (fun _ => rfl) (.of_same rfl) rfl
    · exact .calm rfl rfl (fun _ => rfl) (.of_same rfl) rfl
  | putLookup a msg =>
    obtain ⟨r, look, rfl⟩ := Option.map_eq_some_iff.1 run
    cases r with
    | inl info => exact .calm rfl rfl (fun _ => rfl) (.of_same rfl) rfl
    | inr p =>
      have outside : p.inside = false := capiPutMessageLookup_outside look
      refine .calm rfl rfl (fun _ => rfl) (.of_same rfl) ?_
      exact List.filter_cons_of_neg (by simp [outside])
  | putEnter p =>
    obtain ⟨member, outside⟩ := allowed
    obtain ⟨dev, live, numbered, -⟩ := h.underway_live (h.puts p member)
    rw [step, capiPutMessageEnter_eq live] at run
    split at run
    · cases run
      refine .calm rfl rfl (fun _ => rfl) (.of_same rfl) ?_
      exact filter_erase_outside outside
    · rename_i free
      cases run
      exact .entered outside live numbered (by simpa using free) rfl rfl rfl
  | putLeave p info =>
    obtain ⟨member, inside⟩ := allowed
    obtain ⟨dev, live, -, -⟩ := h.underway_live (h.puts p member)
    rw [step, capiPutMessageLeave_eq live] at run
    cases run
    exact .left member inside live rfl rfl rfl

/-- A device with a number that nobody holds for writing answers. -/
theorem Registry.answering_of_free (h : Registry cfg c) {d : Nat} {dev : CapiDevice} (live : c.device d = some dev)
    (numbered : dev.id ≠ 0) (free : dev.sem.writer = false) : (c.devPhase d).answering = true := by
  have shape := h.shaped d
  rw [live] at shape
  generalize c.devPhase d = p at shape ⊢
  cases p with
  | absent => cases shape
  | alloced => obtain ⟨_, ⟨⟩, zero⟩ := shape; exact absurd zero numbered
  | returned =>
    obtain ⟨_, ⟨⟩, held⟩ := shape
    rw [(held numbered).2] at free
    cases free
  | put =>
    rw [(shape dev rfl numbered).2] at free
    cases free
  | _ => rfl

/-- A device that answers is there, and has a number. -/
theorem Registry.answering_live (h : Registry cfg c) {d : Nat} (answering : (c.devPhase d).answering = true) :
    ∃ dev, c.device d = some dev ∧ dev.id ≠ 0 := by
  have shape := h.shaped d
  generalize c.devPhase d = p at shape answering
  cases p with
  | bound => obtain ⟨dev, live, numbered, -⟩ := shape; exact ⟨dev, live, numbered⟩
  | failing => obtain ⟨dev, live, numbered, -⟩ := shape; exact ⟨dev, live, numbered⟩
  | registered => obtain ⟨dev, live, numbered, -⟩ := shape; exact ⟨dev, live, numbered⟩
  | unlinked => obtain ⟨dev, live, numbered, -⟩ := shape; exact ⟨dev, live, numbered⟩
  | _ => cases answering

end Shifts

namespace Desk

/-! ## Who is inside -/

/-- The calls that hold the semaphore of device `d` for reading. -/
def inside (s : Desk) (d : Nat) : Nat :=
  (s.core.puts.filter (·.inside)).countP (·.dev = d) + s.queries.countP (·.dev = d)

/-- The map from device numbers to the fields of the devices. -/
def directory (s : Desk) (id : Int) : Option DeviceInfo :=
  if id < 1 then none
  else (s.core.capiDevsTable (id - 1).toNat).bind fun d =>
    if (s.core.devPhase d).answering then some (s.info d) else none

/-- Semaphores, calls and counters agree. -/
structure Orderly (cfg : Config) (s : Desk) : Prop where
  registry : Registry cfg s.core
  doors : ∀ d dev, (s.core.devPhase d).answering → s.core.device d = some dev → dev.sem = ⟨false, s.inside d⟩
  puts : ∀ p ∈ s.core.puts, p.inside → (s.core.devPhase p.dev).answering
  queries : ∀ q ∈ s.queries, (s.core.devPhase q.dev).answering ∧ 1 ≤ q.id ∧
    ∃ dev, s.core.device q.dev = some dev ∧ q.id = dev.id
  opening : s.opening.Nodup ∧ ∀ d ∈ s.opening, s.core.devPhase d = .bound
  closing : s.closing.Nodup ∧ ∀ d ∈ s.closing, ∃ err, s.core.devPhase d = .returned err
  count : ∃ ds : List Nat, ds.Nodup ∧ (∀ d, d ∈ ds ↔ (s.core.devPhase d).answering) ∧
    s.nrCapiDevs + s.opening.length = ds.length + s.closing.length

/-- At the start the desk has no questions. -/
theorem orderly_init (cfg : Config) (k : Nat) : Orderly cfg (Desk.init k) where
  registry := registry_init cfg
  doors := by intro d dev answering; cases answering
  puts := by intro p mem; cases mem
  queries := by intro q mem; cases mem
  opening := ⟨List.nodup_nil, fun _ mem => by cases mem⟩
  closing := ⟨List.nodup_nil, fun _ mem => by cases mem⟩
  count := ⟨[], List.nodup_nil, fun d => by simp [Desk.init, Core.init, DevPhase.answering], rfl⟩

section Steps

variable {cfg : Config} {s : Desk}

/-- Nobody is inside a device that does not answer. -/
theorem Orderly.mute (h : Orderly cfg s) {d : Nat} (mute : (s.core.devPhase d).answering = false) : s.inside d = 0 := by
  unfold inside
  rw [Nat.add_eq_zero_iff, List.countP_eq_zero, List.countP_eq_zero]
  constructor
  · intro p mem here
    obtain ⟨mem, inside⟩ := List.mem_filter.1 mem
    have answering := h.puts p mem inside
    rw [of_decide_eq_true here, mute] at answering
    cases answering
  · intro q mem here
    have answering := (h.queries q mem).1
    rw [of_decide_eq_true here, mute] at answering
    cases answering

/-- A device with nobody inside is not the one a call is in. -/
theorem vacant {d : Nat} (none : s.inside d = 0) :
    (∀ p ∈ s.core.puts, p.inside → p.dev ≠ d) ∧ ∀ q ∈ s.queries, q.dev ≠ d := by
  obtain ⟨noPut, noQuery⟩ := Nat.add_eq_zero_iff.1 none
  constructor
  · intro p mem inside here
    exact List.countP_eq_zero.1 noPut p (List.mem_filter.2 ⟨mem, inside⟩) (decide_eq_true here)
  · intro q mem here
    exact List.countP_eq_zero.1 noQuery q mem (decide_eq_true here)

/-- The entry of a number that somebody reads. -/
theorem Orderly.entry (h : Orderly cfg s) {q : Query} (mem : q ∈ s.queries) : s.directory q.id = some (s.info q.dev) := by
  obtain ⟨answering, low, dev, live, id⟩ := h.queries q mem
  have slot : s.core.capiDevsTable (q.id - 1).toNat = some q.dev :=
    (h.registry.slots _ _).2 ⟨dev, live, by omega⟩
  rw [directory, if_neg (by omega), slot, Option.bind_some, if_pos answering]

/-- The state after section `l` has left the capicore at `c'`. -/
def after (k : Nat) (s : Desk) (l : Section) (c' : Core) : Desk :=
  { s with
    core := c'
    info := infoAfter k s l
    opening := opens c' l ++ s.opening
    closing := closes l ++ s.closing }

/-- Devices on their way in and out stay where they are until they are counted. -/
theorem Orderly.waiting (h : Orderly cfg s) {l : Section} {c' : Core} (allowed : Allowed cfg s (.core l))
    (run : Capicore.step cfg s.core l = some c') :
    (∀ d ∈ s.opening, c'.devPhase d = .bound) ∧ ∀ d ∈ s.closing, ∃ err, c'.devPhase d = .returned err := by
  obtain ⟨core, narrow, program⟩ := allowed
  constructor
  · intro d mem
    have bound := h.opening.2 d mem
    rw [phase_kept h.registry core narrow run (by rw [bound]; simp), bound]
    intro drives
    cases l with
    | deviceRegister e info => cases drives; cases bound.symm.trans core
    | deviceRegisterSysfs e res => cases drives; exact program mem
    | deviceUnlink e => cases drives; rcases core with on | on <;> cases bound.symm.trans on
    | deviceDrain e => cases drives; obtain ⟨⟨err, on⟩, -⟩ := core; cases bound.symm.trans on
    | devicePut e => cases drives; rcases core with on | ⟨err, on⟩ <;> cases bound.symm.trans on
    | _ => exact drives
  · intro d mem
    obtain ⟨err, returned⟩ := h.closing.2 d mem
    refine ⟨err, ?_⟩
    rw [phase_kept h.registry core narrow run (by rw [returned]; simp), returned]
    intro drives
    cases l with
    | deviceRegister e info => cases drives; cases returned.symm.trans core
    | deviceRegisterSysfs e res => cases drives; cases returned.symm.trans core
    | deviceUnlink e => cases drives; rcases core with on | on <;> cases returned.symm.trans on
    | deviceDrain e => cases drives; obtain ⟨⟨err, on⟩, -⟩ := core; cases returned.symm.trans on
    | devicePut e => cases drives; exact program mem
    | _ => exact drives

/-- A device with a reader inside keeps its number, and goes on answering while others move. -/
theorem Orderly.stay (h : Orderly cfg s) {c' : Core} (registry : Registry cfg c')
    (phases : ∀ q ∈ s.queries, (c'.devPhase q.dev).answering = (s.core.devPhase q.dev).answering)
    (faces : ∀ q ∈ s.queries, ∀ dev', c'.device q.dev = some dev' →
      ∃ dev, s.core.device q.dev = some dev ∧ dev'.id = dev.id) :
    ∀ q ∈ s.queries, (c'.devPhase q.dev).answering ∧ 1 ≤ q.id ∧ ∃ dev, c'.device q.dev = some dev ∧ q.id = dev.id := by
  intro q mem
  obtain ⟨answering, low, dev, live, id⟩ := h.queries q mem
  have answering' : (c'.devPhase q.dev).answering = true := by rw [phases q mem]; exact answering
  obtain ⟨dev', live', -⟩ := registry.answering_live answering'
  obtain ⟨dev2, live2, same⟩ := faces q mem dev' live'
  rw [live] at live2
  cases live2
  exact ⟨answering', low, dev', live', by rw [same]; exact id⟩

/-- A section that changes no face and no answer keeps the desk in order. -/
theorem Orderly.calm (h : Orderly cfg s) {c' : Core} (registry : Registry cfg c')
    (phases : ∀ e, (c'.devPhase e).answering = (s.core.devPhase e).answering) (faces : FacesKept s.core c')
    (inside : c'.puts.filter (·.inside) = s.core.puts.filter (·.inside)) {info : Nat → DeviceInfo}
    (waiting : (∀ d ∈ s.opening, c'.devPhase d = .bound) ∧ ∀ d ∈ s.closing, ∃ err, c'.devPhase d = .returned err) :
    Orderly cfg { s with core := c', info := info } where
  registry
  doors := by
    intro d dev' answering live'
    have answering : (s.core.devPhase d).answering = true := by rw [← phases]; exact answering
    obtain ⟨dev, live, same⟩ := faces d dev' answering live'
    rw [show dev'.sem = dev.sem from (Prod.mk.inj same).2, h.doors d dev answering live]
    simp only [Desk.inside, inside]
  puts := by
    intro p mem isIn
    have mem' : p ∈ s.core.puts.filter (·.inside) := inside ▸ List.mem_filter.2 ⟨mem, isIn⟩
    change (c'.devPhase p.dev).answering = true
    rw [phases]
    exact h.puts p (List.mem_filter.1 mem').1 isIn
  queries := by
    refine h.stay registry (fun q _ => phases q.dev) fun q mem dev' live' => ?_
    obtain ⟨dev, live, same⟩ := faces q.dev dev' (h.queries q mem).1 live'
    exact ⟨dev, live, (Prod.mk.inj same).1⟩
  opening := ⟨h.opening.1, waiting.1⟩
  closing := ⟨h.closing.1, waiting.2⟩
  count := by
    obtain ⟨ds, nodup, mem, count⟩ := h.count
    exact ⟨ds, nodup, fun d => (mem d).trans (by rw [← phases]), count⟩

/-- A device that is registered starts to answer. -/
theorem Orderly.opened (h : Orderly cfg s) {c' : Core} (registry : Registry cfg c') {d : Nat} {dev' : CapiDevice}
    (alloced : s.core.devPhase d = .alloced) (phase : c'.devPhase = Function.update s.core.devPhase d .bound)
    (device : c'.device = Function.update s.core.device d (some dev')) (sem : dev'.sem = ⟨false, 0⟩)
    (puts : c'.puts = s.core.puts)
    (waiting : (∀ d ∈ s.opening, c'.devPhase d = .bound) ∧ ∀ d ∈ s.closing, ∃ err, c'.devPhase d = .returned err) :
    Orderly cfg { s with core := c', opening := d :: s.opening } := by
  have mute : (s.core.devPhase d).answering = false := by rw [alloced]; rfl
  have none := h.mute mute
  obtain ⟨noPut, noQuery⟩ := vacant none
  have inside : ∀ e, Desk.inside { s with core := c', opening := d :: s.opening } e = s.inside e := by
    intro e
    simp only [Desk.inside, puts]
  refine ⟨registry, ?_, ?_, ?_, ?_, ⟨h.closing.1, waiting.2⟩, ?_⟩
  · intro e dev answering live
    rw [inside]
    change c'.device e = some dev at live
    rw [device] at live
    by_cases eq : e = d
    · subst eq
      rw [Function.update_self] at live
      cases live
      rw [none, sem]
    · rw [Function.update_of_ne eq] at live
      change (c'.devPhase e).answering = true at answering
      rw [phase, Function.update_of_ne eq] at answering
      exact h.doors e dev answering live
  · intro p mem isIn
    change p ∈ c'.puts at mem
    rw [puts] at mem
    change (c'.devPhase p.dev).answering = true
    rw [phase, Function.update_of_ne (noPut p mem isIn)]
    exact h.puts p mem isIn
  · refine h.stay registry (fun q mem => ?_) fun q mem dev' live' => ?_
    · rw [phase, Function.update_of_ne (noQuery q mem)]
    · rw [device, Function.update_of_ne (noQuery q mem)] at live'
      exact ⟨dev', live', rfl⟩
  · refine ⟨List.nodup_cons.2 ⟨fun mem => ?_, h.opening.1⟩, fun e mem => ?_⟩
    · cases alloced.symm.trans (h.opening.2 d mem)
    · rcases List.mem_cons.1 mem with rfl | mem
      · change c'.devPhase e = .bound
        rw [phase, Function.update_self]
      · exact waiting.1 e mem
  · obtain ⟨ds, nodup, mem, count⟩ := h.count
    refine ⟨d :: ds, List.nodup_cons.2 ⟨fun on => ?_, nodup⟩, fun e => ?_, ?_⟩
    · rw [mem d, mute] at on
      cases on
    · change e ∈ d :: ds ↔ (c'.devPhase e).answering = true
      rw [phase, List.mem_cons, mem e]
      by_cases eq : e = d
      · subst eq; simp [DevPhase.answering]
      · simp [eq]
    · change s.nrCapiDevs + ((d :: s.opening).length : Int) = ((d :: ds).length : Int) + s.closing.length
      rw [List.length_cons, List.length_cons]
      push_cast
      omega

/-- A device that nobody asks any more may stop answering. -/
theorem Orderly.closed (h : Orderly cfg s) {c' : Core} (registry : Registry cfg c') {d : Nat} {dev dev' : CapiDevice}
    {err err' : Bool} (unlinked : s.core.devPhase d = .unlinked err) (live : s.core.device d = some dev)
    (idle : dev.sem.readers = 0) (phase : c'.devPhase = Function.update s.core.devPhase d (.returned err'))
    (device : c'.device = Function.update s.core.device d (some dev')) (puts : c'.puts = s.core.puts)
    (waiting : (∀ d ∈ s.opening, c'.devPhase d = .bound) ∧ ∀ d ∈ s.closing, ∃ err, c'.devPhase d = .returned err) :
    Orderly cfg { s with core := c', closing := d :: s.closing } := by
  have answered : (s.core.devPhase d).answering = true := by rw [unlinked]; rfl
  -- the writer waited until nobody was inside
  have none : s.inside d = 0 := by
    have sem := h.doors d dev answered live
    rw [sem] at idle
    exact idle
  obtain ⟨noPut, noQuery⟩ := vacant none
  have inside : ∀ e, Desk.inside { s with core := c', closing := d :: s.closing } e = s.inside e := by
    intro e
    simp only [Desk.inside, puts]
  refine ⟨registry, ?_, ?_, ?_, ⟨h.opening.1, waiting.1⟩, ?_, ?_⟩
  · intro e dev answering live
    change (c'.devPhase e).answering = true at answering
    rw [phase] at answering
    have eq : e ≠ d := fun same => by rw [same, Function.update_self] at answering; cases answering
    rw [Function.update_of_ne eq] at answering
    change c'.device e = some dev at live
    rw [device, Function.update_of_ne eq] at live
    rw [inside]
    exact h.doors e dev answering live
  · intro p mem isIn
    change p ∈ c'.puts at mem
    rw [puts] at mem
    change (c'.devPhase p.dev).answering = true
    rw [phase, Function.update_of_ne (noPut p mem isIn)]
    exact h.puts p mem isIn
  · refine h.stay registry (fun q mem => ?_) fun q mem dev' live' => ?_
    · rw [phase, Function.update_of_ne (noQuery q mem)]
    · rw [device, Function.update_of_ne (noQuery q mem)] at live'
      exact ⟨dev', live', rfl⟩
  · refine ⟨List.nodup_cons.2 ⟨fun mem => ?_, h.closing.1⟩, fun e mem => ?_⟩
    · obtain ⟨_, returned⟩ := h.closing.2 d mem
      cases unlinked.symm.trans returned
    · rcases List.mem_cons.1 mem with rfl | mem
      · exact ⟨err', by change c'.devPhase e = _; rw [phase, Function.update_self]⟩
      · exact waiting.2 e mem
  · obtain ⟨ds, nodup, mem, count⟩ := h.count
    have on : d ∈ ds := (mem d).2 answered
    refine ⟨ds.erase d, nodup.erase d, fun e => ?_, ?_⟩
    · change e ∈ ds.erase d ↔ (c'.devPhase e).answering = true
      rw [phase, nodup.mem_erase_iff, mem e]
      by_cases eq : e = d
      · subst eq; simp [DevPhase.answering]
      · simp [eq]
    · change s.nrCapiDevs + (s.opening.length : Int) = ((ds.erase d).length : Int) + ((d :: s.closing).length : Int)
      have less := List.length_erase_add_one on
      rw [List.length_cons]
      push_cast
      omega

/-- Someone takes the semaphore of a device that answers, or gives it back. -/
theorem Orderly.readers (h : Orderly cfg s) {c' : Core} {queries : List Query} {d n : Nat} {dev : CapiDevice}
    (registry : Registry cfg c') (answered : (s.core.devPhase d).answering = true) (live : s.core.device d = some dev)
    (phase : c'.devPhase = s.core.devPhase)
    (device : c'.device = Function.update s.core.device d (some { dev with sem := { dev.sem with readers := n } }))
    (insiders : ∀ e, Desk.inside { s with core := c', queries := queries } e = if e = d then n else s.inside e)
    (puts : ∀ p ∈ c'.puts, p.inside → p.dev = d ∨ p ∈ s.core.puts)
    (same : ∀ q ∈ queries, q ∈ s.queries ∨ q.dev = d ∧ q.id = dev.id ∧ dev.id ≠ 0) :
    Orderly cfg { s with core := c', queries := queries } := by
  refine ⟨registry, ?_, ?_, ?_, ?_, ?_, ?_⟩
  · intro e dev' answering live'
    change (c'.devPhase e).answering = true at answering
    change c'.device e = some dev' at live'
    rw [phase] at answering
    rw [device] at live'
    rw [insiders]
    by_cases eq : e = d
    · subst eq
      rw [Function.update_self] at live'
      cases live'
      rw [if_pos rfl, h.doors e dev answering live]
    · rw [Function.update_of_ne eq] at live'
      rw [if_neg eq]
      exact h.doors e dev' answering live'
  · intro p mem isIn
    change (c'.devPhase p.dev).answering = true
    rw [phase]
    rcases puts p mem isIn with here | mem
    · rw [here]; exact answered
    · exact h.puts p mem isIn
  · intro q mem
    change (c'.devPhase q.dev).answering = true ∧ 1 ≤ q.id ∧ ∃ dev, c'.device q.dev = some dev ∧ q.id = dev.id
    rw [phase, device]
    rcases same q mem with old | ⟨here, id, numbered⟩
    · obtain ⟨answering, low, dev2, live2, id⟩ := h.queries q old
      refine ⟨answering, low, ?_⟩
      by_cases eq : q.dev = d
      · rw [eq, live] at live2
        cases live2
        rw [eq]
        exact ⟨_, Function.update_self _ _ _, id⟩
      · exact ⟨dev2, by rw [Function.update_of_ne eq]; exact live2, id⟩
    · rw [here]
      exact ⟨answered, by omega, _, Function.update_self _ _ _, id⟩
  · exact ⟨h.opening.1, fun e mem => by change c'.devPhase e = _; rw [phase]; exact h.opening.2 e mem⟩
  · exact ⟨h.closing.1, fun e mem => by change ∃ err, c'.devPhase e = _; rw [phase]; exact h.closing.2 e mem⟩
  · obtain ⟨ds, nodup, mem, count⟩ := h.count
    exact ⟨ds, nodup, fun e => by change e ∈ ds ↔ (c'.devPhase e).answering = true; rw [phase]; exact mem e, count⟩

/-- Those inside after one more call entered. -/
theorem inside_entered {p : Put} {c' : Core} (outside : p.inside = false)
    (puts : c'.puts = { p with inside := true } :: s.core.puts.erase p) (d : Nat) :
    Desk.inside { s with core := c' } d = if d = p.dev then s.inside p.dev + 1 else s.inside d := by
  have shown : c'.puts.filter (·.inside) = { p with inside := true } :: s.core.puts.filter (·.inside) := by
    rw [puts, List.filter_cons_of_pos rfl, filter_erase_outside outside]
  simp only [Desk.inside, shown, List.countP_cons]
  by_cases eq : d = p.dev
  · subst eq
    simp only [decide_true, if_true]
    omega
  · simp [eq, Ne.symm eq]

/-- Those inside after one of them left. -/
theorem inside_left {p : Put} {c' : Core} (mem : p ∈ s.core.puts) (isIn : p.inside = true)
    (puts : c'.puts = s.core.puts.erase p) (d : Nat) :
    Desk.inside { s with core := c' } d = if d = p.dev then s.inside p.dev - 1 else s.inside d := by
  have shown : (s.core.puts.filter (·.inside)).Perm (p :: (s.core.puts.erase p).filter (·.inside)) := by
    have perm := (List.perm_cons_erase mem).filter (·.inside)
    rwa [List.filter_cons_of_pos isIn] at perm
  simp only [Desk.inside, puts, shown.countP_eq, List.countP_cons]
  by_cases eq : d = p.dev
  · subst eq
    simp only [decide_true, if_true]
    omega
  · simp [eq, Ne.symm eq]

/-- A section of the capicore. -/
theorem Orderly.core (h : Orderly cfg s) (k : Nat) {l : Section} (allowed : Allowed cfg s (.core l)) :
    ∃ c', Capicore.step cfg s.core l = some c' ∧ Orderly cfg (after k s l c') := by
  obtain ⟨c', run, registry⟩ := h.registry.step allowed.1 allowed.2.1
  have waiting := h.waiting allowed run
  refine ⟨c', run, ?_⟩
  have shift := step_shift h.registry allowed.1 allowed.2.1 run
  unfold after
  cases shift with
  | calm opens closes phases faces inside =>
    rw [opens, closes]
    exact h.calm registry phases faces inside waiting
  | @opened d info dev' _ alloced phase device sem puts =>
    have bound : c'.devPhase d = .bound := by rw [phase, Function.update_self]
    have opens : opens c' (.deviceRegister d info) = [d] := if_pos bound
    rw [opens]
    exact h.opened registry alloced phase device sem puts waiting
  | closed unlinked live idle phase device puts =>
    exact h.closed registry unlinked live idle phase device puts waiting
  | @entered p dev _ outside live numbered free phase device puts =>
    have answered := h.registry.answering_of_free live numbered free
    have sem := h.doors p.dev dev answered live
    refine h.readers registry answered live phase (n := s.inside p.dev + 1) ?_ (inside_entered outside puts) ?_
      fun q mem => .inl mem
    · rw [device, sem]
    · intro q mem isIn
      rw [puts] at mem
      rcases List.mem_cons.1 mem with rfl | mem
      · exact .inl rfl
      · exact .inr (List.mem_of_mem_erase mem)
  | @left p dev info _ member isIn live phase device puts =>
    have answered := h.puts p member isIn
    have sem := h.doors p.dev dev answered live
    refine h.readers registry answered live phase (n := s.inside p.dev - 1) ?_ (inside_left member isIn puts) ?_
      fun q mem => .inl mem
    · rw [device, sem]
    · intro q mem _
      rw [puts] at mem
      exact .inr (List.mem_of_mem_erase mem)

/-! ## Questions -/

/-- The device behind an entry. -/
theorem Orderly.found (h : Orderly cfg s) {id : Int} {info : DeviceInfo} (entry : s.directory id = some info) :
    ∃ d dev, s.core.capiDevsTable (id - 1).toNat = some d ∧ s.core.device d = some dev ∧ id = dev.id ∧ dev.id ≠ 0 ∧
      (s.core.devPhase d).answering ∧ info = s.info d ∧ id ≤ cfg.maxDevs := by
  unfold directory at entry
  split at entry
  · cases entry
  · rename_i low
    obtain ⟨d, slot, here⟩ := Option.bind_eq_some_iff.1 entry
    obtain ⟨dev, live, number⟩ := (h.registry.slots _ d).1 slot
    have bound := h.registry.number d dev live
    split at here
    · rename_i answering
      cases here
      exact ⟨d, dev, slot, live, by omega, by omega, answering, rfl, by omega⟩
    · cases here

/-- A number without an entry is not found, or its device is closed to readers. -/
theorem Orderly.tryGet_none (h : Orderly cfg s) {id : Int} (entry : s.directory id = none) :
    tryGetCapiDeviceById cfg s.core id = some (none, s.core) := by
  unfold tryGetCapiDeviceById
  split
  · rfl
  · rename_i inRange
    rw [directory, if_neg (by omega)] at entry
    cases slot : s.core.capiDevsTable (id - 1).toNat with
    | none => rfl
    | some d =>
      obtain ⟨dev, live, number⟩ := (h.registry.slots _ d).1 slot
      rw [slot, Option.bind_some] at entry
      have mute : ¬ (s.core.devPhase d).answering = true := fun answering => by rw [if_pos answering] at entry; cases entry
      have held : dev.sem.writer = true := by
        by_contra free
        exact mute (h.registry.answering_of_free live (by omega) (by simpa using free))
      simp only [live, Option.bind_eq_bind, Option.bind_some, held, if_true]
      rfl

/-- A number with an entry is found, and its device held for reading. -/
theorem Orderly.tryGet_some (h : Orderly cfg s) {id : Int} {d : Nat} {dev : CapiDevice}
    (slot : s.core.capiDevsTable (id - 1).toNat = some d) (live : s.core.device d = some dev) (low : 1 ≤ id)
    (high : id ≤ cfg.maxDevs) (answering : (s.core.devPhase d).answering) :
    tryGetCapiDeviceById cfg s.core id = some (some d, s.core.setDevice d
      (some { dev with sem := { dev.sem with readers := s.inside d + 1 } })) := by
  have sem := h.doors d dev answering live
  unfold tryGetCapiDeviceById
  rw [if_neg (by omega), slot]
  simp [live, sem]

/-- What a call of `capi_get_*` meets at its entry, with the state it leaves. -/
theorem Orderly.enter (h : Orderly cfg s) (item : Item) (id : Int) (target : DeviceInfo) :
    ∃ r s', capiGetEnter cfg s item id target = some (r, s') ∧ Orderly cfg s' ∧ s'.info = s.info ∧
      (id = 0 → r = .inl (item.capicore s.nrCapiDevs target)) ∧
      (id ≠ 0 → s.directory id = none → r = .inl none) ∧
      (∀ info, id ≠ 0 → s.directory id = some info → ∃ d, r = .inr ⟨item, id, d, target⟩ ∧ s.info d = info) := by
  by_cases own : id = 0
  · refine ⟨_, s, ?_, h, rfl, fun _ => rfl, fun ne => absurd own ne, fun info ne => absurd own ne⟩
    simp [capiGetEnter, own]
  · cases entry : s.directory id with
    | none =>
      refine ⟨_, s, ?_, h, rfl, fun zero => absurd zero own, fun _ _ => rfl, fun info _ e => by cases e⟩
      simp [capiGetEnter, own, h.tryGet_none entry]
    | some info =>
      obtain ⟨d, dev, slot, live, number, numbered, answering, same, high⟩ := h.found entry
      refine ⟨.inr ⟨item, id, d, target⟩, { s with
        core := s.core.setDevice d (some { dev with sem := { dev.sem with readers := s.inside d + 1 } })
        queries := ⟨item, id, d, target⟩ :: s.queries }, ?_, ?_, rfl, fun zero => absurd zero own, fun _ e => (by cases e), ?_⟩
      · simp [capiGetEnter, own, h.tryGet_some slot live (by omega) high answering]
      · refine h.readers (h.registry.readers live h.registry.puts) answering live rfl rfl ?_ (fun p mem _ => .inr mem) ?_
        · intro e
          simp only [Desk.inside, List.countP_cons, setDevice]
          by_cases eq : e = d
          · subst eq
            simp only [decide_true, if_true]
            omega
          · simp [eq, Ne.symm eq]
        · intro q mem
          rcases List.mem_cons.1 mem with rfl | mem
          · exact .inr ⟨rfl, number, numbered⟩
          · exact .inl mem
      · rintro info' - ⟨⟩
        exact ⟨d, rfl, same.symm⟩

/-- The copy of a call that is inside, and the state it leaves. -/
theorem Orderly.leave (h : Orderly cfg s) {q : Query} (mem : q ∈ s.queries) :
    ∃ s', capiGetLeave s q = some (q.item.copy s.nrCapiDevs (s.info q.dev) q.target, s') ∧ Orderly cfg s' ∧
      s'.info = s.info := by
  obtain ⟨answering, low, dev, live, id⟩ := h.queries q mem
  have sem := h.doors q.dev dev answering live
  refine ⟨{ s with
    core := s.core.setDevice q.dev (some { dev with sem := { dev.sem with readers := s.inside q.dev - 1 } })
    queries := s.queries.erase q }, ?_, ?_, rfl⟩
  · simp [capiGetLeave, upRead, live, sem]
  · refine h.readers (h.registry.readers live h.registry.puts) answering live rfl rfl ?_ (fun p mem _ => .inr mem) ?_
    · intro e
      have shown := (List.perm_cons_erase mem).countP_eq (·.dev = e)
      simp only [Desk.inside, setDevice]
      rw [shown, List.countP_cons]
      by_cases eq : e = q.dev
      · subst eq
        have all := (List.perm_cons_erase mem).countP_eq (·.dev = q.dev)
        rw [List.countP_cons] at all
        simp only [decide_true, if_true] at all ⊢
        omega
      · simp [eq, Ne.symm eq]
    · intro q' mem'
      exact .inl (List.mem_of_mem_erase mem')

/-! ## Runs -/

/-- What a call of `capi_get_*` is told at its entry and at its end, and that nobody takes away the entry that
another one reads. -/
def Answers (cfg : Config) (s : Desk) (a : Op) (s' : Desk) : Prop :=
  (∀ q ∈ s.queries, q ∈ s'.queries → s'.directory q.id = s.directory q.id) ∧
  match a with
  | .queryEnter item id target => ∃ r, capiGetEnter cfg s item id target = some (r, s') ∧
    (id = 0 → r = .inl (item.capicore s.nrCapiDevs target)) ∧
    (id ≠ 0 → s.directory id = none → r = .inl none) ∧
    ∀ info, id ≠ 0 → s.directory id = some info → ∃ d, r = .inr ⟨item, id, d, target⟩ ∧ s.info d = info
  | .queryLeave q => ∃ info, s.directory q.id = some info ∧
    capiGetLeave s q = some (q.item.copy s.nrCapiDevs info q.target, s')
  | _ => True

/-- A device that somebody asks keeps the fields it has. -/
theorem Orderly.info_kept (h : Orderly cfg s) (k : Nat) {a : Op} {s' : Desk} (allowed : Allowed cfg s a)
    (run : step k cfg s a = some s') : ∀ q ∈ s.queries, s'.info q.dev = s.info q.dev := by
  intro q mem
  obtain ⟨answering, -, -⟩ := h.queries q mem
  cases a with
  | core l =>
    obtain ⟨c', -, rfl⟩ := Option.map_eq_some_iff.1 run
    unfold infoAfter
    split
    · refine Function.update_of_ne ?_ _ _
      intro same
      rw [same, h.registry.fresh _ (Nat.le_refl _)] at answering
      cases answering
    · rfl
  | fill d info =>
    cases run
    refine Function.update_of_ne ?_ _ _
    intro same
    rw [same, show s.core.devPhase d = .alloced from allowed] at answering
    cases answering
  | countIn d => cases run; rfl
  | countOut d => cases run; rfl
  | queryEnter item id target =>
    obtain ⟨r, s2, entered, -, same, -⟩ := h.enter item id target
    rw [Desk.step, entered] at run
    cases run
    rw [same]
  | queryLeave q' =>
    obtain ⟨s2, left, -, same⟩ := h.leave (show q' ∈ s.queries from allowed)
    rw [Desk.step, left] at run
    cases run
    rw [same]

/-- Every section has an outcome, keeps order and answers by the directory. -/
theorem Orderly.step (h : Orderly cfg s) (k : Nat) {a : Op} (allowed : Allowed cfg s a) :
    ∃ s', Desk.step k cfg s a = some s' ∧ Orderly cfg s' ∧ Answers cfg s a s' := by
  -- the entries of those who stay inside
  have entries : ∀ {s'}, Desk.step k cfg s a = some s' → Orderly cfg s' →
      ∀ q ∈ s.queries, q ∈ s'.queries → s'.directory q.id = s.directory q.id := by
    intro s' run h' q mem mem'
    rw [h.entry mem, h'.entry mem', h.info_kept k allowed run q mem]
  cases a with
  | core l =>
    obtain ⟨c', run, h'⟩ := h.core k allowed
    have run' : Desk.step k cfg s (.core l) = some (after k s l c') := by rw [Desk.step, run]; rfl
    exact ⟨_, run', h', entries run' h', trivial⟩
  | fill d info =>
    have h' : Orderly cfg { s with info := Function.update s.info d info } :=
      ⟨h.registry, h.doors, h.puts, h.queries, h.opening, h.closing, h.count⟩
    exact ⟨_, rfl, h', entries rfl h', trivial⟩
  | countIn d =>
    have h' : Orderly cfg { s with nrCapiDevs := s.nrCapiDevs + 1, opening := s.opening.erase d } := by
      refine ⟨h.registry, h.doors, h.puts, h.queries, ?_, h.closing, ?_⟩
      · exact ⟨h.opening.1.erase d, fun e mem => h.opening.2 e (List.mem_of_mem_erase mem)⟩
      · obtain ⟨ds, nodup, mem, count⟩ := h.count
        refine ⟨ds, nodup, mem, ?_⟩
        have less := List.length_erase_add_one (show d ∈ s.opening from allowed)
        dsimp only
        omega
    exact ⟨_, rfl, h', entries rfl h', trivial⟩
  | countOut d =>
    have h' : Orderly cfg { s with nrCapiDevs := s.nrCapiDevs - 1, closing := s.closing.erase d } := by
      refine ⟨h.registry, h.doors, h.puts, h.queries, h.opening, ?_, ?_⟩
      · exact ⟨h.closing.1.erase d, fun e mem => h.closing.2 e (List.mem_of_mem_erase mem)⟩
      · obtain ⟨ds, nodup, mem, count⟩ := h.count
        refine ⟨ds, nodup, mem, ?_⟩
        have less := List.length_erase_add_one (show d ∈ s.closing from allowed)
        dsimp only
        omega
    exact ⟨_, rfl, h', entries rfl h', trivial⟩
  | queryEnter item id target =>
    obtain ⟨r, s', run, h', -, told⟩ := h.enter item id target
    have run' : Desk.step k cfg s (.queryEnter item id target) = some s' := by rw [Desk.step, run]; rfl
    exact ⟨s', run', h', entries run' h', r, run, told⟩
  | queryLeave q =>
    obtain ⟨s', run, h', -⟩ := h.leave (show q ∈ s.queries from allowed)
    have run' : Desk.step k cfg s (.queryLeave q) = some s' := by rw [Desk.step, run]; rfl
    exact ⟨s', run', h', entries run' h', s.info q.dev, h.entry allowed, run⟩

/-- Those who hold a semaphore are counted by it and find their entry, and a device that the driver has taken back
has nobody inside. -/
structure Guarded (s : Desk) : Prop where
  entry : ∀ q ∈ s.queries, ∃ info, s.directory q.id = some info
  doors : ∀ d dev, (s.core.devPhase d).answering → s.core.device d = some dev → dev.sem = ⟨false, s.inside d⟩
  mute : ∀ d, (s.core.devPhase d).answering = false → s.inside d = 0

/-- In order, every device that is asked is still there. -/
theorem Orderly.guarded (h : Orderly cfg s) : Guarded s :=
  ⟨fun _ mem => ⟨_, h.entry mem⟩, h.doors, fun _ mute => h.mute mute⟩

end Steps

/-! ## The number of devices -/

/-- The device numbers that have an entry. -/
def numbers (cfg : Config) (s : Desk) : List Nat :=
  (List.range' 1 cfg.maxDevs).filter fun id => (s.directory id).isSome

/-- `nr_capi_devs` counts the entries, but for the devices whose counting is still to come; when there is none,
`capi_isinstalled` and `ncontroller` tell what the other functions will answer. -/
structure Counted (cfg : Config) (s : Desk) : Prop where
  balance : s.nrCapiDevs + s.opening.length = (s.numbers cfg).length + s.closing.length
  installed : s.opening = [] → s.closing = [] →
    (capiIsinstalled s = .NOERR ↔ ∃ id info, s.directory id = some info)
  ncontroller : s.opening = [] → s.closing = [] → ∀ info target,
    (Item.profile.copy s.nrCapiDevs info target).profile.ncontroller.toNat = (s.numbers cfg).length

section Counting

variable {cfg : Config} {s : Desk}

/-- The devices that answer, by their numbers. -/
theorem Orderly.length_numbers (h : Orderly cfg s) {ds : List Nat} (nodup : ds.Nodup)
    (mem : ∀ d, d ∈ ds ↔ (s.core.devPhase d).answering) : (s.numbers cfg).length = ds.length := by
  let number := fun d => ((s.core.device d).map (·.id)).getD 0
  have numbered : ∀ d dev, s.core.device d = some dev → number d = dev.id := by
    intro d dev live
    simp only [number, live]
    rfl
  have distinct : (ds.map number).Nodup := by
    refine (List.nodup_map_iff_inj_on nodup).2 ?_
    intro d hd e he same
    obtain ⟨dev, live, nz⟩ := h.registry.answering_live ((mem d).1 hd)
    obtain ⟨dev', live', -⟩ := h.registry.answering_live ((mem e).1 he)
    rw [numbered d dev live, numbered e dev' live'] at same
    exact (h.registry.slot_unique live live' nz same.symm).symm
  have perm : (s.numbers cfg).Perm (ds.map number) := by
    refine (List.perm_ext_iff_of_nodup ((List.nodup_range' 1).filter _) distinct).2 fun id => ?_
    simp only [List.mem_filter, List.mem_range'_1, Option.isSome_iff_exists, List.mem_map]
    constructor
    · rintro ⟨-, info, entry⟩
      obtain ⟨d, dev, -, live, same, -, answering, -⟩ := h.found entry
      exact ⟨d, (mem d).2 answering, by rw [numbered d dev live]; omega⟩
    · rintro ⟨d, hd, rfl⟩
      have answering := (mem d).1 hd
      obtain ⟨dev, live, nz⟩ := h.registry.answering_live answering
      have bound := h.registry.number d dev live
      have slot : s.core.capiDevsTable ((dev.id : Int) - 1).toNat = some d := (h.registry.slots _ d).2 ⟨dev, live, by omega⟩
      rw [numbered d dev live]
      refine ⟨by omega, s.info d, ?_⟩
      rw [directory, if_neg (by omega), slot, Option.bind_some, if_pos answering]
  rw [perm.length_eq, List.length_map]

/-- In order, the count of the installed is that of the list. -/
theorem Orderly.counted (h : Orderly cfg s) : Counted cfg s := by
  obtain ⟨ds, nodup, mem, count⟩ := h.count
  have same := h.length_numbers nodup mem
  have few : (s.numbers cfg).length ≤ 255 := by
    have short := (List.length_filter_le (fun id : Nat => (s.directory id).isSome) (List.range' 1 cfg.maxDevs))
    rw [List.length_range'] at short
    have := cfg.devs_range.2
    unfold numbers
    omega
  have settled : s.opening = [] → s.closing = [] → s.nrCapiDevs = (s.numbers cfg).length := by
    intro opening closing
    rw [opening, closing] at count
    simpa [same] using count
  refine ⟨by rw [same]; exact count, fun opening closing => ?_, fun opening closing info target => ?_⟩
  · unfold capiIsinstalled
    rw [settled opening closing]
    constructor
    · intro noerr
      have some : (s.numbers cfg).length ≠ 0 := by
        intro none
        rw [none] at noerr
        cases noerr
      obtain ⟨id, here⟩ := List.exists_mem_of_length_pos (Nat.pos_of_ne_zero some)
      obtain ⟨info, entry⟩ := Option.isSome_iff_exists.1 (List.mem_filter.1 here).2
      exact ⟨id, info, entry⟩
    · rintro ⟨id, info, entry⟩
      obtain ⟨d, dev, -, -, number, numbered, -, -, bound⟩ := h.found entry
      have here : dev.id ∈ s.numbers cfg := by
        rw [number] at entry bound
        exact List.mem_filter.2 ⟨List.mem_range'_1.2 (by omega), by rw [entry]; rfl⟩
      have := List.length_pos_of_mem here
      rw [if_pos (by omega)]
  · change (UInt16.ofInt s.nrCapiDevs).toNat = _
    rw [settled opening closing, UInt16.ofInt, UInt16.toNat_ofNat']
    omega

end Counting

section Runs

variable {cfg : Config} {k : Nat} {ops : List Op}

/-- In every run of the capicore with those who ask it no freed device is looked at, an entry stays while somebody
reads it, and who asks for a number is told what the directory has under it. -/
theorem queries_answered (allowed : Meets (step k cfg) (Allowed cfg) (Desk.init k) ops) :
    (∃ s, exec (step k cfg) (Desk.init k) ops = some s) ∧ Always (step k cfg) Guarded (Desk.init k) ops ∧
      Each (step k cfg) (Answers cfg) (Desk.init k) ops := by
  have only : ∀ s a s', Orderly cfg s → Allowed cfg s a → step k cfg s a = some s' → Answers cfg s a s' ∧ Orderly cfg s' := by
    intro s a s' h ok run
    obtain ⟨s2, run2, h2, answers⟩ := h.step k ok
    cases run.symm.trans run2
    exact ⟨answers, h2⟩
  refine ⟨?_, ?_, each_of_inv _ only (orderly_init cfg k) allowed⟩
  · obtain ⟨s, run, -⟩ := exec_of_inv (fun s a h ok => (h.step k ok).imp fun _ t => ⟨t.1, t.2.1⟩) (orderly_init cfg k) allowed
    exact ⟨s, run⟩
  · exact (always_of_inv (fun s a s' h ok run => (only s a s' h ok run).2) (orderly_init cfg k) allowed).mono
      fun _ h => h.guarded

/-- In every state of every run the counter is the number of entries, but for the devices between their semaphore
and their counting. -/
theorem installed_counted (allowed : Meets (step k cfg) (Allowed cfg) (Desk.init k) ops) :
    Always (step k cfg) (Counted cfg) (Desk.init k) ops := by
  have keep : ∀ s a s', Orderly cfg s → Allowed cfg s a → step k cfg s a = some s' → Orderly cfg s' := by
    intro s a s' h ok run
    obtain ⟨s2, run2, h2, -⟩ := h.step k ok
    cases run.symm.trans run2
    exact h2
  exact (always_of_inv keep (orderly_init cfg k) allowed).mono fun _ h => h.counted

end Runs

/-- The fields that a driver may fill in. -/
def sample : DeviceInfo := { DeviceInfo.zeroed 20 with version := ⟨2, 0, 1, 7⟩ }

/-- Somebody asks for the version of device 1 while its driver takes it away. -/
def inspected : List Op :=
  [.core (.deviceAlloc true), .fill 0 sample, .core (.deviceRegister 0 fun _ => .NOERR),
    .queryEnter .version 1 (DeviceInfo.zeroed 20), .countIn 0, .core (.deviceRegisterSysfs 0 0),
    .core (.deviceUnlink 0), .queryLeave ⟨.version, 1, 0, DeviceInfo.zeroed 20⟩, .core (.deviceDrain 0), .countOut 0,
    .core (.devicePut 0)]

theorem inspected_allowed : Meets (step 20 ⟨4, 64, by decide, by decide⟩) (Allowed ⟨4, 64, by decide, by decide⟩)
    (Desk.init 20) inspected := by
  refine ⟨⟨trivial, trivial, trivial⟩, fun _ h => ?_⟩
  cases h
  refine ⟨rfl, fun _ h => ?_⟩
  cases h
  refine ⟨⟨rfl, trivial, trivial⟩, fun _ h => ?_⟩
  cases h
  refine ⟨trivial, fun _ h => ?_⟩
  cases h
  refine ⟨List.mem_singleton.2 rfl, fun _ h => ?_⟩
  cases h
  refine ⟨⟨rfl, trivial, List.not_mem_nil⟩, fun _ h => ?_⟩
  cases h
  refine ⟨⟨.inr rfl, trivial, trivial⟩, fun _ h => ?_⟩
  cases h
  refine ⟨List.mem_singleton.2 rfl, fun _ h => ?_⟩
  cases h
  refine ⟨⟨⟨⟨_, rfl⟩, fun _ h => ?_⟩, trivial, trivial⟩, fun _ h => ?_⟩
  · cases h; exact ⟨rfl, rfl⟩
  cases h
  refine ⟨List.mem_singleton.2 rfl, fun _ h => ?_⟩
  cases h
  exact ⟨⟨.inr ⟨_, rfl⟩, trivial, List.not_mem_nil⟩, fun _ _ => trivial⟩

theorem queries_answered_inspected :
    (∃ s, exec (step 20 ⟨4, 64, by decide, by decide⟩) (Desk.init 20) inspected = some s) ∧
      Always (step 20 ⟨4, 64, by decide, by decide⟩) Guarded (Desk.init 20) inspected ∧
      Each (step 20 ⟨4, 64, by decide, by decide⟩) (Answers ⟨4, 64, by decide, by decide⟩) (Desk.init 20) inspected :=
  queries_answered inspected_allowed

theorem installed_counted_inspected :
    Always (step 20 ⟨4, 64, by decide, by decide⟩) (Counted ⟨4, 64, by decide, by decide⟩) (Desk.init 20) inspected :=
  installed_counted inspected_allowed

end Desk

end Capi4Linux.Capicore
