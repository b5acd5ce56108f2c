import Capi4Linux.Capicore.Callbacks

/-!
# A registration that fails

Without a free slot `capi_device_register` leaves nothing behind. When sysfs
refuses, it takes the way of `capi_device_unregister`: the device goes off the
list, and slot, bits and references stay until the applications are released.
-/

namespace Capi4Linux.Capicore
open Capi4Linux.Capicore.Core Machine

/-- `EMFILE`. -/
def EMFILE : Int := 24

/-- All of `capi_device_register`, with nothing in between; `res` is the result of sysfs. -/
def capiDeviceRegisterWhole (cfg : Config) (c : Core) (d : Nat) (info : Nat → Capinfo0x10) (res : Int) :
    Option (Int × Core) := do
  let c ← capiDeviceRegister cfg c d info
  if c.devPhase d = .returned true then return (-EMFILE, c)
  else
    let c := capiDeviceRegisterSysfs c d res
    if res ≠ 0 then
      let c ← unlinkCapiDevice c d
      let c ← drainCapiDevice c d
      return (res, c)
    else return (res, c)

/-- What a call of `capi_device_register` that failed leaves behind. -/
inductive LeftBehind (cfg : Config) (c : Core) (d : Nat) (info : Nat → Capinfo0x10) : Core → Prop
  | full {dev : CapiDevice} (used : ∀ i < cfg.maxDevs, (c.capiDevsTable i).isSome) (live : c.device d = some dev)
      (refs : dev.refs = 1) :
    LeftBehind cfg c d info { c with
      device := Function.update c.device d (some { dev with id := 0, sem := ⟨true, 0⟩ })
      devPhase := Function.update c.devPhase d (.returned true) }
  | sysfs {i : Nat} (free : i < cfg.maxDevs ∧ c.capiDevsTable i = none) :
    LeftBehind cfg c d info { c with
      capiDevsTable := Function.update c.capiDevsTable i (some d)
      device := Function.update c.device d
        (some ⟨i + 1, ⟨true, 0⟩, 1 + c.capiApplsList.countP (fun a => info a = .NOERR), .self⟩)
      appl := fun a => if a ∈ c.capiApplsList ∧ info a = .NOERR then (c.appl a).marked i else c.appl a
      calls := c.calls ++ c.capiApplsList.map fun a => .capiRegister d a (info a)
      devPhase := Function.update c.devPhase d (.returned true) }

/-- A registered application that a driver accepted keeps the device alive. -/
def Kept (c : Core) : Prop :=
  ∀ a ∈ c.capiApplsList, ∀ d, Accepted c d a → ∃ dev, c.device d = some dev ∧ dev.id ≠ 0

section Calls

variable {cfg : Config} {c c' : Core}

theorem addCapiDeviceLoop_none {table : Nat → Option Nat} (n : Nat) : ∀ {i : Nat},
    addCapiDeviceLoop table n i = none → ∀ j, i ≤ j → j < i + n → (table j).isSome := by
  induction n with
  | zero => intro i _ j low high; omega
  | succ n ih =>
    intro i run j low high
    unfold addCapiDeviceLoop at run
    split at run
    · cases run
    · rename_i used
      rcases Nat.eq_or_lt_of_le low with rfl | low
      · rw [Option.isNone_iff_eq_none, ← ne_eq, Option.ne_none_iff_isSome] at used
        exact used
      · exact ih run j low (by omega)

/-- A call that fails leaves a full table alone, or a device that only the accepted applications still hold. -/
theorem capiDeviceRegisterWhole_fails (h : Registry cfg c) {d : Nat} (alloced : c.devPhase d = .alloced)
    (info : Nat → Capinfo0x10) (res : Int) :
    ∃ r c', capiDeviceRegisterWhole cfg c d info res = some (r, c') ∧
      (r < 0 → LeftBehind cfg c d info c') ∧ (res < 0 → r < 0) := by
  have shape := h.shaped d
  rw [alloced] at shape
  obtain ⟨dev, live, unnumbered⟩ := shape
  have refs : dev.refs = 1 := by
    have count := (h.refs d dev live).1
    rw [alloced, unnumbered] at count
    simpa [own, holders] using count
  have off : d ∉ c.capiDevsList := by
    intro member
    have on := (h.devs.2 d).1 member
    rw [alloced] at on
    exact on
  cases free : addCapiDeviceLoop c.capiDevsTable cfg.maxDevs 0 with
  | none =>
    have used := addCapiDeviceLoop_none cfg.maxDevs free
    refine ⟨-EMFILE, _, ?_, fun _ => 
      .full (fun i lt => used i (Nat.zero_le i) (by omega)) live refs, fun _ => by decide⟩
    simp only [capiDeviceRegisterWhole, capiDeviceRegister_eq live, free, Option.bind_eq_bind, Option.bind_some,
      Function.update_self]
    rfl
  | some i =>
    obtain ⟨bound, empty⟩ := addCapiDeviceLoop_some cfg.maxDevs free
    have erased : (c.capiDevsList ++ [d]).erase d = c.capiDevsList := by
      rw [List.erase_append_right _ off, List.erase_cons_head, List.append_nil]
    have whole : capiDeviceRegisterWhole cfg c d info res = some (res, if res ≠ 0 then { c with
        capiDevsTable := Function.update c.capiDevsTable i (some d)
        device := Function.update c.device d
          (some ⟨i + 1, ⟨true, 0⟩, 1 + c.capiApplsList.countP (fun a => info a = .NOERR), .self⟩)
        appl := fun a => if a ∈ c.capiApplsList ∧ info a = .NOERR then (c.appl a).marked i else c.appl a
        calls := c.calls ++ c.capiApplsList.map fun a => .capiRegister d a (info a)
        devPhase := Function.update c.devPhase d (.returned true) } else { c with
        capiDevsTable := Function.update c.capiDevsTable i (some d)
        device := Function.update c.device d
          (some ⟨i + 1, ⟨false, 0⟩, 1 + c.capiApplsList.countP (fun a => info a = .NOERR), .linked⟩)
        appl := fun a => if a ∈ c.capiApplsList ∧ info a = .NOERR then (c.appl a).marked i else c.appl a
        calls := c.calls ++ c.capiApplsList.map fun a => .capiRegister d a (info a)
        nrCapiDevs := c.nrCapiDevs + 1
        capiDevsList := c.capiDevsList ++ [d]
        devPhase := Function.update c.devPhase d .registered }) := by
      simp only [capiDeviceRegisterWhole, capiDeviceRegister_eq live, free, Option.bind_eq_bind, Option.bind_some,
        Function.update_self, capiDeviceRegisterSysfs, setDevPhase]
      rw [if_neg (by decide)]
      split
      · simp [unlinkCapiDevice, drainCapiDevice, setDevice, setDevPhase, erased, refs]
      · simp [refs]
    refine ⟨res, _, whole, fun neg => ?_, id⟩
    rw [if_pos (by omega)]
    exact .sysfs ⟨by omega, empty⟩

/-- A bit that is kept leads to the device that had it. -/
theorem Kept.of_bits (h : Registry cfg c) (h' : Registry cfg c') (t : Traced c) (slots : SlotKept c c') {a d : Nat}
    (member : a ∈ c.capiApplsList) (member' : a ∈ c'.capiApplsList) (bits : (c'.appl a).devs = (c.appl a).devs)
    (accepted : Accepted c d a) (kept : Kept c) : ∃ dev, c'.device d = some dev ∧ dev.id ≠ 0 := by
  obtain ⟨dev, live, numbered⟩ := kept a member d accepted
  have bit := (t.accepted a member d dev live numbered).2 accepted
  have slot := (h.slots (dev.id - 1) d).2 ⟨dev, live, by omega⟩
  have used := h'.bits a member' (dev.id - 1) (by rw [bits]; exact bit)
  rcases slots _ _ slot with same | ⟨gone, -⟩
  · obtain ⟨dev', live', id⟩ := (h'.slots _ d).1 same
    exact ⟨dev', live', by omega⟩
  · rw [gone] at used
    cases used

theorem Effect.kept {l : Section} (h : Registry cfg c) (h' : Registry cfg c') (t : Traced c) (slots : SlotKept c c')
    (kept : Kept c) (effect : Effect cfg c l c') : Kept c' := by
  intro a member' d accepted'
  cases effect with
  | still other still eq =>
    have member : a ∈ c.capiApplsList := still.list ▸ member'
    have accepted : Accepted c d a := by rwa [Accepted, eq] at accepted'
    exact kept.of_bits h h' t slots member member' (still.bits a member) accepted
  | entered still underway live free eq =>
    have member : a ∈ c.capiApplsList := still.list ▸ member'
    have accepted : Accepted c d a := by simpa [Accepted, eq] using accepted'
    exact kept.of_bits h h' t slots member member' (still.bits a member) accepted
  | @bound e i info dev _ alloced live unnumbered free list applPhase device appl eq devs devPhase =>
    obtain ⟨dev', id, device⟩ := device
    have member : a ∈ c.capiApplsList := list ▸ member'
    rcases eq_or_ne d e with rfl | other
    · exact ⟨dev', by rw [device, Function.update_self], by omega⟩
    · have accepted : Accepted c d a := by
        unfold Accepted at accepted' ⊢
        rw [eq, List.mem_append] at accepted'
        refine accepted'.resolve_right fun new => ?_
        obtain ⟨b, -, same⟩ := List.mem_map.1 new
        simp only [DrvCall.capiRegister.injEq] at same
        exact other same.1.symm
      obtain ⟨v, live', numbered⟩ := kept a member d accepted
      exact ⟨v, by rw [device, Function.update_of_ne other]; exact live', numbered⟩
  | @joined b datablklen info _ fresh perm joined =>
    obtain ⟨⟨list, appl, device, frame⟩, others, devs, device'⟩ := joined
    have stays : ∀ {dev}, c.device d = some dev → dev.id ≠ 0 → ∃ dev', c'.device d = some dev' ∧ dev'.id ≠ 0 := by
      intro dev live numbered
      rw [device' d]
      split
      · exact ⟨dev.held 1, by rw [live]; rfl, numbered⟩
      · exact ⟨dev, live, numbered⟩
    have eq : c'.calls = c.calls ++ c.capiDevsList.map fun d => .capiRegister d b (info d) := by rw [frame]
    unfold Accepted at accepted'
    rw [eq, List.mem_append] at accepted'
    rcases accepted' with accepted | new
    · have old : a ∈ c.capiApplsList := by
        refine (List.mem_cons.1 (perm.subset member')).resolve_left fun same => ?_
        have never := t.early d a (.inl (same ▸ fresh))
        exact absurd (Accepted.registers accepted) (by omega)
      obtain ⟨dev, live, numbered⟩ := kept a old d accepted
      exact stays live numbered
    · obtain ⟨e, listed, same⟩ := List.mem_map.1 new
      simp only [DrvCall.capiRegister.injEq] at same
      obtain ⟨dev, live, numbered⟩ := h.listed_live e listed
      rw [same.1] at live
      exact stays live numbered
  | @released b c1 registered released =>
    obtain ⟨table, device, tail, frame, nodup, mem⟩ := released.frame
    have member : a ∈ c.capiApplsList := by
      rw [frame] at member'
      exact List.mem_of_mem_erase member'
    have accepted : Accepted c d a := by
      unfold Accepted at accepted' ⊢
      rw [frame] at accepted'
      refine (List.mem_append.1 accepted').resolve_right fun new => ?_
      obtain ⟨_, _, same, -⟩ := (mem _).1 new
      cases same
    apply kept.of_bits h h' t slots member member' ?_ accepted
    rw [frame]
    rfl

end Calls

/-! ## Runs -/

/-- A device off the list that `owned` references of its driver's and the accepted applications hold: as long as one
of these applications is registered the device has its slot, and each of them has the bit of it. -/
structure HeldBy (c : Core) (d owned : Nat) (dev : CapiDevice) : Prop where
  off : d ∉ c.capiDevsList
  refs : dev.refs = owned + c.capiApplsList.countP (fun a => Accepted c d a)
  numbered : ∀ a ∈ c.capiApplsList, Accepted c d a → dev.id ≠ 0
  slot : dev.id ≠ 0 → c.capiDevsTable (dev.id - 1) = some d
  bits : dev.id ≠ 0 → ∀ a ∈ c.capiApplsList, ((c.appl a).devs (dev.id - 1) = true ↔ Accepted c d a)

/-- What becomes of a device whose registration has failed: only the registered applications that its driver accepted
hold it, and it is freed when the driver has put it and the last of them is released. -/
structure Remains (c : Core) (d : Nat) : Prop where
  returned : c.devPhase d = .returned true → ∃ dev, c.device d = some dev ∧ HeldBy c d 1 dev
  put : c.devPhase d = .put → ((c.device d).isSome ↔ ∃ a ∈ c.capiApplsList, Accepted c d a) ∧
    ∀ dev, c.device d = some dev → HeldBy c d 0 dev
  freed : c.device d = none → ∀ i, c.capiDevsTable i ≠ some d

section Runs

variable {cfg : Config} {c : Core} {ls : List Section}

theorem holders_accepted (t : Traced c) (kept : Kept c) {d : Nat} {dev : CapiDevice}
    (live : c.device d = some dev) : holders c dev.id = c.capiApplsList.countP (fun a => Accepted c d a) := by
  unfold holders
  split
  · rename_i unnumbered
    symm
    rw [List.countP_eq_zero]
    intro a member accepted
    obtain ⟨dev', live', numbered⟩ := kept a member d (of_decide_eq_true accepted)
    rw [live] at live'
    cases live'
    exact numbered unnumbered
  · rename_i numbered
    apply List.countP_congr
    intro a member
    rw [t.accepted a member d dev live numbered, decide_eq_true_iff]

/-- An unlinked device is held by its driver's reference and the applications. -/
theorem Traced.heldBy (h : Registry cfg c) (t : Traced c) (kept : Kept c) {d : Nat} {dev : CapiDevice}
    (off : d ∉ c.capiDevsList) (live : c.device d = some dev) : HeldBy c d (own (c.devPhase d)) dev := by
  refine ⟨off, ?_, fun a member accepted => ?_, fun numbered => (h.slots _ d).2 ⟨dev, live, by omega⟩,
    fun numbered a member => t.accepted a member d dev live numbered⟩
  · rw [← holders_accepted t kept live]
    exact (h.refs d dev live).1
  · obtain ⟨dev', live', numbered⟩ := kept a member d accepted
    rw [live] at live'
    cases live'
    exact numbered

theorem remains (h : Registry cfg c) (t : Traced c) (kept : Kept c) (d : Nat) : Remains c d := by
  have off (unlisted : ¬ (c.devPhase d).Listed) : d ∉ c.capiDevsList := fun member => unlisted ((h.devs.2 d).1 member)
  constructor
  · intro phase
    obtain ⟨dev, live⟩ := h.live (d := d) (by rw [phase]; rfl)
    have held := t.heldBy h kept (off (by rw [phase]; exact id)) live
    rw [phase] at held
    exact ⟨dev, live, held⟩
  · intro phase
    have held : ∀ dev, c.device d = some dev → HeldBy c d 0 dev := by
      intro dev live
      have held := t.heldBy h kept (off (by rw [phase]; exact id)) live
      rwa [phase] at held
    refine ⟨⟨fun some => ?_, fun ⟨a, member, accepted⟩ => ?_⟩, held⟩
    · obtain ⟨dev, live⟩ := Option.isSome_iff_exists.1 some
      have pos := (h.refs d dev live).2
      rw [(held dev live).refs, Nat.zero_add] at pos
      obtain ⟨a, member, accepted⟩ := List.countP_pos_iff.1 pos
      exact ⟨a, member, of_decide_eq_true accepted⟩
    · obtain ⟨dev, live, -⟩ := kept a member d accepted
      rw [live]
      rfl
  · intro gone i slot
    obtain ⟨dev, live, -⟩ := (h.slots i d).1 slot
    rw [gone] at live
    cases live

/-- Wherever registration fails in a run, the device list, the number of devices and the applications' list are as
before, and what a driver has accepted stays with the applications until they are released. No driver is called for
a device whose registration has failed, and a slot that is taken is kept until its device is freed. -/
theorem failed_registration_remains (allowed : Meets (step cfg) (fun c l => Allowed c l ∧ InRange cfg c l) Core.init ls) :
    (∃ c, exec (step cfg) Core.init ls = some c) ∧
    Always (step cfg) (fun c => ∀ d, (c.devPhase d = .alloced → ∀ info res, ∃ r c',
      capiDeviceRegisterWhole cfg c d info res = some (r, c') ∧ (r < 0 → LeftBehind cfg c d info c') ∧
      (res < 0 → r < 0)) ∧ Remains c d) Core.init ls ∧
    Each (step cfg) (fun c _ c' => (∃ new, c'.calls = c.calls ++ new ∧ ∀ e ∈ new, ¬ (c.devPhase e.dev).Done) ∧
      SlotKept c c') Core.init ls := by
  obtain ⟨run, -, each⟩ := run_good (registry_init cfg) traced_init allowed
  have kept_init : Kept Core.init := by
    intro a member
    cases member
  have always : Always (step cfg) (fun c => (Registry cfg c ∧ Traced c) ∧ Kept c) Core.init ls := by
    apply always_of_inv ?_ ⟨⟨registry_init cfg, traced_init⟩, kept_init⟩ allowed
    intro c l c' inv ok run
    obtain ⟨c2, run', good, -, slots⟩ := step_good inv.1.1 inv.1.2 ok.1 ok.2
    rw [run] at run'
    cases run'
    exact ⟨good, (step_effect inv.1.1 ok.1 ok.2 run).kept inv.1.1 good.1 inv.1.2 slots inv.2⟩
  refine ⟨run, ?_, ?_⟩
  · apply always.mono
    intro c inv d
    constructor
    · intro alloced info res
      exact capiDeviceRegisterWhole_fails inv.1.1 alloced info res
    · exact remains inv.1.1 inv.1.2 inv.2 d
  · apply each.mono
    intro c l c' ⟨⟨new, eq, _, _, _, quiet⟩, slots⟩
    exact ⟨⟨new, eq, quiet⟩, slots⟩

end Runs

/-- An application registers, then a device for which sysfs answers `-ENOMEM`. -/
def refusedBySysfs : List Section :=
  [.applRegister 0 2048 (fun _ => .NOERR), .deviceAlloc true, .deviceRegister 0 (fun _ => .NOERR),
    .deviceRegisterSysfs 0 (-12), .deviceUnlink 0, .deviceDrain 0]

theorem refusedBySysfs_allowed : Meets (step ⟨4, 64, by decide, by decide⟩)
    (fun c l => Allowed c l ∧ InRange ⟨4, 64, by decide, by decide⟩ c l) Core.init refusedBySysfs := by
  refine ⟨⟨rfl, fun _ => .inl (by decide)⟩, fun _ h => ?_⟩
  cases h
  refine ⟨⟨trivial, trivial⟩, fun _ h => ?_⟩
  cases h
  refine ⟨⟨rfl, trivial⟩, fun _ h => ?_⟩
  cases h
  refine ⟨⟨rfl, trivial⟩, fun _ h => ?_⟩
  cases h
  refine ⟨⟨.inl rfl, trivial⟩, fun _ h => ?_⟩
  cases h
  refine ⟨⟨⟨⟨_, rfl⟩, fun _ h => ?_⟩, trivial⟩, fun _ _ => trivial⟩
  cases h
  exact ⟨rfl, rfl⟩

theorem failed_registration_remains_sysfs :
    (∃ c, exec (step ⟨4, 64, by decide, by decide⟩) Core.init refusedBySysfs = some c) ∧
    Always (step ⟨4, 64, by decide, by decide⟩) (fun c => ∀ d, (c.devPhase d = .alloced → ∀ info res, ∃ r c',
      capiDeviceRegisterWhole ⟨4, 64, by decide, by decide⟩ c d info res = some (r, c') ∧
      (r < 0 → LeftBehind ⟨4, 64, by decide, by decide⟩ c d info c') ∧ (res < 0 → r < 0)) ∧ Remains c d)
      Core.init refusedBySysfs ∧
    Each (step ⟨4, 64, by decide, by decide⟩)
      (fun c _ c' => (∃ new, c'.calls = c.calls ++ new ∧ ∀ e ∈ new, ¬ (c.devPhase e.dev).Done) ∧ SlotKept c c')
      Core.init refusedBySysfs :=
  failed_registration_remains refusedBySysfs_allowed

/-- The application keeps its bit and its reference, the device its slot; the driver is not told, and its
`capi_device_put` does not free the device. -/
theorem failed_registration_keeps : ∃ c dev, exec (step ⟨4, 64, by decide, by decide⟩) Core.init refusedBySysfs = some c ∧
    c.devPhase 0 = .returned true ∧ c.applPhase 0 = .registered ∧ c.device 0 = some dev ∧ dev.id = 1 ∧ dev.refs = 2 ∧
    (c.appl 0).devs 0 = true ∧ c.capiDevsTable 0 = some 0 ∧ c.calls = [.capiRegister 0 0 .NOERR] ∧
    ∃ c', step ⟨4, 64, by decide, by decide⟩ c (.devicePut 0) = some c' ∧ (c'.device 0).isSome :=
  ⟨_, _, rfl, rfl, rfl, rfl, rfl, rfl, rfl, rfl, rfl, _, rfl, rfl⟩

end Capi4Linux.Capicore
