import Capi4Linux.Capicore.Effects

/-!
# The registry of devices and applications

The slot table, the device list, the bits of the applications and the reference
counts describe one relation: which registered application holds which device.
-/

namespace Capi4Linux.Capicore
open Capi4Linux.Capicore.Core Machine

/-- The reference of the driver itself. -/
def own : DevPhase → Nat
  | .absent => 0
  | .put => 0
  | _ => 1

/-- The registered applications that have the bit of device number `id`. -/
def holders (c : Core) (id : Nat) : Nat :=
  if id = 0 then 0 else c.capiApplsList.countP fun a => (c.appl a).devs (id - 1)

/-- The phases in which a device is on `capi_devs_list`. -/
def DevPhase.Listed : DevPhase → Prop
  | .bound => True
  | .failing => True
  | .registered => True
  | _ => False

/-- What a device looks like at each point of its life. -/
def Shaped : DevPhase → Option CapiDevice → Prop
  | .absent, v => v = none
  | .alloced, v => ∃ dev, v = some dev ∧ dev.id = 0
  | .bound, v => ∃ dev, v = some dev ∧ dev.id ≠ 0 ∧ dev.entry = .linked
  | .failing, v => ∃ dev, v = some dev ∧ dev.id ≠ 0 ∧ dev.entry = .linked
  | .registered, v => ∃ dev, v = some dev ∧ dev.id ≠ 0 ∧ dev.entry = .linked
  | .unlinked _, v => ∃ dev, v = some dev ∧ dev.id ≠ 0 ∧ dev.entry = .self
  | .returned _, v => ∃ dev, v = some dev ∧ (dev.id ≠ 0 → dev.entry = .self ∧ dev.sem.writer = true)
  | .put, v => ∀ dev, v = some dev → dev.id ≠ 0 → dev.entry = .self ∧ dev.sem.writer = true

/-- A call of `capi_put_message` names a registered application and a device it holds. -/
def Underway (c : Core) (p : Put) : Prop :=
  p.appl ∈ c.capiApplsList ∧ ∃ i, (c.appl p.appl).devs i = true ∧ c.capiDevsTable i = some p.dev

/-- The registry is in order. -/
structure Registry (cfg : Config) (c : Core) : Prop where
  listed : Listed cfg c
  slots : Slots c
  number : ∀ d dev, c.device d = some dev → dev.id ≤ cfg.maxDevs
  bits : ∀ a ∈ c.capiApplsList, ∀ i, (c.appl a).devs i = true → (c.capiDevsTable i).isSome
  refs : ∀ d dev, c.device d = some dev → dev.refs = own (c.devPhase d) + holders c dev.id ∧ 0 < dev.refs
  shaped : ∀ d, Shaped (c.devPhase d) (c.device d)
  fresh : ∀ d, c.allocated ≤ d → c.devPhase d = .absent
  devs : c.capiDevsList.Nodup ∧ ∀ d, d ∈ c.capiDevsList ↔ (c.devPhase d).Listed
  puts : ∀ p ∈ c.puts, Underway c p

/-- At the start nothing is registered. -/
theorem registry_init (cfg : Config) : Registry cfg Core.init where
  listed := listed_init cfg
  slots := by intro i d; simp [Core.init]
  number := by simp [Core.init]
  bits := by simp [Core.init]
  refs := by simp [Core.init]
  shaped := fun _ => rfl
  fresh := fun _ _ => rfl
  devs := ⟨List.nodup_nil, by simp [Core.init, DevPhase.Listed]⟩
  puts := by simp [Core.init]

/-- A device whose owner has not let go of it is in memory. -/
theorem Shaped.live {p : DevPhase} {v : Option CapiDevice} (h : Shaped p v) (owned : own p = 1) : v.isSome := by
  cases p with
  | absent => cases owned
  | put => cases owned
  | _ => obtain ⟨dev, rfl, -⟩ := h; rfl

/-- A numbered device is linked while it is listed. -/
theorem Shaped.entry {p : DevPhase} {dev : CapiDevice} (h : Shaped p (some dev)) (numbered : dev.id ≠ 0) :
    dev.entry ≠ .self ↔ p.Listed := by
  cases p with
  | absent => cases h
  | alloced => obtain ⟨_, ⟨⟩, zero⟩ := h; exact absurd zero numbered
  | bound => obtain ⟨_, ⟨⟩, -, linked⟩ := h; simp [linked, DevPhase.Listed]
  | failing => obtain ⟨_, ⟨⟩, -, linked⟩ := h; simp [linked, DevPhase.Listed]
  | registered => obtain ⟨_, ⟨⟩, -, linked⟩ := h; simp [linked, DevPhase.Listed]
  | unlinked => obtain ⟨_, ⟨⟩, -, off⟩ := h; simp [off, DevPhase.Listed]
  | returned => obtain ⟨_, ⟨⟩, off⟩ := h; simp [(off numbered).1, DevPhase.Listed]
  | put => simp [(h dev rfl numbered).1, DevPhase.Listed]

/-- A device keeps its shape when references come and go. -/
theorem Shaped.rerefs {p : DevPhase} {dev dev' : CapiDevice} (h : Shaped p (some dev)) (id : dev'.id = dev.id)
    (entry : dev'.entry = dev.entry) (sem : dev'.sem = dev.sem) : Shaped p (some dev') := by
  cases p with
  | absent => cases h
  | alloced => obtain ⟨_, ⟨⟩, zero⟩ := h; exact ⟨dev', rfl, id.trans zero⟩
  | bound => obtain ⟨_, ⟨⟩, nz, linked⟩ := h; exact ⟨dev', rfl, id ▸ nz, entry.trans linked⟩
  | failing => obtain ⟨_, ⟨⟩, nz, linked⟩ := h; exact ⟨dev', rfl, id ▸ nz, entry.trans linked⟩
  | registered => obtain ⟨_, ⟨⟩, nz, linked⟩ := h; exact ⟨dev', rfl, id ▸ nz, entry.trans linked⟩
  | unlinked => obtain ⟨_, ⟨⟩, nz, off⟩ := h; exact ⟨dev', rfl, id ▸ nz, entry.trans off⟩
  | returned => obtain ⟨_, ⟨⟩, off⟩ := h; exact ⟨dev', rfl, by rw [id, entry, sem]; exact off⟩
  | put =>
    intro _ same nz
    cases same
    rw [entry, sem]
    exact h dev rfl (id ▸ nz)

/-- A device that the driver does not own may be gone. -/
theorem Shaped.gone {p : DevPhase} (unowned : own p = 0) : Shaped p none := by
  cases p with
  | absent => rfl
  | put => exact fun _ e => by cases e
  | _ => cases unowned

namespace Registry

variable {cfg : Config} {c c' : Core}

/-- The number and the reference count of a device. -/
def key (dev : CapiDevice) : Nat × Nat := (dev.id, dev.refs)

/-- The holders of a device number depend on the bits of the listed applications. -/
theorem holders_congr (list : c'.capiApplsList = c.capiApplsList)
    (bits : ∀ a ∈ c.capiApplsList, ∀ i, (c'.appl a).devs i = (c.appl a).devs i) (id : Nat) :
    holders c' id = holders c id := by
  unfold holders
  rw [list]
  split
  · rfl
  · exact List.countP_congr fun a ha => by rw [bits a ha]

/-- Applications take and drop references: a device keeps its phase, and one that somebody still holds is there. -/
theorem rehold (h : Registry cfg c) (listed : Listed cfg c') (slots : Slots c') (phase : c'.devPhase = c.devPhase)
    (allocated : c'.allocated = c.allocated) (devs : c'.capiDevsList = c.capiDevsList)
    (origin : ∀ d dev', c'.device d = some dev' → ∃ dev, c.device d = some dev ∧ dev'.id = dev.id ∧
      dev'.entry = dev.entry ∧ dev'.sem = dev.sem ∧ dev'.refs = own (c.devPhase d) + holders c' dev.id ∧ 0 < dev'.refs)
    (survives : ∀ d dev, c.device d = some dev → 0 < own (c.devPhase d) + holders c' dev.id → (c'.device d).isSome)
    (bits : ∀ a ∈ c'.capiApplsList, ∀ i, (c'.appl a).devs i = true → (c'.capiDevsTable i).isSome)
    (puts : ∀ p ∈ c'.puts, Underway c' p) : Registry cfg c' where
  listed
  slots
  bits
  puts
  number := by
    intro d dev' live'
    obtain ⟨dev, live, id, -⟩ := origin d dev' live'
    exact id ▸ h.number d dev live
  refs := by
    intro d dev' live'
    obtain ⟨dev, live, id, -, -, refs⟩ := origin d dev' live'
    rw [phase, id]
    exact refs
  shaped := by
    intro d
    rw [phase]
    have shape := h.shaped d
    cases live' : c'.device d with
    | some dev' =>
      obtain ⟨dev, live, id, entry, sem, -⟩ := origin d dev' live'
      rw [live] at shape
      exact shape.rerefs id entry sem
    | none =>
      cases live : c.device d with
      | none => rwa [live] at shape
      | some dev =>
        apply Shaped.gone
        by_contra owned
        have there := survives d dev live (by omega)
        rw [live'] at there
        cases there
  fresh := by
    rw [phase, allocated]
    exact h.fresh
  devs := by
    rw [devs, phase]
    exact h.devs

/-- A section that leaves devices and bits alone. -/
theorem quiet (h : Registry cfg c) (listed : Listed cfg c') (list : c'.capiApplsList = c.capiApplsList)
    (bits : ∀ a ∈ c.capiApplsList, ∀ i, (c'.appl a).devs i = (c.appl a).devs i)
    (table : c'.capiDevsTable = c.capiDevsTable) (device : c'.device = c.device) (phase : c'.devPhase = c.devPhase)
    (allocated : c'.allocated = c.allocated) (devs : c'.capiDevsList = c.capiDevsList)
    (puts : ∀ p ∈ c'.puts, Underway c p) : Registry cfg c' := by
  have slots : Slots c' := by
    unfold Slots
    rw [table, device]
    exact h.slots
  refine h.rehold listed slots phase allocated devs ?_ ?_ ?_ ?_
  · intro d dev live
    rw [device] at live
    refine ⟨dev, live, rfl, rfl, rfl, ?_⟩
    rw [holders_congr list bits]
    exact h.refs d dev live
  · intro d dev live _
    rw [device, live]
    rfl
  · intro a ha i bit
    rw [list] at ha
    rw [bits a ha] at bit
    rw [table]
    exact h.bits a ha i bit
  · intro p hp
    obtain ⟨ha, i, bit, slot⟩ := puts p hp
    exact ⟨list ▸ ha, i, by rw [bits _ ha]; exact bit, by rw [table]; exact slot⟩

/-- One device changes, and the driver moves on with it; the others keep their holders. -/
theorem replace (h : Registry cfg c) {d : Nat} {v : Option CapiDevice} {p : DevPhase}
    (device : c'.device = Function.update c.device d v) (phase : c'.devPhase = Function.update c.devPhase d p)
    (listed : Listed cfg c') (slots : Slots c') (shape : Shaped p v)
    (mine : ∀ dev, v = some dev → dev.id ≤ cfg.maxDevs ∧ dev.refs = own p + holders c' dev.id ∧ 0 < dev.refs)
    (others : ∀ e ≠ d, ∀ dev, c.device e = some dev → holders c' dev.id = holders c dev.id)
    (bits : ∀ a ∈ c'.capiApplsList, ∀ i, (c'.appl a).devs i = true → (c'.capiDevsTable i).isSome)
    (fresh : ∀ e, c'.allocated ≤ e → c.allocated ≤ e ∧ e ≠ d)
    (devs : c'.capiDevsList.Nodup ∧ ∀ e, e ∈ c'.capiDevsList ↔ (Function.update c.devPhase d p e).Listed)
    (puts : ∀ q ∈ c'.puts, Underway c' q) : Registry cfg c' where
  listed
  slots
  bits
  puts
  number := by
    intro e dev live
    rw [device] at live
    by_cases eq : e = d
    · subst eq
      rw [Function.update_self] at live
      exact (mine dev live).1
    · rw [Function.update_of_ne eq] at live
      exact h.number e dev live
  refs := by
    intro e dev live
    rw [device] at live
    rw [phase]
    by_cases eq : e = d
    · subst eq
      rw [Function.update_self] at live ⊢
      exact (mine dev live).2
    · rw [Function.update_of_ne eq] at live ⊢
      rw [others e eq dev live]
      exact h.refs e dev live
  shaped := by
    intro e
    rw [phase, device]
    by_cases eq : e = d
    · subst eq
      rw [Function.update_self, Function.update_self]
      exact shape
    · rw [Function.update_of_ne eq, Function.update_of_ne eq]
      exact h.shaped e
  fresh := by
    intro e le
    obtain ⟨old, ne⟩ := fresh e le
    rw [phase, Function.update_of_ne ne]
    exact h.fresh e old
  devs := by
    rw [phase]
    exact devs

/-- A device whose life has begun has no number still to come. -/
theorem begun (h : Registry cfg c) {d : Nat} (there : c.devPhase d ≠ .absent) :
    ∀ e, c.allocated ≤ e → c.allocated ≤ e ∧ e ≠ d := by
  rintro e le
  refine ⟨le, ?_⟩
  rintro rfl
  exact there (h.fresh e le)

/-! ## Devices -/

/-- A device in a phase that owns a reference is there. -/
theorem live (h : Registry cfg c) {d : Nat} (owned : own (c.devPhase d) = 1) :
    ∃ dev, c.device d = some dev :=
  Option.isSome_iff_exists.1 ((h.shaped d).live owned)

/-- A phase that is listed as the last one was leaves the list. -/
theorem devs_keep (h : Registry cfg c) {d : Nat} {p : DevPhase} (same : p.Listed ↔ (c.devPhase d).Listed) :
    c.capiDevsList.Nodup ∧ ∀ e, e ∈ c.capiDevsList ↔ (Function.update c.devPhase d p e).Listed := by
  refine ⟨h.devs.1, fun e => ?_⟩
  rw [h.devs.2 e]
  by_cases eq : e = d
  · subst eq; simp [same]
  · simp [eq]

/-- `capi_device_alloc` keeps the registry. -/
theorem deviceAlloc (h : Registry cfg c) (mem : Bool) : Registry cfg (capiDeviceAlloc c mem) := by
  cases mem with
  | false => exact h
  | true =>
    have unborn := h.fresh c.allocated (Nat.le_refl _)
    have absent : c.device c.allocated = none := by
      have shape := h.shaped c.allocated
      rw [unborn] at shape
      exact shape
    refine h.replace (d := c.allocated) (v := some ⟨0, ⟨false, 0⟩, 1, .zeroed⟩) (p := .alloced) rfl rfl
      ⟨h.listed.numbered, h.listed.phase⟩ ?_ ⟨_, rfl, rfl⟩ ?_ (fun _ _ _ _ => rfl) h.bits ?_ (h.devs_keep ?_) h.puts
    · intro i d
      change c.capiDevsTable i = some d ↔ ∃ dev, Function.update c.device c.allocated _ d = some dev ∧ _
      rw [h.slots i d]
      by_cases eq : d = c.allocated
      · subst eq; simp [absent]
      · rw [Function.update_of_ne eq]
    · rintro dev ⟨⟩
      exact ⟨Nat.zero_le _, rfl, Nat.one_pos⟩
    · intro e le
      have le : c.allocated + 1 ≤ e := le
      omega
    · rw [unborn]
      simp [DevPhase.Listed]

/-- The device structure changes in its semaphore or its list entry, and the driver moves on. -/
theorem moveOn (h : Registry cfg c) (dev' : CapiDevice) (p : DevPhase) (n : Int) (calls : List DrvCall) {d : Nat}
    {dev : CapiDevice} {list : List Nat} {puts : List Put} (live : c.device d = some dev) (same : key dev' = key dev)
    (owned : own p = own (c.devPhase d)) (shape : Shaped p (some dev'))
    (devs : list.Nodup ∧ ∀ e, e ∈ list ↔ (Function.update c.devPhase d p e).Listed)
    (underway : ∀ q ∈ puts, Underway c q) :
    Registry cfg { c with
      device := Function.update c.device d (some dev'), devPhase := Function.update c.devPhase d p
      capiDevsList := list, nrCapiDevs := n, calls := calls, puts := puts } := by
  obtain ⟨id, refs⟩ := Prod.mk.inj same
  have there : c.devPhase d ≠ .absent := by
    intro absent
    have gone := h.shaped d
    rw [absent, live] at gone
    cases gone
  refine h.replace rfl rfl ⟨h.listed.numbered, h.listed.phase⟩ ?_ shape ?_ (fun _ _ _ _ => rfl) h.bits (h.begun there)
    devs underway
  · intro i e
    change c.capiDevsTable i = some e ↔ ∃ dev, Function.update c.device d (some dev') e = some dev ∧ _
    rw [h.slots i e]
    by_cases eq : e = d
    · subst eq; simp [live, id]
    · rw [Function.update_of_ne eq]
  · rintro _ ⟨⟩
    rw [id, refs, owned]
    exact ⟨h.number d dev live, h.refs d dev live⟩

/-- The answer of sysfs keeps it. -/
theorem deviceRegisterSysfs (h : Registry cfg c) {d : Nat} (bound : c.devPhase d = .bound) (res : Int) :
    Registry cfg (capiDeviceRegisterSysfs c d res) := by
  have shape := h.shaped d
  rw [bound] at shape
  obtain ⟨dev, live, numbered, linked⟩ := shape
  have unchanged : Function.update c.device d (some dev) = c.device := by rw [← live, Function.update_eq_self]
  unfold capiDeviceRegisterSysfs
  split
  · have moved := h.moveOn dev .failing c.nrCapiDevs c.calls live rfl (by rw [bound]; rfl)
      ⟨dev, rfl, numbered, linked⟩ (h.devs_keep (by rw [bound]; simp [DevPhase.Listed])) h.puts
    rw [unchanged] at moved
    exact moved
  · have moved := h.moveOn dev .registered c.nrCapiDevs c.calls live rfl (by rw [bound]; rfl)
      ⟨dev, rfl, numbered, linked⟩ (h.devs_keep (by rw [bound]; simp [DevPhase.Listed])) h.puts
    rw [unchanged] at moved
    exact moved

/-- A device on the list can be taken off. -/
theorem deviceUnlink (h : Registry cfg c) {d : Nat} (on : c.devPhase d = .failing ∨ c.devPhase d = .registered) :
    ∃ c', unlinkCapiDevice c d = some c' ∧ Registry cfg c' := by
  have shape := h.shaped d
  have linked : ∃ dev, c.device d = some dev ∧ dev.id ≠ 0 := by
    rcases on with on | on
    · rw [on] at shape
      obtain ⟨dev, live, numbered, -⟩ := shape
      exact ⟨dev, live, numbered⟩
    · rw [on] at shape
      obtain ⟨dev, live, numbered, -⟩ := shape
      exact ⟨dev, live, numbered⟩
  obtain ⟨dev, live, numbered⟩ := linked
  refine ⟨_, unlinkCapiDevice_eq live, ?_⟩
  refine h.moveOn { dev with entry := .self } _ _ _ live rfl ?_ ⟨_, rfl, numbered, rfl⟩ ⟨h.devs.1.erase d, ?_⟩ h.puts
  · rcases on with on | on
    · rw [on]; rfl
    · rw [on]; rfl
  · intro e
    rw [h.devs.1.mem_erase_iff]
    by_cases eq : e = d
    · subst eq; simp [DevPhase.Listed]
    · simp [eq, h.devs.2 e]

/-- A device off the list waits until nobody is inside. -/
theorem deviceDrain (h : Registry cfg c) {d : Nat} {err : Bool} (off : c.devPhase d = .unlinked err) :
    ∃ c', drainCapiDevice c d = some c' ∧ Registry cfg c' := by
  have shape := h.shaped d
  rw [off] at shape
  obtain ⟨dev, live, numbered, self⟩ := shape
  refine ⟨_, drainCapiDevice_eq live, ?_⟩
  refine h.moveOn { dev with sem := { dev.sem with writer := true } } _ _ _ live rfl (by rw [off]; rfl)
    ⟨_, rfl, fun _ => ⟨self, rfl⟩⟩ (h.devs_keep ?_) h.puts
  rw [off]
  simp [DevPhase.Listed]

/-! ## Messages -/

/-- A registered application finds its device or is refused. -/
theorem putLookup (h : Registry cfg c) {a : Nat} (registered : c.applPhase a = .registered)
    (msg : Option (List UInt8)) :
    ∃ r, capiPutMessageLookup cfg c a msg = some r ∧ ∀ p, r = .inr p → Underway c p := by
  unfold capiPutMessageLookup
  dsimp only
  split
  · exact ⟨_, rfl, fun p e => by cases e⟩
  · cases msg with
    | none => exact ⟨_, rfl, fun p e => by cases e⟩
    | some msg =>
      dsimp only
      split
      · exact ⟨_, rfl, fun p e => by cases e⟩
      · split
        · exact ⟨_, rfl, fun p e => by cases e⟩
        · rename_i addressed
          have member := (h.listed.phase a).2 registered
          obtain ⟨-, -, bit⟩ := not_not.1 addressed
          obtain ⟨d, slot⟩ := Option.isSome_iff_exists.1 (h.bits a member _ bit)
          refine ⟨.inr ⟨a, d, msg, false⟩, by rw [slot]; rfl, fun p e => ?_⟩
          cases e
          exact ⟨member, _, bit, slot⟩

/-- The device of a call underway is there. -/
theorem underway_live (h : Registry cfg c) {p : Put} (underway : Underway c p) :
    ∃ dev, c.device p.dev = some dev ∧ dev.id ≠ 0 ∧ (c.appl p.appl).devs (dev.id - 1) = true := by
  obtain ⟨-, i, bit, slot⟩ := underway
  obtain ⟨dev, live, id⟩ := (h.slots i p.dev).1 slot
  exact ⟨dev, live, by omega, by rw [id]; exact bit⟩

/-- Taking or giving back the semaphore for reading. -/
theorem readers (h : Registry cfg c) {d n : Nat} {dev : CapiDevice} {calls : List DrvCall} {puts : List Put}
    (live : c.device d = some dev) (underway : ∀ q ∈ puts, Underway c q) :
    Registry cfg { c with
      device := Function.update c.device d (some { dev with sem := { dev.sem with readers := n } })
      calls := calls, puts := puts } := by
  have unmoved : Function.update c.devPhase d (c.devPhase d) = c.devPhase := Function.update_eq_self _ _
  have shape : Shaped (c.devPhase d) (some { dev with sem := { dev.sem with readers := n } }) := by
    have shape := h.shaped d
    rw [live] at shape
    generalize c.devPhase d = p at shape ⊢
    cases p with
    | absent => cases shape
    | put => exact fun _ e nz => by cases e; exact shape dev rfl nz
    | _ => obtain ⟨_, ⟨⟩, facts⟩ := shape; exact ⟨_, rfl, facts⟩
  have moved := h.moveOn { dev with sem := { dev.sem with readers := n } } (c.devPhase d) c.nrCapiDevs calls
    live rfl rfl shape (h.devs_keep Iff.rfl) underway
  rw [unmoved] at moved
  exact moved

/-- A put that is underway can enter. -/
theorem putEnter (h : Registry cfg c) {p : Put} (member : p ∈ c.puts) :
    ∃ r c', capiPutMessageEnter c p = some (r, c') ∧ Registry cfg c' := by
  obtain ⟨dev, live, -, -⟩ := h.underway_live (h.puts p member)
  rw [capiPutMessageEnter_eq live]
  split
  · refine ⟨_, _, rfl, h.quiet ⟨h.listed.numbered, h.listed.phase⟩ rfl (fun _ _ _ => rfl) rfl rfl rfl rfl rfl
      fun q hq => h.puts q (List.mem_of_mem_erase hq)⟩
  · refine ⟨_, _, rfl, h.readers live fun q hq => ?_⟩
    rcases List.mem_cons.1 hq with rfl | hq
    · exact h.puts p member
    · exact h.puts q (List.mem_of_mem_erase hq)

/-- A put that is underway can leave. -/
theorem putLeave (h : Registry cfg c) {p : Put} (member : p ∈ c.puts) (info : Capinfo0x11) :
    ∃ r c', capiPutMessageLeave c p info = some (r, c') ∧ Registry cfg c' := by
  obtain ⟨dev, live, -, -⟩ := h.underway_live (h.puts p member)
  exact ⟨_, _, capiPutMessageLeave_eq live info, h.readers live fun q hq => h.puts q (List.mem_of_mem_erase hq)⟩

/-- An error that is signalled keeps the registry. -/
theorem applSignalError (h : Registry cfg c) (a : Nat) (info : Capinfo0x11) :
    Registry cfg (capiApplSignalError c a info) := by
  unfold capiApplSignalError
  dsimp only
  split
  · have same : SameAppls c (c.setAppl a { c.appl a with info }) := setAppl_same rfl
    refine h.quiet (same.listed h.listed) rfl (fun b _ i => ?_) rfl rfl rfl rfl rfl h.puts
    by_cases eq : b = a
    · subst eq; simp [setAppl]
    · simp [setAppl, eq]
  · exact h

/-! ## Binding -/

/-- One more application on the list. -/
theorem holders_insert {a : Nat} (perm : c'.capiApplsList.Perm (a :: c.capiApplsList))
    (others : ∀ b ∈ c.capiApplsList, ∀ i, (c'.appl b).devs i = (c.appl b).devs i) {id : Nat} (numbered : id ≠ 0) :
    holders c' id = holders c id + if (c'.appl a).devs (id - 1) then 1 else 0 := by
  simp only [holders, if_neg numbered]
  rw [perm.countP_eq, List.countP_cons]
  congr 1
  exact List.countP_congr fun b hb => by rw [others b hb]

/-- Only the device in slot `i` has number `i + 1`. -/
theorem slot_unique (h : Registry cfg c) {d e : Nat} {dev dev' : CapiDevice} (live : c.device d = some dev)
    (live' : c.device e = some dev') (numbered : dev.id ≠ 0) (same : dev'.id = dev.id) : e = d := by
  have one := (h.slots (dev.id - 1) d).2 ⟨dev, live, by omega⟩
  have two := (h.slots (dev.id - 1) e).2 ⟨dev', live', by omega⟩
  rw [one] at two
  cases two
  rfl

/-- A device that is allocated can be registered. -/
theorem deviceRegister (h : Registry cfg c) {d : Nat} (alloced : c.devPhase d = .alloced) (info : Nat → Capinfo0x10) :
    ∃ c', capiDeviceRegister cfg c d info = some c' ∧ Registry cfg c' := by
  have shape := h.shaped d
  rw [alloced] at shape
  obtain ⟨dev, live, zero⟩ := shape
  have count : dev.refs = 1 := by
    have := (h.refs d dev live).1
    rw [alloced, zero] at this
    simpa [own, holders] using this
  rw [capiDeviceRegister_eq live]
  cases search : addCapiDeviceLoop c.capiDevsTable cfg.maxDevs 0 with
  | none =>
    refine ⟨_, rfl, h.moveOn { dev with id := 0, sem := ⟨true, 0⟩ } _ c.nrCapiDevs c.calls
      live ?_ (by rw [alloced]; rfl) ⟨_, rfl, fun nz => absurd rfl nz⟩ (h.devs_keep ?_) h.puts⟩
    · simp [key, zero]
    · rw [alloced]; simp [DevPhase.Listed]
  | some i =>
    obtain ⟨bound, free⟩ := addCapiDeviceLoop_some _ search
    have unused : ∀ e dev', c.device e = some dev' → dev'.id ≠ i + 1 := fun e dev' live' id => by
      have := (h.slots i e).2 ⟨dev', live', id⟩
      rw [free] at this
      cases this
    have clear : ∀ a ∈ c.capiApplsList, (c.appl a).devs i = false := fun a ha => by
      by_contra bit
      have := h.bits a ha i (by simpa using bit)
      rw [free] at this
      cases this
    refine ⟨_, rfl, ?_⟩
    generalize hc' : ({ c with
      capiDevsTable := Function.update c.capiDevsTable i (some d)
      device := Function.update c.device d (some ⟨i + 1, ⟨false, 0⟩,
        dev.refs + c.capiApplsList.countP (fun a => info a = .NOERR), .linked⟩)
      appl := fun a => if a ∈ c.capiApplsList ∧ info a = .NOERR then (c.appl a).marked i else c.appl a
      calls := c.calls ++ c.capiApplsList.map fun a => .capiRegister d a (info a)
      nrCapiDevs := c.nrCapiDevs + 1
      capiDevsList := c.capiDevsList ++ [d]
      devPhase := Function.update c.devPhase d .bound } : Core) = c'
    have list : c'.capiApplsList = c.capiApplsList := by rw [← hc']
    have table : c'.capiDevsTable = Function.update c.capiDevsTable i (some d) := by rw [← hc']
    have device : c'.device = Function.update c.device d (some ⟨i + 1, ⟨false, 0⟩,
        dev.refs + c.capiApplsList.countP (fun a => info a = .NOERR), .linked⟩) := by rw [← hc']
    have phase : c'.devPhase = Function.update c.devPhase d .bound := by rw [← hc']
    have marked : ∀ a, c'.appl a = if a ∈ c.capiApplsList ∧ info a = .NOERR then (c.appl a).marked i else c.appl a := by
      intro a; rw [← hc']
    have bits : ∀ a ∈ c.capiApplsList, ∀ j, (c'.appl a).devs j = if j = i then decide (info a = .NOERR) else (c.appl a).devs j := by
      intro a ha j
      rw [marked a]
      by_cases accepted : info a = .NOERR
      · rw [if_pos ⟨ha, accepted⟩]
        by_cases eq : j = i
        · subst eq; simp [CapiAppl.marked, accepted]
        · simp [CapiAppl.marked, eq]
      · rw [if_neg fun both => accepted both.2]
        by_cases eq : j = i
        · subst eq; simp [accepted, clear a ha]
        · simp [eq]
    have mine : holders c' (i + 1) = c.capiApplsList.countP fun a => info a = .NOERR := by
      simp only [holders, list, Nat.add_eq_zero_iff, Nat.one_ne_zero, and_false, if_false, Nat.add_sub_cancel]
      exact List.countP_congr fun a ha => by rw [bits a ha i, if_pos rfl]
    refine h.replace device phase ?_ ?_ ⟨_, rfl, Nat.succ_ne_zero i, rfl⟩ ?_ ?_ ?_ ?_ ?_ ?_
    · have same : SameAppls c c' := by
        refine ⟨list, fun a => ?_, by rw [← hc']⟩
        rw [marked a]
        split <;> rfl
      exact same.listed h.listed
    · intro j e
      rw [table, device]
      by_cases eq : e = d
      · subst eq
        rw [Function.update_self]
        by_cases here : j = i
        · subst here; simp
        · rw [Function.update_of_ne here, h.slots j e, live]
          simp only [Option.some.injEq, exists_eq_left', zero]
          omega
      · rw [Function.update_of_ne eq, ← h.slots j e]
        by_cases here : j = i
        · subst here; simp [free, Ne.symm eq]
        · rw [Function.update_of_ne here]
    · rintro _ ⟨⟩
      refine ⟨?_, ?_, ?_⟩
      · change i + 1 ≤ cfg.maxDevs
        omega
      · rw [mine, count]
        rfl
      · change 0 < dev.refs + _
        omega
    · intro e _ dev' live'
      simp only [holders, list]
      split
      · rfl
      · refine List.countP_congr fun a ha => ?_
        rw [bits a ha, if_neg]
        have := unused e dev' live'
        omega
    · intro a ha j bit
      rw [list] at ha
      rw [table]
      by_cases here : j = i
      · subst here; simp
      · rw [bits a ha j, if_neg here] at bit
        rw [Function.update_of_ne here]
        exact h.bits a ha j bit
    · have allocated : c'.allocated = c.allocated := by rw [← hc']
      rw [allocated]
      exact h.begun (by rw [alloced]; simp)
    · have devs : c'.capiDevsList = c.capiDevsList ++ [d] := by rw [← hc']
      have off : ¬ (c.devPhase d).Listed := by rw [alloced]; simp [DevPhase.Listed]
      rw [devs]
      refine ⟨List.nodup_append.2 ⟨h.devs.1, by simp, ?_⟩, fun e => ?_⟩
      · rintro e he e' he' rfl
        obtain rfl := List.mem_singleton.1 he'
        exact off ((h.devs.2 e).1 he)
      · rw [List.mem_append, List.mem_singleton, h.devs.2 e]
        by_cases eq : e = d
        · subst eq; simp [DevPhase.Listed]
        · simp [eq]
    · intro p hp
      have hp : p ∈ c.puts := by rw [← hc'] at hp; exact hp
      obtain ⟨ha, j, bit, slot⟩ := h.puts p hp
      have here : j ≠ i := fun eq => by rw [eq, free] at slot; cases slot
      refine ⟨list ▸ ha, j, ?_, ?_⟩
      · rw [bits _ ha j, if_neg here]; exact bit
      · rw [table, Function.update_of_ne here]; exact slot

/-- A bit of a registered application counts. -/
theorem holders_pos {a i : Nat} (member : a ∈ c.capiApplsList) (bit : (c.appl a).devs i = true) :
    0 < holders c (i + 1) := by
  simp only [holders, Nat.add_eq_zero_iff, Nat.one_ne_zero, and_false, if_false, Nat.add_sub_cancel]
  exact List.countP_pos_iff.2 ⟨a, member, bit⟩

/-- A device that is done with can be put. -/
theorem devicePut (h : Registry cfg c) {d : Nat}
    (done : c.devPhase d = .alloced ∨ ∃ err, c.devPhase d = .returned err) :
    ∃ c', capiDevicePut c d = some c' ∧ Registry cfg (c'.setDevPhase d .put) := by
  have owned : own (c.devPhase d) = 1 := by
    rcases done with done | ⟨err, done⟩
    · rw [done]; rfl
    · rw [done]; rfl
  have off : ¬ (c.devPhase d).Listed := by
    rcases done with done | ⟨err, done⟩
    · rw [done]; simp [DevPhase.Listed]
    · rw [done]; simp [DevPhase.Listed]
  obtain ⟨dev, live⟩ := h.live owned
  have shape : dev.id ≠ 0 → dev.entry = .self ∧ dev.sem.writer = true := by
    have shape := h.shaped d
    rcases done with done | ⟨err, done⟩
    · rw [done, live] at shape
      obtain ⟨_, ⟨⟩, zero⟩ := shape
      exact fun nz => absurd zero nz
    · rw [done, live] at shape
      obtain ⟨_, ⟨⟩, self⟩ := shape
      exact self
  obtain ⟨refs, -⟩ := h.refs d dev live
  rw [owned] at refs
  refine ⟨_, capiDevicePut_eq live, ?_⟩
  generalize htable : (if dev.refs - 1 = 0 ∧ dev.id ≠ 0 then Function.update c.capiDevsTable (dev.id - 1) none
    else c.capiDevsTable) = table
  have slots := h.slots.put live htable.symm
  -- a slot that an application holds stays
  have kept : ∀ a ∈ c.capiApplsList, ∀ i, (c.appl a).devs i = true → table i = c.capiDevsTable i := by
    intro a ha i bit
    rw [← htable]
    split
    · rename_i last
      have := holders_pos ha bit
      rw [Function.update_of_ne]
      intro eq
      rw [show i + 1 = dev.id by omega] at this
      omega
    · rfl
  refine h.replace rfl rfl ⟨h.listed.numbered, h.listed.phase⟩ slots ?_ ?_ (fun _ _ _ _ => rfl) ?_ (h.begun ?_)
    (h.devs_keep (iff_of_false id off)) ?_
  · intro dev' live' nz
    obtain ⟨id, entry, sem, -⟩ := dropped_id live'
    rw [entry, sem]
    exact shape (id ▸ nz)
  · intro dev' live'
    obtain ⟨id, -, -, less⟩ := dropped_id live'
    have there : dev.dropped ≠ none := by rw [live']; simp
    have more : dev.refs - 1 ≠ 0 := fun zero => there (if_pos zero)
    rw [id]
    exact ⟨h.number d dev live, by change _ = 0 + holders c dev.id; omega, by omega⟩
  · intro a ha i bit
    change (table i).isSome = true
    rw [kept a ha i bit]
    exact h.bits a ha i bit
  · intro absent
    rw [absent] at owned
    cases owned
  · intro p hp
    obtain ⟨ha, i, bit, slot⟩ := h.puts p hp
    exact ⟨ha, i, bit, (kept _ ha i bit).trans slot⟩

/-- A listed device is there and has a number. -/
theorem listed_live (h : Registry cfg c) : ∀ d ∈ c.capiDevsList, ∃ dev, c.device d = some dev ∧ dev.id ≠ 0 := by
  intro d hd
  have on := (h.devs.2 d).1 hd
  have shape := h.shaped d
  generalize c.devPhase d = p at on shape
  cases p with
  | bound => obtain ⟨dev, live, nz, -⟩ := shape; exact ⟨dev, live, nz⟩
  | failing => obtain ⟨dev, live, nz, -⟩ := shape; exact ⟨dev, live, nz⟩
  | registered => obtain ⟨dev, live, nz, -⟩ := shape; exact ⟨dev, live, nz⟩
  | _ => exact on.elim

/-- An application that joined has the bit of a live device exactly when that one accepted it. -/
theorem joined_bit (h : Registry cfg c) {a d : Nat} {info : Nat → Capinfo0x10} {dev : CapiDevice}
    (joined : Joined c a info c') (live : c.device d = some dev) (nz : dev.id ≠ 0) :
    (c'.appl a).devs (dev.id - 1) = true ↔ d ∈ c.capiDevsList ∧ info d = .NOERR := by
  rw [joined.devs]
  constructor
  · rintro ⟨e, he, accepted, dev', live', id⟩
    obtain ⟨dev2, live2, nz2⟩ := h.listed_live e he
    rw [live'] at live2
    cases live2
    obtain rfl := h.slot_unique live live' nz (by omega)
    exact ⟨he, accepted⟩
  · rintro ⟨hd, accepted⟩
    exact ⟨d, hd, accepted, dev, live, rfl⟩

/-- A registration that joins the devices keeps the registry. -/
theorem joined (h : Registry cfg c) {a : Nat} {info : Nat → Capinfo0x10} (joined : Joined c a info c')
    (new : a ∉ c.capiApplsList) (perm : c'.capiApplsList.Perm (a :: c.capiApplsList)) (listed : Listed cfg c') :
    Registry cfg c' := by
  obtain ⟨list, appl, device', frame⟩ := joined.frame
  have phase : c'.devPhase = c.devPhase := by rw [frame]
  have table : c'.capiDevsTable = c.capiDevsTable := by rw [frame]
  have old : ∀ b ∈ c.capiApplsList, c'.appl b = c.appl b := fun b hb => joined.others b fun e => new (e ▸ hb)
  have grown : ∀ id, id ≠ 0 → holders c' id = holders c id + if (c'.appl a).devs (id - 1) then 1 else 0 :=
    fun id nz => holders_insert perm (fun b hb _ => by rw [old b hb]) nz
  have origin : ∀ d dev', c'.device d = some dev' → ∃ dev, c.device d = some dev ∧ dev'.id = dev.id ∧
      dev'.entry = dev.entry ∧ dev'.sem = dev.sem ∧ dev'.refs = own (c.devPhase d) + holders c' dev.id := by
    intro d dev' live'
    rw [joined.device] at live'
    split at live'
    · rename_i on
      obtain ⟨dev, live, rfl⟩ := Option.map_eq_some_iff.1 live'
      obtain ⟨dev2, live2, nz⟩ := h.listed_live d on.1
      rw [live] at live2
      cases live2
      refine ⟨dev, live, rfl, rfl, rfl, ?_⟩
      rw [grown _ nz, if_pos ((h.joined_bit joined live nz).2 on), ← Nat.add_assoc, ← (h.refs d dev live).1]
      rfl
    · rename_i off
      refine ⟨dev', live', rfl, rfl, rfl, ?_⟩
      by_cases zero : dev'.id = 0
      · rw [(h.refs d dev' live').1, zero]; rfl
      · have clear : ¬ (c'.appl a).devs (dev'.id - 1) = true := fun bit => off ((h.joined_bit joined live' zero).1 bit)
        rw [grown _ zero, if_neg clear]
        exact (h.refs d dev' live').1
  have forth : ∀ d dev, c.device d = some dev → ∃ dev', c'.device d = some dev' ∧ dev'.id = dev.id := by
    intro d dev live
    rw [joined.device]
    split
    · exact ⟨dev.held 1, by rw [live]; rfl, rfl⟩
    · exact ⟨dev, live, rfl⟩
  refine h.rehold listed ?_ phase (by rw [frame]) (by rw [frame]) ?_ ?_ ?_ ?_
  · intro i d
    rw [table, h.slots i d]
    constructor
    · rintro ⟨dev, live, id⟩
      obtain ⟨dev', live', id'⟩ := forth d dev live
      exact ⟨dev', live', id'.trans id⟩
    · rintro ⟨dev', live', id'⟩
      obtain ⟨dev, live, id, -⟩ := origin d dev' live'
      exact ⟨dev, live, id.symm.trans id'⟩
  · intro d dev' live'
    obtain ⟨dev, live, id, entry, sem, refs⟩ := origin d dev' live'
    refine ⟨dev, live, id, entry, sem, refs, ?_⟩
    have pos := h.refs d dev live
    have : holders c dev.id ≤ holders c' dev.id := by
      by_cases zero : dev.id = 0
      · rw [zero]; exact Nat.le_refl _
      · rw [grown _ zero]; exact Nat.le_add_right _ _
    omega
  · intro d dev live _
    obtain ⟨dev', live', -⟩ := forth d dev live
    rw [live']
    rfl
  · intro b hb i bit
    rw [table]
    rcases List.mem_cons.1 (perm.subset hb) with rfl | hb
    · obtain ⟨e, he, -, dev, live, id⟩ := (joined.devs i).1 bit
      obtain ⟨dev2, live2, nz⟩ := h.listed_live e he
      rw [live] at live2
      cases live2
      rw [(h.slots i e).2 ⟨dev, live, by omega⟩]
      rfl
    · rw [old b hb] at bit
      exact h.bits b hb i bit
  · intro p hp
    have hp : p ∈ c.puts := by rw [frame] at hp; exact hp
    obtain ⟨ha, i, bit, slot⟩ := h.puts p hp
    exact ⟨perm.symm.subset (List.mem_cons_of_mem _ ha), i, by rw [old _ ha]; exact bit, by rw [table]; exact slot⟩

/-- A registration that is refused keeps it. -/
theorem refused (h : Registry cfg c) {a : Nat} (refused : Refused c a c') (new : a ∉ c.capiApplsList)
    (listed : Listed cfg c') : Registry cfg c' := by
  obtain ⟨⟨appl, frame⟩, others⟩ := refused
  have old : ∀ b ∈ c.capiApplsList, c'.appl b = c.appl b := fun b hb => others b fun e => new (e ▸ hb)
  refine h.quiet listed (by rw [frame]) (fun b hb i => by rw [old b hb]) (by rw [frame]) (by rw [frame]) (by rw [frame])
    (by rw [frame]) (by rw [frame]) fun p hp => ?_
  rw [frame] at hp
  exact h.puts p hp

/-- A fresh application can be registered. -/
theorem applRegister (h : Registry cfg c) {a : Nat} (fresh : c.applPhase a = .fresh) (datablklen : UInt32)
    (info : Nat → Capinfo0x10) (narrow : InRange cfg c (.applRegister a datablklen info)) :
    ∃ r c', capiRegister cfg c a datablklen info = some (r, c') ∧ Registry cfg c' ∧
      (r = .NOERR → Joined c a info c' ∧ c'.capiApplsList.Perm (a :: c.capiApplsList)) ∧
      (r ≠ .NOERR → Refused c a c') := by
  have there : ∀ d ∈ c.capiDevsList, (c.device d).isSome := by
    intro d hd
    obtain ⟨dev, live, -⟩ := h.listed_live d hd
    rw [live]
    rfl
  obtain ⟨r, c', run, joined, refused⟩ := capiRegister_effect h.listed.numbered h.devs.1 there a datablklen info narrow
  have cases := capiRegister_cases h.listed.numbered run
  have listed := cases.listed h.listed fresh fun check wrap => h.listed.numbered.wrap_iff.1 wrap (narrow check)
  have new := h.listed.unlisted fresh
  refine ⟨r, c', run, ?_, fun ok => ⟨joined ok, cases.perm ok⟩, refused⟩
  by_cases ok : r = .NOERR
  · exact h.joined (joined ok) new (cases.perm ok) listed
  · exact h.refused (refused ok) new listed

/-- A device that the application held loses one reference, any other none. -/
theorem released_device (h : Registry cfg c) {a d : Nat} {dev : CapiDevice} (released : ReleasedTo c a 0 (0 + cfg.maxDevs) c')
    (live : c.device d = some dev) :
    c'.device d = if dev.id ≠ 0 ∧ (c.appl a).devs (dev.id - 1) = true then dev.dropped else some dev := by
  have drops : Drops c a 0 (0 + cfg.maxDevs) dev ↔ dev.id ≠ 0 ∧ (c.appl a).devs (dev.id - 1) = true := by
    have bound := h.number d dev live
    unfold Drops
    constructor
    · rintro ⟨low, -, bit⟩
      exact ⟨by omega, bit⟩
    · rintro ⟨nz, bit⟩
      exact ⟨by omega, by omega, bit⟩
  rw [released.device d, live, Option.bind_some]
  exact if_congr drops rfl rfl

/-- An application that has left all devices may leave the list. -/
theorem released (h : Registry cfg c) {a : Nat} {c1 : Core} (member : a ∈ c.capiApplsList) (quiet : ∀ p ∈ c.puts, p.appl ≠ a)
    (released : ReleasedTo c a 0 (0 + cfg.maxDevs) c1)
    (listed : Listed cfg ({ c1 with capiApplsList := c1.capiApplsList.erase a }.setApplPhase a .released)) :
    Registry cfg ({ c1 with capiApplsList := c1.capiApplsList.erase a }.setApplPhase a .released) := by
  obtain ⟨table, device, calls, frame, -, -⟩ := released.frame
  generalize hc' : { c1 with capiApplsList := c1.capiApplsList.erase a }.setApplPhase a .released = c' at listed ⊢
  have list : c'.capiApplsList = c.capiApplsList.erase a := by rw [← hc', frame]; rfl
  have appl : c'.appl = c.appl := by rw [← hc', frame]; rfl
  have phase : c'.devPhase = c.devPhase := by rw [← hc', frame]; rfl
  have table' : c'.capiDevsTable = c1.capiDevsTable := by rw [← hc']; rfl
  have device' : c'.device = c1.device := by rw [← hc']; rfl
  have slots : Slots c' := fun i d => by rw [table', device']; exact released.slots i d
  have perm : c.capiApplsList.Perm (a :: c'.capiApplsList) := list ▸ List.perm_cons_erase member
  have stay : ∀ b ∈ c'.capiApplsList, b ∈ c.capiApplsList := fun b hb => List.mem_of_mem_erase (list ▸ hb)
  have left : ∀ id, id ≠ 0 → holders c id = holders c' id + if (c.appl a).devs (id - 1) then 1 else 0 := fun id nz =>
    holders_insert perm (fun b _ i => by rw [appl]) nz
  have origin : ∀ d dev', c'.device d = some dev' → ∃ dev, c.device d = some dev ∧ dev'.id = dev.id ∧
      dev'.entry = dev.entry ∧ dev'.sem = dev.sem ∧ dev'.refs = own (c.devPhase d) + holders c' dev.id ∧ 0 < dev'.refs := by
    intro d dev' live'
    cases live : c.device d with
    | none =>
      rw [device', released.device d, live] at live'
      cases live'
    | some dev =>
      obtain ⟨refs, pos⟩ := h.refs d dev live
      refine ⟨dev, rfl, ?_⟩
      rw [device', h.released_device released live] at live'
      split at live'
      · rename_i held
        obtain ⟨id, entry, sem, less⟩ := dropped_id live'
        have : dev.dropped ≠ none := by rw [live']; simp
        have more : dev.refs - 1 ≠ 0 := fun zero => this (if_pos zero)
        rw [left _ held.1, if_pos held.2] at refs
        exact ⟨id, entry, sem, by omega, by omega⟩
      · rename_i other
        cases live'
        refine ⟨rfl, rfl, rfl, ?_, pos⟩
        by_cases zero : dev'.id = 0
        · rw [refs, zero]; rfl
        · have clear : ¬ (c.appl a).devs (dev'.id - 1) = true := fun bit => other ⟨zero, bit⟩
          rw [left _ zero, if_neg clear] at refs
          exact refs
  -- a device that someone still holds stays
  have survives : ∀ d dev, c.device d = some dev → 0 < own (c.devPhase d) + holders c' dev.id →
      ∃ dev', c'.device d = some dev' ∧ dev'.id = dev.id := by
    intro d dev live pos
    rw [device', h.released_device released live]
    split
    · rename_i held
      have refs := (h.refs d dev live).1
      rw [left _ held.1, if_pos held.2] at refs
      exact ⟨_, if_neg (by omega), rfl⟩
    · exact ⟨dev, rfl, rfl⟩
  have kept : ∀ b ∈ c'.capiApplsList, ∀ i d, (c.appl b).devs i = true → c.capiDevsTable i = some d →
      c'.capiDevsTable i = some d := by
    intro b hb i d bit slot
    obtain ⟨dev, live, id⟩ := (h.slots i d).1 slot
    have pos : 0 < holders c' dev.id := id ▸ holders_pos hb (by rw [appl]; exact bit)
    obtain ⟨dev', live', id'⟩ := survives d dev live (by omega)
    exact (slots i d).2 ⟨dev', live', id'.trans id⟩
  refine h.rehold listed slots phase (by rw [← hc', frame]; rfl) (by rw [← hc', frame]; rfl) origin ?_ ?_ ?_
  · intro d dev live pos
    obtain ⟨dev', live', -⟩ := survives d dev live pos
    rw [live']
    rfl
  · intro b hb i bit
    rw [appl] at bit
    obtain ⟨d, slot⟩ := Option.isSome_iff_exists.1 (h.bits b (stay b hb) i bit)
    rw [kept b hb i d bit slot]
    rfl
  · intro p hp
    have hp : p ∈ c.puts := by rw [← hc', frame] at hp; exact hp
    obtain ⟨ha, i, bit, slot⟩ := h.puts p hp
    have member' : p.appl ∈ c'.capiApplsList := list ▸ (List.mem_erase_of_ne (quiet p hp)).2 ha
    exact ⟨member', i, by rw [appl]; exact bit, kept _ member' i _ bit slot⟩

/-- A registered application that puts nothing can be released. -/
theorem applRelease (h : Registry cfg c) {a : Nat} (registered : c.applPhase a = .registered)
    (quiet : ∀ p ∈ c.puts, p.appl ≠ a) :
    ∃ r c1, capiRelease cfg c a =
        some (r, { c1 with capiApplsList := c1.capiApplsList.erase a }.setApplPhase a .released) ∧
      ReleasedTo c a 0 (0 + cfg.maxDevs) c1 ∧
      Registry cfg ({ c1 with capiApplsList := c1.capiApplsList.erase a }.setApplPhase a .released) := by
  have member := (h.listed.phase a).2 registered
  obtain ⟨c1, loop, released⟩ := capiReleaseLoop_spec cfg.maxDevs (i := 0) h.slots fun j _ bit => h.bits a member j bit
  have run : capiRelease cfg c a = some ((c1.appl a).info,
      { c1 with capiApplsList := c1.capiApplsList.erase a }.setApplPhase a .released) := by
    simp only [capiRelease, loop, Option.bind_eq_bind, Option.bind_some]
    rfl
  have listed := capiRelease_listed h.listed run
  exact ⟨_, _, run, released, h.released member quiet released listed⟩

/-- Every section that the life cycles allow runs to its end and keeps the registry in order. -/
theorem step (h : Registry cfg c) {l : Section} (allowed : Allowed c l) (narrow : InRange cfg c l) :
    ∃ c', Capicore.step cfg c l = some c' ∧ Registry cfg c' := by
  cases l with
  | deviceAlloc mem => exact ⟨_, rfl, h.deviceAlloc mem⟩
  | deviceRegister d info => exact h.deviceRegister allowed info
  | deviceRegisterSysfs d res => exact ⟨_, rfl, h.deviceRegisterSysfs allowed res⟩
  | deviceUnlink d => exact h.deviceUnlink allowed
  | deviceDrain d =>
    obtain ⟨⟨err, off⟩, -⟩ := allowed
    exact h.deviceDrain off
  | devicePut d =>
    obtain ⟨c', run, keep⟩ := h.devicePut allowed
    exact ⟨_, by rw [Capicore.step, run]; rfl, keep⟩
  | applRegister a datablklen info =>
    obtain ⟨r, c', run, keep, -⟩ := h.applRegister allowed datablklen info narrow
    exact ⟨c', by rw [Capicore.step, run]; rfl, keep⟩
  | applRelease a =>
    obtain ⟨r, c1, run, -, keep⟩ := h.applRelease allowed.1 allowed.2
    exact ⟨_, by rw [Capicore.step, run]; rfl, keep⟩
  | applSignalError a info => exact ⟨_, rfl, h.applSignalError a info⟩
  | putLookup a msg =>
    obtain ⟨r, run, underway⟩ := h.putLookup allowed msg
    refine ⟨_, by rw [Capicore.step, run]; rfl, ?_⟩
    cases r with
    | inl info => exact h
    | inr p =>
      refine h.quiet ⟨h.listed.numbered, h.listed.phase⟩ rfl (fun _ _ _ => rfl) rfl rfl rfl rfl rfl fun q hq => ?_
      rcases List.mem_cons.1 hq with rfl | hq
      · exact underway _ rfl
      · exact h.puts q hq
  | putEnter p =>
    obtain ⟨r, c', run, keep⟩ := h.putEnter allowed.1
    exact ⟨c', by rw [Capicore.step, run]; rfl, keep⟩
  | putLeave p info =>
    obtain ⟨r, c', run, keep⟩ := h.putLeave allowed.1 info
    exact ⟨c', by rw [Capicore.step, run]; rfl, keep⟩

end Registry

end Capi4Linux.Capicore
