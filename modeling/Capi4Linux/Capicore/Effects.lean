import Capi4Linux.Capicore.Numbers

/-!
# What the sections of the capicore change

One lemma for each loop and each operation that others build on, so that no
later proof looks into their code.
-/

namespace Capi4Linux.Capicore
open Capi4Linux.Capicore.Core Machine

/-- The slot table and the devices agree: slot `i` holds the live device with number `i + 1`. -/
def Slots (c : Core) : Prop :=
  ∀ i d, c.capiDevsTable i = some d ↔ ∃ dev, c.device d = some dev ∧ dev.id = i + 1

/-- A device that loses one reference. -/
def CapiDevice.dropped (dev : CapiDevice) : Option CapiDevice :=
  if dev.refs - 1 = 0 then none else some { dev with refs := dev.refs - 1 }

/-- A device that gains `n` references. -/
def CapiDevice.held (dev : CapiDevice) (n : Nat) : CapiDevice := { dev with refs := dev.refs + n }

/-- An application with the bit of slot `i` set. -/
def CapiAppl.marked (appl : CapiAppl) (i : Nat) : CapiAppl := { appl with devs := Function.update appl.devs i true }

section References

variable {c : Core} {d : Nat} {dev : CapiDevice}

theorem capiDevicePut_eq (live : c.device d = some dev) :
    capiDevicePut c d = some { c with
      capiDevsTable :=
        if dev.refs - 1 = 0 ∧ dev.id ≠ 0 then Function.update c.capiDevsTable (dev.id - 1) none else c.capiDevsTable
      device := Function.update c.device d dev.dropped } := by
  unfold capiDevicePut CapiDevice.dropped
  simp only [live, Option.bind_eq_bind, Option.bind_some]
  by_cases last : dev.refs - 1 = 0
  · simp only [last, if_true, freeCapiDevice, setDevice, Function.update_self, Option.bind_eq_bind, Option.bind_some,
      true_and]
    split
    · simp only [Function.update_idem]; rfl
    · simp only [Function.update_idem]; rfl
  · simp only [last, if_false, false_and]
    rfl

/-- Dropping a reference keeps table and devices in agreement. -/
theorem Slots.put {table : Nat → Option Nat} (slots : Slots c) (live : c.device d = some dev)
    (cleared : table = if dev.refs - 1 = 0 ∧ dev.id ≠ 0 then Function.update c.capiDevsTable (dev.id - 1) none
      else c.capiDevsTable) :
    Slots { c with capiDevsTable := table, device := Function.update c.device d dev.dropped } := by
  intro i e
  subst cleared
  change (if dev.refs - 1 = 0 ∧ dev.id ≠ 0 then Function.update c.capiDevsTable (dev.id - 1) none
    else c.capiDevsTable) i = some e ↔ ∃ dev', Function.update c.device d dev.dropped e = some dev' ∧ dev'.id = i + 1
  unfold CapiDevice.dropped
  by_cases last : dev.refs - 1 = 0
  · by_cases eq : e = d
    · subst eq
      simp only [last, true_and, if_true, Function.update_self]
      constructor
      · intro held
        split at held
        · rename_i numbered
          by_cases here : i = dev.id - 1
          · subst here; simp at held
          · rw [Function.update_of_ne here] at held
            obtain ⟨dev', live', id⟩ := (slots i e).1 held
            rw [live] at live'
            cases live'
            omega
        · rename_i unnumbered
          obtain ⟨dev', live', id⟩ := (slots i e).1 held
          rw [live] at live'
          cases live'
          omega
      · rintro ⟨dev', none, -⟩; cases none
    · simp only [last, true_and, if_true, Function.update_of_ne eq, ← slots i e]
      split
      · rename_i numbered
        by_cases here : i = dev.id - 1
        · subst here
          have mine : c.capiDevsTable (dev.id - 1) = some d := (slots _ d).2 ⟨dev, live, by omega⟩
          simp [mine, Ne.symm eq]
        · rw [Function.update_of_ne here]
      · rfl
  · simp only [last, false_and, if_false]
    by_cases eq : e = d
    · subst eq
      rw [Function.update_self, slots i e]
      constructor
      · rintro ⟨dev', live', id⟩
        rw [live] at live'
        cases live'
        exact ⟨_, rfl, id⟩
      · rintro ⟨dev', same, id⟩
        cases same
        exact ⟨dev, live, id⟩
    · rw [Function.update_of_ne eq, slots i e]

end References

section Binding

variable {c : Core}

theorem registerCapiAppl_eq {a d : Nat} {dev : CapiDevice} (live : c.device d = some dev) (info : Capinfo0x10) :
    registerCapiAppl c a d info = some { c with
      calls := c.calls ++ [.capiRegister d a info]
      appl := if info = .NOERR then Function.update c.appl a ((c.appl a).marked (dev.id - 1)) else c.appl
      device := if info = .NOERR then Function.update c.device d (some (dev.held 1)) else c.device } := by
  unfold registerCapiAppl
  simp only [live, Option.bind_eq_bind, Option.bind_some]
  by_cases accepted : info = .NOERR
  · simp only [accepted, ne_eq, not_true_eq_false, if_false, if_true, capiDeviceGet, setAppl, call, live,
      Option.bind_eq_bind, Option.bind_some]
    rfl
  · simp only [accepted, ne_eq, not_false_eq_true, if_true, if_false]
    rfl

/-- The loop of `bind_capi_device` over the applications `as`. -/
theorem bindDevice_fold {d : Nat} (info : Nat → Capinfo0x10) (as : List Nat) : ∀ {c : Core} {dev : CapiDevice},
    c.device d = some dev →
    as.foldlM (fun c a => registerCapiAppl c a d (info a)) c = some { c with
      calls := c.calls ++ as.map fun a => .capiRegister d a (info a)
      appl := fun a => if a ∈ as ∧ info a = .NOERR then (c.appl a).marked (dev.id - 1) else c.appl a
      device := Function.update c.device d (some (dev.held (as.countP fun a => info a = .NOERR))) } := by
  induction as with
  | nil =>
    intro c dev live
    have same : Function.update c.device d (some dev) = c.device := by rw [← live, Function.update_eq_self]
    simp [CapiDevice.held, same]
  | cons b as ih =>
    intro c dev live
    rw [List.foldlM_cons, registerCapiAppl_eq live, Option.bind_eq_bind, Option.bind_some]
    by_cases accepted : info b = .NOERR
    · simp only [accepted, if_true]
      rw [@ih _ (dev.held 1) (by simp)]
      congr 2
      · simp [CapiDevice.held, accepted, Nat.add_assoc, Nat.add_comm 1]
      · funext a
        by_cases eq : a = b
        · subst eq
          by_cases again : a ∈ as <;> simp [CapiAppl.marked, CapiDevice.held, accepted, again]
        · simp [CapiDevice.held, eq]
      · simp [accepted]
    · simp only [accepted, if_false]
      rw [ih (c := { c with calls := c.calls ++ [.capiRegister d b (info b)] }) live]
      congr 2
      · simp [accepted]
      · funext a
        by_cases eq : a = b
        · subst eq; simp [accepted]
        · simp [eq]
      · simp

/-- The slots that the accepting devices among `ds` hold. -/
def Accepting (c : Core) (ds : List Nat) (info : Nat → Capinfo0x10) (i : Nat) : Prop :=
  ∃ d ∈ ds, info d = .NOERR ∧ ∃ dev, c.device d = some dev ∧ dev.id - 1 = i

/-- What the loop of `bind_capi_appl` over the devices `ds` leaves behind. -/
structure BoundTo (c : Core) (a : Nat) (ds : List Nat) (info : Nat → Capinfo0x10) (c' : Core) : Prop where
  frame : ∃ appl device, c' = { c with
    calls := c.calls ++ ds.map fun d => .capiRegister d a (info d), appl := appl, device := device }
  others : ∀ b ≠ a, c'.appl b = c.appl b
  error : (c'.appl a).info = (c.appl a).info
  devs : ∀ i, (c'.appl a).devs i = true ↔ (c.appl a).devs i = true ∨ Accepting c ds info i
  device : ∀ d, c'.device d = if d ∈ ds ∧ info d = .NOERR then (c.device d).map (·.held 1) else c.device d

theorem bindAppl_fold {a : Nat} (info : Nat → Capinfo0x10) (ds : List Nat) : ∀ {c : Core}, ds.Nodup →
    (∀ d ∈ ds, (c.device d).isSome) →
    ∃ c', ds.foldlM (fun c d => registerCapiAppl c a d (info d)) c = some c' ∧ BoundTo c a ds info c' := by
  induction ds with
  | nil =>
    intro c _ _
    exact ⟨c, rfl, ⟨c.appl, c.device, by simp⟩, fun _ _ => rfl, rfl, by simp [Accepting], by simp⟩
  | cons d ds ih =>
    intro c nodup live
    obtain ⟨off, nodup⟩ := List.nodup_cons.1 nodup
    obtain ⟨dev, here⟩ := Option.isSome_iff_exists.1 (live d (by simp))
    rw [List.foldlM_cons, registerCapiAppl_eq here, Option.bind_eq_bind, Option.bind_some]
    by_cases accepted : info d = .NOERR
    · simp only [accepted, if_true]
      have elsewhere : ∀ e ∈ ds, Function.update c.device d (some (dev.held 1)) e = c.device e := fun e he =>
        Function.update_of_ne (fun eq : e = d => off (eq ▸ he)) _ _
      obtain ⟨c', fold, ⟨appl, device, frame⟩, others, kept, devs, device'⟩ := ih (c := { c with
          calls := c.calls ++ [.capiRegister d a .NOERR]
          appl := Function.update c.appl a ((c.appl a).marked (dev.id - 1))
          device := Function.update c.device d (some (dev.held 1)) }) nodup
        fun e he => by
          change (Function.update c.device d (some (dev.held 1)) e).isSome = true
          rw [elsewhere e he]
          exact live e (by simp [he])
      refine ⟨c', fold, ⟨appl, device, ?_⟩, ?_, ?_, ?_, ?_⟩
      · rw [frame]; simp [accepted]
      · intro b ne
        rw [others b ne]; simp [ne]
      · rw [kept]; simp [CapiAppl.marked]
      · intro i
        have rest : Accepting { c with
              calls := c.calls ++ [.capiRegister d a .NOERR]
              appl := Function.update c.appl a ((c.appl a).marked (dev.id - 1))
              device := Function.update c.device d (some (dev.held 1)) } ds info i ↔ Accepting c ds info i := by
          unfold Accepting
          constructor
          · rintro ⟨e, he, ok, dev', live', id⟩
            exact ⟨e, he, ok, dev', (elsewhere e he).symm.trans live', id⟩
          · rintro ⟨e, he, ok, dev', live', id⟩
            exact ⟨e, he, ok, dev', (elsewhere e he).trans live', id⟩
        have first : Accepting c (d :: ds) info i ↔ dev.id - 1 = i ∨ Accepting c ds info i := by
          simp [Accepting, accepted, here]
        rw [devs i, rest, first]
        by_cases slot : i = dev.id - 1
        · subst slot; simp [CapiAppl.marked]
        · simp [CapiAppl.marked, slot, Ne.symm slot]
      · intro e
        rw [device' e]
        by_cases eq : e = d
        · subst eq
          simp [off, accepted, here]
        · simp [eq]
    · simp only [accepted, if_false]
      obtain ⟨c', fold, ⟨appl, device, frame⟩, others, kept, devs, device'⟩ :=
        ih (c := { c with calls := c.calls ++ [.capiRegister d a (info d)] }) nodup fun e he => live e (by simp [he])
      refine ⟨c', fold, ⟨appl, device, ?_⟩, others, kept, ?_, ?_⟩
      · rw [frame]; simp
      · intro i
        rw [devs i]
        simp [Accepting, accepted]
      · intro e
        rw [device' e]
        by_cases eq : e = d
        · subst eq; simp [off, accepted]
        · simp [eq]

end Binding

section Releasing

/-- The device's slot is one of `lo, …, hi - 1` and application `a` has its bit. -/
def Drops (c : Core) (a lo hi : Nat) (dev : CapiDevice) : Prop :=
  lo < dev.id ∧ dev.id ≤ hi ∧ (c.appl a).devs (dev.id - 1) = true

instance (c : Core) (a lo hi : Nat) (dev : CapiDevice) : Decidable (Drops c a lo hi dev) :=
  inferInstanceAs (Decidable (_ ∧ _ ∧ _))

/-- What `capi_release` has done after the bits `lo, …, hi - 1`. -/
structure ReleasedTo (c : Core) (a lo hi : Nat) (c' : Core) : Prop where
  slots : Slots c'
  frame : ∃ table device calls, c' = { c with capiDevsTable := table, device := device, calls := c.calls ++ calls } ∧
    calls.Nodup ∧ ∀ e, e ∈ calls ↔ ∃ d dev, e = .capiRelease d a ∧ c.device d = some dev ∧ Drops c a lo hi dev ∧
      dev.entry ≠ .self
  device : ∀ d, c'.device d = (c.device d).bind fun dev => if Drops c a lo hi dev then dev.dropped else some dev

theorem dropped_id {dev dev' : CapiDevice} (h : dev.dropped = some dev') :
    dev'.id = dev.id ∧ dev'.entry = dev.entry ∧ dev'.sem = dev.sem ∧ dev'.refs + 1 = dev.refs := by
  unfold CapiDevice.dropped at h
  split at h
  · cases h
  · cases h
    exact ⟨rfl, rfl, rfl, by simp only; omega⟩

theorem ReleasedTo.idle {c : Core} {a lo hi : Nat} (slots : Slots c) (none : ∀ dev, ¬ Drops c a lo hi dev) :
    ReleasedTo c a lo hi c := by
  refine ⟨slots, ⟨c.capiDevsTable, c.device, [], by simp, List.nodup_nil, ?_⟩, ?_⟩
  · intro e
    simp only [List.not_mem_nil, false_iff]
    rintro ⟨d, dev, -, -, drops, -⟩
    exact none dev drops
  · intro d
    cases c.device d with
    | none => rfl
    | some dev => simp [none dev]

/-- A bit that is not set asks for nothing. -/
theorem ReleasedTo.skip {c : Core} {a i : Nat} (slots : Slots c) (clear : (c.appl a).devs i = false) :
    ReleasedTo c a i (i + 1) c := by
  refine ReleasedTo.idle slots ?_
  rintro dev ⟨low, high, bit⟩
  rw [show dev.id - 1 = i by omega, clear] at bit
  cases bit

/-- A set bit gives up one reference, after the driver was told if the device is listed. -/
theorem releaseCapiDevice_spec {c : Core} {a i : Nat} (slots : Slots c) (bit : (c.appl a).devs i = true)
    (held : (c.capiDevsTable i).isSome) :
    ∃ c', releaseCapiDevice c a i = some c' ∧ ReleasedTo c a i (i + 1) c' := by
  obtain ⟨d, slot⟩ := Option.isSome_iff_exists.1 held
  obtain ⟨dev, live, id⟩ := (slots i d).1 slot
  have only : ∀ e dev', c.device e = some dev' → Drops c a i (i + 1) dev' → e = d := by
    rintro e dev' live' ⟨low, high, -⟩
    have := (slots i e).2 ⟨dev', live', by omega⟩
    rw [slot] at this
    cases this
    rfl
  have mine : Drops c a i (i + 1) dev := ⟨by omega, by omega, by rw [show dev.id - 1 = i by omega]; exact bit⟩
  -- the state in which the reference is put
  let calls := if capiDeviceListed dev then [DrvCall.capiRelease d a] else []
  have told : (if capiDeviceListed dev then c.call (.capiRelease d a) else c) = { c with calls := c.calls ++ calls } := by
    by_cases listed : capiDeviceListed dev
    · simp only [calls, listed, if_true]; rfl
    · simp only [calls, listed, Bool.false_eq_true, if_false, List.append_nil]
  have run : releaseCapiDevice c a i = capiDevicePut { c with calls := c.calls ++ calls } d := by
    simp only [releaseCapiDevice, slot, live, told, Option.bind_eq_bind, Option.bind_some]
  have live' : { c with calls := c.calls ++ calls }.device d = some dev := live
  rw [run, capiDevicePut_eq live']
  refine ⟨_, rfl, Slots.put (c := { c with calls := c.calls ++ calls }) slots live' rfl,
    ⟨_, _, calls, rfl, ?_, ?_⟩, ?_⟩
  · by_cases listed : capiDeviceListed dev <;> simp [calls, listed]
  · intro e
    have listed_iff : capiDeviceListed dev = true ↔ dev.entry ≠ .self := by simp [capiDeviceListed]
    constructor
    · intro member
      by_cases listed : capiDeviceListed dev
      · simp only [calls, listed, if_true, List.mem_singleton] at member
        exact ⟨d, dev, member, live, mine, listed_iff.1 listed⟩
      · simp [calls, listed] at member
    · rintro ⟨e', dev', rfl, live2, drops, entry⟩
      obtain rfl := only e' dev' live2 drops
      rw [live] at live2
      cases live2
      simp [calls, listed_iff.2 entry]
  · intro e
    change Function.update c.device d dev.dropped e = _
    by_cases eq : e = d
    · subst eq
      simp [live, mine]
    · rw [Function.update_of_ne eq]
      cases other : c.device e with
      | none => rfl
      | some dev' =>
        have : ¬ Drops c a i (i + 1) dev' := fun drops => eq (only e dev' other drops)
        simp [this]

theorem ReleasedTo.appl {c c' : Core} {a lo hi : Nat} (h : ReleasedTo c a lo hi c') : c'.appl = c.appl := by
  obtain ⟨_, _, _, rfl, -⟩ := h.frame
  rfl

/-- Two stretches of bits, one after the other. -/
theorem ReleasedTo.trans {c c1 c2 : Core} {a lo mid hi : Nat} (le : lo ≤ mid) (le' : mid ≤ hi)
    (h : ReleasedTo c a lo mid c1) (h' : ReleasedTo c1 a mid hi c2) : ReleasedTo c a lo hi c2 := by
  have drops : ∀ dev, Drops c1 a mid hi dev ↔ Drops c a mid hi dev := fun dev => by
    simp only [Drops, h.appl]
  have parts : ∀ dev, Drops c a lo hi dev ↔ Drops c a lo mid dev ∨ Drops c a mid hi dev := fun dev => by
    unfold Drops
    constructor
    · rintro ⟨low, high, bit⟩
      by_cases left : dev.id ≤ mid
      · exact .inl ⟨low, left, bit⟩
      · exact .inr ⟨by omega, high, bit⟩
    · rintro (⟨low, high, bit⟩ | ⟨low, high, bit⟩)
      · exact ⟨low, by omega, bit⟩
      · exact ⟨by omega, high, bit⟩
  have apart : ∀ dev, Drops c a lo mid dev → ¬ Drops c a mid hi dev := by
    rintro dev ⟨-, high, -⟩ ⟨low, -, -⟩
    omega
  -- what the second stretch drops, the first has left alone
  have second : ∀ d dev, (c1.device d = some dev ∧ Drops c1 a mid hi dev) ↔ (c.device d = some dev ∧ Drops c a mid hi dev) := by
    intro d dev
    rw [h.device d, drops]
    cases live : c.device d with
    | none => simp
    | some dev' =>
      simp only [Option.bind_some, Option.some.injEq]
      by_cases first : Drops c a lo mid dev'
      · rw [if_pos first]
        constructor
        · rintro ⟨left, low, -⟩
          have := (dropped_id left).1
          have := first.2.1
          omega
        · rintro ⟨rfl, right⟩
          exact absurd right (apart _ first)
      · rw [if_neg first, Option.some.injEq]
  obtain ⟨table1, device1, calls1, eq1, nodup1, mem1⟩ := h.frame
  obtain ⟨table2, device2, calls2, eq2, nodup2, mem2⟩ := h'.frame
  refine ⟨h'.slots, ⟨table2, device2, calls1 ++ calls2, ?_, ?_, ?_⟩, ?_⟩
  · rw [eq2, eq1]
    simp only [List.append_assoc]
  · refine List.nodup_append.2 ⟨nodup1, nodup2, ?_⟩
    rintro e first e' last rfl
    obtain ⟨d, dev, rfl, live, left, -⟩ := (mem1 e).1 first
    obtain ⟨d', dev', same, live', right, -⟩ := (mem2 _).1 last
    cases same
    obtain ⟨live'', right⟩ := (second d dev').1 ⟨live', right⟩
    rw [live] at live''
    cases live''
    exact apart dev left right
  · intro e
    rw [List.mem_append, mem1, mem2]
    constructor
    · rintro (⟨d, dev, rfl, live, left, entry⟩ | ⟨d, dev, rfl, live, right, entry⟩)
      · exact ⟨d, dev, rfl, live, (parts dev).2 (.inl left), entry⟩
      · obtain ⟨live, right⟩ := (second d dev).1 ⟨live, right⟩
        exact ⟨d, dev, rfl, live, (parts dev).2 (.inr right), entry⟩
    · rintro ⟨d, dev, rfl, live, both, entry⟩
      rcases (parts dev).1 both with left | right
      · exact .inl ⟨d, dev, rfl, live, left, entry⟩
      · obtain ⟨live, right⟩ := (second d dev).2 ⟨live, right⟩
        exact .inr ⟨d, dev, rfl, live, right, entry⟩
  · intro d
    rw [h'.device d, h.device d]
    cases live : c.device d with
    | none => rfl
    | some dev =>
      simp only [Option.bind_some]
      by_cases left : Drops c a lo mid dev
      · rw [if_pos left, if_pos ((parts dev).2 (.inl left))]
        cases dropped : dev.dropped with
        | none => rfl
        | some dev' =>
          have : ¬ Drops c1 a mid hi dev' := by
            rintro ⟨low, -, -⟩
            have := (dropped_id dropped).1
            have := left.2.1
            omega
          simp [this]
      · rw [if_neg left, Option.bind_some]
        by_cases right : Drops c a mid hi dev
        · rw [if_pos ((drops dev).2 right), if_pos ((parts dev).2 (.inr right))]
        · rw [if_neg fun r => right ((drops dev).1 r), if_neg fun b => ((parts dev).1 b).elim left right]

/-- The whole loop of `capi_release`. -/
theorem capiReleaseLoop_spec {a : Nat} (n : Nat) : ∀ {i : Nat} {c : Core}, Slots c →
    (∀ j, i ≤ j → (c.appl a).devs j = true → (c.capiDevsTable j).isSome) →
    ∃ c', capiReleaseLoop a n i c = some c' ∧ ReleasedTo c a i (i + n) c' := by
  induction n with
  | zero =>
    intro i c slots _
    refine ⟨c, rfl, ReleasedTo.idle slots ?_⟩
    rintro dev ⟨low, high, -⟩
    omega
  | succ n ih =>
    intro i c slots held
    have bit : ∃ c', releaseCapiBit c a i = some c' ∧ ReleasedTo c a i (i + 1) c' := by
      unfold releaseCapiBit
      split
      · rename_i set
        exact releaseCapiDevice_spec slots set (held i (Nat.le_refl i) set)
      · rename_i clear
        exact ⟨c, rfl, ReleasedTo.skip slots (by simpa using clear)⟩
    obtain ⟨c1, run, first⟩ := bit
    obtain ⟨c', loop, rest⟩ := ih (i := i + 1) first.slots fun j le set => by
      rw [first.appl] at set
      obtain ⟨d, slot⟩ := Option.isSome_iff_exists.1 (held j (by omega) set)
      obtain ⟨dev, live, id⟩ := (slots j d).1 slot
      have kept : ¬ Drops c a i (i + 1) dev := by
        rintro ⟨-, high, -⟩
        omega
      have live1 : c1.device d = some dev := by rw [first.device d, live]; simp [kept]
      rw [(first.slots j d).2 ⟨dev, live1, id⟩]
      rfl
    refine ⟨c', by simp only [capiReleaseLoop, run, Option.bind_eq_bind, Option.bind_some, loop], ?_⟩
    rw [show i + (n + 1) = i + 1 + n by omega]
    exact first.trans (by omega) (by omega) rest

end Releasing

section Sections

variable {c : Core} {d : Nat} {dev : CapiDevice}

theorem unlinkCapiDevice_eq (live : c.device d = some dev) :
    unlinkCapiDevice c d = some { c with
      device := Function.update c.device d (some { dev with entry := .self })
      capiDevsList := c.capiDevsList.erase d
      devPhase := Function.update c.devPhase d (.unlinked (c.devPhase d = DevPhase.failing)) } := by
  simp only [unlinkCapiDevice, live, Option.bind_eq_bind, Option.bind_some]
  rfl

theorem drainCapiDevice_eq (live : c.device d = some dev) :
    drainCapiDevice c d = some { c with
      device := Function.update c.device d (some { dev with sem := { dev.sem with writer := true } })
      nrCapiDevs := c.nrCapiDevs - 1
      devPhase := Function.update c.devPhase d (.returned (c.devPhase d = DevPhase.unlinked true)) } := by
  simp only [drainCapiDevice, live, Option.bind_eq_bind, Option.bind_some]
  rfl

/-- The semaphore is taken for reading only while nobody holds it for writing. -/
theorem capiPutMessageEnter_eq {p : Put} (live : c.device p.dev = some dev) :
    capiPutMessageEnter c p =
      if dev.sem.writer then some (some .OSRESERR, { c with puts := c.puts.erase p })
      else some (none, { c with
        device := Function.update c.device p.dev
          (some { dev with sem := { dev.sem with readers := dev.sem.readers + 1 } })
        calls := c.calls ++ [.capiPutMessage p.dev p.appl p.msg]
        puts := { p with inside := true } :: c.puts.erase p }) := by
  simp only [capiPutMessageEnter, live, Option.bind_eq_bind, Option.bind_some]
  rfl

theorem capiPutMessageLeave_eq {p : Put} (live : c.device p.dev = some dev) (info : Capinfo0x11) :
    capiPutMessageLeave c p info = some (info, { c with
      device := Function.update c.device p.dev
        (some { dev with sem := { dev.sem with readers := dev.sem.readers - 1 } })
      puts := c.puts.erase p }) := by
  simp only [capiPutMessageLeave, live, Option.bind_eq_bind, Option.bind_some]
  rfl

/-- The search for a free slot. -/
theorem addCapiDeviceLoop_some {table : Nat → Option Nat} (n : Nat) : ∀ {i j : Nat},
    addCapiDeviceLoop table n i = some j → j < i + n ∧ table j = none := by
  induction n with
  | zero => intro i j run; cases run
  | succ n ih =>
    intro i j run
    unfold addCapiDeviceLoop at run
    split at run
    · rename_i free
      cases run
      exact ⟨by omega, Option.isNone_iff_eq_none.1 free⟩
    · obtain ⟨bound, free⟩ := ih run
      exact ⟨by omega, free⟩

theorem bindCapiDeviceListed_eq (live : c.device d = some dev) (info : Nat → Capinfo0x10) :
    bindCapiDeviceListed c d info = some { c with
      device := Function.update c.device d (some { dev with
        sem := { dev.sem with writer := false }
        refs := dev.refs + c.capiApplsList.countP (fun a => info a = .NOERR)
        entry := .linked })
      appl := fun a => if a ∈ c.capiApplsList ∧ info a = .NOERR then (c.appl a).marked (dev.id - 1) else c.appl a
      calls := c.calls ++ c.capiApplsList.map fun a => .capiRegister d a (info a)
      nrCapiDevs := c.nrCapiDevs + 1
      capiDevsList := c.capiDevsList ++ [d] } := by
  unfold bindCapiDeviceListed
  rw [bindDevice_fold info c.capiApplsList live]
  simp [setDevice, CapiDevice.held]

/-- The two ways through `capi_device_register` before sysfs. -/
theorem capiDeviceRegister_eq {cfg : Config} (live : c.device d = some dev) (info : Nat → Capinfo0x10) :
    capiDeviceRegister cfg c d info =
      match addCapiDeviceLoop c.capiDevsTable cfg.maxDevs 0 with
      | none => some { c with
          device := Function.update c.device d (some { dev with id := 0, sem := ⟨true, 0⟩ })
          devPhase := Function.update c.devPhase d (.returned true) }
      | some i => some { c with
          capiDevsTable := Function.update c.capiDevsTable i (some d)
          device := Function.update c.device d (some ⟨i + 1, ⟨false, 0⟩,
            dev.refs + c.capiApplsList.countP (fun a => info a = .NOERR), .linked⟩)
          appl := fun a => if a ∈ c.capiApplsList ∧ info a = .NOERR then (c.appl a).marked i else c.appl a
          calls := c.calls ++ c.capiApplsList.map fun a => .capiRegister d a (info a)
          nrCapiDevs := c.nrCapiDevs + 1
          capiDevsList := c.capiDevsList ++ [d]
          devPhase := Function.update c.devPhase d .bound } := by
  simp only [capiDeviceRegister, live, Option.bind_eq_bind, Option.bind_some, bindCapiDevice, addCapiDevice]
  cases addCapiDeviceLoop c.capiDevsTable cfg.maxDevs 0 with
  | none =>
    simp [setDevice, setDevPhase]
  | some i =>
    have slot : ({ c with capiDevsTable := Function.update c.capiDevsTable i (some d) }.setDevice d
        (some { dev with id := i + 1, sem := ⟨true, 0⟩ })).device d =
        some { dev with id := i + 1, sem := ⟨true, 0⟩ } := by simp [setDevice]
    have bind := bindCapiDeviceListed_eq slot info
    dsimp only at slot bind ⊢
    rw [slot, Option.bind_some, if_pos (Nat.succ_ne_zero i), bind]
    simp only [setDevice, setDevPhase, Function.update_idem]
    rfl

/-- A registration that failed leaves its mark on the application's own structure only. -/
structure Refused (c : Core) (a : Nat) (c' : Core) : Prop where
  frame : ∃ appl, c' = { c with appl := appl }
  others : ∀ b ≠ a, c'.appl b = c.appl b

/-- A registration that succeeded. -/
structure Joined (c : Core) (a : Nat) (info : Nat → Capinfo0x10) (c' : Core) : Prop where
  frame : ∃ list appl device, c' = { c with
    capiApplsList := list, appl := appl, device := device
    calls := c.calls ++ c.capiDevsList.map fun d => .capiRegister d a (info d)
    applPhase := Function.update c.applPhase a .registered }
  others : ∀ b ≠ a, c'.appl b = c.appl b
  devs : ∀ i, (c'.appl a).devs i = true ↔ Accepting c c.capiDevsList info i
  device : ∀ d, c'.device d = if d ∈ c.capiDevsList ∧ info d = .NOERR then (c.device d).map (·.held 1) else c.device d

/-- Linking the application touches its structure and the list. -/
theorem addCapiAppl_prepared (cfg : Config) (c : Core) (a : Nat) (datablklen : UInt32) :
    ∃ list appl, addCapiAppl cfg (prepared c a datablklen) a = { c with capiApplsList := list, appl := appl } ∧
      (∀ b ≠ a, appl b = c.appl b) ∧ (appl a).devs = fun _ => false := by
  unfold addCapiAppl prepared
  dsimp only
  split
  · exact ⟨_, _, rfl, fun b ne => by simp [setAppl, ne], by simp [setAppl]⟩
  · exact ⟨_, _, rfl, fun b ne => by simp [setAppl, ne], by simp [setAppl]⟩

theorem capiRegister_effect {cfg : Config} (numbered : Numbered cfg c) (nodup : c.capiDevsList.Nodup)
    (live : ∀ d ∈ c.capiDevsList, (c.device d).isSome) (a : Nat) (datablklen : UInt32) (info : Nat → Capinfo0x10)
    (narrow : InRange cfg c (.applRegister a datablklen info)) :
    ∃ r c', capiRegister cfg c a datablklen info = some (r, c') ∧
      (r = .NOERR → Joined c a info c') ∧ (r ≠ .NOERR → Refused c a c') := by
  rw [capiRegister_eq]
  split
  · exact ⟨_, _, rfl, fun e => (by cases e), fun _ => ⟨⟨_, rfl⟩, fun b ne => by simp [setAppl, ne]⟩⟩
  · rename_i large
    obtain ⟨list, appl, added, others, clear⟩ := addCapiAppl_prepared cfg c a datablklen
    by_cases zero : ((addCapiAppl cfg (prepared c a datablklen) a).appl a).id = 0
    · rw [bindCapiAppl_zero info zero]
      refine ⟨_, _, rfl, fun e => (by cases e), fun _ => ?_⟩
      -- without a number the list is as it was
      have ready := prepared_same c a datablklen
      have numbered' : Numbered cfg (prepared c a datablklen) := by
        unfold Numbered
        rw [ready.ids]
        exact numbered
      have same : list = c.capiApplsList := by
        have cases := addCapiAppl_cases numbered' a
        rw [added] at cases zero
        cases cases with
        | linked fits mine _ =>
          rw [zero] at mine
          have one := numbered'.nextId_isLeast.1.1
          simp only [UInt16.reduceToNat] at mine
          omega
        | full _ _ _ kept => exact kept.trans ready.list
        | wrapped wrap _ _ =>
          have room := narrow (UInt32.not_lt.1 large)
          rw [← ready.list] at room
          exact absurd room (numbered'.wrap_iff.1 wrap)
      rw [added, same]
      exact ⟨⟨_, rfl⟩, others⟩
    · have live' : ∀ d ∈ (addCapiAppl cfg (prepared c a datablklen) a).capiDevsList,
          ((addCapiAppl cfg (prepared c a datablklen) a).device d).isSome := by
        rw [added]; exact live
      have nodup' : (addCapiAppl cfg (prepared c a datablklen) a).capiDevsList.Nodup := by rw [added]; exact nodup
      obtain ⟨c2, fold, bound⟩ := bindAppl_fold (a := a) info _ nodup' live'
      have bind : bindCapiAppl cfg (prepared c a datablklen) a info =
          some (((addCapiAppl cfg (prepared c a datablklen) a).appl a).id, c2) := by
        simp only [bindCapiAppl, ne_eq, zero, not_false_eq_true, if_true, fold, Option.bind_eq_bind, Option.bind_some]
        rfl
      rw [bind]
      simp only [Option.map_some, if_neg zero]
      refine ⟨_, _, rfl, fun _ => ?_, fun ne => absurd rfl ne⟩
      rw [added] at bound
      obtain ⟨⟨appl', device', frame⟩, others', -, devs, device⟩ := bound
      refine ⟨⟨list, appl', device', by rw [frame]; rfl⟩, fun b ne => (others' b ne).trans (others b ne), fun i => ?_,
        device⟩
      refine (devs i).trans ?_
      change (appl a).devs i = true ∨ Accepting c c.capiDevsList info i ↔ _
      rw [clear]
      simp

end Sections

end Capi4Linux.Capicore
