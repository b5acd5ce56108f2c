import Capi4Linux.Capicore.Step
import Capi4Linux.Lib.FirstGap

/-!
# Application numbers

`add_capi_appl` looks for the first gap in the ids of `capi_appls_list` with a
`u16`. The list stays increasing, and ids stay in range, as long as that counter
does not wrap.
-/

namespace Capi4Linux.Capicore
open Capi4Linux.Capicore.Core Machine

/-- The ids on `capi_appls_list`. -/
def Core.ids (c : Core) : List Nat := c.capiApplsList.map fun a => (c.appl a).id.toNat

/-- The ids are strictly increasing and lie in `1..CAPI_MAX_APPLS`. -/
def Numbered (cfg : Config) (c : Core) : Prop :=
  c.ids.Pairwise (· < ·) ∧ ∀ n ∈ c.ids, 1 ≤ n ∧ n ≤ cfg.maxAppls

/-- What the allocator does at one step: after it the list is in order; a
registration takes the least free id, fails with TOOMANYAPPLS exactly when none is
left, and leaves the list alone when it fails. -/
def NumberMeets (cfg : Config) (c : Core) (l : Section) (c' : Core) : Prop :=
  Numbered cfg c' ∧
  match l with
  | .applRegister a datablklen info =>
    ∃ r, capiRegister cfg c a datablklen info = some (r, c') ∧
      (r ≠ .NOERR → c'.capiApplsList = c.capiApplsList) ∧
      (128 ≤ datablklen →
        (r = .TOOMANYAPPLS ↔ ∀ n, 1 ≤ n → n ≤ cfg.maxAppls → n ∈ c.ids) ∧
        ((∃ n, 1 ≤ n ∧ n ≤ cfg.maxAppls ∧ n ∉ c.ids) →
          r = .NOERR ∧ c'.capiApplsList.Perm (a :: c.capiApplsList) ∧
          IsLeast {n | 1 ≤ n ∧ n ∉ c.ids} (c'.appl a).id.toNat))
  | _ => True

/-- A registration that passes the parameter checks finds fewer than 65535
applications, or a lower limit. -/
def InRange (cfg : Config) (c : Core) : Section → Prop
  | .applRegister _ datablklen _ => 128 ≤ datablklen → cfg.maxAppls < 65535 ∨ c.capiApplsList.length < 65535
  | _ => True

/-! ## The search -/

/-- The loop walks to the first gap; only its counter is narrow. -/
theorem addCapiApplLoop_eq (ids : Nat → UInt16) (as : List Nat) : ∀ id : UInt16,
    as.Pairwise (fun a b => ids a < ids b) → (∀ a ∈ as, id ≤ ids a) → id.toNat + as.length ≤ 65536 →
    let p := FirstGap.passed id.toNat (as.map fun a => (ids a).toNat)
    addCapiApplLoop ids as id = (UInt16.ofNat (id.toNat + p), as.take p, as.drop p) := by
  induction as with
  | nil => intro id _ _ _; simp [addCapiApplLoop, FirstGap.passed]
  | cons a as ih =>
    intro id inc low room
    obtain ⟨above, rest⟩ := List.pairwise_cons.1 inc
    by_cases hole : ids a > id
    · have taken : id.toNat < (ids a).toNat := hole
      simp only [List.map_cons, FirstGap.passed_hole taken, addCapiApplLoop, if_pos hole]
      simp
    · have eq : ids a = id := UInt16.le_antisymm (UInt16.not_lt.1 hole) (low a (by simp))
      have full : ¬ id.toNat < (ids a).toNat := hole
      simp only [List.map_cons, FirstGap.passed_taken full, addCapiApplLoop, if_neg hole]
      cases as with
      | nil => simp [addCapiApplLoop, FirstGap.passed]
      | cons b as =>
        -- one more application, so the counter has not wrapped yet
        have next : (id + 1).toNat = id.toNat + 1 := by
          simp only [List.length_cons] at room
          rw [UInt16.toNat_add]
          simp only [UInt16.reduceToNat]
          omega
        have step := ih (id + 1) rest ?_ ?_
        · rw [next] at step
          rw [step]
          simp [Nat.add_assoc, Nat.add_comm 1]
        · intro b hb
          have lt : id.toNat < (ids b).toNat := eq ▸ above b hb
          exact UInt16.le_iff_toNat_le.2 (by omega)
        · simp only [List.length_cons] at room ⊢
          omega

/-! ## What leaves the numbers alone -/

/-- The list, the ids and the phases of the applications are as before. -/
structure SameAppls (c c' : Core) : Prop where
  list : c'.capiApplsList = c.capiApplsList
  id : ∀ a, (c'.appl a).id = (c.appl a).id
  phase : c'.applPhase = c.applPhase

theorem SameAppls.refl (c : Core) : SameAppls c c := ⟨rfl, fun _ => rfl, rfl⟩

theorem SameAppls.trans {c c' c'' : Core} (h : SameAppls c c') (h' : SameAppls c' c'') : SameAppls c c'' :=
  ⟨h'.list.trans h.list, fun a => (h'.id a).trans (h.id a), h'.phase.trans h.phase⟩

/-- The same applications have the same numbers. -/
theorem SameAppls.ids {c c' : Core} (h : SameAppls c c') : c'.ids = c.ids := by
  unfold Core.ids
  rw [h.list]
  exact List.map_congr_left fun a _ => by rw [h.id a]

theorem setAppl_same {c : Core} {a : Nat} {appl : CapiAppl} (h : appl.id = (c.appl a).id) :
    SameAppls c (c.setAppl a appl) := by
  refine ⟨rfl, fun b => ?_, rfl⟩
  by_cases e : b = a
  · subst e; simp [setAppl, h]
  · simp [setAppl, e]

theorem capiDeviceGet_same {c c' : Core} {d : Nat} (run : capiDeviceGet c d = some c') : SameAppls c c' := by
  simp only [capiDeviceGet, Option.bind_eq_bind, Option.bind_eq_some_iff, Option.pure_def, Option.some.injEq] at run
  obtain ⟨dev, -, rfl⟩ := run
  exact ⟨rfl, fun _ => rfl, rfl⟩

theorem freeCapiDevice_same {c c' : Core} {d : Nat} (run : freeCapiDevice c d = some c') : SameAppls c c' := by
  simp only [freeCapiDevice, Option.bind_eq_bind, Option.bind_eq_some_iff, Option.pure_def, Option.some.injEq] at run
  obtain ⟨dev, -, rfl⟩ := run
  split
  · exact ⟨rfl, fun _ => rfl, rfl⟩
  · exact ⟨rfl, fun _ => rfl, rfl⟩

theorem capiDevicePut_same {c c' : Core} {d : Nat} (run : capiDevicePut c d = some c') : SameAppls c c' := by
  simp only [capiDevicePut, Option.bind_eq_bind, Option.bind_eq_some_iff, Option.pure_def] at run
  obtain ⟨dev, -, run⟩ := run
  split at run
  · have dropped : SameAppls c (c.setDevice d (some { dev with refs := dev.refs - 1 })) :=
      ⟨rfl, fun _ => rfl, rfl⟩
    exact dropped.trans (freeCapiDevice_same run)
  · cases run; exact ⟨rfl, fun _ => rfl, rfl⟩

theorem registerCapiAppl_same {c c' : Core} {a d : Nat} {info : Capinfo0x10}
    (run : registerCapiAppl c a d info = some c') : SameAppls c c' := by
  simp only [registerCapiAppl, Option.bind_eq_bind, Option.bind_eq_some_iff, Option.pure_def] at run
  obtain ⟨dev, -, run⟩ := run
  split at run
  · cases run; exact ⟨rfl, fun _ => rfl, rfl⟩
  · have asked : SameAppls c (c.call (.capiRegister d a info)) := ⟨rfl, fun _ => rfl, rfl⟩
    refine (asked.trans (setAppl_same ?_)).trans (capiDeviceGet_same run)
    rfl

theorem bindCapiDeviceListed_same {c c' : Core} {d : Nat} {info : Nat → Capinfo0x10}
    (run : bindCapiDeviceListed c d info = some c') : SameAppls c c' := by
  simp only [bindCapiDeviceListed, Option.bind_eq_bind, Option.bind_eq_some_iff, Option.pure_def,
    Option.some.injEq] at run
  obtain ⟨c1, fold, dev, -, rfl⟩ := run
  have bound := foldlM_rel SameAppls.refl (fun _ _ _ => SameAppls.trans) (fun _ _ _ => registerCapiAppl_same) fold
  exact bound.trans ⟨rfl, fun _ => rfl, rfl⟩

theorem addCapiDevice_same (cfg : Config) (c : Core) (d : Nat) (dev : CapiDevice) :
    SameAppls c (addCapiDevice cfg c d dev) := by
  unfold addCapiDevice
  split
  · exact ⟨rfl, fun _ => rfl, rfl⟩
  · exact ⟨rfl, fun _ => rfl, rfl⟩

theorem bindCapiDevice_same {cfg : Config} {c c' : Core} {d id : Nat} {dev : CapiDevice}
    {info : Nat → Capinfo0x10} (run : bindCapiDevice cfg c d dev info = some (id, c')) : SameAppls c c' := by
  simp only [bindCapiDevice, Option.bind_eq_bind, Option.bind_eq_some_iff, Option.pure_def] at run
  obtain ⟨dev', -, run⟩ := run
  have added := addCapiDevice_same cfg c d dev
  split at run
  · simp only [Option.bind_eq_some_iff, Option.some.injEq, Prod.mk.injEq] at run
    obtain ⟨c1, listed, -, rfl⟩ := run
    exact added.trans (bindCapiDeviceListed_same listed)
  · cases run; exact added

theorem releaseCapiDevice_same {c c' : Core} {a i : Nat} (run : releaseCapiDevice c a i = some c') :
    SameAppls c c' := by
  simp only [releaseCapiDevice, Option.bind_eq_bind, Option.bind_eq_some_iff] at run
  obtain ⟨d, -, dev, -, run⟩ := run
  refine SameAppls.trans ?_ (capiDevicePut_same run)
  split
  · exact ⟨rfl, fun _ => rfl, rfl⟩
  · exact SameAppls.refl c

theorem releaseCapiBit_same {c c' : Core} {a i : Nat} (run : releaseCapiBit c a i = some c') : SameAppls c c' := by
  unfold releaseCapiBit at run
  split at run
  · exact releaseCapiDevice_same run
  · cases run; exact SameAppls.refl c

theorem capiReleaseLoop_same {a : Nat} (n : Nat) : ∀ {i : Nat} {c c' : Core},
    capiReleaseLoop a n i c = some c' → SameAppls c c' := by
  induction n with
  | zero => intro i c c' run; cases run; exact SameAppls.refl c
  | succ n ih =>
    intro i c c' run
    simp only [capiReleaseLoop, Option.bind_eq_bind, Option.bind_eq_some_iff] at run
    obtain ⟨c1, round, run⟩ := run
    exact (releaseCapiBit_same round).trans (ih run)

/-- Only `capi_register` and `capi_release` touch the numbers. -/
theorem step_same {cfg : Config} {c c' : Core} {l : Section} (run : step cfg c l = some c')
    (register : ∀ a datablklen info, l ≠ .applRegister a datablklen info) (release : ∀ a, l ≠ .applRelease a) :
    SameAppls c c' := by
  cases l with
  | deviceAlloc mem =>
    cases run
    unfold capiDeviceAlloc
    split
    · exact ⟨rfl, fun _ => rfl, rfl⟩
    · exact SameAppls.refl c
  | deviceRegister d info =>
    simp only [step, capiDeviceRegister, Option.bind_eq_bind, Option.bind_eq_some_iff, Option.pure_def] at run
    obtain ⟨dev, -, ⟨id, c1⟩, bound, run⟩ := run
    refine (bindCapiDevice_same bound).trans ?_
    split at run
    · cases run; exact ⟨rfl, fun _ => rfl, rfl⟩
    · cases run; exact ⟨rfl, fun _ => rfl, rfl⟩
  | deviceRegisterSysfs d res =>
    cases run
    unfold capiDeviceRegisterSysfs
    split
    · exact ⟨rfl, fun _ => rfl, rfl⟩
    · exact ⟨rfl, fun _ => rfl, rfl⟩
  | deviceUnlink d =>
    simp only [step, unlinkCapiDevice, Option.bind_eq_bind, Option.bind_eq_some_iff, Option.pure_def,
      Option.some.injEq] at run
    obtain ⟨dev, -, rfl⟩ := run
    exact ⟨rfl, fun _ => rfl, rfl⟩
  | deviceDrain d =>
    simp only [step, drainCapiDevice, Option.bind_eq_bind, Option.bind_eq_some_iff, Option.pure_def,
      Option.some.injEq] at run
    obtain ⟨dev, -, rfl⟩ := run
    exact ⟨rfl, fun _ => rfl, rfl⟩
  | devicePut d =>
    simp only [step, Option.map_eq_some_iff] at run
    obtain ⟨c1, dropped, rfl⟩ := run
    exact (capiDevicePut_same dropped).trans ⟨rfl, fun _ => rfl, rfl⟩
  | applRegister a datablklen info => exact absurd rfl (register a datablklen info)
  | applRelease a => exact absurd rfl (release a)
  | applSignalError a info =>
    cases run
    simp only [capiApplSignalError]
    split
    · exact setAppl_same rfl
    · exact SameAppls.refl c
  | putLookup a msg =>
    simp only [step, Option.map_eq_some_iff] at run
    obtain ⟨found, -, rfl⟩ := run
    cases found
    · exact SameAppls.refl c
    · exact ⟨rfl, fun _ => rfl, rfl⟩
  | putEnter p =>
    simp only [step, capiPutMessageEnter, Option.map_eq_some_iff, Option.bind_eq_bind, Option.bind_eq_some_iff,
      Option.pure_def] at run
    obtain ⟨found, ⟨dev, -, run⟩, rfl⟩ := run
    split at run
    · cases run; exact ⟨rfl, fun _ => rfl, rfl⟩
    · cases run; exact ⟨rfl, fun _ => rfl, rfl⟩
  | putLeave p info =>
    simp only [step, capiPutMessageLeave, Option.map_eq_some_iff, Option.bind_eq_bind, Option.bind_eq_some_iff,
      Option.pure_def, Option.some.injEq] at run
    obtain ⟨found, ⟨dev, -, rfl⟩, rfl⟩ := run
    exact ⟨rfl, fun _ => rfl, rfl⟩

/-! ## Registration -/

/-- The number `add_capi_appl` stops at, before it is cut to 16 bits. -/
def Core.nextId (c : Core) : Nat := FirstGap.gap 1 c.ids

/-- Where it links the application. -/
def Core.position (c : Core) : Nat := FirstGap.passed 1 c.ids

section Register

variable {cfg : Config} {c : Core}

/-- The next number is the least that is free. -/
theorem Numbered.nextId_isLeast (h : Numbered cfg c) : IsLeast {n | 1 ≤ n ∧ n ∉ c.ids} c.nextId :=
  FirstGap.gap_isLeast h.1 fun n hn => (h.2 n hn).1

/-- There are no more applications than numbers. -/
theorem Numbered.length_le (h : Numbered cfg c) : c.capiApplsList.length ≤ cfg.maxAppls := by
  have bound := FirstGap.length_le_of_bounds c.ids 0 cfg.maxAppls h.1 h.2
  simpa [Core.ids] using bound

/-- All ids are in use exactly when the search runs past the limit. -/
theorem Numbered.full_iff (h : Numbered cfg c) :
    (∀ n, 1 ≤ n → n ≤ cfg.maxAppls → n ∈ c.ids) ↔ cfg.maxAppls < c.nextId := by
  obtain ⟨⟨pos, unused⟩, least⟩ := h.nextId_isLeast
  constructor
  · intro full
    by_contra low
    exact unused (full _ pos (by omega))
  · intro beyond n one top
    by_contra free
    have := least ⟨one, free⟩
    omega

/-- The search stops one past the limit at the latest. -/
theorem Numbered.nextId_le (h : Numbered cfg c) : c.nextId ≤ cfg.maxAppls + 1 := by
  refine h.nextId_isLeast.2 ⟨by omega, fun used => ?_⟩
  have := (h.2 _ used).2
  omega

/-- It gets to 65536 exactly when 65535 applications are registered. -/
theorem Numbered.wrap_iff (h : Numbered cfg c) :
    c.nextId = 65536 ↔ ¬ (cfg.maxAppls < 65535 ∨ c.capiApplsList.length < 65535) := by
  have max := cfg.appls_range.2
  have len : c.ids.length = c.capiApplsList.length := List.length_map _
  constructor
  · intro wrap
    have near := FirstGap.passed_le c.ids 1
    have bound := h.nextId_le
    have : FirstGap.passed 1 c.ids = 65535 := by unfold Core.nextId FirstGap.gap at wrap; omega
    omega
  · intro full
    have bound := h.nextId_le
    have all : ∀ x ∈ c.ids.drop (FirstGap.passed 1 c.ids), c.nextId < x ∧ x ≤ cfg.maxAppls := fun x hx =>
      ⟨FirstGap.gap_lt_drop c.ids 1 h.1 (fun n hn => (h.2 n hn).1) x hx, (h.2 x (List.mem_of_mem_drop hx)).2⟩
    have rest := FirstGap.length_le_of_bounds _ _ _ (h.1.sublist (List.drop_sublist _ _)) all
    have near := FirstGap.passed_le c.ids 1
    rw [List.length_drop] at rest
    unfold Core.nextId FirstGap.gap at *
    omega

/-- `add_capi_appl` in terms of the search. -/
theorem addCapiAppl_eq (h : Numbered cfg c) (a : Nat) :
    addCapiAppl cfg c a =
      if (UInt16.ofNat c.nextId).toNat > cfg.maxAppls then c.setAppl a { c.appl a with id := 0 }
      else { c.setAppl a { c.appl a with id := UInt16.ofNat c.nextId } with
        capiApplsList := c.capiApplsList.take c.position ++ a :: c.capiApplsList.drop c.position } := by
  have inc : c.capiApplsList.Pairwise fun a b => (c.appl a).id < (c.appl b).id :=
    (List.pairwise_map.1 h.1).imp fun lt => UInt16.lt_iff_toNat_lt.2 lt
  have low : ∀ a ∈ c.capiApplsList, 1 ≤ (c.appl a).id := fun a ha =>
    UInt16.le_iff_toNat_le.2 (h.2 _ (List.mem_map.2 ⟨a, ha, rfl⟩)).1
  have room : (1 : UInt16).toNat + c.capiApplsList.length ≤ 65536 := by
    have := h.length_le
    have := cfg.appls_range.2
    simp only [UInt16.reduceToNat]
    omega
  have walk := addCapiApplLoop_eq (fun a => (c.appl a).id) c.capiApplsList 1 inc low room
  simp only [addCapiAppl, walk]
  rfl

/-- The list with `a` linked at the gap is numbered again. -/
theorem Numbered.insert {c' : Core} {a : Nat} (h : Numbered cfg c) (fits : c.nextId ≤ cfg.maxAppls)
    (list : c'.capiApplsList = c.capiApplsList.take c.position ++ a :: c.capiApplsList.drop c.position)
    (new : a ∉ c.capiApplsList) (mine : (c'.appl a).id.toNat = c.nextId)
    (others : ∀ b ≠ a, (c'.appl b).id = (c.appl b).id) : Numbered cfg c' := by
  have same : ∀ as : List Nat, (∀ b ∈ as, b ∈ c.capiApplsList) →
      as.map (fun b => (c'.appl b).id.toNat) = as.map fun b => (c.appl b).id.toNat := by
    intro as sub
    exact List.map_congr_left fun b hb => by rw [others b fun e => new (e ▸ sub b hb)]
  have ids : c'.ids = c.ids.take c.position ++ c.nextId :: c.ids.drop c.position := by
    simp only [Core.ids, list, List.map_append, List.map_cons, mine, ← List.map_take, ← List.map_drop]
    rw [same _ fun b hb => List.mem_of_mem_take hb, same _ fun b hb => List.mem_of_mem_drop hb]
  have low : ∀ n ∈ c.ids, 1 ≤ n := fun n hn => (h.2 n hn).1
  refine ⟨ids ▸ FirstGap.insert_gap h.1 low, ?_⟩
  intro n hn
  rw [ids, List.mem_append, List.mem_cons] at hn
  rcases hn with hn | rfl | hn
  · exact h.2 n (List.mem_of_mem_take hn)
  · exact ⟨h.nextId_isLeast.1.1, fits⟩
  · exact h.2 n (List.mem_of_mem_drop hn)

/-- How `add_capi_appl` can end. -/
inductive Added (cfg : Config) (c : Core) (a : Nat) (c' : Core) : Prop where
  /-- The application is linked with the least free id. -/
  | linked (fits : c.nextId ≤ cfg.maxAppls) (mine : (c'.appl a).id.toNat = c.nextId)
      (list : c'.capiApplsList = c.capiApplsList.take c.position ++ a :: c.capiApplsList.drop c.position)
  /-- No id is free. -/
  | full (beyond : cfg.maxAppls < c.nextId) (narrow : c.nextId < 65536) (mine : (c'.appl a).id = 0)
      (list : c'.capiApplsList = c.capiApplsList)
  /-- The counter has wrapped to zero: the application is linked all the same. -/
  | wrapped (wrap : c.nextId = 65536) (mine : (c'.appl a).id = 0)
      (list : c'.capiApplsList.length = c.capiApplsList.length + 1)

/-- The position is in the list or at its end. -/
theorem Numbered.position_le (c : Core) : c.position ≤ c.capiApplsList.length := by
  have near := FirstGap.passed_le c.ids 1
  rwa [Core.ids, List.length_map] at near

/-- An application is added at the first gap or not at all. -/
theorem addCapiAppl_cases (h : Numbered cfg c) (a : Nat) : Added cfg c a (addCapiAppl cfg c a) := by
  have max := cfg.appls_range.2
  have limit := h.nextId_le
  have cut : (UInt16.ofNat c.nextId).toNat = c.nextId % 65536 := UInt16.toNat_ofNat'
  rw [addCapiAppl_eq h]
  rcases Nat.lt_or_ge c.nextId 65536 with narrow | wide
  · by_cases fits : c.nextId ≤ cfg.maxAppls
    · rw [if_neg (by omega)]
      exact .linked fits (by simp only [setAppl, Function.update_self]; omega) rfl
    · rw [if_pos (by omega)]
      exact .full (by omega) narrow (by simp [setAppl]) rfl
  · have wrap : c.nextId = 65536 := by omega
    have pos := Numbered.position_le c
    rw [if_neg (by omega)]
    refine .wrapped wrap ?_ ?_
    · simp only [setAppl, Function.update_self, wrap]
      rfl
    · simp only [List.length_append, List.length_take, List.length_cons, List.length_drop]
      omega

/-- The other applications stay as they are. -/
theorem addCapiAppl_frame (cfg : Config) (c : Core) (a : Nat) :
    (∀ b ≠ a, (addCapiAppl cfg c a).appl b = c.appl b) ∧ (addCapiAppl cfg c a).applPhase = c.applPhase := by
  simp only [addCapiAppl]
  split
  · exact ⟨fun b ne => by simp [setAppl, ne], rfl⟩
  · exact ⟨fun b ne => by simp [setAppl, ne], rfl⟩

/-- The devices have no say in the numbers. -/
theorem bindCapiAppl_same {c' : Core} {a : Nat} {id : UInt16} {info : Nat → Capinfo0x10}
    (run : bindCapiAppl cfg c a info = some (id, c')) :
    id = ((addCapiAppl cfg c a).appl a).id ∧ SameAppls (addCapiAppl cfg c a) c' := by
  unfold bindCapiAppl at run
  generalize addCapiAppl cfg c a = c1 at run ⊢
  simp only [Option.bind_eq_bind, Option.pure_def] at run
  split at run
  · simp only [Option.bind_eq_some_iff, Option.some.injEq, Prod.mk.injEq] at run
    obtain ⟨c2, fold, rfl, rfl⟩ := run
    exact ⟨rfl, foldlM_rel SameAppls.refl (fun _ _ _ => SameAppls.trans) (fun _ _ _ => registerCapiAppl_same) fold⟩
  · cases run
    exact ⟨rfl, SameAppls.refl _⟩

/-- An application without a number is bound to no device. -/
theorem bindCapiAppl_zero {a : Nat} (info : Nat → Capinfo0x10) (h : ((addCapiAppl cfg c a).appl a).id = 0) :
    bindCapiAppl cfg c a info = some (0, addCapiAppl cfg c a) := by
  simp only [bindCapiAppl, h]
  rfl

/-- The structure as `capi_register` hands it to `bind_capi_appl`. -/
def prepared (c : Core) (a : Nat) (datablklen : UInt32) : Core :=
  let c := c.setAppl a { c.appl a with datablklen := datablklen }
  c.setAppl a { c.appl a with info := .NOERR, devs := fun _ => false }

theorem prepared_same (c : Core) (a : Nat) (datablklen : UInt32) : SameAppls c (prepared c a datablklen) := by
  have first : SameAppls c (c.setAppl a { c.appl a with datablklen := datablklen }) := setAppl_same rfl
  refine first.trans (setAppl_same ?_)
  rfl

/-- `capi_register` is a parameter check around `bind_capi_appl`. -/
theorem capiRegister_eq (a : Nat) (datablklen : UInt32) (info : Nat → Capinfo0x10) :
    capiRegister cfg c a datablklen info =
      if datablklen < 128 then
        some (.LOGBLKSIZETOSMALL, c.setAppl a { c.appl a with datablklen := datablklen })
      else (bindCapiAppl cfg (prepared c a datablklen) a info).map fun (id, c') =>
        if id = 0 then (.TOOMANYAPPLS, c') else (.NOERR, c'.setApplPhase a .registered) := by
  unfold capiRegister prepared
  split
  · rfl
  · simp only [Option.bind_eq_bind]
    cases bindCapiAppl cfg _ a info with
    | none => rfl
    | some r =>
      obtain ⟨id, c'⟩ := r
      simp only [Option.bind_some, Option.map_some]
      split <;> rfl

/-- How a call of `capi_register` can end. -/
inductive Registration (cfg : Config) (c : Core) (a : Nat) (datablklen : UInt32) (r : Capinfo0x10) (c' : Core) :
    Prop where
  | small (check : datablklen < 128) (result : r = .LOGBLKSIZETOSMALL) (same : SameAppls c c')
  | registered (check : 128 ≤ datablklen) (result : r = .NOERR) (fits : c.nextId ≤ cfg.maxAppls)
      (mine : (c'.appl a).id.toNat = c.nextId)
      (list : c'.capiApplsList = c.capiApplsList.take c.position ++ a :: c.capiApplsList.drop c.position)
      (others : ∀ b ≠ a, (c'.appl b).id = (c.appl b).id)
      (phase : c'.applPhase = Function.update c.applPhase a .registered)
  | full (check : 128 ≤ datablklen) (result : r = .TOOMANYAPPLS) (beyond : cfg.maxAppls < c.nextId)
      (narrow : c.nextId < 65536) (list : c'.capiApplsList = c.capiApplsList)
      (others : ∀ b ≠ a, (c'.appl b).id = (c.appl b).id) (phase : c'.applPhase = c.applPhase)
  | wrapped (check : 128 ≤ datablklen) (result : r = .TOOMANYAPPLS) (wrap : c.nextId = 65536)
      (list : c'.capiApplsList.length = c.capiApplsList.length + 1)

/-- A registration ends in one of three ways. -/
theorem capiRegister_cases {c' : Core} {a : Nat} {datablklen : UInt32} {info : Nat → Capinfo0x10}
    {r : Capinfo0x10} (h : Numbered cfg c) (run : capiRegister cfg c a datablklen info = some (r, c')) :
    Registration cfg c a datablklen r c' := by
  rw [capiRegister_eq] at run
  split at run
  · rename_i small
    cases run
    exact .small small rfl (setAppl_same rfl)
  · rename_i large
    have check : 128 ≤ datablklen := UInt32.not_lt.1 large
    simp only [Option.map_eq_some_iff] at run
    obtain ⟨⟨id, c2⟩, bind, result⟩ := run
    have ready := prepared_same c a datablklen
    obtain ⟨rfl, bound⟩ := bindCapiAppl_same bind
    obtain ⟨frame, phase⟩ := addCapiAppl_frame cfg (prepared c a datablklen) a
    have numbered : Numbered cfg (prepared c a datablklen) := by
      unfold Numbered
      rw [ready.ids]
      exact h
    have next : (prepared c a datablklen).nextId = c.nextId := by unfold Core.nextId; rw [ready.ids]
    have place : (prepared c a datablklen).position = c.position := by unfold Core.position; rw [ready.ids]
    have others : ∀ b ≠ a, (c2.appl b).id = (c.appl b).id := fun b ne =>
      (bound.id b).trans ((congrArg CapiAppl.id (frame b ne)).trans (ready.id b))
    have added := addCapiAppl_cases numbered a
    have pos := h.nextId_isLeast.1.1
    cases added with
    | linked fits mine list =>
      rw [next] at fits mine
      rw [place, ready.list] at list
      have nonzero : ((addCapiAppl cfg (prepared c a datablklen) a).appl a).id ≠ 0 := fun e => by
        rw [e] at mine; simp at mine; omega
      rw [if_neg nonzero] at result
      cases result
      refine .registered check rfl fits ?_ (bound.list.trans list) others ?_
      · exact (congrArg UInt16.toNat (bound.id a)).trans mine
      · exact congrArg (Function.update · a ApplPhase.registered) (bound.phase.trans (phase.trans ready.phase))
    | full beyond narrow mine list =>
      rw [if_pos mine] at result
      cases result
      exact .full check rfl (next ▸ beyond) (next ▸ narrow) (bound.list.trans (list.trans ready.list)) others
        (bound.phase.trans (phase.trans ready.phase))
    | wrapped wrap mine list =>
      rw [if_pos mine] at result
      cases result
      exact .wrapped check rfl (next ▸ wrap) (by rw [bound.list, list, ready.list])

end Register

/-! ## Runs -/

/-- The numbers are in order, and exactly the registered applications are listed. -/
structure Listed (cfg : Config) (c : Core) : Prop where
  numbered : Numbered cfg c
  phase : ∀ a, a ∈ c.capiApplsList ↔ c.applPhase a = .registered

theorem Numbered.nodup {cfg : Config} {c : Core} (h : Numbered cfg c) : c.capiApplsList.Nodup :=
  (List.pairwise_map.1 h.1).imp fun lt e => by rw [e] at lt; exact Nat.lt_irrefl _ lt

theorem Listed.unlisted {cfg : Config} {c : Core} {a : Nat} (l : Listed cfg c) (fresh : c.applPhase a = .fresh) :
    a ∉ c.capiApplsList := by
  intro listed
  cases fresh.symm.trans ((l.phase a).1 listed)

theorem SameAppls.listed {cfg : Config} {c c' : Core} (h : SameAppls c c') (l : Listed cfg c) : Listed cfg c' := by
  refine ⟨?_, ?_⟩
  · unfold Numbered
    rw [h.ids]
    exact l.numbered
  · rw [h.list, h.phase]
    exact l.phase

theorem listed_init (cfg : Config) : Listed cfg Core.init :=
  ⟨⟨List.Pairwise.nil, by simp [Core.ids, Core.init]⟩, by simp [Core.init]⟩

/-- A registration keeps the list in order. -/
theorem Registration.listed {cfg : Config} {c c' : Core} {a : Nat} {datablklen : UInt32} {r : Capinfo0x10}
    (h : Registration cfg c a datablklen r c') (l : Listed cfg c) (fresh : c.applPhase a = .fresh)
    (narrow : 128 ≤ datablklen → c.nextId ≠ 65536) : Listed cfg c' := by
  have new := l.unlisted fresh
  cases h with
  | small check result same => exact same.listed l
  | registered check result fits mine list others phase =>
    refine ⟨l.numbered.insert fits list new mine others, fun b => ?_⟩
    have old : b ∈ c.capiApplsList ↔ b ∈ c.capiApplsList.take c.position ∨ b ∈ c.capiApplsList.drop c.position := by
      rw [← List.mem_append, List.take_append_drop]
    rw [list, phase, List.mem_append, List.mem_cons]
    by_cases e : b = a
    · subst e; simp
    · rw [Function.update_of_ne e, ← l.phase b, old]
      simp [e]
  | full check result beyond narrow list others phase =>
    refine ⟨?_, ?_⟩
    · have ids : c'.ids = c.ids := by
        unfold Core.ids
        rw [list]
        exact List.map_congr_left fun b hb => by rw [others b fun e => new (e ▸ hb)]
      unfold Numbered
      rw [ids]
      exact l.numbered
    · rw [list, phase]
      exact l.phase
  | wrapped check result wrap list => exact absurd wrap (narrow check)

/-- A registration that succeeds lists the application. -/
theorem Registration.perm {cfg : Config} {c c' : Core} {a : Nat} {datablklen : UInt32} {r : Capinfo0x10}
    (h : Registration cfg c a datablklen r c') (ok : r = .NOERR) : c'.capiApplsList.Perm (a :: c.capiApplsList) := by
  cases h with
  | registered check result fits mine list others phase =>
    rw [list]
    refine List.perm_middle.trans ?_
    rw [List.take_append_drop]
  | small check result same => rw [ok] at result; cases result
  | full check result beyond narrow list others phase => rw [ok] at result; cases result
  | wrapped check result wrap list => rw [ok] at result; cases result

/-- `capi_release` takes the application off the list. -/
theorem capiRelease_listed {cfg : Config} {c c' : Core} {a : Nat} {info : Capinfo0x11} (l : Listed cfg c)
    (run : capiRelease cfg c a = some (info, c')) : Listed cfg c' := by
  simp only [capiRelease, Option.bind_eq_bind, Option.bind_eq_some_iff, Option.pure_def, Option.some.injEq,
    Prod.mk.injEq] at run
  obtain ⟨c1, loop, -, rfl⟩ := run
  have l1 := (capiReleaseLoop_same _ loop).listed l
  have sub : (c1.capiApplsList.erase a).Sublist c1.capiApplsList := List.erase_sublist
  refine ⟨⟨l1.numbered.1.sublist (sub.map _), fun n hn => l1.numbered.2 n ((sub.map _).subset hn)⟩, fun b => ?_⟩
  change b ∈ c1.capiApplsList.erase a ↔ Function.update c1.applPhase a .released b = .registered
  rw [l1.numbered.nodup.mem_erase_iff]
  by_cases e : b = a
  · subst e; simp
  · simp [e, l1.phase b]

/-- A registration that does not wrap meets the allocator's contract. -/
theorem Registration.meets {cfg : Config} {c c' : Core} {a : Nat} {datablklen : UInt32} {r : Capinfo0x10}
    (h : Registration cfg c a datablklen r c') (l : Listed cfg c) (narrow : 128 ≤ datablklen → c.nextId ≠ 65536) :
    (r ≠ .NOERR → c'.capiApplsList = c.capiApplsList) ∧
      (128 ≤ datablklen →
        (r = .TOOMANYAPPLS ↔ ∀ n, 1 ≤ n → n ≤ cfg.maxAppls → n ∈ c.ids) ∧
        ((∃ n, 1 ≤ n ∧ n ≤ cfg.maxAppls ∧ n ∉ c.ids) →
          r = .NOERR ∧ c'.capiApplsList.Perm (a :: c.capiApplsList) ∧
          IsLeast {n | 1 ≤ n ∧ n ∉ c.ids} (c'.appl a).id.toNat)) := by
  have full := l.numbered.full_iff
  have free : (∃ n, 1 ≤ n ∧ n ≤ cfg.maxAppls ∧ n ∉ c.ids) → ¬ cfg.maxAppls < c.nextId := by
    rintro ⟨n, one, top, unused⟩ beyond
    exact unused (full.2 beyond n one top)
  cases h with
  | small check result same =>
    exact ⟨fun _ => same.list, fun large => absurd check (UInt32.not_lt.2 large)⟩
  | registered check result fits mine list others phase =>
    refine ⟨fun failed => absurd result failed, fun _ => ⟨?_, fun _ => ⟨result, ?_, ?_⟩⟩⟩
    · rw [full, result]
      simp only [reduceCtorEq, false_iff]
      omega
    · rw [list]
      refine List.perm_middle.trans ?_
      rw [List.take_append_drop]
    · rw [mine]
      exact l.numbered.nextId_isLeast
  | full check result beyond narrow list others phase =>
    exact ⟨fun _ => list, fun _ => ⟨⟨fun _ => full.2 beyond, fun _ => result⟩, fun hole => absurd beyond (free hole)⟩⟩
  | wrapped check result wrap list => exact absurd wrap (narrow check)

section Steps

variable {cfg : Config} {c : Core}

/-- A step within range keeps the numbers. -/
theorem step_numbered {c' : Core} {l : Section} (listed : Listed cfg c) (allowed : Allowed c l)
    (range : InRange cfg c l) (run : step cfg c l = some c') : NumberMeets cfg c l c' ∧ Listed cfg c' := by
  by_cases register : ∃ a datablklen info, l = .applRegister a datablklen info
  · obtain ⟨a, datablklen, info, rfl⟩ := register
    simp only [step, Option.map_eq_some_iff] at run
    obtain ⟨⟨r, c1⟩, run, rfl⟩ := run
    have cases := capiRegister_cases listed.numbered run
    have narrow : 128 ≤ datablklen → c.nextId ≠ 65536 := fun check wrap =>
      listed.numbered.wrap_iff.1 wrap (range check)
    have after := cases.listed listed allowed narrow
    obtain ⟨failed, passed⟩ := cases.meets listed narrow
    exact ⟨⟨after.numbered, r, run, failed, passed⟩, after⟩
  · have others : ∀ a datablklen info, l ≠ .applRegister a datablklen info := fun a d i e => register ⟨a, d, i, e⟩
    have after : Listed cfg c' := by
      by_cases release : ∃ a, l = .applRelease a
      · obtain ⟨a, rfl⟩ := release
        simp only [step, Option.map_eq_some_iff] at run
        obtain ⟨⟨info, c1⟩, run, rfl⟩ := run
        exact capiRelease_listed listed run
      · exact (step_same run others fun a e => release ⟨a, e⟩).listed listed
    refine ⟨⟨after.numbered, ?_⟩, after⟩
    cases l with
    | applRegister a datablklen info => exact absurd rfl (others a datablklen info)
    | _ => trivial

/-- The step out of range links an application that it reports as refused. -/
theorem step_wrapped {l : Section} (listed : Listed cfg c) (wide : ¬ InRange cfg c l) :
    ∃ c', step cfg c l = some c' ∧ ¬ NumberMeets cfg c l c' := by
  cases l with
  | applRegister a datablklen info =>
    obtain ⟨check, wide⟩ := Classical.not_imp.1 wide
    have wrap := listed.numbered.wrap_iff.2 wide
    have ready := prepared_same c a datablklen
    have numbered : Numbered cfg (prepared c a datablklen) := by
      unfold Numbered
      rw [ready.ids]
      exact listed.numbered
    have next : (prepared c a datablklen).nextId = c.nextId := by unfold Core.nextId; rw [ready.ids]
    cases addCapiAppl_cases numbered a with
    | linked fits _ _ =>
      have := cfg.appls_range.2
      omega
    | full _ narrow _ _ => omega
    | wrapped _ mine list =>
      have large : ¬ datablklen < 128 := UInt32.not_lt.2 check
      have run : capiRegister cfg c a datablklen info =
          some (.TOOMANYAPPLS, addCapiAppl cfg (prepared c a datablklen) a) := by
        rw [capiRegister_eq, if_neg large, bindCapiAppl_zero info mine]
        rfl
      refine ⟨_, by rw [step, run]; rfl, ?_⟩
      rintro ⟨-, r, run', failed, -⟩
      rw [run] at run'
      obtain ⟨rfl, -⟩ := Prod.mk.inj (Option.some.inj run')
      have kept := congrArg List.length (failed (by decide))
      rw [list, ready.list] at kept
      omega
  | _ => exact absurd trivial wide

/-- Every step numbers as it should exactly when every registration is in range. -/
theorem each_numbered_iff {ls : List Section} (listed : Listed cfg c) (allowed : Meets (step cfg) Allowed c ls) :
    Each (step cfg) (NumberMeets cfg) c ls ↔ Meets (step cfg) (InRange cfg) c ls := by
  refine each_iff_meets (Listed cfg) ?_ ?_ listed allowed
  · intro s l s' inv ok range run
    exact step_numbered inv ok range run
  · intro s l inv _ wide
    exact step_wrapped inv wide

end Steps

/-- In a run the allocator meets its contract at every step exactly when no
registration that passes the parameter checks finds 65535 applications under a
limit of 65535. -/
theorem numbers_allocated_iff (cfg : Config) (ls : List Section) (allowed : Meets (step cfg) Allowed Core.init ls) :
    Each (step cfg) (NumberMeets cfg) Core.init ls ↔ Meets (step cfg) (InRange cfg) Core.init ls :=
  each_numbered_iff (listed_init cfg) allowed

/-- Three registrations, then a release and a fourth registration. -/
def comingAndGoing : List Section :=
  [.applRegister 0 2048 (fun _ => .NOERR), .applRegister 1 2048 (fun _ => .NOERR),
    .applRegister 2 2048 (fun _ => .NOERR), .applRelease 1, .applRegister 3 2048 (fun _ => .NOERR)]

theorem comingAndGoing_allowed :
    Meets (step ⟨4, 64, by decide, by decide⟩) Allowed Core.init comingAndGoing := by
  refine ⟨rfl, fun _ h => ?_⟩
  cases h
  refine ⟨rfl, fun _ h => ?_⟩
  cases h
  refine ⟨rfl, fun _ h => ?_⟩
  cases h
  refine ⟨⟨rfl, fun _ member => (List.not_mem_nil member).elim⟩, fun _ h => ?_⟩
  cases h
  exact ⟨rfl, fun _ _ => trivial⟩

/-- The fourth application gets the number that the second had. -/
theorem numbers_allocated_reused :
    (∃ c, exec (step ⟨4, 64, by decide, by decide⟩) Core.init comingAndGoing = some c ∧
      c.capiApplsList = [0, 3, 2] ∧ c.capiApplsList.map (fun a => (c.appl a).id) = [1, 2, 3]) ∧
    Each (step ⟨4, 64, by decide, by decide⟩) (NumberMeets ⟨4, 64, by decide, by decide⟩) Core.init comingAndGoing := by
  refine ⟨⟨_, rfl, rfl, rfl⟩, (numbers_allocated_iff _ _ comingAndGoing_allowed).2 ?_⟩
  exact ⟨fun _ => .inl (by decide), fun _ _ => ⟨fun _ => .inl (by decide), fun _ _ => ⟨fun _ => .inl (by decide),
    fun _ _ => ⟨trivial, fun _ _ => ⟨fun _ => .inl (by decide), fun _ _ => trivial⟩⟩⟩⟩⟩

/-! ## The last number -/

/-- Registrations of `n, n + 1, …`, with no device around. -/
def registerMany (n k : Nat) : List Section :=
  (List.range' n k).map fun a => .applRegister a 128 fun _ => .NOERR

/-- Without devices a registration always comes to an end. -/
theorem capiRegister_idle (cfg : Config) {c : Core} (idle : c.capiDevsList = []) (a : Nat) (datablklen : UInt32)
    (info : Nat → Capinfo0x10) :
    ∃ r c', capiRegister cfg c a datablklen info = some (r, c') ∧ c'.capiDevsList = [] := by
  rw [capiRegister_eq]
  split
  · exact ⟨_, _, rfl, idle⟩
  · have alone : (addCapiAppl cfg (prepared c a datablklen) a).capiDevsList = [] := by
      simp only [addCapiAppl]
      split
      · exact idle
      · exact idle
    have bind : ∃ id, bindCapiAppl cfg (prepared c a datablklen) a info =
        some (id, addCapiAppl cfg (prepared c a datablklen) a) := by
      unfold bindCapiAppl
      generalize addCapiAppl cfg (prepared c a datablklen) a = c1 at alone ⊢
      simp only [alone, List.foldlM_nil]
      split
      · exact ⟨_, rfl⟩
      · exact ⟨_, rfl⟩
    obtain ⟨id, bind⟩ := bind
    rw [bind, Option.map_some]
    dsimp only
    split
    · exact ⟨_, _, rfl, alone⟩
    · exact ⟨_, _, rfl, alone⟩

/-- From `n` registered applications, registering up to the 65536th is allowed
and leaves the range. -/
theorem registerMany_wraps (cfg : Config) (top : cfg.maxAppls = 65535) (k : Nat) : ∀ {n : Nat} {c : Core},
    n + k = 65536 → Listed cfg c → c.capiApplsList.length = n → (∀ a, n ≤ a → c.applPhase a = .fresh) →
    c.capiDevsList = [] →
    Meets (step cfg) Allowed c (registerMany n k) ∧ ¬ Meets (step cfg) (InRange cfg) c (registerMany n k) := by
  induction k with
  | zero =>
    intro n c total listed count _ _
    have := listed.numbered.length_le
    omega
  | succ k ih =>
    intro n c total listed count fresh idle
    have run : registerMany n (k + 1) = .applRegister n 128 (fun _ => .NOERR) :: registerMany (n + 1) k := by
      rw [registerMany, List.range'_succ]
      rfl
    rw [run]
    by_cases last : n = 65535
    · obtain rfl : k = 0 := by omega
      refine ⟨⟨fresh n (Nat.le_refl n), fun _ _ => trivial⟩, fun range => ?_⟩
      have := range.1 (by decide)
      omega
    · have narrow : c.nextId ≠ 65536 := fun wrap => by
        have := listed.numbered.wrap_iff.1 wrap
        omega
      have next : ∀ r c', capiRegister cfg c n 128 (fun _ => .NOERR) = some (r, c') →
          Listed cfg c' ∧ c'.capiApplsList.length = n + 1 ∧ ∀ a, n + 1 ≤ a → c'.applPhase a = .fresh := by
        intro r c' done
        have cases := capiRegister_cases listed.numbered done
        refine ⟨cases.listed listed (fresh n (Nat.le_refl n)) fun _ => narrow, ?_⟩
        have limit := listed.numbered.nextId_le
        cases cases with
        | small check _ _ => exact absurd check (by decide)
        | registered _ _ _ _ list _ phase =>
          have pos := Numbered.position_le c
          refine ⟨?_, fun a ha => ?_⟩
          · rw [list]
            simp only [List.length_append, List.length_take, List.length_cons, List.length_drop]
            omega
          · rw [phase, Function.update_of_ne (by omega)]
            exact fresh a (by omega)
        | full _ _ beyond below _ _ _ => omega
        | wrapped _ _ wrap _ => exact absurd wrap narrow
      obtain ⟨r, c', done, idle'⟩ := capiRegister_idle cfg idle n 128 fun _ => .NOERR
      have step' : step cfg c (.applRegister n 128 fun _ => .NOERR) = some c' := by rw [step, done]; rfl
      obtain ⟨listed', count', fresh'⟩ := next r c' done
      obtain ⟨allowed, wide⟩ := ih (by omega) listed' count' fresh' idle'
      refine ⟨⟨fresh n (Nat.le_refl n), fun t ht => ?_⟩, fun range => wide (range.2 c' step')⟩
      rw [step'] at ht
      cases ht
      exact allowed

/-- With the limit at 65535, the 65536th registration is allowed and breaks the contract. -/
theorem numbers_wrap :
    Meets (step ⟨4, 65535, by decide, by decide⟩) Allowed Core.init (registerMany 0 65536) ∧
      ¬ Each (step ⟨4, 65535, by decide, by decide⟩) (NumberMeets ⟨4, 65535, by decide, by decide⟩) Core.init
        (registerMany 0 65536) := by
  obtain ⟨allowed, wide⟩ := registerMany_wraps ⟨4, 65535, by decide, by decide⟩ rfl 65536 (n := 0) rfl
    (listed_init _) rfl (fun _ _ => rfl) rfl
  exact ⟨allowed, fun each => wide ((each_numbered_iff (listed_init _) allowed).1 each)⟩

end Capi4Linux.Capicore
