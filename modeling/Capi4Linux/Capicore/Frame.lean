import Capi4Linux.Capicore.Callbacks

/-!
# What a section leaves alone

Each section is made for one application, or for a device. Number, error, life
cycle and messages of all other applications stay.
-/

namespace Capi4Linux.Capicore
open Capi4Linux.Capicore.Core Machine

/-- The application whose structure a section is for. -/
def Section.appl : Section → Option Nat
  | .applRegister a _ _ | .applRelease a | .applSignalError a _ => some a
  | _ => none

/-- The application that a section puts a message for. -/
def Section.sender : Section → Option Nat
  | .putLookup a _ => some a
  | .putEnter p | .putLeave p _ => some p.appl
  | _ => none

/-- The structures of applications other than `own` stay, those other than `sender` send nothing, and no call is
forgotten. -/
structure Elsewhere (own sender : Option Nat) (c c' : Core) : Prop where
  id : ∀ a, own ≠ some a → (c'.appl a).id = (c.appl a).id
  info : ∀ a, own ≠ some a → (c'.appl a).info = (c.appl a).info
  phase : ∀ a, own ≠ some a → c'.applPhase a = c.applPhase a
  puts : ∀ p ∈ c'.puts, sender ≠ some p.appl → p ∈ c.puts
  calls : ∀ d a msg, sender ≠ some a → .capiPutMessage d a msg ∈ c'.calls → .capiPutMessage d a msg ∈ c.calls
  kept : ∀ e ∈ c.calls, e ∈ c'.calls

section Frames

variable {cfg : Config} {c c' : Core} {own sender : Option Nat}

/-- Only devices are touched. -/
theorem Elsewhere.of_same (appl : c'.appl = c.appl) (phase : c'.applPhase = c.applPhase) (puts : c'.puts = c.puts)
    (calls : c'.calls = c.calls) : Elsewhere own sender c c' where
  id a _ := by rw [appl]
  info a _ := by rw [appl]
  phase a _ := by rw [phase]
  puts p mem _ := puts ▸ mem
  calls d a msg _ mem := calls ▸ mem
  kept e mem := calls ▸ mem

/-- The drivers are asked, but not for a message. -/
theorem Elsewhere.of_calls (cs : List DrvCall) (id : ∀ a, own ≠ some a → (c'.appl a).id = (c.appl a).id)
    (info : ∀ a, own ≠ some a → (c'.appl a).info = (c.appl a).info) (phase : ∀ a, own ≠ some a → c'.applPhase a = c.applPhase a)
    (puts : c'.puts = c.puts) (calls : c'.calls = c.calls ++ cs) (silent : ∀ d a msg, .capiPutMessage d a msg ∉ cs) :
    Elsewhere own sender c c' where
  id := id
  info := info
  phase := phase
  puts p mem _ := puts ▸ mem
  calls d a msg _ mem := by
    rw [calls] at mem
    exact (List.mem_append.1 mem).resolve_right (silent d a msg)
  kept e mem := by
    rw [calls]
    exact List.mem_append_left cs mem

/-- The application itself is touched. -/
theorem Elsewhere.of_own {a : Nat} (appl : ∀ b ≠ a, c'.appl b = c.appl b) (phase : c'.applPhase = c.applPhase)
    (puts : c'.puts = c.puts) (calls : c'.calls = c.calls) : Elsewhere (some a) sender c c' where
  id b other := by rw [appl b fun e => other (e ▸ rfl)]
  info b other := by rw [appl b fun e => other (e ▸ rfl)]
  phase b _ := by rw [phase]
  puts p mem _ := puts ▸ mem
  calls d b msg _ mem := calls ▸ mem
  kept e mem := calls ▸ mem

/-- The messages under way change as `puts` says. -/
theorem Elsewhere.of_puts {p : Put} (cs : List DrvCall) (appl : c'.appl = c.appl) (phase : c'.applPhase = c.applPhase)
    (puts : ∀ q ∈ c'.puts, q.appl ≠ p.appl → q ∈ c.puts) (calls : c'.calls = c.calls ++ cs)
    (mine : ∀ d a msg, .capiPutMessage d a msg ∈ cs → a = p.appl) : Elsewhere own (some p.appl) c c' where
  id a _ := by rw [appl]
  info a _ := by rw [appl]
  phase a _ := by rw [phase]
  puts q mem other := puts q mem fun e => other (e ▸ rfl)
  calls d a msg other mem := by
    rw [calls] at mem
    exact (List.mem_append.1 mem).resolve_right fun new => other (mine d a msg new ▸ rfl)
  kept e mem := by
    rw [calls]
    exact List.mem_append_left cs mem

/-- A call of `capi_put_message` has ended. -/
theorem Elsewhere.of_taken {p : Put} (appl : c'.appl = c.appl) (phase : c'.applPhase = c.applPhase)
    (puts : c'.puts = c.puts.erase p) (calls : c'.calls = c.calls) : Elsewhere own (some p.appl) c c' := by
  refine .of_puts [] appl phase (fun q mem _ => ?_) (calls.trans (List.append_nil _).symm) fun _ _ _ new => ?_
  · rw [puts] at mem
    exact List.mem_of_mem_erase mem
  · cases new

/-- A message that is under way: who sends it, and what the check of it has found. -/
structure LookedUp (cfg : Config) (c : Core) (a : Nat) (msg : List UInt8) (p : Put) : Prop where
  put : ∃ d, p = ⟨a, d, msg, false⟩
  long : 12 ≤ msg.length
  clean : (c.appl a).info = .NOERR

theorem capiPutMessageLookup_found {a : Nat} {msg : List UInt8} {p : Put}
    (found : capiPutMessageLookup cfg c a (some msg) = some (.inr p)) : LookedUp cfg c a msg p := by
  simp only [capiPutMessageLookup] at found
  split at found
  · cases found
  rename_i clean
  split at found
  · cases found
  rename_i long
  split at found
  · cases found
  obtain ⟨d, -, same⟩ := Option.bind_eq_some_iff.1 found
  cases same
  exact ⟨⟨d, rfl⟩, by omega, not_not.1 clean⟩

theorem Registry.release_elsewhere (h : Registry cfg c) {a : Nat} (allowed : Allowed c (.applRelease a))
    (run : Capicore.step cfg c (.applRelease a) = some c') : Elsewhere (some a) none c c' := by
  obtain ⟨r, c1, run', released, -⟩ := h.applRelease allowed.1 allowed.2
  rw [Capicore.step, run'] at run
  cases run
  obtain ⟨table, device, calls, frame, -, mem⟩ := released.frame
  refine .of_calls calls (fun b _ => ?_) (fun b _ => ?_) (fun b other => ?_) ?_ ?_ fun d b msg new => ?_
  · rw [frame]
    rfl
  · rw [frame]
    rfl
  · rw [frame]
    exact Function.update_of_ne (fun e : b = a => other (e ▸ rfl)) _ _
  · rw [frame]
    rfl
  · rw [frame]
    rfl
  · obtain ⟨_, _, eq, -⟩ := (mem _).1 new
    cases eq

theorem Registry.register_elsewhere (h : Registry cfg c) {a : Nat} {datablklen : UInt32} {info : Nat → Capinfo0x10}
    (allowed : Allowed c (.applRegister a datablklen info)) (narrow : InRange cfg c (.applRegister a datablklen info))
    (run : Capicore.step cfg c (.applRegister a datablklen info) = some c') :
    Elsewhere (some a) none c c' := by
  obtain ⟨r, c2, run', -, joined, refused⟩ := h.applRegister allowed datablklen info narrow
  rw [Capicore.step, run'] at run
  cases run
  by_cases ok : r = .NOERR
  · obtain ⟨⟨list, appl, device, frame⟩, others, -, -⟩ := (joined ok).1
    refine .of_calls _ (fun b other => ?_) (fun b other => ?_) (fun b other => ?_) (by rw [frame]) (by rw [frame]) ?_
    · rw [others b fun e => other (e ▸ rfl)]
    · rw [others b fun e => other (e ▸ rfl)]
    · rw [frame]
      exact Function.update_of_ne (fun e : b = a => other (e ▸ rfl)) _ _
    · intro d b msg new
      obtain ⟨_, -, eq⟩ := List.mem_map.1 new
      cases eq
  · obtain ⟨⟨appl, frame⟩, others⟩ := refused ok
    exact .of_own others (by rw [frame]) (by rw [frame]) (by rw [frame])

/-- What a section does to the applications it is not made for. -/
theorem step_elsewhere (h : Registry cfg c) {l : Section} (allowed : Allowed c l) (narrow : InRange cfg c l)
    (run : step cfg c l = some c') : Elsewhere l.appl l.sender c c' := by
  cases l with
  | deviceAlloc mem =>
    cases run
    cases mem with
    | false => exact .of_same rfl rfl rfl rfl
    | true => exact .of_same rfl rfl rfl rfl
  | deviceRegister d info =>
    have shape := h.shaped d
    rw [show c.devPhase d = .alloced from allowed] at shape
    obtain ⟨dev, live, -⟩ := shape
    rw [step, capiDeviceRegister_eq live] at run
    split at run
    · cases run
      exact .of_same rfl rfl rfl rfl
    · cases run
      refine .of_calls _ (fun a _ => ?_) (fun a _ => ?_) (fun _ _ => rfl) rfl rfl fun e a msg new => ?_
      · dsimp only
        split <;> rfl
      · dsimp only
        split <;> rfl
      · obtain ⟨_, -, eq⟩ := List.mem_map.1 new
        cases eq
  | deviceRegisterSysfs d res =>
    cases run
    unfold capiDeviceRegisterSysfs
    split
    · exact .of_same rfl rfl rfl rfl
    · exact .of_same rfl rfl rfl rfl
  | deviceUnlink d =>
    obtain ⟨dev, live⟩ : ∃ dev, c.device d = some dev := h.live (by rcases allowed with on | on <;> rw [on] <;> rfl)
    rw [step, unlinkCapiDevice_eq live] at run
    cases run
    exact .of_same rfl rfl rfl rfl
  | deviceDrain d =>
    obtain ⟨dev, live⟩ : ∃ dev, c.device d = some dev := h.live (by obtain ⟨⟨err, on⟩, -⟩ := allowed; rw [on]; rfl)
    rw [step, drainCapiDevice_eq live] at run
    cases run
    exact .of_same rfl rfl rfl rfl
  | devicePut d =>
    obtain ⟨dev, live⟩ : ∃ dev, c.device d = some dev :=
      h.live (by rcases allowed with on | ⟨err, on⟩ <;> rw [on] <;> rfl)
    rw [step, capiDevicePut_eq live] at run
    cases run
    exact .of_same rfl rfl rfl rfl
  | applRegister a datablklen info => exact h.register_elsewhere allowed narrow run
  | applRelease a => exact h.release_elsewhere allowed run
  | applSignalError a info =>
    cases run
    unfold capiApplSignalError
    dsimp only
    split
    · exact .of_own (fun b other => Function.update_of_ne other _ _) rfl rfl rfl
    · exact .of_own (fun _ _ => rfl) rfl rfl rfl
  | putLookup a msg =>
    obtain ⟨r, found, rfl⟩ := Option.map_eq_some_iff.1 run
    cases r with
    | inl info => exact .of_same rfl rfl rfl rfl
    | inr p =>
      have mine : p.appl = a := by
        cases msg with
        | none =>
          simp only [capiPutMessageLookup] at found
          split at found <;> cases found
        | some msg =>
          obtain ⟨d, rfl⟩ := (capiPutMessageLookup_found found).put
          rfl
      rw [Section.sender, ← mine]
      refine .of_puts [] rfl rfl (fun q mem other => ?_) (List.append_nil _).symm fun _ _ _ new => ?_
      · exact (List.mem_cons.1 mem).resolve_left fun e => other (e ▸ rfl)
      · cases new
  | putEnter p =>
    obtain ⟨dev, live, -, -⟩ := h.underway_live (h.puts p allowed.1)
    rw [step, capiPutMessageEnter_eq live] at run
    split at run
    · cases run
      exact .of_taken rfl rfl rfl rfl
    · cases run
      refine .of_puts [.capiPutMessage p.dev p.appl p.msg] rfl rfl (fun q mem other => ?_) rfl fun d a msg new => ?_
      · exact List.mem_of_mem_erase ((List.mem_cons.1 mem).resolve_left fun e => other (e ▸ rfl))
      · cases List.mem_singleton.1 new
        rfl
  | putLeave p info =>
    obtain ⟨dev, live, -, -⟩ := h.underway_live (h.puts p allowed.1)
    rw [step, capiPutMessageLeave_eq live] at run
    cases run
    exact .of_taken rfl rfl rfl rfl

/-- How `capi_register` comes out. -/
structure Registers (c : Core) (a : Nat) (r : Capinfo0x10) (c' : Core) : Prop where
  accepted : r = .NOERR → c'.applPhase a = .registered ∧ (c'.appl a).id ≠ 0 ∧ (c'.appl a).info = .NOERR
  refused : r ≠ .NOERR → c'.applPhase = c.applPhase

theorem registerCapiAppl_info {a d : Nat} {info : Capinfo0x10} (run : registerCapiAppl c a d info = some c') (b : Nat) :
    (c'.appl b).info = (c.appl b).info := by
  obtain ⟨dev, live, -⟩ := Option.bind_eq_some_iff.1 run
  rw [registerCapiAppl_eq live] at run
  cases run
  dsimp only
  split
  · by_cases mine : b = a
    · subst mine
      rw [Function.update_self]
      rfl
    · rw [Function.update_of_ne mine]
  · rfl

/-- A new application has no error. -/
theorem capiRegister_info {a : Nat} {datablklen : UInt32} {info : Nat → Capinfo0x10}
    (run : capiRegister cfg c a datablklen info = some (.NOERR, c')) : (c'.appl a).info = .NOERR := by
  rw [capiRegister_eq] at run
  split at run
  · cases run
  obtain ⟨⟨id, c1⟩, bind, result⟩ := Option.map_eq_some_iff.1 run
  have added : ((addCapiAppl cfg (prepared c a datablklen) a).appl a).info = .NOERR := by
    unfold addCapiAppl prepared
    dsimp only
    split <;> simp [setAppl]
  have same : (c1.appl a).info = .NOERR := by
    unfold bindCapiAppl at bind
    simp only [Option.bind_eq_bind, Option.pure_def] at bind
    split at bind
    · obtain ⟨c2, fold, same⟩ := Option.bind_eq_some_iff.1 bind
      cases same
      have keep : ∀ b, (c1.appl b).info = ((addCapiAppl cfg (prepared c a datablklen) a).appl b).info :=
        foldlM_rel (R := fun c c' : Core => ∀ b, (c'.appl b).info = (c.appl b).info) (fun _ _ => rfl)
          (fun _ _ _ first rest b => (rest b).trans (first b)) (fun _ _ _ => registerCapiAppl_info) fold
      rw [keep, added]
    · cases bind
      exact added
  dsimp only at result
  by_cases none : id = 0
  · rw [if_pos none] at result
    cases result
  · rw [if_neg none] at result
    cases result
    exact same

theorem Registry.registers (h : Registry cfg c) {a : Nat} {datablklen : UInt32} {info : Nat → Capinfo0x10}
    (allowed : Allowed c (.applRegister a datablklen info)) (narrow : InRange cfg c (.applRegister a datablklen info)) :
    ∃ r c', capiRegister cfg c a datablklen info = some (r, c') ∧ Registers c a r c' := by
  obtain ⟨r, c', run, -, -, refused⟩ := h.applRegister allowed datablklen info narrow
  refine ⟨r, c', run, fun ok => ?_, fun bad => ?_⟩
  · subst ok
    refine ⟨?_, ?_, capiRegister_info run⟩
    · cases capiRegister_cases h.listed.numbered run with
      | small _ result => cases result
      | registered _ _ _ _ _ _ phase =>
        rw [phase]
        exact Function.update_self _ _ _
      | full _ result => cases result
      | wrapped _ result => cases result
    · cases capiRegister_cases h.listed.numbered run with
      | small _ result => cases result
      | registered _ _ _ mine =>
        intro zero
        have pos := h.listed.numbered.nextId_isLeast.1.1
        rw [zero] at mine
        change 0 = c.nextId at mine
        omega
      | full _ result => cases result
      | wrapped _ result => cases result
  · obtain ⟨⟨appl, frame⟩, -⟩ := refused bad
    rw [frame]

end Frames

end Capi4Linux.Capicore
