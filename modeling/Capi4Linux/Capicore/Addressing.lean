import Capi4Linux.Capicore.Callbacks

/-!
# Addresses of devices

`add_capi_device` hands out the numbers 1 to `CAPI_MAX_DEVS`, a message carries
seven bits of one. Up to 127 a device gets exactly the messages that name it.
-/

namespace Capi4Linux.Capicore
open Capi4Linux.Capicore.Core Machine

/-- `capi_put_message` with nothing in between: an error, or the driver operation has begun. -/
def capiPutMessage (cfg : Config) (c : Core) (a : Nat) (msg : Option (List UInt8)) :
    Option (Option Capinfo0x11 × Core) := do
  match ← capiPutMessageLookup cfg c a msg with
  | .inl info => return (some info, c)
  | .inr p => capiPutMessageEnter { c with puts := p :: c.puts } p

/-- The address byte of a message. -/
def addressByte (msg : List UInt8) : Nat := (msg.getD 8 0).toNat

/-- A message of application `a` that names device `d` is passed to its driver and to no other, and a message that
names no device that accepted the application is refused. -/
structure Addressed (cfg : Config) (c : Core) (a d id : Nat) : Prop where
  delivered : ∀ msg : List UInt8, 12 ≤ msg.length → addressByte msg = id →
    ∃ c', capiPutMessage cfg c a (some msg) = some (none, c') ∧ c'.calls = c.calls ++ [.capiPutMessage d a msg]
  refused : ∀ msg : List UInt8, 12 ≤ msg.length → addressByte msg < 128 →
    (∀ e dev, c.device e = some dev → dev.id = addressByte msg → ¬ Accepted c e a) →
    capiPutMessage cfg c a (some msg) = some (some .OSRESERR, c)

section Messages

variable {cfg : Config} {c : Core} {a : Nat} {msg : List UInt8}

theorem capimsgController_eq (msg : List UInt8) : capimsgController msg = addressByte msg % 128 := by
  unfold capimsgController addressByte
  rw [UInt8.toNat_and]
  exact Nat.and_two_pow_sub_one_eq_mod _ 7

/-- Without the bit of its address a message is refused. -/
theorem capiPutMessage_refused (quiet : (c.appl a).info = .NOERR) (long : 12 ≤ msg.length)
    (clear : capimsgController msg ≠ 0 → (c.appl a).devs (capimsgController msg - 1) = false) :
    capiPutMessage cfg c a (some msg) = some (some .OSRESERR, c) := by
  have lookup : capiPutMessageLookup cfg c a (some msg) = some (.inl .OSRESERR) := by
    unfold capiPutMessageLookup
    dsimp only
    rw [if_neg (not_not_intro quiet), if_neg (by omega), if_pos]
    intro open'
    obtain ⟨nz, -, bit⟩ := open'
    rw [clear nz] at bit
    cases bit
  simp only [capiPutMessage, lookup, Option.bind_eq_bind, Option.bind_some]
  rfl

/-- With it the device of the slot gets the message, unless a writer holds its semaphore. -/
theorem capiPutMessage_delivered (h : Registry cfg c) {d : Nat} {dev : CapiDevice} (quiet : (c.appl a).info = .NOERR)
    (long : 12 ≤ msg.length) (live : c.device d = some dev) (numbered : dev.id ≠ 0)
    (address : capimsgController msg = dev.id) (bit : (c.appl a).devs (dev.id - 1) = true)
    (unlocked : dev.sem.writer = false) :
    ∃ c', capiPutMessage cfg c a (some msg) = some (none, c') ∧ c'.calls = c.calls ++ [.capiPutMessage d a msg] := by
  have bound := h.number d dev live
  have slot : c.capiDevsTable (dev.id - 1) = some d := (h.slots _ d).2 ⟨dev, live, by omega⟩
  have lookup : capiPutMessageLookup cfg c a (some msg) = some (.inr ⟨a, d, msg, false⟩) := by
    unfold capiPutMessageLookup
    dsimp only
    rw [address, if_neg (not_not_intro quiet), if_neg (by omega),
      if_neg (not_not_intro (⟨numbered, bound, bit⟩ : dev.id ≠ 0 ∧ dev.id ≤ cfg.maxDevs ∧ _)), slot]
    rfl
  have entered := @capiPutMessageEnter_eq { c with puts := ⟨a, d, msg, false⟩ :: c.puts } dev ⟨a, d, msg, false⟩ live
  rw [unlocked] at entered
  simp only [capiPutMessage, lookup, Option.bind_eq_bind, Option.bind_some]
  exact ⟨_, entered, rfl⟩

/-- The driver that gets a message is the one in the slot of its address. -/
theorem capiPutMessage_slot (h : Registry cfg c) {d : Nat} {c' : Core}
    (put : capiPutMessage cfg c a (some msg) = some (none, c'))
    (calls : c'.calls = c.calls ++ [.capiPutMessage d a msg]) :
    ∃ dev, c.device d = some dev ∧ dev.id = capimsgController msg := by
  simp only [capiPutMessage, Option.bind_eq_bind, Option.bind_eq_some_iff] at put
  obtain ⟨r, lookup, put⟩ := put
  cases r with
  | inl info => cases put
  | inr p =>
    unfold capiPutMessageLookup at lookup
    dsimp only at lookup
    split at lookup
    · cases lookup
    split at lookup
    · cases lookup
    split at lookup
    · cases lookup
    rename_i addressed
    obtain ⟨nz, -, -⟩ := not_not.1 addressed
    simp only [Option.bind_eq_bind, Option.bind_eq_some_iff] at lookup
    obtain ⟨e, slot, made⟩ := lookup
    cases made
    obtain ⟨dev, live, id⟩ := (h.slots _ e).1 slot
    dsimp only at put
    rw [@capiPutMessageEnter_eq _ dev _ live] at put
    split at put
    · cases put
    · cases put
      have last := List.append_cancel_left calls
      simp only [List.cons.injEq, DrvCall.capiPutMessage.injEq, and_true] at last
      rw [← last]
      exact ⟨dev, live, by omega⟩

/-- Seven bits are enough for the numbers below 128 and for no others. -/
theorem addressed_iff (h : Registry cfg c) (t : Traced c) {d : Nat} {dev : CapiDevice} (live : c.device d = some dev)
    (numbered : dev.id ≠ 0) (registered : c.applPhase a = .registered) (accepted : Accepted c d a)
    (quiet : (c.appl a).info = .NOERR) (unlocked : dev.sem.writer = false) :
    Addressed cfg c a d dev.id ↔ dev.id < 128 := by
  have member := (h.listed.phase a).2 registered
  have bit := (t.accepted a member d dev live numbered).2 accepted
  constructor
  · intro good
    have bound := h.number d dev live
    have range := cfg.devs_range.2
    let msg : List UInt8 := List.replicate 12 (UInt8.ofNat dev.id)
    have byte : addressByte msg = dev.id := by
      show (UInt8.ofNat dev.id).toNat = dev.id
      rw [UInt8.toNat_ofNat']
      omega
    obtain ⟨c', put, calls⟩ := good.delivered msg (by simp [msg]) byte
    obtain ⟨dev', live', id⟩ := capiPutMessage_slot h put calls
    rw [live] at live'
    cases live'
    rw [capimsgController_eq, byte] at id
    omega
  · intro small
    constructor
    · intro msg long byte
      apply capiPutMessage_delivered h quiet long live numbered ?_ bit unlocked
      rw [capimsgController_eq, byte]
      omega
    · intro msg long narrow unnamed
      apply capiPutMessage_refused quiet long
      intro nz
      have address : capimsgController msg = addressByte msg := by
        rw [capimsgController_eq]
        omega
      rw [← Bool.not_eq_true]
      intro set
      obtain ⟨e, slot⟩ := Option.isSome_iff_exists.1 (h.bits a member _ set)
      obtain ⟨dev', live', id⟩ := (h.slots _ e).1 slot
      have id' : dev'.id = capimsgController msg := by omega
      apply unnamed e dev' live' (id'.trans address)
      apply (t.accepted a member e dev' live' (by omega)).1
      rw [id']
      exact set

end Messages

/-! ## Runs -/

/-- In every state of every run, a device and an application it accepted find each other exactly when the device has
a number below 128. -/
theorem devices_addressable_iff {cfg : Config} {ls : List Section}
    (allowed : Meets (step cfg) (fun c l => Allowed c l ∧ InRange cfg c l) Core.init ls) :
    (∃ c, exec (step cfg) Core.init ls = some c) ∧ Always (step cfg) (fun c => ∀ d dev a, c.device d = some dev →
      dev.id ≠ 0 → c.applPhase a = .registered → Accepted c d a → (c.appl a).info = .NOERR →
      dev.sem.writer = false → (Addressed cfg c a d dev.id ↔ dev.id < 128)) Core.init ls := by
  obtain ⟨run, always, -⟩ := run_good (registry_init cfg) traced_init allowed
  constructor
  · exact run
  · apply always.mono
    intro c good d dev a live numbered registered accepted quiet unlocked
    exact addressed_iff good.1 good.2 live numbered registered accepted quiet unlocked

/-! ## A full table -/

/-- The largest table. -/
def largest : Config := ⟨255, 64, by decide, by decide⟩

/-- The next device comes, and its driver accepts everybody. -/
def arrival (n : Nat) : List Section :=
  [.deviceAlloc true, .deviceRegister n (fun _ => .NOERR), .deviceRegisterSysfs n 0]

def arrivals (n : Nat) : List Section := (List.range n).flatMap arrival

/-- The capicore with `n` devices and no application. -/
def crowd (n : Nat) : Core where
  capiDevsTable := fun i => if i < n then some i else none
  capiApplsList := []
  capiDevsList := List.range n
  nrCapiDevs := n
  device := fun d => if d < n then some ⟨d + 1, ⟨false, 0⟩, 1, .linked⟩ else none
  appl := fun _ => ⟨0, .NOERR, fun _ => false, 0⟩
  allocated := n
  devPhase := fun d => if d < n then .registered else .absent
  applPhase := fun _ => .fresh
  puts := []
  calls := []

theorem crowd_zero : crowd 0 = Core.init := by
  simp [crowd, Core.init]

/-- The search passes the slots in use. -/
theorem addCapiDeviceLoop_crowd {n : Nat} (k : Nat) : ∀ {i : Nat}, i ≤ n → n < i + k →
    addCapiDeviceLoop (crowd n).capiDevsTable k i = some n := by
  induction k with
  | zero => intro i le lt; omega
  | succ k ih =>
    intro i le lt
    unfold addCapiDeviceLoop
    rcases Nat.lt_or_eq_of_le le with used | free
    · rw [if_neg (by simp [crowd, used])]
      exact ih used (by omega)
    · rw [if_pos (by simp [crowd, free]), free]

theorem update_below {α : Type} (f : Nat → α) (g : α) (n : Nat) :
    Function.update (fun i => if i < n then f i else g) n (f n) = fun i => if i < n + 1 then f i else g := by
  funext i
  rw [Function.update_apply]
  rcases Nat.lt_trichotomy i n with lt | rfl | gt
  · rw [if_neg (by omega), if_pos lt, if_pos (by omega)]
  · rw [if_pos rfl, if_pos (by omega)]
  · rw [if_neg (by omega), if_neg (by omega), if_neg (by omega)]

/-- Another device that is not registered yet. -/
def crowdAlloced (n : Nat) : Core :=
  { crowd n with
    device := Function.update (crowd n).device n (some ⟨0, ⟨false, 0⟩, 1, .zeroed⟩)
    allocated := n + 1
    devPhase := Function.update (crowd n).devPhase n .alloced }

/-- Its registration before sysfs. -/
theorem step_register (cfg : Config) {n : Nat} (room : n < cfg.maxDevs) :
    step cfg (crowdAlloced n) (.deviceRegister n fun _ => .NOERR) =
      some { crowd (n + 1) with devPhase := Function.update (crowd n).devPhase n .bound } := by
  have live : (crowdAlloced n).device n = some ⟨0, ⟨false, 0⟩, 1, .zeroed⟩ := Function.update_self _ _ _
  have free : addCapiDeviceLoop (crowdAlloced n).capiDevsTable cfg.maxDevs 0 = some n :=
    addCapiDeviceLoop_crowd cfg.maxDevs (Nat.zero_le n) (by omega)
  have table := update_below some none n
  have device := update_below (fun d => some (⟨d + 1, ⟨false, 0⟩, 1, .linked⟩ : CapiDevice)) none n
  rw [step, capiDeviceRegister_eq live, free]
  simp only [crowdAlloced, crowd, Option.some.injEq, Core.mk.injEq]
  refine ⟨table, trivial, List.range_succ.symm, by omega, ?_, ?_, trivial, ?_, trivial, trivial, rfl⟩
  · rw [Function.update_idem]
    exact device
  · funext a
    simp
  · rw [Function.update_idem]

theorem step_sysfs (cfg : Config) (n : Nat) :
    step cfg { crowd (n + 1) with devPhase := Function.update (crowd n).devPhase n .bound }
      (.deviceRegisterSysfs n 0) = some (crowd (n + 1)) := by
  have phase := update_below (fun _ => DevPhase.registered) .absent n
  simp only [step, capiDeviceRegisterSysfs, setDevPhase, ne_eq, not_true_eq_false, if_false, Function.update_idem]
  simp only [crowd, Option.some.injEq, Core.mk.injEq, true_and]
  exact ⟨phase, trivial⟩

theorem exec_arrival (cfg : Config) {n : Nat} (room : n < cfg.maxDevs) :
    exec (step cfg) (crowd n) (arrival n) = some (crowd (n + 1)) := by
  have alloc : step cfg (crowd n) (.deviceAlloc true) = some (crowdAlloced n) := rfl
  simp only [arrival, exec, alloc, step_register cfg room, step_sysfs, Option.bind_some]

theorem arrival_allowed (cfg : Config) {n : Nat} (room : n < cfg.maxDevs) :
    Meets (step cfg) (fun c l => Allowed c l ∧ InRange cfg c l) (crowd n) (arrival n) := by
  refine ⟨⟨trivial, trivial⟩, fun c alloc => ?_⟩
  cases alloc
  refine ⟨⟨Function.update_self _ _ _, trivial⟩, fun c register => ?_⟩
  cases (step_register cfg room).symm.trans register
  exact ⟨⟨Function.update_self _ _ _, trivial⟩, fun _ _ => trivial⟩

/-- The table fills up in order. -/
theorem arrivals_run (cfg : Config) (n : Nat) (room : n ≤ cfg.maxDevs) :
    exec (step cfg) Core.init (arrivals n) = some (crowd n) ∧
      Meets (step cfg) (fun c l => Allowed c l ∧ InRange cfg c l) Core.init (arrivals n) := by
  induction n with
  | zero => exact ⟨congrArg some crowd_zero.symm, trivial⟩
  | succ n ih =>
    obtain ⟨run, allowed⟩ := ih (by omega)
    have split : arrivals (n + 1) = arrivals n ++ arrival n := by
      simp [arrivals, List.range_succ]
    rw [split]
    constructor
    · rw [exec_append, run]
      exact exec_arrival cfg room
    · exact allowed.append run (arrival_allowed cfg room)

/-- 129 devices, and an application that all of them accept. -/
def crowdMet : List Section := arrivals 129 ++ [.applRegister 0 2048 fun _ => .NOERR]

theorem crowdMet_allowed :
    Meets (step largest) (fun c l => Allowed c l ∧ InRange largest c l) Core.init crowdMet := by
  obtain ⟨run, allowed⟩ := arrivals_run largest 129 (by decide)
  exact allowed.append run ⟨⟨rfl, fun _ => .inl (by decide)⟩, fun _ _ => trivial⟩

/-- The application with number 1, before it meets the devices. -/
def crowdListed (n : Nat) : Core :=
  { crowd n with
    capiApplsList := [0]
    appl := Function.update (crowd n).appl 0 ⟨1, .NOERR, fun _ => false, 2048⟩ }

theorem addCapiAppl_crowd (n : Nat) : addCapiAppl largest (prepared (crowd n) 0 2048) 0 = crowdListed n := by
  have loop : addCapiApplLoop (fun b => ((prepared (crowd n) 0 2048).appl b).id) [] 1 = (1, [], []) := rfl
  unfold addCapiAppl
  rw [show (prepared (crowd n) 0 2048).capiApplsList = [] from rfl, loop]
  dsimp only
  rw [if_neg (by decide)]
  simp [prepared, setAppl, crowdListed, crowd]

/-- What the application finds. -/
theorem crowdMet_run : ∃ c, exec (step largest) Core.init crowdMet = some c ∧ c.applPhase 0 = .registered ∧
    (c.appl 0).info = .NOERR ∧ ∀ d < 129, (c.appl 0).devs d = true ∧ Accepted c d 0 ∧
      c.device d = some ⟨d + 1, ⟨false, 0⟩, 2, .linked⟩ := by
  obtain ⟨run, -⟩ := arrivals_run largest 129 (by decide)
  have nodup : (List.range 129).Nodup := List.nodup_range
  have live : ∀ d ∈ List.range 129, ((crowdListed 129).device d).isSome := by
    intro d member
    simp [crowdListed, crowd, List.mem_range.1 member]
  obtain ⟨c, fold, bound⟩ := bindAppl_fold (a := 0) (fun _ => .NOERR) _ nodup live
  have bind : bindCapiAppl largest (prepared (crowd 129) 0 2048) 0 (fun _ => .NOERR) = some (1, c) := by
    have one : ((crowdListed 129).appl 0).id = 1 := by simp [crowdListed]
    unfold bindCapiAppl
    rw [addCapiAppl_crowd]
    dsimp only
    rw [one, if_pos (by decide), show (crowdListed 129).capiDevsList = List.range 129 from rfl, fold]
    rfl
  have phase : Function.update c.applPhase 0 ApplPhase.registered 0 = .registered := Function.update_self _ _ _
  refine ⟨c.setApplPhase 0 .registered, ?_, phase, ?_, fun d range => ⟨?_, ?_, ?_⟩⟩
  · rw [crowdMet, exec_append, run, Option.bind_some]
    simp only [exec, step, capiRegister_eq, bind]
    rfl
  · exact bound.error.trans (by simp [crowdListed])
  · apply (bound.devs d).2
    exact .inr ⟨d, List.mem_range.2 range, rfl, _, by simp only [crowdListed, crowd, if_pos range]; rfl, rfl⟩
  · obtain ⟨⟨appl, device, frame⟩, -⟩ := bound
    show _ ∈ c.calls
    rw [frame]
    apply List.mem_append_right
    exact List.mem_map.2 ⟨d, List.mem_range.2 range, rfl⟩
  · refine (bound.device d).trans ?_
    rw [if_pos ⟨List.mem_range.2 range, rfl⟩]
    simp [crowdListed, crowd, range, CapiDevice.held]

/-- The run in which 129 devices are registered, in the largest table. -/
theorem devices_addressable_crowd :
    (∃ c, exec (step largest) Core.init crowdMet = some c) ∧ Always (step largest) (fun c => ∀ d dev a,
      c.device d = some dev → dev.id ≠ 0 → c.applPhase a = .registered → Accepted c d a → (c.appl a).info = .NOERR →
      dev.sem.writer = false → (Addressed largest c a d dev.id ↔ dev.id < 128)) Core.init crowdMet :=
  devices_addressable_iff crowdMet_allowed

/-- A message for the last of them, number 129, goes to the first. -/
theorem device_unaddressable : ∃ c dev, exec (step largest) Core.init crowdMet = some c ∧
    Meets (step largest) (fun c l => Allowed c l ∧ InRange largest c l) Core.init crowdMet ∧
    c.device 128 = some dev ∧ dev.id = 129 ∧ dev.sem.writer = false ∧ c.applPhase 0 = .registered ∧
    Accepted c 128 0 ∧ (c.appl 0).info = .NOERR ∧ ¬ Addressed largest c 0 128 dev.id ∧
    ∃ c', capiPutMessage largest c 0 (some (List.replicate 12 129)) = some (none, c') ∧
      c'.calls = c.calls ++ [.capiPutMessage 0 0 (List.replicate 12 129)] := by
  obtain ⟨c, run, registered, quiet, met⟩ := crowdMet_run
  obtain ⟨-, always, -⟩ := run_good (registry_init largest) traced_init crowdMet_allowed
  have good := always.last run
  obtain ⟨-, accepted, live⟩ := met 128 (by decide)
  obtain ⟨bit, -, first⟩ := met 0 (by decide)
  refine ⟨c, _, run, crowdMet_allowed, live, rfl, rfl, registered, accepted, quiet, ?_, ?_⟩
  · intro addressed
    have small := (addressed_iff good.1 good.2 live (by decide) registered accepted quiet rfl).1 addressed
    exact absurd small (by decide)
  · exact capiPutMessage_delivered good.1 quiet (by decide) first (by decide) (by decide) bit rfl

end Capi4Linux.Capicore
