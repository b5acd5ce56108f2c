import Capi4Linux.Capi.Plain
import Capi4Linux.Lib.Clients

/-!
# The files keep the contract of the capicore

The capicore may be used only in the order that its interface describes, and
`capi.c` is one of its users. As long as the VFS releases a file when no call of
it is left, every call that the files make is one that the capicore allows,
whatever devices and other users do in between. So all that is known of such
runs of the capicore holds under the files, and nothing is between a user and
the drivers but the check of the message and its ApplID.
-/

namespace Capi4Linux.Capi
open Bytes Capicore Machine

/-- The ApplID of a message. -/
def messageApplId (msg : Bytes) : UInt16 := UInt16.ofNat (leNat ((msg.drop 2).take 2))

/-- A message that is long enough bears the ApplID that was written into it. -/
theorem messageApplId_with {buf : Bytes} {id : UInt16} (long : 4 ≤ buf.length) :
    messageApplId (withApplId buf id) = id := by
  have bytes : (withApplId buf id).drop 2 = UInt8.ofNat id.toNat :: UInt8.ofNat (id.toNat / 256) :: buf.drop 4 := by
    unfold withApplId
    apply List.ext_getElem?
    intro i
    rw [List.getElem?_drop]
    rcases i with _ | _ | i
    · rw [List.getElem?_set_ne (by omega), List.getElem?_set_self (by omega)]
      rfl
    · rw [List.getElem?_set_self (by rw [List.length_set]; omega)]
      rfl
    · rw [List.getElem?_set_ne (by omega), List.getElem?_set_ne (by omega)]
      show _ = (buf.drop 4)[i]?
      rw [List.getElem?_drop]
      congr 1
      omega
  unfold messageApplId
  rw [bytes]
  show UInt16.ofNat (leNat (le 2 id.toNat)) = id
  rw [leNat_le_of_lt (by exact id.toNat_lt), UInt16.ofNat_toNat]

namespace Stack

/-- What the files, the capicore and the messages under way know of each other. -/
structure Coherent (s : Stack) : Prop where
  plain : Plain s.driver
  unopened : ∀ d, s.driver.devNext ≤ d → s.driver.devs d = none ∧ s.core.applPhase (ap d) = .fresh
  fresh : ∀ d cdev, s.driver.devs d = some cdev → cdev.ap.id = 0 → s.core.applPhase (ap d) = .fresh
  registered : ∀ d cdev, s.driver.devs d = some cdev → cdev.ap.id ≠ 0 → s.core.applPhase (ap d) = .registered ∧
    (s.core.appl (ap d)).id = cdev.ap.id ∧ (s.core.appl (ap d)).info = cdev.ap.info
  closed : ∀ d, s.driver.devs d = none → s.core.applPhase (ap d) ≠ .registered
  waiting : ∀ p ∈ s.core.puts, ∀ d, p.appl = ap d → messageApplId p.msg = (s.core.appl (ap d)).id ∧
    (p.inside = true → .capiPutMessage p.dev p.appl p.msg ∈ s.core.calls)
  sent : ∀ dev d msg, .capiPutMessage dev (ap d) msg ∈ s.core.calls →
    s.core.applPhase (ap d) ≠ .fresh ∧ messageApplId msg = (s.core.appl (ap d)).id
  accepted : ∀ d data, (d, data) ∈ s.driver.accepted → ∃ dev, .capiPutMessage dev (ap d) data ∈ s.core.calls

theorem Coherent.init : Coherent .init where
  plain d cdev dev := by cases dev
  unopened _ _ := ⟨rfl, rfl⟩
  fresh d cdev dev := by cases dev
  registered d cdev dev := by cases dev
  closed d _ phase := by cases phase
  waiting p mem := by cases mem
  sent dev d msg mem := by cases mem
  accepted d data mem := by cases mem

section Coherence

variable {s : Stack} {core : Core} {driver : Driver} {own sender : Option Nat} {d : Nat} {cdev : Capidev}

theorem ap_injective {d e : Nat} (same : ap d = ap e) : d = e := by
  unfold ap at same
  omega

/-- Only the driver moves, and the files stay what they are to the capicore. -/
theorem Coherent.files (coherent : s.Coherent) (same : SameFiles s.driver driver) : Coherent { s with driver } where
  plain := same.plain
  unopened d beyond := by
    obtain ⟨gone, phase⟩ := coherent.unopened d (same.devNext ▸ beyond)
    have bearing := same.bearing d
    rw [gone, Option.map_none] at bearing
    exact ⟨Option.map_eq_none_iff.1 bearing, phase⟩
  fresh d cdev' dev' none := by
    obtain ⟨cdev, dev, id, -⟩ := same.dev dev'
    exact coherent.fresh d cdev dev (id.trans none)
  registered d cdev' dev' some := by
    obtain ⟨cdev, dev, id, info⟩ := same.dev dev'
    obtain ⟨phase, id', info'⟩ := coherent.registered d cdev dev (id ▸ some)
    exact ⟨phase, id'.trans id, info'.trans info⟩
  closed d gone := coherent.closed d (same.closed gone)
  waiting := coherent.waiting
  sent := coherent.sent
  accepted d data mem := coherent.accepted d data (same.accepted ▸ mem)

/-- The capicore moves, but for messages not on behalf of a file. -/
theorem Coherent.elsewhere (coherent : s.Coherent) (moved : Elsewhere own sender s.core core) (foreign : ∀ d, own ≠ some (ap d))
    (puts : ∀ p ∈ core.puts, ∀ d, p.appl = ap d → sender = some (ap d) → messageApplId p.msg = (s.core.appl (ap d)).id ∧
      (p.inside = true → .capiPutMessage p.dev p.appl p.msg ∈ core.calls))
    (calls : ∀ dev d msg, .capiPutMessage dev (ap d) msg ∈ core.calls → sender = some (ap d) →
      s.core.applPhase (ap d) ≠ .fresh ∧ messageApplId msg = (s.core.appl (ap d)).id) : Coherent { s with core } where
  plain := coherent.plain
  unopened d beyond := by
    obtain ⟨gone, phase⟩ := coherent.unopened d beyond
    exact ⟨gone, (moved.phase _ (foreign d)).trans phase⟩
  fresh d cdev dev none := (moved.phase _ (foreign d)).trans (coherent.fresh d cdev dev none)
  registered d cdev dev some := by
    obtain ⟨phase, id, info⟩ := coherent.registered d cdev dev some
    exact ⟨(moved.phase _ (foreign d)).trans phase, (moved.id _ (foreign d)).trans id, (moved.info _ (foreign d)).trans info⟩
  closed d gone phase := coherent.closed d gone ((moved.phase _ (foreign d)).symm.trans phase)
  waiting p mem d mine := by
    rw [show (core.appl (ap d)).id = _ from moved.id _ (foreign d)]
    by_cases own : sender = some (ap d)
    · exact puts p mem d mine own
    · obtain ⟨stamped, inside⟩ := coherent.waiting p (moved.puts p mem (mine ▸ own)) d mine
      exact ⟨stamped, fun entered => moved.kept _ (inside entered)⟩
  sent dev d msg mem := by
    rw [show (core.appl (ap d)).id = _ from moved.id _ (foreign d), show core.applPhase (ap d) = _ from moved.phase _ (foreign d)]
    by_cases own : sender = some (ap d)
    · exact calls dev d msg mem own
    · exact coherent.sent dev d msg (moved.calls dev (ap d) msg own mem)
  accepted d data mem := by
    obtain ⟨dev, call⟩ := coherent.accepted d data mem
    exact ⟨dev, moved.kept _ call⟩

/-- A file is registered, released or told of an error. -/
structure Turned (s : Stack) (d : Nat) (core : Core) (driver : Driver) : Prop where
  moved : Elsewhere (some (ap d)) none s.core core
  others : ∀ e, e ≠ d → driver.devs e = s.driver.devs e
  devNext : driver.devNext = s.driver.devNext
  accepted : driver.accepted = s.driver.accepted
  plain : ∀ cdev, driver.devs d = some cdev → cdev.Plain
  fresh : ∀ cdev, driver.devs d = some cdev → cdev.ap.id = 0 → core.applPhase (ap d) = .fresh
  registered : ∀ cdev, driver.devs d = some cdev → cdev.ap.id ≠ 0 → core.applPhase (ap d) = .registered ∧
    (core.appl (ap d)).id = cdev.ap.id ∧ (core.appl (ap d)).info = cdev.ap.info
  closed : driver.devs d = none → core.applPhase (ap d) ≠ .registered
  /-- A number changes only before the first message. -/
  number : s.core.applPhase (ap d) = .fresh ∨ core.applPhase (ap d) ≠ .fresh ∧ (core.appl (ap d)).id = (s.core.appl (ap d)).id

/-- A step of one file leaves the others with what they had. -/
theorem Coherent.turned (coherent : s.Coherent) (turned : Turned s d core driver) (opened : s.driver.devs d ≠ none)
    (young : s.core.applPhase (ap d) = .fresh → ∀ p ∈ s.core.puts, p.appl ≠ ap d) : Coherent ⟨core, driver⟩ := by
  have moved := turned.moved
  have apart {e : Nat} (other : e ≠ d) : some (ap d) ≠ some (ap e) := fun same =>
    other (ap_injective (Option.some.inj same)).symm
  constructor
  case plain =>
    intro e cdev dev
    by_cases here : e = d
    · exact turned.plain cdev (here ▸ dev)
    · exact coherent.plain e cdev ((turned.others e here).symm.trans dev)
  case unopened =>
    intro e beyond
    obtain ⟨gone, phase⟩ := coherent.unopened e (turned.devNext ▸ beyond)
    have other : e ≠ d := fun here => opened (here ▸ gone)
    exact ⟨(turned.others e other).trans gone, (moved.phase _ (apart other)).trans phase⟩
  case fresh =>
    intro e cdev dev none
    by_cases here : e = d
    · subst here
      exact turned.fresh cdev dev none
    · exact (moved.phase _ (apart here)).trans (coherent.fresh e cdev ((turned.others e here).symm.trans dev) none)
  case registered =>
    intro e cdev dev some
    by_cases here : e = d
    · subst here
      exact turned.registered cdev dev some
    · obtain ⟨phase, id, info⟩ := coherent.registered e cdev ((turned.others e here).symm.trans dev) some
      exact ⟨(moved.phase _ (apart here)).trans phase, (moved.id _ (apart here)).trans id,
        (moved.info _ (apart here)).trans info⟩
  case closed =>
    intro e gone
    by_cases here : e = d
    · subst here
      exact turned.closed gone
    · rw [show core.applPhase (ap e) = _ from moved.phase _ (apart here)]
      exact coherent.closed e ((turned.others e here).symm.trans gone)
  case waiting =>
    intro p mem e mine
    have old := moved.puts p mem (by simp)
    obtain ⟨stamped, inside⟩ := coherent.waiting p old e mine
    refine ⟨stamped.trans ?_, fun entered => moved.kept _ (inside entered)⟩
    by_cases here : e = d
    · subst here
      rcases turned.number with fresh | ⟨-, same⟩
      · exact absurd mine (young fresh p old)
      · exact same.symm
    · exact (moved.id _ (apart here)).symm
  case sent =>
    intro dev e msg mem
    have old := moved.calls dev (ap e) msg (by simp) mem
    obtain ⟨aged, stamped⟩ := coherent.sent dev e msg old
    by_cases here : e = d
    · subst here
      rcases turned.number with fresh | ⟨aged', same⟩
      · exact absurd fresh aged
      · exact ⟨aged', stamped.trans same.symm⟩
    · rw [show core.applPhase (ap e) = _ from moved.phase _ (apart here)]
      exact ⟨aged, stamped.trans (moved.id _ (apart here)).symm⟩
  case accepted =>
    intro e data mem
    obtain ⟨dev, call⟩ := coherent.accepted e data (turned.accepted ▸ mem)
    exact ⟨dev, moved.kept _ call⟩

/-- The answer to a message is given. -/
theorem Coherent.answered (coherent : s.Coherent) (dev : s.driver.devs d = some cdev) {data : Bytes} {info : Capinfo0x11}
    (called : info = .NOERR → ∃ dev, .capiPutMessage dev (ap d) data ∈ s.core.calls) :
    Coherent { s with driver := Capi.answered s.driver d cdev data info } := by
  have base : Coherent { s with driver := s.driver.setDev d { cdev with errcode := info } } :=
    coherent.files (.setDev coherent.plain dev rfl (coherent.plain d cdev dev))
  unfold Capi.answered putCapiMessage
  by_cases ok : info = .NOERR
  · rw [if_pos ok]
    refine { base with accepted := fun e data' mem => ?_ }
    rcases List.mem_append.1 mem with old | new
    · exact coherent.accepted e data' old
    · cases List.mem_singleton.1 new
      exact called ok
  · rw [if_neg ok]
    exact base

end Coherence

/-! ## Steps -/

/-- What every step keeps. -/
structure InOrder (cfg : Config) (s : Stack) : Prop where
  registry : Registry cfg s.core
  calm : Calm s.driver
  coherent : s.Coherent

theorem InOrder.init (cfg : Config) : InOrder cfg .init := ⟨registry_init cfg, .init, .init⟩

/-- The step is taken, and what it asks of the capicore is allowed. -/
abbrev Honoured (cfg : Config) (env : Env) (s : Stack) (op : StackOp) (s' : Stack) : Prop :=
  Honours (step cfg env) (asks env) (Capicore.step cfg) Capicore.Allowed Stack.core (InOrder cfg) s op s'

section Steps

variable {cfg : Config} {env : Env} {s s' : Stack} {op : StackOp} {d : Nat} {cdev : Capidev}

/-- A step in which the capicore is not asked. -/
theorem InOrder.silent (order : InOrder cfg s) (comes : step cfg env s op = some s') (nothing : asks env s op = [])
    (core : s'.core = s.core) (calm : Calm s'.driver) (coherent : s'.Coherent) : Honoured cfg env s op s' where
  comes := comes
  kept := ⟨core ▸ order.registry, calm, coherent⟩
  contract := by
    rw [nothing]
    trivial
  leads := by
    rw [nothing, core]
    rfl

/-- A step that asks the capicore for one section. -/
theorem InOrder.asking (order : InOrder cfg s) (small : cfg.maxAppls < 65535) {l : Section}
    (comes : step cfg env s op = some s') (one : asks env s op = [l]) (allowed : Capicore.Allowed s.core l)
    (run : Capicore.step cfg s.core l = some s'.core) (calm : Calm s'.driver) (coherent : s'.Coherent) :
    Honoured cfg env s op s' where
  comes := comes
  kept := by
    obtain ⟨c', run', registry⟩ := order.registry.step allowed (inRange_of_small small l)
    cases run.symm.trans run'
    exact ⟨registry, calm, coherent⟩
  contract := by
    rw [one]
    exact ⟨allowed, fun _ _ => trivial⟩
  leads := by
    rw [one]
    show (Capicore.step cfg s.core l).bind some = _
    rw [run]
    rfl

/-- No message is under way for a file that was never registered. -/
theorem InOrder.young (order : InOrder cfg s) (fresh : s.core.applPhase (ap d) = .fresh) :
    ∀ p ∈ s.core.puts, p.appl ≠ ap d := by
  intro p mem mine
  have listed := (order.registry.puts p mem).1
  rw [mine, order.registry.listed.phase, fresh] at listed
  cases listed

/-- A message is under way for an open file. -/
theorem InOrder.putting (order : InOrder cfg s) {p : Put} (mem : p ∈ s.core.puts) (mine : p.appl = ap d) :
    ∃ cdev, s.driver.devs d = some cdev ∧ cdev.ap.id ≠ 0 := by
  have listed := (order.registry.puts p mem).1
  rw [mine, order.registry.listed.phase] at listed
  obtain ⟨cdev, dev⟩ : ∃ cdev, s.driver.devs d = some cdev :=
    Option.ne_none_iff_exists'.1 fun gone => order.coherent.closed d gone listed
  refine ⟨cdev, dev, fun none => ?_⟩
  cases (order.coherent.fresh d cdev dev none).symm.trans listed

theorem InOrder.core (order : InOrder cfg s) (small : cfg.maxAppls < 65535) (env : Env) {l : Section}
    (allowed : Allowed s (.core l)) : ∃ s', Honoured cfg env s (.core l) s' := by
  obtain ⟨may, foreign⟩ := allowed
  obtain ⟨c', run, -⟩ := order.registry.step may (inRange_of_small small l)
  have moved := step_elsewhere order.registry may (inRange_of_small small l) run
  refine ⟨{ s with core := c' }, order.asking small ?_ rfl may run order.calm ?_⟩
  · show (Capicore.step cfg s.core l).map _ = _
    rw [run]
    rfl
  · refine order.coherent.elsewhere moved (fun d => (foreign d).1) (fun p _ d _ mine => ?_) fun _ d _ _ mine => ?_
    · exact absurd mine (foreign d).2
    · exact absurd mine (foreign d).2

theorem InOrder.openFile (order : InOrder cfg s) (env : Env) : ∃ s', Honoured cfg env s .openFile s' := by
  refine ⟨_, order.silent rfl rfl rfl (order.calm.capidevAlloc env) ?_⟩
  have coherent := order.coherent
  unfold capidevAlloc
  dsimp only
  split
  · exact coherent.files (.asked coherent.plain)
  · have apart {e : Nat} (other : e ≠ s.driver.devNext) (cdev' : Capidev) :
        (s.driver.asked.setDev s.driver.devNext cdev').devs e = s.driver.devs e := Function.update_of_ne other _ _
    have here (cdev' : Capidev) : (s.driver.asked.setDev s.driver.devNext cdev').devs s.driver.devNext = some cdev' :=
      Function.update_self _ _ _
    obtain ⟨-, phase⟩ := coherent.unopened s.driver.devNext (Nat.le_refl _)
    constructor
    case plain =>
      intro e cdev dev
      by_cases new : e = s.driver.devNext
      · subst new
        cases (here _).symm.trans dev
        exact ⟨rfl, fun np mem => by cases mem⟩
      · exact coherent.plain e cdev ((apart new _).symm.trans dev)
    case unopened =>
      intro e beyond
      have later : s.driver.devNext + 1 ≤ e := beyond
      obtain ⟨gone, fresh⟩ := coherent.unopened e (by omega)
      exact ⟨(apart (by omega) _).trans gone, fresh⟩
    case fresh =>
      intro e cdev dev none
      by_cases new : e = s.driver.devNext
      · rw [new]
        exact phase
      · exact coherent.fresh e cdev ((apart new _).symm.trans dev) none
    case registered =>
      intro e cdev dev some
      by_cases new : e = s.driver.devNext
      · subst new
        cases (here _).symm.trans dev
        exact absurd rfl some
      · exact coherent.registered e cdev ((apart new _).symm.trans dev) some
    case closed =>
      intro e gone
      by_cases new : e = s.driver.devNext
      · subst new
        cases (here _).symm.trans gone
      · exact coherent.closed e ((apart new _).symm.trans gone)
    case waiting => exact coherent.waiting
    case sent => exact coherent.sent
    case accepted => exact coherent.accepted

/-- CAPI_REGISTER of a file without a number. -/
theorem InOrder.registering (order : InOrder cfg s) (small : cfg.maxAppls < 65535) (env : Env)
    (dev : s.driver.devs d = some cdev) (none : cdev.ap.id = 0) (datablklen : UInt32) (info : Nat → Capinfo0x10) :
    ∃ s', Honoured cfg env s (.register d datablklen info) s' := by
  have fresh := order.coherent.fresh d cdev dev none
  have allowed : Capicore.Allowed s.core (.applRegister (ap d) datablklen info) := fresh
  have narrow : InRange cfg s.core (.applRegister (ap d) datablklen info) := inRange_of_small small _
  obtain ⟨r, core, run, registers⟩ := order.registry.registers allowed narrow
  have asked : Capicore.step cfg s.core (.applRegister (ap d) datablklen info) = some core := by
    show (capiRegister cfg s.core (ap d) datablklen info).map _ = _
    rw [run]
    rfl
  have moved := step_elsewhere order.registry allowed narrow asked
  have one : asks env s (.register d datablklen info) = [.applRegister (ap d) datablklen info] := by
    show (if (s.driver.devs d).any (·.ap.id = 0) then _ else _) = _
    rw [dev]
    exact if_pos (by simpa using none)
  -- what becomes of the file
  obtain ⟨cdev', answer, nccis, flags, number⟩ : ∃ cdev' : Capidev,
      (Capi.capiIoctlRegister s.driver d (registerErrcode r) (core.appl (ap d)).id).map Prod.fst =
        some (s.driver.setDev d cdev') ∧ cdev'.nccis = cdev.nccis ∧ cdev'.userflags = cdev.userflags ∧
      (r = .NOERR → cdev'.ap.id = (core.appl (ap d)).id ∧ cdev'.ap.info = .NOERR) ∧ (r ≠ .NOERR → cdev'.ap.id = 0) := by
    unfold Capi.capiIoctlRegister registerErrcode
    rw [dev]
    simp only [Option.bind_eq_bind, Option.bind_some]
    rw [if_neg (not_not_intro none)]
    by_cases ok : r = .NOERR
    · rw [if_pos ok, if_pos rfl]
      exact ⟨_, rfl, rfl, rfl, fun _ => ⟨rfl, rfl⟩, fun bad => absurd ok bad⟩
    · rw [if_neg ok, if_neg (by decide)]
      exact ⟨_, rfl, rfl, rfl, fun good => absurd good ok, fun _ => rfl⟩
  have here : (s.driver.setDev d cdev').devs d = some cdev' := Function.update_self _ _ _
  obtain ⟨⟨driver, res⟩, answered, rfl⟩ := Option.map_eq_some_iff.1 answer
  have comes : step cfg env s (.register d datablklen info) = some ⟨core, s.driver.setDev d cdev'⟩ := by
    show s.capiIoctlRegister cfg d datablklen info = _
    unfold capiIoctlRegister
    rw [dev]
    simp only [Option.bind_eq_bind, Option.bind_some]
    rw [if_neg (not_not_intro none), run]
    simp only [Option.bind_some]
    rw [answered]
    rfl
  refine ⟨_, order.asking small comes one allowed asked (order.calm.setDev dev nccis) ?_⟩
  obtain ⟨plainFlags, plainNccis⟩ := order.coherent.plain d cdev dev
  refine order.coherent.turned ⟨moved, fun e other => Function.update_of_ne other _ _, rfl, rfl, ?_, ?_, ?_, ?_, .inl fresh⟩
    (by rw [dev]; exact Option.some_ne_none cdev) order.young
  · intro x open_
    cases here.symm.trans open_
    exact ⟨flags.trans plainFlags, nccis ▸ plainNccis⟩
  · intro x open_ zero
    cases here.symm.trans open_
    by_cases ok : r = .NOERR
    · exact absurd ((number.1 ok).1.symm.trans zero) (registers.accepted ok).2.1
    · rw [registers.refused ok]
      exact fresh
  · intro x open_ some
    cases here.symm.trans open_
    by_cases ok : r = .NOERR
    · obtain ⟨phase, -, clean⟩ := registers.accepted ok
      exact ⟨phase, (number.1 ok).1.symm, clean.trans (number.1 ok).2.symm⟩
    · exact absurd (number.2 ok) some
  · intro gone
    cases here.symm.trans gone

theorem InOrder.register (order : InOrder cfg s) (small : cfg.maxAppls < 65535) (env : Env) {datablklen : UInt32}
    {info : Nat → Capinfo0x10} (opened : s.driver.devs d ≠ none) :
    ∃ s', Honoured cfg env s (.register d datablklen info) s' := by
  obtain ⟨cdev, dev⟩ := Option.ne_none_iff_exists'.1 opened
  by_cases none : cdev.ap.id = 0
  · exact order.registering small env dev none datablklen info
  · refine ⟨s, order.silent ?_ ?_ rfl order.calm order.coherent⟩
    · show s.capiIoctlRegister cfg d datablklen info = _
      unfold capiIoctlRegister
      rw [dev]
      exact if_pos none
    · show (if (s.driver.devs d).any (·.ap.id = 0) then _ else _) = _
      rw [dev]
      exact if_neg (by simpa using none)

/-- A call that changes no file for the capicore and asks it for nothing. -/
theorem InOrder.driver (order : InOrder cfg s) {driver : Driver} (comes : step cfg env s op = some { s with driver })
    (nothing : asks env s op = []) (calm : Calm driver) (same : SameFiles s.driver driver) :
    ∃ s', Honoured cfg env s op s' :=
  ⟨_, order.silent comes nothing rfl calm (order.coherent.files same)⟩

theorem InOrder.enqueue (order : InOrder cfg s) (env : Env) {skb : Skb} (registered : s.Registered d) :
    ∃ s', Honoured cfg env s (.enqueue d skb) s' := by
  obtain ⟨cdev, dev, -⟩ := registered
  let cdev' : Capidev := { cdev with ap := { cdev.ap with msgQueue := cdev.ap.msgQueue ++ [skb] } }
  have run : enqueueMessage s.driver d skb = some (s.driver.setDev d cdev') := by
    unfold enqueueMessage
    rw [dev]
    rfl
  have same : SameFiles s.driver (s.driver.setDev d cdev') :=
    .setDev order.coherent.plain dev rfl (order.coherent.plain d cdev dev)
  have comes : step cfg env s (.enqueue d skb) = some { s with driver := s.driver.setDev d cdev' } := by
    show (enqueueMessage s.driver d skb).map _ = _
    rw [run]
    rfl
  exact order.driver comes rfl (order.calm.setDev dev rfl) same

theorem InOrder.read (order : InOrder cfg s) (env : Env) {count : Nat} (opened : s.driver.devs d ≠ none) :
    ∃ s', Honoured cfg env s (.read d count) s' := by
  obtain ⟨cdev, dev⟩ := Option.ne_none_iff_exists'.1 opened
  obtain ⟨driver, res, run, calm⟩ := order.calm.capiRead env dev count
  refine order.driver ?_ rfl calm (.capiRead order.coherent.plain run)
  show (capiRead env s.driver d count).map _ = _
  rw [run]
  rfl

theorem InOrder.poll (order : InOrder cfg s) (env : Env) (opened : s.driver.devs d ≠ none) :
    ∃ s', Honoured cfg env s (.poll d) s' := by
  obtain ⟨cdev, dev⟩ := Option.ne_none_iff_exists'.1 opened
  obtain ⟨driver, res, run, calm⟩ := order.calm.capiPoll env dev
  refine order.driver ?_ rfl calm (.capiPoll order.coherent.plain run)
  show (capiPoll env s.driver d).map _ = _
  rw [run]
  rfl

/-- A device reports an error; the first one stays. -/
theorem InOrder.signalError (order : InOrder cfg s) (small : cfg.maxAppls < 65535) (env : Env) {info : Capinfo0x11}
    (registered : s.Registered d) : ∃ s', Honoured cfg env s (.signalError d info) s' := by
  obtain ⟨cdev, dev, some⟩ := registered
  obtain ⟨phase, id, known⟩ := order.coherent.registered d cdev dev some
  have allowed : Capicore.Allowed s.core (.applSignalError (ap d) info) := phase
  have asked : Capicore.step cfg s.core (.applSignalError (ap d) info) = Option.some (capiApplSignalError s.core (ap d) info) :=
    rfl
  have moved := step_elsewhere order.registry allowed trivial asked
  let cdev' : Capidev :=
    { cdev with ap := { cdev.ap with info := if cdev.ap.info = .NOERR then info else cdev.ap.info } }
  have same : (capiApplSignalError s.core (ap d) info).applPhase = s.core.applPhase ∧
      ((capiApplSignalError s.core (ap d) info).appl (ap d)).id = (s.core.appl (ap d)).id ∧
      ((capiApplSignalError s.core (ap d) info).appl (ap d)).info = cdev'.ap.info := by
    unfold capiApplSignalError
    dsimp only [cdev']
    rw [← known]
    split
    · exact ⟨rfl, by simp [Core.setAppl], by simp [Core.setAppl]⟩
    · exact ⟨rfl, rfl, rfl⟩
  have comes : step cfg env s (.signalError d info) = (Capi.signalError s.driver d info).map fun driver =>
      ⟨capiApplSignalError s.core (ap d) info, driver⟩ := rfl
  generalize capiApplSignalError s.core (ap d) info = core at *
  have here : (s.driver.setDev d cdev').devs d = Option.some cdev' := Function.update_self _ _ _
  have told : Capi.signalError s.driver d info = Option.some (s.driver.setDev d cdev') := by
    unfold Capi.signalError
    rw [dev]
    rfl
  rw [told] at comes
  refine ⟨⟨core, s.driver.setDev d cdev'⟩, order.asking small comes rfl allowed asked (order.calm.setDev dev rfl) ?_⟩
  refine order.coherent.turned
    ⟨moved, fun e other => Function.update_of_ne other _ _, rfl, rfl, ?_, ?_, ?_, ?_, .inr ⟨?_, same.2.1⟩⟩
    (by rw [dev]; exact Option.some_ne_none cdev) order.young
  · intro x open_
    cases here.symm.trans open_
    exact order.coherent.plain d cdev dev
  · intro x open_ zero
    cases here.symm.trans open_
    exact absurd zero some
  · intro x open_ _
    cases here.symm.trans open_
    exact ⟨(congrFun same.1 _).trans phase, same.2.1.trans id, same.2.2⟩
  · intro gone
    cases here.symm.trans gone
  · rw [same.1, phase]
    decide

/-- The message counts as accepted or refused. -/
theorem capiWriteAnswered_eq {driver : Driver} (dev : driver.devs d = some cdev) (data : Bytes) (info : Capinfo0x11) :
    (capiWriteAnswered driver d data info).map Prod.fst = some (Capi.answered driver d cdev data info) := by
  unfold capiWriteAnswered Capi.answered
  simp only [Option.bind_eq_bind]
  rw [putCapiMessage_devs, dev]
  rfl

/-- The answer to a message ends a write. -/
theorem answer {core : Core} {driver : Driver} (calm : Calm driver) (coherent : Coherent ⟨core, driver⟩)
    (dev : driver.devs d = some cdev) (data : Bytes) (info : Capinfo0x11)
    (called : info = .NOERR → ∃ dev, .capiPutMessage dev (ap d) data ∈ core.calls) :
    ∃ driver' res, capiWriteAnswered driver d data info = some (driver', res) ∧ Calm driver' ∧ Coherent ⟨core, driver'⟩ := by
  obtain ⟨⟨driver', res⟩, run, rfl⟩ := Option.map_eq_some_iff.1 (capiWriteAnswered_eq dev data info)
  have put : (putCapiMessage driver d data info).devs d = some cdev := (congrFun (putCapiMessage_devs _ _ _ _) d).trans dev
  exact ⟨_, res, run, (calm.tame (.putCapiMessage driver d data info)).setDev put rfl, coherent.answered dev called⟩

/-- A message refused at the lookup is refused with an error. -/
theorem capiPutMessageLookup_refused {a : Nat} {msg : Bytes} {info : Capinfo0x11} {core : Core}
    (found : capiPutMessageLookup cfg core a (some msg) = some (.inl info)) : info ≠ .NOERR := by
  simp only [capiPutMessageLookup] at found
  split at found
  · rename_i failed
    cases found
    exact failed
  split at found
  · cases found
    decide
  split at found
  · cases found
    decide
  obtain ⟨d, -, same⟩ := Option.bind_eq_some_iff.1 found
  cases same

theorem InOrder.write (order : InOrder cfg s) (small : cfg.maxAppls < 65535) (env : Env) {buf : Bytes}
    (opened : s.driver.devs d ≠ none) : ∃ s', Honoured cfg env s (.write d buf) s' := by
  obtain ⟨cdev, dev⟩ := Option.ne_none_iff_exists'.1 opened
  obtain ⟨driver, r, run, calm, same, message⟩ := capiWriteMessage_halves order.calm order.coherent.plain dev env buf
  have unfolded : step cfg env s (.write d buf) = s.capiWriteBegin cfg env d buf := rfl
  cases r with
  | inl err =>
    refine order.driver ?_ ?_ calm same
    · rw [unfolded]
      unfold capiWriteBegin
      rw [run]
      rfl
    · show lookups d (capiWriteMessage env s.driver d buf) = _
      rw [run]
      rfl
  | inr data =>
    obtain ⟨registered, rfl⟩ := message data rfl
    obtain ⟨phase, id, -⟩ := order.coherent.registered d cdev dev registered
    have allowed : Capicore.Allowed s.core (.putLookup (ap d) (some (withApplId buf cdev.ap.id))) := phase
    have one : asks env s (.write d buf) = [.putLookup (ap d) (some (withApplId buf cdev.ap.id))] := by
      show lookups d (capiWriteMessage env s.driver d buf) = _
      rw [run]
      rfl
    obtain ⟨cdev₁, dev₁⟩ : ∃ cdev₁, driver.devs d = some cdev₁ :=
      Option.ne_none_iff_exists'.1 fun gone => opened (same.closed gone)
    obtain ⟨found, lookup, -⟩ := order.registry.putLookup phase (some (withApplId buf cdev.ap.id))
    have coherent := order.coherent.files same
    cases found with
    | inl info =>
      have asked : Capicore.step cfg s.core (.putLookup (ap d) (some (withApplId buf cdev.ap.id))) = some s.core := by
        show (capiPutMessageLookup cfg s.core (ap d) _).map _ = _
        rw [lookup]
        rfl
      have refused := capiPutMessageLookup_refused lookup
      obtain ⟨driver', res, answered, calm', coherent'⟩ :=
        answer calm coherent dev₁ (withApplId buf cdev.ap.id) info fun ok => absurd ok refused
      refine ⟨{ s with driver := driver' }, order.asking small ?_ one allowed asked calm' coherent'⟩
      rw [unfolded]
      unfold capiWriteBegin
      simp only [run, lookup, Option.bind_eq_bind, Option.bind_some, answered, Option.map_some]
    | inr p =>
      have asked : Capicore.step cfg s.core (.putLookup (ap d) (some (withApplId buf cdev.ap.id))) =
          some { s.core with puts := p :: s.core.puts } := by
        show (capiPutMessageLookup cfg s.core (ap d) _).map _ = _
        rw [lookup]
        rfl
      have moved := step_elsewhere order.registry allowed trivial asked
      refine ⟨⟨{ s.core with puts := p :: s.core.puts }, driver⟩, order.asking small ?_ one allowed asked calm ?_⟩
      · rw [unfolded]
        unfold capiWriteBegin
        simp only [run, lookup, Option.bind_eq_bind, Option.bind_some]
      · refine coherent.elsewhere moved (fun e own => by cases own) (fun q mem e mine _ => ?_) fun dev e msg mem _ => ?_
        · rcases List.mem_cons.1 mem with rfl | old
          · have looked := capiPutMessageLookup_found lookup
            have long : 4 ≤ buf.length := by
              have size := looked.long
              unfold withApplId at size
              rw [List.length_set, List.length_set] at size
              omega
            obtain ⟨dv, rfl⟩ := looked.put
            obtain rfl := ap_injective mine
            exact ⟨(messageApplId_with long).trans id.symm, fun entered => by cases entered⟩
          · exact coherent.waiting q old e mine
        · exact coherent.sent dev e msg mem

/-- The semaphore of the device is tried. -/
theorem InOrder.writeEnter (order : InOrder cfg s) (small : cfg.maxAppls < 65535) (env : Env) {p : Put}
    (allowed : Allowed s (.writeEnter p)) : ∃ s', Honoured cfg env s (.writeEnter p) s' := by
  obtain ⟨mem, outside, mine⟩ := allowed
  obtain ⟨cdev, dev, -⟩ := order.putting mem mine
  obtain ⟨cd, live, -, -⟩ := order.registry.underway_live (order.registry.puts p mem)
  have may : Capicore.Allowed s.core (.putEnter p) := ⟨mem, outside⟩
  have enter := capiPutMessageEnter_eq live
  have coherent := order.coherent
  by_cases writer : cd.sem.writer
  · rw [if_pos writer] at enter
    have asked : Capicore.step cfg s.core (.putEnter p) = some { s.core with puts := s.core.puts.erase p } := by
      show (capiPutMessageEnter s.core p).map _ = _
      rw [enter]
      rfl
    have moved := step_elsewhere order.registry may trivial asked
    have coherent₁ : Coherent { s with core := { s.core with puts := s.core.puts.erase p } } :=
      coherent.elsewhere moved (fun e own => by cases own)
        (fun q left e mine _ => coherent.waiting q (List.mem_of_mem_erase left) e mine)
        fun dev e msg mem _ => coherent.sent dev e msg mem
    obtain ⟨driver, res, answered, calm, coherent'⟩ :=
      answer order.calm coherent₁ dev p.msg .OSRESERR fun ok => by cases ok
    refine ⟨⟨{ s.core with puts := s.core.puts.erase p }, driver⟩, order.asking small ?_ rfl may asked calm coherent'⟩
    show s.capiWriteEnter p = _
    unfold capiWriteEnter
    simp only [enter, Option.bind_eq_bind, Option.bind_some, answered, Option.map_some]
  · rw [if_neg writer] at enter
    let core : Core := { s.core with
      device := Function.update s.core.device p.dev
        (some { cd with sem := { cd.sem with readers := cd.sem.readers + 1 } })
      calls := s.core.calls ++ [.capiPutMessage p.dev p.appl p.msg]
      puts := { p with inside := true } :: s.core.puts.erase p }
    have asked : Capicore.step cfg s.core (.putEnter p) = some core := by
      show (capiPutMessageEnter s.core p).map _ = _
      rw [enter]
      rfl
    have moved := step_elsewhere order.registry may trivial asked
    obtain ⟨stamped, -⟩ := coherent.waiting p mem _ mine
    refine ⟨{ s with core }, order.asking small ?_ rfl may asked order.calm ?_⟩
    · show s.capiWriteEnter p = _
      unfold capiWriteEnter
      simp only [enter, Option.bind_eq_bind, Option.bind_some]
      rfl
    · refine coherent.elsewhere moved (fun e own => by cases own) (fun q left e own _ => ?_) fun dev' e msg called own => ?_
      · rcases List.mem_cons.1 left with rfl | old
        · have file : e = putFile p := ap_injective (own.symm.trans mine)
          exact ⟨file ▸ stamped, fun _ => List.mem_append_right _ (List.mem_singleton.2 rfl)⟩
        · obtain ⟨stamped', inside⟩ := coherent.waiting q (List.mem_of_mem_erase old) e own
          exact ⟨stamped', fun entered => List.mem_append_left _ (inside entered)⟩
      · rcases List.mem_append.1 called with old | new
        · exact coherent.sent dev' e msg old
        · injection List.mem_singleton.1 new with _ appl text
          have file : e = putFile p := ap_injective (appl.trans mine)
          have listed := (order.registry.listed.phase _).1 (order.registry.puts p mem).1
          rw [appl, text, listed]
          refine ⟨by decide, ?_⟩
          rw [mine]
          exact stamped

/-- The driver of the device has answered. -/
theorem InOrder.writeLeave (order : InOrder cfg s) (small : cfg.maxAppls < 65535) (env : Env) {p : Put}
    {info : Capinfo0x11} (allowed : Allowed s (.writeLeave p info)) : ∃ s', Honoured cfg env s (.writeLeave p info) s' := by
  obtain ⟨mem, inside, mine⟩ := allowed
  obtain ⟨cdev, dev, -⟩ := order.putting mem mine
  obtain ⟨cd, live, -, -⟩ := order.registry.underway_live (order.registry.puts p mem)
  have may : Capicore.Allowed s.core (.putLeave p info) := ⟨mem, inside⟩
  have leave := capiPutMessageLeave_eq live info
  have coherent := order.coherent
  let core : Core := { s.core with
    device := Function.update s.core.device p.dev (some { cd with sem := { cd.sem with readers := cd.sem.readers - 1 } })
    puts := s.core.puts.erase p }
  have asked : Capicore.step cfg s.core (.putLeave p info) = some core := by
    show (capiPutMessageLeave s.core p info).map _ = _
    rw [leave]
    rfl
  have moved := step_elsewhere order.registry may trivial asked
  have coherent₁ : Coherent { s with core } :=
    coherent.elsewhere moved (fun e own => by cases own)
      (fun q left e own _ => coherent.waiting q (List.mem_of_mem_erase left) e own)
      fun dev e msg called _ => coherent.sent dev e msg called
  have called := (coherent.waiting p mem _ mine).2 inside
  rw [mine] at called
  obtain ⟨driver, res, answered, calm, coherent'⟩ :=
    answer order.calm coherent₁ dev p.msg info fun _ => ⟨p.dev, called⟩
  refine ⟨⟨core, driver⟩, order.asking small ?_ rfl may asked calm coherent'⟩
  show s.capiWriteLeave p info = _
  unfold capiWriteLeave
  simp only [leave, Option.bind_eq_bind, Option.bind_some, answered, Option.map_some]
  rfl

/-- A file that is released gives its number back first. -/
theorem InOrder.release (order : InOrder cfg s) (small : cfg.maxAppls < 65535) (env : Env)
    (allowed : Allowed s (.release d)) : ∃ s', Honoured cfg env s (.release d) s' := by
  obtain ⟨opened, quiet⟩ := allowed
  obtain ⟨cdev, dev⟩ := Option.ne_none_iff_exists'.1 opened
  obtain ⟨driver, free, calm⟩ := order.calm.capidevFree dev
  have closed := capidevFree_closed order.coherent.plain free
  have free' : ∀ core : Core, (capidevFree s.driver d).map (fun driver => (⟨core, driver⟩ : Stack)) = some ⟨core, driver⟩ := by
    intro core
    rw [free]
    rfl
  -- nothing is left to say of the file
  have turned {core : Core} (moved : Elsewhere (some (ap d)) none s.core core)
      (released : core.applPhase (ap d) ≠ .registered)
      (number : s.core.applPhase (ap d) = .fresh ∨
        core.applPhase (ap d) ≠ .fresh ∧ (core.appl (ap d)).id = (s.core.appl (ap d)).id) : Coherent ⟨core, driver⟩ := by
    refine order.coherent.turned ⟨moved, closed.others, closed.devNext, closed.accepted, ?_, ?_, ?_, fun _ => released, number⟩
      opened order.young
    · intro x open_
      cases closed.gone.symm.trans open_
    · intro x open_
      cases closed.gone.symm.trans open_
    · intro x open_
      cases closed.gone.symm.trans open_
  by_cases none : cdev.ap.id = 0
  · have fresh := order.coherent.fresh d cdev dev none
    refine ⟨⟨s.core, driver⟩, order.silent ?_ ?_ rfl calm (turned (.of_same rfl rfl rfl rfl) ?_ (.inl fresh))⟩
    · show s.capiFrelease cfg d = _
      unfold capiFrelease
      simp only [dev, Option.bind_eq_bind, Option.bind_some]
      rw [if_neg (not_not_intro none)]
      exact free' s.core
    · show (if (s.driver.devs d).any (·.ap.id ≠ 0) then _ else _) = _
      rw [dev]
      exact if_neg (by simpa using none)
    · rw [fresh]
      decide
  · obtain ⟨phase, -⟩ := order.coherent.registered d cdev dev none
    have may : Capicore.Allowed s.core (.applRelease (ap d)) := ⟨phase, quiet⟩
    obtain ⟨core, run, ended, id⟩ : ∃ core, (capiRelease cfg s.core (ap d)).map (·.2) = some core ∧
        core.applPhase (ap d) = .released ∧ (core.appl (ap d)).id = (s.core.appl (ap d)).id := by
      obtain ⟨r, c1, run, released, -⟩ := order.registry.applRelease phase quiet
      refine ⟨_, by rw [run]; rfl, Function.update_self _ _ _, ?_⟩
      show (c1.appl (ap d)).id = _
      rw [released.appl]
    have asked : Capicore.step cfg s.core (.applRelease (ap d)) = some core := run
    have moved := step_elsewhere order.registry may trivial asked
    refine ⟨⟨core, driver⟩, order.asking small ?_ ?_ may asked calm (turned moved ?_ (.inr ⟨?_, id⟩))⟩
    · show s.capiFrelease cfg d = _
      unfold capiFrelease
      simp only [dev, Option.bind_eq_bind, Option.bind_some]
      rw [if_pos none, run]
      exact free' core
    · show (if (s.driver.devs d).any (·.ap.id ≠ 0) then _ else _) = _
      rw [dev]
      exact if_pos (by simpa using none)
    · rw [ended]
      decide
    · rw [ended]
      decide

/-- Every call keeps the contract. -/
theorem InOrder.honoured (order : InOrder cfg s) (small : cfg.maxAppls < 65535) (env : Env) (op : StackOp)
    (allowed : Allowed s op) : ∃ s', Honoured cfg env s op s' := by
  cases op with
  | core l => exact order.core small env allowed
  | openFile => exact order.openFile env
  | register d datablklen info => exact order.register small env allowed
  | enqueue d skb => exact order.enqueue env allowed
  | signalError d info => exact order.signalError small env allowed
  | read d count => exact order.read env allowed
  | poll d => exact order.poll env allowed
  | write d buf => exact order.write small env allowed
  | writeEnter p => exact order.writeEnter small env allowed
  | writeLeave p info => exact order.writeLeave small env allowed
  | release d => exact order.release small env allowed

end Steps

/-! ## Runs -/

/-- What a user can rely on. -/
structure Faithful (s : Stack) : Prop where
  /-- A file has the number under which its application is registered. -/
  numbered : ∀ d cdev, s.driver.devs d = some cdev → cdev.ap.id ≠ 0 →
    ap d ∈ s.core.capiApplsList ∧ (s.core.appl (ap d)).id = cdev.ap.id
  listed : ∀ d, ap d ∈ s.core.capiApplsList → s.Registered d
  apart : ∀ d e cdev cdev', s.driver.devs d = some cdev → s.driver.devs e = some cdev' → cdev.ap.id ≠ 0 →
    cdev.ap.id = cdev'.ap.id → d = e
  /-- A driver is given no message of a file that does not bear the file's number. -/
  stamped : ∀ dev d msg, .capiPutMessage dev (ap d) msg ∈ s.core.calls → messageApplId msg = (s.core.appl (ap d)).id
  /-- What a write has put has come to the driver of a device. -/
  accepted : ∀ d data, (d, data) ∈ s.driver.accepted → ∃ dev, .capiPutMessage dev (ap d) data ∈ s.core.calls

/-- Files and applications in order are faithful. -/
theorem InOrder.faithful {cfg : Config} {s : Stack} (order : InOrder cfg s) : s.Faithful where
  numbered d cdev dev some := by
    obtain ⟨phase, id, -⟩ := order.coherent.registered d cdev dev some
    exact ⟨(order.registry.listed.phase _).2 phase, id⟩
  listed d mem := by
    have phase := (order.registry.listed.phase _).1 mem
    obtain ⟨cdev, dev⟩ : ∃ cdev, s.driver.devs d = some cdev :=
      Option.ne_none_iff_exists'.1 fun gone => order.coherent.closed d gone phase
    refine ⟨cdev, dev, fun none => ?_⟩
    cases (order.coherent.fresh d cdev dev none).symm.trans phase
  apart d e cdev cdev' dev dev' some same := by
    obtain ⟨phase, id, -⟩ := order.coherent.registered d cdev dev some
    obtain ⟨phase', id', -⟩ := order.coherent.registered e cdev' dev' (same ▸ some)
    have mem := (order.registry.listed.phase _).2 phase
    have mem' := (order.registry.listed.phase _).2 phase'
    have distinct : s.core.ids.Nodup := order.registry.listed.numbered.1.imp Nat.ne_of_lt
    apply ap_injective
    apply List.inj_on_of_nodup_map distinct mem mem'
    rw [id, id', same]
  stamped dev d msg mem := (order.coherent.sent dev d msg mem).2
  accepted := order.coherent.accepted

end Stack

/-- Whatever devices and other users of the capicore do: every call that the files make is one that the capicore
allows, and each comes out. The capicore goes through a run of its own, in which its contract is kept, and in the end
the files' numbers, the messages and the answers are as a user expects. -/
theorem files_keep_contract {cfg : Config} (small : cfg.maxAppls < 65535) (env : Env) (ops : List StackOp)
    (allowed : Meets (Stack.step cfg env) Stack.Allowed .init ops) :
    ∃ s, exec (Stack.step cfg env) .init ops = some s ∧ s.Faithful ∧
      Meets (Capicore.step cfg) Capicore.Allowed Core.init (asked (Stack.step cfg env) (Stack.asks env) .init ops) ∧
      exec (Capicore.step cfg) Core.init (asked (Stack.step cfg env) (Stack.asks env) .init ops) = some s.core := by
  obtain ⟨s, run, order, contract, leads⟩ := honours_run
    (fun s op order allowed => Stack.InOrder.honoured order small env op allowed) (Stack.InOrder.init cfg) allowed
  exact ⟨s, run, order.faithful, contract, leads⟩

/-- A LISTEN_REQ for controller 1, with the ApplID that is in it. -/
def listenReq (id : UInt8) : Bytes := [12, 0, id, 0, 0x05, 0x80, 0, 0, 1, 0, 0, 0]

/-- A user writes with a made-up ApplID; the device is withdrawn while its driver has the message. -/
def withdrawnMeanwhile : List StackOp :=
  [.core (.deviceAlloc true), .core (.deviceRegister 0 fun _ => .NOERR), .core (.deviceRegisterSysfs 0 0), .openFile,
    .register 0 2048 (fun _ => .NOERR), .write 0 (listenReq 77), .writeEnter ⟨ap 0, 0, listenReq 1, false⟩,
    .core (.deviceUnlink 0), .writeLeave ⟨ap 0, 0, listenReq 1, true⟩ .NOERR, .release 0]

theorem withdrawnMeanwhile_allowed :
    Meets (Stack.step ⟨4, 64, by decide, by decide⟩ .granting) Stack.Allowed .init withdrawnMeanwhile := by
  refine ⟨⟨trivial, by simp [Section.appl, Section.sender]⟩, ?_⟩
  rintro _ ⟨⟩
  refine ⟨⟨rfl, by simp [Section.appl, Section.sender]⟩, ?_⟩
  rintro _ ⟨⟩
  refine ⟨⟨rfl, by simp [Section.appl, Section.sender]⟩, ?_⟩
  rintro _ ⟨⟩
  refine ⟨trivial, ?_⟩
  rintro _ ⟨⟩
  refine ⟨Option.some_ne_none _, ?_⟩
  rintro _ ⟨⟩
  refine ⟨Option.some_ne_none _, ?_⟩
  rintro _ ⟨⟩
  refine ⟨⟨List.mem_singleton.2 rfl, rfl, rfl⟩, ?_⟩
  rintro _ ⟨⟩
  refine ⟨⟨.inr rfl, by simp [Section.appl, Section.sender]⟩, ?_⟩
  rintro _ ⟨⟩
  refine ⟨⟨List.mem_singleton.2 rfl, rfl, rfl⟩, ?_⟩
  rintro _ ⟨⟩
  refine ⟨⟨Option.some_ne_none _, fun p mem => by cases mem⟩, fun _ _ => trivial⟩

theorem files_keep_contract_withdrawn :
    ∃ s, exec (Stack.step ⟨4, 64, by decide, by decide⟩ .granting) .init withdrawnMeanwhile = some s ∧ s.Faithful ∧
      Meets (Capicore.step ⟨4, 64, by decide, by decide⟩) Capicore.Allowed Core.init
        (asked (Stack.step ⟨4, 64, by decide, by decide⟩ .granting) (Stack.asks .granting) .init withdrawnMeanwhile) ∧
      exec (Capicore.step ⟨4, 64, by decide, by decide⟩) Core.init
        (asked (Stack.step ⟨4, 64, by decide, by decide⟩ .granting) (Stack.asks .granting) .init withdrawnMeanwhile) =
          some s.core :=
  files_keep_contract (by decide) .granting withdrawnMeanwhile withdrawnMeanwhile_allowed

end Capi4Linux.Capi
