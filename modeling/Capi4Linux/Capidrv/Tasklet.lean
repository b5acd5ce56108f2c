import Capi4Linux.Capidrv.Controllers
import Capi4Linux.Kernelcapi.State
import Capi4Linux.Lib.Wakeup

/-!
# The tasklet of capidrv

A device queues messages for the application of capidrv and calls
`capi_appl_signal`, which is `capidrv_signal` here: it schedules
`capidrv_tasklet`. The tasklet runs `capidrv_recv_message` until the queue is
empty or the application is in error. It may be scheduled again while it runs,
and everything else goes on between its turns.
-/

namespace Capi4Linux.Capidrv
open Bytes Capicore Capiutil Machine

/-- Where `capidrv_recv_message` is. -/
inductive Tasklet where
  | idle
  | fetching
  | handling (msg : Bytes)

/-- The message that was fetched and is not handled yet. -/
def Tasklet.inHand : Tasklet → List Bytes
  | .handling msg => [msg]
  | _ => []

/-- `global.ap`. -/
structure DriverAppl where
  msgQueue : List Bytes
  info : Capinfo0x11
  rxPackets : UInt64
  rxBytes : UInt64

/-- The application, its tasklet and the rest of the driver. A device owes a call of `capi_appl_signal` from the time it
queues something; `handled` and `printed` are the messages handled and the errors printed so far. -/
structure Reception where
  ap : DriverAppl
  owing : Nat → Bool
  scheduled : Bool
  tasklet : Tasklet
  global : Global
  handled : List Bytes
  printed : List Capinfo0x11

/-- What devices do, what the tasklet does, and all other events. -/
inductive ReceptionOp where
  | enqueue (dev : Nat) (msg : Bytes)
  | error (dev : Nat) (info : Capinfo0x11)
  | signal (dev : Nat)
  | action
  | turn
  | other (op : DriverOp)

/-- The message of an event of the driver. -/
def DriverOp.message : DriverOp → Option Bytes
  | .recv msg => some msg
  | _ => none

namespace Reception

/-- capidrv with its number, before any device came. -/
def init (applId : UInt16) : Reception :=
  ⟨⟨[], .NOERR, 0, 0⟩, fun _ => false, false, .idle, Global.init applId, [], []⟩

/-- `capi_appl_enqueue_message`. -/
def capiApplEnqueueMessage (s : Reception) (dev : Nat) (msg : Bytes) : Reception :=
  { s with ap := { s.ap with msgQueue := s.ap.msgQueue ++ [msg] }, owing := Function.update s.owing dev true }

/-- `capidrv_signal`, called by `capi_appl_signal`. -/
def capidrvSignal (s : Reception) (dev : Nat) : Reception :=
  { s with owing := Function.update s.owing dev false, scheduled := true }

/-- The assignment of `capi_appl_signal_error`; the call of `capi_appl_signal` comes next. -/
def capiApplSignalError (s : Reception) (dev : Nat) (info : Capinfo0x11) : Reception :=
  { s with
    ap := { s.ap with info := if s.ap.info = .NOERR then info else s.ap.info }
    owing := Function.update s.owing dev true }

/-- The kernel starts the tasklet: it may be scheduled anew from now on, but not run twice at a time. -/
def taskletAction (s : Reception) : Option Reception :=
  match s.scheduled, s.tasklet with
  | true, .idle => some { s with scheduled := false, tasklet := .fetching }
  | _, _ => none

/-- `get_capi_message`, and what the loop of `capidrv_recv_message` makes of its result. -/
def getCapiMessage (s : Reception) : Reception :=
  match Kernelcapi.capiGetMessage s.ap.info s.ap.msgQueue with
  | (_, some msg, queue) =>
    let n := Kernelcapi.capimsgBytes msg Kernelcapi.CAPI_DATA_B3_IND
    { s with
      ap := { s.ap with msgQueue := queue, rxPackets := s.ap.rxPackets + 1, rxBytes := s.ap.rxBytes + .ofNat n }
      tasklet := .handling msg }
  | (info, none, _) =>
    { s with tasklet := .idle, printed := if info = .QUEUEEMPTY then s.printed else s.printed ++ [info] }

/-- One turn of the loop of `capidrv_recv_message`, in two parts. -/
def capidrvRecvTurn (s : Reception) : Option Reception :=
  match s.tasklet with
  | .idle => none
  | .fetching => some s.getCapiMessage
  | .handling msg => (recvMessage s.global msg).map fun (_, global) =>
    { s with tasklet := .fetching, global := global, handled := s.handled ++ [msg] }

/-- One step; a message comes to the driver through the tasklet alone. -/
def step (s : Reception) : ReceptionOp → Option Reception
  | .enqueue dev msg => some (s.capiApplEnqueueMessage dev msg)
  | .error dev info => some (s.capiApplSignalError dev info)
  | .signal dev => some (s.capidrvSignal dev)
  | .action => s.taskletAction
  | .turn => s.capidrvRecvTurn
  | .other op => if op.message = none then (s.global.step op).map fun global => { s with global := global } else none

end Reception

/-! ## What a run has done -/

/-- The message that an operation queues. -/
def ReceptionOp.queued : ReceptionOp → Option Bytes
  | .enqueue _ msg => some msg
  | _ => none

/-- The error that an operation reports. -/
def ReceptionOp.reported : ReceptionOp → Option Capinfo0x11
  | .error _ info => some info
  | _ => none

/-- An event that has nothing to do with messages. -/
def ReceptionOp.event : ReceptionOp → Option DriverOp
  | .other op => some op
  | _ => none

/-- The first error reported. -/
def firstError (ops : List ReceptionOp) : Capinfo0x11 :=
  ((ops.filterMap ReceptionOp.reported).find? (· ≠ .NOERR)).getD .NOERR

namespace Reception

/-- The messages that were fetched. -/
def fetched (s : Reception) : List Bytes := s.handled ++ s.tasklet.inHand

/-- The queue as the tasklet sees it: in error it sees nothing. -/
def mailbox (s : Reception) : Wakeup.Mailbox Nat where
  waiting := s.ap.info = .NOERR ∧ s.ap.msgQueue ≠ []
  owing := s.owing
  called := s.scheduled
  asleep := match s.tasklet with
    | .idle => true
    | _ => false

/-- What holds after the operations `ops`. -/
structure Follows (applId : UInt16) (ops : List ReceptionOp) (s : Reception) : Prop where
  /-- Every message queued was handled, is in hand, or waits, in this order. -/
  order : s.fetched ++ s.ap.msgQueue = ops.filterMap ReceptionOp.queued
  packets : s.ap.rxPackets = .ofNat s.fetched.length
  bytes : s.ap.rxBytes = .ofNat (s.fetched.map fun msg => Kernelcapi.capimsgBytes msg Kernelcapi.CAPI_DATA_B3_IND).sum
  /-- The driver has taken the messages handled and the other events, each in their order. -/
  driven : ∃ events, exec Global.step (Global.init applId) events = some s.global ∧
    events.filterMap DriverOp.message = s.handled ∧
    events.filter (fun op => op.message = none) = ops.filterMap ReceptionOp.event
  info : s.ap.info = firstError ops
  printed : ∀ info ∈ s.printed, info = s.ap.info ∧ info ≠ .NOERR
  noticed : Wakeup.Noticed s.mailbox

section Steps

variable {applId : UInt16} {ops : List ReceptionOp} {s s' : Reception} {op : ReceptionOp}

theorem follows_init (applId : UInt16) : (init applId).Follows applId [] where
  order := rfl
  packets := rfl
  bytes := rfl
  driven := ⟨[], rfl, rfl, rfl⟩
  info := rfl
  printed info mem := by cases mem
  noticed left := absurd rfl left.2

/-- An error after the first is not kept. -/
theorem firstError_append (ops : List ReceptionOp) (op : ReceptionOp) : firstError (ops ++ [op]) =
    if firstError ops = .NOERR then op.reported.getD .NOERR else firstError ops := by
  unfold firstError
  rw [List.filterMap_append, List.find?_append]
  cases found : (ops.filterMap ReceptionOp.reported).find? (· ≠ .NOERR) with
  | none =>
    cases op with
    | error dev info =>
      by_cases clean : info = .NOERR
      · simp [ReceptionOp.reported, clean]
      · simp [ReceptionOp.reported, clean]
    | _ => rfl
  | some info =>
    have met := List.find?_some found
    simp only [decide_not, Bool.not_eq_eq_eq_not, Bool.not_true, decide_eq_false_iff_not] at met
    simp [met]

/-- An operation that is not the tasklet's changes none of what it has done. -/
theorem Follows.beside (follows : s.Follows applId ops) {queue : List Bytes} (queued : op.queued.toList = queue)
    (idle : op.event = none) (fetched : s'.fetched = s.fetched) (handled : s'.handled = s.handled)
    (msgQueue : s'.ap.msgQueue = s.ap.msgQueue ++ queue) (packets : s'.ap.rxPackets = s.ap.rxPackets)
    (bytes : s'.ap.rxBytes = s.ap.rxBytes) (global : s'.global = s.global)
    (info : s'.ap.info = if s.ap.info = .NOERR then op.reported.getD .NOERR else s.ap.info)
    (printed : s'.printed = s.printed) (turns : Relation.ReflTransGen Wakeup.Turn s.mailbox s'.mailbox) :
    s'.Follows applId (ops ++ [op]) where
  order := by
    have same : [op].filterMap ReceptionOp.queued = queue := by
      rw [← queued]
      cases op <;> rfl
    rw [fetched, msgQueue, ← List.append_assoc, follows.order, List.filterMap_append, same]
  packets := by rw [packets, fetched, follows.packets]
  bytes := by rw [bytes, fetched, follows.bytes]
  driven := by
    obtain ⟨events, run, messages, others⟩ := follows.driven
    refine ⟨events, by rw [global]; exact run, by rw [handled]; exact messages, ?_⟩
    rw [others, List.filterMap_append, List.filterMap_cons_none idle, List.filterMap_nil, List.append_nil]
  info := by rw [info, follows.info, firstError_append]
  printed := by
    intro error mem
    rw [printed] at mem
    obtain ⟨same, wrong⟩ := follows.printed error mem
    rw [info, if_neg (same ▸ wrong)]
    exact ⟨same, wrong⟩
  noticed := follows.noticed.turns turns

/-- An error stands until it is fetched. -/
theorem sticky (info : Capinfo0x11) : info = if info = .NOERR then .NOERR else info := by
  split
  · assumption
  · rfl

theorem Follows.enqueue (follows : s.Follows applId ops) (dev : Nat) (msg : Bytes) :
    (s.capiApplEnqueueMessage dev msg).Follows applId (ops ++ [.enqueue dev msg]) :=
  follows.beside rfl rfl rfl rfl rfl rfl rfl rfl (sticky s.ap.info) rfl (.single (.put dev _))

theorem Follows.error (follows : s.Follows applId ops) (dev : Nat) (info : Capinfo0x11) :
    (s.capiApplSignalError dev info).Follows applId (ops ++ [.error dev info]) :=
  follows.beside rfl rfl rfl rfl (List.append_nil _).symm rfl rfl rfl rfl rfl (.single (.put dev _))

theorem Follows.signal (follows : s.Follows applId ops) (dev : Nat) :
    (s.capidrvSignal dev).Follows applId (ops ++ [.signal dev]) :=
  follows.beside rfl rfl rfl rfl (List.append_nil _).symm rfl rfl rfl (sticky s.ap.info) rfl (.single (.call dev))

/-- The call that woke the tasklet is forgotten; the tasklet looks at the queue next. -/
theorem Follows.action (follows : s.Follows applId ops) (run : s.taskletAction = some s') :
    s'.Follows applId (ops ++ [.action]) := by
  unfold taskletAction at run
  split at run
  · rename_i idle
    cases run
    have same : s.fetched = ({ s with scheduled := false, tasklet := .fetching } : Reception).fetched := by
      unfold fetched
      rw [idle]
      rfl
    refine follows.beside rfl rfl same.symm rfl (List.append_nil _).symm rfl rfl rfl (sticky s.ap.info) rfl ?_
    have woken : Wakeup.Turn s.mailbox { s.mailbox with asleep := false } := .wake
    exact (Relation.ReflTransGen.single woken).tail (.forget rfl)
  · cases run

/-- The tasklet fetches the first message. -/
theorem getCapiMessage_cons (clean : s.ap.info = .NOERR) {msg : Bytes} {queue : List Bytes}
    (waits : s.ap.msgQueue = msg :: queue) : s.getCapiMessage = { s with
      ap := ⟨queue, s.ap.info, s.ap.rxPackets + 1,
        s.ap.rxBytes + .ofNat (Kernelcapi.capimsgBytes msg Kernelcapi.CAPI_DATA_B3_IND)⟩
      tasklet := .handling msg } := by
  have got : Kernelcapi.capiGetMessage s.ap.info s.ap.msgQueue = (.NOERR, some msg, queue) := by
    rw [clean, waits]
    rfl
  unfold getCapiMessage
  rw [got]

/-- There is nothing to fetch. -/
theorem getCapiMessage_nil (clean : s.ap.info = .NOERR) (empty : s.ap.msgQueue = []) :
    s.getCapiMessage = { s with tasklet := .idle } := by
  have got : Kernelcapi.capiGetMessage s.ap.info s.ap.msgQueue = (.QUEUEEMPTY, none, []) := by
    rw [clean, empty]
    rfl
  unfold getCapiMessage
  rw [got]
  rfl

/-- The application is in error. -/
theorem getCapiMessage_error (wrong : s.ap.info ≠ .NOERR) : s.getCapiMessage = { s with
      tasklet := .idle
      printed := if s.ap.info = .QUEUEEMPTY then s.printed else s.printed ++ [s.ap.info] } := by
  unfold getCapiMessage Kernelcapi.capiGetMessage
  rw [if_pos wrong]

/-- A turn of the tasklet is no event of the device. -/
theorem filterMap_turn {β : Type} (f : ReceptionOp → Option β) (ignored : f ReceptionOp.turn = none) :
    (ops ++ [ReceptionOp.turn]).filterMap f = ops.filterMap f := by
  rw [List.filterMap_append, List.filterMap_cons_none ignored, List.filterMap_nil, List.append_nil]

theorem firstError_turn (ops : List ReceptionOp) : firstError (ops ++ [.turn]) = firstError ops :=
  (firstError_append ops .turn).trans (sticky _).symm

/-- Between two messages all that was fetched is handled. -/
theorem fetched_fetching (fetching : s.tasklet = .fetching) : s.fetched = s.handled := by
  unfold fetched
  rw [fetching]
  exact List.append_nil _

/-- The tasklet fetches a message, or it has found nothing and ends. -/
theorem Follows.getCapiMessage (follows : s.Follows applId ops) (fetching : s.tasklet = .fetching) :
    s.getCapiMessage.Follows applId (ops ++ [.turn]) := by
  obtain ⟨order, packets, bytes, driven, info, printed, noticed⟩ := follows
  have driven' := driven
  rw [← filterMap_turn ReceptionOp.event rfl] at driven'
  have ended {s' : Reception} (same : s' = { s with tasklet := .idle, printed := s'.printed })
      (lines : ∀ info ∈ s'.printed, info = s.ap.info ∧ info ≠ .NOERR) (seen : ¬ s.mailbox.waiting) :
      s'.Follows applId (ops ++ [.turn]) := by
    have kept : s'.fetched = s.fetched := by
      rw [fetched_fetching fetching, same]
      exact List.append_nil _
    rw [← kept] at order packets bytes
    rw [same] at lines kept order packets bytes ⊢
    refine ⟨?_, packets, bytes, driven', ?_, lines, ?_⟩
    · rw [filterMap_turn ReceptionOp.queued rfl]
      exact order
    · rw [firstError_turn]
      exact info
    · exact noticed.turn (.sleep seen)
  by_cases clean : s.ap.info = .NOERR
  · cases waits : s.ap.msgQueue with
    | nil =>
      rw [getCapiMessage_nil clean waits]
      exact ended rfl printed fun left => left.2 waits
    | cons msg queue =>
      rw [getCapiMessage_cons clean waits]
      rw [fetched_fetching fetching] at order packets bytes
      refine ⟨?_, ?_, ?_, driven', ?_, printed, ?_⟩
      · rw [filterMap_turn ReceptionOp.queued rfl, ← order, waits]
        exact List.append_assoc _ _ _
      · show s.ap.rxPackets + 1 = .ofNat (s.handled ++ [msg]).length
        rw [packets, List.length_append, List.length_singleton, UInt64.ofNat_add]
        rfl
      · show s.ap.rxBytes + _ = .ofNat ((s.handled ++ [msg]).map _).sum
        rw [bytes, List.map_append, List.sum_append, List.map_singleton, List.sum_singleton, UInt64.ofNat_add]
      · rw [firstError_turn]
        exact info
      · exact Wakeup.noticed_of_awake rfl
  · rw [getCapiMessage_error clean]
    refine ended rfl ?_ fun left => clean left.1
    · intro error mem
      change error ∈ (if s.ap.info = .QUEUEEMPTY then s.printed else s.printed ++ [s.ap.info]) at mem
      split at mem
      · exact printed error mem
      · rcases List.mem_append.1 mem with mem | last
        · exact printed error mem
        · rw [List.mem_singleton.1 last]
          exact ⟨rfl, clean⟩

/-- A message is handled. -/
theorem Follows.handle (follows : s.Follows applId ops) {msg : Bytes} (handling : s.tasklet = .handling msg)
    {global : Global} (run : s.global.step (.recv msg) = some global) :
    ({ s with tasklet := .fetching, global := global, handled := s.handled ++ [msg] } : Reception).Follows applId
      (ops ++ [.turn]) := by
  obtain ⟨order, packets, bytes, ⟨events, driven, messages, others⟩, info, printed, noticed⟩ := follows
  have same : s.fetched = s.handled ++ [msg] ++ [] := by
    unfold fetched
    rw [handling]
    exact (List.append_nil _).symm
  rw [same] at order packets bytes
  refine ⟨?_, packets, bytes, ⟨events ++ [.recv msg], ?_, ?_, ?_⟩, ?_, printed, ?_⟩
  · rw [filterMap_turn ReceptionOp.queued rfl]
    exact order
  · rw [exec_append, driven, Option.bind_some, exec, run]
    rfl
  · rw [List.filterMap_append, messages]
    rfl
  · rw [List.filter_append, others, filterMap_turn ReceptionOp.event rfl]
    exact List.append_nil _
  · rw [firstError_turn]
    exact info
  · exact Wakeup.noticed_of_awake rfl

/-- Another event of the driver. -/
theorem Follows.other (follows : s.Follows applId ops) {op : DriverOp} (quiet : op.message = none) {global : Global}
    (run : s.global.step op = some global) :
    ({ s with global := global } : Reception).Follows applId (ops ++ [.other op]) := by
  obtain ⟨order, packets, bytes, ⟨events, driven, messages, others⟩, info, printed, noticed⟩ := follows
  refine ⟨?_, packets, bytes, ⟨events ++ [op], ?_, ?_, ?_⟩, ?_, printed, noticed⟩
  · rw [List.filterMap_append]
    exact order.trans (List.append_nil _).symm
  · rw [exec_append, driven, Option.bind_some, exec, run]
    rfl
  · rw [List.filterMap_append, messages, List.filterMap_cons_none quiet]
    exact List.append_nil _
  · rw [List.filter_append, others, List.filterMap_append, List.filter_cons_of_pos (by simpa using quiet)]
    rfl
  · rw [firstError_append]
    exact info.trans (sticky _)

theorem Follows.step (follows : s.Follows applId ops) (run : s.step op = some s') : s'.Follows applId (ops ++ [op]) := by
  cases op with
  | enqueue dev msg =>
    cases run
    exact follows.enqueue dev msg
  | error dev info =>
    cases run
    exact follows.error dev info
  | signal dev =>
    cases run
    exact follows.signal dev
  | action => exact follows.action run
  | turn =>
    change s.capidrvRecvTurn = some s' at run
    unfold capidrvRecvTurn at run
    split at run
    · cases run
    · rename_i fetching
      cases run
      exact follows.getCapiMessage fetching
    · rename_i msg handling
      obtain ⟨⟨r, global⟩, received, same⟩ := Option.map_eq_some_iff.1 run
      cases same
      exact follows.handle handling (Option.map_eq_some_iff.2 ⟨_, received, rfl⟩)
  | other op =>
    change (if op.message = none then _ else none) = some s' at run
    split at run
    · rename_i quiet
      obtain ⟨global, driven, same⟩ := Option.map_eq_some_iff.1 run
      cases same
      exact follows.other quiet driven
    · cases run

theorem follows_run (run : exec Reception.step (init applId) ops = some s) : s.Follows applId ops := by
  induction ops using List.reverseRecOn generalizing s with
  | nil =>
    cases run
    exact follows_init applId
  | append_singleton ops op ih =>
    rw [exec_append] at run
    obtain ⟨t, before, last⟩ := Option.bind_eq_some_iff.1 run
    obtain ⟨u, stepped, same⟩ := Option.bind_eq_some_iff.1 last
    cases same
    exact (ih before).step stepped

/-! ## The tasklet alone -/

/-- What waits for the driver. -/
def pending (s : Reception) : List Bytes := s.tasklet.inHand ++ s.ap.msgQueue

/-- The tasklet has done everything that waited in `s`, and it is idle. -/
structure Drained (s s' : Reception) (g : Global) : Prop where
  queue : s'.ap.msgQueue = []
  idle : s'.tasklet = .idle
  unscheduled : s'.scheduled = false
  handled : s'.handled = s.handled ++ s.pending
  global : s'.global = g

/-- The tasklet can do so without anybody else. -/
def Drains (s : Reception) (g : Global) : Prop :=
  ∃ turns s', (∀ op ∈ turns, op = .action ∨ op = .turn) ∧ exec Reception.step s turns = some s' ∧ s.Drained s' g

/-- A step of the tasklet drains what the rest drains. -/
theorem Drains.after {t : Reception} {g : Global} (rest : t.Drains g) (own : op = .action ∨ op = .turn)
    (run : s.step op = some t) (kept : t.handled ++ t.pending = s.handled ++ s.pending) : s.Drains g := by
  obtain ⟨turns, s', all, last, queue, idle, unscheduled, handled, global⟩ := rest
  refine ⟨op :: turns, s', List.forall_mem_cons.2 ⟨own, all⟩, ?_, queue, idle, unscheduled, handled.trans kept, global⟩
  rw [exec, run]
  exact last

/-- With nothing in hand the pending messages are those queued. -/
theorem pending_of (none : s.tasklet.inHand = []) : s.pending = s.ap.msgQueue := by
  unfold pending
  rw [none]
  rfl

/-- An idle tasklet without work runs once if it is scheduled. -/
theorem idle_drains (clean : s.ap.info = .NOERR) (idle : s.tasklet = .idle) (empty : s.ap.msgQueue = []) :
    s.Drains s.global := by
  have stays {t : Reception} (idle : t.tasklet = .idle) (empty : t.ap.msgQueue = []) (unscheduled : t.scheduled = false) :
      t.Drains t.global := by
    refine ⟨[], t, fun op mem => (List.not_mem_nil mem).elim, rfl, empty, idle, unscheduled, ?_, rfl⟩
    rw [pending_of (by rw [idle]; rfl), empty, List.append_nil]
  cases scheduled : s.scheduled with
  | false => exact stays idle empty scheduled
  | true =>
    let t : Reception := { s with scheduled := false, tasklet := .fetching }
    have start : s.step .action = some t := by
      show s.taskletAction = _
      rw [taskletAction, scheduled, idle]
    have ended : t.step .turn = some { t with tasklet := .idle } := by
      show some t.getCapiMessage = _
      rw [getCapiMessage_nil (s := t) clean empty]
    have last : Drains { t with tasklet := .idle } s.global := stays rfl empty rfl
    refine (last.after (.inr rfl) ended rfl).after (.inl rfl) start ?_
    rw [pending_of (s := s) (by rw [idle]; rfl)]
    rfl

/-- A turn with a message in hand gives it to the driver. -/
theorem step_handle {msg : Bytes} (handling : s.tasklet = .handling msg) {global : Global}
    (taken : s.global.step (.recv msg) = some global) : s.step .turn =
      some { s with tasklet := .fetching, global := global, handled := s.handled ++ [msg] } := by
  obtain ⟨⟨r, g'⟩, received, same⟩ := Option.map_eq_some_iff.1 taken
  cases same
  show s.capidrvRecvTurn = _
  rw [capidrvRecvTurn, handling]
  show (recvMessage s.global msg).map _ = _
  rw [received]
  rfl

/-- The loop of `capidrv_recv_message`; the induction is on the messages that wait. -/
theorem fetching_drains (clean : s.ap.info = .NOERR) (fetching : s.tasklet = .fetching) {g : Global}
    (takes : exec Global.step s.global (s.ap.msgQueue.map .recv) = some g) : s.Drains g := by
  have turn : s.step .turn = some s.getCapiMessage := by
    show s.capidrvRecvTurn = _
    rw [capidrvRecvTurn, fetching]
  have before : s.pending = s.ap.msgQueue := pending_of (by rw [fetching]; rfl)
  generalize waits : s.ap.msgQueue = queue at takes
  induction queue generalizing s with
  | nil =>
    cases takes
    rw [getCapiMessage_nil clean waits] at turn
    have last : Drains { s with tasklet := .idle } s.global := idle_drains clean rfl waits
    refine last.after (.inr rfl) turn ?_
    rw [before]
    rfl
  | cons msg queue ih =>
    obtain ⟨global, taken, rest⟩ := Option.bind_eq_some_iff.1 takes
    rw [getCapiMessage_cons clean waits] at turn
    have handling : s.getCapiMessage.tasklet = .handling msg := by
      rw [getCapiMessage_cons clean waits]
    have does : s.getCapiMessage.global.step (.recv msg) = some global := by
      rw [getCapiMessage_cons clean waits]
      exact taken
    have handle := step_handle handling does
    rw [getCapiMessage_cons clean waits] at handle
    have last := ih (s := { s with
      ap := ⟨queue, s.ap.info, s.ap.rxPackets + 1,
        s.ap.rxBytes + .ofNat (Kernelcapi.capimsgBytes msg Kernelcapi.CAPI_DATA_B3_IND)⟩
      tasklet := .fetching, global := global, handled := s.handled ++ [msg] }) clean rfl rfl rfl rfl rest
    refine (last.after (.inr rfl) handle (List.append_assoc _ [msg] queue)).after (.inr rfl) turn ?_
    rw [before, waits]
    rfl

/-- Once every device has called, the tasklet alone does all that waits, if the driver can take it. -/
theorem Follows.drains (follows : s.Follows applId ops) (clean : s.ap.info = .NOERR) (silent : ∀ dev, s.owing dev = false)
    {g : Global} (takes : exec Global.step s.global (s.pending.map .recv) = some g) : s.Drains g := by
  cases phase : s.tasklet with
  | idle =>
    have waiting : s.pending = s.ap.msgQueue := pending_of (by rw [phase]; rfl)
    rw [waiting] at takes
    cases scheduled : s.scheduled with
    | false =>
      have asleep : s.mailbox.asleep = true := by
        unfold mailbox
        rw [phase]
      have empty : s.ap.msgQueue = [] := by
        by_contra left
        exact follows.noticed.empty asleep scheduled silent ⟨clean, left⟩
      rw [empty] at takes
      cases takes
      exact idle_drains clean phase empty
    | true =>
      have start : s.step .action = some { s with scheduled := false, tasklet := .fetching } := by
        show s.taskletAction = _
        rw [taskletAction, scheduled, phase]
      have last := fetching_drains (s := { s with scheduled := false, tasklet := .fetching }) clean rfl takes
      refine last.after (.inl rfl) start ?_
      rw [waiting]
      rfl
  | fetching =>
    rw [pending_of (by rw [phase]; rfl)] at takes
    exact fetching_drains clean phase takes
  | handling msg =>
    have waiting : s.pending = msg :: s.ap.msgQueue := by
      unfold pending
      rw [phase]
      rfl
    rw [waiting] at takes
    obtain ⟨global, taken, rest⟩ := Option.bind_eq_some_iff.1 takes
    have last := fetching_drains (s := { s with tasklet := .fetching, global := global, handled := s.handled ++ [msg] })
      clean rfl rest
    refine last.after (.inr rfl) (step_handle phase taken) ?_
    rw [waiting]
    exact List.append_assoc _ [msg] _

end Steps

end Reception

/-- However devices queue messages, report errors and call, and whatever else happens between the turns of the tasklet:
the driver takes the messages in the order in which they were queued, each of them once, and they are counted; nothing is
printed but the first error reported. While messages wait and no error was reported, the tasklet runs, or it is
scheduled, or a device has not called yet; and once all devices have called it takes all of them by itself. -/
theorem messages_handled (applId : UInt16) (ops : List ReceptionOp) (s : Reception)
    (run : exec Reception.step (Reception.init applId) ops = some s) :
    s.Follows applId ops ∧
      (s.ap.info = .NOERR → s.ap.msgQueue ≠ [] →
        s.tasklet ≠ .idle ∨ s.scheduled = true ∨ ∃ dev, s.owing dev = true) ∧
      (s.ap.info = .NOERR → (∀ dev, s.owing dev = false) →
        ∀ g, exec Global.step s.global (s.pending.map .recv) = some g → s.Drains g) := by
  have follows := Reception.follows_run run
  refine ⟨follows, ?_, fun clean silent g takes => follows.drains clean silent takes⟩
  intro clean waits
  cases phase : s.tasklet with
  | idle =>
    have asleep : s.mailbox.asleep = true := by
      unfold Reception.mailbox
      rw [phase]
    exact .inr (follows.noticed ⟨clean, waits⟩ asleep)
  | fetching => exact .inl (by simp)
  | handling msg => exact .inl (by simp)

/-- Two messages for a controller that is not there; the second one comes, with its call, while the first is handled. -/
def calledAgain : List ReceptionOp :=
  [.other (.add 1 2 (.given 7)), .enqueue 1 (controllerMsg CAPI_DISCONNECT_IND 0 [2, 1, 0, 0] [0, 0]), .signal 1, .action,
    .turn, .enqueue 1 (controllerMsg CAPI_DISCONNECT_IND 1 [2, 1, 0, 0] [0, 0]), .signal 1, .turn]

def Reception.afterCalledAgain : Reception := (exec Reception.step (Reception.init 1) calledAgain).getD (Reception.init 1)

theorem messages_handled_calledAgain :
    exec Reception.step (Reception.init 1) calledAgain = some .afterCalledAgain ∧
      Reception.afterCalledAgain.handled = [controllerMsg CAPI_DISCONNECT_IND 0 [2, 1, 0, 0] [0, 0]] ∧
      Reception.afterCalledAgain.ap.msgQueue = [controllerMsg CAPI_DISCONNECT_IND 1 [2, 1, 0, 0] [0, 0]] ∧
      Reception.afterCalledAgain.Drains Reception.afterCalledAgain.global := by
  have run : exec Reception.step (Reception.init 1) calledAgain = some .afterCalledAgain := rfl
  obtain ⟨-, -, drains⟩ := messages_handled 1 calledAgain .afterCalledAgain run
  have silent : ∀ dev, Reception.afterCalledAgain.owing dev = false := by
    intro dev
    have owing : Reception.afterCalledAgain.owing =
        Function.update (Function.update (Function.update (Function.update (fun _ => false) 1 true) 1 false) 1 true) 1 false :=
      rfl
    rw [owing, Function.update_idem, Function.update_idem, Function.update_idem, Function.update_eq_self_iff.2 rfl]
  exact ⟨run, rfl, rfl, drains rfl silent _ rfl⟩

end Capi4Linux.Capidrv
