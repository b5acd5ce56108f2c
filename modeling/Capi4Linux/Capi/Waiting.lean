import Capi4Linux.Capi.Delivery
import Capi4Linux.Lib.Wakeup

/-!
# Waiting for messages

A process that polls a file of /dev/capi20 marks itself as sleeping, puts itself
on `recvwait` and looks for messages, in this order; it sleeps when it has found
none and was not woken since it marked itself. `capi_signal` wakes the processes
on `recvwait`. Any number of processes poll and read. They fetch messages one by
one, and a message that is fetched is in neither queue for a while; everything
else goes on between their steps.
-/

namespace Capi4Linux.Capi
open Bytes Capicore Machine

/-- A call that fetches messages. -/
inductive FileCall where
  | poll
  | read (count : Nat)
  deriving DecidableEq

/-- Where a process is: outside; about to call `capi_poll` for a file, for the first time or once more; about to fetch,
with the message it has fetched, or after the last one; with the message that `capi_read` took off `recvqueue`; or with
nothing found by `capi_poll`. -/
inductive CallPhase where
  | away
  | entering (d : Nat)
  | returning (d : Nat)
  | fetching (call : FileCall) (d : Nat)
  | holding (call : FileCall) (d : Nat) (skb : Skb)
  | fetched (call : FileCall) (d : Nat)
  | copying (count d : Nat) (skb : Skb)
  | checked (d : Nat)

namespace CallPhase

/-- The process is on `recvwait` of file `d`. -/
def onRecvwait : CallPhase → Nat → Bool
  | .returning e, d | .fetching .poll e, d | .holding .poll e _, d | .fetched .poll e, d | .checked e, d => e = d
  | _, _ => false

/-- The process has a message of file `d` in hand. -/
def holds : CallPhase → Nat → Bool
  | .holding _ e _, d | .copying _ e _, d => e = d
  | _, _ => false

/-- The process will sleep on file `d`, but for what `recvqueue` may have. -/
def drowsy : CallPhase → Nat → Bool
  | .fetched .poll e, d | .checked e, d => e = d
  | _, _ => false

end CallPhase

/-- The driver and the processes. A device owes file `d` a call of `capi_appl_signal` from the time it queues something
for it; `woken` says that a process was made runnable since it marked itself as sleeping. -/
structure Waiting where
  driver : Driver
  owing : Nat → Nat → Bool
  phase : Nat → CallPhase
  woken : Nat → Bool

/-- What devices do, what processes do in `poll` and `read`, and all other calls. -/
inductive WaitingOp where
  | enqueue (dev d : Nat) (skb : Skb)
  | error (dev d : Nat) (info : Capinfo0x11)
  | signal (dev d : Nat)
  | enter (pid d : Nat)
  | poll (pid : Nat)
  | read (pid d count : Nat)
  | fetch (pid : Nat)
  | store (pid : Nat)
  | look (pid : Nat)
  | copy (pid : Nat)
  | again (pid : Nat)
  | leave (pid : Nat)
  | call (op : Op)

/-- The operation is taken apart here. -/
def Op.apart : Op → Bool
  | .enqueue _ _ | .signalError _ _ | .read _ _ | .poll _ => true
  | _ => false

namespace Waiting

def init : Waiting := ⟨.init, fun _ _ => false, fun _ => .away, fun _ => false⟩

/-- The device owes file `d` a call. -/
def owes (s : Waiting) (dev d : Nat) : Waiting :=
  { s with owing := Function.update s.owing d (Function.update (s.owing d) dev true) }

/-- `capi_signal`: `wake_up_interruptible`. -/
def capiSignal (s : Waiting) (dev d : Nat) : Waiting :=
  { s with
    owing := Function.update s.owing d (Function.update (s.owing d) dev false)
    woken := fun pid => (s.phase pid).onRecvwait d || s.woken pid }

/-- The process marks itself as sleeping. -/
def sleepy (s : Waiting) (pid : Nat) (phase : CallPhase) : Waiting :=
  { s with phase := Function.update s.phase pid phase, woken := Function.update s.woken pid false }

def goto (s : Waiting) (pid : Nat) (driver : Driver) (phase : CallPhase) : Waiting :=
  { s with driver, phase := Function.update s.phase pid phase }

/-- `capi_poll` up to its call of `capi_recv_message`. -/
def capiPollWait (s : Waiting) (pid d : Nat) : Option Waiting := do
  let cdev ← s.driver.devs d
  if cdev.ap.id = 0 then return s.goto pid s.driver .away
  else return s.goto pid s.driver (.fetching .poll d)

/-- `skb_dequeue` in `capi_read`, and where it goes on when it has found nothing. -/
def skbDequeue (s : Waiting) (pid d count : Nat) (empty : CallPhase) : Option Waiting := do
  let cdev ← s.driver.devs d
  match cdev.recvqueue with
  | [] => return s.goto pid s.driver empty
  | skb :: recvqueue => return s.goto pid (s.driver.setDev d { cdev with recvqueue }) (.copying count d skb)

/-- `capi_read` up to its first `skb_dequeue`. -/
def capiReadFirst (s : Waiting) (pid d count : Nat) : Option Waiting := do
  let cdev ← s.driver.devs d
  if cdev.ap.id = 0 then return s
  else s.skbDequeue pid d count (.fetching (.read count) d)

/-- `get_capi_message` in `capi_recv_message`. -/
def getCapiMessage (s : Waiting) (pid : Nat) (call : FileCall) (d : Nat) : Option Waiting := do
  let cdev ← s.driver.devs d
  if cdev.ap.info ≠ .NOERR then return s.goto pid s.driver (.fetched call d)
  match cdev.ap.msgQueue with
  | [] => return s.goto pid s.driver (.fetched call d)
  | skb :: msgQueue =>
    return s.goto pid (s.driver.setDev d { cdev with ap := { cdev.ap with msgQueue } }) (.holding call d skb)

/-- What comes after `capi_recv_message`: `capi_poll` looks at `recvqueue` and `poll` goes by the result, `capi_read`
takes from it. -/
def afterFetch (s : Waiting) (pid : Nat) : FileCall → Nat → Option Waiting
  | .poll, d => do
    let cdev ← s.driver.devs d
    return s.goto pid s.driver (if cdev.recvqueue = [] then .checked d else .away)
  | .read count, d => s.skbDequeue pid d count .away

/-- The end of `capi_read`; a message that is not copied goes back to the head of `recvqueue`. -/
def capiReadCopy (env : Env) (s : Waiting) (pid count d : Nat) (skb : Skb) : Option Waiting := do
  let cdev ← s.driver.devs d
  let back := s.driver.setDev d { cdev with recvqueue := skb :: cdev.recvqueue }
  if skb.len > count then return s.goto pid back .away
  if env.fault s.driver.tick then return s.goto pid back.asked .away
  return s.goto pid s.driver.asked .away

/-- One step. A process that was woken marks itself again and calls `capi_poll` once more; it may leave at any time, for
a signal or a timeout. -/
def step (env : Env) (s : Waiting) : WaitingOp → Option Waiting
  | .enqueue dev d skb => (enqueueMessage s.driver d skb).map fun driver => { s with driver }.owes dev d
  | .error dev d info => (signalError s.driver d info).map fun driver => { s with driver }.owes dev d
  | .signal dev d => some (s.capiSignal dev d)
  | .enter pid d =>
    match s.phase pid with
    | .away => some (s.sleepy pid (.entering d))
    | _ => none
  | .poll pid =>
    match s.phase pid with
    | .entering d | .returning d => s.capiPollWait pid d
    | _ => none
  | .read pid d count =>
    match s.phase pid with
    | .away => s.capiReadFirst pid d count
    | _ => none
  | .fetch pid =>
    match s.phase pid with
    | .fetching call d => s.getCapiMessage pid call d
    | _ => none
  | .store pid =>
    match s.phase pid with
    | .holding call d skb => (recvOne env s.driver d skb).map fun driver => s.goto pid driver (.fetching call d)
    | _ => none
  | .look pid =>
    match s.phase pid with
    | .fetched call d => s.afterFetch pid call d
    | _ => none
  | .copy pid =>
    match s.phase pid with
    | .copying count d skb => s.capiReadCopy env pid count d skb
    | _ => none
  | .again pid =>
    match s.phase pid, s.woken pid with
    | .checked d, true => some (s.sleepy pid (.returning d))
    | _, _ => none
  | .leave pid =>
    match s.phase pid with
    | .checked _ => some (s.goto pid s.driver .away)
    | _ => none
  | .call op => if op.apart then none else (Capi.step env s.driver op).map fun driver => { s with driver }

end Waiting

/-! ## Queues -/

/-- The `recvqueue` of file `d`. -/
def Driver.recvqueue (s : Driver) (d : Nat) : List Skb :=
  match s.devs d with
  | none => []
  | some cdev => cdev.recvqueue

/-- What `capi_get_message` can see of the queue of file `d`. -/
def Driver.visible (s : Driver) (d : Nat) : List Skb :=
  match s.devs d with
  | none => []
  | some cdev => if cdev.ap.info = .NOERR then cdev.ap.msgQueue else []

/-- File `d` gets no message. -/
structure Driver.Loses (s s' : Driver) (d : Nat) : Prop where
  recvqueue : s'.recvqueue d ≠ [] → s.recvqueue d ≠ []
  visible : s'.visible d ≠ [] → s.visible d ≠ []

section Queues

variable {env : Env} {s s' : Driver} {d e : Nat} {cdev cdev' : Capidev}

/-- The queue of an open file. -/
theorem Driver.recvqueue_eq (dev : s.devs d = some cdev) : s.recvqueue d = cdev.recvqueue := by
  unfold recvqueue
  rw [dev]

/-- What the capicore shows to an open file. -/
theorem Driver.visible_eq (dev : s.devs d = some cdev) :
    s.visible d = if cdev.ap.info = .NOERR then cdev.ap.msgQueue else [] := by
  unfold visible
  rw [dev]

/-- The capicore shows messages when there are some and no error. -/
theorem Driver.visible_ne_nil (dev : s.devs d = some cdev) :
    s.visible d ≠ [] ↔ cdev.ap.info = .NOERR ∧ cdev.ap.msgQueue ≠ [] := by
  rw [visible_eq dev]
  by_cases clean : cdev.ap.info = .NOERR
  · rw [if_pos clean, and_iff_right clean]
  · rw [if_neg clean]
    exact ⟨fun left => absurd rfl left, fun left => absurd left.1 clean⟩

/-- The queue depends on the file only. -/
theorem Driver.recvqueue_congr (same : s'.devs d = s.devs d) : s'.recvqueue d = s.recvqueue d := by
  unfold recvqueue
  rw [same]

theorem Driver.visible_congr (same : s'.devs d = s.devs d) : s'.visible d = s.visible d := by
  unfold visible
  rw [same]

namespace Driver.Loses

/-- A file that does not change gets nothing. -/
theorem of_devs (same : s'.devs d = s.devs d) : Loses s s' d :=
  ⟨fun left => recvqueue_congr same ▸ left, fun left => visible_congr same ▸ left⟩

/-- A file that is gone gets nothing. -/
theorem of_none (gone : s'.devs d = none) : Loses s s' d := by
  constructor
  · intro left
    unfold Driver.recvqueue at left
    rw [gone] at left
    exact absurd rfl left
  · intro left
    unfold Driver.visible at left
    rw [gone] at left
    exact absurd rfl left

/-- A file whose queues get nothing. -/
theorem of_file (dev : s.devs d = some cdev) (dev' : s'.devs d = some cdev')
    (recvqueue : cdev'.recvqueue ≠ [] → cdev.recvqueue ≠ [])
    (visible : cdev'.ap.info = .NOERR → cdev'.ap.msgQueue ≠ [] → cdev.ap.info = .NOERR ∧ cdev.ap.msgQueue ≠ []) :
    Loses s s' d := by
  constructor
  · rw [recvqueue_eq dev, recvqueue_eq dev']
    exact recvqueue
  · rw [visible_ne_nil dev, visible_ne_nil dev']
    exact fun left => visible left.1 left.2

/-- Only one file has changed, and it got no message. -/
theorem setDev (dev : s.devs e = some cdev) (recvqueue : cdev'.recvqueue ≠ [] → cdev.recvqueue ≠ [])
    (visible : cdev'.ap.info = .NOERR → cdev'.ap.msgQueue ≠ [] → cdev.ap.info = .NOERR ∧ cdev.ap.msgQueue ≠ []) :
    Loses s (s.setDev e cdev') d := by
  by_cases here : d = e
  · subst here
    exact of_file dev (Function.update_self _ _ _) recvqueue visible
  · exact of_devs (Function.update_of_ne here _ _)

end Driver.Loses

/-- A write brings no message to any file. -/
theorem capiWrite_loses {buf : Bytes} {result : Int} (run : capiWrite env s e buf = some (s', result)) (d : Nat) :
    Driver.Loses s s' d := by
  obtain ⟨cdev, dev, -⟩ := Option.bind_eq_some_iff.1 run
  by_cases unregistered : cdev.ap.id = 0
  · simp only [capiWrite, dev, Option.bind_eq_bind, Option.bind_some, if_pos unregistered] at run
    cases run
    exact .of_devs rfl
  cases capiWrite_wrote dev unregistered run with
  | failed => exact .of_devs rfl
  | invalid => exact .of_devs rfl
  | @put s₁ _ _ prepared =>
    have frame := (putCapiMessage_minors s₁ e (withApplId buf cdev.ap.id) (env.put s.tick)).1
    have devs := prepare_devs prepared dev
    by_cases here : d = e
    · subst here
      exact .of_file dev (Function.update_self _ _ _) id fun clean left => ⟨clean, left⟩
    · apply Driver.Loses.of_devs
      show Function.update (putCapiMessage s₁ e (withApplId buf cdev.ap.id) (env.put s.tick)).devs e _ d = _
      rw [Function.update_of_ne here, frame, devs, Function.update_of_ne here]
      rfl

/-- A fetched message is stored in its own file, or goes to a minor. -/
theorem recvOne_stores {skb : Skb} (run : recvOne env s d skb = some s') :
    (∀ e, s'.visible e = s.visible e) ∧ ∀ e, e ≠ d → s'.recvqueue e = s.recvqueue e := by
  obtain ⟨cdev, dev⟩ := recvOne_file run
  obtain ⟨⟨cdev', dev', ap, -⟩, files⟩ := recvOne_queue dev run
  refine ⟨fun e => ?_, fun e other => Driver.recvqueue_congr (files e other)⟩
  by_cases here : e = d
  · subst here
    rw [Driver.visible_eq dev, Driver.visible_eq dev', ap]
  · exact Driver.visible_congr (files e here)

/-- Only devices and those that fetch move messages. -/
theorem step_loses {op : Op} (other : op.apart = false) (run : step env s op = some s') (d : Nat) :
    Driver.Loses s s' d := by
  have kept {s' : Driver} (devs : s'.devs = s.devs) : Driver.Loses s s' d := .of_devs (congrFun devs d)
  cases op with
  | openFile =>
    cases run
    unfold capidevAlloc
    simp only
    split
    · exact .of_devs rfl
    · by_cases here : d = s.devNext
      · subst here
        constructor
        · rw [Driver.recvqueue_eq (Function.update_self _ _ _)]
          exact fun left => absurd rfl left
        · rw [Driver.visible_ne_nil (Function.update_self _ _ _)]
          exact fun left => absurd rfl left.2
      · exact .of_devs (Function.update_of_ne here _ _)
  | ioctlRegister e info number =>
    obtain ⟨⟨s₁, result⟩, call, rfl⟩ := Option.map_eq_some_iff.1 run
    obtain ⟨cdev, dev, call⟩ := Option.bind_eq_some_iff.1 call
    split at call
    · cases call
      exact .of_devs rfl
    split at call
    · cases call
      exact .setDev dev id fun _ left => absurd rfl left
    · cases call
      exact .setDev dev id fun clean left => ⟨clean, left⟩
  | ioctlFlags e set userflags =>
    obtain ⟨cdev, dev, run⟩ := Option.bind_eq_some_iff.1 run
    cases run
    exact .setDev dev id fun clean left => ⟨clean, left⟩
  | enqueue => cases other
  | signalError => cases other
  | read => cases other
  | poll => cases other
  | write e buf =>
    obtain ⟨⟨s₁, result⟩, call, rfl⟩ := Option.map_eq_some_iff.1 run
    exact capiWrite_loses call d
  | release e =>
    by_cases here : d = e
    · subst here
      obtain ⟨cdev, dev, run⟩ := Option.bind_eq_some_iff.1 run
      obtain ⟨s₁, free, run⟩ := Option.bind_eq_some_iff.1 run
      cases run
      exact .of_none (Function.update_self _ _ _)
    · exact .of_devs (capidevFree_others run d here)
  | ttyOpen tty => exact kept (ttyOpen_devs run)
  | ttyClose tty => exact kept (ttyClose_devs run)
  | ttyWrite tty fromUser buf =>
    obtain ⟨⟨s₁, result⟩, call, rfl⟩ := Option.map_eq_some_iff.1 run
    exact kept (capincTtyWrite_call call).devs
  | ttyPutChar tty ch => exact kept (capincTtyPutChar_call run 0).devs
  | ttyFlushChars tty => exact kept (capincTtyFlushChars_call run 0).devs
  | ttyThrottle tty => exact kept (capincTtyThrottle_call run 0).devs
  | ttyUnthrottle tty => exact kept (capincTtyUnthrottle_call run 0).devs
  | ttyStop tty => exact kept (capincTtyStop_call run 0).devs
  | ttyStart tty => exact kept (capincTtyStart_call run 0).devs

end Queues

namespace Waiting

/-- There is a message that the readers of file `d` can come by, in a queue or in somebody's hand. -/
def Comes (s : Waiting) (d : Nat) : Prop :=
  s.driver.recvqueue d ≠ [] ∨ s.driver.visible d ≠ [] ∨ ∃ pid, (s.phase pid).holds d = true

/-- File `d` as process `pid` sees it: before it looks at `recvqueue` only what it can still fetch counts. -/
def mailbox (s : Waiting) (pid d : Nat) : Wakeup.Mailbox Nat where
  waiting :=
    match s.phase pid with
    | .checked _ => s.Comes d
    | _ => s.driver.visible d ≠ []
  owing := s.owing d
  called := s.woken pid
  asleep := (s.phase pid).drowsy d

/-- No process sleeps, or is about to, while it should not. -/
def Attentive (s : Waiting) : Prop := ∀ pid d, Wakeup.Noticed (s.mailbox pid d)

/-- When a process finds `recvqueue` empty after its last fetch in `capi_poll`, no process has a message of the file in
hand. -/
def Apart (s : Waiting) : WaitingOp → Prop
  | .look pid => ∀ d, s.phase pid = .fetched .poll d → s.driver.recvqueue d = [] → ∀ q, (s.phase q).holds d = false
  | _ => True

section Steps

variable {env : Env} {s s' : Waiting} {op : WaitingOp} {pid q d e dev : Nat} {driver : Driver} {phase : CallPhase}

/-- A process that is awake has noticed. -/
theorem awake (up : (s.phase pid).drowsy d = false) : Wakeup.Noticed (s.mailbox pid d) := Wakeup.noticed_of_awake up

/-- A process that stays where it is, and for whom nothing comes. -/
theorem Attentive.stays (attentive : s.Attentive) (owing : s'.owing = s.owing) (phase : s'.phase q = s.phase q)
    (woken : s'.woken q = s.woken q) (comes : s'.Comes d → s.Comes d)
    (visible : s'.driver.visible d ≠ [] → s.driver.visible d ≠ []) : Wakeup.Noticed (s'.mailbox q d) := by
  have taken : (s'.mailbox q d).waiting → (s.mailbox q d).waiting := by
    unfold mailbox
    rw [phase]
    cases s.phase q with
    | checked => exact comes
    | _ => exact visible
  have same : s'.mailbox q d = { s.mailbox q d with waiting := (s'.mailbox q d).waiting } := by
    simp only [mailbox, phase, woken, owing]
  rw [same]
  exact (attentive q d).turn (.take _ taken)

/-- No file gets a message. -/
theorem Attentive.loses (attentive : s.Attentive) (loses : ∀ d, Driver.Loses s.driver driver d) :
    { s with driver }.Attentive := by
  intro q d
  refine attentive.stays rfl rfl rfl ?_ (loses d).visible
  rintro (left | left | held)
  · exact .inl ((loses d).recvqueue left)
  · exact .inr (.inl ((loses d).visible left))
  · exact .inr (.inr held)

/-- One process goes on, and perhaps moves a message; nothing comes for the others. -/
theorem Attentive.moves (attentive : s.Attentive) (pid : Nat) (owing : s'.owing = s.owing)
    (others : ∀ q, q ≠ pid → s'.phase q = s.phase q ∧ s'.woken q = s.woken q)
    (visible : ∀ d, s'.driver.visible d ≠ [] → s.driver.visible d ≠ [])
    (comes : ∀ d, s'.driver.recvqueue d ≠ [] ∨ (s'.phase pid).holds d = true →
      s.driver.recvqueue d ≠ [] ∨ s.driver.visible d ≠ [] ∨ (s.phase pid).holds d = true)
    (mine : ∀ d, Wakeup.Noticed (s'.mailbox pid d)) : s'.Attentive := by
  have fewer (d : Nat) : s'.Comes d → s.Comes d := by
    have here : (s.driver.recvqueue d ≠ [] ∨ s.driver.visible d ≠ [] ∨ (s.phase pid).holds d = true) → s.Comes d :=
      Or.imp_right (Or.imp_right fun own => ⟨pid, own⟩)
    rintro (left | left | ⟨q, held⟩)
    · exact here (comes d (.inl left))
    · exact .inr (.inl (visible d left))
    · by_cases own : q = pid
      · exact here (comes d (.inr (own ▸ held)))
      · exact .inr (.inr ⟨q, (others q own).1 ▸ held⟩)
  intro q d
  by_cases own : q = pid
  · subst own
    exact mine d
  exact attentive.stays owing (others q own).1 (others q own).2 (fewer d) (visible d)

/-- The process goes on where it is sent. -/
theorem goto_phase (s : Waiting) (pid : Nat) (driver : Driver) (phase : CallPhase) :
    (s.goto pid driver phase).phase pid = phase :=
  Function.update_self _ _ _

/-- The other processes stay where they are. -/
theorem goto_others (s : Waiting) (pid : Nat) (driver : Driver) (phase : CallPhase) (q : Nat) (other : q ≠ pid) :
    (s.goto pid driver phase).phase q = s.phase q ∧ (s.goto pid driver phase).woken q = s.woken q :=
  ⟨Function.update_of_ne other _ _, rfl⟩

/-- A process that does not go to sleep. -/
theorem Attentive.goto (attentive : s.Attentive) (visible : ∀ d, driver.visible d ≠ [] → s.driver.visible d ≠ [])
    (comes : ∀ d, driver.recvqueue d ≠ [] ∨ phase.holds d = true →
      s.driver.recvqueue d ≠ [] ∨ s.driver.visible d ≠ [] ∨ (s.phase pid).holds d = true)
    (up : ∀ d, phase.drowsy d = false) : (s.goto pid driver phase).Attentive := by
  refine attentive.moves pid rfl (goto_others s pid driver phase) visible (fun d => ?_) fun d => awake ?_
  · rw [goto_phase]
    exact comes d
  · rw [goto_phase]
    exact up d

/-- A process that takes nothing and does not go to sleep. -/
theorem Attentive.goes (attentive : s.Attentive) (empty : ∀ d, phase.holds d = false) (up : ∀ d, phase.drowsy d = false) :
    (s.goto pid s.driver phase).Attentive := by
  refine attentive.goto (fun _ => id) (fun d => ?_) up
  rintro (left | held)
  · exact .inl left
  · exact absurd ((empty d).symm.trans held) Bool.false_ne_true

/-- A process that nobody has woken yet and that takes nothing. -/
theorem Attentive.sleepy (attentive : s.Attentive) (empty : ∀ d, phase.holds d = false) (up : ∀ d, phase.drowsy d = false) :
    (s.sleepy pid phase).Attentive := by
  have own : (s.sleepy pid phase).phase pid = phase := Function.update_self _ _ _
  refine attentive.moves pid rfl (fun q other => ⟨Function.update_of_ne other _ _, Function.update_of_ne other _ _⟩)
    (fun _ => id) (fun d => ?_) fun d => awake ?_
  · rw [own, empty d]
    rintro (left | held)
    · exact .inl left
    · exact absurd held Bool.false_ne_true
  · rw [own]
    exact up d

/-! ### What devices do -/

/-- A device has queued something for file `d`, or put its application in error. -/
theorem Attentive.owes (attentive : s.Attentive) (files : ∀ e, e ≠ d → driver.devs e = s.driver.devs e) :
    ({ s with driver }.owes dev d).Attentive := by
  intro pid e
  by_cases here : e = d
  · subst here
    have same : ({ s with driver }.owes dev e).mailbox pid e = { s.mailbox pid e with
        waiting := (({ s with driver }.owes dev e).mailbox pid e).waiting
        owing := Function.update (s.mailbox pid e).owing dev true } := by
      simp only [mailbox, Waiting.owes, Function.update_self]
    rw [same]
    exact (attentive pid e).turn (.put dev _)
  · have same : ({ s with driver }.owes dev d).mailbox pid e = s.mailbox pid e := by
      simp only [mailbox, Comes, Waiting.owes, Function.update_of_ne here, Driver.visible_congr (files e here),
        Driver.recvqueue_congr (files e here)]
    rw [same]
    exact attentive pid e

/-- A drowsy process is on the wait queue. -/
theorem onRecvwait_of_drowsy (drowsy : phase.drowsy d = true) : phase.onRecvwait d = true := by
  cases phase with
  | fetched call e =>
    cases call with
    | poll => exact drowsy
    | read count => cases drowsy
  | checked e => exact drowsy
  | _ => cases drowsy

/-- A drowsy process is on one wait queue only. -/
theorem onRecvwait_of_other (drowsy : phase.drowsy e = true) (other : e ≠ d) : phase.onRecvwait d = false := by
  cases phase with
  | fetched call f =>
    cases call with
    | poll =>
      rw [← of_decide_eq_true drowsy] at other
      exact decide_eq_false other
    | read count => cases drowsy
  | checked f =>
    rw [← of_decide_eq_true drowsy] at other
    exact decide_eq_false other
  | _ => cases drowsy

/-- A process that sleeps on file `d` is on its `recvwait`, so it is woken. -/
theorem Attentive.capiSignal (attentive : s.Attentive) (dev d : Nat) : (s.capiSignal dev d).Attentive := by
  intro pid e left asleep
  have drowsy : (s.phase pid).drowsy e = true := asleep
  by_cases here : e = d
  · subst here
    apply Or.inl
    show ((s.phase pid).onRecvwait e || s.woken pid) = true
    rw [onRecvwait_of_drowsy drowsy, Bool.true_or]
  · have same : (s.capiSignal dev d).mailbox pid e = s.mailbox pid e := by
      simp only [mailbox, Comes, Waiting.capiSignal, Function.update_of_ne here, onRecvwait_of_other drowsy here,
        Bool.false_or]
    rw [same] at left asleep ⊢
    exact attentive pid e left asleep

/-! ### What processes do -/

/-- A message is taken off `recvqueue`, if there is one. -/
theorem Attentive.skbDequeue (attentive : s.Attentive) {count : Nat} (empty : ∀ d, phase.holds d = false)
    (up : ∀ d, phase.drowsy d = false) (run : s.skbDequeue pid d count phase = some s') : s'.Attentive := by
  obtain ⟨cdev, dev, run⟩ := Option.bind_eq_some_iff.1 run
  split at run
  · cases run
    exact attentive.goes empty up
  · rename_i skb recvqueue queue
    cases run
    have loses (e : Nat) : Driver.Loses s.driver (s.driver.setDev d { cdev with recvqueue }) e :=
      .setDev dev (fun _ => by rw [queue]; exact List.cons_ne_nil _ _) fun clean left => ⟨clean, left⟩
    refine attentive.goto (fun e => (loses e).visible) (fun e => ?_) fun _ => rfl
    rintro (left | held)
    · exact .inl ((loses e).recvqueue left)
    · obtain rfl := of_decide_eq_true held
      apply Or.inl
      rw [Driver.recvqueue_eq dev, queue]
      exact List.cons_ne_nil _ _

/-- There was nothing to fetch. -/
theorem Attentive.fetched (attentive : s.Attentive) (none : s.driver.visible d = []) (call : FileCall) :
    (s.goto pid s.driver (.fetched call d)).Attentive := by
  refine attentive.moves pid rfl (goto_others s pid _ _) (fun _ => id) (fun e => ?_) fun e => ?_
  · rw [goto_phase]
    exact fun comes => comes.imp_right fun held => by cases held
  · by_cases here : e = d
    · subst here
      intro left
      simp only [mailbox, goto_phase] at left
      exact absurd none left
    · apply awake
      rw [goto_phase]
      cases call with
      | poll => exact decide_eq_false fun same => here same.symm
      | read count => rfl

theorem Attentive.getCapiMessage (attentive : s.Attentive) {call : FileCall}
    (run : s.getCapiMessage pid call d = some s') : s'.Attentive := by
  obtain ⟨cdev, dev, run⟩ := Option.bind_eq_some_iff.1 run
  split at run
  · rename_i wrong
    cases run
    refine attentive.fetched ?_ call
    rw [Driver.visible_eq dev, if_neg wrong]
  rename_i clean
  split at run
  · rename_i queue
    cases run
    refine attentive.fetched ?_ call
    rw [Driver.visible_eq dev, queue, ite_self]
  · rename_i skb msgQueue queue
    cases run
    have some : cdev.ap.info = .NOERR ∧ cdev.ap.msgQueue ≠ [] :=
      ⟨not_not.1 clean, by rw [queue]; exact List.cons_ne_nil _ _⟩
    have loses (e : Nat) : Driver.Loses s.driver (s.driver.setDev d { cdev with ap := { cdev.ap with msgQueue } }) e :=
      .setDev dev id fun _ _ => some
    refine attentive.goto (fun e => (loses e).visible) (fun e => ?_) fun _ => rfl
    rintro (left | held)
    · exact .inl ((loses e).recvqueue left)
    · obtain rfl := of_decide_eq_true held
      exact .inr (.inl ((Driver.visible_ne_nil dev).2 some))

/-- The message that was fetched is stored. -/
theorem Attentive.store (attentive : s.Attentive) {call : FileCall} {skb : Skb} (holding : s.phase pid = .holding call d skb)
    (run : recvOne env s.driver d skb = some driver) : (s.goto pid driver (.fetching call d)).Attentive := by
  obtain ⟨visible, recvqueue⟩ := recvOne_stores run
  refine attentive.goto (fun e => visible e ▸ id) (fun e => ?_) fun e => ?_
  · rintro (left | held)
    · by_cases here : e = d
      · subst here
        apply Or.inr
        apply Or.inr
        rw [holding]
        exact decide_eq_true rfl
      · exact .inl (recvqueue e here ▸ left)
    · cases held
  · cases call <;> rfl

/-- A process goes to sleep when nothing waits and nothing is on its way. -/
theorem Attentive.sleeps (attentive : s.Attentive) (fetched : s.phase pid = .fetched .poll d)
    (empty : s.driver.recvqueue d = []) (free : ∀ q, (s.phase q).holds d = false) :
    (s.goto pid s.driver (.checked d)).Attentive := by
  refine attentive.moves pid rfl (goto_others s pid _ _) (fun _ => id) (fun e => ?_) fun e => ?_
  · rw [goto_phase]
    exact fun comes => comes.imp_right fun held => by cases held
  by_cases here : e = d
  case neg =>
    apply awake
    rw [goto_phase]
    exact decide_eq_false fun same => here same.symm
  subst here
  intro left _
  simp only [mailbox, goto_phase] at left
  have visible : (s.mailbox pid e).waiting := by
    simp only [mailbox, fetched]
    rcases left with queued | visible | ⟨q, held⟩
    · exact absurd empty queued
    · exact visible
    · by_cases own : q = pid
      · subst own
        rw [goto_phase] at held
        cases held
      · rw [(goto_others s pid s.driver (.checked e) q own).1] at held
        exact absurd ((free q).symm.trans held) Bool.false_ne_true
  refine attentive pid e visible ?_
  simp only [mailbox, fetched]
  exact decide_eq_true rfl

/-- The look at the queue after the last fetch. -/
theorem Attentive.afterFetch (attentive : s.Attentive) {call : FileCall} (fetched : s.phase pid = .fetched call d)
    (apart : s.Apart (.look pid)) (run : s.afterFetch pid call d = some s') : s'.Attentive := by
  cases call with
  | read count => exact attentive.skbDequeue (fun _ => rfl) (fun _ => rfl) run
  | poll =>
    obtain ⟨cdev, dev, run⟩ := Option.bind_eq_some_iff.1 run
    by_cases empty : cdev.recvqueue = []
    · rw [if_pos empty] at run
      cases run
      have none : s.driver.recvqueue d = [] := (Driver.recvqueue_eq dev).trans empty
      exact attentive.sleeps fetched none (apart d fetched none)
    · rw [if_neg empty] at run
      cases run
      exact attentive.goes (fun _ => rfl) fun _ => rfl

/-- The message is the user's, or it is back. -/
theorem Attentive.capiReadCopy (attentive : s.Attentive) {count : Nat} {skb : Skb}
    (copying : s.phase pid = .copying count d skb) (run : s.capiReadCopy env pid count d skb = some s') : s'.Attentive := by
  obtain ⟨cdev, dev, run⟩ := Option.bind_eq_some_iff.1 run
  have back {driver : Driver}
      (devs : driver.devs = (s.driver.setDev d { cdev with recvqueue := skb :: cdev.recvqueue }).devs) :
      (s.goto pid driver .away).Attentive := by
    have others (e : Nat) (other : e ≠ d) : driver.devs e = s.driver.devs e := by
      rw [devs]
      exact Function.update_of_ne other _ _
    refine attentive.goto (fun e => ?_) (fun e => ?_) fun _ => rfl
    · by_cases here : e = d
      · subst here
        rw [Driver.visible_eq dev, Driver.visible_eq ((congrFun devs e).trans (Function.update_self _ _ _))]
        exact id
      · rw [Driver.visible_congr (others e here)]
        exact id
    · rintro (left | held)
      · by_cases here : e = d
        · subst here
          apply Or.inr
          apply Or.inr
          rw [copying]
          exact decide_eq_true rfl
        · exact .inl (Driver.recvqueue_congr (others e here) ▸ left)
      · cases held
  split at run
  · cases run
    exact back rfl
  split at run
  · cases run
    exact back rfl
  · cases run
    refine attentive.goto (fun _ => id) (fun e => ?_) fun _ => rfl
    exact fun comes => comes.imp_right fun held => by cases held

/-- Every step of a process that keeps apart from the others keeps all attentive. -/
theorem Attentive.step (attentive : s.Attentive) (apart : s.Apart op) (run : s.step env op = some s') : s'.Attentive := by
  cases op with
  | enqueue dev d skb =>
    obtain ⟨driver, enqueued, rfl⟩ := Option.map_eq_some_iff.1 run
    obtain ⟨cdev, file, enqueued⟩ := Option.bind_eq_some_iff.1 enqueued
    cases enqueued
    exact attentive.owes fun e other => Function.update_of_ne other _ _
  | error dev d info =>
    obtain ⟨driver, reported, rfl⟩ := Option.map_eq_some_iff.1 run
    obtain ⟨cdev, file, reported⟩ := Option.bind_eq_some_iff.1 reported
    cases reported
    exact attentive.owes fun e other => Function.update_of_ne other _ _
  | signal dev d =>
    cases run
    exact attentive.capiSignal dev d
  | enter pid d =>
    unfold Waiting.step at run
    simp only at run
    split at run
    · cases run
      exact attentive.sleepy (fun _ => rfl) fun _ => rfl
    · cases run
  | poll pid =>
    have polls {d : Nat} (run : s.capiPollWait pid d = some s') : s'.Attentive := by
      obtain ⟨cdev, file, run⟩ := Option.bind_eq_some_iff.1 run
      split at run
      · cases run
        exact attentive.goes (fun _ => rfl) fun _ => rfl
      · cases run
        exact attentive.goes (fun _ => rfl) fun _ => rfl
    unfold Waiting.step at run
    simp only at run
    split at run
    · exact polls run
    · exact polls run
    · cases run
  | read pid d count =>
    unfold Waiting.step at run
    simp only at run
    split at run
    · obtain ⟨cdev, file, run⟩ := Option.bind_eq_some_iff.1 run
      split at run
      · cases run
        exact attentive
      · exact attentive.skbDequeue (fun _ => rfl) (fun _ => rfl) run
    · cases run
  | fetch pid =>
    unfold Waiting.step at run
    simp only at run
    split at run
    · exact attentive.getCapiMessage run
    · cases run
  | store pid =>
    unfold Waiting.step at run
    simp only at run
    split at run
    · rename_i call d skb holding
      obtain ⟨driver, stored, rfl⟩ := Option.map_eq_some_iff.1 run
      exact attentive.store holding stored
    · cases run
  | look pid =>
    unfold Waiting.step at run
    simp only at run
    split at run
    · rename_i call d fetched
      exact attentive.afterFetch fetched apart run
    · cases run
  | copy pid =>
    unfold Waiting.step at run
    simp only at run
    split at run
    · rename_i count d skb copying
      exact attentive.capiReadCopy copying run
    · cases run
  | again pid =>
    unfold Waiting.step at run
    simp only at run
    split at run
    · cases run
      exact attentive.sleepy (fun _ => rfl) fun _ => rfl
    · cases run
  | leave pid =>
    unfold Waiting.step at run
    simp only at run
    split at run
    · cases run
      exact attentive.goes (fun _ => rfl) fun _ => rfl
    · cases run
  | call op =>
    change (if op.apart then none else _) = some s' at run
    split at run
    · cases run
    · rename_i other
      obtain ⟨driver, called, rfl⟩ := Option.map_eq_some_iff.1 run
      exact attentive.loses (step_loses (Bool.eq_false_iff.2 other) called)

/-! ### Calls that nobody disturbs -/

/-- The last of two moves counts. -/
theorem goto_goto (s : Waiting) (pid : Nat) (driver driver' : Driver) (phase phase' : CallPhase) :
    (s.goto pid driver phase).goto pid driver' phase' = s.goto pid driver' phase' := by
  unfold Waiting.goto
  rw [Function.update_idem]

theorem goto_driver (s : Waiting) (pid : Nat) (driver : Driver) (phase : CallPhase) :
    (s.goto pid driver phase).driver = driver := rfl

/-- A process that is sent where it is. -/
theorem goto_self (s : Waiting) (pid : Nat) : s.goto pid s.driver (s.phase pid) = s := by
  unfold Waiting.goto
  rw [Function.update_eq_self]

/-- The steps of a process in a call. -/
def Own (pid : Nat) (ops : List WaitingOp) : Prop :=
  ∀ op ∈ ops, op = .poll pid ∨ (∃ d count, op = .read pid d count) ∨ op = .fetch pid ∨ op = .store pid ∨ op = .look pid ∨
    op = .copy pid

theorem Own.cons {ops : List WaitingOp} (first : Own pid [op]) (rest : Own pid ops) : Own pid (op :: ops) :=
  List.forall_mem_cons.2 ⟨first op List.mem_cons_self, rest⟩

theorem Own.fetch (pid : Nat) : Own pid [.fetch pid] := by simp [Own]

theorem Own.store (pid : Nat) : Own pid [.store pid] := by simp [Own]

theorem step_fetch (env : Env) {call : FileCall} (fetching : s.phase pid = .fetching call d) :
    s.step env (.fetch pid) = s.getCapiMessage pid call d := by
  simp only [Waiting.step, fetching]

/-- The step that queues a message. -/
theorem step_store (env : Env) {call : FileCall} {skb : Skb} (holding : s.phase pid = .holding call d skb) :
    s.step env (.store pid) =
      (recvOne env s.driver d skb).map fun driver => s.goto pid driver (.fetching call d) := by
  simp only [Waiting.step, holding]

theorem step_look (env : Env) {call : FileCall} (fetched : s.phase pid = .fetched call d) :
    s.step env (.look pid) = s.afterFetch pid call d := by
  simp only [Waiting.step, fetched]

/-- The steps make up `capi_recv_message`; the induction is on the turns of its loop. -/
theorem recvMessage_alone {fuel : Nat} {call : FileCall} (fetching : s.phase pid = .fetching call d)
    (run : capiRecvMessageLoop env fuel s.driver d = some driver) :
    ∃ ops, Own pid ops ∧ exec (Waiting.step env) s ops = some (s.goto pid driver (.fetched call d)) := by
  induction fuel generalizing s with
  | zero => cases run
  | succ fuel ih =>
    obtain ⟨cdev, dev, run⟩ := Option.bind_eq_some_iff.1 run
    have fetch := step_fetch env fetching
    simp only [Waiting.getCapiMessage, dev, Option.bind_eq_bind, Option.bind_some] at fetch
    have ended {t : Waiting} (last : s.step env (.fetch pid) = some t) : exec (Waiting.step env) s [.fetch pid] = some t := by
      rw [exec, last]
      rfl
    split at run
    · rename_i wrong
      cases run
      rw [if_pos wrong] at fetch
      exact ⟨_, .fetch pid, ended fetch⟩
    rename_i clean
    rw [if_neg clean] at fetch
    split at run
    · rename_i queue
      cases run
      rw [queue] at fetch
      exact ⟨_, .fetch pid, ended fetch⟩
    · rename_i skb msgQueue queue
      obtain ⟨driver₁, stored, run⟩ := Option.bind_eq_some_iff.1 run
      rw [queue] at fetch
      have store := step_store env (goto_phase s pid
        (s.driver.setDev d { cdev with ap := { cdev.ap with msgQueue } }) (.holding call d skb))
      rw [Waiting.goto, stored, Option.map_some] at store
      obtain ⟨ops, own, rest⟩ := ih (goto_phase s pid driver₁ (.fetching call d)) run
      rw [goto_goto] at rest
      refine ⟨.fetch pid :: .store pid :: ops, (Own.fetch pid).cons ((Own.store pid).cons own), ?_⟩
      rw [exec, fetch, Option.pure_def, Option.bind_some, exec]
      show ((s.goto pid _ _).step env (.store pid)).bind _ = _
      rw [Waiting.goto, store, Option.bind_some]
      exact (congrArg (fun t => exec (Waiting.step env) t ops) (goto_goto s pid _ driver₁ _ _)).trans rest

/-- Undisturbed, the steps of `capi_poll` make up the call, and its result says where the process is. -/
theorem capiPoll_alone {cdev : Capidev} {ready : Bool} (entering : s.phase pid = .entering d)
    (dev : s.driver.devs d = some cdev) (registered : cdev.ap.id ≠ 0)
    (run : Capi.capiPoll env s.driver d = some (driver, ready)) :
    ∃ ops, Own pid ops ∧
      exec (Waiting.step env) s ops = some (s.goto pid driver (if ready = true then .away else .checked d)) := by
  simp only [Capi.capiPoll, dev, Option.bind_eq_bind, Option.bind_some, if_neg registered] at run
  obtain ⟨driver₁, fetch, run⟩ := Option.bind_eq_some_iff.1 run
  obtain ⟨cdev₁, dev₁, same⟩ := Option.bind_eq_some_iff.1 run
  cases same
  obtain ⟨cdev₀, dev₀, loop⟩ := Option.bind_eq_some_iff.1 fetch
  have poll : s.step env (.poll pid) = some (s.goto pid s.driver (.fetching .poll d)) := by
    simp only [Waiting.step, entering, capiPollWait, dev, Option.bind_eq_bind, Option.bind_some, if_neg registered]
    rfl
  obtain ⟨ops, own, fetches⟩ := recvMessage_alone (goto_phase s pid s.driver (.fetching .poll d)) loop
  rw [goto_goto] at fetches
  have file : (s.goto pid driver (.fetched .poll d)).driver.devs d = some cdev₁ := dev₁
  have look : (s.goto pid driver (.fetched .poll d)).step env (.look pid) =
      some (s.goto pid driver (if cdev₁.recvqueue = [] then .checked d else .away)) := by
    rw [step_look env (goto_phase s pid driver (.fetched .poll d)), Waiting.afterFetch, file, Option.bind_eq_bind,
      Option.bind_some, goto_goto]
    rfl
  refine ⟨.poll pid :: (ops ++ [.look pid]), ?_, ?_⟩
  · intro op mem
    rcases List.mem_cons.1 mem with rfl | mem
    · exact .inl rfl
    rcases List.mem_append.1 mem with mem | mem
    · exact own op mem
    · rw [List.mem_singleton.1 mem]
      simp
  · rw [exec, poll, Option.bind_some, exec_append, fetches, Option.bind_some, exec, look]
    by_cases empty : cdev₁.recvqueue = []
    · simp [exec, empty]
    · simp [exec, empty]

theorem step_copy (env : Env) {count : Nat} {skb : Skb} (copying : s.phase pid = .copying count d skb) :
    s.step env (.copy pid) = s.capiReadCopy env pid count d skb := by
  simp only [Waiting.step, copying]

/-- What `capi_read` makes of the message that it took off `recvqueue`. -/
theorem readCopy_alone (pid : Nat) {cdev : Capidev} {count : Nat} {skb : Skb} {recvqueue : List Skb} {result : Int ⊕ Bytes}
    (dev : s.driver.devs d = some cdev) (queue : cdev.recvqueue = skb :: recvqueue)
    (run : (if skb.len > count then some (s.driver, .inl (-EMSGSIZE))
      else if env.fault s.driver.tick then some (s.driver.asked, .inl (-EFAULT))
      else some (s.driver.asked.setDev d { cdev with recvqueue }, .inr skb.data)) = some (driver, result)) :
    (s.goto pid (s.driver.setDev d { cdev with recvqueue }) (.copying count d skb)).step env (.copy pid) =
      some (s.goto pid driver .away) := by
  have file : (s.goto pid (s.driver.setDev d { cdev with recvqueue }) (.copying count d skb)).driver.devs d =
      some { cdev with recvqueue } := Function.update_self _ _ _
  have back : (s.driver.setDev d { cdev with recvqueue }).setDev d { cdev with recvqueue := skb :: recvqueue } = s.driver := by
    have whole : ({ cdev with recvqueue := skb :: recvqueue } : Capidev) = cdev := by rw [← queue]
    unfold Driver.setDev
    rw [Function.update_idem, whole, ← dev, Function.update_eq_self]
  rw [step_copy env (goto_phase s pid _ (.copying count d skb)), Waiting.capiReadCopy, file, Option.bind_eq_bind,
    Option.bind_some]
  simp only [goto_driver, goto_goto, back]
  have tick : (s.driver.setDev d { cdev with recvqueue }).tick = s.driver.tick := rfl
  rw [tick]
  split at run
  · rename_i long
    cases run
    rw [if_pos long]
    rfl
  rename_i short
  rw [if_neg short]
  split at run
  · rename_i fault
    cases run
    rw [if_pos fault]
    rfl
  · rename_i copied
    cases run
    rw [if_neg copied]
    rfl

theorem skbDequeue_nil {cdev : Capidev} {count : Nat} (dev : s.driver.devs d = some cdev) (queue : cdev.recvqueue = []) :
    s.skbDequeue pid d count phase = some (s.goto pid s.driver phase) := by
  rw [skbDequeue, dev, Option.bind_eq_bind, Option.bind_some, queue]
  rfl

theorem skbDequeue_cons {cdev : Capidev} {count : Nat} {skb : Skb} {recvqueue : List Skb}
    (dev : s.driver.devs d = some cdev) (queue : cdev.recvqueue = skb :: recvqueue) :
    s.skbDequeue pid d count phase =
      some (s.goto pid (s.driver.setDev d { cdev with recvqueue }) (.copying count d skb)) := by
  rw [skbDequeue, dev, Option.bind_eq_bind, Option.bind_some, queue]
  rfl

/-- Undisturbed, the steps of `capi_read` make up the call. -/
theorem capiRead_alone {count : Nat} {result : Int ⊕ Bytes} (away : s.phase pid = .away)
    (run : Capi.capiRead env s.driver d count = some (driver, result)) :
    ∃ ops, Own pid ops ∧ exec (Waiting.step env) s ops = some (s.goto pid driver .away) := by
  have read : s.step env (.read pid d count) = s.capiReadFirst pid d count := by
    simp only [Waiting.step, away]
  obtain ⟨cdev, dev, run⟩ := Option.bind_eq_some_iff.1 run
  unfold capiReadFirst at read
  rw [dev, Option.bind_eq_bind, Option.bind_some] at read
  split at run
  · rename_i unregistered
    cases run
    rw [if_pos unregistered] at read
    refine ⟨[.read pid d count], by simp [Own], ?_⟩
    rw [exec, read, ← away, goto_self]
    rfl
  rename_i registered
  rw [if_neg registered] at read
  obtain ⟨driver₁, fetch, run⟩ := Option.bind_eq_some_iff.1 run
  obtain ⟨cdev₁, dev₁, run⟩ := Option.bind_eq_some_iff.1 run
  cases queue : cdev.recvqueue with
  | cons skb recvqueue =>
    rw [if_neg (by rw [queue]; exact List.cons_ne_nil _ _)] at fetch
    cases fetch
    obtain rfl := Option.some.inj (dev.symm.trans dev₁)
    simp only [queue] at run
    rw [skbDequeue_cons dev queue] at read
    refine ⟨[.read pid d count, .copy pid], by simp [Own], ?_⟩
    rw [exec, read, Option.bind_some, exec, readCopy_alone pid dev queue run]
    rfl
  | nil =>
    rw [if_pos queue] at fetch
    rw [skbDequeue_nil dev queue] at read
    obtain ⟨cdev₀, dev₀, loop⟩ := Option.bind_eq_some_iff.1 fetch
    obtain ⟨ops, own, fetches⟩ := recvMessage_alone (goto_phase s pid s.driver (.fetching (.read count) d)) loop
    rw [goto_goto] at fetches
    have look := step_look env (goto_phase s pid driver₁ (.fetched (.read count) d))
    have file : (s.goto pid driver₁ (.fetched (.read count) d)).driver.devs d = some cdev₁ := dev₁
    have whole {rest : List WaitingOp} (ending : Own pid rest) : Own pid (.read pid d count :: (ops ++ .look pid :: rest)) := by
      intro op mem
      rcases List.mem_cons.1 mem with rfl | mem
      · simp
      rcases List.mem_append.1 mem with mem | mem
      · exact own op mem
      rcases List.mem_cons.1 mem with rfl | mem
      · simp
      · exact ending op mem
    cases queue₁ : cdev₁.recvqueue with
    | nil =>
      simp only [queue₁] at run
      have last : (s.goto pid driver₁ (.fetched (.read count) d)).step env (.look pid) = some (s.goto pid driver₁ .away) := by
        rw [look, Waiting.afterFetch, skbDequeue_nil file queue₁, goto_goto, goto_driver]
      cases run
      refine ⟨.read pid d count :: (ops ++ [.look pid]), whole (by simp [Own]), ?_⟩
      rw [exec, read, Option.bind_some, exec_append, fetches, Option.bind_some, exec, last]
      rfl
    | cons skb recvqueue =>
      simp only [queue₁] at run
      have copy := readCopy_alone pid file queue₁ run
      refine ⟨.read pid d count :: (ops ++ [.look pid, .copy pid]), whole (by simp [Own]), ?_⟩
      rw [exec, read, Option.bind_some, exec_append, fetches, Option.bind_some, exec, look, Waiting.afterFetch,
        skbDequeue_cons file queue₁, Option.bind_some, exec, copy, goto_goto]
      rfl

end Steps

/-- A process that sleeps on a file, with a message that its readers can come by, is about to be woken. -/
def NoWakeupLost (s : Waiting) : Prop :=
  ∀ pid d, s.phase pid = .checked d → s.woken pid = false → s.Comes d → ∃ dev, s.owing d dev = true

theorem Attentive.noWakeupLost {s : Waiting} (attentive : s.Attentive) : s.NoWakeupLost := by
  intro pid d sleeps unwoken comes
  have waiting : (s.mailbox pid d).waiting := by
    simp only [mailbox, sleeps]
    exact comes
  have asleep : (s.mailbox pid d).asleep = true := by
    simp only [mailbox, sleeps]
    exact decide_eq_true rfl
  rcases attentive pid d waiting asleep with woken | owing
  · exact absurd (unwoken.symm.trans woken) Bool.false_ne_true
  · exact owing

end Waiting

/-- However many processes poll and read, and whatever devices and all other calls do between their steps: while a
process sleeps in `poll` on a file, no message comes that the readers of that file can have, be it in its queue in the
capicore, in `recvqueue` or on its way between them, unless the process was woken or a device that has queued something
has not called `capi_appl_signal` yet. Only when it went to sleep no message of the file may have been on its way. -/
theorem no_wakeup_lost (env : Env) (ops : List WaitingOp) (apart : Meets (Waiting.step env) Waiting.Apart .init ops) :
    Always (Waiting.step env) Waiting.NoWakeupLost .init ops := by
  have start : Waiting.init.Attentive := fun pid d => Waiting.awake rfl
  have always := always_of_inv (fun s op s' attentive apart run => attentive.step apart run) start apart
  exact always.mono fun s attentive => attentive.noWakeupLost

/-- Process 1 has found nothing to fetch. -/
def lookedOnce : List WaitingOp :=
  [.call .openFile, .call (.ioctlRegister 0 .NOERR 1), .enter 1 0, .poll 1, .fetch 1]

/-- It sleeps when device 3 queues a message, which process 2 fetches before the device has called. -/
def fetchedMeanwhile : List WaitingOp :=
  [.look 1, .enqueue 3 0 (.ofDevice (messageOf CAPI_CONNECT_B3_IND)), .read 2 0 100, .fetch 2]

theorem no_wakeup_lost_meanwhile :
    Always (Waiting.step .granting) Waiting.NoWakeupLost .init (lookedOnce ++ fetchedMeanwhile) ∧
      (exec (Waiting.step .granting) .init (lookedOnce ++ fetchedMeanwhile)).map
        (fun s => ((s.phase 1).drowsy 0, s.woken 1, (s.phase 2).holds 0, s.owing 0 3)) = some (true, false, true, true) := by
  refine ⟨no_wakeup_lost .granting _ ?_, rfl⟩
  obtain ⟨s, run⟩ : ∃ s, exec (Waiting.step .granting) .init lookedOnce = some s := ⟨_, rfl⟩
  have before : Meets (Waiting.step .granting) Waiting.Apart .init lookedOnce :=
    ⟨trivial, fun _ _ => ⟨trivial, fun _ _ => ⟨trivial, fun _ _ => ⟨trivial, fun _ _ => ⟨trivial, fun _ _ => trivial⟩⟩⟩⟩⟩
  refine before.append run ⟨?_, fun _ _ => ⟨trivial, fun _ _ => ⟨trivial, fun _ _ => ⟨trivial, fun _ _ => trivial⟩⟩⟩⟩
  have phases : (exec (Waiting.step .granting) .init lookedOnce).map Waiting.phase =
      some (Function.update (Function.update (Function.update (fun _ => .away) 1 (.entering 0)) 1 (.fetching .poll 0)) 1
        (.fetched .poll 0)) := rfl
  rw [run, Option.map_some, Option.some.injEq] at phases
  intro d _ _ q
  rw [phases, Function.update_idem, Function.update_idem]
  by_cases own : q = 1
  · rw [own, Function.update_self]
    rfl
  · rw [Function.update_of_ne own]
    rfl

-- the condition is needed: while process 1 looks, the message is in the hand of process 2, which puts it back later
example : (exec (Waiting.step .granting) .init [.call .openFile, .call (.ioctlRegister 0 .NOERR 1),
    .enqueue 3 0 (.ofDevice (messageOf CAPI_CONNECT_B3_IND)), .signal 3 0, .read 2 0 0, .fetch 2, .enter 1 0, .poll 1,
    .fetch 1, .look 1, .store 2, .fetch 2, .look 2, .copy 2]).map (fun s =>
      ((s.phase 1).drowsy 0, s.woken 1, (s.driver.recvqueue 0).length, s.owing 0 3)) = some (true, false, 1, false) := rfl

end Capi4Linux.Capi
