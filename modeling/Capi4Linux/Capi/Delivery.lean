import Capi4Linux.Capi.Nccis

/-!
# Messages reach the user in order

A message passes two queues: the application's, which the device fills, and
`recvqueue`, which `capi_read` serves. `capi_recv_message` moves messages from
one to the other and hands those of a tty to their minor.
-/

namespace Capi4Linux.Capi
open Bytes Capicore Machine

/-- The messages `capi_recv_message` fetches, each with the file as it is then. -/
def fetchedLoop (env : Env) : Nat → Driver → Nat → List (Skb × Capidev)
  | 0, _, _ => []
  | fuel + 1, s, d =>
    match s.devs d with
    | none => []
    | some cdev =>
      if cdev.ap.info ≠ .NOERR then []
      else
        match cdev.ap.msgQueue with
        | [] => []
        | skb :: msgQueue =>
          (skb, cdev) ::
            match recvOne env (s.setDev d { cdev with ap := { cdev.ap with msgQueue } }) d skb with
            | none => []
            | some s => fetchedLoop env fuel s d

/-- What a call fetches for file `d`: `capi_poll` always, `capi_read` when nothing waits. -/
def fetched (env : Env) (s : Driver) (d : Nat) (always : Bool) : List (Skb × Capidev) :=
  match s.devs d with
  | none => []
  | some cdev =>
    if cdev.ap.id = 0 ∨ (always = false ∧ cdev.recvqueue ≠ []) then []
    else fetchedLoop env (cdev.ap.msgQueue.length + 1) s d

/-- The driver, and what happened to file `d`: the messages a device enqueued, those fetched, and the data returned by
reads. -/
structure Stream where
  driver : Driver
  enqueued : List Skb
  fetched : List (Skb × Capidev)
  returned : List Bytes

/-- The data of a read that succeeds. -/
def readData : Int ⊕ Bytes → List Bytes
  | .inl _ => []
  | .inr data => [data]

def streamStep (env : Env) (d : Nat) (x : Stream) : Op → Option Stream
  | .enqueue e skb => (step env x.driver (.enqueue e skb)).map fun s =>
    { x with driver := s, enqueued := if e = d then x.enqueued ++ [skb] else x.enqueued }
  | .read e count => (capiRead env x.driver e count).map fun (s, result) =>
    if e = d then
      { x with
        driver := s, fetched := x.fetched ++ Capi.fetched env x.driver d false
        returned := x.returned ++ readData result }
    else { x with driver := s }
  | .poll e => (capiPoll env x.driver e).map fun (s, _) =>
    if e = d then { x with driver := s, fetched := x.fetched ++ Capi.fetched env x.driver d true }
    else { x with driver := s }
  | op => (step env x.driver op).map fun s => { x with driver := s }

/-- The fetched messages that are the user's. -/
def kept (fetched : List (Skb × Capidev)) : List Skb :=
  (fetched.filter fun e => ! e.2.diverts e.1).map Prod.fst

/-- What was returned, what waits for a read and what is not fetched are the enqueued messages in their order, less
those that went to a minor when they were fetched. -/
def InOrder (d : Nat) (x : Stream) : Prop :=
  ∃ cdev, x.driver.devs d = some cdev ∧ x.enqueued = x.fetched.map Prod.fst ++ cdev.ap.msgQueue ∧
    x.returned ++ cdev.recvqueue.map Skb.data = (kept x.fetched).map Skb.data

/-! ## One message -/

section Messages

variable {env : Env} {s s' : Driver} {d : Nat} {cdev : Capidev} {skb : Skb}

/-- The message is the last of the file's queue. -/
theorem recvqueueTail_devs (dev : s.devs d = some cdev) (run : recvqueueTail s d skb = some s') :
    s'.devs = Function.update s.devs d (some { cdev with recvqueue := cdev.recvqueue ++ [skb] }) := by
  rw [recvqueueTail_eq dev] at run
  cases run
  rfl

/-- A fetched message is appended to `recvqueue` or goes to a minor. -/
theorem recvOne_queue (dev : s.devs d = some cdev) (run : recvOne env s d skb = some s') :
    (∃ cdev', s'.devs d = some cdev' ∧ cdev'.ap = cdev.ap ∧
      cdev'.recvqueue = cdev.recvqueue ++ if cdev.diverts skb then [] else [skb]) ∧
    ∀ e, e ≠ d → s'.devs e = s.devs e := by
  cases recvOne_cases dev run with
  | @connected s₁ _ other alloc queued =>
    have mine : cdev.diverts skb = false := by simp [Capidev.diverts, other]
    rw [mine, if_neg Bool.false_ne_true]
    obtain ⟨cdev₁, dev₁, ap, recvqueue, files⟩ : ∃ cdev₁, s₁.devs d = some cdev₁ ∧ cdev₁.ap = cdev.ap ∧
        cdev₁.recvqueue = cdev.recvqueue ∧ ∀ e, e ≠ d → s₁.devs e = s.devs e := by
      rcases capincciAlloc_cases dev alloc with ⟨-, rfl⟩ | ⟨np, -, new⟩
      · exact ⟨cdev, dev, rfl, rfl, fun _ _ => rfl⟩
      · refine ⟨{ cdev with nccis := cdev.nccis ++ [np] }, by rw [new.devs, Function.update_self], rfl, rfl, ?_⟩
        intro e apart
        rw [new.devs, Function.update_of_ne apart]
    have devs := recvqueueTail_devs dev₁ queued
    constructor
    · refine ⟨{ cdev₁ with recvqueue := cdev₁.recvqueue ++ [skb] }, by rw [devs, Function.update_self], ap, ?_⟩
      show cdev₁.recvqueue ++ [skb] = _
      rw [recvqueue]
    · intro e apart
      rw [devs, Function.update_of_ne apart, files e apart]
  | diverted _ away _ through =>
    rw [away, if_pos rfl, List.append_nil, through.devs]
    exact ⟨⟨cdev, dev, rfl, rfl⟩, fun _ _ => rfl⟩
  | queued _ mine queued =>
    rw [mine, if_neg Bool.false_ne_true]
    have devs := recvqueueTail_devs dev queued
    constructor
    · exact ⟨{ cdev with recvqueue := cdev.recvqueue ++ [skb] }, by rw [devs, Function.update_self], rfl, rfl⟩
    · intro e apart
      rw [devs, Function.update_of_ne apart]

/-- The first message is kept unless it is for a minor. -/
theorem kept_cons (e : Skb × Capidev) (rest : List (Skb × Capidev)) :
    kept (e :: rest) = (if e.2.diverts e.1 then [] else [e.1]) ++ kept rest := by
  unfold kept
  rw [List.filter_cons]
  cases e.2.diverts e.1 <;> rfl

theorem kept_append (a b : List (Skb × Capidev)) : kept (a ++ b) = kept a ++ kept b := by
  unfold kept
  rw [List.filter_append, List.map_append]

/-- The loop takes messages off the head of one queue and appends the user's to the other. -/
theorem capiRecvMessageLoop_queue {fuel : Nat} (dev : s.devs d = some cdev)
    (run : capiRecvMessageLoop env fuel s d = some s') :
    (∃ cdev', s'.devs d = some cdev' ∧ cdev'.ap.id = cdev.ap.id ∧
      cdev.ap.msgQueue = (fetchedLoop env fuel s d).map Prod.fst ++ cdev'.ap.msgQueue ∧
      cdev'.recvqueue = cdev.recvqueue ++ kept (fetchedLoop env fuel s d)) ∧
    ∀ e, e ≠ d → s'.devs e = s.devs e := by
  induction fuel generalizing s cdev with
  | zero => cases run
  | succ fuel ih =>
    obtain ⟨cdev₀, dev₀, run⟩ := Option.bind_eq_some_iff.mp run
    obtain rfl := Option.some.inj (dev.symm.trans dev₀)
    simp only [fetchedLoop, dev]
    split at run
    · rename_i failed
      cases run
      rw [if_pos failed]
      exact ⟨⟨cdev, dev, rfl, rfl, (List.append_nil _).symm⟩, fun _ _ => rfl⟩
    rename_i fine
    rw [if_neg fine]
    split at run
    · rename_i empty
      cases run
      rw [empty]
      exact ⟨⟨cdev, dev, rfl, empty.symm, (List.append_nil _).symm⟩, fun _ _ => rfl⟩
    · rename_i skb msgQueue queue
      obtain ⟨s₁, first, rest⟩ := Option.bind_eq_some_iff.mp run
      have here : (s.setDev d { cdev with ap := { cdev.ap with msgQueue } }).devs d =
          some { cdev with ap := { cdev.ap with msgQueue } } := Function.update_self _ _ _
      obtain ⟨⟨cdev₁, dev₁, ap, recvqueue⟩, files⟩ := recvOne_queue here first
      obtain ⟨⟨cdev', dev', id, fetch, moved⟩, files'⟩ := ih dev₁ rest
      simp only [queue, first]
      constructor
      · refine ⟨cdev', dev', ?_, ?_, ?_⟩
        · rw [id, ap]
        · rw [List.map_cons, List.cons_append, ← fetch, ap]
        · rw [kept_cons, moved, recvqueue, List.append_assoc]
          rfl
      · intro e apart
        rw [files' e apart, files e apart]
        exact Function.update_of_ne apart _ _

/-- A reception keeps the order of the messages. -/
theorem capiRecvMessage_queue (dev : s.devs d = some cdev) (run : capiRecvMessage env s d = some s') :
    (∃ cdev', s'.devs d = some cdev' ∧ cdev'.ap.id = cdev.ap.id ∧
      cdev.ap.msgQueue = (fetchedLoop env (cdev.ap.msgQueue.length + 1) s d).map Prod.fst ++ cdev'.ap.msgQueue ∧
      cdev'.recvqueue = cdev.recvqueue ++ kept (fetchedLoop env (cdev.ap.msgQueue.length + 1) s d)) ∧
    ∀ e, e ≠ d → s'.devs e = s.devs e := by
  obtain ⟨cdev₀, dev₀, run⟩ := Option.bind_eq_some_iff.mp run
  obtain rfl := Option.some.inj (dev.symm.trans dev₀)
  exact capiRecvMessageLoop_queue dev run

end Messages

/-! ## Calls -/

section Calls

variable {env : Env} {s s' : Driver} {d : Nat} {cdev : Capidev}

/-- Without an application or with messages left nothing is fetched. -/
theorem fetched_none {always : Bool} (dev : s.devs d = some cdev)
    (idle : cdev.ap.id = 0 ∨ (always = false ∧ cdev.recvqueue ≠ [])) : fetched env s d always = [] := by
  rw [fetched, dev]
  exact if_pos idle

theorem fetched_loop {always : Bool} (dev : s.devs d = some cdev)
    (busy : ¬ (cdev.ap.id = 0 ∨ (always = false ∧ cdev.recvqueue ≠ []))) :
    fetched env s d always = fetchedLoop env (cdev.ap.msgQueue.length + 1) s d := by
  rw [fetched, dev]
  exact if_neg busy

/-- A read fetches when nothing waits, then takes the head of `recvqueue` or leaves it. -/
theorem capiRead_queue {count : Nat} {result : Int ⊕ Bytes} (dev : s.devs d = some cdev)
    (run : capiRead env s d count = some (s', result)) :
    (∃ cdev', s'.devs d = some cdev' ∧ cdev'.ap.id = cdev.ap.id ∧
      cdev.ap.msgQueue = (fetched env s d false).map Prod.fst ++ cdev'.ap.msgQueue ∧
      readData result ++ cdev'.recvqueue.map Skb.data =
        cdev.recvqueue.map Skb.data ++ (kept (fetched env s d false)).map Skb.data) ∧
    ∀ e, e ≠ d → s'.devs e = s.devs e := by
  obtain ⟨cdev₀, dev₀, run⟩ := Option.bind_eq_some_iff.mp run
  obtain rfl := Option.some.inj (dev.symm.trans dev₀)
  split at run
  · rename_i unregistered
    cases run
    rw [fetched_none dev (.inl unregistered)]
    exact ⟨⟨cdev, dev, rfl, rfl, (List.append_nil _).symm⟩, fun _ _ => rfl⟩
  rename_i registered
  obtain ⟨s₁, fetch, run⟩ := Option.bind_eq_some_iff.mp run
  obtain ⟨⟨cdev₁, dev₁, id, left, moved⟩, files⟩ : (∃ cdev', s₁.devs d = some cdev' ∧ cdev'.ap.id = cdev.ap.id ∧
      cdev.ap.msgQueue = (fetched env s d false).map Prod.fst ++ cdev'.ap.msgQueue ∧
      cdev'.recvqueue = cdev.recvqueue ++ kept (fetched env s d false)) ∧ ∀ e, e ≠ d → s₁.devs e = s.devs e := by
    split at fetch
    · rename_i empty
      rw [fetched_loop dev (by simp [registered, empty])]
      exact capiRecvMessage_queue dev fetch
    · rename_i waiting
      cases fetch
      rw [fetched_none dev (.inr ⟨rfl, waiting⟩)]
      exact ⟨⟨cdev, dev, rfl, rfl, (List.append_nil _).symm⟩, fun _ _ => rfl⟩
  have moved_data : cdev₁.recvqueue.map Skb.data =
      cdev.recvqueue.map Skb.data ++ (kept (fetched env s d false)).map Skb.data := by
    rw [moved, List.map_append]
  obtain ⟨cdev₂, dev₂, run⟩ := Option.bind_eq_some_iff.mp run
  obtain rfl := Option.some.inj (dev₁.symm.trans dev₂)
  split at run
  · cases run
    exact ⟨⟨cdev₁, dev₁, id, left, moved_data⟩, files⟩
  rename_i skb recvqueue queue
  split at run
  · cases run
    exact ⟨⟨cdev₁, dev₁, id, left, moved_data⟩, files⟩
  simp only at run
  split at run
  · cases run
    exact ⟨⟨cdev₁, dev₁, id, left, moved_data⟩, files⟩
  · cases run
    constructor
    · refine ⟨{ cdev₁ with recvqueue }, Function.update_self _ _ _, id, left, ?_⟩
      rw [← moved_data, queue]
      rfl
    · intro e apart
      exact (Function.update_of_ne apart _ _).trans (files e apart)

/-- A poll keeps the order of the messages. -/
theorem capiPoll_queue {ready : Bool} (dev : s.devs d = some cdev) (run : capiPoll env s d = some (s', ready)) :
    (∃ cdev', s'.devs d = some cdev' ∧ cdev'.ap.id = cdev.ap.id ∧
      cdev.ap.msgQueue = (fetched env s d true).map Prod.fst ++ cdev'.ap.msgQueue ∧
      cdev'.recvqueue = cdev.recvqueue ++ kept (fetched env s d true)) ∧
    ∀ e, e ≠ d → s'.devs e = s.devs e := by
  obtain ⟨cdev₀, dev₀, run⟩ := Option.bind_eq_some_iff.mp run
  obtain rfl := Option.some.inj (dev.symm.trans dev₀)
  split at run
  · rename_i unregistered
    cases run
    rw [fetched_none dev (.inl unregistered)]
    exact ⟨⟨cdev, dev, rfl, rfl, (List.append_nil _).symm⟩, fun _ _ => rfl⟩
  rename_i registered
  rw [fetched_loop dev (by simp [registered])]
  obtain ⟨s₁, fetch, run⟩ := Option.bind_eq_some_iff.mp run
  obtain ⟨cdev₁, -, run⟩ := Option.bind_eq_some_iff.mp run
  cases run
  exact capiRecvMessage_queue dev fetch

/-- The number and the queues of file `d` stay. -/
def SameQueues (d : Nat) (s s' : Driver) : Prop :=
  ∀ cdev, s.devs d = some cdev → ∃ cdev', s'.devs d = some cdev' ∧ cdev'.ap.id = cdev.ap.id ∧
    cdev'.ap.msgQueue = cdev.ap.msgQueue ∧ cdev'.recvqueue = cdev.recvqueue

/-- A file that does not change has its queues. -/
theorem SameQueues.of_devs (same : s'.devs d = s.devs d) : SameQueues d s s' :=
  fun cdev dev => ⟨cdev, same.trans dev, rfl, rfl, rfl⟩

/-- A change of another file leaves the queues. -/
theorem SameQueues.setDev {e : Nat} {cdev' : Capidev} (dev : s.devs e = some cdev)
    (same : e = d → cdev'.ap.id = cdev.ap.id ∧ cdev'.ap.msgQueue = cdev.ap.msgQueue ∧ cdev'.recvqueue = cdev.recvqueue) :
    SameQueues d s (s.setDev e cdev') := by
  intro cdev₀ dev₀
  by_cases here : e = d
  · subst here
    obtain rfl := Option.some.inj (dev.symm.trans dev₀)
    exact ⟨cdev', Function.update_self _ _ _, same rfl⟩
  · exact ⟨cdev₀, (Function.update_of_ne (Ne.symm here) _ _).trans dev₀, rfl, rfl, rfl⟩

theorem capiWrite_queues {e : Nat} {buf : Bytes} {result : Int} (run : capiWrite env s e buf = some (s', result)) :
    SameQueues d s s' := by
  obtain ⟨cdev, dev, -⟩ := Option.bind_eq_some_iff.mp run
  by_cases unregistered : cdev.ap.id = 0
  · simp only [capiWrite, dev, Option.bind_eq_bind, Option.bind_some, if_pos unregistered] at run
    cases run
    exact .of_devs rfl
  cases capiWrite_wrote dev unregistered run with
  | failed => exact .of_devs rfl
  | invalid => exact .of_devs rfl
  | @put s₁ _ _ prepared =>
    have frame := (putCapiMessage_minors s₁ e (withApplId buf cdev.ap.id) (env.put s.tick)).1
    have devs := prepare_devs prepared dev
    intro cdev₀ dev₀
    by_cases here : d = e
    · subst here
      obtain rfl := Option.some.inj (dev.symm.trans dev₀)
      exact ⟨_, Function.update_self _ _ _, rfl, rfl, rfl⟩
    · refine ⟨cdev₀, ?_, rfl, rfl, rfl⟩
      show Function.update (putCapiMessage s₁ e (withApplId buf cdev.ap.id) (env.put s.tick)).devs e _ d = _
      rw [Function.update_of_ne here, frame, devs, Function.update_of_ne here]
      exact dev₀

/-- A call that is no fetch, and neither registers nor closes the file, leaves its queues alone. -/
theorem step_queues (wired : Wired s) {op : Op} (dev : s.devs d = some cdev) (registered : cdev.ap.id ≠ 0)
    (fetches : ∀ e n, op ≠ .read e n ∧ op ≠ .poll e) (arrival : ∀ skb, op ≠ .enqueue d skb) (staying : op ≠ .release d)
    (run : step env s op = some s') : SameQueues d s s' := by
  cases op with
  | openFile =>
    cases run
    have apart : d ≠ s.devNext := by
      rintro rfl
      cases dev.symm.trans (wired.freshDev _ (Nat.le_refl _))
    unfold capidevAlloc
    simp only
    split
    · exact .of_devs rfl
    · exact .of_devs (Function.update_of_ne apart _ _)
  | ioctlRegister e info id =>
    obtain ⟨⟨s₁, result⟩, call, rfl⟩ := Option.map_eq_some_iff.mp run
    obtain ⟨cdev₀, dev₀, call⟩ := Option.bind_eq_some_iff.mp call
    split at call
    · cases call
      exact .of_devs rfl
    rename_i unregistered
    have apart : e ≠ d := by
      rintro rfl
      obtain rfl := Option.some.inj (dev.symm.trans dev₀)
      exact unregistered registered
    split at call
    · cases call
      exact .setDev dev₀ fun here => absurd here apart
    · cases call
      exact .setDev dev₀ fun here => absurd here apart
  | ioctlFlags e set userflags =>
    obtain ⟨cdev₀, dev₀, run⟩ := Option.bind_eq_some_iff.mp run
    cases run
    exact .setDev dev₀ fun _ => ⟨rfl, rfl, rfl⟩
  | enqueue e skb =>
    have apart : e ≠ d := by
      rintro rfl
      exact arrival skb rfl
    obtain ⟨cdev₀, dev₀, run⟩ := Option.bind_eq_some_iff.mp run
    cases run
    exact .setDev dev₀ fun here => absurd here apart
  | signalError e info =>
    obtain ⟨cdev₀, dev₀, run⟩ := Option.bind_eq_some_iff.mp run
    cases run
    exact .setDev dev₀ fun _ => ⟨rfl, rfl, rfl⟩
  | read e count => exact absurd rfl (fetches e count).1
  | poll e => exact absurd rfl (fetches e 0).2
  | write e buf =>
    obtain ⟨⟨s₁, result⟩, call, rfl⟩ := Option.map_eq_some_iff.mp run
    exact capiWrite_queues call
  | release e =>
    have apart : d ≠ e := by
      rintro rfl
      exact staying rfl
    exact .of_devs (capidevFree_others run d apart)
  | ttyOpen tty => exact .of_devs (congrFun (ttyOpen_devs run) d)
  | ttyClose tty => exact .of_devs (congrFun (ttyClose_devs run) d)
  | ttyWrite tty fromUser buf =>
    obtain ⟨⟨s₁, result⟩, call, rfl⟩ := Option.map_eq_some_iff.mp run
    exact .of_devs (congrFun (capincTtyWrite_call call).devs d)
  | ttyPutChar tty ch => exact .of_devs (congrFun (capincTtyPutChar_call run 0).devs d)
  | ttyFlushChars tty => exact .of_devs (congrFun (capincTtyFlushChars_call run 0).devs d)
  | ttyThrottle tty => exact .of_devs (congrFun (capincTtyThrottle_call run 0).devs d)
  | ttyUnthrottle tty => exact .of_devs (congrFun (capincTtyUnthrottle_call run 0).devs d)
  | ttyStop tty => exact .of_devs (congrFun (capincTtyStop_call run 0).devs d)
  | ttyStart tty => exact .of_devs (congrFun (capincTtyStart_call run 0).devs d)

/-- The records are linked, and the registered file `d` has delivered in order. -/
structure Streaming (d : Nat) (x : Stream) : Prop where
  wired : Wired x.driver
  registered : ∃ cdev, x.driver.devs d = some cdev ∧ cdev.ap.id ≠ 0 ∧
    x.enqueued = x.fetched.map Prod.fst ++ cdev.ap.msgQueue ∧
    x.returned ++ cdev.recvqueue.map Skb.data = (kept x.fetched).map Skb.data

theorem Streaming.inOrder {x : Stream} (streaming : Streaming d x) : InOrder d x := by
  obtain ⟨cdev, dev, -, arrived, out⟩ := streaming.registered
  exact ⟨cdev, dev, arrived, out⟩

/-- Nothing was moved or returned. -/
theorem Streaming.idle {x : Stream} (streaming : Streaming d x) (wired : Wired s') (same : SameQueues d x.driver s') :
    Streaming d { x with driver := s' } := by
  obtain ⟨cdev, dev, registered, arrived, out⟩ := streaming.registered
  obtain ⟨cdev', dev', id, msgQueue, recvqueue⟩ := same cdev dev
  refine ⟨wired, cdev', dev', by rw [id]; exact registered, ?_, ?_⟩
  · rw [msgQueue]
    exact arrived
  · rw [recvqueue]
    exact out

/-- Messages were fetched, and a read may have returned the first that waits. -/
theorem Streaming.fetch {x : Stream} (streaming : Streaming d x) (wired : Wired s') {new : List (Skb × Capidev)}
    {data : List Bytes}
    (moved : ∀ cdev, x.driver.devs d = some cdev → ∃ cdev', s'.devs d = some cdev' ∧ cdev'.ap.id = cdev.ap.id ∧
      cdev.ap.msgQueue = new.map Prod.fst ++ cdev'.ap.msgQueue ∧
      data ++ cdev'.recvqueue.map Skb.data = cdev.recvqueue.map Skb.data ++ (kept new).map Skb.data) :
    Streaming d { x with driver := s', fetched := x.fetched ++ new, returned := x.returned ++ data } := by
  obtain ⟨cdev, dev, registered, arrived, out⟩ := streaming.registered
  obtain ⟨cdev', dev', id, left, taken⟩ := moved cdev dev
  refine ⟨wired, cdev', dev', by rw [id]; exact registered, ?_, ?_⟩
  · show x.enqueued = (x.fetched ++ new).map Prod.fst ++ _
    rw [arrived, left, List.map_append, List.append_assoc]
  · show x.returned ++ data ++ _ = (kept (x.fetched ++ new)).map Skb.data
    rw [List.append_assoc, taken, ← List.append_assoc, out, kept_append, List.map_append]

/-- Every step but the release keeps streaming. -/
theorem Streaming.step {x x' : Stream} (streaming : Streaming d x) {op : Op} (staying : op ≠ .release d)
    (run : streamStep env d x op = some x') : Streaming d x' := by
  have other (fetches : ∀ e n, op ≠ .read e n ∧ op ≠ .poll e) (arrival : ∀ e skb, op ≠ .enqueue e skb) {s' : Driver}
      (call : Capi.step env x.driver op = some s') : Streaming d { x with driver := s' } := by
    obtain ⟨cdev, dev, registered, -⟩ := streaming.registered
    exact streaming.idle (streaming.wired.step call)
      (step_queues streaming.wired dev registered fetches (arrival d) staying call)
  cases op with
  | openFile =>
    cases run
    exact other (fun _ _ => ⟨nofun, nofun⟩) (fun _ _ => nofun) rfl
  | enqueue e skb =>
    obtain ⟨s', call, rfl⟩ := Option.map_eq_some_iff.mp run
    have wired := streaming.wired.step call
    obtain ⟨cdev, dev, registered, arrived, out⟩ := streaming.registered
    by_cases here : e = d
    · subst here
      obtain ⟨cdev₀, dev₀, call⟩ := Option.bind_eq_some_iff.mp call
      obtain rfl := Option.some.inj (dev.symm.trans dev₀)
      cases call
      rw [if_pos rfl]
      refine ⟨wired, _, Function.update_self _ _ _, registered, ?_, out⟩
      show x.enqueued ++ [skb] = _ ++ (cdev.ap.msgQueue ++ [skb])
      rw [arrived, List.append_assoc]
    · rw [if_neg here]
      apply streaming.idle wired
      apply step_queues streaming.wired dev registered _ _ staying call
      · intro e n
        exact ⟨nofun, nofun⟩
      · intro skb' same
        cases same
        exact here rfl
  | read e count =>
    obtain ⟨⟨s', result⟩, call, rfl⟩ := Option.map_eq_some_iff.mp run
    have wired := streaming.wired.capiRead call
    simp only
    by_cases here : e = d
    · subst here
      rw [if_pos rfl]
      apply streaming.fetch wired
      intro cdev dev
      exact (capiRead_queue dev call).1
    · rw [if_neg here]
      apply streaming.idle wired
      obtain ⟨cdev, dev, -⟩ := Option.bind_eq_some_iff.mp call
      exact .of_devs ((capiRead_queue dev call).2 d (Ne.symm here))
  | poll e =>
    obtain ⟨⟨s', ready⟩, call, rfl⟩ := Option.map_eq_some_iff.mp run
    have wired := streaming.wired.capiPoll call
    simp only
    by_cases here : e = d
    · subst here
      rw [if_pos rfl, ← List.append_nil x.returned]
      apply streaming.fetch wired
      intro cdev dev
      obtain ⟨cdev', dev', id, left, moved⟩ := (capiPoll_queue dev call).1
      refine ⟨cdev', dev', id, left, ?_⟩
      rw [moved, List.map_append]
      rfl
    · rw [if_neg here]
      apply streaming.idle wired
      obtain ⟨cdev, dev, -⟩ := Option.bind_eq_some_iff.mp call
      exact .of_devs ((capiPoll_queue dev call).2 d (Ne.symm here))
  | _ =>
    obtain ⟨s', call, rfl⟩ := Option.map_eq_some_iff.mp run
    exact other (fun _ _ => ⟨nofun, nofun⟩) (fun _ _ => nofun) call

end Calls

/-- From any state a run reaches, with nothing enqueued yet for a registered file: until the file is closed its messages
are returned in order. -/
theorem delivered_in_order (env : Env) {before : List Op} {s : Driver} (reached : exec (step env) .init before = some s)
    {d : Nat} {cdev : Capidev} (dev : s.devs d = some cdev) (registered : cdev.ap.id ≠ 0)
    (quiet : cdev.ap.msgQueue = []) (empty : cdev.recvqueue = []) {ops : List Op} (staying : ∀ op ∈ ops, op ≠ .release d) :
    Always (streamStep env d) (InOrder d) ⟨s, [], [], []⟩ ops := by
  have start : Streaming d ⟨s, [], [], []⟩ := by
    refine ⟨wired_reached reached, cdev, dev, registered, ?_, ?_⟩
    · rw [quiet]
      rfl
    · rw [empty]
      rfl
  have always : Always (streamStep env d) (Streaming d) ⟨s, [], [], []⟩ ops := by
    apply @always_of_inv _ _ _ (Streaming d) (fun _ op => op ≠ .release d) _ _ _ start (.of_mem staying _)
    intro x op x' streaming staying run
    exact streaming.step staying run
  exact always.mono fun x streaming => streaming.inOrder

/-- A message from a device. -/
def Skb.ofDevice (data : Bytes) : Skb := { data, tailroom := 0, beyond := fun _ => 0 }

/-- A read that is too short fails, the next one returns the message; the data of the tty is not the user's. -/
theorem delivered_in_order_short_read : ∃ s, exec (step .granting) .init (hangup.take 3) = some s ∧
    Always (streamStep .granting 0) (InOrder 0) ⟨s, [], [], []⟩
      [.enqueue 0 (.ofDevice (messageOf CAPI_CONNECT_B3_IND)), .read 0 3,
        .enqueue 0 (.ofDevice (messageOf (CAPI_DATA_B3, CAPI_IND))), .poll 0, .read 0 100] := by
  obtain ⟨s, cdev, run, dev, id, quiet, empty⟩ : ∃ s cdev, exec (step .granting) .init (hangup.take 3) = some s ∧
      s.devs 0 = some cdev ∧ cdev.ap.id = 1 ∧ cdev.ap.msgQueue = [] ∧ cdev.recvqueue = [] :=
    ⟨_, _, rfl, rfl, rfl, rfl, rfl⟩
  have registered : cdev.ap.id ≠ 0 := by
    rw [id]
    decide
  refine ⟨s, run, delivered_in_order .granting run dev registered quiet empty ?_⟩
  intro op member
  simp only [List.mem_cons, List.not_mem_nil, or_false] at member
  rcases member with rfl | rfl | rfl | rfl | rfl <;> nofun

end Capi4Linux.Capi
