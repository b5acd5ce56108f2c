import Capi4Linux.Capi.Reach

/-!
# The NCCIs of a file

A file's list of NCCIs grows with CONNECT_B3_IND and CONNECT_B3_CONF and shrinks
with DISCONNECT_B3_RESP. `capincci_free` takes the NCCI 0xffffffff for all of
them, and a user may write it.
-/

namespace Capi4Linux.Capi
open Bytes Capicore Machine

/-- A message `capi_recv_message` has fetched, or a call. -/
inductive Event where
  | message (d : Nat) (skb : Skb)
  | call (op : Op)

def eventStep (env : Env) (s : Driver) : Event → Option Driver
  | .message d skb => recvOne env s d skb
  | .call op => step env s op

/-- Messages are fetched one at a time, not by a whole `read` or `poll`. -/
def Event.Allowed (s : Driver) : Event → Prop
  | .message d _ => s.devs d ≠ none
  | .call (.read _ _) | .call (.poll _) => False
  | .call op => Capi.Allowed s op

/-- A step of file `d` that concerns `n` leaves the records of other NCCIs, their minors and other files alone. -/
structure OthersStay (s s' : Driver) (d : Nat) (cdev cdev' : Capidev) (n : UInt32) : Prop where
  records : (cdev'.nccis.filter fun np => np.ncci != n) = cdev.nccis.filter fun np => np.ncci != n
  minors : ∀ np ∈ cdev.nccis, np.ncci ≠ n → ∀ p, np.minorp = some p → s'.minors p = s.minors p
  files : ∀ e, e ≠ d → s'.devs e = s.devs e

/-- What one step does to the NCCIs of the files. -/
def Follows (env : Env) (s : Driver) : Event → Driver → Prop
  | .message d skb, s' => ∀ cdev, s.devs d = some cdev → ∃ cdev', s'.devs d = some cdev' ∧
      (skb.Connects → ∃ np : Capincci, np.ncci = skb.ncci ∧ cdev'.nccis = cdev.nccis ++ [np]) ∧
      (¬ skb.Connects → cdev'.nccis = cdev.nccis) ∧ OthersStay s s' d cdev cdev' skb.ncci
  | .call (.write d buf), s' => ∀ cdev, s.devs d = some cdev → ∃ cdev', s'.devs d = some cdev' ∧
      (∀ result, capiWrite env s d buf = some (s', result) → 0 ≤ result →
        (Skb.ofUser buf (env.slab s.tick)).cmd = CAPI_DISCONNECT_B3_RESP →
        ∀ np ∈ cdev'.nccis, np.ncci ≠ (Skb.ofUser buf (env.slab s.tick)).ncci) ∧
      OthersStay s s' d cdev cdev' (Skb.ofUser buf (env.slab s.tick)).ncci
  | .call (.release d), s' => ∀ e, e ≠ d → s'.devs e = s.devs e
  | .call _, s' => ∀ d cdev, s.devs d = some cdev → ∃ cdev', s'.devs d = some cdev' ∧ cdev'.nccis = cdev.nccis

/-- No DISCONNECT_B3_RESP with the NCCI 0xffffffff is written to a file that has another NCCI. -/
def NamesOne (env : Env) (s : Driver) : Event → Prop
  | .call (.write d buf) => ∀ cdev, s.devs d = some cdev → cdev.ap.id ≠ 0 → Granted env s →
      (Skb.ofUser buf (env.slab s.tick)).claimedLen = buf.length →
      (Skb.ofUser buf (env.slab s.tick)).cmd = CAPI_DISCONNECT_B3_RESP →
      (Skb.ofUser buf (env.slab s.tick)).ncci = 0xffffffff → ∀ np ∈ cdev.nccis, np.ncci = 0xffffffff
  | _ => True

section Steps

variable {env : Env} {s s' : Driver} {d : Nat} {cdev cdev' : Capidev} {n : UInt32}

/-- What is picked from two records of a list without repetitions is picked from one. -/
theorem filterMap_inj {α β : Type} {f : α → Option β} {l : List α} (distinct : (l.filterMap f).Nodup) {a b : α}
    (mema : a ∈ l) (memb : b ∈ l) {x : β} (picka : f a = some x) (pickb : f b = some x) : a = b := by
  induction l with
  | nil => cases mema
  | cons c l ih =>
    have once {y : α} (pick : f y = some x) (later : y ∈ l) : f c ≠ some x := by
      intro first
      rw [List.filterMap_cons, first, List.nodup_cons] at distinct
      exact distinct.1 (List.mem_filterMap.mpr ⟨y, later, pick⟩)
    rcases List.mem_cons.mp mema with rfl | latera
    · rcases List.mem_cons.mp memb with rfl | laterb
      · rfl
      · exact absurd picka (once pickb laterb)
    · rcases List.mem_cons.mp memb with rfl | laterb
      · exact absurd pickb (once picka latera)
      · exact ih (List.Nodup.sublist ((List.sublist_cons_self c l).filterMap f) distinct) latera laterb

/-- Two NCCIs do not share a minor. -/
theorem Wired.minor_apart (wired : Wired s) (dev : s.devs d = some cdev) {np nq : Capincci} (memp : np ∈ cdev.nccis)
    (memq : nq ∈ cdev.nccis) (other : np.ncci ≠ nq.ncci) {p q : Nat} (minorp : np.minorp = some p)
    (minorq : nq.minorp = some q) : p ≠ q := by
  rintro rfl
  apply other
  rw [filterMap_inj (wired.distinct d cdev dev) memp memq minorp minorq]

/-- Nothing was done to the list. -/
theorem OthersStay.same (dev' : s'.devs = Function.update s.devs d (some cdev')) (nccis : cdev'.nccis = cdev.nccis)
    (minors : s'.minors = s.minors) : OthersStay s s' d cdev cdev' n := by
  refine ⟨by rw [nccis], fun _ _ _ p _ => by rw [minors], fun e other => ?_⟩
  rw [dev', Function.update_of_ne other]

/-- A message adds the NCCI of a connection. -/
theorem recvOne_follows (mem : ∀ t, env.kmalloc t = true) (wired : Wired s) {skb : Skb}
    (run : recvOne env s d skb = some s') : Follows env s (.message d skb) s' := by
  intro cdev dev
  cases recvOne_cases dev run with
  | @connected s₁ connects _ alloc queued =>
    rcases capincciAlloc_cases dev alloc with ⟨full, -⟩ | ⟨np, ncci, new⟩
    · cases (mem _).symm.trans full
    · have here : s₁.devs d = some { cdev with nccis := cdev.nccis ++ [np] } := by rw [new.devs, Function.update_self]
      rw [recvqueueTail_eq here] at queued
      cases queued
      refine ⟨_, Function.update_self _ _ _, fun _ => ⟨np, ncci, rfl⟩, fun other => absurd connects other, ?_, ?_, ?_⟩
      · simp [ncci]
      · intro nq memq _ q minorq
        obtain ⟨mq, live, -⟩ := wired.owned d cdev nq q dev memq minorq
        apply new.others
        have aged := wired.aged live
        omega
      · intro e other
        show Function.update s₁.devs d _ e = _
        rw [Function.update_of_ne other, new.devs, Function.update_of_ne other]
  | diverted other _ found through =>
    refine ⟨cdev, by rw [through.devs, dev], fun connects => absurd connects other, fun _ => rfl, rfl, ?_, ?_⟩
    · intro nq memq apart q minorq
      obtain ⟨np, first, minorp⟩ := Option.bind_eq_some_iff.mp found
      have named : np.ncci = skb.ncci := by simpa using List.find?_some first
      apply through.others
      apply wired.minor_apart dev memq (List.mem_of_find?_eq_some first) _ minorq minorp
      rw [named]
      exact apart
    · intro e _
      rw [through.devs]
  | queued other _ queued =>
    rw [recvqueueTail_eq dev] at queued
    cases queued
    exact ⟨_, Function.update_self _ _ _, fun connects => absurd connects other, fun _ => rfl, .same rfl rfl rfl⟩

/-- A record that keeps the NCCI it has stays. -/
theorem filter_leaves {skb : Skb} {nccis : List Capincci}
    (one : skb.cmd = CAPI_DISCONNECT_B3_RESP → skb.ncci = 0xffffffff → ∀ np ∈ nccis, np.ncci = 0xffffffff) :
    ((skb.leaves nccis).filter fun np => np.ncci != skb.ncci) = nccis.filter fun np => np.ncci != skb.ncci := by
  unfold Skb.leaves
  split
  · rename_i resp
    rw [List.filter_filter]
    apply List.filter_congr
    intro np member
    by_cases all : skb.ncci = 0xffffffff
    · simp [all, one resp all np member]
    · simp [Capincci.taken, all]
  · rfl

/-- A write removes the NCCI that it names. -/
theorem capiWrite_follows (wired : Wired s) {buf : Bytes} {result : Int}
    (run : capiWrite env s d buf = some (s', result)) (one : NamesOne env s (.call (.write d buf))) :
    Follows env s (.call (.write d buf)) s' := by
  intro cdev dev
  by_cases unregistered : cdev.ap.id = 0
  · simp only [capiWrite, dev, Option.bind_eq_bind, Option.bind_some, if_pos unregistered] at run
    cases run
    refine ⟨cdev, dev, fun result call positive => ?_, rfl, fun _ _ _ _ _ => rfl, fun _ _ => rfl⟩
    simp only [capiWrite, dev, Option.bind_eq_bind, Option.bind_some, if_pos unregistered] at call
    cases call
    cases positive
  have early {err : Int} (negative : err < 0) (call : capiWrite env s d buf = some (s', err))
      (asked : s' = s.asked) : ∃ cdev', s'.devs d = some cdev' ∧
        (∀ result, capiWrite env s d buf = some (s', result) → 0 ≤ result →
          (Skb.ofUser buf (env.slab s.tick)).cmd = CAPI_DISCONNECT_B3_RESP →
          ∀ np ∈ cdev'.nccis, np.ncci ≠ (Skb.ofUser buf (env.slab s.tick)).ncci) ∧
        OthersStay s s' d cdev cdev' (Skb.ofUser buf (env.slab s.tick)).ncci := by
    subst asked
    refine ⟨cdev, dev, fun result again positive => ?_, rfl, fun _ _ _ _ _ => rfl, fun _ _ => rfl⟩
    cases call.symm.trans again
    omega
  cases capiWrite_wrote dev unregistered run with
  | failed _ negative => exact early negative run rfl
  | invalid => exact early (by decide) run rfl
  | @put s₁ granted framed prepared =>
    have one' := one cdev dev unregistered granted framed
    have devs := prepare_devs prepared dev
    have frame := putCapiMessage_minors s₁ d (withApplId buf cdev.ap.id) (env.put s.tick)
    refine ⟨_, Function.update_self _ _ _, fun _ _ _ resp np member => ?_, filter_leaves one', ?_, ?_⟩
    · have kept : np ∈ (Skb.ofUser buf (env.slab s.tick)).leaves cdev.nccis := member
      rw [Skb.leaves, if_pos resp] at kept
      have stays := (List.mem_filter.mp kept).2
      intro same
      simp [Capincci.taken, same] at stays
    · intro np member other p minorp
      show (putCapiMessage s₁ d (withApplId buf cdev.ap.id) (env.put s.tick)).minors p = _
      rw [frame.2]
      rcases prepare_cases prepared dev with ⟨resp, freed⟩ | ⟨-, rfl⟩
      · apply freed.minors
        intro nq memq taken minorq
        have same : nq.ncci = (Skb.ofUser buf (env.slab s.tick)).ncci := by
          by_cases all : (Skb.ofUser buf (env.slab s.tick)).ncci = 0xffffffff
          · rw [all]
            exact one' resp all nq memq
          · simpa [Capincci.taken, all] using taken
        apply absurd rfl
        apply wired.minor_apart dev member memq _ minorp minorq
        rw [same]
        exact other
      · rfl
    · intro e other
      show Function.update (putCapiMessage s₁ d (withApplId buf cdev.ap.id) (env.put s.tick)).devs d _ e = _
      rw [Function.update_of_ne other, frame.1, devs, Function.update_of_ne other]
      rfl

/-- A release leaves the other files. -/
theorem capidevFree_others (run : capidevFree s d = some s') : ∀ e, e ≠ d → s'.devs e = s.devs e := by
  intro e other
  obtain ⟨cdev, dev, run⟩ := Option.bind_eq_some_iff.mp run
  obtain ⟨s₁, free, run⟩ := Option.bind_eq_some_iff.mp run
  cases run
  have freed := capincciFree_freed (Function.update_self _ _ _) free
  show Function.update s₁.devs d none e = _
  rw [Function.update_of_ne other, freed.devs, Function.update_of_ne other]
  exact Function.update_of_ne other _ _

/-- A call on a tty does not change the files. -/
theorem TtyCall.devs {n tty : Nat} (call : TtyCall n tty s s') : s'.devs = s.devs := by
  rcases call with rfl | ⟨p, -, moves⟩
  · rfl
  · exact moves.through.devs

/-- An open of a terminal leaves the files. -/
theorem ttyOpen_devs {tty : Nat} (run : ttyOpen env s tty = some s') : s'.devs = s.devs := by
  obtain ⟨⟨s₁, result⟩, opened, rfl⟩ := Option.map_eq_some_iff.mp run
  have counted : (countOpen tty (s₁, result)).devs = s₁.devs := by
    unfold countOpen
    split <;> rfl
  rw [counted]
  obtain ⟨found, -, opened⟩ := Option.bind_eq_some_iff.mp opened
  cases found with
  | none =>
    cases opened
    rfl
  | some p =>
    obtain ⟨mp, live, opened⟩ := Option.bind_eq_some_iff.mp opened
    split at opened
    · cases opened
      rfl
    · obtain ⟨s₂, received, opened⟩ := Option.bind_eq_some_iff.mp opened
      cases opened
      exact (handleMinorRecv_through received).devs

theorem capiminorFree_devs {p : Nat} (run : capiminorFree s p = some s') : s'.devs = s.devs := by
  obtain ⟨mp, -, run⟩ := Option.bind_eq_some_iff.mp run
  split at run
  · cases run
    rfl
  · cases run

theorem ttyClose_devs {tty : Nat} (run : ttyClose s tty = some s') : s'.devs = s.devs := by
  obtain ⟨s₁, closed, rfl⟩ := Option.map_eq_some_iff.mp run
  show s₁.devs = s.devs
  unfold capincTtyClose at closed
  split at closed
  · cases closed
    rfl
  rename_i p ref
  obtain ⟨mp, live, closed⟩ := Option.bind_eq_some_iff.mp closed
  simp only at closed
  split at closed
  · rw [capiminorFree_devs closed]
    split <;> rfl
  · cases closed
    split <;> rfl

/-- What a call that is no write, close or fetch leaves of the lists. -/
theorem call_follows (wired : Wired s) {op : Op} (allowed : (Event.call op).Allowed s)
    (other : ∀ d buf, op ≠ .write d buf) (run : step env s op = some s') : Follows env s (.call op) s' := by
  have kept (same : s'.devs = s.devs) : ∀ d cdev, s.devs d = some cdev → ∃ cdev', s'.devs d = some cdev' ∧
      cdev'.nccis = cdev.nccis := fun d cdev dev => ⟨cdev, by rw [same, dev], rfl⟩
  have touched {d : Nat} {cdev cdev' : Capidev} (dev : s.devs d = some cdev) (same : cdev'.nccis = cdev.nccis) :
      ∀ e cdev₁, s.devs e = some cdev₁ → ∃ cdev₂, (s.setDev d cdev').devs e = some cdev₂ ∧ cdev₂.nccis = cdev₁.nccis :=
    fun e cdev₁ dev₁ => (SameLinks.setDev dev same).dev dev₁
  cases op with
  | openFile =>
    cases run
    intro d cdev dev
    have apart : d ≠ s.devNext := by
      rintro rfl
      cases dev.symm.trans (wired.freshDev _ (Nat.le_refl _))
    unfold capidevAlloc
    simp only
    split
    · exact ⟨cdev, dev, rfl⟩
    · exact ⟨cdev, (Function.update_of_ne apart _ _).trans dev, rfl⟩
  | ioctlRegister d info id =>
    obtain ⟨⟨s₁, result⟩, call, rfl⟩ := Option.map_eq_some_iff.mp run
    obtain ⟨cdev, dev, call⟩ := Option.bind_eq_some_iff.mp call
    split at call
    · cases call
      exact kept rfl
    split at call
    · cases call
      exact touched dev rfl
    · cases call
      exact touched dev rfl
  | ioctlFlags d set userflags =>
    obtain ⟨cdev, dev, run⟩ := Option.bind_eq_some_iff.mp run
    cases run
    exact touched dev rfl
  | enqueue d skb =>
    obtain ⟨cdev, dev, run⟩ := Option.bind_eq_some_iff.mp run
    cases run
    exact touched dev rfl
  | signalError d info =>
    obtain ⟨cdev, dev, run⟩ := Option.bind_eq_some_iff.mp run
    cases run
    exact touched dev rfl
  | read d count => exact allowed.elim
  | poll d => exact allowed.elim
  | write d buf => exact absurd rfl (other d buf)
  | release d => exact capidevFree_others run
  | ttyOpen tty => exact kept (ttyOpen_devs run)
  | ttyClose tty => exact kept (ttyClose_devs run)
  | ttyWrite tty fromUser buf =>
    obtain ⟨⟨s₁, result⟩, call, rfl⟩ := Option.map_eq_some_iff.mp run
    exact kept (capincTtyWrite_call call).devs
  | ttyPutChar tty ch => exact kept (capincTtyPutChar_call run 0).devs
  | ttyFlushChars tty => exact kept (capincTtyFlushChars_call run 0).devs
  | ttyThrottle tty => exact kept (capincTtyThrottle_call run 0).devs
  | ttyUnthrottle tty => exact kept (capincTtyUnthrottle_call run 0).devs
  | ttyStop tty => exact kept (capincTtyStop_call run 0).devs
  | ttyStart tty => exact kept (capincTtyStart_call run 0).devs

end Steps

/-- Every event keeps the records wired. -/
theorem eventStep_wired {env : Env} {s s' : Driver} {event : Event} (wired : Wired s)
    (run : eventStep env s event = some s') : Wired s' := by
  cases event with
  | message d skb =>
    obtain ⟨cdev, dev⟩ := recvOne_file run
    exact wired.recvOne dev run
  | call op => exact wired.step run

/-- Every event that names one NCCI is followed. -/
theorem eventStep_follows {env : Env} {s s' : Driver} {event : Event} (mem : ∀ t, env.kmalloc t = true)
    (wired : Wired s) (allowed : event.Allowed s) (one : NamesOne env s event)
    (run : eventStep env s event = some s') : Follows env s event s' := by
  cases event with
  | message d skb => exact recvOne_follows mem wired run
  | call op =>
    by_cases writes : ∃ d buf, op = .write d buf
    · obtain ⟨d, buf, rfl⟩ := writes
      obtain ⟨⟨s₁, result⟩, call, rfl⟩ := Option.map_eq_some_iff.mp run
      exact capiWrite_follows wired call one
    · apply call_follows wired allowed _ run
      intro d buf same
      exact writes ⟨d, buf, same⟩

/-- The NCCI 0xffffffff takes the records of the others, too. -/
theorem names_all {env : Env} {s : Driver} {event : Event} (wired : Wired s) (all : ¬ NamesOne env s event) :
    ∃ s', eventStep env s event = some s' ∧ ¬ Follows env s event s' := by
  obtain ⟨d, buf, rfl⟩ : ∃ d buf, event = .call (.write d buf) := by
    cases event with
    | message d skb => exact absurd trivial all
    | call op =>
      cases op with
      | write d buf => exact ⟨d, buf, rfl⟩
      | _ => exact absurd trivial all
  simp only [NamesOne, not_forall] at all
  obtain ⟨cdev, dev, registered, granted, framed, resp, every, np, member, other⟩ := all
  obtain ⟨s₁, prepared⟩ := wired.asked.prepare dev (Skb.ofUser buf (env.slab s.tick))
  have write := capiWrite_framed dev registered granted framed prepared
  refine ⟨_, by rw [eventStep, step, write]; rfl, fun follows => ?_⟩
  obtain ⟨cdev', dev', -, stays⟩ := follows cdev dev
  cases dev'.symm.trans (Function.update_self _ _ _)
  have kept : np ∈ ((Skb.ofUser buf (env.slab s.tick)).leaves cdev.nccis).filter fun np =>
      np.ncci != (Skb.ofUser buf (env.slab s.tick)).ncci := by
    rw [stays.records]
    apply List.mem_filter.mpr
    exact ⟨member, by simpa [every] using other⟩
  have left := (List.mem_filter.mp kept).1
  rw [Skb.leaves, if_pos resp] at left
  have spared := (List.mem_filter.mp left).2
  simp [Capincci.taken, every] at spared

/-- The records of a file follow its messages in a run exactly when no DISCONNECT_B3_RESP with the NCCI 0xffffffff is
written to a file that has another NCCI. -/
theorem nccis_follow_iff (env : Env) (mem : ∀ t, env.kmalloc t = true) {events : List Event}
    (allowed : Meets (eventStep env) Event.Allowed .init events) :
    Each (eventStep env) (Follows env) .init events ↔ Meets (eventStep env) (NamesOne env) .init events := by
  apply each_iff_meets Wired _ _ Wired.init allowed
  · intro s event s' wired allowed one run
    exact ⟨eventStep_follows mem wired allowed one run, eventStep_wired wired run⟩
  · intro s event wired _ all
    exact names_all wired all

/-- A file is opened and registered, and gets the NCCI 0x101. -/
def incoming : List Event :=
  [.call .openFile, .call (.ioctlFlags 0 true CAPIFLAG_HIGHJACKING), .call (.ioctlRegister 0 .NOERR 1),
    .message 0 { data := messageOf CAPI_CONNECT_B3_IND, tailroom := 0, beyond := fun _ => 0 }]

theorem incoming_allowed (buf : Bytes) :
    Meets (eventStep .granting) Event.Allowed .init (incoming ++ [.call (.write 0 buf)]) := by
  refine ⟨trivial, ?_⟩
  rintro _ ⟨⟩
  refine ⟨nofun, ?_⟩
  rintro _ ⟨⟩
  refine ⟨nofun, ?_⟩
  rintro _ ⟨⟩
  refine ⟨nofun, ?_⟩
  rintro _ ⟨⟩
  exact ⟨nofun, fun _ _ => trivial⟩

theorem nccis_follow_incoming :
    Each (eventStep .granting) (Follows .granting) .init
      (incoming ++ [.call (.write 0 (messageOf CAPI_DISCONNECT_B3_RESP))]) := by
  apply (nccis_follow_iff .granting (fun _ => rfl) (incoming_allowed _)).mpr
  refine ⟨trivial, ?_⟩
  rintro _ ⟨⟩
  refine ⟨trivial, ?_⟩
  rintro _ ⟨⟩
  refine ⟨trivial, ?_⟩
  rintro _ ⟨⟩
  refine ⟨trivial, ?_⟩
  rintro _ ⟨⟩
  refine ⟨?_, fun _ _ => trivial⟩
  intro cdev dev _ _ _ _ every
  have other : (Skb.ofUser (messageOf CAPI_DISCONNECT_B3_RESP) fun _ => 0).ncci ≠ 0xffffffff := by decide
  exact absurd every other

/-- A DISCONNECT_B3_RESP with the NCCI 0xffffffff. -/
def disconnectAll : Bytes := [12, 0, 1, 0, 0x84, 0x83, 1, 0, 255, 255, 255, 255]

/-- The response is accepted, and the record of 0x101 is gone with its minor. -/
theorem disconnectAll_drops :
    Meets (eventStep .granting) Event.Allowed .init (incoming ++ [.call (.write 0 disconnectAll)]) ∧
      ((exec (eventStep .granting) .init incoming).bind fun s => (s.devs 0).map fun cdev =>
        cdev.nccis.map fun np => (np.ncci, np.minorp)) = some [(0x101, some 0)] ∧
      ((exec (eventStep .granting) .init (incoming ++ [.call (.write 0 disconnectAll)])).map fun s =>
        ((s.devs 0).map fun cdev => cdev.nccis.length, s.accepted, s.freed)) =
        some (some 0, [(0, disconnectAll)], [(0, 0)]) ∧
      ¬ Each (eventStep .granting) (Follows .granting) .init (incoming ++ [.call (.write 0 disconnectAll)]) := by
  refine ⟨incoming_allowed _, rfl, rfl, fun each => ?_⟩
  obtain ⟨s, cdev, s', run, dev, next, records⟩ : ∃ s cdev s', exec (eventStep .granting) .init incoming = some s ∧
      s.devs 0 = some cdev ∧ eventStep .granting s (.call (.write 0 disconnectAll)) = some s' ∧
        (s'.devs 0).map Capidev.nccis = some [] ∧ cdev.nccis.map Capincci.ncci = [0x101] :=
    ⟨_, _, _, rfl, rfl, rfl, rfl, rfl⟩
  obtain ⟨cdev', dev', -, stays⟩ := each.last run next cdev dev
  rw [dev', Option.map_some] at records
  have none : cdev'.nccis = [] := Option.some.inj records.1
  have gone := congrArg (List.map Capincci.ncci) stays.records
  have all : (Skb.ofUser disconnectAll fun _ => 0).ncci = 0xffffffff := by decide
  change _ = (cdev.nccis.filter fun np => np.ncci != (Skb.ofUser disconnectAll fun _ => 0).ncci).map Capincci.ncci at gone
  rw [none, all] at gone
  have kept : (cdev.nccis.filter fun np => np.ncci != 0xffffffff).map Capincci.ncci =
      (cdev.nccis.map Capincci.ncci).filter (· != 0xffffffff) := by
    rw [List.filter_map]
    rfl
  rw [kept, records.2] at gone
  cases gone

end Capi4Linux.Capi
