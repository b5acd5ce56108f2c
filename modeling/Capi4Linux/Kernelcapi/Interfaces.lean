import Mathlib.Data.List.Nodup
import Mathlib.Data.List.Basic
import Capi4Linux.Lib.Run

/-!
# kernelcapi: the list of interface users

`attach_capi_interface` links an interface in front of `kernelcapi_iface_list`,
and the device events walk that list. A pointer to a `struct
capi_interface_user` is a number; the `next` pointers are the tails of the list.
-/

namespace Capi4Linux.Kernelcapi
open Machine

/-- What a callback is told. -/
inductive UserEvent where
  | DEVADD
  | DEVREMOVE
  deriving DecidableEq

/-- A call of `callback`: of which interface, for what, and for which device. -/
structure Callback where
  iface : Nat
  event : UserEvent
  id : Nat
  deriving DecidableEq

/-- `kernelcapi_iface_list`, the interfaces that their users have attached, newest first, and the callbacks so far. -/
structure Interfaces where
  ifaceList : List Nat
  attached : List Nat
  callbacks : List Callback

def Interfaces.init : Interfaces := ⟨[], [], []⟩

/-- The loop of `detach_capi_interface`. Its pointer `i` stays on the head: an entry that is not `iface` is
overwritten by its successor. -/
def detachLoop (iface : Nat) : List Nat → List Nat
  | [] => []
  | j :: next => if j = iface then next else detachLoop iface next

/-- `attach_capi_interface`; only an interface with a callback is linked. -/
def attachCapiInterface (callback : Nat → Bool) (s : Interfaces) (iface : Nat) : Interfaces :=
  if callback iface then { s with ifaceList := iface :: s.ifaceList, attached := iface :: s.attached } else s

/-- `detach_capi_interface`. -/
def detachCapiInterface (s : Interfaces) (iface : Nat) : Interfaces :=
  { s with ifaceList := detachLoop iface s.ifaceList, attached := s.attached.erase iface }

/-- The loops of `kernelcapi_devadd` and `kernelcapi_devremove`. -/
def callInterfaces (s : Interfaces) (event : UserEvent) (id : Nat) : Interfaces :=
  { s with callbacks := s.callbacks ++ s.ifaceList.map fun i => ⟨i, event, id⟩ }

/-- Calls of users and of the class device. -/
inductive InterfaceCall where
  | attach (iface : Nat)
  | detach (iface : Nat)
  | devadd (id : Nat)
  | devremove (id : Nat)

def stepInterfaces (callback : Nat → Bool) (s : Interfaces) : InterfaceCall → Option Interfaces
  | .attach iface => some (attachCapiInterface callback s iface)
  | .detach iface => some (detachCapiInterface s iface)
  | .devadd id => some (callInterfaces s .DEVADD id)
  | .devremove id => some (callInterfaces s .DEVREMOVE id)

/-- An interface is attached at most once at a time. -/
def OnceAtATime (s : Interfaces) : InterfaceCall → Prop
  | .attach iface => iface ∉ s.attached
  | _ => True

instance (s : Interfaces) : (l : InterfaceCall) → Decidable (OnceAtATime s l)
  | .attach iface => inferInstanceAs (Decidable (iface ∉ s.attached))
  | .detach _ => .isTrue trivial
  | .devadd _ => .isTrue trivial
  | .devremove _ => .isTrue trivial

/-- The list is what the users have attached, in reverse order of attachment. -/
def Interfaces.Current (s : Interfaces) : Prop := s.ifaceList = s.attached

/-- Each event calls every attached interface once and no other; nothing else calls one. -/
def EventsReach (s : Interfaces) : InterfaceCall → Interfaces → Prop
  | .devadd id, s' => s'.callbacks = s.callbacks ++ s.attached.map (⟨·, .DEVADD, id⟩) ∧ s.attached.Nodup
  | .devremove id, s' => s'.callbacks = s.callbacks ++ s.attached.map (⟨·, .DEVREMOVE, id⟩) ∧ s.attached.Nodup
  | _, s' => s'.callbacks = s.callbacks

/-- A detach names the interface attached last, or none is attached. -/
def DetachesNewest (s : Interfaces) : InterfaceCall → Prop
  | .detach iface => s.attached = [] ∨ s.attached.head? = some iface
  | _ => True

/-- The list is current and each interface is on it once. -/
structure Interfaces.Good (s : Interfaces) : Prop where
  current : s.Current
  nodup : s.attached.Nodup

section Steps

variable {callback : Nat → Bool} {s s' : Interfaces}

/-- An absent interface takes the whole list with it. -/
theorem detachLoop_absent {iface : Nat} (is : List Nat) (absent : iface ∉ is) : detachLoop iface is = [] := by
  induction is with
  | nil => rfl
  | cons j next ih =>
    rw [List.mem_cons, not_or] at absent
    rw [detachLoop, if_neg (Ne.symm absent.1)]
    exact ih absent.2

/-- What is left is what stood behind the interface. -/
theorem detachLoop_present {iface : Nat} (newer older : List Nat) (first : iface ∉ newer) :
    detachLoop iface (newer ++ iface :: older) = older := by
  induction newer with
  | nil => rw [List.nil_append, detachLoop, if_pos rfl]
  | cons j next ih =>
    rw [List.mem_cons, not_or] at first
    rw [List.cons_append, detachLoop, if_neg (Ne.symm first.1)]
    exact ih first.2

/-- Taking out one interface and nothing else is the same only for the head of the list. -/
theorem detachLoop_erase_iff {iface : Nat} (is : List Nat) :
    detachLoop iface is = is.erase iface ↔ is = [] ∨ is.head? = some iface := by
  cases is with
  | nil => exact ⟨fun _ => .inl rfl, fun _ => rfl⟩
  | cons j next =>
    rw [List.head?_cons, Option.some.injEq]
    rcases eq_or_ne j iface with rfl | other
    · rw [detachLoop, if_pos rfl, List.erase_cons_head]
      exact ⟨fun _ => .inr rfl, fun _ => rfl⟩
    · constructor
      · intro same
        exfalso
        -- the head is dropped, so the result is too short
        have short : (detachLoop iface (j :: next)).length ≤ next.length - 1 := by
          rw [detachLoop, if_neg other]
          rcases Classical.em (iface ∈ next) with present | absent
          · obtain ⟨newer, older, rfl, first⟩ := List.eq_append_cons_of_mem present
            rw [detachLoop_present newer older first, List.length_append, List.length_cons]
            omega
          · rw [detachLoop_absent next absent]
            exact Nat.zero_le _
        rw [same, List.erase_cons_tail (by simpa using other), List.length_cons, List.length_erase] at short
        split at short
        · omega
        · omega
      · intro newest
        rcases newest with none | same
        · cases none
        · exact absurd same other

theorem step_good (good : s.Good) {l : InterfaceCall} (once : OnceAtATime s l) (newest : DetachesNewest s l)
    (run : stepInterfaces callback s l = some s') : EventsReach s l s' ∧ s'.Good := by
  have current := good.current
  unfold Interfaces.Current at current
  cases l with
  | attach iface =>
    cases run
    unfold attachCapiInterface
    split
    · exact ⟨rfl, congrArg (iface :: ·) current, List.nodup_cons.2 ⟨once, good.nodup⟩⟩
    · exact ⟨rfl, good⟩
  | detach iface =>
    cases run
    have same := (detachLoop_erase_iff s.attached).2 newest
    exact ⟨rfl, (congrArg (detachLoop iface) current).trans same, good.nodup.erase iface⟩
  | devadd id =>
    cases run
    exact ⟨⟨by rw [callInterfaces, current], good.nodup⟩, good.current, good.nodup⟩
  | devremove id =>
    cases run
    exact ⟨⟨by rw [callInterfaces, current], good.nodup⟩, good.current, good.nodup⟩

theorem step_bad (good : s.Good) {l : InterfaceCall} (older : ¬ DetachesNewest s l) :
    ∃ s', stepInterfaces callback s l = some s' ∧ ¬ s'.Current := by
  cases l with
  | detach iface =>
    refine ⟨_, rfl, fun current => older ((detachLoop_erase_iff s.attached).1 ?_)⟩
    have list : detachLoop iface s.ifaceList = s.attached.erase iface := current
    rwa [show s.ifaceList = s.attached from good.current] at list
  | _ => exact absurd trivial older

end Steps

/-- In every run of attachments, detachments and events, the list is what is attached and the events reach exactly
that, if and only if each detach names the interface attached last, or none is attached. -/
theorem interfaces_current_iff (callback : Nat → Bool) (ls : List InterfaceCall)
    (once : Meets (stepInterfaces callback) OnceAtATime Interfaces.init ls) :
    (Always (stepInterfaces callback) Interfaces.Current Interfaces.init ls ∧
      Each (stepInterfaces callback) EventsReach Interfaces.init ls) ↔
    Meets (stepInterfaces callback) DetachesNewest Interfaces.init ls := by
  have init : Interfaces.init.Good := ⟨rfl, List.nodup_nil⟩
  have current_iff := always_iff_meets Interfaces.Good (fun _ good => good.current)
    (fun s l s' good once newest run => (step_good good once newest run).2)
    (fun s l good _ older => step_bad good older) init once
  constructor
  · intro ⟨always, _⟩
    exact current_iff.1 always
  · intro newest
    constructor
    · exact current_iff.2 newest
    · apply each_of_inv Interfaces.Good ?_ init (once.and newest)
      intro s l s' good ok run
      exact step_good good ok.1 ok.2 run

/-- Two users come, a device comes, the users go in reverse order. -/
theorem interfaces_current_nested :
    (Always (stepInterfaces fun _ => true) Interfaces.Current Interfaces.init
        [.attach 0, .attach 1, .devadd 1, .detach 1, .devremove 1, .detach 0] ∧
      Each (stepInterfaces fun _ => true) EventsReach Interfaces.init
        [.attach 0, .attach 1, .devadd 1, .detach 1, .devremove 1, .detach 0]) ↔
    Meets (stepInterfaces fun _ => true) DetachesNewest Interfaces.init
      [.attach 0, .attach 1, .devadd 1, .detach 1, .devremove 1, .detach 0] := by
  apply interfaces_current_iff
  refine ⟨by decide, fun _ h => ?_⟩
  cases h
  refine ⟨by decide, fun _ h => ?_⟩
  cases h
  exact ⟨trivial, fun _ _ => ⟨trivial, fun _ _ => ⟨trivial, fun _ _ => ⟨trivial, fun _ _ => trivial⟩⟩⟩⟩

/-- When the older of two users goes, the newer one is lost with it. -/
theorem interfaces_lost : ∃ s, exec (stepInterfaces fun _ => true) Interfaces.init
      [.attach 0, .attach 1, .detach 0, .devadd 1] = some s ∧
    Meets (stepInterfaces fun _ => true) OnceAtATime Interfaces.init [.attach 0, .attach 1, .detach 0, .devadd 1] ∧
    s.attached = [1] ∧ s.ifaceList = [] ∧ s.callbacks = [] := by
  refine ⟨_, rfl, ?_, rfl, rfl, rfl⟩
  refine ⟨by decide, fun _ h => ?_⟩
  cases h
  refine ⟨by decide, fun _ h => ?_⟩
  cases h
  exact ⟨trivial, fun _ _ => ⟨trivial, fun _ _ => trivial⟩⟩

end Capi4Linux.Kernelcapi
