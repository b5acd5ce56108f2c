import Capi4Linux.Capilib.Links
import Capi4Linux.Lib.Run
import Capi4Linux.Lib.SendWindow

/-!
# Send window accounting

The calls of a device driver on one NCCI, run beside the send window that the
queue stands for. The queue accounts for the window until a message is accepted
after the newest unconfirmed one was confirmed out of order.
-/

namespace Capi4Linux.Capilib
open Pool Machine

/-- The two calls a driver makes for an NCCI that is up. -/
inductive B3Call where
  | req (msgid : UInt16)
  | conf (msgid : UInt16)

/-- The driver's list, the window, and whether the newest unconfirmed message
was confirmed while older ones stayed. -/
structure Sender where
  head : List CapilibNcci
  window : SendWindow UInt16
  tailGone : Bool

section Calls

variable (maxwin : Nat) (applid : UInt16) (ncci : UInt32)

/-- One call. -/
def Sender.step (s : Sender) : B3Call → Option Sender
  | .req msgid => some
    { head := (capilibDataB3Req s.head applid ncci msgid).2
      window := s.window.req msgid
      tailGone := s.tailGone }
  | .conf msgid => do
    let head ← capilibDataB3Conf maxwin s.head applid ncci msgid
    return {
      head := head
      window := s.window.conf msgid
      tailGone := if msgid ∈ s.window.pending then
          s.window.pending.erase msgid ≠ [] && (s.tailGone || decide (msgid ∉ s.window.pending.dropLast))
        else s.tailGone }

variable (others : List CapilibNcci)

/-- The record behind `others` holds exactly the unconfirmed ids in order, counts
them, and keeps the rest of the window free. -/
def Accounts (s : Sender) : Prop :=
  ∃ np q f, s.head = others ++ [np] ∧ np.applid = applid ∧ np.ncci = ncci ∧
    Chain np.next np.msgidqueue q ∧ q.map np.ids = s.window.pending ∧
    np.nmsg = (s.window.pending.length : Int) ∧
    Chain np.next np.msgidfree f ∧ q.length + f.length = s.window.cap

/-- What one call does for its caller. -/
def CallMeets (s : Sender) (c : B3Call) (s' : Sender) : Prop :=
  Accounts applid ncci others s' ∧
  match c with
  | .req msgid =>
    ((capilibDataB3Req s.head applid ncci msgid).1 = .CAPI_NOERROR ↔ s.window.Open) ∧
    (¬ s.window.Open → s'.head = s.head)
  | .conf msgid =>
    (msgid ∈ s.window.pending →
      s'.window.pending = s.window.pending.erase msgid ∧ s'.window.free = s.window.free + 1) ∧
    (msgid ∉ s.window.pending → s'.head = s.head)

/-- No message is accepted while the tail of the queue is gone. -/
def TailInPlace (s : Sender) : B3Call → Prop
  | .req _ => s.window.Open → s.tailGone = false
  | .conf _ => True

/-- The queue behind `others` is linked up and stands for the window. -/
def Tracks (s : Sender) : Prop :=
  ∃ np q f, s.head = others ++ [np] ∧ np.applid = applid ∧ np.ncci = ncci ∧
    Linked np q f s.tailGone ∧ q.map np.ids = s.window.pending ∧ np.winsize = s.window.cap ∧
    np.winsize ≤ maxwin ∧ (s.tailGone = true → q ≠ [])

end Calls

section Found

variable {applid : UInt16} {ncci : UInt32} {others : List CapilibNcci} {np : CapilibNcci}

/-- A request reaches the record behind others that do not match. -/
theorem capilibDataB3Req_found (np : CapilibNcci) (fresh : ∀ o ∈ others, o.applid = applid → o.ncci ≠ ncci)
    (happlid : np.applid = applid) (hncci : np.ncci = ncci) (msgid : UInt16) :
    capilibDataB3Req (others ++ [np]) applid ncci msgid =
      (if (mqEnqueue np msgid).1 then .CAPI_NOERROR else .CAPI_SENDQUEUEFULL,
        others ++ [(mqEnqueue np msgid).2]) := by
  induction others with
  | nil => simp [capilibDataB3Req, happlid, hncci]
  | cons o others ih =>
    have skip : o.applid ≠ applid ∨ o.ncci ≠ ncci := by
      by_cases h : o.applid = applid
      · exact .inr (fresh o (by simp) h)
      · exact .inl h
    rw [List.cons_append, capilibDataB3Req, if_pos skip, ih fun o' ho => fresh o' (by simp [ho])]
    rfl

/-- So does a confirmation. -/
theorem capilibDataB3Conf_found {maxwin : Nat} (np : CapilibNcci) (fresh : ∀ o ∈ others, o.applid = applid → o.ncci ≠ ncci)
    (happlid : np.applid = applid) (hncci : np.ncci = ncci) {msgid : UInt16} {found : Bool}
    {np' : CapilibNcci} (run : mqDequeue maxwin np msgid = some (found, np')) :
    capilibDataB3Conf maxwin (others ++ [np]) applid ncci msgid = some (others ++ [np']) := by
  induction others with
  | nil => simp [capilibDataB3Conf, happlid, hncci, run]
  | cons o others ih =>
    have skip : o.applid ≠ applid ∨ o.ncci ≠ ncci := by
      by_cases h : o.applid = applid
      · exact .inr (fresh o (by simp) h)
      · exact .inl h
    rw [List.cons_append, capilibDataB3Conf, if_pos skip, ih fun o' ho => fresh o' (by simp [ho])]
    rfl

end Found

section Run

variable {maxwin : Nat} {applid : UInt16} {ncci : UInt32} {others : List CapilibNcci} {s : Sender}

theorem Tracks.accounts (h : Tracks maxwin applid ncci others s) : Accounts applid ncci others s := by
  obtain ⟨np, q, f, head, happlid, hncci, linked, ids, size, -, -⟩ := h
  refine ⟨np, q, f, head, happlid, hncci, linked.queue, ids, ?_, linked.free, linked.size.trans size⟩
  rw [linked.count, ← ids, List.length_map]

/-- The window has room exactly when an entry is free. -/
theorem Tracks.open_iff {np : CapilibNcci} {q f : List Nat} {gone : Bool} {w : SendWindow UInt16}
    (linked : Linked np q f gone) (ids : q.map np.ids = w.pending) (size : np.winsize = w.cap) :
    w.Open ↔ f ≠ [] := by
  have total := linked.size
  have len : w.pending.length = q.length := by rw [← ids, List.length_map]
  rw [SendWindow.Open, len, ← size, ← total]
  cases f <;> simp

/-- A request with the tail in place. -/
theorem Tracks.req (fresh : ∀ o ∈ others, o.applid = applid → o.ncci ≠ ncci)
    (h : Tracks maxwin applid ncci others s) {msgid : UInt16} (intact : s.window.Open → s.tailGone = false) :
    ∃ s', s.step maxwin applid ncci (.req msgid) = some s' ∧
      CallMeets applid ncci others s (.req msgid) s' ∧ Tracks maxwin applid ncci others s' := by
  obtain ⟨np, q, f, head, happlid, hncci, linked, ids, size, room, left⟩ := h
  have opened := Tracks.open_iff linked ids size
  cases f with
  | nil =>
    -- no free entry: the call is refused
    have full : ¬ s.window.Open := by simp [opened]
    have run := capilibDataB3Req_found np fresh happlid hncci msgid
    rw [mqEnqueue_full linked] at run
    have tracks : Tracks maxwin applid ncci others ⟨others ++ [np], s.window.req msgid, s.tailGone⟩ := by
      rw [SendWindow.req_full msgid full]
      exact ⟨np, q, [], rfl, happlid, hncci, linked, ids, size, room, left⟩
    refine ⟨_, by rw [Sender.step, head, run], ⟨tracks.accounts, ?_, fun _ => head.symm⟩, tracks⟩
    rw [head, run]
    simp [full]
  | cons i f =>
    have room' : s.window.Open := by simp [opened]
    rw [intact room'] at linked
    obtain ⟨np', enqueued, linked', ids', same⟩ := mqEnqueue_linked linked msgid
    have run := capilibDataB3Req_found np fresh happlid hncci msgid
    rw [enqueued] at run
    have tracks : Tracks maxwin applid ncci others ⟨others ++ [np'], s.window.req msgid, s.tailGone⟩ := by
      rw [intact room']
      refine ⟨np', q ++ [i], f, rfl, same.2.1.trans happlid, same.2.2.trans hncci, linked', ?_, ?_, ?_, by simp⟩
      · rw [ids', SendWindow.req_pending msgid room', ids]
      · rw [same.1, SendWindow.req_cap, size]
      · rw [same.1]; exact room
    refine ⟨_, by rw [Sender.step, head, run], ⟨tracks.accounts, ?_, fun full => absurd room' full⟩, tracks⟩
    rw [head, run]
    simp [room']

/-- A request with the tail gone is accepted and lost. -/
theorem Tracks.req_lost (h : Tracks maxwin applid ncci others s) (msgid : UInt16)
    (fresh : ∀ o ∈ others, o.applid = applid → o.ncci ≠ ncci) (room : s.window.Open)
    (gone : s.tailGone = true) :
    ∃ s', s.step maxwin applid ncci (.req msgid) = some s' ∧ ¬ Accounts applid ncci others s' := by
  obtain ⟨np, q, f, head, happlid, hncci, linked, ids, size, -, left⟩ := h
  obtain ⟨i, f, rfl⟩ := List.exists_cons_of_ne_nil ((Tracks.open_iff linked ids size).1 room)
  rw [gone] at linked
  obtain ⟨np', enqueued, chain, count⟩ := mqEnqueue_lost linked (left gone) msgid
  have run := capilibDataB3Req_found np fresh happlid hncci msgid
  rw [enqueued] at run
  refine ⟨_, rfl, ?_⟩
  rintro ⟨np'', q'', f'', head'', -, -, chain'', ids'', -⟩
  rw [head, run] at head''
  obtain rfl : np' = np'' := by simpa using head''
  obtain rfl := chain.unique chain''
  have len := congrArg List.length ids''
  simp only [SendWindow.req_pending msgid room, ← ids, List.length_map, List.length_append,
    List.length_singleton] at len
  omega

/-- A confirmation, in whatever order. -/
theorem Tracks.conf (fresh : ∀ o ∈ others, o.applid = applid → o.ncci ≠ ncci)
    (h : Tracks maxwin applid ncci others s) (msgid : UInt16) :
    ∃ s', s.step maxwin applid ncci (.conf msgid) = some s' ∧
      CallMeets applid ncci others s (.conf msgid) s' ∧ Tracks maxwin applid ncci others s' := by
  obtain ⟨np, q, f, head, happlid, hncci, linked, ids, size, room, left⟩ := h
  by_cases known : msgid ∈ s.window.pending
  · -- split the queue at the first entry with this id
    obtain ⟨a, b, split, first⟩ := List.eq_append_cons_of_mem known
    rw [← ids, List.map_eq_append_iff] at split
    obtain ⟨qa, qb, rfl, mapA, mapB⟩ := split
    obtain ⟨i, qb, rfl, found, rfl⟩ := List.map_eq_cons_iff.1 mapB
    have differ : ∀ j ∈ qa, np.ids j ≠ msgid := fun j hj e =>
      first (mapA ▸ List.mem_map.2 ⟨j, hj, e⟩)
    have unlinked := mqDequeue_found linked.queue (linked.fits room) differ found
    obtain ⟨linked', ids', same⟩ := mqUnlink_linked linked
    have run := capilibDataB3Conf_found np fresh happlid hncci unlinked
    have pending : s.window.pending = qa.map np.ids ++ msgid :: qb.map np.ids := by
      rw [← ids]; simp [found]
    have erased : s.window.pending.erase msgid = (qa ++ qb).map np.ids := by
      rw [pending, List.erase_append_right _ (mapA ▸ first), List.erase_cons_head, List.map_append]
    have flag : (s.window.pending.erase msgid ≠ [] &&
        (s.tailGone || decide (msgid ∉ s.window.pending.dropLast))) =
        if qa ++ qb = [] then false else s.tailGone || qb.isEmpty := by
      have last : decide (msgid ∉ s.window.pending.dropLast) = qb.isEmpty := by
        rw [pending, List.dropLast_append_of_ne_nil (by simp)]
        cases qb with
        | nil => simpa using fun j hj => differ j hj
        | cons j qb => simp
      rw [erased, last]
      by_cases e : qa ++ qb = []
      · simp [e]
      · have left : (qa ++ qb).map np.ids ≠ [] := by simpa using e
        rw [if_neg e, decide_eq_true left, Bool.true_and]
    have tracks : Tracks maxwin applid ncci others
        ⟨others ++ [mqUnlink np (linkAfter qa) i], s.window.conf msgid,
          if qa ++ qb = [] then false else s.tailGone || qb.isEmpty⟩ := by
      refine ⟨_, _, _, rfl, same.2.1.trans happlid, same.2.2.trans hncci, linked', ?_, ?_, ?_, ?_⟩
      · rw [ids', SendWindow.conf_pending, erased]
      · rw [same.1, SendWindow.conf_cap, size]
      · rw [same.1]; exact room
      · intro gone e
        simp [e] at gone
    refine ⟨_, ?_, ⟨tracks.accounts, fun _ => ⟨rfl, SendWindow.conf_free known⟩, fun no => absurd known no⟩, tracks⟩
    simp only [Sender.step, head, run, known, if_true, flag]
    rfl
  · have absent : msgid ∉ q.map np.ids := ids ▸ known
    have run := capilibDataB3Conf_found np fresh happlid hncci (mqDequeue_absent linked.queue (linked.fits room) absent)
    have tracks : Tracks maxwin applid ncci others ⟨others ++ [np], s.window.conf msgid, s.tailGone⟩ := by
      rw [SendWindow.conf_of_not_mem known]
      exact ⟨np, q, f, rfl, happlid, hncci, linked, ids, size, room, left⟩
    refine ⟨_, ?_, ⟨tracks.accounts, fun yes => absurd yes known, fun _ => head.symm⟩, tracks⟩
    simp only [Sender.step, head, run, known, if_false]
    rfl

end Run

/-- The sender of an NCCI that just came up. -/
def Sender.up (maxwin : Nat) (others : List CapilibNcci) (applid : UInt16) (ncci : UInt32) (winsize : Nat) : Sender :=
  { head := capilibNewNcci maxwin true others applid ncci winsize
    window := SendWindow.empty (min winsize maxwin)
    tailGone := false }

theorem Sender.up_head (maxwin : Nat) (others : List CapilibNcci) (applid : UInt16) (ncci : UInt32)
    (winsize : Nat) : (Sender.up maxwin others applid ncci winsize).head =
      others ++ [mqInit ⟨applid, ncci, min winsize maxwin, 0, none, none, none, fun _ => ⟨none, 0⟩⟩] := by
  have clamp : (if winsize > maxwin then maxwin else winsize) = min winsize maxwin := by
    split <;> omega
  simp only [Sender.up, capilibNewNcci, if_true, clamp]

theorem Sender.up_tracks {maxwin winsize : Nat} (others : List CapilibNcci) (applid : UInt16) (ncci : UInt32)
    (window : 0 < min winsize maxwin) :
    Tracks maxwin applid ncci others (Sender.up maxwin others applid ncci winsize) := by
  have linked := mqInit_linked ⟨applid, ncci, min winsize maxwin, 0, none, none, none, fun _ => ⟨none, 0⟩⟩ window
  refine ⟨_, _, _, Sender.up_head _ _ _ _ _, by simp, by simp, linked, rfl, by simp [Sender.up, SendWindow.empty],
    Nat.le_trans (Nat.le_of_eq (mqInit_winsize _)) (Nat.min_le_right _ _), by simp [Sender.up]⟩

/-- Without a window the one entry that `mq_init` always frees is too many. -/
theorem Sender.up_zero {maxwin : Nat} (others : List CapilibNcci) (applid : UInt16) (ncci : UInt32) :
    ¬ Accounts applid ncci others (Sender.up maxwin others applid ncci 0) := by
  rintro ⟨np, q, f, head, -, -, -, -, -, free, size⟩
  rw [Sender.up_head] at head
  obtain rfl : mqInit _ = np := by simpa using head
  obtain rfl := free.unique (mqInit_free_zero _ (by simp))
  simp [Sender.up, SendWindow.empty] at size

/-- The queue accounts for the window at all times exactly when there is a
window and no message is accepted while the tail is gone. -/
theorem window_accounted_iff {maxwin : Nat} (window : 1 ≤ maxwin) (others : List CapilibNcci)
    (applid : UInt16) (ncci : UInt32) (fresh : ∀ o ∈ others, o.applid = applid → o.ncci ≠ ncci)
    (winsize : Nat) (calls : List B3Call) :
    let s := Sender.up maxwin others applid ncci winsize
    let step := Sender.step maxwin applid ncci
    (Accounts applid ncci others s ∧ (∃ s', exec step s calls = some s') ∧
        Each step (CallMeets applid ncci others) s calls) ↔
      winsize ≠ 0 ∧ Meets step TailInPlace s calls := by
  intro s step
  rcases Nat.eq_zero_or_pos winsize with rfl | pos
  · exact ⟨fun h => absurd h.1 (Sender.up_zero others applid ncci), fun h => absurd rfl h.1⟩
  have tracks : Tracks maxwin applid ncci others s := Sender.up_tracks others applid ncci (by omega)
  have total : ∀ s c, Tracks maxwin applid ncci others s → TailInPlace s c → ∃ s', step s c = some s' ∧
      CallMeets applid ncci others s c s' ∧ Tracks maxwin applid ncci others s' := by
    intro s c h place
    cases c with
    | req msgid => exact h.req fresh place
    | conf msgid => exact h.conf fresh msgid
  have each : Each step (CallMeets applid ncci others) s calls ↔ Meets step TailInPlace s calls := by
    refine each_iff_meets (G := fun _ _ => True) (Tracks maxwin applid ncci others) ?_ ?_ tracks
      (Meets.of_forall (fun _ _ => trivial) s calls)
    · intro s c s' h _ place run
      obtain ⟨t, ht, meets, keep⟩ := total s c h place
      obtain rfl : t = s' := Option.some.inj (ht.symm.trans run)
      exact ⟨meets, keep⟩
    · intro s c h _ lost
      cases c with
      | req msgid =>
        have room : s.window.Open := by by_contra full; exact lost fun r => absurd r full
        have gone : s.tailGone = true := by
          by_contra kept; exact lost fun _ => by simpa using kept
        obtain ⟨s', run, bad⟩ := h.req_lost msgid fresh room gone
        exact ⟨s', run, fun meets => bad meets.1⟩
      | conf msgid => exact absurd trivial lost
  constructor
  · rintro ⟨-, -, calls⟩
    exact ⟨Nat.pos_iff_ne_zero.1 pos, each.1 calls⟩
  · rintro ⟨-, place⟩
    obtain ⟨s', run, -⟩ := exec_of_inv (fun s c h place => (total s c h place).imp fun _ t => ⟨t.1, t.2.2⟩)
      tracks place
    exact ⟨tracks.accounts, ⟨s', run⟩, each.2 place⟩

/-- Confirmations in the order of sending are accounted for. -/
theorem window_accounted_in_order :
    let s := Sender.up 8 [] 1 0x101 2
    let step := Sender.step 8 1 0x101
    Accounts 1 0x101 [] s ∧ (∃ s', exec step s [.req 1, .req 2, .conf 1, .req 3] = some s') ∧
      Each step (CallMeets 1 0x101 []) s [.req 1, .req 2, .conf 1, .req 3] := by
  refine (window_accounted_iff (by decide) [] 1 0x101 (by simp) 2 _).2 ⟨by decide, ?_⟩
  refine ⟨fun _ => rfl, fun _ h => ?_⟩
  cases h
  refine ⟨fun _ => rfl, fun _ h => ?_⟩
  cases h
  refine ⟨trivial, fun _ h => ?_⟩
  cases h
  exact ⟨fun _ => rfl, fun _ _ => trivial⟩

/-- Confirm the second of two messages, then send a third: it is accepted, and
the queue still holds the first alone. -/
theorem window_not_accounted :
    let s := Sender.up 8 [] 1 0x101 2
    let step := Sender.step 8 1 0x101
    ¬ (Accounts 1 0x101 [] s ∧ (∃ s', exec step s [.req 1, .req 2, .conf 2, .req 3] = some s') ∧
        Each step (CallMeets 1 0x101 []) s [.req 1, .req 2, .conf 2, .req 3]) := by
  rintro s step ⟨-, -, each⟩
  obtain ⟨-, each⟩ := each _ rfl
  obtain ⟨-, each⟩ := each _ rfl
  obtain ⟨-, each⟩ := each _ rfl
  obtain ⟨⟨⟨np, q, f, head, -, -, chain, ids, -⟩, -⟩, -⟩ := each _ rfl
  have record : np = (mqEnqueue (mqUnlink (mqEnqueue (mqEnqueue (mqInit ⟨1, 0x101, 2, 0, none, none, none,
      fun _ => ⟨none, 0⟩⟩) 1).2 2).2 (.next 1) 0) 3).2 := (List.cons.inj head).1.symm
  obtain rfl : q = [1] := by
    refine chain.unique ?_
    rw [record]
    exact ⟨rfl, rfl⟩
  have len : 1 = 2 := congrArg List.length ids
  cases len

end Capi4Linux.Capilib
