import Capi4Linux.Capi.DataPath
import Capi4Linux.Capi.Writes

/-!
# The moves of a tty call

A call on a tty is a sequence of moves of its minor: rounds of the data loops,
and changes to `ttyskb`, the end of `outqueue` and the flow control flags.
-/

namespace Capi4Linux.Capi
open Bytes Capicore Machine

/-- What a call does to its minor between the loops; `n` bounds the length of a write. -/
inductive Own (n : Nat) (mp : Capiminor) : Capiminor → Prop
  | same : Own n mp mp
  | flush : Own n mp (flushTtyskb mp)
  | queue {skb : Skb} : skb.len ≤ n →
      Own n mp { mp with outqueue := mp.outqueue ++ [skb], outbytes := mp.outbytes + .ofNat skb.len }
  | collect {skb : Skb} {ch : UInt8} : mp.ttyskb = some skb → 0 < skb.tailroom →
      Own n mp { mp with ttyskb := some (skb.putByte ch) }
  | start {ch : UInt8} {tailroom : Nat} {beyond : Nat → UInt8} : tailroom < 65535 →
      Own n mp { mp with ttyskb := some { data := [ch], tailroom, beyond } }
  | mark {ttyinstop ttyoutstop : Bool} : Own n mp { mp with ttyinstop, ttyoutstop }

/-- A minor's own changes leave its links. -/
theorem Own.links {n : Nat} {mp mp' : Capiminor} (own : Own n mp mp') : mp'.links = mp.links := by
  cases own with
  | flush => exact flushTtyskb_links mp
  | _ => rfl

/-- One move of minor `p`. -/
inductive Move (n p : Nat) (s s' : Driver) : Prop
  | recv : RecvRound p s s' → Move n p s s'
  | send : SendRound p s s' → Move n p s s'
  | own {mp mp' : Capiminor} : s.minors p = some mp → Own n mp mp' → Through p s s' → s'.minors p = some mp' →
      s'.accepted = s.accepted → s'.received = s.received → Move n p s s'

/-- A move goes through its minor. -/
theorem Move.through {n p : Nat} {s s' : Driver} (move : Move n p s s') : Through p s s' := by
  cases move with
  | recv round => exact round.through
  | send round => exact round.through
  | own _ _ through => exact through

/-- Any number of moves. -/
abbrev Moves (n p : Nat) : Driver → Driver → Prop := Relation.ReflTransGen (Move n p)

namespace Moves

variable {n p : Nat} {s s' t : Driver}

theorem through (moves : Moves n p s s') : Through p s s' :=
  rounds_keep (P := Through p s) (fun _ _ move through => through.trans move.through) moves (.refl p s)

/-- A reception is a row of moves. -/
theorem ofRecv {env : Env} (run : handleMinorRecv env s p = some s') : Moves n p s s' :=
  Relation.ReflTransGen.mono (fun _ _ => Move.recv) s s' (handleMinorRecv_rounds run)

theorem ofSend {env : Env} {k : Nat} (run : handleMinorSend env s p = some (s', k)) : Moves n p s s' :=
  Relation.ReflTransGen.mono (fun _ _ => Move.send) s s' (handleMinorSend_rounds run)

/-- The minor is changed. -/
theorem ofSet {mp mp' : Capiminor} (live : s.minors p = some mp) (own : Own n mp mp') : Moves n p s (s.setMinor p mp') :=
  .single (.own live own (.setMinor live own.links) (Function.update_self _ _ _) rfl rfl)

theorem ofAsked {mp : Capiminor} (live : s.minors p = some mp) : Moves n p s s.asked :=
  .single (.own live .same ((Through.refl p s).logs _ s.talks s.accepted s.received) live rfl rfl)

end Moves

section Calls

variable {env : Env} {s s' : Driver} {tty p : Nat} {mp : Capiminor}

/-- The minor a guarded call finds. -/
theorem ttyMinor_found (found : ttyMinor s tty = some (some (p, mp))) :
    s.ttys tty = some p ∧ s.minors p = some mp ∧ mp.nccip = true := by
  unfold ttyMinor at found
  split at found
  · cases found
  · rename_i q ref
    obtain ⟨mq, live, link⟩ := Option.bind_eq_some_iff.mp found
    split at link
    · rename_i attached
      cases link
      exact ⟨ref, live, attached⟩
    · cases link

/-- A call on a tty without an attached minor does nothing. -/
def TtyCall (n tty : Nat) (s s' : Driver) : Prop :=
  s' = s ∨ ∃ p, s.ttys tty = some p ∧ Moves n p s s'

/-- A write is a call of the terminal. -/
theorem capincTtyWrite_call {fromUser : Bool} {buf : Bytes} {result : Int}
    (run : capincTtyWrite env s tty fromUser buf = some (s', result)) : TtyCall buf.length tty s s' := by
  obtain ⟨found, minor, run⟩ := Option.bind_eq_some_iff.mp run
  cases found with
  | none =>
    cases run
    exact .inl rfl
  | some found =>
    obtain ⟨p, mp⟩ := found
    obtain ⟨ref, live, -⟩ := ttyMinor_found minor
    refine .inr ⟨p, ref, ?_⟩
    have here : (s.setMinor p (flushTtyskb mp)).asked.minors p = some (flushTtyskb mp) := Function.update_self _ _ _
    have flushed : Moves buf.length p s (s.setMinor p (flushTtyskb mp)).asked :=
      (Moves.ofSet live .flush).trans (Moves.ofAsked here)
    simp only at run
    split at run
    · cases run
      exact flushed
    split at run
    · cases run
      exact flushed
    obtain ⟨⟨s₁, k⟩, sent, run⟩ := Option.bind_eq_some_iff.mp run
    obtain ⟨s₂, received, run⟩ := Option.bind_eq_some_iff.mp run
    cases run
    have small : (Skb.ofUser buf (env.slab s.tick)).len ≤ buf.length := Nat.le_refl _
    have queued := flushed.trans (Moves.ofSet here (.queue small))
    exact (queued.trans (Moves.ofSend sent)).trans (Moves.ofRecv received)

/-- A new buffer is a row of moves. -/
theorem newTtyskb_moves {ch : UInt8} (live : s.minors p = some mp)
    (run : capincTtyPutChar.newTtyskb env s p ch = some s') (n : Nat) : Moves n p s s' := by
  unfold capincTtyPutChar.newTtyskb at run
  simp only at run
  split at run
  · obtain ⟨mp', live', run⟩ := Option.bind_eq_some_iff.mp run
    cases run
    have room := (env.tailroom_range s.tick).2
    exact (Moves.ofAsked live).trans (Moves.ofSet live' (.start (by omega)))
  · cases run
    exact .ofAsked live

/-- The minor is still there with its links. -/
theorem Through.minor {p : Nat} {s s' : Driver} (through : Through p s s') {mp : Capiminor}
    (live : s.minors p = some mp) : ∃ mp', s'.minors p = some mp' ∧ mp'.links = mp.links := by
  have links := through.links
  rw [live] at links
  exact Option.map_eq_some_iff.mp links

/-- A single character is a call of the terminal. -/
theorem capincTtyPutChar_call {ch : UInt8} (run : capincTtyPutChar env s tty ch = some s') (n : Nat) :
    TtyCall n tty s s' := by
  obtain ⟨found, minor, run⟩ := Option.bind_eq_some_iff.mp run
  cases found with
  | none =>
    cases run
    exact .inl rfl
  | some found =>
    obtain ⟨p, mp⟩ := found
    obtain ⟨ref, live, -⟩ := ttyMinor_found minor
    refine .inr ⟨p, ref, ?_⟩
    simp only at run
    split at run
    · rename_i skb collected
      split at run
      · rename_i room
        cases run
        exact .ofSet live (.collect collected room)
      · obtain ⟨⟨s₁, k⟩, sent, run⟩ := Option.bind_eq_some_iff.mp run
        have moved : Moves n p s s₁ := (Moves.ofSet live .flush).trans (Moves.ofSend sent)
        obtain ⟨mp₁, live₁, -⟩ := moved.through.minor live
        exact moved.trans (newTtyskb_moves live₁ run n)
    · exact newTtyskb_moves live run n

theorem capincTtyFlushChars_call (run : capincTtyFlushChars env s tty = some s') (n : Nat) : TtyCall n tty s s' := by
  obtain ⟨found, minor, run⟩ := Option.bind_eq_some_iff.mp run
  cases found with
  | none =>
    cases run
    exact .inl rfl
  | some found =>
    obtain ⟨p, mp⟩ := found
    obtain ⟨ref, live, -⟩ := ttyMinor_found minor
    refine .inr ⟨p, ref, ?_⟩
    obtain ⟨s₁, flush, received⟩ := Option.bind_eq_some_iff.mp run
    split at flush
    · obtain ⟨⟨s₁', k⟩, sent, same⟩ := Option.map_eq_some_iff.mp flush
      cases same
      exact ((Moves.ofSet live .flush).trans (Moves.ofSend sent)).trans (Moves.ofRecv received)
    · cases flush
      exact .ofRecv received

/-- A flag of the minor is set, then its loop runs. -/
theorem mark_call (ttyinstop ttyoutstop : Capiminor → Bool) (next : Driver → Nat → Option Driver)
    (run : (match s.ttys tty with
      | none => some s
      | some p => (s.minors p).bind fun mp =>
        next (s.setMinor p { mp with ttyinstop := ttyinstop mp, ttyoutstop := ttyoutstop mp }) p) = some s') {n : Nat}
    (moves : ∀ p s s', next s p = some s' → Moves n p s s') : TtyCall n tty s s' := by
  cases ref : s.ttys tty with
  | none =>
    rw [ref] at run
    cases run
    exact .inl rfl
  | some p =>
    rw [ref] at run
    obtain ⟨mp, live, run⟩ := Option.bind_eq_some_iff.mp run
    exact .inr ⟨p, ref, (Moves.ofSet live .mark).trans (moves p _ s' run)⟩

theorem capincTtyThrottle_call (run : capincTtyThrottle s tty = some s') (n : Nat) : TtyCall n tty s s' := by
  apply mark_call (fun _ => true) Capiminor.ttyoutstop (fun s _ => some s) run
  intro p s s' done
  cases done
  exact .refl

theorem capincTtyUnthrottle_call (run : capincTtyUnthrottle env s tty = some s') (n : Nat) : TtyCall n tty s s' := by
  apply mark_call (fun _ => false) Capiminor.ttyoutstop (handleMinorRecv env) run
  intro p s s' received
  exact .ofRecv received

theorem capincTtyStop_call (run : capincTtyStop s tty = some s') (n : Nat) : TtyCall n tty s s' := by
  apply mark_call Capiminor.ttyinstop (fun _ => true) (fun s _ => some s) run
  intro p s s' done
  cases done
  exact .refl

theorem capincTtyStart_call (run : capincTtyStart env s tty = some s') (n : Nat) : TtyCall n tty s s' := by
  apply mark_call Capiminor.ttyinstop (fun _ => false) (fun s p => (handleMinorSend env s p).map Prod.fst) run
  intro p s s' loop
  obtain ⟨⟨s₁, k⟩, sent, same⟩ := Option.map_eq_some_iff.mp loop
  cases same
  exact .ofSend sent

end Calls

end Capi4Linux.Capi
