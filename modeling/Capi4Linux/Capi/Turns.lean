import Capi4Linux.Capi.Nccis
import Capi4Linux.Capi.Transmit

/-!
# The turns of a minor

A minor lives by turns: messages are handed to it, its tty is opened and closed,
the rounds of the data loops take from its queues. Its book records what came in
and what went out. The calls of the driver are sequences of such turns, so that
what every turn keeps holds of every minor in every run.
-/

namespace Capi4Linux.Capi
open Bytes Capicore Machine

/-- The message is a DATA_B3_RESP. -/
def isDataB3Resp (m : Bytes) : Bool := (m.getD 4 0, m.getD 5 0) = (CAPI_DATA_B3, CAPI_RESP)

/-- What happened to a minor: the indications handed to it, the data given to line disciplines, the DATA_B3_RESP messages
accepted, and the handles of the data messages accepted and not confirmed. -/
structure Book where
  arrived : List Skb
  given : List (Nat × Bytes)
  answered : List (Nat × Bytes)
  unconfirmed : List UInt16

namespace Book

def empty : Book := ⟨[], [], [], []⟩

def arrive (b : Book) (skb : Skb) : Book := { b with arrived := b.arrived ++ [skb] }

def confirm (b : Book) (datahandle : UInt16) : Book := { b with unconfirmed := b.unconfirmed.erase datahandle }

/-- Messages were accepted, and data was given to line disciplines. -/
def enter (b : Book) (accepted received : List (Nat × Bytes)) : Book :=
  { b with
    given := b.given ++ received
    answered := b.answered ++ accepted.filter fun e => isDataB3Resp e.2
    unconfirmed := b.unconfirmed ++ (requests accepted).map dataHandle }

theorem enter_nil (b : Book) : b.enter [] [] = b := by
  unfold enter requests
  simp

/-- What is entered twice is entered at once. -/
theorem enter_enter (b : Book) (accepted received accepted' received' : List (Nat × Bytes)) :
    (b.enter accepted received).enter accepted' received' = b.enter (accepted ++ accepted') (received ++ received') := by
  unfold enter
  simp only [requests_append, List.map_append, List.filter_append, List.append_assoc]

end Book

/-- One turn of a minor and its book; `short` is asked of the length of a write, `framed` of an indication. -/
inductive Turn (short : Nat → Prop) (framed : Skb → Prop) : Capiminor × Book → Capiminor × Book → Prop
  | own {mp mp' : Capiminor} {b : Book} {n : Nat} : short n → Own n mp mp' → Turn short framed (mp, b) (mp', b)
  | opened {mp : Capiminor} {b : Book} : Turn short framed (mp, b)
      ({ mp with
        tty := if mp.ttyopencount = 0 then some mp.minor else mp.tty, ttyopencount := mp.ttyopencount + 1 }, b)
  | closed {mp : Capiminor} {b : Book} : Turn short framed (mp, b)
      ({ mp with
        tty := if mp.ttyopencount - 1 = 0 then none else mp.tty, ttyopencount := mp.ttyopencount - 1 }, b)
  | detached {mp : Capiminor} {b : Book} : Turn short framed (mp, b) ({ mp with nccip := false }, b)
  | arrived {mp : Capiminor} {b : Book} {skb : Skb} : framed skb → Turn short framed (mp, b)
      ({ mp with inqueue := mp.inqueue ++ [skb], inbytes := mp.inbytes + .ofNat skb.len }, b.arrive skb)
  | confirmed {mp : Capiminor} {b : Book} {datahandle : UInt16} :
      Turn short framed (mp, b) (capiminorDelAck mp datahandle, b.confirm datahandle)
  | stuck {mp : Capiminor} {b : Book} {msgid : UInt16} : Turn short framed (mp, b) ({ mp with msgid }, b)
  | delivered {mp : Capiminor} {b : Book} {skb : Skb} {inqueue : List Skb} {tty : Nat} {ap : CapiAppl} :
      mp.inqueue = skb :: inqueue → mp.tty = some tty → Turn short framed (mp, b)
        ({ mp with msgid := mp.msgid + 1, inqueue, inbytes := mp.inbytes - .ofNat skb.len },
          b.enter [(mp.ap, dataB3Resp ap mp (skb.u16 (CAPI_MSG_BASELEN + 4 + 4 + 2)))]
            [(tty, (skb.pull skb.msgLen).data)])
  | held {mp : Capiminor} {b : Book} {ackqueue : List UInt16} : ackqueue.Perm mp.ackqueue →
      Turn short framed (mp, b) ({ mp with msgid := mp.msgid + 1, ackqueue }, b)
  | accepted {mp : Capiminor} {b : Book} {skb : Skb} {outqueue : List Skb} {ap : CapiAppl} {address : UInt32} :
      mp.outqueue = skb :: outqueue → Turn short framed (mp, b)
        ({ mp with
          msgid := mp.msgid + 1, outqueue, ackqueue := mp.ackqueue ++ [mp.datahandle], nack := mp.nack + 1,
          datahandle := mp.datahandle + 1, outbytes := mp.outbytes - .ofNat (UInt16.ofNat skb.len).toNat },
          b.enter [(mp.ap, dataB3Req ap mp address (UInt16.ofNat skb.len) ++ skb.data)] [])
  | dropped {mp : Capiminor} {b : Book} {skb : Skb} {outqueue : List Skb} {ackqueue : List UInt16} :
      mp.outqueue = skb :: outqueue → ackqueue.Perm mp.ackqueue → Turn short framed (mp, b)
        ({ mp with
          msgid := mp.msgid + 1, outqueue, ackqueue, outbytes := mp.outbytes - .ofNat (UInt16.ofNat skb.len).toNat }, b)

/-- Any number of turns. -/
abbrev Turns (short : Nat → Prop) (framed : Skb → Prop) : Capiminor × Book → Capiminor × Book → Prop :=
  Relation.ReflTransGen (Turn short framed)

/-- Minor `p` takes turns, and what the logs gain is in its book. -/
def Served (short : Nat → Prop) (framed : Skb → Prop) (p : Nat) (s s' : Driver) : Prop :=
  ∀ mp b, s.minors p = some mp → ∃ mp' accepted received, s'.minors p = some mp' ∧
    s'.accepted = s.accepted ++ accepted ∧ s'.received = s.received ++ received ∧
    Turns short framed (mp, b) (mp', b.enter accepted received)

section Rounds

variable {short : Nat → Prop} {framed : Skb → Prop} {p : Nat} {s s' t : Driver}

/-- What every turn keeps, any number of turns keeps. -/
theorem Turns.keep {I : Capiminor × Book → Prop} (turn : ∀ x y, Turn short framed x y → I x → I y)
    {x y : Capiminor × Book} (turns : Turns short framed x y) (start : I x) : I y := by
  induction turns with
  | refl => exact start
  | tail _ last ih => exact turn _ _ last ih

namespace Served

theorem refl (p : Nat) (s : Driver) : Served short framed p s s := by
  intro mp b live
  refine ⟨mp, [], [], live, (List.append_nil _).symm, (List.append_nil _).symm, ?_⟩
  rw [Book.enter_nil]

theorem trans (first : Served short framed p s t) (second : Served short framed p t s') :
    Served short framed p s s' := by
  intro mp b live
  obtain ⟨mp₁, accepted₁, received₁, live₁, accepts₁, receives₁, turns₁⟩ := first mp b live
  obtain ⟨mp₂, accepted₂, received₂, live₂, accepts₂, receives₂, turns₂⟩ := second mp₁ (b.enter accepted₁ received₁) live₁
  refine ⟨mp₂, accepted₁ ++ accepted₂, received₁ ++ received₂, live₂, ?_, ?_, ?_⟩
  · rw [accepts₂, accepts₁, List.append_assoc]
  · rw [receives₂, receives₁, List.append_assoc]
  · rw [← Book.enter_enter]
    exact turns₁.trans turns₂

/-- One turn that nothing is logged for. -/
theorem quiet {mp mp' : Capiminor} (live : s.minors p = some mp) (live' : s'.minors p = some mp')
    (accepts : s'.accepted = s.accepted) (receives : s'.received = s.received)
    (turn : ∀ b, Turn short framed (mp, b) (mp', b)) : Served short framed p s s' := by
  intro mp₀ b live₀
  obtain rfl := Option.some.inj (live.symm.trans live₀)
  refine ⟨mp', [], [], live', ?_, ?_, ?_⟩
  · rw [accepts, List.append_nil]
  · rw [receives, List.append_nil]
  · rw [Book.enter_nil]
    exact .single (turn b)

end Served

/-- A round of receives serves its minor. -/
theorem RecvRound.served (round : RecvRound p s s') : Served short framed p s s' := by
  cases round with
  | stuck live _ live' accepts receives => exact .quiet live live' accepts receives fun _ => .stuck
  | delivered live queue own _ _ live' accepts receives =>
    intro mp₀ b live₀
    obtain rfl := Option.some.inj (live.symm.trans live₀)
    exact ⟨_, _, _, live', accepts, receives, .single (.delivered queue own)⟩

theorem SendRound.served (round : SendRound p s s') : Served short framed p s s' := by
  cases round with
  | held live perm _ live' accepts receives => exact .quiet live live' accepts receives fun _ => .held perm
  | accepted live queue _ _ live' accepts receives =>
    intro mp₀ b live₀
    obtain rfl := Option.some.inj (live.symm.trans live₀)
    refine ⟨_, _, [], live', accepts, ?_, .single (.accepted queue)⟩
    rw [receives, List.append_nil]
  | dropped live queue perm _ live' accepts receives =>
    exact .quiet live live' accepts receives fun _ => .dropped queue perm

/-- A move is one of a live minor. -/
theorem Move.live {n : Nat} (move : Move n p s s') : ∃ mp, s.minors p = some mp := by
  cases move with
  | recv round =>
    cases round with
    | stuck live => exact ⟨_, live⟩
    | delivered live => exact ⟨_, live⟩
  | send round =>
    cases round with
    | held live => exact ⟨_, live⟩
    | accepted live => exact ⟨_, live⟩
    | dropped live => exact ⟨_, live⟩
  | own live => exact ⟨_, live⟩

theorem Move.served {n : Nat} (fits : short n) (move : Move n p s s') : Served short framed p s s' := by
  cases move with
  | recv round => exact round.served
  | send round => exact round.served
  | own live own _ live' accepts receives => exact .quiet live live' accepts receives fun _ => .own fits own

theorem Moves.served {n : Nat} (fits : short n) (moves : Moves n p s s') : Served short framed p s s' := by
  apply rounds_keep (P := Served short framed p s) _ moves (.refl p s)
  intro t u move served
  exact served.trans (move.served fits)

theorem handleMinorRecv_served {env : Env} (run : handleMinorRecv env s p = some s') : Served short framed p s s' := by
  apply rounds_keep (P := Served short framed p s) _ (handleMinorRecv_rounds run) (.refl p s)
  intro t u round served
  exact served.trans round.served

theorem handleMinorSend_served {env : Env} {n : Nat} (run : handleMinorSend env s p = some (s', n)) :
    Served short framed p s s' := by
  apply rounds_keep (P := Served short framed p s) _ (handleMinorSend_rounds run) (.refl p s)
  intro t u round served
  exact served.trans round.served

end Rounds

end Capi4Linux.Capi
