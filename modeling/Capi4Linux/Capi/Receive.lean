import Capi4Linux.Capi.Delivery
import Capi4Linux.Capi.Ledger

/-!
# Reception of a tty

An indication waits in `inqueue` until the line discipline can take it. The
DATA_B3_RESP goes first; when it is refused, or anything else is missing, the
indication goes back to the head of the queue.
-/

namespace Capi4Linux.Capi
open Bytes Capicore Machine

/-- The DataHandle of a DATA_B3_IND. -/
def Skb.dataHandle (skb : Skb) : UInt16 := skb.u16 (CAPI_MSG_BASELEN + 4 + 4 + 2)

/-- The data behind the header of a DATA_B3_IND. -/
def Skb.payload (skb : Skb) : Bytes := skb.data.drop skb.msgLen

/-- The NCCI of a message. -/
def messageNcci (m : Bytes) : UInt32 := UInt32.ofNat (leNat ((m.drop 8).take 4))

/-- The DataHandle of a DATA_B3_RESP. -/
def responseHandle (m : Bytes) : UInt16 := UInt16.ofNat (leNat ((m.drop 12).take 2))

/-- The message is the DATA_B3_RESP of file `ap` to the indication, with the NCCI `ncci`. -/
structure Answers (ap : Nat) (ncci : UInt32) (skb : Skb) (answer : Nat × Bytes) : Prop where
  file : answer.1 = ap
  command : isDataB3Resp answer.2 = true
  ncci : messageNcci answer.2 = ncci
  datahandle : responseHandle answer.2 = skb.dataHandle

/-- The indications that arrived are those delivered and then those in `inqueue`; the line discipline was given the data
of the delivered ones, and each of them was answered once. -/
def DeliveredInOrder (mp : Capiminor) (b : Book) : Prop :=
  ∃ delivered, b.arrived = delivered ++ mp.inqueue ∧
    b.given = delivered.map (fun skb => (mp.minor, skb.payload)) ∧
    List.Forall₂ (Answers mp.ap mp.ncci) delivered b.answered

/-- What every turn keeps. -/
structure Delivering (x : Capiminor × Book) : Prop where
  tty : ∀ tty, x.1.tty = some tty → tty = x.1.minor
  framed : ∀ skb ∈ x.1.inqueue, skb.msgLen ≤ skb.len
  order : DeliveredInOrder x.1 x.2

section Turns

variable {mp mp' : Capiminor} {b : Book}

theorem dataB3Resp_answers (ap : CapiAppl) (mp : Capiminor) (skb : Skb) :
    Answers mp.ap mp.ncci skb (mp.ap, dataB3Resp ap mp (skb.u16 (CAPI_MSG_BASELEN + 4 + 4 + 2))) := by
  refine ⟨rfl, rfl, ?_, ?_⟩
  · have field : leNat (le 4 mp.ncci.toNat) = mp.ncci.toNat := leNat_le_of_lt mp.ncci.toNat_lt
    show UInt32.ofNat (leNat (le 4 mp.ncci.toNat)) = mp.ncci
    rw [field, UInt32.ofNat_toNat]
  · have field : leNat (le 2 skb.dataHandle.toNat) = skb.dataHandle.toNat := leNat_le_of_lt skb.dataHandle.toNat_lt
    show UInt16.ofNat (leNat (le 2 skb.dataHandle.toNat)) = skb.dataHandle
    rw [field, UInt16.ofNat_toNat]

/-- The record of the minor changes elsewhere. -/
theorem Delivering.same (delivering : Delivering (mp, b)) (minor : mp'.minor = mp.minor) (ap : mp'.ap = mp.ap)
    (ncci : mp'.ncci = mp.ncci) (tty : mp'.tty = mp.tty) (inqueue : mp'.inqueue = mp.inqueue) : Delivering (mp', b) := by
  obtain ⟨own, framed, delivered, arrived, given, answered⟩ := delivering
  constructor
  · intro t here
    rw [tty] at here
    rw [minor]
    exact own t here
  · intro skb member
    rw [inqueue] at member
    exact framed skb member
  · refine ⟨delivered, ?_, ?_, ?_⟩
    · rw [inqueue]
      exact arrived
    · rw [minor]
      exact given
    · rw [ap, ncci]
      exact answered

/-- A minor's own changes leave what is to be received. -/
theorem Own.receiving {n : Nat} (own : Own n mp mp') : mp'.minor = mp.minor ∧ mp'.ap = mp.ap ∧ mp'.ncci = mp.ncci ∧
    mp'.tty = mp.tty ∧ mp'.inqueue = mp.inqueue := by
  cases own with
  | flush =>
    unfold flushTtyskb
    split <;> exact ⟨rfl, rfl, rfl, rfl, rfl⟩
  | _ => exact ⟨rfl, rfl, rfl, rfl, rfl⟩

theorem Delivering.turn (x y : Capiminor × Book)
    (turn : Turn (fun _ => True) (fun skb => skb.msgLen ≤ skb.len) x y) (delivering : Delivering x) : Delivering y := by
  cases turn with
  | own _ own =>
    obtain ⟨minor, ap, ncci, tty, inqueue⟩ := own.receiving
    exact delivering.same minor ap ncci tty inqueue
  | @opened mp b =>
    refine ⟨?_, delivering.framed, delivering.order⟩
    intro tty here
    by_cases first : mp.ttyopencount = 0
    · simp only [first, if_true] at here
      exact (Option.some.inj here).symm
    · simp only [first, if_false] at here
      exact delivering.tty tty here
  | @closed mp b =>
    refine ⟨?_, delivering.framed, delivering.order⟩
    intro tty here
    by_cases last : mp.ttyopencount - 1 = 0
    · simp only [last, if_true] at here
      cases here
    · simp only [last, if_false] at here
      exact delivering.tty tty here
  | detached => exact delivering.same rfl rfl rfl rfl rfl
  | @arrived mp b skb fits =>
    obtain ⟨own, framed, delivered, arrived, given, answered⟩ := delivering
    refine ⟨own, ?_, delivered, ?_, given, answered⟩
    · intro skb' member
      rcases List.mem_append.mp member with before | last
      · exact framed skb' before
      · rw [List.mem_singleton.mp last]
        exact fits
    · show b.arrived ++ [skb] = delivered ++ (mp.inqueue ++ [skb])
      rw [arrived, List.append_assoc]
  | @confirmed mp b datahandle =>
    have own : (capiminorDelAck mp datahandle).minor = mp.minor ∧ (capiminorDelAck mp datahandle).ap = mp.ap ∧
        (capiminorDelAck mp datahandle).ncci = mp.ncci ∧ (capiminorDelAck mp datahandle).tty = mp.tty ∧
        (capiminorDelAck mp datahandle).inqueue = mp.inqueue := by
      unfold capiminorDelAck
      split <;> exact ⟨rfl, rfl, rfl, rfl, rfl⟩
    obtain ⟨minor, ap, ncci, tty, inqueue⟩ := own
    obtain ⟨own, framed, order⟩ := delivering.same minor ap ncci tty inqueue
    exact ⟨own, framed, order⟩
  | stuck => exact delivering.same rfl rfl rfl rfl rfl
  | @delivered mp b skb inqueue tty ap queue here =>
    obtain ⟨own, framed, delivered, arrived, given, answered⟩ := delivering
    have fits : skb.msgLen ≤ skb.len := by
      apply framed
      rw [queue]
      exact List.mem_cons_self
    have data : (skb.pull skb.msgLen).data = skb.payload := by
      unfold Skb.pull
      rw [if_neg (by omega)]
      rfl
    refine ⟨own, ?_, delivered ++ [skb], ?_, ?_, ?_⟩
    · intro skb' member
      apply framed
      rw [queue]
      exact List.mem_cons_of_mem _ member
    · show b.arrived = delivered ++ [skb] ++ inqueue
      rw [List.append_assoc, List.singleton_append, ← queue]
      exact arrived
    · show b.given ++ [(tty, (skb.pull skb.msgLen).data)] = _
      rw [data, own tty here, List.map_append, ← given]
      rfl
    · show List.Forall₂ _ (delivered ++ [skb]) (b.answered ++ [_])
      apply List.rel_append answered
      exact .cons (dataB3Resp_answers ap mp skb) .nil
  | held => exact delivering.same rfl rfl rfl rfl rfl
  | @accepted mp b skb outqueue ap address queue =>
    obtain ⟨own, framed, delivered, arrived, given, answered⟩ := delivering
    refine ⟨own, framed, delivered, arrived, ?_, ?_⟩
    · show b.given ++ [] = _
      rw [List.append_nil]
      exact given
    · show List.Forall₂ _ delivered (b.answered ++ [])
      rw [List.append_nil]
      exact answered
  | dropped => exact delivering.same rfl rfl rfl rfl rfl

/-- A new minor has nothing to deliver. -/
theorem Capiminor.Born.delivering (born : mp.Born) : Delivering (mp, .empty) := by
  obtain ⟨closed, -, ⟨inqueue, -⟩, -⟩ := born
  refine ⟨?_, ?_, [], ?_, rfl, .nil⟩
  · intro tty here
    rw [closed] at here
    cases here
  · intro skb member
    rw [inqueue] at member
    cases member
  · rw [inqueue]
    rfl

end Turns

/-- The minors have delivered in order, and the reception of those that are attached has an outcome. -/
def ReceptionInOrder (env : Env) (x : Ledger) : Prop :=
  ∀ p mp, x.driver.minors p = some mp → DeliveredInOrder mp (x.books p) ∧
    (mp.nccip = true → ∃ s, handleMinorRecv env x.driver p = some s)

/-- In every run the data given to the line discipline of a tty is that of the indications in their order, each answered
once when it is given, and the others wait in `inqueue`; nothing is given or accepted outside the books. -/
theorem tty_delivered_in_order (env : Env) {events : List Event}
    (carries : ∀ event ∈ events, event.Carries (fun _ => True) fun skb => skb.msgLen ≤ skb.len) :
    Always (bookStep env) (ReceptionInOrder env) .init events ∧
      Each (bookStep env) (fun x event x' => Unbooked x.driver x'.driver event) .init events := by
  refine ⟨?_, books_complete env trivial carries⟩
  apply (minors_keep env trivial (fun mp born => born.delivering) Delivering.turn carries).mono
  intro x kept p mp live
  constructor
  · exact (kept.holds p mp live).order
  · intro attached
    obtain ⟨s, run, -⟩ := handleMinorRecv_tame env (kept.wired.isAttached live attached)
    exact ⟨s, run⟩

/-- A DATA_B3_IND with the NCCI 0x101. -/
def dataInd (datahandle : UInt16) (data : Bytes) : Skb :=
  .ofDevice ([22, 0, 1, 0, 0x86, 0x82, 1, 0, 1, 1, 0, 0] ++ le 4 0 ++ le 2 data.length ++ le 2 datahandle.toNat ++
    le 2 0 ++ data)

/-- The capicore takes nothing before tick 6. -/
def Env.refusingUntil6 : Env := { Env.granting with put := fun t => if t < 6 then .QUEUEFULL else .NOERR }

/-- One indication finds the tty closed, and its answer is refused by the open; the other finds the tty throttled. -/
def refusedThenThrottled : List Event :=
  incoming ++ [.message 0 (dataInd 7 [65]), .call (.ttyOpen 0), .call (.ttyThrottle 0),
    .message 0 (dataInd 8 [66, 67]), .call (.ttyUnthrottle 0)]

theorem tty_delivered_in_order_refused :
    Always (bookStep .refusingUntil6) (ReceptionInOrder .refusingUntil6) .init refusedThenThrottled ∧
      Each (bookStep .refusingUntil6) (fun x event x' => Unbooked x.driver x'.driver event) .init
        refusedThenThrottled := by
  apply tty_delivered_in_order
  intro event member
  simp only [refusedThenThrottled, incoming, List.cons_append, List.nil_append, List.mem_cons, List.not_mem_nil, or_false] at member
  rcases member with rfl | rfl | rfl | rfl | rfl | rfl | rfl | rfl | rfl
  · trivial
  · trivial
  · trivial
  · intro data
    cases data
  · intro _
    decide
  · trivial
  · trivial
  · intro _
    decide
  · trivial

end Capi4Linux.Capi
