import Capi4Linux.Capi.Lifetime
import Capi4Linux.Lib.Drain

/-!
# The transmit path of a tty

Bytes written to a tty wait in `ttyskb` and `outqueue`, and leave in
DATA_B3_REQ messages. `handle_minor_send` puts a packet back when the capicore
answers QUEUEFULL, and drops it when the answer is BUSY.
-/

namespace Capi4Linux.Capi
open Bytes Capicore Drain Machine

/-! ## DATA_B3_REQ messages -/

/-- The message is a DATA_B3_REQ. -/
def isDataB3Req (m : Bytes) : Bool := (m.getD 4 0, m.getD 5 0) = CAPI_DATA_B3_REQ

/-- The data behind the header. -/
def payload (m : Bytes) : Bytes := m.drop CAPI_DATA_B3_REQ_LEN

/-- The Data length of the message. -/
def dataLength (m : Bytes) : Nat := leNat ((m.drop 16).take 2)

/-- The Data handle of the message. -/
def dataHandle (m : Bytes) : UInt16 := UInt16.ofNat (leNat ((m.drop 18).take 2))

/-- The DATA_B3_REQ messages among those accepted. -/
def requests (log : List (Nat × Bytes)) : List Bytes := (log.map Prod.snd).filter isDataB3Req

/-- Each message carries its payload's true length and the next handle. -/
def Numbered (h : UInt16) (ms : List Bytes) : Prop :=
  ∀ i m, ms[i]? = some m → dataLength m = (payload m).length ∧ dataHandle m = h + UInt16.ofNat i

theorem requests_append (a b : List (Nat × Bytes)) : requests (a ++ b) = requests a ++ requests b := by
  simp [requests]

theorem Numbered.nil (h : UInt16) : Numbered h [] := by
  intro i m found
  cases found

/-- A message with the first handle, and the rest from the next. -/
theorem Numbered.cons {h : UInt16} {m : Bytes} {ms : List Bytes} (len : dataLength m = (payload m).length)
    (handle : dataHandle m = h) (rest : Numbered (h + 1) ms) : Numbered h (m :: ms) := by
  intro i m' found
  cases i with
  | zero =>
    cases found
    exact ⟨len, by rw [handle]; exact (UInt16.add_zero h).symm⟩
  | succ i =>
    obtain ⟨len', handle'⟩ := rest i m' found
    refine ⟨len', handle'.trans ?_⟩
    rw [UInt16.add_assoc, Nat.succ_eq_add_one, UInt16.ofNat_add, UInt16.add_comm 1]
    rfl

/-- Messages numbered on from those before them. -/
theorem Numbered.append {h : UInt16} {ms ns : List Bytes} (first : Numbered h ms)
    (second : Numbered (h + UInt16.ofNat ms.length) ns) : Numbered h (ms ++ ns) := by
  intro i m found
  rw [List.getElem?_append] at found
  split at found
  · exact first i m found
  · rename_i beyond
    obtain ⟨len, handle⟩ := second _ m found
    refine ⟨len, handle.trans ?_⟩
    rw [UInt16.add_assoc, ← UInt16.ofNat_add]
    congr 2
    omega

/-- The header in front of a packet. -/
theorem dataB3Req_reads (ap : CapiAppl) (mp : Capiminor) (address : UInt32) {data : Bytes} (short : data.length ≤ 65535) :
    isDataB3Req (dataB3Req ap mp address (UInt16.ofNat data.length) ++ data) = true ∧
    payload (dataB3Req ap mp address (UInt16.ofNat data.length) ++ data) = data ∧
    dataLength (dataB3Req ap mp address (UInt16.ofNat data.length) ++ data) = data.length ∧
    dataHandle (dataB3Req ap mp address (UInt16.ofNat data.length) ++ data) = mp.datahandle := by
  have field (x : UInt16) : leNat (le 2 x.toNat) = x.toNat := leNat_le_of_lt x.toNat_lt
  have len : (UInt16.ofNat data.length).toNat = data.length := by
    rw [UInt16.toNat_ofNat']
    omega
  refine ⟨rfl, rfl, ?_, ?_⟩
  · show leNat (le 2 (UInt16.ofNat data.length).toNat) = data.length
    rw [field, len]
  · show UInt16.ofNat (leNat (le 2 mp.datahandle.toNat)) = mp.datahandle
    rw [field, UInt16.ofNat_toNat]

/-! ## The send loop -/

/-- How the loop takes an answer of the capicore. -/
def verdict (info : Capinfo0x11) : Verdict :=
  if info = .NOERR then .accept else if info = .QUEUEFULL then .hold else .drop

/-- The fields of a minor on the way out. -/
def Capiminor.out (mp : Capiminor) : List Skb × Option Skb × UInt16 := (mp.outqueue, mp.ttyskb, mp.datahandle)

/-- What the send loop does to the minor and the log, starting with the queue `q` at tick `t`. -/
structure Sent (env : Env) (s : Driver) (p : Nat) (mp : Capiminor) (s' : Driver) : Prop where
  minor : ∃ mp', s'.minors p = some mp' ∧ mp'.outqueue = (drain (verdict ∘ env.put) s.tick mp.outqueue).2 ∧
    mp'.ttyskb = mp.ttyskb ∧
    mp'.datahandle = mp.datahandle + UInt16.ofNat (drain (verdict ∘ env.put) s.tick mp.outqueue).1.length
  log : ∃ new, requests s'.accepted = requests s.accepted ++ new ∧
    new.map payload = (drain (verdict ∘ env.put) s.tick mp.outqueue).1.map Skb.data ∧ Numbered mp.datahandle new

section Sending

variable {env : Env} {p : Nat}

/-- Pulling a header that was pushed gives the buffer back. -/
theorem Skb.pull_push (skb : Skb) (header : Bytes) (n : Nat) (len : header.length = n) :
    (skb.push header).pull n = skb := by
  subst len
  unfold Skb.pull Skb.push Skb.len
  simp

variable {s s₁ s' : Driver} {mp mp₁ : Capiminor} {skb : Skb} {q : List Skb} {m : Bytes}

/-- One packet is accepted, then the rest is sent. -/
theorem Sent.accept (sent : Sent env s₁ p mp₁ s') (queue : mp.outqueue = skb :: q)
    (answer : verdict (env.put s.tick) = .accept) (tick : s₁.tick = s.tick + 1) (queue₁ : mp₁.outqueue = q)
    (ttyskb : mp₁.ttyskb = mp.ttyskb) (handle : mp₁.datahandle = mp.datahandle + 1)
    (log : requests s₁.accepted = requests s.accepted ++ [m]) (carries : payload m = skb.data)
    (len : dataLength m = (payload m).length) (mine : dataHandle m = mp.datahandle) : Sent env s p mp s' := by
  have head : drain (verdict ∘ env.put) s.tick mp.outqueue =
      (skb :: (drain (verdict ∘ env.put) (s.tick + 1) q).1, (drain (verdict ∘ env.put) (s.tick + 1) q).2) := by
    rw [queue, drain, Function.comp_apply, answer]
  obtain ⟨⟨mp', live, rest, held, next⟩, new, grown, data, numbered⟩ := sent
  rw [tick, queue₁] at rest next data
  constructor
  · refine ⟨mp', live, by rw [head]; exact rest, held.trans ttyskb, ?_⟩
    rw [next, handle, head, List.length_cons, UInt16.add_assoc, UInt16.ofNat_add, UInt16.add_comm 1]
    rfl
  · refine ⟨m :: new, ?_, ?_, ?_⟩
    · rw [grown, log, List.append_assoc]
      rfl
    · rw [head, List.map_cons, List.map_cons, carries, data]
    · apply Numbered.cons len mine
      rw [← handle]
      exact numbered

/-- One packet is dropped, then the rest is sent. -/
theorem Sent.drop (sent : Sent env s₁ p mp₁ s') (queue : mp.outqueue = skb :: q)
    (answer : verdict (env.put s.tick) = .drop) (tick : s₁.tick = s.tick + 1) (queue₁ : mp₁.outqueue = q)
    (ttyskb : mp₁.ttyskb = mp.ttyskb) (handle : mp₁.datahandle = mp.datahandle)
    (log : requests s₁.accepted = requests s.accepted) : Sent env s p mp s' := by
  have head : drain (verdict ∘ env.put) s.tick mp.outqueue = drain (verdict ∘ env.put) (s.tick + 1) q := by
    rw [queue, drain, Function.comp_apply, answer]
  obtain ⟨⟨mp', live, rest, held, next⟩, new, grown, data, numbered⟩ := sent
  rw [tick, queue₁] at rest next data
  constructor
  · exact ⟨mp', live, by rw [head]; exact rest, held.trans ttyskb, by rw [next, handle, head]⟩
  · exact ⟨new, by rw [grown, log], by rw [head, data], handle ▸ numbered⟩

/-- Nothing is sent. -/
theorem Sent.none (stays : drain (verdict ∘ env.put) s.tick mp.outqueue = ([], mp.outqueue))
    (live : s'.minors p = some mp₁) (same : mp₁.out = mp.out) (log : requests s'.accepted = requests s.accepted) :
    Sent env s p mp s' := by
  simp only [Capiminor.out, Prod.mk.injEq] at same
  obtain ⟨queue, ttyskb, handle⟩ := same
  constructor
  · exact ⟨mp₁, live, by rw [stays]; exact queue, ttyskb, by rw [stays, handle]; exact (UInt16.add_zero _).symm⟩
  · exact ⟨[], by rw [log, List.append_nil], by rw [stays]; rfl, .nil _⟩

/-- An acknowledgement leaves what goes out as it is. -/
theorem capiminorDelAck_out (mp : Capiminor) (datahandle : UInt16) :
    (capiminorDelAck mp datahandle).out = mp.out ∧ (capiminorDelAck mp datahandle).ap = mp.ap ∧
      (capiminorDelAck mp datahandle).tty = mp.tty ∧ (capiminorDelAck mp datahandle).ttyoutstop = mp.ttyoutstop := by
  unfold capiminorDelAck
  split
  · exact ⟨rfl, rfl, rfl, rfl⟩
  · exact ⟨rfl, rfl, rfl, rfl⟩

/-- The loop sends the queue until the capicore refuses. -/
theorem handleMinorSendLoop_sent (mem : ∀ t, env.kmalloc t = true) : ∀ (fuel : Nat) (s : Driver) (count : Nat)
    (mp : Capiminor) (cdev : Capidev), s.minors p = some mp → s.devs mp.ap = some cdev → mp.outqueue.length < fuel →
    (∀ skb ∈ mp.outqueue, skb.data.length ≤ 65535) →
    ∃ s' n, handleMinorSendLoop env fuel s p count = some (s', n) ∧ Sent env s p mp s' := by
  intro fuel
  induction fuel with
  | zero => intro s count mp cdev _ _ room; omega
  | succ fuel ih =>
    intro s count mp cdev live dev room short
    unfold handleMinorSendLoop
    simp only [live, Option.bind_eq_bind, Option.bind_some]
    cases queue : mp.outqueue with
    | nil => exact ⟨s, count, rfl, .none (by rw [queue]; rfl) live rfl rfl⟩
    | cons skb outqueue =>
      rw [queue] at room short
      simp only [List.length_cons] at room
      obtain ⟨request, carries, len, handle⟩ := dataB3Req_reads cdev.ap mp (env.address s.tick)
        (short skb List.mem_cons_self)
      have short' : ∀ skb ∈ outqueue, skb.data.length ≤ 65535 := fun x member => short x (List.mem_cons_of_mem _ member)
      have pulled : ∀ len, (skb.push (dataB3Req cdev.ap mp (env.address s.tick) len)).pull CAPI_DATA_B3_REQ_LEN = skb :=
        fun len => skb.pull_push _ _ rfl
      simp only [dev, Option.bind_some, mem s.tick, not_true, if_false, pulled]
      have again : ∀ (s₁ : Driver) (mp₁ : Capiminor) (n : Nat), s₁.minors p = some mp₁ → s₁.devs = s.devs →
          mp₁.ap = mp.ap → mp₁.outqueue = outqueue →
          ∃ s' n', handleMinorSendLoop env fuel s₁ p n = some (s', n') ∧ Sent env s₁ p mp₁ s' := by
        intro s₁ mp₁ n live₁ devs ap rest
        apply ih s₁ n mp₁ cdev live₁ (by rw [devs, ap]; exact dev) (by rw [rest]; omega)
        rw [rest]
        exact short'
      have added : (capincciAddAck { mp with msgid := mp.msgid + 1, outqueue } mp.datahandle).out =
          (outqueue, mp.ttyskb, mp.datahandle) ∧
          (capincciAddAck { mp with msgid := mp.msgid + 1, outqueue } mp.datahandle).ap = mp.ap := ⟨rfl, rfl⟩
      generalize capincciAddAck { mp with msgid := mp.msgid + 1, outqueue } mp.datahandle = mp₁ at added ⊢
      simp only [Capiminor.out, Prod.mk.injEq] at added
      obtain ⟨⟨rest, held, kept⟩, ap⟩ := added
      have message : (skb.push (dataB3Req cdev.ap mp (env.address s.tick) (UInt16.ofNat skb.len))).data =
          dataB3Req cdev.ap mp (env.address s.tick) (UInt16.ofNat skb.data.length) ++ skb.data := rfl
      rw [message]
      generalize dataB3Req cdev.ap mp (env.address s.tick) (UInt16.ofNat skb.data.length) ++ skb.data = m at *
      have asked : ∀ info, (putCapiMessage ((s.talk p mp).asked.talk p mp₁) mp₁.ap m info).tick = s.tick + 1 ∧
          (putCapiMessage ((s.talk p mp).asked.talk p mp₁) mp₁.ap m info).devs = s.devs ∧
          requests (putCapiMessage ((s.talk p mp).asked.talk p mp₁) mp₁.ap m info).accepted =
            requests s.accepted ++ if info = .NOERR then [m] else [] := by
        intro info
        unfold putCapiMessage
        split
        · refine ⟨rfl, rfl, (requests_append _ _).trans ?_⟩
          simp [requests, request, Driver.talk, Driver.asked]
        · exact ⟨rfl, rfl, (List.append_nil _).symm⟩
      obtain ⟨tick, devs, log⟩ := asked (env.put s.tick)
      generalize putCapiMessage ((s.talk p mp).asked.talk p mp₁) mp₁.ap m (env.put s.tick) = s₂ at tick devs log ⊢
      rcases eq_or_ne (env.put s.tick) .NOERR with ok | refused
      · -- accepted, and the next handle is used
        rw [if_pos ok] at log ⊢
        let mp₂ : Capiminor :=
          { mp₁ with datahandle := mp₁.datahandle + 1, outbytes := mp₁.outbytes - .ofNat (UInt16.ofNat skb.len).toNat }
        obtain ⟨s', n', run, sent⟩ := again (s₂.setMinor p mp₂) mp₂ (count + 1) (Function.update_self _ _ _) devs ap rest
        refine ⟨s', n', run, sent.accept queue ?_ tick rest held ?_ log carries ?_ handle⟩
        · rw [verdict, if_pos ok]
        · show mp₁.datahandle + 1 = mp.datahandle + 1
          rw [kept]
        · rw [carries]
          exact len
      · rw [if_neg refused] at log ⊢
        rw [List.append_nil] at log
        obtain ⟨same, ap', -, -⟩ := capiminorDelAck_out mp₁ mp.datahandle
        generalize capiminorDelAck mp₁ mp.datahandle = mp₂ at same ap' ⊢
        simp only [Capiminor.out, Prod.mk.injEq] at same
        obtain ⟨rest', held', kept'⟩ := same
        rcases eq_or_ne (env.put s.tick) .QUEUEFULL with full | busy
        · rw [if_pos full]
          refine ⟨_, _, rfl, .none ?_ (Function.update_self _ _ _) ?_ log⟩
          · rw [queue, drain, Function.comp_apply, verdict, if_neg refused, if_pos full]
          · simp only [Capiminor.out, Prod.mk.injEq]
            exact ⟨queue.symm, held'.trans held, kept'.trans kept⟩
        · -- dropped
          rw [if_neg busy]
          let mp₃ : Capiminor := { mp₂ with outbytes := mp₂.outbytes - .ofNat (UInt16.ofNat skb.len).toNat }
          obtain ⟨s', n', run, sent⟩ := again (s₂.setMinor p mp₃) mp₃ count (Function.update_self _ _ _) devs
            (ap'.trans ap) (rest'.trans rest)
          refine ⟨s', n', run, sent.drop queue ?_ tick (rest'.trans rest) (held'.trans held) (kept'.trans kept) log⟩
          rw [verdict, if_neg refused, if_neg busy]

end Sending

/-! ## Reception leaves the way out alone -/

/-- No DATA_B3_REQ is accepted, and the minor's way out stays. -/
structure Aside (p : Nat) (s s' : Driver) : Prop where
  out : (s'.minors p).map Capiminor.out = (s.minors p).map Capiminor.out
  log : requests s'.accepted = requests s.accepted

theorem Aside.refl (p : Nat) (s : Driver) : Aside p s s := ⟨rfl, rfl⟩

theorem Aside.trans {p : Nat} {s t u : Driver} (first : Aside p s t) (second : Aside p t u) : Aside p s u :=
  ⟨second.out.trans first.out, second.log.trans first.log⟩

/-- A minor changed in other fields sends as before. -/
theorem Aside.setMinor {p : Nat} {s : Driver} {mp mp' : Capiminor} (live : s.minors p = some mp)
    (same : mp'.out = mp.out) : Aside p s (s.setMinor p mp') := by
  constructor
  · have now : (s.setMinor p mp').minors p = some mp' := Function.update_self _ _ _
    rw [now, live, Option.map_some, Option.map_some, same]
  · rfl

section Receiving

variable {env : Env} {p : Nat} {s s' : Driver}

theorem genDataB3RespFor_aside {skb : Skb} {resp : Option Bytes}
    (run : genDataB3RespFor env s p skb = some (s', resp)) :
    Aside p s s' ∧ ∀ m, resp = some m → isDataB3Req m = false := by
  obtain ⟨mp, live, run⟩ := Option.bind_eq_some_iff.mp run
  split at run
  · cases run
    exact ⟨.refl p s, fun m got => nomatch got⟩
  · obtain ⟨cdev, -, run⟩ := Option.bind_eq_some_iff.mp run
    cases run
    constructor
    · have counted := @Aside.setMinor p (s.talk p mp) mp { mp with msgid := mp.msgid + 1 } live rfl
      exact ⟨counted.out, counted.log⟩
    · intro m got
      cases got
      rfl

/-- A received block concerns no outgoing data. -/
theorem handleRecvSkb_aside {skb : Skb} {ok : Bool} (run : handleRecvSkb env s p skb = some (s', ok)) :
    Aside p s s' := by
  obtain ⟨mp, live, run⟩ := Option.bind_eq_some_iff.mp run
  simp only at run
  cases own : mp.tty with
  | none =>
    rw [own] at run
    cases run
    exact ⟨rfl, rfl⟩
  | some tty =>
    rw [own] at run
    simp only at run
    split at run
    · cases run
      exact ⟨rfl, rfl⟩
    split at run
    · cases run
      exact ⟨rfl, rfl⟩
    split at run
    · cases run
      exact ⟨rfl, rfl⟩
    obtain ⟨⟨s₁, resp⟩, gen, run⟩ := Option.bind_eq_some_iff.mp run
    obtain ⟨aside, other⟩ := genDataB3RespFor_aside gen
    cases resp with
    | none =>
      cases run
      exact ⟨aside.out, aside.log⟩
    | some m =>
      simp only at run
      have put : ∀ info, Aside p s (putCapiMessage (s₁.talk p mp) mp.ap m info) := by
        intro info
        unfold putCapiMessage
        split
        · constructor
          · exact aside.out
          · refine (requests_append _ _).trans ?_
            have none : requests [(mp.ap, m)] = [] := by simp [requests, other m rfl]
            rw [none, List.append_nil]
            exact aside.log
        · exact ⟨aside.out, aside.log⟩
      split at run
      · cases run
        exact ⟨(put _).out, (put _).log⟩
      · cases run
        exact ⟨(put _).out, (put _).log⟩

theorem handleMinorRecvLoop_aside : ∀ {fuel : Nat} {s s' : Driver},
    handleMinorRecvLoop env fuel s p = some s' → Aside p s s' := by
  intro fuel
  induction fuel with
  | zero => intro s s' run; cases run
  | succ fuel ih =>
    intro s s' run
    obtain ⟨mp, live, run⟩ := Option.bind_eq_some_iff.mp run
    simp only at run
    split at run
    · cases run
      exact .refl p _
    · rename_i skb inqueue _
      obtain ⟨⟨s₁, ok⟩, one, run⟩ := Option.bind_eq_some_iff.mp run
      have taken : Aside p s (s.setMinor p { mp with inqueue, inbytes := mp.inbytes - .ofNat skb.len }) := .setMinor live rfl
      have first := taken.trans (handleRecvSkb_aside one)
      simp only at run
      split at run
      · exact first.trans (ih run)
      · obtain ⟨mp₁, live₁, run⟩ := Option.bind_eq_some_iff.mp run
        cases run
        exact first.trans (.setMinor live₁ rfl)

theorem handleMinorRecv_aside (run : handleMinorRecv env s p = some s') : Aside p s s' := by
  obtain ⟨mp, -, run⟩ := Option.bind_eq_some_iff.mp run
  exact handleMinorRecvLoop_aside run

end Receiving

/-! ## Runs -/

/-- The driver and the bytes written to the tty so far. -/
structure Tx where
  driver : Driver
  written : Bytes

/-- Calls on the tty of a minor, and a DATA_B3_CONF for it. -/
inductive TxOp where
  | putChar (ch : UInt8)
  | write (fromUser : Bool) (buf : Bytes)
  | flushChars
  | stop
  | start
  | dataB3Conf (skb : Skb)

/-- One call on tty `tty`, or a message for minor `p` of file `d`. A write counts when it returns its length. -/
def txStep (env : Env) (tty d p : Nat) (x : Tx) : TxOp → Option Tx
  | .putChar ch => (capincTtyPutChar env x.driver tty ch).map fun s => ⟨s, x.written ++ [ch]⟩
  | .write fromUser buf => (capincTtyWrite env x.driver tty fromUser buf).map fun (s, n) =>
    ⟨s, if n = buf.length then x.written ++ buf else x.written⟩
  | .flushChars => (capincTtyFlushChars env x.driver tty).map fun s => ⟨s, x.written⟩
  | .stop => (capincTtyStop x.driver tty).map fun s => ⟨s, x.written⟩
  | .start => (capincTtyStart env x.driver tty).map fun s => ⟨s, x.written⟩
  | .dataB3Conf skb => (recvDataB3 env x.driver d p skb).map fun s => ⟨s, x.written⟩

/-- The minor lets go of no data when it sends what it has queued, the first packet at tick `t`. -/
def Keeps (env : Env) (t : Nat) (mp : Capiminor) : Prop :=
  (mp.tty.isSome ∧ mp.ttyoutstop) ∨ Undropped (verdict ∘ env.put) Skb.data t mp.outqueue

/-- The capicore does not answer BUSY to a packet with data in it. -/
def BusyFree (env : Env) (p : Nat) (x : Tx) (op : TxOp) : Prop :=
  ∀ mp, x.driver.minors p = some mp →
    match op with
    | .putChar _ => ∀ skb, mp.ttyskb = some skb → skb.tailroom = 0 → Keeps env x.driver.tick (flushTtyskb mp)
    | .write fromUser buf => ¬ (fromUser ∧ env.fault x.driver.tick) →
      Keeps env (x.driver.tick + 1)
        { flushTtyskb mp with outqueue := (flushTtyskb mp).outqueue ++ [⟨buf, 0, env.slab x.driver.tick⟩] }
    | .flushChars => mp.ttyskb.isSome → Keeps env x.driver.tick (flushTtyskb mp)
    | .stop => True
    | .start => Keeps env x.driver.tick { mp with ttyoutstop := false }
    | .dataB3Conf _ => Keeps env x.driver.tick mp

/-- Writes are at most 65535 bytes long, and the message is a DATA_B3_CONF. -/
def TxOp.Allowed : TxOp → Prop
  | .write _ buf => buf.length ≤ 65535
  | .dataB3Conf skb => skb.u8 5 = CAPI_CONF
  | _ => True

/-- The bytes collected by `put_char`. -/
def Capiminor.collected (mp : Capiminor) : Bytes := (mp.ttyskb.map Skb.data).getD []

/-- The payloads accepted since the log had `base`, what is queued and what is collected are the bytes written, and
the messages accepted since then are numbered from `h`. -/
def Lossless (base : List Bytes) (h : UInt16) (p : Nat) (x : Tx) : Prop :=
  ∃ sent mp, requests x.driver.accepted = base ++ sent ∧ x.driver.minors p = some mp ∧
    sent.flatMap payload ++ mp.outqueue.flatMap Skb.data ++ mp.collected = x.written ∧ Numbered h sent

/-- The same for any content `c` in place of what was written. -/
structure Holding (base : List Bytes) (h : UInt16) (tty p : Nat) (s : Driver) (mp : Capiminor) (c : Bytes) : Prop where
  attached : Attached s p
  ref : s.ttys tty = some p
  live : s.minors p = some mp
  short : ∀ skb ∈ mp.outqueue, skb.data.length ≤ 65535
  room : ∀ skb, mp.ttyskb = some skb → skb.data.length + skb.tailroom ≤ 65535
  sent : ∃ sent, requests s.accepted = base ++ sent ∧ Numbered h sent ∧
    mp.datahandle = h + UInt16.ofNat sent.length ∧
    sent.flatMap payload ++ mp.outqueue.flatMap Skb.data ++ mp.collected = c

/-- Without a buffer no characters are collected. -/
theorem Capiminor.collected_none {mp : Capiminor} (empty : mp.ttyskb = none) : mp.collected = [] := by
  rw [collected, empty]
  rfl

/-- The characters collected are those of the buffer. -/
theorem Capiminor.collected_some {mp : Capiminor} {skb : Skb} (some : mp.ttyskb = some skb) :
    mp.collected = skb.data := by
  rw [collected, some]
  rfl

/-- The bytes in transit are known from the driver. -/
theorem Holding.lossless_iff {base : List Bytes} {h : UInt16} {tty p : Nat} {x : Tx} {mp : Capiminor} {c : Bytes}
    (holding : Holding base h tty p x.driver mp c) : Lossless base h p x ↔ c = x.written := by
  obtain ⟨sent, log, numbered, -, data⟩ := holding.sent
  constructor
  · intro lossless
    obtain ⟨sent', mp', log', live', data', -⟩ := lossless
    obtain rfl := Option.some.inj (live'.symm.trans holding.live)
    obtain rfl := List.append_cancel_left (log.symm.trans log')
    exact data.symm.trans data'
  · intro same
    exact ⟨sent, mp, log, holding.live, data.trans same, numbered⟩

section Calls

variable {env : Env} {base : List Bytes} {h : UInt16} {tty p : Nat} {s : Driver} {mp : Capiminor} {c : Bytes}

theorem Holding.ttyMinor (holding : Holding base h tty p s mp c) : ttyMinor s tty = some (some (p, mp)) := by
  obtain ⟨mp', cdev, live, link, -⟩ := holding.attached
  obtain rfl := Option.some.inj (live.symm.trans holding.live)
  simp [Capi.ttyMinor, holding.ref, live, link]

/-- The minor changes, its links and the log do not, and `new` joins the content. -/
theorem Holding.setMinor (holding : Holding base h tty p s mp c) (mp' : Capiminor) (links : mp'.links = mp.links)
    (handle : mp'.datahandle = mp.datahandle) (short : ∀ skb ∈ mp'.outqueue, skb.data.length ≤ 65535)
    (room : ∀ skb, mp'.ttyskb = some skb → skb.data.length + skb.tailroom ≤ 65535) {new c' : Bytes}
    (data : mp'.outqueue.flatMap Skb.data ++ mp'.collected = mp.outqueue.flatMap Skb.data ++ mp.collected ++ new)
    (total : c' = c ++ new) : Holding base h tty p (s.setMinor p mp') mp' c' := by
  obtain ⟨sent, log, numbered, next, all⟩ := holding.sent
  refine ⟨holding.attached.tame (.setMinor holding.live links), holding.ref, Function.update_self _ _ _, short, room,
    sent, log, numbered, handle.trans next, ?_⟩
  rw [total, ← all, List.append_assoc, data]
  simp only [List.append_assoc]

/-- An allocation that fails leaves the data where it is. -/
theorem Holding.asked (holding : Holding base h tty p s mp c) : Holding base h tty p s.asked mp c :=
  ⟨holding.attached.tame (.asked s), holding.ref, holding.live, holding.short, holding.room, holding.sent⟩

/-- A packet within the limit joins the queue. -/
theorem Holding.short_queue (holding : Holding base h tty p s mp c) {skb : Skb} (small : skb.data.length ≤ 65535) :
    ∀ x ∈ mp.outqueue ++ [skb], x.data.length ≤ 65535 := by
  intro x member
  rcases List.mem_append.mp member with old | new
  · exact holding.short x old
  · obtain rfl := List.mem_singleton.mp new
    exact small

/-- A flush moves the collected characters to the queue. -/
theorem Holding.flush (holding : Holding base h tty p s mp c) :
    Holding base h tty p (s.setMinor p (flushTtyskb mp)) (flushTtyskb mp) c ∧ (flushTtyskb mp).ttyskb = none := by
  cases pending : mp.ttyskb with
  | none =>
    have same : flushTtyskb mp = mp := by rw [flushTtyskb, pending]
    rw [same]
    exact ⟨holding.setMinor mp rfl rfl holding.short holding.room (List.append_nil _).symm (List.append_nil c).symm,
      pending⟩
  | some skb =>
    have moved : flushTtyskb mp =
        { mp with ttyskb := none, outqueue := mp.outqueue ++ [skb], outbytes := mp.outbytes + .ofNat skb.len } := by
      rw [flushTtyskb, pending]
    have small : skb.data.length ≤ 65535 := by
      have room := holding.room skb pending
      omega
    have queue : (flushTtyskb mp).outqueue = mp.outqueue ++ [skb] := by rw [moved]
    have empty : (flushTtyskb mp).ttyskb = none := by rw [moved]
    constructor
    · apply holding.setMinor _ (flushTtyskb_links mp) (by rw [moved]) _ _ _ (List.append_nil c).symm
      · rw [queue]
        exact holding.short_queue small
      · intro x some
        rw [empty] at some
        cases some
      · rw [queue, Capiminor.collected_some pending, Capiminor.collected_none empty]
        simp
    · exact empty

/-- What sending does to the content. -/
theorem Holding.send (holding : Holding base h tty p s mp c) (mem : ∀ t, env.kmalloc t = true) :
    ∃ s' n mp' c', handleMinorSend env s p = some (s', n) ∧ Holding base h tty p s' mp' c' ∧
      mp'.ttyskb = mp.ttyskb ∧ (Keeps env s.tick mp → c' = c) ∧ (¬ Keeps env s.tick mp → c'.length < c.length) := by
  obtain ⟨s₁, n₁, run₁, tame⟩ := handleMinorSend_tame env holding.attached
  have runs := run₁
  simp only [handleMinorSend, holding.live, Option.bind_eq_bind, Option.bind_some] at runs
  split at runs
  · rename_i stopped
    cases runs
    exact ⟨s, 0, mp, c, run₁, holding, rfl, fun _ => rfl, fun lost => absurd (.inl stopped) lost⟩
  · rename_i going
    obtain ⟨_, cdev, live, -, dev⟩ := holding.attached
    cases live.symm.trans holding.live
    obtain ⟨s', n, run, ⟨mp', live', rest, held, next⟩, new, grown, data, numbered'⟩ :=
      handleMinorSendLoop_sent mem _ s 0 mp cdev live dev (Nat.lt_succ_self _) holding.short
    cases runs.symm.trans run
    obtain ⟨sent, log, numbered, handle, all⟩ := holding.sent
    have count : new.length = (drain (verdict ∘ env.put) s.tick mp.outqueue).1.length := by
      have lengths := congrArg List.length data
      rwa [List.length_map, List.length_map] at lengths
    have carried : new.flatMap payload =
        (drain (verdict ∘ env.put) s.tick mp.outqueue).1.flatMap Skb.data := by
      rw [List.flatMap_def, data, ← List.flatMap_def]
    have collected : mp'.collected = mp.collected := by rw [Capiminor.collected, held, Capiminor.collected]
    refine ⟨s₁, n₁, mp', _, run₁, ⟨holding.attached.tame tame, by rw [tame.ttys]; exact holding.ref, live', ?_, ?_,
      sent ++ new, by rw [grown, log, List.append_assoc], numbered.append (handle ▸ numbered'), ?_, rfl⟩, held, ?_, ?_⟩
    · intro skb member
      rw [rest] at member
      exact holding.short skb (drain_subset _ _ member)
    · rw [held]
      exact holding.room
    · rw [next, handle, ← count, List.length_append, UInt16.ofNat_add, UInt16.add_assoc]
    · intro keeps
      have undropped := keeps.resolve_left going
      rw [← all, List.flatMap_append, carried, rest, collected, List.append_assoc (sent.flatMap payload),
        drain_undropped mp.outqueue undropped]
    · intro lost
      have dropped := drain_dropped mp.outqueue fun kept => lost (.inr kept)
      rw [← all, List.flatMap_append, carried, rest, collected]
      simp only [List.length_append]
      omega

/-- Reception does not change the content. -/
theorem Holding.recv (holding : Holding base h tty p s mp c) :
    ∃ s' mp', handleMinorRecv env s p = some s' ∧ Holding base h tty p s' mp' c := by
  obtain ⟨s', run, tame⟩ := handleMinorRecv_tame env holding.attached
  have aside := handleMinorRecv_aside run
  have same := aside.out
  rw [holding.live, Option.map_some, Option.map_eq_some_iff] at same
  obtain ⟨mp', live, same⟩ := same
  simp only [Capiminor.out, Prod.mk.injEq] at same
  obtain ⟨queue, ttyskb, handle⟩ := same
  have collected : mp'.collected = mp.collected := by rw [Capiminor.collected, ttyskb, Capiminor.collected]
  obtain ⟨sent, log, numbered, next, all⟩ := holding.sent
  refine ⟨s', mp', run, holding.attached.tame tame, by rw [tame.ttys]; exact holding.ref, live, ?_, ?_, sent,
    aside.log.trans log, numbered, handle.trans next, by rw [queue, collected]; exact all⟩
  · rw [queue]
    exact holding.short
  · rw [ttyskb]
    exact holding.room

/-- The content after a call: `c` if `kept`, and less otherwise. -/
def Outcome (base : List Bytes) (h : UInt16) (tty p : Nat) (s : Driver) (c : Bytes) (kept : Prop) : Prop :=
  ∃ mp c', Holding base h tty p s mp c' ∧ (kept → c' = c) ∧ (¬ kept → c'.length < c.length)

/-- An outcome under an equivalent condition. -/
theorem Outcome.of_iff {kept kept' : Prop} (outcome : Outcome base h tty p s c kept) (same : kept' ↔ kept) :
    Outcome base h tty p s c kept' := by
  rwa [propext same]

/-- What holds all data loses none. -/
theorem Holding.outcome (holding : Holding base h tty p s mp c) {kept : Prop} (always : kept) :
    Outcome base h tty p s c kept :=
  ⟨mp, c, holding, fun _ => rfl, fun lost => absurd always lost⟩

/-- The first of the collected characters. -/
theorem Holding.newTtyskb (holding : Holding base h tty p s mp c) (mem : ∀ t, env.kmalloc t = true)
    (empty : mp.ttyskb = none) (ch : UInt8) :
    ∃ s' mp', capincTtyPutChar.newTtyskb env s p ch = some s' ∧ Holding base h tty p s' mp' (c ++ [ch]) := by
  have live : s.asked.minors p = some mp := holding.live
  let skb : Skb := { data := [ch], tailroom := env.tailroom s.tick - 1, beyond := env.slab s.tick }
  refine ⟨s.asked.setMinor p { mp with ttyskb := some skb }, _, ?_,
    holding.asked.setMinor { mp with ttyskb := some skb } rfl rfl holding.short ?_ ?_ rfl⟩
  · simp only [capincTtyPutChar.newTtyskb, mem, if_true, live, Option.bind_eq_bind, Option.bind_some]
    rfl
  · intro skb' some
    cases some
    have range := env.tailroom_range s.tick
    show 1 + (env.tailroom s.tick - 1) ≤ 65535
    simp only [CAPI_MAX_BLKSIZE] at range
    omega
  · rw [Capiminor.collected_none empty, List.append_nil]
    rfl

/-- A character is collected; a full buffer is sent first. -/
theorem Holding.putChar (holding : Holding base h tty p s mp c) (mem : ∀ t, env.kmalloc t = true) (ch : UInt8) :
    ∃ s', capincTtyPutChar env s tty ch = some s' ∧ Outcome base h tty p s' (c ++ [ch])
      (∀ skb, mp.ttyskb = some skb → skb.tailroom = 0 → Keeps env s.tick (flushTtyskb mp)) := by
  simp only [capincTtyPutChar, holding.ttyMinor, Option.bind_eq_bind, Option.bind_some]
  cases pending : mp.ttyskb with
  | none =>
    obtain ⟨s', mp', run, more⟩ := holding.newTtyskb mem pending ch
    exact ⟨s', run, more.outcome nofun⟩
  | some skb =>
    simp only
    split
    · rename_i free
      refine ⟨_, rfl, Holding.outcome (holding.setMinor { mp with ttyskb := some (skb.putByte ch) } rfl rfl
        holding.short ?_ ?_ rfl) ?_⟩
      · intro skb' some
        cases some
        have room := holding.room skb pending
        simp only [Skb.putByte, List.length_append, List.length_singleton]
        omega
      · rw [Capiminor.collected_some pending, Capiminor.collected_some rfl, List.append_assoc]
        rfl
      · intro skb' some full
        cases some
        omega
    · rename_i full
      obtain ⟨flushed, empty⟩ := holding.flush
      obtain ⟨s₁, n, mp₁, c₁, send, sent, same, keeps, loses⟩ := flushed.send mem
      obtain ⟨s', mp', run, more⟩ := sent.newTtyskb mem (same.trans empty) ch
      refine ⟨s', by simp only [send, Option.bind_some, run], mp', _, more, ?_, ?_⟩
      · intro kept
        rw [keeps (kept skb rfl (Nat.eq_zero_of_not_pos full))]
      · intro lost
        have less := loses fun kept => lost fun _ _ _ => kept
        simp only [List.length_append]
        omega

/-- A write is queued and sent. -/
theorem Holding.write (holding : Holding base h tty p s mp c) (mem : ∀ t, env.kmalloc t = true) (fromUser : Bool)
    {buf : Bytes} (small : buf.length ≤ 65535) :
    ∃ s' n, capincTtyWrite env s tty fromUser buf = some (s', n) ∧
      Outcome base h tty p s' (if n = buf.length then c ++ buf else c)
        (¬ (fromUser ∧ env.fault s.tick) → Keeps env (s.tick + 1)
          { flushTtyskb mp with outqueue := (flushTtyskb mp).outqueue ++ [⟨buf, 0, env.slab s.tick⟩] }) := by
  obtain ⟨flushed, empty⟩ := holding.flush
  simp only [capincTtyWrite, holding.ttyMinor, Option.bind_eq_bind, Option.bind_some, mem, not_true, if_false]
  split
  · rename_i fault
    have short : (- EFAULT : Int) ≠ buf.length := by
      simp only [EFAULT]
      omega
    refine ⟨_, _, rfl, ?_⟩
    rw [if_neg short]
    exact flushed.asked.outcome fun fine => absurd fault fine
  · rename_i fine
    generalize packet : (⟨buf, 0, env.slab s.tick⟩ : Skb) = skb
    have data : skb.data = buf := by rw [← packet]
    have queued : Holding base h tty p _ _ (c ++ buf) := flushed.asked.setMinor
      { flushTtyskb mp with
        outqueue := (flushTtyskb mp).outqueue ++ [skb], outbytes := (flushTtyskb mp).outbytes + .ofNat skb.len }
      rfl rfl (flushed.short_queue (data ▸ small)) flushed.room
      (by simp [Capiminor.collected, empty, data]) rfl
    obtain ⟨s₁, n, mp₁, c₁, send, sent, -, keeps, loses⟩ := queued.send mem
    obtain ⟨s', mp', recv, received⟩ := @Holding.recv env _ _ _ _ _ _ _ sent
    refine ⟨s', buf.length, by simp only [send, recv, Option.bind_some], ?_⟩
    rw [if_pos rfl]
    exact ⟨mp', c₁, received, fun kept => keeps (kept fine), fun lost => loses fun kept => lost fun _ => kept⟩

theorem Holding.flushChars (holding : Holding base h tty p s mp c) (mem : ∀ t, env.kmalloc t = true) :
    ∃ s', capincTtyFlushChars env s tty = some s' ∧
      Outcome base h tty p s' c (mp.ttyskb.isSome → Keeps env s.tick (flushTtyskb mp)) := by
  simp only [capincTtyFlushChars, holding.ttyMinor, Option.bind_eq_bind, Option.bind_some]
  split
  · rename_i some
    obtain ⟨s₁, n, mp₁, c₁, send, sent, -, keeps, loses⟩ := holding.flush.1.send mem
    obtain ⟨s', mp', recv, received⟩ := @Holding.recv env _ _ _ _ _ _ _ sent
    refine ⟨s', by simp only [send, Option.map_some, Option.bind_some, recv], mp', c₁, received, ?_, ?_⟩
    · exact fun kept => keeps (kept some)
    · exact fun lost => loses fun kept => lost fun _ => kept
  · rename_i none
    obtain ⟨s', mp', recv, received⟩ := @Holding.recv env _ _ _ _ _ _ _ holding
    exact ⟨s', by simp only [Option.bind_some, recv], received.outcome fun some => absurd some none⟩

/-- Sending once, after a change that leaves the content as it is. -/
theorem Holding.sendOutcome (holding : Holding base h tty p s mp c) (mem : ∀ t, env.kmalloc t = true) :
    ∃ s' n, handleMinorSend env s p = some (s', n) ∧ Outcome base h tty p s' c (Keeps env s.tick mp) := by
  obtain ⟨s', n, mp', c', send, sent, -, keeps, loses⟩ := holding.send mem
  exact ⟨s', n, send, mp', c', sent, keeps, loses⟩

/-- A start sends what was stopped. -/
theorem Holding.start (holding : Holding base h tty p s mp c) (mem : ∀ t, env.kmalloc t = true) :
    ∃ s', capincTtyStart env s tty = some s' ∧
      Outcome base h tty p s' c (Keeps env s.tick { mp with ttyoutstop := false }) := by
  have started := holding.setMinor { mp with ttyoutstop := false } rfl rfl holding.short holding.room
    (List.append_nil _).symm (List.append_nil c).symm
  obtain ⟨s', n, send, outcome⟩ := started.sendOutcome mem
  refine ⟨s', ?_, outcome⟩
  simp only [capincTtyStart, holding.ref, holding.live, Option.bind_eq_bind, Option.bind_some, send, Option.map_some]

theorem Holding.stop (holding : Holding base h tty p s mp c) :
    ∃ s', capincTtyStop s tty = some s' ∧ Outcome base h tty p s' c True := by
  have stopped := holding.setMinor { mp with ttyoutstop := true } rfl rfl holding.short holding.room
    (List.append_nil _).symm (List.append_nil c).symm
  refine ⟨_, ?_, stopped.outcome trivial⟩
  simp only [capincTtyStop, holding.ref, holding.live, Option.bind_eq_bind, Option.bind_some]

/-- A DATA_B3_CONF sends what waited for it. -/
theorem Holding.dataB3Conf (holding : Holding base h tty p s mp c) (mem : ∀ t, env.kmalloc t = true) (d : Nat)
    {skb : Skb} (conf : skb.u8 5 = CAPI_CONF) :
    ∃ s', recvDataB3 env s d p skb = some s' ∧ Outcome base h tty p s' c (Keeps env s.tick mp) := by
  obtain ⟨same, -, tty_same, stop_same⟩ := capiminorDelAck_out mp (skb.u16 (CAPI_MSG_BASELEN + 4))
  have links := (capiminorDelAck_links mp (skb.u16 (CAPI_MSG_BASELEN + 4))).1
  have recv : recvDataB3 env s d p skb = (handleMinorSend env (s.setMinor p
      (capiminorDelAck mp (skb.u16 (CAPI_MSG_BASELEN + 4)))) p).bind fun r => some r.1 := by
    have other : CAPI_CONF ≠ CAPI_IND := by decide
    simp only [recvDataB3, conf, if_neg other, if_true, holding.live, Option.bind_eq_bind, Option.bind_some]
    rfl
  generalize capiminorDelAck mp (skb.u16 (CAPI_MSG_BASELEN + 4)) = mp₁ at same tty_same stop_same links recv
  simp only [Capiminor.out, Prod.mk.injEq] at same
  obtain ⟨queue, ttyskb, handle⟩ := same
  have acked := holding.setMinor mp₁ links handle (by rw [queue]; exact holding.short)
    (by rw [ttyskb]; exact holding.room) (by
      rw [queue, Capiminor.collected, ttyskb, ← Capiminor.collected]
      exact (List.append_nil _).symm) (List.append_nil c).symm
  obtain ⟨s', n, send, outcome⟩ := acked.sendOutcome mem
  refine ⟨s', by rw [recv, send, Option.bind_some], outcome.of_iff ?_⟩
  rw [Keeps, Keeps, queue, tty_same, stop_same]
  rfl

/-- One call: it has an outcome, and the bytes it reports as written join the content exactly when the capicore does
not answer BUSY. -/
theorem txStep_outcome {x : Tx} (holding : Holding base h tty p x.driver mp c) (mem : ∀ t, env.kmalloc t = true)
    (d : Nat) {op : TxOp} (allowed : op.Allowed) :
    ∃ x' new, txStep env tty d p x op = some x' ∧ x'.written = x.written ++ new ∧
      Outcome base h tty p x'.driver (c ++ new) (BusyFree env p x op) := by
  have here {kept : Capiminor → Prop} : (∀ mp', x.driver.minors p = some mp' → kept mp') ↔ kept mp := by
    constructor
    · intro all
      exact all mp holding.live
    · intro kept mp' live
      obtain rfl := Option.some.inj (holding.live.symm.trans live)
      exact kept
  cases op with
  | putChar ch =>
    obtain ⟨s', run, outcome⟩ := holding.putChar mem ch
    exact ⟨⟨s', x.written ++ [ch]⟩, [ch], by rw [txStep, run, Option.map_some], rfl, outcome.of_iff here⟩
  | write fromUser buf =>
    obtain ⟨s', n, run, outcome⟩ := holding.write mem fromUser allowed
    refine ⟨⟨s', if n = buf.length then x.written ++ buf else x.written⟩, if n = buf.length then buf else [],
      by rw [txStep, run, Option.map_some], ?_, ?_⟩
    · split
      · rfl
      · exact (List.append_nil _).symm
    · have total : c ++ (if n = buf.length then buf else []) = if n = buf.length then c ++ buf else c := by
        split
        · rfl
        · exact List.append_nil c
      rw [total]
      exact outcome.of_iff here
  | flushChars =>
    obtain ⟨s', run, outcome⟩ := holding.flushChars mem
    refine ⟨⟨s', x.written⟩, [], by rw [txStep, run, Option.map_some], (List.append_nil _).symm, ?_⟩
    rw [List.append_nil]
    exact outcome.of_iff here
  | stop =>
    obtain ⟨s', run, outcome⟩ := holding.stop
    refine ⟨⟨s', x.written⟩, [], by rw [txStep, run, Option.map_some], (List.append_nil _).symm, ?_⟩
    rw [List.append_nil]
    exact outcome.of_iff here
  | start =>
    obtain ⟨s', run, outcome⟩ := holding.start mem
    refine ⟨⟨s', x.written⟩, [], by rw [txStep, run, Option.map_some], (List.append_nil _).symm, ?_⟩
    rw [List.append_nil]
    exact outcome.of_iff here
  | dataB3Conf skb =>
    obtain ⟨s', run, outcome⟩ := holding.dataB3Conf mem d allowed
    refine ⟨⟨s', x.written⟩, [], by rw [txStep, run, Option.map_some], (List.append_nil _).symm, ?_⟩
    rw [List.append_nil]
    exact outcome.of_iff here

end Calls

/-- While the capicore answers NOERR and QUEUEFULL only, nothing is dropped. -/
theorem busyFree_of_put {env : Env} (answers : ∀ t, env.put t = .NOERR ∨ env.put t = .QUEUEFULL) (p : Nat) (x : Tx)
    (op : TxOp) : BusyFree env p x op := by
  have keeps : ∀ t mp, Keeps env t mp := by
    intro t mp
    apply Or.inr
    apply undropped_of_forall
    intro t
    rcases answers t with ok | full
    · rw [Function.comp_apply, ok]
      decide
    · rw [Function.comp_apply, full]
      decide
  intro mp live
  cases op with
  | putChar ch => exact fun _ _ _ => keeps _ _
  | write fromUser buf => exact fun _ => keeps _ _
  | flushChars => exact fun _ => keeps _ _
  | stop => trivial
  | start => exact keeps _ _
  | dataB3Conf skb => exact keeps _ _

/-- One file with one NCCI, whose tty is open. -/
def Driver.oneTty : Driver :=
  { Driver.oneFile.setMinor 0
      { nccip := true, minor := 0, ap := 0, ncci := 0x101, datahandle := 0, msgid := 0, tty := some 0,
        ttyinstop := false, ttyoutstop := false, ttyskb := none, ttyopencount := 1, inqueue := [], inbytes := 0,
        outqueue := [], outbytes := 0, ackqueue := [], nack := 0 } with
    ttys := fun _ => some 0 }

/-- The capicore refuses the first message with `info`. -/
def Env.refusing (info : Capinfo0x11) : Env :=
  { Env.granting with put := fun t => if t = 1 then info else .NOERR }

/-- A tty whose minor is attached and has nothing to send loses nothing exactly as long as the capicore does not
answer BUSY, or another error than QUEUEFULL, to a packet with data in it. -/
theorem transmit_lossless_iff (env : Env) (mem : ∀ t, env.kmalloc t = true) {s : Driver} {tty p : Nat} {mp : Capiminor}
    (attached : Attached s p) (ref : s.ttys tty = some p) (live : s.minors p = some mp) (idle : mp.outqueue = [])
    (empty : mp.ttyskb = none) (d : Nat) {ops : List TxOp} (allowed : ∀ op ∈ ops, op.Allowed) :
    (∃ x, exec (txStep env tty d p) ⟨s, []⟩ ops = some x) ∧
      (Always (txStep env tty d p) (Lossless (requests s.accepted) mp.datahandle p) ⟨s, []⟩ ops ↔
        Meets (txStep env tty d p) (BusyFree env p) ⟨s, []⟩ ops) := by
  have start : Holding (requests s.accepted) mp.datahandle tty p s mp [] := by
    refine ⟨attached, ref, live, by rw [idle]; nofun, by rw [empty]; nofun, [], (List.append_nil _).symm, .nil _,
      (UInt16.add_zero _).symm, ?_⟩
    rw [idle, Capiminor.collected_none empty]
    rfl
  have all : Meets (txStep env tty d p) (fun _ op => op.Allowed) ⟨s, []⟩ ops := .of_mem allowed _
  constructor
  · have total : ∀ x op, (∃ mp' c, Holding (requests s.accepted) mp.datahandle tty p x.driver mp' c) → op.Allowed →
        ∃ x', txStep env tty d p x op = some x' ∧
          ∃ mp' c, Holding (requests s.accepted) mp.datahandle tty p x'.driver mp' c := by
      intro x op inv ok
      obtain ⟨mp', c, holding⟩ := inv
      obtain ⟨x', new, run, -, mp'', c', holding', -⟩ := txStep_outcome holding mem d ok
      exact ⟨x', run, mp'', c', holding'⟩
    obtain ⟨x, run, -⟩ := exec_of_inv total ⟨mp, [], start⟩ all
    exact ⟨x, run⟩
  · apply always_iff_meets (G := fun _ op => op.Allowed)
      fun x => ∃ mp', Holding (requests s.accepted) mp.datahandle tty p x.driver mp' x.written
    · intro x inv
      obtain ⟨mp', holding⟩ := inv
      exact holding.lossless_iff.mpr rfl
    · intro x op x' inv ok free run
      obtain ⟨mp', holding⟩ := inv
      obtain ⟨x'', new, run', written, mp'', c', holding', keeps, -⟩ := txStep_outcome holding mem d ok
      cases run.symm.trans run'
      rw [keeps free, ← written] at holding'
      exact ⟨mp'', holding'⟩
    · intro x op inv ok busy
      obtain ⟨mp', holding⟩ := inv
      obtain ⟨x', new, run, written, mp'', c', holding', -, loses⟩ := txStep_outcome holding mem d ok
      refine ⟨x', run, fun lossless => ?_⟩
      have less := loses busy
      rw [holding'.lossless_iff.mp lossless, written] at less
      exact absurd less (Nat.lt_irrefl _)
    · exact ⟨mp, start⟩
    · exact all

/-- A packet refused with QUEUEFULL goes out with the characters that follow it. -/
theorem transmit_lossless_queuefull :
    (∃ x, exec (txStep (.refusing .QUEUEFULL) 0 0 0) ⟨.oneTty, []⟩ [.write false [1, 2], .putChar 3, .flushChars] =
        some x) ∧
      Always (txStep (.refusing .QUEUEFULL) 0 0 0) (Lossless [] 0 0) ⟨.oneTty, []⟩
        [.write false [1, 2], .putChar 3, .flushChars] := by
  have allowed : ∀ op ∈ [TxOp.write false [1, 2], .putChar 3, .flushChars], op.Allowed := by
    intro op member
    simp only [List.mem_cons, List.not_mem_nil, or_false] at member
    rcases member with rfl | rfl | rfl
    · show 2 ≤ 65535
      omega
    · trivial
    · trivial
  have answers : ∀ t, (Env.refusing .QUEUEFULL).put t = .NOERR ∨ (Env.refusing .QUEUEFULL).put t = .QUEUEFULL := by
    intro t
    show (if t = 1 then _ else _) = _ ∨ (if t = 1 then _ else _) = _
    split
    · exact .inr rfl
    · exact .inl rfl
  obtain ⟨run, iff⟩ := transmit_lossless_iff (.refusing .QUEUEFULL) (fun _ => rfl) (s := .oneTty) ⟨_, _, rfl, rfl, rfl⟩
    (show Driver.oneTty.ttys 0 = some 0 from rfl) rfl rfl rfl 0 allowed
  exact ⟨run, iff.mpr (.of_forall (busyFree_of_put answers 0) _ _)⟩

/-- A packet refused with BUSY is gone. -/
theorem transmit_busy_loses :
    ((exec (txStep (.refusing .BUSY) 0 0 0) ⟨.oneTty, []⟩ [.write false [1, 2]]).map fun x =>
        (x.driver.accepted, (x.driver.minors 0).map fun mp => mp.outqueue.length, x.written)) =
      some ([], some 0, [1, 2]) ∧
    ¬ Always (txStep (.refusing .BUSY) 0 0 0) (Lossless [] 0 0) ⟨.oneTty, []⟩ [.write false [1, 2]] := by
  constructor
  · rfl
  · intro always
    obtain ⟨sent, mp, log, live, data, -⟩ := always.2 _ rfl
    cases live
    obtain rfl : [] = sent := log
    cases data

end Capi4Linux.Capi
