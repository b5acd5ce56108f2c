import Capi4Linux.Capidrv.Buffers
import Capi4Linux.Capiutil.DataMessages

/-!
# The two ways to send a block

`if_sendbuf` pushes the header in front of the data of its caller, or, when
there is no room, in front of a copy. Each way has its own copy of the code that
gives the message to the capicore and of the code that takes it back.
-/

namespace Capi4Linux.Capidrv
open Bytes Capicore Capiutil

/-! ## Buffers -/

/-- `skb_push`. -/
def Buf.push (skb : Buf) (header : Bytes) : Buf := ⟨skb.headroom - header.length, header ++ skb.data⟩

/-- `skb_pull`. -/
def Buf.pull (skb : Buf) (len : Nat) : Buf := ⟨skb.headroom + len, skb.data.drop len⟩

/-- Pulling a header that was pushed gives the buffer back. -/
theorem pull_push {skb : Buf} {header : Bytes} (room : header.length ≤ skb.headroom) :
    (skb.push header).pull header.length = skb := by
  have back : skb.headroom - header.length + header.length = skb.headroom := by omega
  rw [Buf.push, Buf.pull, back, List.drop_left]

/-- Who has the buffer that was given to `if_sendbuf`. -/
inductive Owner where
  | caller | capicore | freed
  deriving DecidableEq

/-- After `if_sendbuf`: the card, the result, the buffer it was given, and the messages the capicore took. -/
structure Sending where
  card : Card
  res : Int
  skb : Buf
  owner : Owner
  accepted : List Bytes

section Paths

variable (env : Env) (s : Card) (chan n : Nat) (ncci : Ncci) (sendcmsg : Cmsg) (header : Bytes) (skb : Buf)

/-- The header goes in front of a copy. -/
def sendRealloc : Option Sending := do
  let t := s.tick
  let s := s.asked
  if ¬ env.kmalloc t then
    let (s, _) ← capidrvDelAck s n ncci.datahandle
    return ⟨s, 0, skb, .caller, []⟩
  let nskb := Buf.push ⟨header.length, skb.data⟩ header
  let (s, errcode) := putCapiMessage env s sendcmsg skb.data
  let s := { s with named := s.named ++ [(chan, ncci.ncci)] }
  if errcode = .NOERR then
    let nccip ← s.nccis n
    return ⟨s.setNcci n { nccip with datahandle := nccip.datahandle + 1 }, skb.data.length, skb, .freed, [nskb.data]⟩
  let (s, _) ← capidrvDelAck s n ncci.datahandle
  some ⟨s, if errcode = .QUEUEFULL then 0 else -1, skb, .caller, []⟩

/-- The header goes in front of the data of the caller. -/
def sendInPlace : Option Sending := do
  let pushed := skb.push header
  let (s, errcode) := putCapiMessage env s sendcmsg skb.data
  let s := { s with named := s.named ++ [(chan, ncci.ncci)] }
  if errcode = .NOERR then
    let nccip ← s.nccis n
    return ⟨s.setNcci n { nccip with datahandle := nccip.datahandle + 1 }, skb.data.length, pushed, .capicore,
      [pushed.data]⟩
  let (s, _) ← capidrvDelAck s n ncci.datahandle
  some ⟨s, if errcode = .QUEUEFULL then 0 else -1, pushed.pull header.length, .caller, []⟩

end Paths

/-- `if_sendbuf` with its two paths. -/
def ifSendbufPaths (env : Env) (s : Card) (arg : Nat) (doack : Bool) (skb : Buf) : Option Sending := do
  let chan ← channel env arg
  match (s.bchans chan).nccip with
  | none => some ⟨s, 0, skb, .caller, []⟩
  | some n =>
    let ncci ← s.nccis n
    if ncci.state ≠ .ACTIVE then return ⟨s, 0, skb, .caller, []⟩
    let len := skb.data.length
    let datahandle := ncci.datahandle
    let sendcmsg := capiFillDataB3Req env.applId s.msgid ncci.ncci (env.address s.tick) (UInt16.ofNat len) datahandle 0
    let s := s.nextMsgid
    match ← capidrvAddAck env s n datahandle (if doack then len else -1) with
    | none => some ⟨s.asked, 0, skb, .caller, []⟩
    | some s =>
      let header ← messageHeader sendcmsg
      if skb.headroom < header.length then sendRealloc env s chan n ncci sendcmsg header skb
      else sendInPlace env s chan n ncci sendcmsg header skb

/-- Apart from the owner of the buffer and the messages taken, `ifSendbuf` tells the same. -/
theorem ifSendbuf_eq_paths (env : Env) (s : Card) (arg : Nat) (doack : Bool) (skb : Buf) :
    ifSendbuf env s arg doack skb = (ifSendbufPaths env s arg doack skb).map fun o => (o.card, o.res, o.skb) := by
  unfold ifSendbuf ifSendbufPaths
  cases channel env arg with
  | none => rfl
  | some chan =>
    simp only [Option.bind_eq_bind, Option.bind_some]
    cases (s.bchans chan).nccip with
    | none => rfl
    | some n =>
      simp only
      cases s.nccis n with
      | none => rfl
      | some ncci =>
        simp only [Option.bind_some]
        by_cases active : ncci.state ≠ .ACTIVE
        · rw [if_pos active, if_pos active]
          rfl
        rw [if_neg active, if_neg active]
        cases capidrvAddAck env s.nextMsgid n ncci.datahandle (if doack = true then skb.data.length else -1) with
        | none => rfl
        | some ack =>
          cases ack with
          | none => rfl
          | some s₁ =>
            simp only [Option.bind_some]
            cases messageHeader (capiFillDataB3Req env.applId s.msgid ncci.ncci (env.address s.tick)
              (UInt16.ofNat skb.data.length) ncci.datahandle 0) with
            | none => rfl
            | some header =>
              simp only [Option.bind_some]
              by_cases room : skb.headroom < header.length
              · simp only [room, if_true, true_and, sendRealloc]
                split
                · simp only [Option.bind_eq_bind, Option.map_bind]
                  rfl
                split
                · simp only [Option.bind_eq_bind, Option.map_bind]
                  rfl
                · simp only [Option.bind_eq_bind, Option.map_bind]
                  rfl
              · simp only [room, if_false, false_and, sendInPlace]
                split
                · simp only [Option.bind_eq_bind, Option.map_bind]
                  rfl
                · simp only [Option.bind_eq_bind, Option.map_bind]
                  rfl

/-! ## An active connection -/

/-- The entry of the queue that goes with a block. -/
def ackLen (doack : Bool) (len : Nat) : Int := if doack then len else -1

/-- A block for which there was no memory. -/
def withdrawn (s : Card) (tick : Nat) (skb : Buf) : Sending :=
  ⟨{ s with tick, msgid := s.msgid + 1 }, 0, skb, .caller, []⟩

/-- The header of a block. -/
def blockHeader (env : Env) (s : Card) (ncci : Ncci) (skb : Buf) : Bytes :=
  dataB3ReqBytes env.applId s.msgid ncci.ncci (env.address s.tick) (UInt16.ofNat skb.data.length) ncci.datahandle 0

/-- A block whose message was given to the capicore; if it is taken, its buffer goes to `owner`. -/
def posted (env : Env) (s : Card) (chan n : Nat) (ncci : Ncci) (doack : Bool) (skb : Buf) (tick : Nat) (given : Buf)
    (owner : Owner) : Sending :=
  let sendcmsg := capiFillDataB3Req env.applId s.msgid ncci.ncci (env.address s.tick) (UInt16.ofNat skb.data.length)
    ncci.datahandle 0
  let errcode := env.put s.sent.length
  let t : Card :=
    { s with
      tick
      msgid := s.msgid + 1
      sent := s.sent ++ [⟨sendcmsg, skb.data, errcode⟩]
      named := s.named ++ [(chan, ncci.ncci)] }
  if errcode = .NOERR then
    { card := t.setNcci n
        { ncci with
          ackqueue := ncci.ackqueue ++ [(ncci.datahandle, ackLen doack skb.data.length)]
          datahandle := ncci.datahandle + 1 }
      res := skb.data.length
      skb := given
      owner
      accepted := [blockHeader env s ncci skb ++ skb.data] }
  else ⟨t, if errcode = .QUEUEFULL then 0 else -1, skb, .caller, []⟩

section Active

variable {env : Env} {s : Card} {chan n : Nat} {ncci : Ncci} {doack : Bool} {skb : Buf}

/-- The header of a DATA_B3_REQ is its fixed bytes. -/
theorem messageHeader_dataB3Req (applId messagenumber : UInt16) (adr data : UInt32) (dataLength dataHandle flags : UInt16) :
    messageHeader (capiFillDataB3Req applId messagenumber adr data dataLength dataHandle flags) =
      some (dataB3ReqBytes applId messagenumber adr data dataLength dataHandle flags) := by
  have room : 22 ≤ (List.replicate 180 (0 : UInt8)).length := by
    rw [List.length_replicate]
    decide
  obtain ⟨out, encoded, message⟩ := encode_dataB3Req applId messagenumber adr data dataLength dataHandle flags room
  unfold messageHeader
  rw [encoded, Option.bind_eq_bind, Option.bind_some, message]
  rfl

theorem length_blockHeader (env : Env) (s : Card) (ncci : Ncci) (skb : Buf) :
    (blockHeader env s ncci skb).length = 22 := rfl

/-- An acknowledgement is queued if memory lasts. -/
theorem capidrvAddAck_eq (live : s.nccis n = some ncci) (datahandle : UInt16) (len : Int) :
    capidrvAddAck env s n datahandle len = some (if env.kmalloc s.tick then
      some (s.asked.setNcci n { ncci with ackqueue := ncci.ackqueue ++ [(datahandle, len)] }) else none) := by
  have live' : s.asked.nccis n = some ncci := live
  unfold capidrvAddAck
  simp only [live', Option.bind_eq_bind, Option.bind_some]
  cases env.kmalloc s.tick with
  | false => rfl
  | true => rfl

/-- The entry that was added last is the one that is taken back. -/
theorem capidrvDelAck_last {queued : Ncci} {len : Int} (live : s.nccis n = some queued)
    (last : queued = { ncci with ackqueue := ncci.ackqueue ++ [(ncci.datahandle, len)] })
    (fresh : ∀ e ∈ ncci.ackqueue, e.1 ≠ ncci.datahandle) :
    capidrvDelAck s n ncci.datahandle = some (s.setNcci n ncci, len) := by
  subst last
  have older : ∀ e ∈ ncci.ackqueue, ¬ (decide (e.1 = ncci.datahandle) = true) := by
    intro e member
    simpa using fresh e member
  have found : (ncci.ackqueue ++ [(ncci.datahandle, len)]).find? (fun e => decide (e.1 = ncci.datahandle)) =
      some (ncci.datahandle, len) := by
    rw [List.find?_append, List.find?_eq_none.mpr older]
    simp
  have gone : (ncci.ackqueue ++ [(ncci.datahandle, len)]).eraseP (fun e => decide (e.1 = ncci.datahandle)) =
      ncci.ackqueue := by
    rw [List.eraseP_append_right _ older]
    simp
  unfold capidrvDelAck
  simp only [live, Option.bind_eq_bind, Option.bind_some, found, gone]

/-- The card while a block waits for its header. -/
def queued (s : Card) (n : Nat) (ncci : Ncci) (doack : Bool) (skb : Buf) : Card :=
  s.nextMsgid.asked.setNcci n { ncci with ackqueue := ncci.ackqueue ++ [(ncci.datahandle, ackLen doack skb.data.length)] }

section Sent

variable (live : s.nccis n = some ncci) (fresh : ∀ e ∈ ncci.ackqueue, e.1 ≠ ncci.datahandle)
include live fresh

/-- Taking the entry back leaves the records as they were. -/
theorem queued_taken_back {t : Card} (same : t.nccis = (queued s n ncci doack skb).nccis) :
    capidrvDelAck t n ncci.datahandle = some ({ t with nccis := s.nccis }, ackLen doack skb.data.length) := by
  have here : t.nccis n = some { ncci with ackqueue := ncci.ackqueue ++ [(ncci.datahandle, ackLen doack skb.data.length)] } := by
    rw [same]
    exact Function.update_self _ _ _
  have before : Function.update t.nccis n (some ncci) = s.nccis := by
    rw [same]
    show Function.update (Function.update s.nccis n _) n (some ncci) = s.nccis
    rw [Function.update_idem, ← live, Function.update_eq_self]
  rw [capidrvDelAck_last here rfl fresh, Card.setNcci, before]

/-- What both copies of the code do once the message is built: `t` is the card that has given it to the capicore. -/
theorem posted_eq (chan tick : Nat) (given : Buf) (owner : Owner) {t : Card}
    (same : t = { queued s n ncci doack skb with
      tick
      sent := s.sent ++ [⟨capiFillDataB3Req env.applId s.msgid ncci.ncci (env.address s.tick)
        (UInt16.ofNat skb.data.length) ncci.datahandle 0, skb.data, env.put s.sent.length⟩]
      named := s.named ++ [(chan, ncci.ncci)] }) :
    (if env.put s.sent.length = .NOERR then (t.nccis n).bind fun nccip =>
        some ⟨t.setNcci n { nccip with datahandle := nccip.datahandle + 1 }, skb.data.length, given, owner,
          [blockHeader env s ncci skb ++ skb.data]⟩
      else (capidrvDelAck t n ncci.datahandle).bind fun e =>
        some ⟨e.1, if env.put s.sent.length = .QUEUEFULL then 0 else -1, skb, .caller, []⟩) =
      some (posted env s chan n ncci doack skb tick given owner) := by
  have nccis : t.nccis = (queued s n ncci doack skb).nccis := by rw [same]
  have here : t.nccis n = some { ncci with ackqueue := ncci.ackqueue ++ [(ncci.datahandle, ackLen doack skb.data.length)] } := by
    rw [nccis]
    exact Function.update_self _ _ _
  unfold posted
  by_cases taken : env.put s.sent.length = .NOERR
  · simp only [taken, if_true, here, Option.bind_some, Option.some.injEq, Sending.mk.injEq, and_true]
    rw [same]
    simp only [queued, Card.setNcci, Function.update_idem, taken]
    rfl
  · rw [if_neg taken, if_neg taken, queued_taken_back live fresh nccis, Option.bind_some, same]
    rfl

/-- With enough headroom the caller's buffer is sent. -/
theorem sendInPlace_eq (chan : Nat) (room : 22 ≤ skb.headroom) :
    sendInPlace env (queued s n ncci doack skb) chan n ncci
        (capiFillDataB3Req env.applId s.msgid ncci.ncci (env.address s.tick) (UInt16.ofNat skb.data.length)
          ncci.datahandle 0) (blockHeader env s ncci skb) skb =
      some (posted env s chan n ncci doack skb (s.tick + 1) (skb.push (blockHeader env s ncci skb)) .capicore) := by
  have back : (skb.push (blockHeader env s ncci skb)).pull (blockHeader env s ncci skb).length = skb :=
    pull_push room
  rw [← posted_eq live fresh chan (s.tick + 1) (skb.push (blockHeader env s ncci skb)) .capicore rfl]
  unfold sendInPlace
  simp only [back]
  rfl

/-- Without it a copy is sent, if there is memory for one. -/
theorem sendRealloc_eq (chan : Nat) :
    sendRealloc env (queued s n ncci doack skb) chan n ncci
        (capiFillDataB3Req env.applId s.msgid ncci.ncci (env.address s.tick) (UInt16.ofNat skb.data.length)
          ncci.datahandle 0) (blockHeader env s ncci skb) skb =
      some (if env.kmalloc (s.tick + 1) then posted env s chan n ncci doack skb (s.tick + 2) skb .freed
        else withdrawn s (s.tick + 2) skb) := by
  have asks : (queued s n ncci doack skb).tick = s.tick + 1 := rfl
  unfold sendRealloc
  by_cases mem : env.kmalloc (s.tick + 1) = true
  · rw [asks, if_neg (not_not.mpr mem), if_pos mem, ← posted_eq live fresh chan (s.tick + 2) skb .freed rfl]
    rfl
  · rw [asks, if_pos mem, if_neg mem, queued_taken_back live fresh (t := (queued s n ncci doack skb).asked) rfl]
    rfl

/-- All outcomes of `if_sendbuf` on an active connection. -/
theorem ifSendbufPaths_eq {arg : Nat} (at_channel : channel env arg = some chan) (conn : (s.bchans chan).nccip = some n)
    (active : ncci.state = .ACTIVE) : ifSendbufPaths env s arg doack skb = some
      (if ¬ env.kmalloc s.tick then withdrawn s (s.tick + 1) skb
      else if 22 ≤ skb.headroom then
        posted env s chan n ncci doack skb (s.tick + 1) (skb.push (blockHeader env s ncci skb)) .capicore
      else if env.kmalloc (s.tick + 1) then posted env s chan n ncci doack skb (s.tick + 2) skb .freed
      else withdrawn s (s.tick + 2) skb) := by
  have live' : s.nextMsgid.nccis n = some ncci := live
  have header := messageHeader_dataB3Req env.applId s.msgid ncci.ncci (env.address s.tick)
    (UInt16.ofNat skb.data.length) ncci.datahandle 0
  have up : ¬ ncci.state ≠ .ACTIVE := not_not.mpr active
  have asks : s.nextMsgid.tick = s.tick := rfl
  unfold ifSendbufPaths
  simp only [at_channel, conn, live, Option.bind_eq_bind, Option.bind_some]
  rw [if_neg up, capidrvAddAck_eq live', header, asks]
  cases mem : env.kmalloc s.tick with
  | false => rfl
  | true =>
    by_cases room : 22 ≤ skb.headroom
    · have wide : ¬ skb.headroom < (blockHeader env s ncci skb).length := by
        rw [length_blockHeader]
        omega
      have pushed := @sendInPlace_eq env s n ncci doack skb live fresh chan room
      rw [if_neg (not_not.mpr rfl), if_pos room, ← pushed]
      exact if_neg wide
    · have narrow : skb.headroom < (blockHeader env s ncci skb).length := by
        rw [length_blockHeader]
        omega
      have copied := @sendRealloc_eq env s n ncci doack skb live fresh chan
      rw [if_neg (not_not.mpr rfl), if_neg room, ← copied]
      exact if_pos narrow

end Sent

end Active

/-! ## Atomicity -/

/-- The 22 bytes of a DATA_B3_REQ for a block of a connection. -/
structure HeaderOf (header : Bytes) (ncci : UInt32) (len : Nat) (datahandle : UInt16) : Prop where
  length : header.length = 22
  message : (header.drop 4).take 2 = [CAPI_DATA_B3, CAPI_REQ]
  ncci : leNat ((header.drop 8).take 4) = ncci.toNat
  dataLength : leNat ((header.drop 16).take 2) = len
  dataHandle : leNat ((header.drop 18).take 2) = datahandle.toNat

/-- One message was accepted and is waited for. -/
structure Taken (n : Nat) (ncci : Ncci) (doack : Bool) (skb : Buf) (o : Sending) : Prop where
  accepted : ∃ header, HeaderOf header ncci.ncci skb.data.length ncci.datahandle ∧ o.accepted = [header ++ skb.data]
  record : o.card.nccis n = some
    { ncci with
      ackqueue := ncci.ackqueue ++ [(ncci.datahandle, ackLen doack skb.data.length)]
      datahandle := ncci.datahandle + 1 }

/-- Nothing was accepted, and the caller keeps its buffer. -/
structure Untaken (n : Nat) (ncci : Ncci) (skb : Buf) (o : Sending) : Prop where
  res : o.res = 0 ∨ o.res = -1
  accepted : o.accepted = []
  record : o.card.nccis n = some ncci
  owner : o.owner = .caller
  skb : o.skb = skb

/-- The same but for the owner of a buffer that was given away, the room in one that was not, and the allocations asked
for. -/
structure Alike (o o' : Sending) : Prop where
  card : { o.card with tick := 0 } = { o'.card with tick := 0 }
  res : o.res = o'.res
  accepted : o.accepted = o'.accepted
  owner : o.owner = .caller ↔ o'.owner = .caller
  data : o.owner = .caller → o.skb.data = o'.skb.data

section Atomic

variable {env : Env} {s : Card} {arg chan n tick tick' : Nat} {ncci : Ncci} {doack : Bool} {skb skb' given given' : Buf}
  {owner owner' : Owner}

/-- The header names the connection, the length and the handle. -/
theorem headerOf_block (small : skb.data.length ≤ 65535) :
    HeaderOf (blockHeader env s ncci skb) ncci.ncci skb.data.length ncci.datahandle where
  length := rfl
  message := rfl
  ncci := by
    have field : leNat (le 4 ncci.ncci.toNat) = ncci.ncci.toNat := leNat_le_of_lt ncci.ncci.toNat_lt
    exact field
  dataLength := by
    have word : (UInt16.ofNat skb.data.length).toNat = skb.data.length := UInt16.toNat_ofNat_of_lt' (by
      show skb.data.length < 65536
      omega)
    have field : leNat (le 2 (UInt16.ofNat skb.data.length).toNat) = (UInt16.ofNat skb.data.length).toNat :=
      leNat_le_of_lt (UInt16.ofNat skb.data.length).toNat_lt
    exact field.trans word
  dataHandle := by
    have field : leNat (le 2 ncci.datahandle.toNat) = ncci.datahandle.toNat := leNat_le_of_lt ncci.datahandle.toNat_lt
    exact field

/-- A packet that is withdrawn is not taken. -/
theorem withdrawn_untaken (live : s.nccis n = some ncci) : Untaken n ncci skb (withdrawn s tick skb) :=
  ⟨.inl rfl, rfl, live, rfl, rfl⟩

/-- A packet that the capicore accepts is taken. -/
theorem posted_taken (small : skb.data.length ≤ 65535) (taken : env.put s.sent.length = .NOERR) :
    Taken n ncci doack skb (posted env s chan n ncci doack skb tick given owner) ∧
      (posted env s chan n ncci doack skb tick given owner).res = skb.data.length := by
  unfold posted
  simp only [taken, if_true]
  exact ⟨⟨⟨_, headerOf_block small, rfl⟩, Function.update_self _ _ _⟩, trivial⟩

/-- A packet that it refuses is not. -/
theorem posted_untaken (live : s.nccis n = some ncci) (refused : env.put s.sent.length ≠ .NOERR) :
    Untaken n ncci skb (posted env s chan n ncci doack skb tick given owner) := by
  unfold posted
  simp only [refused, if_false]
  refine ⟨?_, rfl, live, rfl, rfl⟩
  split
  · exact .inl rfl
  · exact .inr rfl

/-- A packet with the same data leaves the same card on either path. -/
theorem posted_alike (data : skb.data = skb'.data) (away : owner ≠ .caller) (away' : owner' ≠ .caller) :
    Alike (posted env s chan n ncci doack skb tick given owner)
      (posted env s chan n ncci doack skb' tick' given' owner') := by
  unfold posted ackLen blockHeader
  rw [data]
  by_cases taken : env.put s.sent.length = .NOERR
  · simp only [taken, if_true]
    exact ⟨rfl, rfl, rfl, iff_of_false away away', fun mine => absurd mine away⟩
  · simp only [taken, if_false]
    exact ⟨rfl, rfl, rfl, Iff.rfl, fun _ => data⟩

end Atomic

/-- A block on an active connection is sent as one message and waited for, or nothing has happened. It is the same
whether its header is pushed in place or in front of a copy. -/
theorem sendbuf_atomic {env : Env} {s : Card} {arg chan n : Nat} {ncci : Ncci} (doack : Bool) {skb : Buf}
    (at_channel : channel env arg = some chan) (conn : (s.bchans chan).nccip = some n) (live : s.nccis n = some ncci)
    (active : ncci.state = .ACTIVE) (least : 1 ≤ skb.data.length) (most : skb.data.length ≤ 65535)
    (fresh : ∀ e ∈ ncci.ackqueue, e.1 ≠ ncci.datahandle) :
    (∃ o, ifSendbufPaths env s arg doack skb = some o ∧
      (o.res = skb.data.length → Taken n ncci doack skb o) ∧ (o.res ≠ skb.data.length → Untaken n ncci skb o)) ∧
    ∀ room few : Nat, 22 ≤ room → few < 22 → env.kmalloc (s.tick + 1) = true →
      ∃ o o', ifSendbufPaths env s arg doack ⟨room, skb.data⟩ = some o ∧
        ifSendbufPaths env s arg doack ⟨few, skb.data⟩ = some o' ∧ Alike o o' := by
  have outcome := @ifSendbufPaths_eq env s chan n ncci doack
  constructor
  · have untaken : ∀ {o : Sending}, Untaken n ncci skb o →
        (o.res = skb.data.length → Taken n ncci doack skb o) ∧ (o.res ≠ skb.data.length → Untaken n ncci skb o) := by
      intro o untaken
      refine ⟨fun sent => ?_, fun _ => untaken⟩
      rcases untaken.res with zero | error
      · omega
      · omega
    have sent : ∀ tick given owner, let o := posted env s chan n ncci doack skb tick given owner
        (o.res = skb.data.length → Taken n ncci doack skb o) ∧ (o.res ≠ skb.data.length → Untaken n ncci skb o) := by
      intro tick given owner
      by_cases taken : env.put s.sent.length = .NOERR
      · obtain ⟨done, res⟩ := posted_taken most taken
        exact ⟨fun _ => done, fun other => absurd res other⟩
      · exact untaken (posted_untaken live taken)
    refine ⟨_, outcome live fresh at_channel conn active, ?_⟩
    split
    · exact untaken (withdrawn_untaken live)
    split
    · exact sent _ _ _
    split
    · exact sent _ _ _
    · exact untaken (withdrawn_untaken live)
  · intro room few wide narrow mem
    refine ⟨_, _, outcome live fresh at_channel conn active, outcome live fresh at_channel conn active, ?_⟩
    have short : ¬ 22 ≤ few := by omega
    by_cases ack : env.kmalloc s.tick = true
    · rw [if_neg (not_not.mpr ack), if_neg (not_not.mpr ack), if_pos wide, if_neg short, if_pos mem]
      exact posted_alike rfl nofun nofun
    · rw [if_pos ack, if_pos ack]
      exact ⟨rfl, rfl, rfl, Iff.rfl, fun _ => rfl⟩


/-- A connection that is up. -/
def activeNcci : Ncci where
  plcip := 0
  ncci := 0x10101
  msgid := 0
  chan := 0
  state := .ACTIVE
  oldstate := .ALLOCATED
  datahandle := 7
  ackqueue := []

/-- A card with one call and its connection. -/
def connectedCard : Card where
  __ := Card.init
  plcis := Function.update (fun _ => none) 0 (some ⟨0x101, 0, 0, .ACTIVE, false, [0]⟩)
  plciNext := 1
  plciList := [0]
  nccis := Function.update (fun _ => none) 0 (some activeNcci)
  ncciNext := 1
  bchans := Function.update Card.init.bchans 0 { Card.init.bchans 0 with plcip := some 0, nccip := some 0 }

/-- Three bytes in a buffer without room for a header. -/
theorem sendbuf_atomic_copied :
    (∃ o, ifSendbufPaths Env.granting connectedCard 0 true ⟨4, [1, 2, 3]⟩ = some o ∧
      (o.res = 3 → Taken 0 activeNcci true ⟨4, [1, 2, 3]⟩ o) ∧ (o.res ≠ 3 → Untaken 0 activeNcci ⟨4, [1, 2, 3]⟩ o)) ∧
    ∃ o o', ifSendbufPaths Env.granting connectedCard 0 true ⟨22, [1, 2, 3]⟩ = some o ∧
      ifSendbufPaths Env.granting connectedCard 0 true ⟨4, [1, 2, 3]⟩ = some o' ∧ Alike o o' := by
  obtain ⟨atomic, paths⟩ := @sendbuf_atomic Env.granting connectedCard 0 0 0 activeNcci true ⟨4, [1, 2, 3]⟩ rfl rfl rfl
    rfl (by decide) (by decide) (by decide)
  exact ⟨atomic, paths 22 4 (by decide) (by decide) rfl⟩

end Capi4Linux.Capidrv
