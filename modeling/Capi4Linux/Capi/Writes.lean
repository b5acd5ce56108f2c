import Capi4Linux.Capi.Detached

/-!
# Writes to a file

`Wrote` is everything `capi_write` can do. A DISCONNECT_B3_RESP takes its NCCIs
away before the capicore is asked to accept it; an answer other than NOERR does
not bring them back.
-/

namespace Capi4Linux.Capi
open Bytes Capicore Machine

/-! ## The buffer -/

namespace Skb

/-- The buffer a write copies the message to. -/
def ofUser (buf : Bytes) (beyond : Nat → UInt8) : Skb := { data := buf, tailroom := 0, beyond }

/-- What `count` is compared with. -/
def claimedLen (skb : Skb) : Nat :=
  if skb.cmd = CAPI_DATA_B3_REQ then skb.msgLen + (skb.u16 16).toNat else skb.msgLen

/-- The NCCIs a write of the message leaves. -/
def leaves (skb : Skb) (nccis : List Capincci) : List Capincci :=
  if skb.cmd = CAPI_DISCONNECT_B3_RESP then nccis.filter fun np => ! np.taken skb.ncci else nccis

/-- A byte set is one of the data. -/
theorem setU8_data (skb : Skb) (off : Nat) (val : UInt8) : (skb.setU8 off val).data = skb.data.set off val := rfl

theorem u8_setU8 {skb : Skb} {off i : Nat} {val : UInt8} (other : i ≠ off) : (skb.setU8 off val).u8 i = skb.u8 i := by
  have len : (skb.setU8 off val).len = skb.len := List.length_set
  unfold u8
  rw [len, setU8_data, List.getElem?_set_ne (Ne.symm other)]
  show (skb.data[i]?).getD (if skb.len + (i - skb.len) = off then val else skb.beyond (i - skb.len)) = _
  by_cases inside : i < skb.len
  · rw [List.getElem?_eq_getElem inside]
    rfl
  · rw [if_neg]
    omega

theorem u8_setU16 {skb : Skb} {off i : Nat} {val : UInt16} (low : i ≠ off) (high : i ≠ off + 1) :
    (skb.setU16 off val).u8 i = skb.u8 i := by
  unfold setU16
  rw [u8_setU8 high, u8_setU8 low]

/-- The ApplID is neither the command nor the NCCI. -/
theorem setApplId_reads (skb : Skb) (id : UInt16) :
    (skb.setU16 2 id).cmd = skb.cmd ∧ (skb.setU16 2 id).ncci = skb.ncci := by
  have same : ∀ i, 4 ≤ i → (skb.setU16 2 id).u8 i = skb.u8 i := by
    intro i past
    apply u8_setU16
    · omega
    · omega
  constructor
  · unfold cmd
    rw [same 4 (by omega), same 5 (by omega)]
  · unfold ncci u32
    rw [same 8 (by omega), same (8 + 1) (by omega), same (8 + 2) (by omega), same (8 + 3) (by omega)]

end Skb

/-- The buffer with the ApplID in it. -/
def withApplId (buf : Bytes) (id : UInt16) : Bytes :=
  (buf.set 2 (UInt8.ofNat id.toNat)).set 3 (UInt8.ofNat (id.toNat / 256))

/-! ## NCCIs that are taken -/

/-- What `capincci_free` does to a file whose NCCIs it takes by `ncci`. -/
structure NccisFreed (s s' : Driver) (d : Nat) (cdev : Capidev) (ncci : UInt32) : Prop where
  devs : s'.devs = Function.update s.devs d (some { cdev with nccis := cdev.nccis.filter fun np => ! np.taken ncci })
  minors : ∀ p, (∀ np ∈ cdev.nccis, np.taken ncci → np.minorp ≠ some p) → s'.minors p = s.minors p
  accepted : s'.accepted = s.accepted
  received : s'.received = s.received
  tick : s'.tick = s.tick

/-- What unlinking one minor leaves alone. -/
structure Unlinked (s s' : Driver) (minorp : Option Nat) : Prop where
  devs : s'.devs = s.devs
  minors : ∀ p, minorp ≠ some p → s'.minors p = s.minors p
  accepted : s'.accepted = s.accepted
  received : s'.received = s.received
  tick : s'.tick = s.tick

/-- An unlinked minor has no NCCI. -/
theorem capincciUnlink_unlinked {s s' : Driver} {minorp : Option Nat} (run : capincciUnlink s minorp = some s') :
    Unlinked s s' minorp := by
  cases minorp with
  | none =>
    cases run
    exact ⟨rfl, fun _ _ => rfl, rfl, rfl, rfl⟩
  | some p =>
    have elsewhere (x : Option Capiminor) : ∀ q, some p ≠ some q → Function.update s.minors p x q = s.minors q := by
      intro q other
      apply Function.update_of_ne
      rintro rfl
      exact other rfl
    obtain ⟨mp, -, run⟩ := Option.bind_eq_some_iff.mp run
    split at run
    · cases run
      exact ⟨rfl, elsewhere _, rfl, rfl, rfl⟩
    · obtain ⟨mp', -, run⟩ := Option.bind_eq_some_iff.mp run
      split at run
      · cases run
        exact ⟨rfl, elsewhere _, rfl, rfl, rfl⟩
      · cases run

/-- The loop unlinks the minors of the NCCIs it frees, and no others. -/
theorem capincciFreeLoop_unlinked {ncci : UInt32} {nccis : List Capincci} {s s' : Driver}
    (run : capincciFreeLoop ncci nccis s = some s') :
    s'.devs = s.devs ∧ (∀ p, (∀ np ∈ nccis, np.taken ncci → np.minorp ≠ some p) → s'.minors p = s.minors p) ∧
      s'.accepted = s.accepted ∧ s'.received = s.received ∧ s'.tick = s.tick := by
  induction nccis generalizing s with
  | nil =>
    cases run
    exact ⟨rfl, fun _ _ => rfl, rfl, rfl, rfl⟩
  | cons np nccis ih =>
    have later {p : Nat} (apart : ∀ x ∈ np :: nccis, x.taken ncci → x.minorp ≠ some p) :
        ∀ x ∈ nccis, x.taken ncci → x.minorp ≠ some p := fun x mem => apart x (List.mem_cons_of_mem _ mem)
    unfold capincciFreeLoop at run
    split at run
    · rename_i taken
      obtain ⟨s₁, first, rest⟩ := Option.bind_eq_some_iff.mp run
      have one := capincciUnlink_unlinked first
      obtain ⟨devs, minors, accepted, received, tick⟩ := ih rest
      refine ⟨devs.trans one.devs, fun p apart => ?_, accepted.trans one.accepted, received.trans one.received,
        tick.trans one.tick⟩
      rw [minors p (later apart)]
      exact one.minors p (apart np List.mem_cons_self taken)
    · obtain ⟨devs, minors, rest⟩ := ih run
      exact ⟨devs, fun p apart => minors p (later apart), rest⟩

/-- The file loses the NCCIs that are freed. -/
theorem capincciFree_freed {s s' : Driver} {d : Nat} {cdev : Capidev} {ncci : UInt32} (dev : s.devs d = some cdev)
    (run : capincciFree s d ncci = some s') : NccisFreed s s' d cdev ncci := by
  obtain ⟨cdev', dev', run⟩ := Option.bind_eq_some_iff.mp run
  obtain rfl := Option.some.inj (dev'.symm.trans dev)
  obtain ⟨s₁, loop, run⟩ := Option.bind_eq_some_iff.mp run
  cases run
  obtain ⟨devs, minors, accepted, received, tick⟩ := capincciFreeLoop_unlinked loop
  refine ⟨?_, minors, accepted, received, tick⟩
  show Function.update s₁.devs d _ = _
  rw [devs]

/-- When there is nothing to take, nothing happens. -/
theorem NccisFreed.nothing {s s' : Driver} {d : Nat} {cdev : Capidev} {ncci : UInt32}
    (freed : NccisFreed s s' d cdev ncci) (dev : s.devs d = some cdev) (none : ∀ np ∈ cdev.nccis, ¬ np.taken ncci) :
    s'.devs = s.devs ∧ s'.minors = s.minors := by
  constructor
  · have all : (cdev.nccis.filter fun np => ! np.taken ncci) = cdev.nccis := by
      apply List.filter_eq_self.mpr
      intro np mem
      simp [none np mem]
    rw [freed.devs, all, ← dev]
    exact Function.update_eq_self d s.devs
  · funext p
    apply freed.minors
    intro np mem taken
    exact absurd taken (none np mem)

/-! ## What a write does -/

section Writes

variable {env : Env} {s s' : Driver} {d : Nat} {cdev : Capidev} {buf : Bytes} {result : Int}

/-- There is memory for the message, and it can be copied. -/
def Granted (env : Env) (s : Driver) : Prop := env.kmalloc s.tick = true ∧ env.fault s.tick = false

/-- What is done before the message is put. -/
def prepare (s : Driver) (d : Nat) (skb : Skb) : Option Driver :=
  if skb.cmd = CAPI_DISCONNECT_B3_RESP then capincciFree s d skb.ncci else some s

/-- The capicore has given its answer. -/
def answered (s : Driver) (d : Nat) (cdev : Capidev) (data : Bytes) (info : Capinfo0x11) : Driver :=
  (putCapiMessage s d data info).setDev d { cdev with errcode := info }

/-- The outcomes of a write to a registered file. -/
inductive Wrote (env : Env) (s : Driver) (d : Nat) (cdev : Capidev) (buf : Bytes) : Driver → Int → Prop
  | failed {err : Int} : ¬ Granted env s → err < 0 → Wrote env s d cdev buf s.asked err
  | invalid : Granted env s → (Skb.ofUser buf (env.slab s.tick)).claimedLen ≠ buf.length →
      Wrote env s d cdev buf s.asked (-EINVAL)
  | put {s₁ : Driver} : Granted env s → (Skb.ofUser buf (env.slab s.tick)).claimedLen = buf.length →
      prepare s.asked d (Skb.ofUser buf (env.slab s.tick)) = some s₁ →
      Wrote env s d cdev buf
        (answered s₁ d { cdev with nccis := (Skb.ofUser buf (env.slab s.tick)).leaves cdev.nccis }
          (withApplId buf cdev.ap.id) (env.put s.tick))
        (if env.put s.tick = .NOERR then buf.length else - EIO)

/-- What is done before the message is put. -/
theorem prepare_cases {s₁ : Driver} {skb : Skb} (prepared : prepare s d skb = some s₁) (dev : s.devs d = some cdev) :
    (skb.cmd = CAPI_DISCONNECT_B3_RESP ∧ NccisFreed s s₁ d cdev skb.ncci) ∨
      (skb.cmd ≠ CAPI_DISCONNECT_B3_RESP ∧ s₁ = s) := by
  unfold prepare at prepared
  split at prepared
  · rename_i resp
    exact .inl ⟨resp, capincciFree_freed dev prepared⟩
  · rename_i other
    cases prepared
    exact .inr ⟨other, rfl⟩

/-- The file keeps the NCCIs that the message leaves. -/
theorem prepare_devs {s₁ : Driver} {skb : Skb} (prepared : prepare s d skb = some s₁) (dev : s.devs d = some cdev) :
    s₁.devs = Function.update s.devs d (some { cdev with nccis := skb.leaves cdev.nccis }) := by
  unfold Skb.leaves
  rcases prepare_cases prepared dev with ⟨resp, freed⟩ | ⟨other, rfl⟩
  · rw [if_pos resp, freed.devs]
  · rw [if_neg other, ← dev]
    exact (Function.update_eq_self d s₁.devs).symm

theorem prepare_accepted {s₁ : Driver} {skb : Skb} (prepared : prepare s d skb = some s₁)
    (dev : s.devs d = some cdev) : s₁.accepted = s.accepted := by
  rcases prepare_cases prepared dev with ⟨-, freed⟩ | ⟨-, rfl⟩
  · exact freed.accepted
  · rfl

/-- Putting a message leaves files and minors alone. -/
theorem putCapiMessage_minors (s : Driver) (d : Nat) (data : Bytes) (info : Capinfo0x11) :
    (putCapiMessage s d data info).devs = s.devs ∧ (putCapiMessage s d data info).minors = s.minors := by
  unfold putCapiMessage
  split
  · exact ⟨rfl, rfl⟩
  · exact ⟨rfl, rfl⟩

/-- A write to a registered file. -/
theorem capiWrite_wrote (dev : s.devs d = some cdev) (registered : cdev.ap.id ≠ 0)
    (run : capiWrite env s d buf = some (s', result)) : Wrote env s d cdev buf s' result := by
  simp only [capiWrite, dev, Option.bind_eq_bind, Option.bind_some, if_neg registered] at run
  by_cases memory : env.kmalloc s.tick = true
  case neg =>
    rw [if_pos memory] at run
    cases run
    exact .failed (fun granted => memory granted.1) (by decide)
  rw [if_neg (not_not_intro memory)] at run
  by_cases fault : env.fault s.tick = true
  · rw [if_pos fault] at run
    cases run
    refine .failed (fun granted => ?_) (by decide)
    cases fault.symm.trans granted.2
  rw [if_neg fault] at run
  have granted : Granted env s := ⟨memory, by simpa using fault⟩
  change (if (Skb.ofUser buf (env.slab s.tick)).claimedLen ≠ buf.length then _ else _) = _ at run
  by_cases framed : (Skb.ofUser buf (env.slab s.tick)).claimedLen = buf.length
  case neg =>
    rw [if_pos framed] at run
    cases run
    exact .invalid granted framed
  rw [if_neg (not_not_intro framed)] at run
  obtain ⟨s₁, first, run⟩ := Option.bind_eq_some_iff.mp run
  obtain ⟨cdev₁, dev₁, run⟩ := Option.bind_eq_some_iff.mp run
  have prepared : prepare s.asked d (Skb.ofUser buf (env.slab s.tick)) = some s₁ := by
    obtain ⟨cmd, ncci⟩ := (Skb.ofUser buf (env.slab s.tick)).setApplId_reads cdev.ap.id
    change (if ((Skb.ofUser buf (env.slab s.tick)).setU16 2 cdev.ap.id).cmd = _ then
      capincciFree s.asked d ((Skb.ofUser buf (env.slab s.tick)).setU16 2 cdev.ap.id).ncci else _) = _ at first
    rw [cmd, ncci] at first
    exact first
  rw [(putCapiMessage_minors _ _ _ _).1, prepare_devs prepared dev, Function.update_self] at dev₁
  cases dev₁
  cases run
  exact .put granted framed prepared

/-- The message of a registered file, when the length is right. -/
theorem capiWrite_framed {s₁ : Driver} (dev : s.devs d = some cdev) (registered : cdev.ap.id ≠ 0)
    (granted : Granted env s) (framed : (Skb.ofUser buf (env.slab s.tick)).claimedLen = buf.length)
    (prepared : prepare s.asked d (Skb.ofUser buf (env.slab s.tick)) = some s₁) :
    capiWrite env s d buf = some
      (answered s₁ d { cdev with nccis := (Skb.ofUser buf (env.slab s.tick)).leaves cdev.nccis }
        (withApplId buf cdev.ap.id) (env.put s.tick), if env.put s.tick = .NOERR then (buf.length : Int) else - EIO) := by
  obtain ⟨memory, fault⟩ := granted
  have fine : ¬ env.fault s.tick = true := by
    rw [fault]
    decide
  simp only [capiWrite, dev, Option.bind_eq_bind, Option.bind_some, if_neg registered]
  rw [if_neg (not_not_intro memory), if_neg fine]
  change (if (Skb.ofUser buf (env.slab s.tick)).claimedLen ≠ buf.length then _ else _) = _
  rw [if_neg (not_not_intro framed)]
  have first : (if ((Skb.ofUser buf (env.slab s.tick)).setU16 2 cdev.ap.id).cmd = CAPI_DISCONNECT_B3_RESP then
      capincciFree s.asked d ((Skb.ofUser buf (env.slab s.tick)).setU16 2 cdev.ap.id).ncci else some s.asked) =
      some s₁ := by
    obtain ⟨cmd, ncci⟩ := (Skb.ofUser buf (env.slab s.tick)).setApplId_reads cdev.ap.id
    rw [cmd, ncci]
    exact prepared
  change Option.bind (if ((Skb.ofUser buf (env.slab s.tick)).setU16 2 cdev.ap.id).cmd = _ then
      capincciFree s.asked d ((Skb.ofUser buf (env.slab s.tick)).setU16 2 cdev.ap.id).ncci else _) _ = _
  rw [first, Option.bind_some, (putCapiMessage_minors _ _ _ _).1, prepare_devs prepared dev, Function.update_self]
  rfl

/-- A write that fails leaves no trace, one that succeeds hands over exactly the message. -/
structure AllOrNothing (s : Driver) (d : Nat) (cdev : Capidev) (buf : Bytes) (s' : Driver) (result : Int) : Prop where
  nothing : result < 0 →
    s'.accepted = s.accepted ∧ (s'.devs d).map Capidev.nccis = some cdev.nccis ∧ s'.minors = s.minors
  all : result = buf.length → s'.accepted = s.accepted ++ [(d, withApplId buf cdev.ap.id)]

/-- A message the capicore refuses is no DISCONNECT_B3_RESP for an NCCI of the file. -/
def Spares (env : Env) (s : Driver) (cdev : Capidev) (buf : Bytes) : Prop :=
  Granted env s → (Skb.ofUser buf (env.slab s.tick)).claimedLen = buf.length → env.put s.tick ≠ .NOERR →
    (Skb.ofUser buf (env.slab s.tick)).cmd = CAPI_DISCONNECT_B3_RESP →
    ∀ np ∈ cdev.nccis, ¬ np.taken (Skb.ofUser buf (env.slab s.tick)).ncci

theorem Wrote.answer (wrote : Wrote env s d cdev buf s' result) : result < 0 ∨ result = buf.length := by
  cases wrote with
  | failed _ negative => exact .inl negative
  | invalid => exact .inl (by decide)
  | put =>
    split
    · exact .inr rfl
    · exact .inl (by decide)

/-- Before the message is put nothing has changed. -/
theorem AllOrNothing.early {err : Int} (dev : s.devs d = some cdev) (negative : err < 0) :
    AllOrNothing s d cdev buf s.asked err := by
  constructor
  · intro _
    refine ⟨rfl, ?_, rfl⟩
    show (s.devs d).map Capidev.nccis = _
    rw [dev]
    rfl
  · intro count
    omega

/-- The answer does not touch the NCCIs. -/
theorem answered_nccis (s : Driver) (d : Nat) (cdev : Capidev) (data : Bytes) (info : Capinfo0x11) :
    ((answered s d cdev data info).devs d).map Capidev.nccis = some cdev.nccis := by
  have here : (answered s d cdev data info).devs d = some { cdev with errcode := info } := Function.update_self _ _ _
  rw [here]
  rfl

/-- A message that names none of the NCCIs leaves them all. -/
theorem leaves_of_spared {skb : Skb} {nccis : List Capincci}
    (spared : skb.cmd = CAPI_DISCONNECT_B3_RESP → ∀ np ∈ nccis, ¬ np.taken skb.ncci) : skb.leaves nccis = nccis := by
  unfold Skb.leaves
  split
  · rename_i resp
    apply List.filter_eq_self.mpr
    intro np mem
    simp [spared resp np mem]
  · rfl

/-- A refused message with nothing to take leaves the minors alone. -/
theorem prepare_minors {s₁ : Driver} {skb : Skb} (prepared : prepare s d skb = some s₁) (dev : s.devs d = some cdev)
    (spared : skb.cmd = CAPI_DISCONNECT_B3_RESP → ∀ np ∈ cdev.nccis, ¬ np.taken skb.ncci) : s₁.minors = s.minors := by
  rcases prepare_cases prepared dev with ⟨resp, freed⟩ | ⟨-, rfl⟩
  · exact (freed.nothing dev (spared resp)).2
  · rfl

/-- A write to a registered file is all or nothing exactly when a message the capicore refuses is no
DISCONNECT_B3_RESP for one of its NCCIs. -/
theorem write_all_or_nothing_iff (dev : s.devs d = some cdev) (registered : cdev.ap.id ≠ 0)
    (run : capiWrite env s d buf = some (s', result)) :
    (result < 0 ∨ result = buf.length) ∧ (AllOrNothing s d cdev buf s' result ↔ Spares env s cdev buf) := by
  have wrote := capiWrite_wrote dev registered run
  refine ⟨wrote.answer, ?_⟩
  cases wrote with
  | failed refused negative =>
    constructor
    · intro _ granted
      exact absurd granted refused
    · intro _
      exact .early dev negative
  | invalid _ short =>
    constructor
    · intro _ _ framed
      exact absurd framed short
    · intro _
      exact .early dev (by decide)
  | put granted framed prepared =>
    rename_i s₁
    have accepted := prepare_accepted prepared dev
    by_cases ok : env.put s.tick = .NOERR
    · rw [if_pos ok]
      constructor
      · intro _ _ _ refused
        exact absurd ok refused
      · intro _
        constructor
        · intro negative
          omega
        · intro _
          show (putCapiMessage s₁ d (withApplId buf cdev.ap.id) (env.put s.tick)).accepted = _
          rw [putCapiMessage, if_pos ok]
          show s₁.accepted ++ _ = _
          rw [accepted]
          rfl
    · rw [if_neg ok]
      constructor
      · intro all _ _ _ resp np mem taken
        have kept := (all.nothing (by decide)).2.1
        rw [answered_nccis, Skb.leaves, if_pos resp] at kept
        have same := List.filter_eq_self.mp (Option.some.inj kept) np mem
        simp [taken] at same
      · intro spares
        have spared := spares granted framed ok
        constructor
        · intro _
          refine ⟨?_, ?_, ?_⟩
          · show (putCapiMessage s₁ d (withApplId buf cdev.ap.id) (env.put s.tick)).accepted = _
            rw [putCapiMessage, if_neg ok]
            exact accepted
          · rw [answered_nccis, leaves_of_spared spared]
          · show (putCapiMessage s₁ d (withApplId buf cdev.ap.id) (env.put s.tick)).minors = _
            rw [(putCapiMessage_minors _ _ _ _).2]
            have same := prepare_minors prepared dev spared
            exact same
        · intro count
          have negative : (- EIO : Int) < 0 := by decide
          omega

end Writes

/-- A file with one NCCI and its minor. -/
def connected : List Op := hangup.take 5

/-- The capicore answers QUEUEFULL to everything. -/
def Env.full : Env := { Env.granting with put := fun _ => .QUEUEFULL }

theorem write_all_or_nothing_connected :
    ∃ s cdev s' result, exec (step .full) .init connected = some s ∧ s.devs 0 = some cdev ∧
      capiWrite .full s 0 (messageOf CAPI_CONNECT_B3_IND) = some (s', result) ∧
      AllOrNothing s 0 cdev (messageOf CAPI_CONNECT_B3_IND) s' result := by
  obtain ⟨s, cdev, s', result, run, dev, id, write⟩ :
      ∃ s cdev s' result, exec (step .full) .init connected = some s ∧ s.devs 0 = some cdev ∧ cdev.ap.id = 1 ∧
        capiWrite .full s 0 (messageOf CAPI_CONNECT_B3_IND) = some (s', result) := ⟨_, _, _, _, rfl, rfl, rfl, rfl⟩
  have registered : cdev.ap.id ≠ 0 := by
    rw [id]
    decide
  refine ⟨s, cdev, s', result, run, dev, write, (write_all_or_nothing_iff dev registered write).2.mpr ?_⟩
  intro _ _ _ resp
  have other : (Skb.ofUser (messageOf CAPI_CONNECT_B3_IND) fun _ => 0).cmd ≠ CAPI_DISCONNECT_B3_RESP := by decide
  exact absurd resp other

/-- The response is refused with QUEUEFULL, and its NCCI is gone. -/
theorem refused_response_drops :
    ∃ s cdev s' result, exec (step .full) .init connected = some s ∧ s.devs 0 = some cdev ∧ cdev.ap.id ≠ 0 ∧
      capiWrite .full s 0 (messageOf CAPI_DISCONNECT_B3_RESP) = some (s', result) ∧ result < 0 ∧
      ¬ AllOrNothing s 0 cdev (messageOf CAPI_DISCONNECT_B3_RESP) s' result := by
  refine ⟨_, _, _, _, rfl, rfl, by decide, rfl, by decide, ?_⟩
  intro all
  cases (all.nothing (by decide)).2.1

end Capi4Linux.Capi
