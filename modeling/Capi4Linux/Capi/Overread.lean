import Capi4Linux.Capi.Reach

/-!
# What a write reads

`capi_write` reads the length, the command, the Data length and the NCCI of a
message at fixed offsets, before it knows that the user supplied them. A field
that lies behind the `count` bytes is read from whatever is there.
-/

namespace Capi4Linux.Capi
open Bytes Capicore Machine

/-! ## Fields -/

/-- `off` reads `bs` when the memory behind the message is right. -/
def MayRead (buf : Bytes) (off : Nat) (bs : Bytes) : Prop :=
  ∀ i b, bs[i]? = some b → ∀ x, buf[off + i]? = some x → x = b

/-- The user's part of the length field. -/
def declared (buf : Bytes) : Nat := leNat (buf.take 2)

section Fields

variable {buf : Bytes} {beyond : Nat → UInt8}

/-- A word is its two bytes. -/
theorem u16_toNat (skb : Skb) (off : Nat) : (skb.u16 off).toNat = (skb.u8 off).toNat + 256 * (skb.u8 (off + 1)).toNat := by
  have low := (skb.u8 off).toNat_lt
  have high := (skb.u8 (off + 1)).toNat_lt
  simp only [Skb.u16, leNat, UInt16.toNat_ofNat']
  omega

/-- A byte of the buffer is read from the buffer. -/
theorem u8_inside {i : Nat} (inside : i < buf.length) : (Skb.ofUser buf beyond).u8 i = buf[i] := by
  show (buf[i]?).getD _ = _
  rw [List.getElem?_eq_getElem inside]
  rfl

/-- The user's bytes do not depend on what is behind them. -/
theorem u8_same {i : Nat} (inside : i < buf.length) (beyond beyond' : Nat → UInt8) :
    (Skb.ofUser buf beyond).u8 i = (Skb.ofUser buf beyond').u8 i := by
  rw [u8_inside inside, u8_inside inside]

/-- What is read may be read. -/
theorem mayRead_u8 {off : Nat} {bs : Bytes} (read : ∀ i b, bs[i]? = some b → (Skb.ofUser buf beyond).u8 (off + i) = b) :
    MayRead buf off bs := by
  intro i b field x user
  obtain ⟨inside, same⟩ := List.getElem?_eq_some_iff.mp user
  rw [← read i b field, u8_inside inside, same]

/-- The memory that makes the fields read `h`, as far as the user left them open. -/
def behind (buf : Bytes) (h : Nat → UInt8) : Nat → UInt8 := fun j => h (buf.length + j)

/-- Behind the buffer lies what one wants to read there. -/
theorem u8_behind {h : Nat → UInt8} {i : Nat} (agree : ∀ x, buf[i]? = some x → x = h i) :
    (Skb.ofUser buf (behind buf h)).u8 i = h i := by
  by_cases inside : i < buf.length
  · rw [u8_inside inside]
    apply agree
    exact List.getElem?_eq_getElem inside
  · show (buf[i]?).getD (h (buf.length + (i - buf.length))) = _
    rw [List.getElem?_eq_none (by omega)]
    show h _ = _
    congr 1
    omega

/-- A field the user left open. -/
theorem u8_open {h : Nat → UInt8} {i : Nat} (outside : buf.length ≤ i) :
    (Skb.ofUser buf (behind buf h)).u8 i = h i := by
  apply u8_behind
  intro x user
  rw [List.getElem?_eq_none outside] at user
  cases user

/-- A field that may be read is read with the right bytes behind the buffer. -/
theorem MayRead.agree {off : Nat} {bs : Bytes} (may : MayRead buf off bs) {h : Nat → UInt8} {i : Nat} {b : UInt8}
    (field : bs[i]? = some b) (reads : h (off + i) = b) : (Skb.ofUser buf (behind buf h)).u8 (off + i) = b := by
  rw [← reads]
  apply u8_behind
  intro x user
  rw [reads]
  exact may i b field x user

/-- The length word is at least what the buffer declares. -/
theorem declared_le (buf : Bytes) (beyond : Nat → UInt8) : declared buf ≤ (Skb.ofUser buf beyond).msgLen := by
  unfold declared Skb.msgLen
  rw [u16_toNat]
  match buf with
  | [] =>
    show 0 ≤ _
    omega
  | [x] =>
    show x.toNat + 256 * 0 ≤ x.toNat + _
    omega
  | x :: y :: rest =>
    show x.toNat + 256 * (y.toNat + 256 * 0) ≤ x.toNat + 256 * y.toNat
    omega

/-- With both of its bytes in the buffer it is what the buffer declares. -/
theorem msgLen_eq (supplied : 2 ≤ buf.length) (beyond : Nat → UInt8) :
    (Skb.ofUser buf beyond).msgLen = declared buf := by
  unfold declared Skb.msgLen
  rw [u16_toNat]
  match buf, supplied with
  | x :: y :: rest, _ =>
    show x.toNat + 256 * y.toNat = x.toNat + 256 * (y.toNat + 256 * 0)
    omega

/-- A command in the buffer does not depend on what is behind. -/
theorem cmd_same (supplied : 6 ≤ buf.length) (beyond beyond' : Nat → UInt8) :
    (Skb.ofUser buf beyond).cmd = (Skb.ofUser buf beyond').cmd := by
  unfold Skb.cmd
  rw [u8_same (by omega) beyond beyond', u8_same (by omega) beyond beyond']

theorem u16_same {off : Nat} (supplied : off + 2 ≤ buf.length) (beyond beyond' : Nat → UInt8) :
    (Skb.ofUser buf beyond).u16 off = (Skb.ofUser buf beyond').u16 off := by
  unfold Skb.u16
  rw [u8_same (by omega) beyond beyond', u8_same (by omega) beyond beyond']

theorem ncci_same (supplied : 12 ≤ buf.length) (beyond beyond' : Nat → UInt8) :
    (Skb.ofUser buf beyond).ncci = (Skb.ofUser buf beyond').ncci := by
  unfold Skb.ncci Skb.u32
  rw [u8_same (by omega) beyond beyond', u8_same (by omega) beyond beyond', u8_same (by omega) beyond beyond',
    u8_same (by omega) beyond beyond']

/-- A command that is read may be read. -/
theorem mayRead_cmd {cmd : UInt8 × UInt8} (reads : (Skb.ofUser buf beyond).cmd = cmd) :
    MayRead buf 4 [cmd.1, cmd.2] := by
  apply @mayRead_u8 buf beyond
  intro i b field
  rw [← reads] at field
  match i with
  | 0 => exact Option.some.inj field
  | 1 => exact Option.some.inj field
  | i + 2 => cases field

/-- A word that is read may be read. -/
theorem mayRead_u16 (off : Nat) : MayRead buf off (le 2 ((Skb.ofUser buf beyond).u16 off).toNat) := by
  apply @mayRead_u8 buf beyond
  have bytes : le 2 ((Skb.ofUser buf beyond).u16 off).toNat =
      [(Skb.ofUser buf beyond).u8 off, (Skb.ofUser buf beyond).u8 (off + 1)] := by
    rw [u16_toNat]
    exact le_leNat [(Skb.ofUser buf beyond).u8 off, (Skb.ofUser buf beyond).u8 (off + 1)]
  rw [bytes]
  intro i b field
  match i with
  | 0 => exact Option.some.inj field
  | 1 => exact Option.some.inj field
  | i + 2 => cases field

/-- Four bytes are the number they make. -/
theorem le_leNat_four (a b c d : UInt8) : le 4 (leNat [a, b, c, d] % 2 ^ 32) = [a, b, c, d] := by
  have small : leNat [a, b, c, d] < 2 ^ 32 := by
    have := a.toNat_lt
    have := b.toNat_lt
    have := c.toNat_lt
    have := d.toNat_lt
    simp only [leNat]
    omega
  rw [Nat.mod_eq_of_lt small]
  exact le_leNat [a, b, c, d]

/-- An NCCI that is read may be read. -/
theorem mayRead_ncci : MayRead buf 8 (le 4 (Skb.ofUser buf beyond).ncci.toNat) := by
  apply @mayRead_u8 buf beyond
  have bytes : le 4 (Skb.ofUser buf beyond).ncci.toNat = [(Skb.ofUser buf beyond).u8 8, (Skb.ofUser buf beyond).u8 (8 + 1),
      (Skb.ofUser buf beyond).u8 (8 + 2), (Skb.ofUser buf beyond).u8 (8 + 3)] := by
    unfold Skb.ncci Skb.u32
    rw [UInt32.toNat_ofNat']
    apply le_leNat_four
  rw [bytes]
  intro i b field
  match i with
  | 0 => exact Option.some.inj field
  | 1 => exact Option.some.inj field
  | 2 => exact Option.some.inj field
  | 3 => exact Option.some.inj field
  | i + 4 => cases field

end Fields

/-! ## Buffers whose fate is decided behind them -/

/-- A field that decides the write is not all the user's: the length, the Data length of what may be a DATA_B3_REQ, or
the NCCI of what may be a DISCONNECT_B3_RESP for one of `nccis`. -/
inductive Exposed (nccis : List Capincci) (buf : Bytes) : Prop
  | length : buf.length < 2 → declared buf ≤ buf.length → Exposed nccis buf
  | dataLength {n : Nat} : 2 ≤ buf.length → buf.length < 18 →
      MayRead buf 4 [CAPI_DATA_B3_REQ.1, CAPI_DATA_B3_REQ.2] → n < 65536 → MayRead buf 16 (le 2 n) →
      declared buf + n = buf.length → Exposed nccis buf
  | ncci {v : UInt32} {np : Capincci} : 2 ≤ buf.length → buf.length < 12 → declared buf = buf.length →
      MayRead buf 4 [CAPI_DISCONNECT_B3_RESP.1, CAPI_DISCONNECT_B3_RESP.2] → MayRead buf 8 (le 4 v.toNat) →
      np ∈ nccis → np.taken v → Exposed nccis buf

section Exposed

variable {buf : Bytes} {nccis : List Capincci} {beyond beyond' : Nat → UInt8}

/-- A list that is not left alone has a record that is taken. -/
theorem taken_of_leaves {skb : Skb} (changed : skb.leaves nccis ≠ nccis) :
    skb.cmd = CAPI_DISCONNECT_B3_RESP ∧ ∃ np ∈ nccis, np.taken skb.ncci := by
  by_contra spared
  apply changed
  apply leaves_of_spared
  intro resp np member taken
  exact spared ⟨resp, np, member, taken⟩

/-- A message claims at least its own length. -/
theorem msgLen_le_claimedLen (skb : Skb) : skb.msgLen ≤ skb.claimedLen := by
  unfold Skb.claimedLen
  split <;> omega

/-- One memory makes the length right, the other does not. -/
theorem exposed_of_framed (framed : (Skb.ofUser buf beyond).claimedLen = buf.length)
    (short : (Skb.ofUser buf beyond').claimedLen ≠ buf.length) : Exposed nccis buf := by
  have least := declared_le buf beyond
  have most := msgLen_le_claimedLen (Skb.ofUser buf beyond)
  by_cases tiny : buf.length < 2
  · apply Exposed.length tiny
    omega
  have supplied : 2 ≤ buf.length := by omega
  have len := msgLen_eq supplied beyond
  have len' := msgLen_eq supplied beyond'
  by_cases data : (Skb.ofUser buf beyond).cmd = CAPI_DATA_B3_REQ
  · rw [Skb.claimedLen, if_pos data, len] at framed
    apply Exposed.dataLength supplied _ (mayRead_cmd data) (UInt16.toNat_lt _) (mayRead_u16 16) framed
    by_contra long
    apply short
    rw [Skb.claimedLen, if_pos (by rw [← data]; exact cmd_same (by omega) _ _), len',
      u16_same (by omega) beyond' beyond]
    exact framed
  · rw [Skb.claimedLen, if_neg data, len] at framed
    have data' : (Skb.ofUser buf beyond').cmd = CAPI_DATA_B3_REQ := by
      by_contra other
      rw [Skb.claimedLen, if_neg other, len'] at short
      exact short framed
    have open_cmd : buf.length < 6 := by
      by_contra long
      apply data
      rw [← data']
      exact cmd_same (by omega) _ _
    apply @Exposed.dataLength nccis buf 0 supplied (by omega) (mayRead_cmd data') (by omega) _ framed
    intro i b _ x user
    rw [List.getElem?_eq_none (by omega)] at user
    cases user

/-- The two memories name different NCCIs. -/
theorem exposed_of_taken (framed : (Skb.ofUser buf beyond).claimedLen = buf.length)
    (resp : (Skb.ofUser buf beyond).cmd = CAPI_DISCONNECT_B3_RESP) {np : Capincci} (member : np ∈ nccis)
    (taken : np.taken (Skb.ofUser buf beyond).ncci)
    (differ : (Skb.ofUser buf beyond).leaves nccis ≠ (Skb.ofUser buf beyond').leaves nccis) : Exposed nccis buf := by
  have least := declared_le buf beyond
  have most := msgLen_le_claimedLen (Skb.ofUser buf beyond)
  by_cases tiny : buf.length < 2
  · apply Exposed.length tiny
    omega
  have supplied : 2 ≤ buf.length := by omega
  have other : (Skb.ofUser buf beyond).cmd ≠ CAPI_DATA_B3_REQ := by
    rw [resp]
    decide
  rw [Skb.claimedLen, if_neg other, msgLen_eq supplied] at framed
  apply Exposed.ncci supplied _ framed (mayRead_cmd resp) mayRead_ncci member taken
  by_contra long
  apply differ
  unfold Skb.leaves
  rw [cmd_same (by omega) beyond beyond', ncci_same (by omega) beyond beyond']

/-- A buffer that leaves two different messages is exposed. -/
theorem exposed_of_leaves (framed : (Skb.ofUser buf beyond).claimedLen = buf.length)
    (framed' : (Skb.ofUser buf beyond').claimedLen = buf.length)
    (differ : (Skb.ofUser buf beyond).leaves nccis ≠ (Skb.ofUser buf beyond').leaves nccis) : Exposed nccis buf := by
  by_cases first : (Skb.ofUser buf beyond).leaves nccis = nccis
  · have second : (Skb.ofUser buf beyond').leaves nccis ≠ nccis := by
      rw [first] at differ
      exact Ne.symm differ
    obtain ⟨resp, np, member, taken⟩ := taken_of_leaves second
    exact exposed_of_taken framed' resp member taken (Ne.symm differ)
  · obtain ⟨resp, np, member, taken⟩ := taken_of_leaves first
    exact exposed_of_taken framed resp member taken differ

/-- Memory that reads a DATA_B3_REQ with the Data length `n`. -/
def dataHeader (n : Nat) (i : Nat) : UInt8 :=
  if i = 4 then CAPI_DATA_B3 else if i = 5 then CAPI_REQ else if i = 16 then UInt8.ofNat n
  else if i = 17 then UInt8.ofNat (n / 256) else 0

/-- Memory that reads a DISCONNECT_B3_RESP for the NCCI `v`. -/
def respHeader (v : Nat) (i : Nat) : UInt8 :=
  if i = 4 then CAPI_DISCONNECT_B3_RESP.1 else if i = 5 then CAPI_DISCONNECT_B3_RESP.2
  else if 8 ≤ i then ((le 4 v)[i - 8]?).getD 0 else 0

/-- A command that may be read is read with the right bytes behind. -/
theorem cmd_behind {cmd : UInt8 × UInt8} (may : MayRead buf 4 [cmd.1, cmd.2]) {h : Nat → UInt8} (low : h 4 = cmd.1)
    (high : h 5 = cmd.2) : (Skb.ofUser buf (behind buf h)).cmd = cmd := by
  have first : (Skb.ofUser buf (behind buf h)).u8 4 = cmd.1 := @MayRead.agree buf 4 _ may h 0 _ rfl low
  have second : (Skb.ofUser buf (behind buf h)).u8 5 = cmd.2 := @MayRead.agree buf 4 _ may h 1 _ rfl high
  unfold Skb.cmd
  rw [first, second]

theorem dataLength_behind {n : Nat} (small : n < 65536) (may : MayRead buf 16 (le 2 n)) :
    ((Skb.ofUser buf (behind buf (dataHeader n))).u16 16).toNat = n := by
  have first : (Skb.ofUser buf (behind buf (dataHeader n))).u8 16 = UInt8.ofNat n :=
    @MayRead.agree buf 16 _ may (dataHeader n) 0 _ rfl rfl
  have second : (Skb.ofUser buf (behind buf (dataHeader n))).u8 17 = UInt8.ofNat (n / 256) :=
    @MayRead.agree buf 16 _ may (dataHeader n) 1 _ rfl rfl
  rw [u16_toNat, first, second, UInt8.toNat_ofNat', UInt8.toNat_ofNat']
  omega

theorem ncci_behind {v : UInt32} (may : MayRead buf 8 (le 4 v.toNat)) :
    (Skb.ofUser buf (behind buf (respHeader v.toNat))).ncci = v := by
  have reads {i : Nat} {b : UInt8} (field : (le 4 v.toNat)[i]? = some b) :
      (Skb.ofUser buf (behind buf (respHeader v.toNat))).u8 (8 + i) = b := by
    apply may.agree field
    have wide : 8 + i ≠ 4 ∧ 8 + i ≠ 5 := by omega
    rw [respHeader, if_neg wide.1, if_neg wide.2, if_pos (by omega), Nat.add_sub_cancel_left, field]
    rfl
  unfold Skb.ncci Skb.u32
  rw [reads (i := 0) rfl, reads (i := 1) rfl, reads (i := 2) rfl, reads (i := 3) rfl]
  show UInt32.ofNat (leNat (le 4 v.toNat)) = v
  rw [leNat_le_of_lt (show v.toNat < 256 ^ 4 from v.toNat_lt), UInt32.ofNat_toNat]

/-- A length word with zeros behind is what the buffer declares. -/
theorem msgLen_behind {h : Nat → UInt8} (low : h 0 = 0) (high : h 1 = 0) :
    (Skb.ofUser buf (behind buf h)).msgLen = declared buf := by
  by_cases supplied : 2 ≤ buf.length
  · exact msgLen_eq supplied _
  · have second : (Skb.ofUser buf (behind buf h)).u8 1 = 0 := by
      rw [u8_open (by omega), high]
    unfold Skb.msgLen declared
    rw [u16_toNat, second]
    match buf, supplied with
    | [], _ =>
      have first : (Skb.ofUser [] (behind [] h)).u8 0 = 0 := by
        rw [u8_open (Nat.le_refl 0), low]
      rw [first]
      rfl
    | [x], _ => rfl
    | x :: y :: rest, short =>
      simp only [List.length_cons] at short
      omega

/-- Another NCCI with the same low bytes. -/
theorem exists_other_ncci (v x : UInt32) :
    ∃ w : UInt32, w ≠ 0xffffffff ∧ x ≠ w ∧ w.toNat % 2 ^ 24 = v.toNat % 2 ^ 24 := by
  have small {n : Nat} (bound : n < 2 ^ 32 - 1) : (UInt32.ofNat n).toNat = n ∧ UInt32.ofNat n ≠ 0xffffffff := by
    have same : (UInt32.ofNat n).toNat = n := by
      rw [UInt32.toNat_ofNat']
      omega
    refine ⟨same, fun all => ?_⟩
    have value := congrArg UInt32.toNat all
    rw [same] at value
    have top : (0xffffffff : UInt32).toNat = 2 ^ 32 - 1 := rfl
    omega
  obtain ⟨zero, apart⟩ := small (n := v.toNat % 2 ^ 24) (by omega)
  obtain ⟨one, apart'⟩ := small (n := v.toNat % 2 ^ 24 + 2 ^ 24) (by omega)
  by_cases taken : x = UInt32.ofNat (v.toNat % 2 ^ 24)
  · refine ⟨UInt32.ofNat (v.toNat % 2 ^ 24 + 2 ^ 24), apart', ?_, by rw [one]; omega⟩
    intro same
    have value := congrArg UInt32.toNat (taken.symm.trans same)
    rw [zero, one] at value
    omega
  · exact ⟨UInt32.ofNat (v.toNat % 2 ^ 24), apart, taken, by rw [zero]; omega⟩

/-- Only the last byte of the NCCI is changed, and it is not the user's. -/
theorem MayRead.last_byte {v w : UInt32} (may : MayRead buf 8 (le 4 v.toNat)) (tiny : buf.length < 12)
    (low : w.toNat % 2 ^ 24 = v.toNat % 2 ^ 24) : MayRead buf 8 (le 4 w.toNat) := by
  intro i b field x user
  obtain ⟨inside, -⟩ := List.getElem?_eq_some_iff.mp user
  have byte {m n : Nat} (same : m % 256 = n % 256) : UInt8.ofNat m = UInt8.ofNat n := by
    apply UInt8.toNat_inj.mp
    rw [UInt8.toNat_ofNat', UInt8.toNat_ofNat']
    exact same
  match i with
  | 0 =>
    cases field
    rw [byte (n := v.toNat) (by omega)]
    exact may 0 _ rfl x user
  | 1 =>
    cases field
    rw [byte (n := v.toNat / 256) (by omega)]
    exact may 1 _ rfl x user
  | 2 =>
    cases field
    rw [byte (n := v.toNat / 256 / 256) (by omega)]
    exact may 2 _ rfl x user
  | i + 3 => omega

/-- Two memories that decide differently. -/
theorem Exposed.differ (exposed : Exposed nccis buf) : ∃ h h' : Nat → UInt8,
    (Skb.ofUser buf (behind buf h)).claimedLen = buf.length ∧
      ((Skb.ofUser buf (behind buf h')).claimedLen ≠ buf.length ∨
        (Skb.ofUser buf (behind buf h')).claimedLen = buf.length ∧
          (Skb.ofUser buf (behind buf h)).leaves nccis ≠ (Skb.ofUser buf (behind buf h')).leaves nccis) := by
  cases exposed with
  | length tiny fits =>
    have vacuous (off : Nat) (bs : Bytes) (beyond : 2 ≤ off) : MayRead buf off bs := by
      intro i b _ x user
      rw [List.getElem?_eq_none (by omega)] at user
      cases user
    refine ⟨dataHeader (buf.length - declared buf), fun _ => 1, ?_, .inl ?_⟩
    · rw [Skb.claimedLen, if_pos (cmd_behind (vacuous 4 _ (by omega)) rfl rfl), msgLen_behind rfl rfl,
        dataLength_behind (by omega) (vacuous 16 _ (by omega))]
      omega
    · have most := msgLen_le_claimedLen (Skb.ofUser buf (behind buf fun _ => 1))
      have high : (Skb.ofUser buf (behind buf fun _ => 1)).u8 1 = 1 := u8_open (by omega)
      have len : 256 ≤ (Skb.ofUser buf (behind buf fun _ => 1)).msgLen := by
        unfold Skb.msgLen
        rw [u16_toNat, high]
        show 256 ≤ _ + 256 * 1
        omega
      omega
  | @dataLength n supplied tiny may small field fits =>
    refine ⟨dataHeader n, fun i => if i = 17 then UInt8.ofNat (n / 256) + 1 else dataHeader n i, ?_, .inl ?_⟩
    · rw [Skb.claimedLen, if_pos (cmd_behind may rfl rfl), msgLen_eq supplied, dataLength_behind small field]
      exact fits
    · rw [Skb.claimedLen, if_pos (cmd_behind may rfl rfl), msgLen_eq supplied, u16_toNat]
      have high : (Skb.ofUser buf (behind buf fun i => if i = 17 then UInt8.ofNat (n / 256) + 1 else dataHeader n i)).u8
          17 = UInt8.ofNat (n / 256) + 1 := u8_open (by omega)
      have low := ((Skb.ofUser buf
        (behind buf fun i => if i = 17 then UInt8.ofNat (n / 256) + 1 else dataHeader n i)).u8 16).toNat_lt
      rw [high, UInt8.toNat_add, UInt8.toNat_ofNat']
      show _ + (_ + 256 * ((n / 256 % 2 ^ 8 + 1) % 2 ^ 8)) ≠ _
      omega
  | @ncci v np supplied tiny fits may field member taken =>
    obtain ⟨w, some, apart, low⟩ := exists_other_ncci v np.ncci
    have framed (u : UInt32) : (Skb.ofUser buf (behind buf (respHeader u.toNat))).claimedLen = buf.length := by
      rw [Skb.claimedLen, cmd_behind may rfl rfl, if_neg (by decide), msgLen_eq supplied, fits]
    refine ⟨respHeader v.toNat, respHeader w.toNat, framed v, .inr ⟨framed w, fun same => ?_⟩⟩
    have kept : np ∈ (Skb.ofUser buf (behind buf (respHeader w.toNat))).leaves nccis := by
      rw [Skb.leaves, cmd_behind may rfl rfl, if_pos rfl, ncci_behind (field.last_byte tiny low)]
      apply List.mem_filter.mpr
      exact ⟨member, by simp [Capincci.taken, some, apart]⟩
    rw [← same, Skb.leaves, cmd_behind may rfl rfl, if_pos rfl, ncci_behind field] at kept
    have spared := (List.mem_filter.mp kept).2
    simp [taken] at spared

end Exposed

/-! ## Writes with different memory behind the buffer -/

/-- The same outside, but `beyond` is behind every new buffer. -/
def Env.withSlab (env : Env) (beyond : Nat → UInt8) : Env := { env with slab := fun _ => beyond }

/-- What can be seen of a write: its result, the NCCIs of the file and the messages forwarded so far. -/
def seen (d : Nat) (out : Driver × Int) : Int × Option (List Capincci) × List (Nat × Bytes) :=
  (out.2, (out.1.devs d).map Capidev.nccis, out.1.accepted)

/-- Whatever is behind the buffer, the write looks the same. -/
def UserBytesOnly (env : Env) (s : Driver) (d : Nat) (buf : Bytes) : Prop :=
  ∀ beyond beyond', (capiWrite (env.withSlab beyond) s d buf).map (seen d) =
    (capiWrite (env.withSlab beyond') s d buf).map (seen d)

section Writes

variable {env : Env} {s : Driver} {d : Nat} {cdev : Capidev} {buf : Bytes}

/-- A write that fails before the message is read does not depend on it. -/
theorem capiWrite_early (dev : s.devs d = some cdev) (early : cdev.ap.id = 0 ∨ ¬ Granted env s) (beyond : Nat → UInt8) :
    capiWrite (env.withSlab beyond) s d buf = capiWrite env s d buf := by
  unfold capiWrite
  simp only [dev, Option.bind_eq_bind, Option.bind_some]
  by_cases unregistered : cdev.ap.id = 0
  · rw [if_pos unregistered, if_pos unregistered]
  · rw [if_neg unregistered, if_neg unregistered]
    by_cases memory : env.kmalloc s.tick = true
    · have fault : env.fault s.tick = true := by
        by_contra fine
        apply early.resolve_left unregistered
        exact ⟨memory, by simpa using fine⟩
      show (if ¬ env.kmalloc s.tick = true then _ else if env.fault s.tick = true then _ else _) =
        if ¬ env.kmalloc s.tick = true then _ else if env.fault s.tick = true then _ else _
      rw [if_neg (not_not_intro memory), if_neg (not_not_intro memory), if_pos fault, if_pos fault]
    · show (if ¬ env.kmalloc s.tick = true then _ else _) = if ¬ env.kmalloc s.tick = true then _ else _
      rw [if_pos memory, if_pos memory]

/-- A write with a wrong length fails. -/
theorem capiWrite_invalid (dev : s.devs d = some cdev) (registered : cdev.ap.id ≠ 0) (granted : Granted env s)
    (short : (Skb.ofUser buf (env.slab s.tick)).claimedLen ≠ buf.length) :
    capiWrite env s d buf = some (s.asked, -EINVAL) := by
  obtain ⟨memory, fault⟩ := granted
  have fine : ¬ env.fault s.tick = true := by
    rw [fault]
    decide
  simp only [capiWrite, dev, Option.bind_eq_bind, Option.bind_some, if_neg registered]
  rw [if_neg (not_not_intro memory), if_neg fine]
  exact if_pos short

/-- What is seen of a write that gets as far as the message. -/
theorem capiWrite_seen (wired : Wired s) (dev : s.devs d = some cdev) (registered : cdev.ap.id ≠ 0)
    (granted : Granted env s) (beyond : Nat → UInt8) :
    (capiWrite (env.withSlab beyond) s d buf).map (seen d) = some
      (if (Skb.ofUser buf beyond).claimedLen = buf.length then
        (if env.put s.tick = .NOERR then (buf.length : Int) else - EIO,
          some ((Skb.ofUser buf beyond).leaves cdev.nccis),
          (putCapiMessage s d (withApplId buf cdev.ap.id) (env.put s.tick)).accepted)
      else (-EINVAL, some cdev.nccis, s.accepted)) := by
  by_cases framed : (Skb.ofUser buf beyond).claimedLen = buf.length
  · obtain ⟨s₁, prepared⟩ := wired.asked.prepare dev (Skb.ofUser buf beyond)
    have accepted := prepare_accepted prepared dev
    rw [if_pos framed, @capiWrite_framed (env.withSlab beyond) s d cdev buf s₁ dev registered granted framed prepared,
      Option.map_some]
    have log : (putCapiMessage s₁ d (withApplId buf cdev.ap.id) (env.put s.tick)).accepted =
        (putCapiMessage s d (withApplId buf cdev.ap.id) (env.put s.tick)).accepted := by
      unfold putCapiMessage
      split
      · show s₁.accepted ++ _ = s.accepted ++ _
        rw [accepted]
        rfl
      · exact accepted
    simp only [seen, answered_nccis, ← log]
    rfl
  · rw [if_neg framed, @capiWrite_invalid (env.withSlab beyond) s d cdev buf dev registered granted framed,
      Option.map_some]
    show some (-EINVAL, (s.devs d).map Capidev.nccis, s.accepted) = _
    rw [dev]
    rfl

end Writes

/-- In every state a run reaches, a write depends on the user's bytes only exactly when it does not get as far as the
message, or the buffer is not exposed. -/
theorem write_user_bytes_iff (env : Env) {ops : List Op} {s : Driver} (run : exec (step env) .init ops = some s) {d : Nat}
    {cdev : Capidev} (dev : s.devs d = some cdev) (buf : Bytes) :
    UserBytesOnly env s d buf ↔ ¬ (cdev.ap.id ≠ 0 ∧ Granted env s ∧ Exposed cdev.nccis buf) := by
  have wired := wired_reached run
  by_cases early : cdev.ap.id = 0 ∨ ¬ Granted env s
  · constructor
    · rintro - ⟨registered, granted, -⟩
      rcases early with unregistered | refused
      · exact registered unregistered
      · exact refused granted
    · intro _ beyond beyond'
      rw [capiWrite_early dev early, capiWrite_early dev early]
  · rw [not_or, not_not] at early
    obtain ⟨registered, granted⟩ := early
    constructor
    · rintro same ⟨-, -, exposed⟩
      obtain ⟨h, h', framed, other⟩ := exposed.differ
      have both := same (behind buf h) (behind buf h')
      rw [capiWrite_seen wired dev registered granted, capiWrite_seen wired dev registered granted, if_pos framed] at both
      rcases other with short | ⟨framed', differ⟩
      · rw [if_neg short] at both
        have result := congrArg Prod.fst (Option.some.inj both)
        simp only at result
        split at result
        · have negative : (-EINVAL : Int) < 0 := by decide
          omega
        · cases result
      · rw [if_pos framed'] at both
        have nccis := congrArg (fun o => o.2.1) (Option.some.inj both)
        exact differ (Option.some.inj nccis)
    · intro hidden beyond beyond'
      rw [capiWrite_seen wired dev registered granted, capiWrite_seen wired dev registered granted]
      have safe : ¬ Exposed cdev.nccis buf := fun exposed => hidden ⟨registered, granted, exposed⟩
      by_cases framed : (Skb.ofUser buf beyond).claimedLen = buf.length
      · have framed' : (Skb.ofUser buf beyond').claimedLen = buf.length := by
          by_contra short
          exact safe (exposed_of_framed framed short)
        have leaves : (Skb.ofUser buf beyond).leaves cdev.nccis = (Skb.ofUser buf beyond').leaves cdev.nccis := by
          by_contra differ
          exact safe (exposed_of_leaves framed framed' differ)
        rw [if_pos framed, if_pos framed', leaves]
      · have short' : (Skb.ofUser buf beyond').claimedLen ≠ buf.length := by
          intro framed'
          exact safe (exposed_of_framed framed' framed)
        rw [if_neg framed, if_neg short']

theorem write_user_bytes_connected : ∃ s, exec (step .granting) .init connected = some s ∧
    UserBytesOnly .granting s 0 (messageOf CAPI_DISCONNECT_B3_RESP) := by
  obtain ⟨s, cdev, run, dev⟩ : ∃ s cdev, exec (step .granting) .init connected = some s ∧ s.devs 0 = some cdev :=
    ⟨_, _, rfl, rfl⟩
  refine ⟨s, run, (write_user_bytes_iff .granting run dev _).mpr ?_⟩
  rintro ⟨-, -, exposed⟩
  cases exposed with
  | length tiny => exact absurd tiny (by decide)
  | dataLength _ _ may =>
    have command := may 0 _ rfl _ rfl
    exact absurd command (by decide)
  | ncci _ tiny => exact absurd tiny (by decide)

/-- Of the 8 bytes 08 00 01 00 84 83 01 00 the NCCI is not the user's: it decides whether the record of 0x101 goes. -/
theorem short_response_overreads : ∃ s, exec (step .full) .init connected = some s ∧
    ((capiWrite (Env.full.withSlab fun i => if i < 2 then 1 else 0) s 0 [8, 0, 1, 0, 0x84, 0x83, 1, 0]).map fun out =>
      (out.2, (out.1.devs 0).map fun cdev => cdev.nccis.map Capincci.ncci)) = some (- EIO, some []) ∧
    ((capiWrite (Env.full.withSlab fun _ => 0) s 0 [8, 0, 1, 0, 0x84, 0x83, 1, 0]).map fun out =>
      (out.2, (out.1.devs 0).map fun cdev => cdev.nccis.map Capincci.ncci)) = some (- EIO, some [0x101]) ∧
    ¬ UserBytesOnly .full s 0 [8, 0, 1, 0, 0x84, 0x83, 1, 0] := by
  obtain ⟨s, run, one, other⟩ : ∃ s, exec (step .full) .init connected = some s ∧
      ((capiWrite (Env.full.withSlab fun i => if i < 2 then 1 else 0) s 0 [8, 0, 1, 0, 0x84, 0x83, 1, 0]).map fun out =>
        (out.2, (out.1.devs 0).map fun cdev => cdev.nccis.map Capincci.ncci)) = some (- EIO, some []) ∧
      ((capiWrite (Env.full.withSlab fun _ => 0) s 0 [8, 0, 1, 0, 0x84, 0x83, 1, 0]).map fun out =>
        (out.2, (out.1.devs 0).map fun cdev => cdev.nccis.map Capincci.ncci)) = some (- EIO, some [0x101]) :=
    ⟨_, rfl, rfl, rfl⟩
  refine ⟨s, run, one, other, fun same => ?_⟩
  have both := same (fun i => if i < 2 then 1 else 0) (fun _ => 0)
  have view := congrArg (Option.map fun out : Int × Option (List Capincci) × List (Nat × Bytes) =>
    (out.1, out.2.1.map fun nccis => nccis.map Capincci.ncci)) both
  rw [Option.map_map, Option.map_map] at view
  simp only [Function.comp_def, seen, Option.map_map] at view
  cases (one.symm.trans view).trans other

end Capi4Linux.Capi
