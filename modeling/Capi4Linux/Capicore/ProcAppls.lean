import Capi4Linux.Capicore.Frame
import Capi4Linux.Lib.Rank
import Capi4Linux.Lib.Sprintf

/-!
# /proc/capi/applparams and /proc/capi/applstats

`core_proc.c` lists the applications for `seq_file`, which reads the list in
pieces: a piece begins where the last one ended, counted in records, and takes
`capi_appls_list_sem` for its own time only. Applications come and go between
the pieces.
-/

namespace Capi4Linux.Capicore
open Capi4Linux.Capicore.Core Machine Bytes Sprintf Rank

/-! ## The source -/

/-- `SEQ_START_TOKEN`, or an application. -/
inductive SeqEntry where
  | startToken
  | appl (a : Nat)
  deriving DecidableEq

/-- `get_capi_appl_by_idx`. -/
def getCapiApplByIdx : List Nat → Nat → Option Nat
  | [], _ => none
  | a :: appls, idx => if idx = 0 then some a else getCapiApplByIdx appls (idx - 1)

/-- `get_capi_appl_next`. -/
def getCapiApplNext : List Nat → Nat → Option Nat
  | [], _ => none
  | b :: appls, a => if b = a then appls.head? else getCapiApplNext appls a

/-- `appl_start`. -/
def applStart (appls : List Nat) (pos : Nat) : Option SeqEntry :=
  if pos ≠ 0 then (getCapiApplByIdx appls (pos - 1)).map .appl else some .startToken

/-- `appl_next`, with the new position. -/
def applNext (appls : List Nat) (v : SeqEntry) (pos : Nat) : Option SeqEntry × Nat :=
  (match v with
    | .startToken => (getCapiApplByIdx appls 0).map .appl
    | .appl a => (getCapiApplNext appls a).map .appl,
    pos + 1)

/-- The fields of an application that only the listings show. -/
structure ApplFields where
  level3cnt : UInt32
  datablkcnt : UInt32
  txPackets : UInt64
  txBytes : UInt64
  rxPackets : UInt64
  rxBytes : UInt64
  msgQueueLen : UInt32

/-- `%d` of a `__u32`. -/
def signed (n : UInt32) : Bytes := if n < 0x80000000 then decimal n.toNat else ascii "-" ++ decimal (2 ^ 32 - n.toNat)

/-- `applparams_show`. -/
def applparamsShow (c : Core) (fields : Nat → ApplFields) : SeqEntry → Bytes
  | .startToken => ascii "id   : log_conns data_packets data_len\n"
  | .appl a =>
    padRight 5 (decimal (c.appl a).id.toNat) ++ ascii ": " ++ padRight 9 (signed (fields a).level3cnt) ++ ascii " " ++
      padRight 12 (signed (fields a).datablkcnt) ++ ascii " " ++ padRight 8 (signed (c.appl a).datablklen) ++ ascii "\n"

/-- `applstats_show`. -/
def applstatsShow (c : Core) (fields : Nat → ApplFields) : SeqEntry → Bytes
  | .startToken => ascii "id   : tx_packets tx_bytes | rx_packets rx_bytes rx_queue_len\n"
  | .appl a =>
    padRight 5 (decimal (c.appl a).id.toNat) ++ ascii ": " ++ padRight 10 (decimal (fields a).txPackets.toNat) ++
      ascii " " ++ padRight 8 (decimal (fields a).txBytes.toNat) ++ ascii " | " ++
      padRight 10 (decimal (fields a).rxPackets.toNat) ++ ascii " " ++ padRight 8 (decimal (fields a).rxBytes.toNat) ++
      ascii " " ++ padRight 8 (decimal (fields a).msgQueueLen.toNat) ++ ascii "\n"

/-- The two files. -/
inductive ApplFile where
  | applparams
  | applstats

def ApplFile.show : ApplFile → Core → (Nat → ApplFields) → SeqEntry → Bytes
  | .applparams => applparamsShow
  | .applstats => applstatsShow

/-! ## A piece -/

/-- The records after the first one, as long as `room` lasts; with the position of the next piece. -/
def seqFill (appls : List Nat) : Nat → SeqEntry → Nat → List SeqEntry × Nat
  | 0, v, pos => ([v], pos + 1)
  | room + 1, v, pos =>
    match applNext appls v pos with
    | (none, _) => ([v], pos + 1)
    | (some w, next) =>
      let (vs, index) := seqFill appls room w next
      (v :: vs, index)

/-- What `seq_read` makes of the operations. The first record always fits. -/
def seqRead (appls : List Nat) (room index : Nat) : List SeqEntry × Nat :=
  match applStart appls index with
  | none => ([], index)
  | some v => seqFill appls room v index

/-- All records of the list. -/
def seqEntries (appls : List Nat) : List SeqEntry := .startToken :: appls.map .appl

section Pieces

variable {appls : List Nat}

/-- The application at an index of the list. -/
theorem getCapiApplByIdx_eq (appls : List Nat) : ∀ idx, getCapiApplByIdx appls idx = appls[idx]? := by
  induction appls with
  | nil => exact fun _ => rfl
  | cons a appls ih =>
    intro idx
    cases idx with
    | zero => rfl
    | succ idx => exact ih idx

/-- The application behind another. -/
theorem getCapiApplNext_eq (nodup : appls.Nodup) : ∀ {i a : Nat}, appls[i]? = some a →
    getCapiApplNext appls a = appls[i + 1]? := by
  induction appls with
  | nil => intro i a here; cases here
  | cons b appls ih =>
    intro i a here
    obtain ⟨new, rest⟩ := List.nodup_cons.1 nodup
    cases i with
    | zero =>
      cases here
      rw [getCapiApplNext, if_pos rfl, List.head?_eq_getElem?]
      rfl
    | succ i =>
      have later : appls[i]? = some a := here
      have other : b ≠ a := fun same => new (same ▸ List.mem_of_getElem? later)
      rw [getCapiApplNext, if_neg other]
      exact ih rest later

/-- A round starts at its position. -/
theorem applStart_eq (appls : List Nat) (pos : Nat) : applStart appls pos = (seqEntries appls)[pos]? := by
  cases pos with
  | zero => rfl
  | succ pos =>
    rw [applStart, if_pos (Nat.succ_ne_zero pos), getCapiApplByIdx_eq]
    exact List.getElem?_map.symm

/-- A round goes on with the next entry. -/
theorem applNext_eq (nodup : appls.Nodup) {pos : Nat} {v : SeqEntry} (here : (seqEntries appls)[pos]? = some v) :
    applNext appls v pos = ((seqEntries appls)[pos + 1]?, pos + 1) := by
  cases pos with
  | zero =>
    cases here
    rw [applNext, getCapiApplByIdx_eq]
    exact congrArg (·, _) List.getElem?_map.symm
  | succ pos =>
    have found : (appls.map SeqEntry.appl)[pos]? = some v := here
    rw [List.getElem?_map] at found
    obtain ⟨a, at_pos, rfl⟩ := Option.map_eq_some_iff.1 found
    rw [applNext, getCapiApplNext_eq nodup at_pos]
    exact congrArg (·, _) List.getElem?_map.symm

/-- A round shows the entries that fit, from its position on. -/
theorem seqFill_eq (nodup : appls.Nodup) (room : Nat) : ∀ {pos : Nat} {v : SeqEntry}, (seqEntries appls)[pos]? = some v →
    seqFill appls room v pos =
      (((seqEntries appls).drop pos).take (room + 1), pos + (((seqEntries appls).drop pos).take (room + 1)).length) := by
  induction room with
  | zero =>
    intro pos v here
    rw [List.drop_eq_getElem?_toList_append, here]
    rfl
  | succ room ih =>
    intro pos v here
    rw [seqFill, applNext_eq nodup here, List.drop_eq_getElem?_toList_append, here]
    cases next : (seqEntries appls)[pos + 1]? with
    | none =>
      rw [List.drop_eq_nil_of_le (List.getElem?_eq_none_iff.1 next)]
      rfl
    | some w =>
      dsimp only
      rw [ih next]
      simp only [Option.toList_some, List.singleton_append, List.take_succ_cons, List.length_cons]
      congr 1
      omega

/-- A piece is what the list holds behind the position. -/
theorem seqRead_eq (nodup : appls.Nodup) (room index : Nat) :
    seqRead appls room index =
      (((seqEntries appls).drop index).take (room + 1),
        index + (((seqEntries appls).drop index).take (room + 1)).length) := by
  unfold seqRead
  rw [applStart_eq]
  cases here : (seqEntries appls)[index]? with
  | none =>
    rw [List.drop_eq_nil_of_le (List.getElem?_eq_none_iff.1 here)]
    rfl
  | some v => exact seqFill_eq nodup room here

theorem seqEntries_nodup (nodup : appls.Nodup) : (seqEntries appls).Nodup := by
  refine List.nodup_cons.2 ⟨fun mem => ?_, nodup.map fun _ _ same => SeqEntry.appl.inj same⟩
  obtain ⟨a, -, same⟩ := List.mem_map.1 mem
  cases same

end Pieces

/-! ## Lines -/

/-- A number is one line. -/
theorem newline_notMem_decimal (n : Nat) : (10 : UInt8) ∉ decimal n := by
  intro mem
  obtain ⟨low, -⟩ := mem_digits (by decide) (by decide) mem
  revert low
  decide

theorem newline_notMem_signed (n : UInt32) : (10 : UInt8) ∉ signed n := by
  unfold signed
  split
  · exact newline_notMem_decimal _
  · rw [List.mem_append]
    rintro (sign | number)
    · revert sign
      decide
    · exact newline_notMem_decimal _ number

theorem newline_notMem_padRight {width : Nat} {s : Bytes} (clean : (10 : UInt8) ∉ s) :
    (10 : UInt8) ∉ padRight width s := by
  unfold padRight
  rw [List.mem_append]
  rintro (here | space)
  · exact clean here
  · cases List.eq_of_mem_replicate space

/-- A record is one line. -/
theorem count_newline_show (file : ApplFile) (c : Core) (fields : Nat → ApplFields) (v : SeqEntry) :
    (file.show c fields v).count 10 = 1 := by
  have number (width n : Nat) : (padRight width (decimal n)).count 10 = 0 :=
    List.count_eq_zero.2 (newline_notMem_padRight (newline_notMem_decimal n))
  have word (width : Nat) (n : UInt32) : (padRight width (signed n)).count 10 = 0 :=
    List.count_eq_zero.2 (newline_notMem_padRight (newline_notMem_signed n))
  have colon : (ascii ": ").count 10 = 0 := by decide
  have blank : (ascii " ").count 10 = 0 := by decide
  have bar : (ascii " | ").count 10 = 0 := by decide
  have newline : (ascii "\n").count 10 = 1 := by decide
  cases file with
  | applparams =>
    cases v with
    | startToken =>
      simp only [ApplFile.show, applparamsShow]
      decide
    | appl a => simp only [ApplFile.show, applparamsShow, List.count_append, number, word, colon, blank, newline]
  | applstats =>
    cases v with
    | startToken =>
      simp only [ApplFile.show, applstatsShow]
      decide
    | appl a => simp only [ApplFile.show, applstatsShow, List.count_append, number, colon, blank, bar, newline]

/-- A round shows one line an entry. -/
theorem count_newline_lines (file : ApplFile) (c : Core) (fields : Nat → ApplFields) (vs : List SeqEntry) :
    (vs.flatMap (file.show c fields)).count 10 = vs.length := by
  induction vs with
  | nil => rfl
  | cons v vs ih => rw [List.flatMap_cons, List.count_append, count_newline_show, ih, List.length_cons, Nat.add_comm]

/-! ## A reader -/

/-- The capicore, and one reader of the list: the position of its next piece, the records it was given, their text,
and whether a read has found the end. -/
structure ApplSeq where
  core : Core
  index : Nat
  shown : List SeqEntry
  text : Bytes
  ended : Bool

namespace ApplSeq

/-- The file just opened. -/
def opened (c : Core) : ApplSeq := ⟨c, 0, [], [], false⟩

inductive Op where
  | core (l : Section)
  | read (room : Nat) (fields : Nat → ApplFields)

def step (cfg : Config) (file : ApplFile) (s : ApplSeq) : Op → Option ApplSeq
  | .core l => (Capicore.step cfg s.core l).map fun c => { s with core := c }
  | .read room fields =>
    let (part, index) := seqRead s.core.capiApplsList room s.index
    some { s with
      index
      shown := s.shown ++ part
      text := s.text ++ part.flatMap (file.show s.core fields)
      ended := s.ended || part.isEmpty }

def Allowed (cfg : Config) (s : ApplSeq) : Op → Prop
  | .core l => Capicore.Allowed s.core l ∧ InRange cfg s.core l
  | .read _ _ => True

/-! ## What it is for -/

/-- The number of an application. -/
def number (s : ApplSeq) (a : Nat) : Nat := (s.core.appl a).id.toNat

/-- What a read shows is a stretch of the list as it is at that time, in the order of the numbers. -/
def Piece (s : ApplSeq) (op : Op) (s' : ApplSeq) : Prop :=
  ∃ part, s'.shown = s.shown ++ part ∧ part <:+: seqEntries s.core.capiApplsList ∧
    s.core.capiApplsList.Pairwise (fun a b => s.number a < s.number b) ∧
    match op with
    | .core _ => part = []
    | .read _ _ => s'.core = s.core

/-- The application stays, and so do those with smaller numbers. -/
structure NoneLeaves (a : Nat) (s s' : ApplSeq) : Prop where
  listed : a ∈ s'.core.capiApplsList
  below : ∀ b ∈ s.core.capiApplsList, s.number b < s.number a → b ∈ s'.core.capiApplsList

/-- The application stays, and none with a smaller number comes. -/
structure NoneComes (a : Nat) (s s' : ApplSeq) : Prop where
  listed : a ∈ s'.core.capiApplsList
  below : ∀ b ∈ s'.core.capiApplsList, s'.number b < s'.number a → b ∈ s.core.capiApplsList

/-- The record of an application is this many records behind the start. -/
def place (s : ApplSeq) (a : Nat) : Nat := rank s.number s.core.capiApplsList a + 1

section Steps

variable {cfg : Config} {file : ApplFile} {s s' : ApplSeq} {op : Op} {a : Nat}

/-- Where the record of an application stands. -/
theorem getElem?_place (h : Listed cfg s.core) (listed : a ∈ s.core.capiApplsList) :
    (seqEntries s.core.capiApplsList)[s.place a]? = some (.appl a) := by
  have stands := getElem?_rank (List.pairwise_map.1 h.numbered.1) listed
  show (s.core.capiApplsList.map SeqEntry.appl)[rank s.number s.core.capiApplsList a]? = _
  rw [List.getElem?_map]
  exact congrArg (Option.map SeqEntry.appl) stands

/-- While an application is listed, it keeps its number. -/
theorem step_number (h : Registry cfg s.core) (allowed : s.Allowed cfg op) (run : step cfg file s op = some s')
    (was : a ∈ s.core.capiApplsList) (is : a ∈ s'.core.capiApplsList) : s'.number a = s.number a := by
  cases op with
  | read room fields => cases run; rfl
  | core l =>
    obtain ⟨c, inner, rfl⟩ := Option.map_eq_some_iff.1 run
    refine congrArg UInt16.toNat ?_
    have frame := step_elsewhere h allowed.1 allowed.2 inner
    cases l with
    | applRegister b datablklen info =>
      refine frame.id a fun mine => ?_
      cases mine
      exact h.listed.unlisted allowed.1 was
    | applRelease b =>
      refine frame.id a fun mine => ?_
      cases mine
      obtain ⟨r, c1, run', -, keep⟩ := h.applRelease allowed.1.1 allowed.1.2
      rw [Capicore.step, run'] at inner
      cases inner
      have phase := (keep.listed.phase a).1 is
      change Function.update c1.applPhase a ApplPhase.released a = .registered at phase
      rw [Function.update_self] at phase
      cases phase
    | _ => exact (step_same inner (by simp) (by simp)).id a

/-- A step of the capicore leaves the reader alone; a read takes the next piece. -/
theorem step_reader (h : Registry cfg s.core) (run : step cfg file s op = some s') :
    (s'.index = s.index ∧ s'.shown = s.shown ∧ s'.text = s.text ∧ s'.ended = s.ended) ∨
      ∃ room, s'.core = s.core ∧
        s'.shown = s.shown ++ ((seqEntries s.core.capiApplsList).drop s.index).take (room + 1) ∧
        s'.index = s.index + (((seqEntries s.core.capiApplsList).drop s.index).take (room + 1)).length ∧
        s'.text.count 10 =
          s.text.count 10 + (((seqEntries s.core.capiApplsList).drop s.index).take (room + 1)).length ∧
        (s'.ended → s.ended ∨ (seqEntries s.core.capiApplsList).length ≤ s.index) := by
  cases op with
  | core l =>
    obtain ⟨c, -, rfl⟩ := Option.map_eq_some_iff.1 run
    exact .inl ⟨rfl, rfl, rfl, rfl⟩
  | read room fields =>
    rw [step, seqRead_eq h.listed.numbered.nodup] at run
    cases run
    refine .inr ⟨room, rfl, rfl, rfl, ?_, fun ended => ?_⟩
    · rw [List.count_append, count_newline_lines]
    · rcases Bool.or_eq_true_iff.1 ended with before | empty
      · exact .inl before
      · refine .inr ?_
        rw [List.isEmpty_iff, List.take_eq_nil_iff] at empty
        rcases empty with none | past
        · cases none
        · exact List.drop_eq_nil_iff.1 past

/-! ## What stays below -/

/-- Where nobody in front leaves, an application is not moved forward. -/
theorem NoneLeaves.place_le (h : Listed cfg s.core)
    (kept : ∀ b ∈ s.core.capiApplsList, b ∈ s'.core.capiApplsList → s'.number b = s.number b)
    (was : a ∈ s.core.capiApplsList) (stays : NoneLeaves a s s') : s.place a ≤ s'.place a := by
  refine Nat.succ_le_succ (rank_le h.numbered.nodup fun b listed below => ?_)
  have there := stays.below b listed below
  refine ⟨there, ?_⟩
  rw [kept b listed there, kept a was stays.listed]
  exact below

/-- Where nobody in front comes, an application is not moved back. -/
theorem NoneComes.place_le (h : Listed cfg s'.core)
    (kept : ∀ b ∈ s.core.capiApplsList, b ∈ s'.core.capiApplsList → s'.number b = s.number b)
    (was : a ∈ s.core.capiApplsList) (leads : NoneComes a s s') : s'.place a ≤ s.place a := by
  refine Nat.succ_le_succ (rank_le h.numbered.nodup fun b listed below => ?_)
  have there := leads.below b listed below
  refine ⟨there, ?_⟩
  rw [← kept b there listed, ← kept a was leads.listed]
  exact below

/-- The application is ahead of the reader, or has been shown. -/
structure Ahead (a : Nat) (s : ApplSeq) : Prop where
  listed : a ∈ s.core.capiApplsList
  ahead : s.index ≤ s.place a ∨ .appl a ∈ s.shown
  ended : s.ended → .appl a ∈ s.shown

/-- The application has not been shown, or once and is behind the reader. -/
structure Behind (a : Nat) (s : ApplSeq) : Prop where
  listed : a ∈ s.core.capiApplsList
  behind : s.shown.count (.appl a) = 0 ∨ s.shown.count (.appl a) = 1 ∧ s.place a < s.index

/-- An application ahead stays ahead while nobody in front leaves. -/
theorem Ahead.step (h : Registry cfg s.core) (allowed : s.Allowed cfg op) (run : step cfg file s op = some s')
    (ahead : Ahead a s) (stays : NoneLeaves a s s') : Ahead a s' := by
  have le := stays.place_le h.listed (fun b was is => step_number h allowed run was is) ahead.listed
  have stands := getElem?_place h.listed ahead.listed
  have nodup := seqEntries_nodup h.listed.numbered.nodup
  refine ⟨stays.listed, ?_, ?_⟩
  · rcases step_reader h run with ⟨index, shown, -⟩ | ⟨room, -, shown, index, -⟩
    · rw [index, shown]
      exact ahead.ahead.imp_left fun before => before.trans le
    · rw [index, shown]
      rcases ahead.ahead with before | old
      · by_cases mem : SeqEntry.appl a ∈ ((seqEntries s.core.capiApplsList).drop s.index).take (room + 1)
        · exact .inr (List.mem_append_right _ mem)
        · refine .inl ?_
          rw [mem_piece_iff nodup stands] at mem
          have := List.length_take_le (room + 1) ((seqEntries s.core.capiApplsList).drop s.index)
          omega
      · exact .inr (List.mem_append_left _ old)
  · intro ended
    rcases step_reader h run with ⟨-, shown, -, same⟩ | ⟨room, -, shown, -, -, past⟩
    · rw [shown]
      exact ahead.ended (same ▸ ended)
    · rw [shown]
      refine List.mem_append_left _ ?_
      rcases past ended with before | past
      · exact ahead.ended before
      · obtain ⟨inside, -⟩ := List.getElem?_eq_some_iff.1 stands
        exact ahead.ahead.resolve_left (by omega)

/-- An application behind stays behind while nobody in front comes. -/
theorem Behind.step (h : Registry cfg s.core) (h' : Registry cfg s'.core) (allowed : s.Allowed cfg op)
    (run : step cfg file s op = some s') (behind : Behind a s) (leads : NoneComes a s s') : Behind a s' := by
  have le := leads.place_le h'.listed (fun b was is => step_number h allowed run was is) behind.listed
  have stands := getElem?_place h.listed behind.listed
  have nodup := seqEntries_nodup h.listed.numbered.nodup
  refine ⟨leads.listed, ?_⟩
  rcases step_reader h run with ⟨index, shown, -⟩ | ⟨room, core, shown, index, -⟩
  · rw [index, shown]
    exact behind.behind.imp_right fun once => ⟨once.1, le.trans_lt once.2⟩
  · rw [index, shown, List.count_append]
    by_cases mem : SeqEntry.appl a ∈ ((seqEntries s.core.capiApplsList).drop s.index).take (room + 1)
    · have piece : (((seqEntries s.core.capiApplsList).drop s.index).take (room + 1)).Nodup :=
        nodup.sublist ((List.take_sublist _ _).trans (List.drop_sublist _ _))
      have once := List.count_eq_one_of_mem piece mem
      have reach := lt_of_mem_piece nodup stands mem
      have low := ((mem_piece_iff nodup stands).1 mem).1
      rcases behind.behind with new | ⟨-, passed⟩
      · exact .inr ⟨by omega, by omega⟩
      · omega
    · rw [List.count_eq_zero.2 mem]
      exact behind.behind.imp_right fun once => ⟨once.1, by omega⟩

/-- The list is `appls`, and the reader has been shown its beginning, all of it at the end. -/
structure Whole (appls : List Nat) (s : ApplSeq) : Prop where
  list : s.core.capiApplsList = appls
  shown : s.shown = (seqEntries appls).take s.index
  inside : s.index ≤ (seqEntries appls).length
  ended : s.ended → s.index = (seqEntries appls).length

/-- A file read while nothing changes is whole. -/
theorem Whole.step {appls : List Nat} (h : Registry cfg s.core) (run : step cfg file s op = some s') (whole : Whole appls s)
    (quiet : s'.core.capiApplsList = s.core.capiApplsList) : Whole appls s' := by
  obtain ⟨list, shown, inside, ended⟩ := whole
  rcases step_reader h run with ⟨index', shown', -, ended'⟩ | ⟨room, -, shown', index', -, past⟩
  · refine ⟨quiet.trans list, by rw [shown', index', shown], ?_, ?_⟩
    · rw [index']
      exact inside
    · rw [ended', index']
      exact ended
  · rw [list] at shown' index' past
    refine ⟨quiet.trans list, ?_, ?_, fun last => ?_⟩
    · rw [shown', index', shown]
      exact take_append_piece _ _ _
    · rw [index', List.length_take, List.length_drop]
      omega
    · rw [index', List.length_take, List.length_drop]
      rcases past last with before | past
      · have := ended before
        omega
      · omega

/-- Every piece shows lines of the list. -/
theorem step_piece (h : Registry cfg s.core) (run : step cfg file s op = some s') : Piece s op s' := by
  have increasing : s.core.capiApplsList.Pairwise fun a b => s.number a < s.number b :=
    List.pairwise_map.1 h.listed.numbered.1
  cases op with
  | core l =>
    obtain ⟨c, -, rfl⟩ := Option.map_eq_some_iff.1 run
    exact ⟨[], (List.append_nil _).symm, List.nil_infix, increasing, rfl⟩
  | read room fields =>
    rw [step, seqRead_eq h.listed.numbered.nodup] at run
    cases run
    exact ⟨_, rfl, (List.take_prefix _ _).isInfix.trans (List.drop_suffix _ _).isInfix, increasing, rfl⟩

/-- The registry is in order, and every record is a line. -/
structure Sound (cfg : Config) (s : ApplSeq) : Prop where
  registry : Registry cfg s.core
  lines : s.text.count 10 = s.shown.length

/-- Every allowed step is taken. -/
theorem Sound.step (sound : Sound cfg s) (allowed : s.Allowed cfg op) :
    ∃ s', ApplSeq.step cfg file s op = some s' ∧ Sound cfg s' := by
  have h := sound.registry
  obtain ⟨s', run, registry⟩ : ∃ s', ApplSeq.step cfg file s op = some s' ∧ Registry cfg s'.core := by
    cases op with
    | core l =>
      obtain ⟨c, inner, keep⟩ := h.step allowed.1 allowed.2
      exact ⟨{ s with core := c }, by rw [ApplSeq.step, inner]; rfl, keep⟩
    | read room fields => exact ⟨_, rfl, h⟩
  refine ⟨s', run, registry, ?_⟩
  rcases step_reader h run with ⟨-, shown, text, -⟩ | ⟨room, -, shown, -, text, -⟩
  · rw [text, shown, sound.lines]
  · rw [text, shown, sound.lines, List.length_append]

end Steps

end ApplSeq

open ApplSeq in
/-- While applications come and go, a reader of the listing is shown a line for each record, and pieces of the list as
it is at their times. When it has come to the end, it has been shown every application that stayed, unless one with a
smaller number left; it has been shown none of them twice, unless one with a smaller number came; and the whole list
when the list did not change. -/
theorem applications_shown {cfg : Config} {file : ApplFile} {pre : List Section} {c : Core} {ops : List Op}
    (loaded : Meets (Capicore.step cfg) (fun c l => Capicore.Allowed c l ∧ InRange cfg c l) Core.init pre)
    (opens : exec (Capicore.step cfg) Core.init pre = some c)
    (allowed : Meets (ApplSeq.step cfg file) (ApplSeq.Allowed cfg) (opened c) ops) :
    Each (ApplSeq.step cfg file) Piece (opened c) ops ∧
      ∃ s, exec (ApplSeq.step cfg file) (opened c) ops = some s ∧ s.text.count 10 = s.shown.length ∧
        (∀ a ∈ c.capiApplsList,
          (Each (ApplSeq.step cfg file) (fun s _ s' => NoneLeaves a s s') (opened c) ops → s.ended → .appl a ∈ s.shown) ∧
          (Each (ApplSeq.step cfg file) (fun s _ s' => NoneComes a s s') (opened c) ops → s.shown.count (.appl a) ≤ 1)) ∧
        (Each (ApplSeq.step cfg file) (fun s _ s' => s'.core.capiApplsList = s.core.capiApplsList) (opened c) ops →
          s.shown = (seqEntries c.capiApplsList).take s.index ∧ (s.ended → s.shown = seqEntries c.capiApplsList)) := by
  obtain ⟨-, always, -⟩ := run_good (registry_init cfg) traced_init loaded
  have start : Sound cfg (opened c) := ⟨(always.last opens).1, rfl⟩
  have step : ∀ s op, Sound cfg s → s.Allowed cfg op → ∃ s', ApplSeq.step cfg file s op = some s' ∧ Sound cfg s' :=
    fun s op sound => sound.step
  have keep : ∀ s op s', Sound cfg s → s.Allowed cfg op → ApplSeq.step cfg file s op = some s' → Sound cfg s' := by
    intro s op s' sound ok run
    obtain ⟨s2, run2, sound2⟩ := step s op sound ok
    rw [run] at run2
    cases run2
    exact sound2
  obtain ⟨s, run, sound⟩ := exec_of_inv step start allowed
  have piece : ∀ s op s', Sound cfg s → s.Allowed cfg op → ApplSeq.step cfg file s op = some s' →
      Piece s op s' ∧ Sound cfg s' :=
    fun s op s' sound ok run => ⟨step_piece sound.registry run, keep s op s' sound ok run⟩
  refine ⟨each_of_inv (Sound cfg) piece start allowed, s, run, sound.lines,
    fun a listed => ⟨fun stays ended => ?_, fun leads => ?_⟩, fun quiet => ?_⟩
  · have ahead : Sound cfg s ∧ Ahead a s := by
      refine inv_of_each (fun s => Sound cfg s ∧ Ahead a s) (fun s op s' inv ok run stay => ?_)
        ⟨start, listed, .inl (Nat.zero_le _), fun no => by cases no⟩ allowed stays run
      exact ⟨keep s op s' inv.1 ok run, inv.2.step inv.1.registry ok run stay⟩
    exact ahead.2.ended ended
  · have behind : Sound cfg s ∧ Behind a s := by
      refine inv_of_each (fun s => Sound cfg s ∧ Behind a s) (fun s op s' inv ok run lead => ?_)
        ⟨start, listed, .inl rfl⟩ allowed leads run
      have next := keep s op s' inv.1 ok run
      exact ⟨next, inv.2.step inv.1.registry next.registry ok run lead⟩
    rcases behind.2.behind with none | ⟨once, -⟩
    · omega
    · omega
  · have whole : Sound cfg s ∧ Whole c.capiApplsList s := by
      refine inv_of_each (fun s => Sound cfg s ∧ Whole c.capiApplsList s) (fun s op s' inv ok run same => ?_)
        ⟨start, rfl, rfl, Nat.zero_le _, fun no => by cases no⟩ allowed quiet run
      exact ⟨keep s op s' inv.1 ok run, inv.2.step inv.1.registry run same⟩
    refine ⟨whole.2.shown, fun ended => ?_⟩
    rw [whole.2.shown, whole.2.ended ended, List.take_length]

def twoRegistered : List Section := [.applRegister 0 2048 fun _ => .NOERR, .applRegister 1 2048 fun _ => .NOERR]

/-- The first of two applications leaves when it has been read, and the second one is passed over. -/
def passedOver : List ApplSeq.Op :=
  [.read 1 fun _ => ⟨0, 0, 0, 0, 0, 0, 0⟩, .core (.applRelease 0), .read 0 fun _ => ⟨0, 0, 0, 0, 0, 0, 0⟩]

theorem twoRegistered_loaded : Meets (Capicore.step ⟨4, 64, by decide, by decide⟩)
    (fun c l => Capicore.Allowed c l ∧ InRange ⟨4, 64, by decide, by decide⟩ c l) Core.init twoRegistered := by
  refine ⟨⟨rfl, fun _ => .inl (by decide)⟩, fun _ first => ?_⟩
  cases first
  exact ⟨⟨rfl, fun _ => .inl (by decide)⟩, fun _ _ => trivial⟩

theorem passedOver_allowed {c : Core}
    (opens : exec (Capicore.step ⟨4, 64, by decide, by decide⟩) Core.init twoRegistered = some c) :
    Meets (ApplSeq.step ⟨4, 64, by decide, by decide⟩ .applparams) (ApplSeq.Allowed ⟨4, 64, by decide, by decide⟩)
      (ApplSeq.opened c) passedOver := by
  cases opens
  refine ⟨trivial, fun _ first => ?_⟩
  cases first
  refine ⟨⟨⟨rfl, fun p mem => ?_⟩, trivial⟩, fun _ second => ?_⟩
  · cases mem
  · cases second
    exact ⟨trivial, fun _ _ => trivial⟩

theorem applications_shown_passedOver :
    ∃ c, exec (Capicore.step ⟨4, 64, by decide, by decide⟩) Core.init twoRegistered = some c ∧
      c.capiApplsList = [0, 1] ∧
      ∃ s, exec (ApplSeq.step ⟨4, 64, by decide, by decide⟩ .applparams) (ApplSeq.opened c) passedOver = some s ∧
        s.text.count 10 = s.shown.length ∧ s.shown = [.startToken, .appl 0] ∧ s.ended = true := by
  obtain ⟨c, opens⟩ : ∃ c, exec (Capicore.step ⟨4, 64, by decide, by decide⟩) Core.init twoRegistered = some c :=
    ⟨_, rfl⟩
  obtain ⟨-, s, run, lines, -⟩ := applications_shown twoRegistered_loaded opens (passedOver_allowed opens)
  refine ⟨c, opens, ?_, s, run, lines, ?_⟩
  · cases opens
    rfl
  · cases opens
    cases run
    exact ⟨rfl, rfl⟩

end Capi4Linux.Capicore
