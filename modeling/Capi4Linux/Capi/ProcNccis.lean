import Capi4Linux.Capi.State
import Capi4Linux.Lib.Listing
import Capi4Linux.Lib.Sprintf

/-!
# /proc/capi/capi20ncci

`proc_capincci_read_proc` prints a line for every NCCI of every file into a page
and returns the part that begins at an offset. The page has room for all that
is printed into it, and its size is an `int`; `page` is the memory there.
-/

namespace Capi4Linux.Capi
open Bytes Listing Sprintf

/-! ## The source -/

/-- `"%d 0x%x\n"`. -/
def ncciLine (id : UInt16) (np : Capincci) : Bytes :=
  decimal id.toNat ++ ascii " 0x" ++ hex np.ncci.toNat ++ ascii "\n"

/-- The page and the variables of the loops. -/
structure ProcRead where
  page : Nat → UInt8
  len : Nat
  off : Nat

/-- `for (np=cdev->nccis; np; np = np->next)`; the flag is the `goto endloop`. -/
def ncciLoop (count : Int) (id : UInt16) : List Capincci → ProcRead → ProcRead × Bool
  | [], r => (r, false)
  | np :: nccis, r =>
    let line := ncciLine id np
    let r := { r with page := sprintf r.page r.len line, len := r.len + line.length }
    if r.len ≤ r.off then ncciLoop count id nccis { r with off := r.off - r.len, len := 0 }
    else if (r.len : Int) - r.off > count then (r, true)
    else ncciLoop count id nccis r

/-- `list_for_each(l, &capidev_list)`. -/
def capidevLoop (count : Int) : List Capidev → ProcRead → ProcRead
  | [], r => r
  | cdev :: devs, r =>
    let (r, endloop) := ncciLoop count cdev.ap.id cdev.nccis r
    if endloop then r else capidevLoop count devs r

/-- The page, `*start - page`, the returned length, and whether `*eof` is set. -/
structure ProcResult where
  page : Nat → UInt8
  start : Nat
  len : Int
  eof : Bool

def procCapincciReadProc (devs : List Capidev) (page : Nat → UInt8) (off : Nat) (count : Int) : ProcResult :=
  let r := capidevLoop count devs ⟨page, 0, off⟩
  let len : Int := if r.len > count then count else r.len
  let len := if len < 0 then 0 else len
  ⟨r.page, r.off, len, (r.len : Int) < count⟩

/-- The bytes that are made available. -/
def ProcResult.bytes (r : ProcResult) : Bytes := (List.range' r.start r.len.toNat).map r.page

/-- Reading on from an offset, each time from where the last read ended. -/
def readOn (devs : List Capidev) : Nat → List ((Nat → UInt8) × Nat) → Bytes
  | _, [] => []
  | off, (page, count) :: reads =>
    let r := procCapincciReadProc devs page off count
    r.bytes ++ readOn devs (off + r.len.toNat) reads

/-! ## What it is for -/

def ncciLines (devs : List Capidev) : List Bytes := devs.flatMap fun cdev => cdev.nccis.map (ncciLine cdev.ap.id)

/-- All lines. -/
def ncciText (devs : List Capidev) : Bytes := (ncciLines devs).flatten

/-- Part of the text is made available, some of it unless the end was reached. -/
structure ProcResult.Exact (text : Bytes) (off count : Nat) (r : ProcResult) : Prop where
  bytes : r.bytes <+: text.drop off
  bound : 0 ≤ r.len ∧ r.len ≤ count
  progress : r.len = 0 → off = text.length
  eof : r.eof = true → off + r.bytes.length = text.length

/-- A read begins at the start of a line, or asks for no more than what is left. -/
def InStep (devs : List Capidev) (off count : Nat) : Prop :=
  Boundary (ncciLines devs) off ∨ off + count ≤ (ncciText devs).length

/-- Each read begins where those before it end when they get all they ask for, or all there is. -/
def AllInStep (devs : List Capidev) : Nat → List Nat → Prop
  | _, [] => True
  | off, count :: counts => InStep devs off count ∧ AllInStep devs (min (off + count) (ncciText devs).length) counts

/-! ## The loops -/

section Loops

variable {r : ProcRead} {kept : Bytes} {count : Nat}

/-- The page starts with the lines that are kept. -/
structure ProcRead.Keeps (r : ProcRead) (kept : Bytes) : Prop where
  page : Starts r.page kept
  len : r.len = kept.length

/-- A scan that goes on with `more`, unless the loop has ended it. -/
theorem ncciLoop_scan (id : UInt16) (nccis : List Capincci) (keeps : r.Keeps kept) :
    ∃ kept₁, (ncciLoop count id nccis r).1.Keeps kept₁ ∧ ∀ more, scan count (nccis.map (ncciLine id) ++ more) kept r.off =
      if (ncciLoop count id nccis r).2 then (kept₁, (ncciLoop count id nccis r).1.off)
      else scan count more kept₁ (ncciLoop count id nccis r).1.off := by
  induction nccis generalizing r kept with
  | nil => exact ⟨kept, keeps, fun more => rfl⟩
  | cons np nccis ih =>
    have page : Starts (sprintf r.page r.len (ncciLine id np)) (kept ++ ncciLine id np) := by
      rw [keeps.len]
      exact keeps.page.sprintf _
    have len : r.len + (ncciLine id np).length = (kept ++ ncciLine id np).length := by
      rw [keeps.len, List.length_append]
    simp only [List.map_cons, List.cons_append, scan, ncciLoop, len]
    split
    · rename_i skipped
      exact ih ⟨Starts.nil _, rfl⟩
    · rename_i inside
      by_cases enough : (kept ++ ncciLine id np).length - r.off > count
      · have stop : ((kept ++ ncciLine id np).length : Int) - r.off > count := by omega
        simp only [if_pos enough, if_pos stop]
        exact ⟨kept ++ ncciLine id np, ⟨page, rfl⟩, fun _ => rfl⟩
      · have on : ¬ ((kept ++ ncciLine id np).length : Int) - r.off > count := by omega
        simp only [if_neg enough, if_neg on]
        exact ih ⟨page, rfl⟩

/-- A file's lines, and then those of the rest. -/
theorem capidevLoop_cons (count : Int) (cdev : Capidev) (devs : List Capidev) (r : ProcRead) :
    capidevLoop count (cdev :: devs) r =
      if (ncciLoop count cdev.ap.id cdev.nccis r).2 then (ncciLoop count cdev.ap.id cdev.nccis r).1
      else capidevLoop count devs (ncciLoop count cdev.ap.id cdev.nccis r).1 := rfl

/-- The loop keeps what a scan of the lines keeps. -/
theorem capidevLoop_scan (devs : List Capidev) (keeps : r.Keeps kept) :
    (capidevLoop count devs r).Keeps (scan count (ncciLines devs) kept r.off).1 ∧
      (capidevLoop count devs r).off = (scan count (ncciLines devs) kept r.off).2 := by
  induction devs generalizing r kept with
  | nil => exact ⟨keeps, rfl⟩
  | cons cdev devs ih =>
    obtain ⟨kept₁, keeps', scans⟩ := ncciLoop_scan cdev.ap.id cdev.nccis keeps
    have lines : ncciLines (cdev :: devs) = cdev.nccis.map (ncciLine cdev.ap.id) ++ ncciLines devs := rfl
    rw [lines, scans, capidevLoop_cons]
    split
    · exact ⟨keeps', rfl⟩
    · exact ih keeps'

end Loops

/-! ## Reads -/

section Reads

variable {devs : List Capidev} {page : Nat → UInt8} {off count : Nat}

/-- What a read returns, from the lines that the loops keep. -/
structure Shown (devs : List Capidev) (off count : Nat) (r : ProcResult) (kept : Bytes) : Prop where
  page : Starts r.page kept
  scanned : Scanned count (ncciLines devs) off kept r.start
  len : r.len = min kept.length count
  eof : r.eof = true ↔ kept.length < count

/-- A read shows what its scan keeps. -/
theorem shown_procCapincciReadProc (devs : List Capidev) (page : Nat → UInt8) (off count : Nat) :
    ∃ kept, Shown devs off count (procCapincciReadProc devs page off count) kept := by
  have begins : (⟨page, 0, off⟩ : ProcRead).Keeps [] := ⟨Starts.nil page, rfl⟩
  obtain ⟨keeps, left⟩ := @capidevLoop_scan _ _ count devs begins
  have scanned := scan_scanned count (ncciLines devs) off
  rw [← left] at scanned
  refine ⟨_, keeps.page, scanned, ?_, ?_⟩
  · unfold procCapincciReadProc
    simp only [keeps.len]
    split
    · split
      · omega
      · omega
    · split
      · omega
      · omega
  · unfold procCapincciReadProc
    simp only [keeps.len, decide_eq_true_eq]
    omega

variable {r : ProcResult} {kept : Bytes}

/-- A read returns what is kept, up to what is asked for. -/
theorem Shown.toNat (shown : Shown devs off count r kept) : r.len.toNat = min kept.length count := by
  rw [shown.len]
  omega

/-- A read returns as many bytes as it says. -/
theorem Shown.length_bytes (shown : Shown devs off count r kept) : r.bytes.length = min kept.length count := by
  unfold ProcResult.bytes
  rw [List.length_map, List.length_range', shown.toNat]

/-- A read that is in step gets all it asks for, or all there is. -/
theorem Shown.inStep (shown : Shown devs off count r kept) (inside : off ≤ (ncciText devs).length)
    (inStep : InStep devs off count) : r.bytes = ((ncciText devs).drop off).take count := by
  obtain ⟨within, rest, drop, ends⟩ := shown.scanned.drop inside
  have total := congrArg List.length drop
  rw [List.length_drop, List.length_append, List.length_drop] at total
  have fits : r.start + min kept.length count ≤ kept.length := by
    rcases inStep with boundary | short
    · rw [(shown.scanned.boundary_iff inside).mp boundary]
      omega
    · have left : (ncciLines devs).flatten.length = (ncciText devs).length := rfl
      rcases ends with ⟨rfl, few⟩ | enough
      · rw [List.length_nil] at total
        omega
      · omega
  unfold ProcResult.bytes
  rw [shown.toNat, shown.page.slice fits]
  show _ = ((ncciLines devs).flatten.drop off).take count
  rw [drop]
  rcases ends with ⟨rfl, few⟩ | enough
  · rw [List.append_nil, List.take_eq_take_iff, List.length_drop]
    omega
  · rw [List.take_append_of_le_length (by rw [List.length_drop]; omega), Nat.min_eq_right (by omega)]

/-- A read that is not in step goes beyond the text. -/
theorem Shown.astray (shown : Shown devs off count r kept) (inside : off ≤ (ncciText devs).length)
    (astray : ¬ InStep devs off count) : (ncciText devs).length < off + r.bytes.length := by
  obtain ⟨within, rest, drop, ends⟩ := shown.scanned.drop inside
  have total := congrArg List.length drop
  rw [List.length_drop, List.length_append, List.length_drop] at total
  have left : (ncciLines devs).flatten.length = (ncciText devs).length := rfl
  have short : (ncciText devs).length < off + count := Nat.lt_of_not_le fun more => astray (.inr more)
  have middle : r.start ≠ 0 := fun none => astray (.inl ((shown.scanned.boundary_iff inside).mpr none))
  rw [shown.length_bytes]
  rcases ends with ⟨rfl, few⟩ | enough
  · rw [List.length_nil] at total
    omega
  · omega

/-- A read is exact when it is in step. -/
theorem Shown.exact_iff (shown : Shown devs off count r kept) (inside : off ≤ (ncciText devs).length) (asks : 0 < count) :
    r.Exact (ncciText devs) off count ↔ InStep devs off count := by
  constructor
  · intro exact
    by_contra astray
    have beyond := shown.astray inside astray
    have bound := exact.bytes.length_le
    rw [List.length_drop] at bound
    omega
  · intro inStep
    have bytes := shown.inStep inside inStep
    have size := congrArg List.length bytes
    rw [List.length_take, List.length_drop] at size
    have len : r.len = r.bytes.length := by rw [shown.length_bytes, shown.len, Nat.cast_min]
    refine ⟨?_, ?_, ?_, ?_⟩
    · rw [bytes]
      exact List.take_prefix _ _
    · omega
    · omega
    · intro eof
      have few := shown.eof.mp eof
      have all := shown.length_bytes
      omega

/-- After a read in step the next starts where it ended. -/
theorem Shown.next (shown : Shown devs off count r kept) (inside : off ≤ (ncciText devs).length)
    (inStep : InStep devs off count) : off + r.len.toNat = min (off + count) (ncciText devs).length := by
  have size := congrArg List.length (shown.inStep inside inStep)
  rw [shown.length_bytes, ← shown.toNat, List.length_take, List.length_drop] at size
  omega

/-- A read, and then the rest. -/
theorem readOn_cons (devs : List Capidev) (off : Nat) (page : Nat → UInt8) (count : Nat)
    (reads : List ((Nat → UInt8) × Nat)) : readOn devs off ((page, count) :: reads) =
      (procCapincciReadProc devs page off count).bytes ++
        readOn devs (off + (procCapincciReadProc devs page off count).len.toNat) reads := rfl

/-- Reads that are in step get what they ask for, or what is left. -/
theorem readOn_inStep {reads : List ((Nat → UInt8) × Nat)} (inside : off ≤ (ncciText devs).length)
    (inStep : AllInStep devs off (reads.map Prod.snd)) :
    readOn devs off reads = ((ncciText devs).drop off).take (reads.map Prod.snd).sum := by
  induction reads generalizing off with
  | nil => exact List.take_zero.symm
  | cons read reads ih =>
    obtain ⟨page, count⟩ := read
    obtain ⟨first, rest⟩ := inStep
    obtain ⟨kept, shown⟩ := shown_procCapincciReadProc devs page off count
    have bytes := shown.inStep inside first
    have next := shown.next inside first
    have more := ih (Nat.min_le_right _ _) rest
    have behind : (ncciText devs).drop (min (off + count) (ncciText devs).length) =
        ((ncciText devs).drop off).drop count := by
      rw [List.drop_drop]
      rcases Nat.le_total (off + count) (ncciText devs).length with within | beyond
      · rw [Nat.min_eq_left within]
      · rw [Nat.min_eq_right beyond, List.drop_length, List.drop_eq_nil_of_le beyond]
    rw [readOn_cons, bytes, next, more, behind, List.map_cons, List.sum_cons, List.take_add]

/-- The first read that is not in step puts other bytes behind the text. -/
theorem readOn_astray {reads : List ((Nat → UInt8) × Nat)} (inside : off ≤ (ncciText devs).length)
    (astray : ¬ AllInStep devs off (reads.map Prod.snd)) :
    (ncciText devs).length < off + (readOn devs off reads).length := by
  induction reads generalizing off with
  | nil => exact absurd trivial astray
  | cons read reads ih =>
    obtain ⟨page, count⟩ := read
    obtain ⟨kept, shown⟩ := shown_procCapincciReadProc devs page off count
    rw [readOn_cons, List.length_append]
    by_cases first : InStep devs off count
    · have next := shown.next inside first
      have rest : ¬ AllInStep devs (min (off + count) (ncciText devs).length) (reads.map Prod.snd) :=
        fun rest => astray ⟨first, rest⟩
      have beyond := ih (Nat.min_le_right _ _) rest
      rw [next, shown.length_bytes, ← shown.toNat]
      omega
    · have beyond := shown.astray inside first
      omega

/-- A read is exact, and reads one after the other give the text, exactly when none of them begins inside a line and
asks for more than is left. -/
theorem capi20ncci_exact_iff (devs : List Capidev) :
    (∀ page off (count : Nat), off ≤ (ncciText devs).length → 0 < count →
      ((procCapincciReadProc devs page off count).Exact (ncciText devs) off count ↔ InStep devs off count)) ∧
    ∀ reads : List ((Nat → UInt8) × Nat), (∀ read ∈ reads, 0 < read.2) →
      (readOn devs 0 reads <+: ncciText devs ↔ AllInStep devs 0 (reads.map Prod.snd)) ∧
      (AllInStep devs 0 (reads.map Prod.snd) →
        readOn devs 0 reads = (ncciText devs).take (reads.map Prod.snd).sum) := by
  constructor
  · intro page off count inside asks
    obtain ⟨kept, shown⟩ := shown_procCapincciReadProc devs page off count
    exact shown.exact_iff inside asks
  · intro reads _
    have all : AllInStep devs 0 (reads.map Prod.snd) →
        readOn devs 0 reads = (ncciText devs).take (reads.map Prod.snd).sum := by
      intro inStep
      exact readOn_inStep (Nat.zero_le _) inStep
    refine ⟨⟨?_, ?_⟩, all⟩
    · intro bytes
      by_contra astray
      have beyond := readOn_astray (Nat.zero_le _) astray
      have bound := bytes.length_le
      omega
    · intro inStep
      rw [all inStep]
      exact List.take_prefix _ _

/-- A file with one NCCI. -/
def oneNcci : List Capidev := [⟨⟨1, .NOERR, []⟩, .NOERR, 0, [], [⟨0x10101, none⟩]⟩]

/-- A read from the start of the line, and one of the rest of it. -/
theorem capi20ncci_exact_oneNcci :
    (procCapincciReadProc oneNcci (fun _ => 0xff) 0 100).Exact (ncciText oneNcci) 0 100 ∧
      readOn oneNcci 0 [(fun _ => 0xff, 4), (fun _ => 0xff, 6)] <+: ncciText oneNcci := by
  have exact := (capi20ncci_exact_iff oneNcci).1 (fun _ => 0xff) 0 100 (Nat.zero_le _) (by decide)
  have yields := (capi20ncci_exact_iff oneNcci).2 [(fun _ => 0xff, 4), (fun _ => 0xff, 6)] (by decide)
  constructor
  · apply exact.mpr
    exact .inl ⟨[], List.nil_prefix, rfl⟩
  · apply yields.1.mpr
    have size : (ncciText oneNcci).length = 10 := by decide
    refine ⟨.inl ⟨[], List.nil_prefix, rfl⟩, .inr ?_, trivial⟩
    show min (0 + 4) (ncciText oneNcci).length + 6 ≤ _
    omega

/-- A read from inside the line is given bytes from behind it. -/
theorem stale_bytes : ¬ ∀ devs page off (count : Nat), off ≤ (ncciText devs).length → 0 < count →
    (procCapincciReadProc devs page off count).Exact (ncciText devs) off count := by
  intro always
  have size : (ncciText oneNcci).length = 10 := by decide
  have exact := always oneNcci (fun _ => 0xff) 4 100 (by rw [size]; decide) (by decide)
  have read : (procCapincciReadProc oneNcci (fun _ => 0xff) 4 100).bytes.length = 10 := by decide
  have bound := exact.bytes.length_le
  have given : (procCapincciReadProc oneNcci (fun _ => 0xff) 4 (100 : Nat)).bytes.length = 10 := read
  rw [given, List.length_drop, size] at bound
  omega

end Reads

end Capi4Linux.Capi
