import Capi4Linux.Capi.Minor
import Capi4Linux.Lib.FirstGap
import Capi4Linux.Lib.Run
import Mathlib.Data.List.Nodup

/-!
# Minor numbers

`capiminor_list` holds the live minors by increasing number. The search for a
free number walks along the list while the numbers count up from 0, so it finds
the least unused one, and the new minor goes where the walk stopped.
-/

namespace Capi4Linux.Capi
open Bytes Capicore Machine

/-- The number of a live minor. -/
def Driver.number (s : Driver) (p : Nat) : Nat := ((s.minors p).map Capiminor.minor).getD 0

/-- The listed minors are the live ones, by increasing number. -/
structure ByNumber (s : Driver) : Prop where
  listed : ∀ p, p ∈ s.capiminorList ↔ s.minors p ≠ none
  sorted : (s.capiminorList.map s.number).Pairwise (· < ·)

/-- What freeing a minor leaves. -/
def Driver.without (s : Driver) (p : Nat) (mp : Capiminor) : Driver :=
  { s with
    capiminorList := s.capiminorList.erase p
    minors := Function.update s.minors p none
    freed := s.freed ++ [(p, mp.ttyopencount)] }

/-- A live minor has the number. -/
def InUse (s : Driver) (n : Nat) : Prop := ∃ p mp, s.minors p = some mp ∧ mp.minor = n

/-- The number of a live minor. -/
theorem number_of_live {s : Driver} {p : Nat} {mp : Capiminor} (live : s.minors p = some mp) :
    s.number p = mp.minor := by
  simp [Driver.number, live]

/-- The number of a minor depends on its record alone. -/
theorem number_congr {s s' : Driver} {p : Nat} (same : s'.minors p = s.minors p) : s'.number p = s.number p := by
  rw [Driver.number, Driver.number, same]

/-- The scan passes the numbers up to the first gap. -/
theorem capiminorScan_eq : ∀ (ms : List Nat) (n : Nat), capiminorScan n ms = FirstGap.passed n ms
  | [], _ => rfl
  | m :: ms, n => by simp [capiminorScan, FirstGap.passed, capiminorScan_eq ms]

/-- The minor numbers of a list of live minors. -/
theorem mapM_number {s : Driver} : ∀ {list : List Nat}, (∀ p ∈ list, s.minors p ≠ none) →
    (list.mapM fun q => (s.minors q).map Capiminor.minor) = some (list.map s.number)
  | [], _ => rfl
  | p :: list, live => by
    obtain ⟨mp, here⟩ := Option.ne_none_iff_exists'.mp (live p List.mem_cons_self)
    have rest := @mapM_number s list fun q mem => live q (List.mem_cons_of_mem _ mem)
    simp [here, rest, Driver.number]

/-- What a search by number finds, when no two records have the number. -/
theorem find_zip_map {p : Nat} (f : Nat → Nat) (n : Nat) : ∀ (list : List Nat),
    ((list.zip (list.map f)).find? fun e => e.2 == n).map Prod.fst = some p → p ∈ list ∧ f p = n
  | [], found => by cases found
  | q :: list, found => by
    by_cases here : f q = n
    · simp only [List.map_cons, List.zip_cons_cons, List.find?_cons, here, beq_self_eq_true, Option.map_some,
        Option.some.injEq] at found
      subst found
      exact ⟨List.mem_cons_self, here⟩
    · have other : (f q == n) = false := by simpa using here
      simp only [List.map_cons, List.zip_cons_cons, List.find?_cons, other] at found
      obtain ⟨mem, eq⟩ := find_zip_map f n list found
      exact ⟨List.mem_cons_of_mem _ mem, eq⟩

/-- The search finds something when a record has the number. -/
theorem find_zip_map_of_mem {p : Nat} (f : Nat → Nat) : ∀ {list : List Nat}, p ∈ list →
    ∃ q, ((list.zip (list.map f)).find? fun e => e.2 == f p).map Prod.fst = some q
  | q :: list, mem => by
    by_cases here : f q = f p
    · exact ⟨q, by simp [here]⟩
    · have other : (f q == f p) = false := by simpa using here
      have later : p ∈ list := (List.mem_cons.mp mem).resolve_left fun eq => here (by rw [eq])
      obtain ⟨r, found⟩ := find_zip_map_of_mem f later
      exact ⟨r, by simpa [other] using found⟩

namespace ByNumber

variable {s s' : Driver}

theorem nodup (h : ByNumber s) : s.capiminorList.Nodup := List.Nodup.of_map _ (h.sorted.imp Nat.ne_of_lt)

/-- The numbers in use are those of the list. -/
theorem minorNumbers (h : ByNumber s) : s.minorNumbers = some (s.capiminorList.map s.number) :=
  mapM_number fun p mem => (h.listed p).mp mem

/-- A number is in use when a listed minor has it. -/
theorem inUse_iff (h : ByNumber s) (n : Nat) : InUse s n ↔ n ∈ s.capiminorList.map s.number := by
  constructor
  · rintro ⟨p, mp, live, rfl⟩
    apply List.mem_map.mpr
    exact ⟨p, (h.listed p).mpr (by simp [live]), number_of_live live⟩
  · intro mem
    obtain ⟨p, mem, number⟩ := List.mem_map.mp mem
    obtain ⟨mp, live⟩ := Option.ne_none_iff_exists'.mp ((h.listed p).mp mem)
    exact ⟨p, mp, live, (number_of_live live).symm.trans number⟩

theorem number_inj (h : ByNumber s) {p q : Nat} {mp mq : Capiminor} (livep : s.minors p = some mp)
    (liveq : s.minors q = some mq) (same : mp.minor = mq.minor) : p = q := by
  have distinct : (s.capiminorList.map s.number).Nodup := h.sorted.imp Nat.ne_of_lt
  refine List.inj_on_of_nodup_map distinct ((h.listed p).mpr (by simp [livep]))
    ((h.listed q).mpr (by simp [liveq])) ?_
  rw [number_of_live livep, number_of_live liveq, same]

/-- The order depends on the list and the numbers alone. -/
theorem congr (h : ByNumber s) (list : s'.capiminorList = s.capiminorList)
    (minors : ∀ p, (s'.minors p).map Capiminor.minor = (s.minors p).map Capiminor.minor) : ByNumber s' := by
  have numbers : s'.number = s.number := by
    funext p
    rw [Driver.number, Driver.number, minors]
  constructor
  · intro p
    have gone : s'.minors p = none ↔ s.minors p = none := by
      rw [← Option.map_eq_none_iff, minors, Option.map_eq_none_iff]
    rw [list, h.listed]
    exact not_congr gone.symm
  · rw [list, numbers]
    exact h.sorted

/-- A new minor goes where the walk for its number stopped. -/
theorem insert (h : ByNumber s) {p : Nat} {mp : Capiminor} (unborn : s.minors p = none)
    (minors : s'.minors = Function.update s.minors p (some mp))
    (gap : mp.minor = FirstGap.passed 0 (s.capiminorList.map s.number))
    (list : s'.capiminorList = s.capiminorList.take mp.minor ++ p :: s.capiminorList.drop mp.minor) : ByNumber s' := by
  have absent : p ∉ s.capiminorList := fun mem => (h.listed p).mp mem unborn
  have newborn : s'.minors p = some mp := by rw [minors, Function.update_self]
  have others {q : Nat} (other : q ≠ p) : s'.minors q = s.minors q := by rw [minors, Function.update_of_ne other]
  constructor
  · intro q
    have perm : q ∈ s'.capiminorList ↔ q = p ∨ q ∈ s.capiminorList := by
      rw [list, List.mem_append, List.mem_cons, ← or_assoc, or_comm (a := q ∈ _), or_assoc, ← List.mem_append,
        List.take_append_drop]
    rw [perm, h.listed]
    by_cases other : q = p
    · subst other
      simp [newborn]
    · rw [others other]
      simp [other]
  · have kept (l : List Nat) (sub : l ⊆ s.capiminorList) : l.map s'.number = l.map s.number :=
      List.map_congr_left fun q mem => number_congr (others fun eq => absent (eq ▸ sub mem))
    have place := FirstGap.insert_gap h.sorted (fun x _ => Nat.zero_le x)
    rw [FirstGap.gap, Nat.zero_add, ← gap] at place
    rw [list, List.map_append, List.map_cons, kept _ (List.take_subset _ _), kept _ (List.drop_subset _ _),
      number_of_live newborn, List.map_take, List.map_drop]
    exact place

/-- The rest of the list stays in order when a minor leaves it. -/
theorem erase (h : ByNumber s) {p : Nat} (minors : s'.minors = Function.update s.minors p none)
    (list : s'.capiminorList = s.capiminorList.erase p) : ByNumber s' := by
  have others {q : Nat} (other : q ≠ p) : s'.minors q = s.minors q := by rw [minors, Function.update_of_ne other]
  constructor
  · intro q
    rw [list]
    by_cases eq : q = p
    · subst eq
      rw [minors, Function.update_self]
      simpa using List.Nodup.not_mem_erase h.nodup
    · rw [others eq, ← h.listed]
      exact List.mem_erase_of_ne eq
  · have kept : (s.capiminorList.erase p).map s'.number = (s.capiminorList.erase p).map s.number := by
      apply List.map_congr_left
      intro q mem
      apply number_congr (others _)
      rintro rfl
      exact List.Nodup.not_mem_erase h.nodup mem
    rw [list, kept]
    exact h.sorted.sublist (List.erase_sublist.map _)

/-- The search by number finds the minor that has it. -/
theorem capiminorFind (h : ByNumber s) (n : Nat) :
    ∃ found, capiminorFind s n = some found ∧
      ∀ p, found = some p ↔ ∃ mp, s.minors p = some mp ∧ mp.minor = n := by
  refine ⟨((s.capiminorList.zip (s.capiminorList.map s.number)).find? fun e => e.2 == n).map Prod.fst,
    by simp only [Capi.capiminorFind, h.minorNumbers, Option.bind_eq_bind, Option.bind_some], ?_⟩
  have live : ∀ p, ((s.capiminorList.zip (s.capiminorList.map s.number)).find? fun e => e.2 == n).map Prod.fst =
      some p → ∃ mp, s.minors p = some mp ∧ mp.minor = n := by
    intro p found
    obtain ⟨mem, number⟩ := find_zip_map s.number n s.capiminorList found
    obtain ⟨mp, live⟩ := Option.ne_none_iff_exists'.mp ((h.listed p).mp mem)
    exact ⟨mp, live, (number_of_live live).symm.trans number⟩
  intro p
  refine ⟨live p, ?_⟩
  rintro ⟨mp, here, rfl⟩
  obtain ⟨q, found⟩ := find_zip_map_of_mem s.number ((h.listed p).mpr (by simp [here]))
  rw [number_of_live here] at found
  obtain ⟨mq, there, number⟩ := live q found
  rw [found, h.number_inj there here number]

end ByNumber

/-! ## Allocation -/

/-- The size of the tty driver after `capinc_tty_init`. -/
def capincTtyInit (capiTtyminors : Int) : Int :=
  if (if capiTtyminors > 256 then 256 else capiTtyminors) ≤ 0 then 32
  else if capiTtyminors > 256 then 256 else capiTtyminors

/-- Whatever the module parameter is, there is at least one minor and at most
`CAPINC_MAX_PORTS`. -/
theorem capincTtyInit_range (capiTtyminors : Int) :
    1 ≤ capincTtyInit capiTtyminors ∧ capincTtyInit capiTtyminors ≤ 256 := by
  unfold capincTtyInit
  split
  · omega
  · split
    · omega
    · omega

/-- The list and the number that `capiminor_alloc` arrives at for the record `p`;
it adds to an empty list without a search. -/
def capiminorPlace (capiTtyminors p : Nat) (list numbers : List Nat) : List Nat × Nat :=
  if list = [] then ([p], 0)
  else if capiminorScan 0 numbers < capiTtyminors then
    (list.take (capiminorScan 0 numbers) ++ p :: list.drop (capiminorScan 0 numbers), capiminorScan 0 numbers)
  else (list, capiminorScan 0 numbers)

/-- On the empty list the search would have stopped at 0 as well. -/
theorem capiminorPlace_eq {capiTtyminors p : Nat} {list numbers : List Nat} (some_minor : 1 ≤ capiTtyminors)
    (size : numbers.length = list.length) : capiminorPlace capiTtyminors p list numbers =
      (if capiminorScan 0 numbers < capiTtyminors then
          list.take (capiminorScan 0 numbers) ++ p :: list.drop (capiminorScan 0 numbers) else list,
        capiminorScan 0 numbers) := by
  unfold capiminorPlace
  split
  · rename_i empty
    subst empty
    obtain rfl := List.eq_nil_of_length_eq_zero size
    rw [if_pos (show capiminorScan 0 [] < capiTtyminors from some_minor)]
    rfl
  · split
    · rfl
    · rfl

/-- `capiminor_alloc` with memory. -/
theorem capiminorAlloc_eq {env : Env} {s : Driver} (h : ByNumber s) (memory : ∀ t, env.kmalloc t = true)
    (ap : Nat) (ncci : UInt32) :
    ∃ mp : Nat → Capiminor, (∀ n, (mp n).minor = n ∧ (mp n).ap = ap ∧ (mp n).ncci = ncci) ∧
      capiminorAlloc env s ap ncci =
        let placed := capiminorPlace env.capiTtyminors s.minorNext s.capiminorList (s.capiminorList.map s.number)
        let s' := { s.asked with minorNext := s.minorNext + 1, capiminorList := placed.1 }
        if placed.2 < env.capiTtyminors then some (s'.setMinor s.minorNext (mp placed.2), some s.minorNext)
        else some (s', none) := by
  have numbers : Driver.minorNumbers { s.asked with minorNext := s.asked.minorNext + 1 } =
      some (s.capiminorList.map s.number) := h.minorNumbers
  let mp (minor : Nat) : Capiminor :=
    { nccip := false, minor, ap, ncci, datahandle := 0, msgid := 0, tty := none, ttyinstop := false,
      ttyoutstop := false, ttyskb := none, ttyopencount := 0, inqueue := [], inbytes := 0, outqueue := [],
      outbytes := 0, ackqueue := [], nack := 0 }
  refine ⟨mp, fun n => ⟨rfl, rfl, rfl⟩, ?_⟩
  simp only [capiminorAlloc, memory, not_true, if_false, numbers, Option.bind_eq_bind, Option.bind_some,
    capiminorPlace_eq env.ttyminors_range.1 (List.length_map _)]
  by_cases room : capiminorScan 0 (s.capiminorList.map s.number) < env.capiTtyminors
  · simp only [if_pos room]
    rfl
  · simp only [if_neg room]
    rfl

/-- The list is in order and has numbers of the tty driver only. -/
structure Ranged (env : Env) (s : Driver) : Prop where
  byNumber : ByNumber s
  below : ∀ n, InUse s n → n < env.capiTtyminors
  fresh : ∀ p, s.minorNext ≤ p → s.minors p = none

/-- What `capiminor_alloc` returns, and what it makes of the minors. -/
structure Allocates (env : Env) (s : Driver) (ap : Nat) (ncci : UInt32) (s' : Driver) (found : Option Nat) : Prop where
  /-- The new minor has the least number not in use. -/
  least : ∀ p, found = some p → ∃ mp, s.minors p = none ∧ s'.minors = Function.update s.minors p (some mp) ∧
    IsLeast {n | ¬ InUse s n} mp.minor ∧ mp.ap = ap ∧ mp.ncci = ncci
  /-- There is none exactly when all numbers are in use. -/
  full : found = none ↔ ∀ n, n < env.capiTtyminors → InUse s n
  /-- Nothing changes then. -/
  unchanged : found = none → s'.capiminorList = s.capiminorList ∧ s'.minors = s.minors

namespace Ranged

variable {env : Env} {s : Driver}

theorem init (env : Env) : Ranged env .init where
  byNumber := ⟨fun p => by simp [Driver.init], List.Pairwise.nil⟩
  below n used := by
    obtain ⟨p, mp, live, -⟩ := used
    cases live
  fresh p _ := rfl

/-- A new minor gets the first free number, if there is one. -/
theorem capiminorAlloc (h : Ranged env s) (memory : ∀ t, env.kmalloc t = true) (ap : Nat) (ncci : UInt32) :
    ∃ s' found, capiminorAlloc env s ap ncci = some (s', found) ∧ Allocates env s ap ncci s' found ∧
      Ranged env s' := by
  obtain ⟨mp, fields, run⟩ := capiminorAlloc_eq h.byNumber memory ap ncci
  simp only [capiminorPlace_eq env.ttyminors_range.1 (List.length_map _)] at run
  have gap := FirstGap.gap_isLeast h.byNumber.sorted (fun n _ => Nat.zero_le n)
  rw [FirstGap.gap, Nat.zero_add, ← capiminorScan_eq] at gap
  have unused : IsLeast {n | ¬ InUse s n} (capiminorScan 0 (s.capiminorList.map s.number)) := by
    have same : {n | ¬ InUse s n} = {m | 0 ≤ m ∧ m ∉ s.capiminorList.map s.number} := by
      ext n
      simp [h.byNumber.inUse_iff]
    rw [same]
    exact gap
  have unborn := h.fresh s.minorNext (Nat.le_refl _)
  have later : ∀ p, s.minorNext + 1 ≤ p → p ≠ s.minorNext ∧ s.minors p = none := by
    intro p beyond
    exact ⟨by omega, h.fresh p (by omega)⟩
  by_cases room : capiminorScan 0 (s.capiminorList.map s.number) < env.capiTtyminors
  · simp only [if_pos room] at run
    refine ⟨_, _, run, ⟨?_, ?_, ?_⟩, ?_, ?_, ?_⟩
    · intro p eq
      cases eq
      refine ⟨_, unborn, rfl, ?_, (fields _).2⟩
      rw [(fields _).1]
      exact unused
    · constructor
      · intro eq
        cases eq
      · intro all
        exact absurd (all _ room) unused.1
    · intro eq
      cases eq
    · apply h.byNumber.insert unborn rfl
      · rw [(fields _).1, capiminorScan_eq]
      · rw [(fields _).1]
        rfl
    · rintro n ⟨p, mq, live, rfl⟩
      by_cases new : p = s.minorNext
      · subst new
        obtain rfl : mp _ = mq := by simpa [Driver.setMinor] using live
        rw [(fields _).1]
        exact room
      · have old : s.minors p = some mq := (Function.update_of_ne new _ _).symm.trans live
        exact h.below _ ⟨p, mq, old, rfl⟩
    · intro p beyond
      obtain ⟨other, absent⟩ := later p beyond
      show Function.update s.minors s.minorNext _ p = none
      rw [Function.update_of_ne other]
      exact absent
  · simp only [if_neg room] at run
    refine ⟨_, _, run, ⟨?_, ?_, fun _ => ⟨rfl, rfl⟩⟩, ⟨h.byNumber.listed, h.byNumber.sorted⟩, h.below,
      fun p beyond => (later p beyond).2⟩
    · intro p eq
      cases eq
    · refine ⟨fun _ n below => ?_, fun _ => rfl⟩
      -- an unused number would be below the least unused one
      by_contra free
      have := unused.2 free
      omega

/-- A live minor can be freed, and its number with it. -/
theorem capiminorFree (h : Ranged env s) {p : Nat} {mp : Capiminor} (live : s.minors p = some mp) :
    capiminorFree s p = some (s.without p mp) ∧ Ranged env (s.without p mp) := by
  have listed : p ∈ s.capiminorList := (h.byNumber.listed p).mpr (by simp [live])
  have others {q : Nat} (other : q ≠ p) : (s.without p mp).minors q = s.minors q := Function.update_of_ne other _ _
  have gone : (s.without p mp).minors p = none := Function.update_self _ _ _
  refine ⟨by simp [Capi.capiminorFree, live, listed, Driver.without], h.byNumber.erase rfl rfl, ?_, ?_⟩
  · rintro n ⟨q, mq, there, rfl⟩
    by_cases eq : q = p
    · subst eq
      cases gone.symm.trans there
    · rw [others eq] at there
      exact h.below _ ⟨q, mq, there, rfl⟩
  · intro q beyond
    by_cases eq : q = p
    · subst eq
      exact gone
    · rw [others eq]
      exact h.fresh q beyond

end Ranged

/-! ## All allocation histories -/

/-- The two calls; a record is freed by the pointer that `capiminor_alloc` returned. -/
inductive MinorCall where
  | alloc (ap : Nat) (ncci : UInt32)
  | free (p : Nat)

def numberStep (env : Env) (s : Driver) : MinorCall → Option Driver
  | .alloc ap ncci => (capiminorAlloc env s ap ncci).map Prod.fst
  | .free p => capiminorFree s p

/-- Every call keeps the numbers in range. -/
theorem Ranged.step {env : Env} {s s' : Driver} (h : Ranged env s) (memory : ∀ t, env.kmalloc t = true)
    {c : MinorCall} (run : numberStep env s c = some s') : Ranged env s' := by
  cases c with
  | alloc ap ncci =>
    obtain ⟨t, found, alloc, -, keep⟩ := h.capiminorAlloc memory ap ncci
    rw [numberStep, alloc] at run
    cases run
    exact keep
  | free p =>
    cases live : s.minors p with
    | none =>
      simp only [numberStep, Capi.capiminorFree, live] at run
      cases run
    | some mp =>
      obtain ⟨free, keep⟩ := h.capiminorFree live
      rw [numberStep, free] at run
      cases run
      exact keep

/-- After every sequence of allocations and releases the list is strictly
increasing with all numbers below the number of ttys, a minor is found by its
number exactly when the number is in use, an allocation takes the least unused
number or, when all are in use, nothing, and every live minor can be freed. -/
theorem minor_numbers {env : Env} (memory : ∀ t, env.kmalloc t = true) (calls : List MinorCall) {s : Driver}
    (run : exec (numberStep env) .init calls = some s) :
    (∃ numbers, s.minorNumbers = some numbers ∧ numbers.Pairwise (· < ·) ∧
        (∀ n, n ∈ numbers ↔ InUse s n) ∧ ∀ n ∈ numbers, n < env.capiTtyminors) ∧
      (∀ n, ∃ found, capiminorFind s n = some found ∧
        ∀ p, found = some p ↔ ∃ mp, s.minors p = some mp ∧ mp.minor = n) ∧
      (∀ ap ncci, ∃ s' found, capiminorAlloc env s ap ncci = some (s', found) ∧ Allocates env s ap ncci s' found) ∧
      ∀ p mp, s.minors p = some mp →
        ∃ s', capiminorFree s p = some s' ∧ s'.minors = Function.update s.minors p none := by
  have h : Ranged env s := (always_of_inv (fun s c s' h _ => h.step memory) (.init env)
    (Meets.unconditional (numberStep env) .init calls)).last run
  refine ⟨⟨_, h.byNumber.minorNumbers, h.byNumber.sorted, fun n => (h.byNumber.inUse_iff n).symm, ?_⟩,
    h.byNumber.capiminorFind, ?_, ?_⟩
  · intro n mem
    exact h.below n ((h.byNumber.inUse_iff n).mpr mem)
  · intro ap ncci
    obtain ⟨s', found, alloc, allocates, -⟩ := h.capiminorAlloc memory ap ncci
    exact ⟨s', found, alloc, allocates⟩
  · intro p mp live
    exact ⟨_, (h.capiminorFree live).1, rfl⟩

/-- The number of a minor that was freed is the next one to be used. -/
theorem minor_numbers_reused :
    ∃ s, exec (numberStep .granting) .init [.alloc 0 0x101, .alloc 0 0x201, .free 0] = some s ∧
      ∃ s' found, capiminorAlloc .granting s 0 0x301 = some (s', found) ∧
        Allocates .granting s 0 0x301 s' found := by
  obtain ⟨s, run⟩ : ∃ s, exec (numberStep .granting) .init [.alloc 0 0x101, .alloc 0 0x201, .free 0] = some s :=
    ⟨_, rfl⟩
  obtain ⟨-, -, alloc, -⟩ := minor_numbers (fun _ => rfl) _ run
  exact ⟨s, run, alloc 0 0x301⟩

end Capi4Linux.Capi
