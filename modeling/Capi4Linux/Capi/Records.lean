import Capi4Linux.Capi.MinorNumbers
import Capi4Linux.Capi.Wiring

/-!
# The records stay linked

Allocation and release of NCCIs keep `Wired`. `capincci_free` takes the NCCIs of
a file one by one, so its loop carries the invariant of the state in which the
file has only those left.
-/

namespace Capi4Linux.Capi
open Bytes Capicore

/-- Files, NCCIs and minors refer to each other. -/
structure Wired (s : Driver) : Prop where
  listed : ∀ p, p ∈ s.capiminorList ↔ s.minors p ≠ none
  sorted : (s.capiminorList.map s.number).Pairwise (· < ·)
  owned : ∀ d cdev np p, s.devs d = some cdev → np ∈ cdev.nccis → np.minorp = some p →
    ∃ mp, s.minors p = some mp ∧ mp.nccip = true ∧ mp.ap = d
  attached : ∀ p mp, s.minors p = some mp → mp.nccip = true →
    ∃ cdev np, s.devs mp.ap = some cdev ∧ np ∈ cdev.nccis ∧ np.minorp = some p
  distinct : ∀ d cdev, s.devs d = some cdev → (cdev.nccis.filterMap Capincci.minorp).Nodup
  fresh : ∀ p, s.minorNext ≤ p → s.minors p = none
  freshDev : ∀ d, s.devNext ≤ d → s.devs d = none

theorem Wired.init : Wired .init where
  listed p := by simp [Driver.init]
  sorted := List.Pairwise.nil
  owned d cdev np p dev := by cases dev
  attached p mp live := by cases live
  distinct d cdev dev := by cases dev
  fresh _ _ := rfl
  freshDev _ _ := rfl

/-- The list of the minors is sorted by number. -/
theorem Wired.byNumber {s : Driver} (wired : Wired s) : ByNumber s := ⟨wired.listed, wired.sorted⟩

/-- A file that changes was opened before. -/
theorem Wired.freshDev_update {s s' : Driver} (wired : Wired s) {d : Nat} {cdev cdev' : Capidev}
    (dev : s.devs d = some cdev) (devs : s'.devs = Function.update s.devs d (some cdev')) (next : s'.devNext = s.devNext) :
    ∀ e, s'.devNext ≤ e → s'.devs e = none := by
  intro e beyond
  rw [next] at beyond
  have absent := wired.freshDev e beyond
  have other : e ≠ d := by
    rintro rfl
    rw [dev] at absent
    cases absent
  rw [devs, Function.update_of_ne other, absent]

/-- `s'` has the links of `s` between files, NCCIs and minors. -/
structure SameLinks (s s' : Driver) : Prop where
  minors : ∀ p, (s'.minors p).map (fun mp => (mp.nccip, mp.minor, mp.ap)) =
    (s.minors p).map fun mp => (mp.nccip, mp.minor, mp.ap)
  devs : ∀ d, (s'.devs d).map Capidev.nccis = (s.devs d).map Capidev.nccis
  capiminorList : s'.capiminorList = s.capiminorList
  minorNext : s'.minorNext = s.minorNext
  devNext : s'.devNext = s.devNext

theorem SameLinks.refl (s : Driver) : SameLinks s s := ⟨fun _ => rfl, fun _ => rfl, rfl, rfl, rfl⟩

/-- A tame change keeps the links. -/
theorem Tame.sameLinks {s s' : Driver} (tame : Tame s s') : SameLinks s s' where
  minors p := by
    have same := congrArg (Option.map fun l : Bool × Nat × Nat × Option Nat × Int => (l.1, l.2.1, l.2.2.1))
      (tame.minors p)
    simpa [Option.map_map, Function.comp_def, Capiminor.links] using same
  devs d := by rw [tame.devs]
  capiminorList := tame.capiminorList
  minorNext := tame.minorNext
  devNext := tame.devNext

/-- A file that keeps its NCCIs keeps the links. -/
theorem SameLinks.setDev {s : Driver} {d : Nat} {cdev cdev' : Capidev} (live : s.devs d = some cdev)
    (same : cdev'.nccis = cdev.nccis) : SameLinks s (s.setDev d cdev') := by
  refine ⟨fun _ => rfl, fun e => ?_, rfl, rfl, rfl⟩
  by_cases here : e = d
  · subst here
    simp [Driver.setDev, live, same]
  · simp [Driver.setDev, Function.update_of_ne here]

/-- A minor that keeps its NCCI, its number and its application keeps the links. -/
theorem SameLinks.setMinor {s : Driver} {p : Nat} {mp mp' : Capiminor} (live : s.minors p = some mp)
    (same : mp'.nccip = mp.nccip ∧ mp'.minor = mp.minor ∧ mp'.ap = mp.ap) : SameLinks s (s.setMinor p mp') := by
  refine ⟨fun q => ?_, fun _ => rfl, rfl, rfl, rfl⟩
  by_cases here : q = p
  · subst here
    simp [Driver.setMinor, live, same]
  · simp [Driver.setMinor, Function.update_of_ne here]

/-- The links do not depend on what ttys refer to. -/
theorem SameLinks.retty {s s' : Driver} (same : SameLinks s s') (ttys : Nat → Option Nat) (opens : Nat → Nat) :
    SameLinks s { s' with ttys, opens } :=
  ⟨same.minors, same.devs, same.capiminorList, same.minorNext, same.devNext⟩

/-- A minor is still there with its link. -/
theorem SameLinks.minor {s s' : Driver} (same : SameLinks s s') {p : Nat} {mp : Capiminor}
    (live : s.minors p = some mp) :
    ∃ mp', s'.minors p = some mp' ∧ mp'.nccip = mp.nccip ∧ mp'.minor = mp.minor ∧ mp'.ap = mp.ap := by
  have links := same.minors p
  rw [live] at links
  obtain ⟨mp', live', eq⟩ := Option.map_eq_some_iff.mp links
  exact ⟨mp', live', by simpa using eq⟩

/-- A file is still there with its NCCIs. -/
theorem SameLinks.dev {s s' : Driver} (same : SameLinks s s') {d : Nat} {cdev : Capidev} (live : s.devs d = some cdev) :
    ∃ cdev', s'.devs d = some cdev' ∧ cdev'.nccis = cdev.nccis := by
  have nccis := same.devs d
  rw [live] at nccis
  exact Option.map_eq_some_iff.mp nccis

/-- Links that are the same are the same back. -/
theorem SameLinks.symm {s s' : Driver} (same : SameLinks s s') : SameLinks s' s :=
  ⟨fun p => (same.minors p).symm, fun d => (same.devs d).symm, same.capiminorList.symm, same.minorNext.symm,
    same.devNext.symm⟩

/-- Where the links do not change, neither does the order. -/
theorem SameLinks.byNumber {s s' : Driver} (same : SameLinks s s') (order : ByNumber s) : ByNumber s' := by
  apply order.congr same.capiminorList
  intro p
  have numbers := congrArg (Option.map fun l : Bool × Nat × Nat => l.2.1) (same.minors p)
  simpa only [Option.map_map, Function.comp_def] using numbers

/-- Other data may change. -/
theorem Wired.same {s s' : Driver} (wired : Wired s) (same : SameLinks s s') : Wired s' where
  listed := (same.byNumber wired.byNumber).listed
  sorted := (same.byNumber wired.byNumber).sorted
  owned d cdev np p dev mem own := by
    obtain ⟨cdev₀, dev₀, nccis⟩ := same.symm.dev dev
    obtain ⟨mp, live, link, ap⟩ := wired.owned d cdev₀ np p dev₀ (nccis ▸ mem) own
    obtain ⟨mp', live', nccip, -, ap'⟩ := same.minor live
    exact ⟨mp', live', nccip.trans link, ap'.trans ap⟩
  attached p mp live link := by
    obtain ⟨mp₀, live₀, nccip, -, ap⟩ := same.symm.minor live
    obtain ⟨cdev, np, dev, mem, own⟩ := wired.attached p mp₀ live₀ (nccip.trans link)
    obtain ⟨cdev', dev', nccis⟩ := same.dev dev
    exact ⟨cdev', np, ap ▸ dev', nccis ▸ mem, own⟩
  distinct d cdev dev := by
    obtain ⟨cdev₀, dev₀, nccis⟩ := same.symm.dev dev
    exact nccis ▸ wired.distinct d cdev₀ dev₀
  fresh p beyond := by
    have absent := wired.fresh p (same.minorNext ▸ beyond)
    have links := same.minors p
    rw [absent] at links
    simpa using links
  freshDev d beyond := by
    have absent := wired.freshDev d (same.devNext ▸ beyond)
    have nccis := same.devs d
    rw [absent] at nccis
    simpa using nccis

/-- A tame change keeps the records wired. -/
theorem Wired.tame {s s' : Driver} (wired : Wired s) (tame : Tame s s') : Wired s' :=
  wired.same tame.sameLinks

/-- An attached minor has an open file. -/
theorem Wired.isAttached {s : Driver} (wired : Wired s) {p : Nat} {mp : Capiminor} (live : s.minors p = some mp)
    (link : mp.nccip = true) : Attached s p := by
  obtain ⟨cdev, np, dev, -, -⟩ := wired.attached p mp live link
  exact ⟨mp, cdev, live, link, dev⟩

theorem Wired.number_inj {s : Driver} (wired : Wired s) {p q : Nat} {mp mq : Capiminor} (livep : s.minors p = some mp)
    (liveq : s.minors q = some mq) (same : mp.minor = mq.minor) : p = q :=
  wired.byNumber.number_inj livep liveq same

/-- The numbers in use are those of the list. -/
theorem Wired.minorNumbers {s : Driver} (wired : Wired s) :
    s.minorNumbers = some (s.capiminorList.map s.number) := wired.byNumber.minorNumbers

/-- A minor that is found is live and has the number. -/
theorem Wired.capiminorFind {s : Driver} (wired : Wired s) (minor : Nat) :
    ∃ found, capiminorFind s minor = some found ∧
      ∀ p, found = some p → ∃ mp, s.minors p = some mp ∧ mp.minor = minor := by
  obtain ⟨found, run, exact'⟩ := wired.byNumber.capiminorFind minor
  exact ⟨found, run, fun p => (exact' p).mp⟩

/-! ## A new NCCI -/

/-- What `capincci_alloc` adds to a file: an NCCI, and a minor for it or none. -/
structure NewNcci (s s' : Driver) (d : Nat) (cdev : Capidev) (np : Capincci) : Prop where
  devs : s'.devs = Function.update s.devs d (some { cdev with nccis := cdev.nccis ++ [np] })
  ttys : s'.ttys = s.ttys
  opens : s'.opens = s.opens
  freed : s'.freed = s.freed
  talks : s'.talks = s.talks
  devNext : s'.devNext = s.devNext
  minorNext : s.minorNext ≤ s'.minorNext
  minor : (np.minorp = none ∧ s'.minors = s.minors ∧ s'.capiminorList = s.capiminorList) ∨
    ∃ n mp, np.minorp = some s.minorNext ∧ s'.minorNext = s.minorNext + 1 ∧
      s'.minors = Function.update s.minors s.minorNext (some mp) ∧ mp.links = (true, n, d, none, 0) ∧
      n = FirstGap.gap 0 (s.capiminorList.map s.number) ∧
      s'.capiminorList = s.capiminorList.take n ++ s.minorNext :: s.capiminorList.drop n

/-- A new NCCI is made or nothing changes. -/
theorem Wired.capincciAlloc {s : Driver} (wired : Wired s) (env : Env) {d : Nat} {cdev : Capidev}
    (dev : s.devs d = some cdev) (ncci : UInt32) :
    ∃ s', capincciAlloc env s d ncci = some s' ∧ (Tame s s' ∨ ∃ np, NewNcci s s' d cdev np) := by
  unfold Capi.capincciAlloc
  simp only [dev, Option.bind_eq_bind, Option.bind_some]
  by_cases mem : env.kmalloc s.tick = true
  case neg => exact ⟨_, by simp only [mem]; rfl, .inl (.asked s)⟩
  simp only [mem, not_true, if_false]
  by_cases plain : cdev.userflags &&& CAPIFLAG_HIGHJACKING = 0
  · simp only [capincciMinor, plain, if_true]
    exact ⟨_, rfl, .inr ⟨_, ⟨rfl, rfl, rfl, rfl, rfl, rfl, Nat.le_refl _, .inl ⟨rfl, rfl, rfl⟩⟩⟩⟩
  simp only [capincciMinor, plain, if_false, capiminorAlloc, Option.bind_eq_bind]
  by_cases mem' : env.kmalloc s.asked.tick = true
  case neg =>
    simp only [mem']
    exact ⟨_, rfl, .inr ⟨_, ⟨rfl, rfl, rfl, rfl, rfl, rfl, Nat.le_refl _, .inl ⟨rfl, rfl, rfl⟩⟩⟩⟩
  have numbers : Driver.minorNumbers { s.asked.asked with minorNext := s.asked.asked.minorNext + 1 } =
      some (s.capiminorList.map s.number) := wired.minorNumbers
  simp only [mem', not_true, if_false, numbers, Option.bind_some, capiminorScan_eq]
  by_cases free : FirstGap.passed 0 (s.capiminorList.map s.number) < env.capiTtyminors
  · simp only [free, if_true, Option.bind_some, Driver.setMinor, Function.update_self, Function.update_idem]
    refine ⟨_, rfl, .inr ⟨_, ⟨rfl, rfl, rfl, rfl, rfl, rfl, Nat.le_succ _, .inr ⟨_, _, rfl, rfl, rfl, rfl, ?_, rfl⟩⟩⟩⟩
    exact (Nat.zero_add _).symm
  · simp only [free, if_false, Option.bind_some]
    exact ⟨_, rfl, .inr ⟨_, ⟨rfl, rfl, rfl, rfl, rfl, rfl, Nat.le_succ _, .inl ⟨rfl, rfl, rfl⟩⟩⟩⟩

/-- The new records are linked. -/
theorem Wired.newNcci {s s' : Driver} {d : Nat} {cdev : Capidev} {np : Capincci} (wired : Wired s)
    (dev : s.devs d = some cdev) (new : NewNcci s s' d cdev np) : Wired s' := by
  have here : s'.devs d = some { cdev with nccis := cdev.nccis ++ [np] } := by rw [new.devs, Function.update_self]
  have elsewhere {e : Nat} (other : e ≠ d) : s'.devs e = s.devs e := by rw [new.devs, Function.update_of_ne other]
  have freshDev := wired.freshDev_update dev new.devs new.devNext
  -- NCCIs that were there before
  have old {e : Nat} {cdev' : Capidev} {np' : Capincci} (dev' : s'.devs e = some cdev') (mem : np' ∈ cdev'.nccis) :
      (e = d ∧ np' = np) ∨ ∃ cdev₀, s.devs e = some cdev₀ ∧ np' ∈ cdev₀.nccis := by
    by_cases eq : e = d
    · subst eq
      obtain rfl := Option.some.inj (here.symm.trans dev')
      rcases List.mem_append.mp mem with before | last
      · exact .inr ⟨cdev, dev, before⟩
      · exact .inl ⟨rfl, List.mem_singleton.mp last⟩
    · exact .inr ⟨cdev', (elsewhere eq) ▸ dev', mem⟩
  have still {e : Nat} {cdev₀ : Capidev} {np' : Capincci} (dev' : s.devs e = some cdev₀) (mem : np' ∈ cdev₀.nccis) :
      ∃ cdev', s'.devs e = some cdev' ∧ np' ∈ cdev'.nccis := by
    by_cases eq : e = d
    · subst eq
      obtain rfl := Option.some.inj (dev.symm.trans dev')
      exact ⟨_, here, List.mem_append_left _ mem⟩
    · exact ⟨cdev₀, (elsewhere eq).trans dev', mem⟩
  rcases new.minor with ⟨plain, minors, list⟩ | ⟨n, mp, own, next, minors, links, gap, list⟩
  · have order : ByNumber s' := wired.byNumber.congr list fun p => by rw [minors]
    refine ⟨order.listed, order.sorted, ?_, ?_, ?_, ?_, freshDev⟩
    · intro e cdev' np' p dev' mem own
      rw [minors]
      rcases old dev' mem with ⟨-, rfl⟩ | ⟨cdev₀, dev₀, mem₀⟩
      · rw [plain] at own; cases own
      · exact wired.owned e cdev₀ np' p dev₀ mem₀ own
    · intro p mp live link
      rw [minors] at live
      obtain ⟨cdev₀, np', dev₀, mem, own⟩ := wired.attached p mp live link
      obtain ⟨cdev', dev', mem'⟩ := still dev₀ mem
      exact ⟨cdev', np', dev', mem', own⟩
    · intro e cdev' dev'
      by_cases eq : e = d
      · subst eq
        obtain rfl := Option.some.inj (here.symm.trans dev')
        simpa [List.filterMap_append, plain] using wired.distinct e cdev dev
      · exact wired.distinct e cdev' ((elsewhere eq) ▸ dev')
    · intro p beyond
      rw [minors]
      exact wired.fresh p (new.minorNext.trans beyond)
  · obtain ⟨link, number, ap, -, -⟩ : mp.nccip = true ∧ mp.minor = n ∧ mp.ap = d ∧ mp.tty = none ∧
        mp.ttyopencount = 0 := by simpa [Capiminor.links] using links
    have unborn := wired.fresh s.minorNext (Nat.le_refl _)
    have newborn : s'.minors s.minorNext = some mp := by rw [minors, Function.update_self]
    have others {p : Nat} (other : p ≠ s.minorNext) : s'.minors p = s.minors p := by
      rw [minors, Function.update_of_ne other]
    have aged {p : Nat} {mq : Capiminor} (live : s.minors p = some mq) : p ≠ s.minorNext := by
      rintro rfl; rw [unborn] at live; cases live
    have order : ByNumber s' := by
      apply wired.byNumber.insert unborn minors
      · rw [number, gap, FirstGap.gap, Nat.zero_add]
      · rw [number, list]
    refine ⟨order.listed, order.sorted, ?_, ?_, ?_, ?_, freshDev⟩
    · intro e cdev' np' p dev' mem own'
      rcases old dev' mem with ⟨rfl, rfl⟩ | ⟨cdev₀, dev₀, mem₀⟩
      · obtain rfl := Option.some.inj (own.symm.trans own')
        exact ⟨mp, newborn, link, ap⟩
      · obtain ⟨mq, live, facts⟩ := wired.owned e cdev₀ np' p dev₀ mem₀ own'
        exact ⟨mq, by rw [others (aged live), live], facts⟩
    · intro p mq live linked
      by_cases eq : p = s.minorNext
      · subst eq
        obtain rfl := Option.some.inj (newborn.symm.trans live)
        exact ⟨_, np, ap ▸ here, List.mem_append_right _ (List.mem_singleton_self _), own⟩
      · rw [others eq] at live
        obtain ⟨cdev₀, np', dev₀, mem, own'⟩ := wired.attached p mq live linked
        obtain ⟨cdev', dev', mem'⟩ := still dev₀ mem
        exact ⟨cdev', np', dev', mem', own'⟩
    · intro e cdev' dev'
      by_cases eq : e = d
      · subst eq
        obtain rfl := Option.some.inj (here.symm.trans dev')
        have before := wired.distinct e cdev dev
        rw [List.filterMap_append, List.nodup_append]
        refine ⟨before, by simp [own], fun p mem q last eq => ?_⟩
        obtain ⟨np', mem', own'⟩ := List.mem_filterMap.mp mem
        obtain ⟨mq, live, -⟩ := wired.owned e cdev np' p dev mem' own'
        simp only [List.filterMap_cons, own, List.filterMap_nil, List.mem_singleton] at last
        exact aged live (eq.trans last)
      · exact wired.distinct e cdev' ((elsewhere eq) ▸ dev')
    · intro p beyond
      rw [next] at beyond
      rw [others (by omega)]
      exact wired.fresh p (by omega)

/-! ## NCCIs that go away -/

/-- What taking the NCCI `np` from between `kept` and `rest` does. -/
structure Dropped (s s' : Driver) (d : Nat) (cdev : Capidev) (kept : List Capincci) (np : Capincci)
    (rest : List Capincci) : Prop where
  before : s.devs d = some { cdev with nccis := kept ++ np :: rest }
  devs : s'.devs = Function.update s.devs d (some { cdev with nccis := kept ++ rest })
  ttys : s'.ttys = s.ttys
  opens : s'.opens = s.opens
  talks : s'.talks = s.talks
  devNext : s'.devNext = s.devNext
  minorNext : s'.minorNext = s.minorNext
  minor : (np.minorp = none ∧ s'.minors = s.minors ∧ s'.capiminorList = s.capiminorList ∧ s'.freed = s.freed) ∨
    ∃ p mp, np.minorp = some p ∧ s.minors p = some mp ∧
      ((mp.tty ≠ none ∧ s'.minors = Function.update s.minors p (some { mp with nccip := false }) ∧
          s'.capiminorList = s.capiminorList ∧ s'.freed = s.freed) ∨
        (mp.tty = none ∧ s'.minors = Function.update s.minors p none ∧
          s'.capiminorList = s.capiminorList.erase p ∧ s'.freed = s.freed ++ [(p, mp.ttyopencount)]))

/-- A file set to what it is. -/
theorem Driver.setDev_self {s : Driver} {d : Nat} {c : Capidev} (here : s.devs d = some c) : s.setDev d c = s := by
  simp [Driver.setDev, ← here]

/-- The NCCI of a wired file can be taken. -/
theorem Wired.capincciUnlink {s : Driver} {d : Nat} {cdev : Capidev} {kept rest : List Capincci} {np : Capincci}
    (wired : Wired (s.setDev d { cdev with nccis := kept ++ np :: rest })) :
    ∃ s', capincciUnlink s np.minorp = some s' ∧
      Dropped (s.setDev d { cdev with nccis := kept ++ np :: rest }) (s'.setDev d { cdev with nccis := kept ++ rest })
        d cdev kept np rest := by
  have before : (s.setDev d { cdev with nccis := kept ++ np :: rest }).devs d =
      some { cdev with nccis := kept ++ np :: rest } := Function.update_self _ _ _
  have devs (s' : Driver) (same : s'.devs = s.devs) : (s'.setDev d { cdev with nccis := kept ++ rest }).devs =
      Function.update (s.setDev d { cdev with nccis := kept ++ np :: rest }).devs d
        (some { cdev with nccis := kept ++ rest }) := by
    simp [Driver.setDev, same]
  cases own : np.minorp with
  | none =>
    exact ⟨s, rfl, before, devs s rfl, rfl, rfl, rfl, rfl, rfl, .inl ⟨own, rfl, rfl, rfl⟩⟩
  | some p =>
    obtain ⟨mp, live, link, ap⟩ := wired.owned d _ np p before (by simp) own
    have live' : s.minors p = some mp := live
    have listed : p ∈ s.capiminorList := (wired.listed p).mpr (by rw [live]; simp)
    cases tty : mp.tty with
    | none =>
      refine ⟨{ s with
          capiminorList := s.capiminorList.erase p
          minors := Function.update s.minors p none
          freed := s.freed ++ [(p, mp.ttyopencount)] },
        by simp [Capi.capincciUnlink, capiminorFree, live', tty, listed], before, ?_, rfl, rfl, rfl, rfl, rfl,
        .inr ⟨p, mp, own, live, .inr ⟨tty, rfl, rfl, rfl⟩⟩⟩
      exact devs _ rfl
    | some t =>
      refine ⟨s.setMinor p { mp with nccip := false }, by simp [Capi.capincciUnlink, live', tty], before, ?_, rfl, rfl,
        rfl, rfl, rfl, .inr ⟨p, mp, own, live, .inl ⟨by simp [tty], rfl, rfl, rfl⟩⟩⟩
      exact devs _ rfl

namespace Dropped

variable {s s' : Driver} {d : Nat} {cdev : Capidev} {kept rest : List Capincci} {np : Capincci}

/-- The file keeps its other NCCIs. -/
theorem here (drop : Dropped s s' d cdev kept np rest) : s'.devs d = some { cdev with nccis := kept ++ rest } := by
  rw [drop.devs, Function.update_self]

theorem elsewhere (drop : Dropped s s' d cdev kept np rest) {e : Nat} (other : e ≠ d) : s'.devs e = s.devs e := by
  rw [drop.devs, Function.update_of_ne other]

/-- An NCCI that is left was there before. -/
theorem old (drop : Dropped s s' d cdev kept np rest) {e : Nat} {cdev' : Capidev} {np' : Capincci}
    (dev' : s'.devs e = some cdev') (mem : np' ∈ cdev'.nccis) : ∃ cdev₀, s.devs e = some cdev₀ ∧ np' ∈ cdev₀.nccis := by
  by_cases eq : e = d
  · subst eq
    obtain rfl := Option.some.inj (drop.here.symm.trans dev')
    refine ⟨_, drop.before, ?_⟩
    rcases List.mem_append.mp mem with m | m <;> simp [m]
  · exact ⟨cdev', (drop.elsewhere eq) ▸ dev', mem⟩

/-- Only `np` is gone. -/
theorem still (drop : Dropped s s' d cdev kept np rest) {e : Nat} {cdev₀ : Capidev} {np' : Capincci}
    (dev : s.devs e = some cdev₀) (mem : np' ∈ cdev₀.nccis) (other : np' ≠ np) :
    ∃ cdev', s'.devs e = some cdev' ∧ np' ∈ cdev'.nccis := by
  by_cases eq : e = d
  · subst eq
    obtain rfl := Option.some.inj (drop.before.symm.trans dev)
    refine ⟨_, drop.here, ?_⟩
    simp only [List.mem_append, List.mem_cons] at mem ⊢
    rcases mem with m | m | m
    · exact .inl m
    · exact absurd m other
    · exact .inr m
  · exact ⟨cdev₀, (drop.elsewhere eq).trans dev, mem⟩

/-- No minor is left with two NCCIs. -/
theorem distinct (drop : Dropped s s' d cdev kept np rest) (wired : Wired s) (e : Nat) (cdev' : Capidev)
    (dev' : s'.devs e = some cdev') : (cdev'.nccis.filterMap Capincci.minorp).Nodup := by
  by_cases eq : e = d
  · subst eq
    obtain rfl := Option.some.inj (drop.here.symm.trans dev')
    refine List.Nodup.sublist ?_ (wired.distinct e _ drop.before)
    exact ((List.Sublist.refl kept).append (List.sublist_cons_self np rest)).filterMap _
  · exact wired.distinct e cdev' ((drop.elsewhere eq) ▸ dev')

/-- The minor of `np` is live. -/
theorem live (drop : Dropped s s' d cdev kept np rest) (wired : Wired s) {p : Nat} (own : np.minorp = some p) :
    ∃ mp, s.minors p = some mp ∧ mp.ap = d := by
  obtain ⟨mp, live, -, ap⟩ := wired.owned d _ np p drop.before (by simp) own
  exact ⟨mp, live, ap⟩

/-- No NCCI that is left has the minor of `np`. -/
theorem apart (drop : Dropped s s' d cdev kept np rest) (wired : Wired s) {e p : Nat} {cdev' : Capidev} {np' : Capincci}
    (dev' : s'.devs e = some cdev') (mem : np' ∈ cdev'.nccis) (own' : np'.minorp = some p) : np.minorp ≠ some p := by
  intro own
  obtain ⟨mp, live, ap⟩ := drop.live wired own
  obtain ⟨cdev₀, dev₀, mem₀⟩ := drop.old dev' mem
  obtain ⟨mp', live', -, ap'⟩ := wired.owned e cdev₀ np' p dev₀ mem₀ own'
  obtain rfl := Option.some.inj (live.symm.trans live')
  obtain rfl := ap.symm.trans ap'
  obtain rfl := Option.some.inj (drop.here.symm.trans dev')
  have distinct := wired.distinct d _ drop.before
  simp only [List.filterMap_append, List.filterMap_cons, own] at distinct
  refine (List.nodup_middle.mp distinct).notMem ?_
  rw [← List.filterMap_append]
  exact List.mem_filterMap.mpr ⟨np', mem, own'⟩

theorem others (drop : Dropped s s' d cdev kept np rest) {p : Nat} (other : np.minorp ≠ some p) :
    s'.minors p = s.minors p := by
  rcases drop.minor with ⟨-, minors, -⟩ | ⟨q, mq, own, -, ⟨-, minors, -⟩ | ⟨-, minors, -⟩⟩
  · rw [minors]
  · rw [minors, Function.update_of_ne]
    rintro rfl
    exact other own
  · rw [minors, Function.update_of_ne]
    rintro rfl
    exact other own

/-- A minor that stays behind is detached. -/
theorem detached (drop : Dropped s s' d cdev kept np rest) {p : Nat} {mp : Capiminor} (own : np.minorp = some p)
    (live : s'.minors p = some mp) : mp.nccip = false := by
  rcases drop.minor with ⟨none, -⟩ | ⟨q, mq, own', -, ⟨-, minors, -⟩ | ⟨-, minors, -⟩⟩
  · rw [none] at own
    cases own
  · obtain rfl := Option.some.inj (own.symm.trans own')
    rw [minors, Function.update_self] at live
    cases live
    rfl
  · obtain rfl := Option.some.inj (own.symm.trans own')
    rw [minors, Function.update_self] at live
    cases live

theorem byNumber (drop : Dropped s s' d cdev kept np rest) (order : ByNumber s) : ByNumber s' := by
  rcases drop.minor with ⟨-, minors, list, -⟩ | ⟨p, mp, -, live, ⟨-, minors, list, -⟩ | ⟨-, minors, list, -⟩⟩
  · exact order.congr list fun p => by rw [minors]
  · apply order.congr list
    intro q
    rw [minors]
    by_cases eq : q = p
    · subst eq
      rw [Function.update_self, live]
      rfl
    · rw [Function.update_of_ne eq]
  · exact order.erase minors list

end Dropped

/-- The records that remain are linked. -/
theorem Wired.dropped {s s' : Driver} {d : Nat} {cdev : Capidev} {kept rest : List Capincci} {np : Capincci}
    (wired : Wired s) (drop : Dropped s s' d cdev kept np rest) : Wired s' where
  listed := (drop.byNumber wired.byNumber).listed
  sorted := (drop.byNumber wired.byNumber).sorted
  owned e cdev' np' p dev' mem own := by
    obtain ⟨cdev₀, dev₀, mem₀⟩ := drop.old dev' mem
    obtain ⟨mp, live, facts⟩ := wired.owned e cdev₀ np' p dev₀ mem₀ own
    exact ⟨mp, (drop.others (drop.apart wired dev' mem own)).trans live, facts⟩
  attached p mp live link := by
    have other : np.minorp ≠ some p := by
      intro own
      rw [drop.detached own live] at link
      cases link
    rw [drop.others other] at live
    obtain ⟨cdev₀, np', dev₀, mem, own⟩ := wired.attached p mp live link
    obtain ⟨cdev', dev', mem'⟩ := drop.still dev₀ mem fun eq => other (eq ▸ own)
    exact ⟨cdev', np', dev', mem', own⟩
  distinct := drop.distinct wired
  fresh p beyond := by
    have absent := wired.fresh p (drop.minorNext ▸ beyond)
    have other : np.minorp ≠ some p := by
      intro own
      obtain ⟨mp, live, -⟩ := drop.live wired own
      rw [absent] at live
      cases live
    exact (drop.others other).trans absent
  freshDev := wired.freshDev_update drop.before drop.devs drop.devNext

/-- A detached minor can be freed, and nothing refers to it. -/
theorem Wired.freeDetached {s : Driver} (wired : Wired s) {p : Nat} {mp : Capiminor} (live : s.minors p = some mp)
    (detached : mp.nccip = false) :
    capiminorFree s p = some (s.without p mp) ∧ Wired (s.without p mp) := by
  have listed : p ∈ s.capiminorList := (wired.listed p).mpr (by rw [live]; simp)
  have others {q : Nat} (other : q ≠ p) : Function.update s.minors p none q = s.minors q := Function.update_of_ne other _ _
  have gone : Function.update s.minors p none p = none := Function.update_self _ _ _
  have order : ByNumber (s.without p mp) := wired.byNumber.erase rfl rfl
  refine ⟨by simp [capiminorFree, live, listed, Driver.without], order.listed, order.sorted, ?_, ?_, wired.distinct, ?_,
    wired.freshDev⟩
  · intro d cdev np q dev mem own
    obtain ⟨mq, liveq, link, ap⟩ := wired.owned d cdev np q dev mem own
    have other : q ≠ p := by
      rintro rfl
      obtain rfl := Option.some.inj (live.symm.trans liveq)
      rw [detached] at link
      cases link
    exact ⟨mq, (others other).trans liveq, link, ap⟩
  · intro q mq liveq link
    have other : q ≠ p := by
      rintro rfl
      cases gone.symm.trans liveq
    exact wired.attached q mq ((others other).symm.trans liveq) link
  · intro q beyond
    have absent := wired.fresh q beyond
    have other : q ≠ p := by
      rintro rfl
      rw [live] at absent
      cases absent
    exact (others other).trans absent

/-- `capincci_free` keeps what taking one NCCI keeps. -/
theorem capincciFree_keeps {I : Driver → Prop} {d : Nat}
    (one : ∀ (s : Driver) (cdev : Capidev) kept (np : Capincci) rest, I (s.setDev d { cdev with nccis := kept ++ np :: rest }) →
      ∃ s', capincciUnlink s np.minorp = some s' ∧ I (s'.setDev d { cdev with nccis := kept ++ rest }))
    {s : Driver} {cdev : Capidev} (dev : s.devs d = some cdev) (inv : I s) (ncci : UInt32) :
    ∃ s', capincciFree s d ncci = some s' ∧ I s' ∧
      s'.devs d = some { cdev with nccis := cdev.nccis.filter fun np => ! np.taken ncci } := by
  have loop : ∀ (l kept : List Capincci) (s : Driver), I (s.setDev d { cdev with nccis := kept ++ l }) →
      ∃ s', capincciFreeLoop ncci l s = some s' ∧
        I (s'.setDev d { cdev with nccis := kept ++ l.filter fun np => ! np.taken ncci }) := by
    intro l
    induction l with
    | nil => exact fun kept s inv => ⟨s, rfl, inv⟩
    | cons np l ih =>
      intro kept s inv
      by_cases take : np.taken ncci = true
      · obtain ⟨s₁, unlink, inv₁⟩ := one s cdev kept np l inv
        obtain ⟨s', run, inv'⟩ := ih kept s₁ inv₁
        exact ⟨s', by simp [capincciFreeLoop, take, unlink, run], by simpa [take] using inv'⟩
      · obtain ⟨s', run, inv'⟩ := ih (kept ++ [np]) s (by simpa using inv)
        exact ⟨s', by simp [capincciFreeLoop, take, run], by simpa [take] using inv'⟩
  obtain ⟨s', run, inv'⟩ := loop cdev.nccis [] s (by simpa [Driver.setDev_self dev] using inv)
  refine ⟨_, by simp only [capincciFree, dev, run, Option.bind_eq_bind, Option.bind_some]; rfl, inv', ?_⟩
  exact Function.update_self _ _ _

end Capi4Linux.Capi
