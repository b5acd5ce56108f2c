import Capi4Linux.Capi.Capifs
import Capi4Linux.Capi.Reach

/-!
# The nodes of capifs are the minors with an NCCI

The driver does not notice the file system. Seen from it, each call of `capi.c`
is a row of moves: a minor gets its NCCI and its node, or loses both, or
something else happens that concerns neither.
-/

namespace Capi4Linux.Capi
open Bytes Capicore Machine Sprintf

/-- The minor with number `n` has its NCCI. -/
def LinkedAt (s : Driver) (n : Nat) : Prop := ∃ p mp, s.minors p = some mp ∧ mp.nccip = true ∧ mp.minor = n

/-- The same minors have their NCCIs. -/
def SameLinked (s s' : Driver) : Prop := ∀ n, LinkedAt s' n ↔ LinkedAt s n

section Links

variable {env : Env} {s s' : Driver} {d p n : Nat} {mp mp' : Capiminor}

theorem SameLinked.refl (s : Driver) : SameLinked s s := fun _ => Iff.rfl

theorem SameLinked.trans {t : Driver} (first : SameLinked s t) (second : SameLinked t s') : SameLinked s s' :=
  fun n => (second n).trans (first n)

/-- Where the minors do not change, neither does what is linked. -/
theorem SameLinked.of_minors (same : s'.minors = s.minors) : SameLinked s s' := by
  intro n
  unfold LinkedAt
  rw [same]

/-- Where the links do not change a linked number stays linked. -/
theorem SameLinks.linkedAt (same : SameLinks s s') {n : Nat} (linked : LinkedAt s n) : LinkedAt s' n := by
  obtain ⟨p, mp, live, link, number⟩ := linked
  obtain ⟨mp', live', nccip, minor, -⟩ := same.minor live
  exact ⟨p, mp', live', nccip.trans link, minor.trans number⟩

/-- Where the links do not change, neither do the linked numbers. -/
theorem SameLinks.sameLinked (same : SameLinks s s') : SameLinked s s' :=
  fun _ => ⟨same.symm.linkedAt, same.linkedAt⟩

/-- A minor without NCCI goes. -/
theorem SameLinked.freeDetached (live : s.minors p = some mp) (detached : mp.nccip = false) :
    SameLinked s (s.without p mp) := by
  have gone : (s.without p mp).minors p = none := Function.update_self _ _ _
  have others {q : Nat} (other : q ≠ p) : (s.without p mp).minors q = s.minors q := Function.update_of_ne other _ _
  intro n
  constructor
  · rintro ⟨q, mq, there, facts⟩
    have other : q ≠ p := by
      rintro rfl
      cases gone.symm.trans there
    exact ⟨q, mq, (others other).symm.trans there, facts⟩
  · rintro ⟨q, mq, there, link, number⟩
    have other : q ≠ p := by
      rintro rfl
      obtain rfl := Option.some.inj (live.symm.trans there)
      cases detached.symm.trans link
    exact ⟨q, mq, (others other).trans there, link, number⟩

/-- A minor gets its NCCI. -/
theorem linkedAt_new (unborn : s.minors p = none) (minors : s'.minors = Function.update s.minors p (some mp))
    (link : mp.nccip = true) (k : Nat) : LinkedAt s' k ↔ LinkedAt s k ∨ k = mp.minor := by
  have here : s'.minors p = some mp := by rw [minors, Function.update_self]
  have others {q : Nat} (other : q ≠ p) : s'.minors q = s.minors q := by rw [minors, Function.update_of_ne other]
  constructor
  · rintro ⟨q, mq, there, linked, number⟩
    by_cases other : q = p
    · subst other
      obtain rfl := Option.some.inj (here.symm.trans there)
      exact .inr number.symm
    · exact .inl ⟨q, mq, (others other).symm.trans there, linked, number⟩
  · rintro (⟨q, mq, there, linked, number⟩ | rfl)
    · have other : q ≠ p := by
        rintro rfl
        cases unborn.symm.trans there
      exact ⟨q, mq, (others other).trans there, linked, number⟩
    · exact ⟨p, mp, here, link, rfl⟩

/-- A minor loses its NCCI. -/
theorem linkedAt_lost (order : ByNumber s) (live : s.minors p = some mp)
    (others : ∀ q, q ≠ p → s'.minors q = s.minors q) (lost : ∀ mq, s'.minors p = some mq → mq.nccip = false) (k : Nat) :
    LinkedAt s' k ↔ LinkedAt s k ∧ k ≠ mp.minor := by
  constructor
  · rintro ⟨q, mq, there, linked, number⟩
    have other : q ≠ p := by
      rintro rfl
      cases (lost mq there).symm.trans linked
    rw [others q other] at there
    refine ⟨⟨q, mq, there, linked, number⟩, ?_⟩
    rintro rfl
    exact other (order.number_inj there live number)
  · rintro ⟨⟨q, mq, there, linked, number⟩, apart⟩
    have other : q ≠ p := by
      rintro rfl
      obtain rfl := Option.some.inj (live.symm.trans there)
      exact apart number.symm
    exact ⟨q, mq, (others q other).trans there, linked, number⟩

end Links

/-! ## Moves -/

/-- What one move does to the minors with an NCCI and to the directory. -/
inductive NodeMove (env : MountedEnv) (m m' : Mounted) : Prop
  | aside : SameLinked m.driver m'.driver → m'.fs = m.fs → NodeMove env m m'
  | linked (n : Nat) : n < env.capi.capiTtyminors → ¬ LinkedAt m.driver n →
      (∀ k, LinkedAt m'.driver k ↔ LinkedAt m.driver k ∨ k = n) →
      capifsNewNcci env.capifs m.fs n (env.capifs.capiTtymajor, n) = some m'.fs → NodeMove env m m'
  | lost (n : Nat) : LinkedAt m.driver n → (∀ k, LinkedAt m'.driver k ↔ LinkedAt m.driver k ∧ k ≠ n) →
      capifsFreeNcci env.capifs m.fs n = some m'.fs → NodeMove env m m'

def NodeMoves (env : MountedEnv) : Mounted → Mounted → Prop := Relation.ReflTransGen (NodeMove env)

/-- The driver goes on as it would without the file system, and what happens is a row of moves. -/
structure Shadows (env : MountedEnv) (m : Mounted) (x : Option Mounted) (y : Option Driver) : Prop where
  driver : x.map Mounted.driver = y
  moves : ∀ m', x = some m' → NodeMoves env m m'

section Shadowing

variable {env : MountedEnv} {m : Mounted}

/-- A step of the driver alone leaves the directory. -/
theorem Shadows.aside {driver : Driver} (same : SameLinked m.driver driver) :
    Shadows env m (some { m with driver }) (some driver) := by
  refine ⟨rfl, fun m' run => ?_⟩
  cases run
  exact .single (.aside same rfl)

/-- Nothing done is done with the directory and without. -/
theorem Shadows.refl (m : Mounted) : Shadows env m (some m) (some m.driver) :=
  .aside (SameLinked.refl m.driver)

/-- A call that fails fails with the directory and without. -/
theorem Shadows.none : Shadows env m none none :=
  ⟨rfl, fun m' run => by cases run⟩

theorem Shadows.bind {x : Option Mounted} {y : Option Driver} {f : Mounted → Option Mounted} {g : Driver → Option Driver}
    (first : Shadows env m x y) (next : ∀ m', x = some m' → Shadows env m' (f m') (g m'.driver)) :
    Shadows env m (x.bind f) (y.bind g) := by
  obtain ⟨driver, moves⟩ := first
  cases x with
  | none =>
    cases driver
    exact .none
  | some m₁ =>
    cases driver
    obtain ⟨driver', moves'⟩ := next m₁ rfl
    exact ⟨driver', fun m' run => (moves m₁ rfl).trans (moves' m' run)⟩

/-- A call of the driver that links and unlinks nothing. -/
theorem Shadows.ofDriver {y : Option Driver} (same : ∀ driver, y = some driver → SameLinked m.driver driver) :
    Shadows env m (m.ofDriver y) y := by
  cases y with
  | none => exact .none
  | some driver => exact .aside (same driver rfl)

/-- The driver changes something else first. -/
theorem Shadows.before (driver : Driver) (same : SameLinked m.driver driver) {x : Option Mounted} {y : Option Driver}
    (rest : Shadows env { m with driver } x y) : Shadows env m x y := by
  have first : NodeMove env m { m with driver } := .aside same rfl
  exact ⟨rest.driver, fun m' run => (Relation.ReflTransGen.single first).trans (rest.moves m' run)⟩

end Shadowing

/-! ## NCCIs -/

/-- The number of a node is written in full. -/
theorem nodeName_small {n : Nat} (small : n < 256) : nodeName n = some (decimal n) := by
  have short : (decimal n).length ≤ 3 := length_digits_le (by decide) (by decide) (by omega)
  rw [nodeName, if_pos (by omega)]

/-- A node is made or not, but its name fits. -/
theorem capifsNewNcci_defined {n : Nat} (env : CapifsEnv) (fs : Capifs) (device : Nat × Nat) (small : n < 256) :
    ∃ fs', capifsNewNcci env fs n device = some fs' := by
  unfold capifsNewNcci
  rw [nodeName_small small]
  simp only
  split
  · exact ⟨_, rfl⟩
  · simp only [Option.bind_eq_bind, Option.bind_some]
    split <;> exact ⟨_, rfl⟩

theorem capifsFreeNcci_defined {n : Nat} (env : CapifsEnv) (fs : Capifs) (small : n < 256) :
    ∃ fs', capifsFreeNcci env fs n = some fs' := by
  unfold capifsFreeNcci
  rw [nodeName_small small]
  simp only [Option.bind_eq_bind, Option.bind_some]
  split <;> exact ⟨_, rfl⟩

/-- The numbers of the minors with an NCCI are in the range of the tty driver. -/
def Below (env : MountedEnv) (s : Driver) : Prop := ∀ n, LinkedAt s n → n < env.capi.capiTtyminors

section Nccis

variable {env : MountedEnv} {m : Mounted} {d : Nat} {ncci : UInt32}

/-- An NCCI gets no minor, or a new one with a number that is free. -/
theorem capincciMinor_cases {env : Env} {s s' : Driver} {userflags : UInt32} {minorp : Option Nat} (order : ByNumber s)
    (unborn : s.minors s.minorNext = none) (run : capincciMinor env s d userflags ncci = some (s', minorp)) :
    (minorp = none ∧ s'.minors = s.minors) ∨
      ∃ p mp, minorp = some p ∧ s.minors p = none ∧ s'.minors = Function.update s.minors p (some mp) ∧ mp.nccip = true ∧
        mp.minor < env.capiTtyminors ∧ ¬ InUse s mp.minor := by
  unfold capincciMinor at run
  split at run
  · cases run
    exact .inl ⟨rfl, rfl⟩
  obtain ⟨⟨s₁, found⟩, alloc, run⟩ := Option.bind_eq_some_iff.1 run
  unfold capiminorAlloc at alloc
  simp only at alloc
  split at alloc
  · cases alloc
    cases run
    exact .inl ⟨rfl, rfl⟩
  obtain ⟨numbers, listed, alloc⟩ := Option.bind_eq_some_iff.1 alloc
  have same : Driver.minorNumbers { s.asked with minorNext := s.asked.minorNext + 1 } = s.minorNumbers := rfl
  rw [same, order.minorNumbers] at listed
  cases listed
  split at alloc
  · rename_i small
    cases alloc
    simp only [Driver.setMinor, Function.update_self, Option.bind_eq_bind, Option.bind_some, Function.update_idem] at run
    cases run
    refine .inr ⟨s.minorNext, _, rfl, unborn, rfl, rfl, small, ?_⟩
    intro used
    have free := (FirstGap.gap_isLeast order.sorted fun x _ => Nat.zero_le x).1.2
    rw [FirstGap.gap, Nat.zero_add, ← capiminorScan_eq] at free
    exact free ((order.inUse_iff _).1 used)
  · cases alloc
    cases run
    exact .inl ⟨rfl, rfl⟩

/-- A new NCCI, with its node. -/
theorem Shadows.capincciAlloc (wired : Wired m.driver) (d : Nat) (ncci : UInt32) :
    Shadows env m (m.capincciAlloc env d ncci) (Capi.capincciAlloc env.capi m.driver d ncci) := by
  unfold Mounted.capincciAlloc Capi.capincciAlloc
  cases dev : m.driver.devs d with
  | none => exact .none
  | some cdev =>
    simp only [Option.bind_eq_bind, Option.bind_some]
    split
    · exact .aside (.of_minors rfl)
    unfold Mounted.capincciMinor
    cases minor : Capi.capincciMinor env.capi m.driver.asked d cdev.userflags ncci with
    | none => exact .none
    | some found =>
      obtain ⟨s', minorp⟩ := found
      rcases capincciMinor_cases wired.asked.byNumber (wired.fresh _ (Nat.le_refl _)) minor with
        ⟨rfl, same⟩ | ⟨p, mp, rfl, unborn, minors, link, small, free⟩
      · exact .aside (.of_minors same)
      · have live : s'.minors p = some mp := by rw [minors, Function.update_self]
        obtain ⟨fs, made⟩ := capifsNewNcci_defined env.capifs m.fs (env.capifs.capiTtymajor, mp.minor)
          (Nat.lt_of_lt_of_le small env.capi.ttyminors_range.2)
        simp only [Option.bind_eq_bind, Option.bind_some, live, made]
        refine ⟨rfl, fun m' run => ?_⟩
        cases run
        refine .single (.linked mp.minor small ?_ (linkedAt_new unborn minors link) made)
        rintro ⟨q, mq, there, -, number⟩
        exact free ⟨q, mq, there, number⟩

/-- A minor with an NCCI loses it. -/
theorem capincciUnlink_cases {s : Driver} {p : Nat} {mp : Capiminor} (order : ByNumber s) (live : s.minors p = some mp) :
    ∃ s₁, capincciUnlink s (some p) = some s₁ ∧ ByNumber s₁ ∧ (∀ q, q ≠ p → s₁.minors q = s.minors q) ∧
      ∀ mq, s₁.minors p = some mq → mq.nccip = false := by
  cases tty : mp.tty with
  | none =>
    have listed : p ∈ s.capiminorList := (order.listed p).2 (by simp [live])
    have gone : (s.without p mp).minors p = none := Function.update_self _ _ _
    refine ⟨s.without p mp, by simp [capincciUnlink, capiminorFree, live, tty, listed, Driver.without],
      order.erase rfl rfl, fun q other => Function.update_of_ne other _ _, fun mq there => ?_⟩
    cases gone.symm.trans there
  | some t =>
    have here : (s.setMinor p { mp with nccip := false }).minors p = some { mp with nccip := false } :=
      Function.update_self _ _ _
    refine ⟨s.setMinor p { mp with nccip := false }, by simp [capincciUnlink, live, tty], order.congr rfl fun q => ?_,
      fun q other => Function.update_of_ne other _ _, fun mq there => ?_⟩
    · by_cases mine : q = p
      · subst mine
        rw [here, live]
        rfl
      · exact congrArg _ (Function.update_of_ne mine _ _)
    · cases here.symm.trans there
      rfl

/-- The NCCIs of a file are freed one by one; those to come still have their minors. -/
theorem Shadows.capincciFreeLoop {nccis : List Capincci} (order : ByNumber m.driver) (below : Below env m.driver)
    (distinct : (nccis.filterMap Capincci.minorp).Nodup)
    (links : ∀ p ∈ nccis.filterMap Capincci.minorp, ∃ mp, m.driver.minors p = some mp ∧ mp.nccip = true) (ncci : UInt32) :
    Shadows env m (m.capincciFreeLoop env ncci nccis) (Capi.capincciFreeLoop ncci nccis m.driver) := by
  induction nccis generalizing m with
  | nil => exact .refl m
  | cons np nccis ih =>
    rw [Mounted.capincciFreeLoop, Capi.capincciFreeLoop]
    cases own : np.minorp with
    | none =>
      rw [List.filterMap_cons_none own] at distinct links
      split
      · exact ih order below distinct links
      · exact ih order below distinct links
    | some p =>
      rw [List.filterMap_cons_some own] at distinct links
      obtain ⟨absent, distinct⟩ := List.nodup_cons.1 distinct
      obtain ⟨⟨mp, live, link⟩, links⟩ := List.forall_mem_cons.1 links
      split
      case isFalse => exact ih order below distinct links
      obtain ⟨s₁, unlinked, order', others, lost⟩ := capincciUnlink_cases order live
      have linked : LinkedAt m.driver mp.minor := ⟨p, mp, live, link, rfl⟩
      obtain ⟨fs, freed⟩ := capifsFreeNcci_defined env.capifs m.fs
        (Nat.lt_of_lt_of_le (below mp.minor linked) env.capi.ttyminors_range.2)
      have after := linkedAt_lost order live others lost
      have both : m.capincciUnlink env (some p) = some ⟨s₁, fs⟩ := by
        simp only [Mounted.capincciUnlink, live, freed, Option.bind_eq_bind, Option.bind_some, Mounted.ofDriver, unlinked,
          Option.map_some]
      have first : Shadows env m (m.capincciUnlink env (some p)) (Capi.capincciUnlink m.driver (some p)) := by
        rw [both, unlinked]
        refine ⟨rfl, fun m' run => ?_⟩
        cases run
        exact .single (.lost mp.minor linked after freed)
      refine first.bind fun m' run => ?_
      cases both.symm.trans run
      refine ih order' (fun n there => below n ((after n).1 there).1) distinct fun q mem => ?_
      obtain ⟨mq, there, facts⟩ := links q mem
      have other : q ≠ p := by
        rintro rfl
        exact absent mem
      exact ⟨mq, (others q other).trans there, facts⟩

/-- A freed NCCI, with its node. -/
theorem Shadows.capincciFree (wired : Wired m.driver) (below : Below env m.driver) (d : Nat) (ncci : UInt32) :
    Shadows env m (m.capincciFree env d ncci) (Capi.capincciFree m.driver d ncci) := by
  unfold Mounted.capincciFree Capi.capincciFree
  cases dev : m.driver.devs d with
  | none => exact .none
  | some cdev =>
    have links : ∀ p ∈ cdev.nccis.filterMap Capincci.minorp, ∃ mp, m.driver.minors p = some mp ∧ mp.nccip = true := by
      intro p mem
      obtain ⟨np, mem, own⟩ := List.mem_filterMap.1 mem
      obtain ⟨mp, live, link, -⟩ := wired.owned d cdev np p dev mem own
      exact ⟨mp, live, link⟩
    have loop := Shadows.capincciFreeLoop wired.byNumber below (wired.distinct d cdev dev) links ncci
    exact loop.bind fun m' _ => .aside (.of_minors rfl)

/-- A released file, with the nodes of its NCCIs. -/
theorem Shadows.capidevFree (wired : Wired m.driver) (below : Below env m.driver) (d : Nat) :
    Shadows env m (m.capidevFree env d) (Capi.capidevFree m.driver d) := by
  unfold Mounted.capidevFree Capi.capidevFree
  cases dev : m.driver.devs d with
  | none => exact .none
  | some cdev =>
    let cdev' := { cdev with
      ap := if cdev.ap.id ≠ 0 then { cdev.ap with id := 0, msgQueue := [] } else cdev.ap, recvqueue := [] }
    have released : Wired (m.driver.setDev d cdev') := wired.setDev dev rfl
    have free := Shadows.capincciFree (m := ⟨m.driver.setDev d cdev', m.fs⟩) released below d 0xffffffff
    refine .before (m.driver.setDev d cdev') (.of_minors rfl) (free.bind fun m' _ => ?_)
    exact .aside (.of_minors rfl)

end Nccis

/-! ## Files -/

/-- The records are linked, and the numbers in range. -/
structure Sound (env : MountedEnv) (s : Driver) : Prop where
  wired : Wired s
  below : Below env s

section Files

variable {env : MountedEnv} {m m' : Mounted} {d : Nat} {skb : Skb}

/-- A move of the nodes leaves the numbers small. -/
theorem Below.move (below : Below env m.driver) (move : NodeMove env m m') : Below env m'.driver := by
  intro n there
  cases move with
  | aside same => exact below n ((same n).1 there)
  | linked k small _ after =>
    rcases (after n).1 there with there | rfl
    · exact below n there
    · exact small
  | lost k _ after => exact below n ((after n).1 there).1

theorem Below.moves (below : Below env m.driver) (moves : NodeMoves env m m') : Below env m'.driver := by
  induction moves with
  | refl => exact below
  | tail _ move ih => exact ih.move move

/-- What the driver keeps by itself it keeps with the file system. -/
theorem Shadows.sound {x : Option Mounted} {y : Option Driver} (shadows : Shadows env m x y) (sound : Sound env m.driver)
    (wired : ∀ driver, y = some driver → Wired driver) (run : x = some m') : Sound env m'.driver := by
  constructor
  · apply wired
    rw [← shadows.driver, run]
    rfl
  · exact sound.below.moves (shadows.moves m' run)

theorem Shadows.recvqueueTail (d : Nat) (skb : Skb) :
    Shadows env m (m.ofDriver (Capi.recvqueueTail m.driver d skb)) (Capi.recvqueueTail m.driver d skb) := by
  apply Shadows.ofDriver
  intro driver run
  obtain ⟨cdev, dev, run⟩ := Option.bind_eq_some_iff.1 run
  cases run
  exact .of_minors rfl

theorem Shadows.recvDataB3 (d p : Nat) (skb : Skb) :
    Shadows env m (m.ofDriver (Capi.recvDataB3 env.capi m.driver d p skb)) (Capi.recvDataB3 env.capi m.driver d p skb) := by
  apply Shadows.ofDriver
  intro driver run
  rcases recvDataB3_cases run with ⟨-, through⟩ | ⟨-, -, queued⟩
  · exact through.sameLinks.sameLinked
  · obtain ⟨cdev, dev, queued⟩ := Option.bind_eq_some_iff.1 queued
    cases queued
    exact .of_minors rfl

/-- An NCCI is allocated for some messages. -/
theorem Shadows.allocIf (sound : Sound env m.driver) (d : Nat) (ncci : UInt32) (p : Prop) [Decidable p] :
    Shadows env m (if p then m.capincciAlloc env d ncci else some m)
        (if p then Capi.capincciAlloc env.capi m.driver d ncci else some m.driver) ∧
      ∀ m', (if p then m.capincciAlloc env d ncci else some m) = some m' → Sound env m'.driver := by
  split
  · have alloc : Shadows env m (m.capincciAlloc env d ncci) (Capi.capincciAlloc env.capi m.driver d ncci) :=
      .capincciAlloc sound.wired d ncci
    refine ⟨alloc, fun m' run => alloc.sound sound (fun driver made => ?_) run⟩
    obtain ⟨cdev, dev, -⟩ := Option.bind_eq_some_iff.1 made
    exact sound.wired.alloc dev made
  · refine ⟨.refl m, fun m' run => ?_⟩
    cases run
    exact sound

theorem Shadows.recvOne (sound : Sound env m.driver) (d : Nat) (skb : Skb) :
    Shadows env m (m.recvOne env d skb) (Capi.recvOne env.capi m.driver d skb) := by
  obtain ⟨first, sound₁⟩ := Shadows.allocIf sound d skb.ncci (skb.cmd = CAPI_CONNECT_B3_CONF ∧ skb.u16 12 = 0)
  refine first.bind fun m₁ run₁ => ?_
  obtain ⟨second, -⟩ := Shadows.allocIf (sound₁ m₁ run₁) d skb.ncci (skb.cmd = CAPI_CONNECT_B3_IND)
  refine second.bind fun m₂ _ => ?_
  split
  · exact .recvqueueTail d skb
  cases dev : m₂.driver.devs d with
  | none => exact .none
  | some cdev =>
    simp only [Option.bind_eq_bind, Option.bind_some]
    cases (capincciFind cdev skb.ncci).bind Capincci.minorp with
    | none => exact .recvqueueTail d skb
    | some p => exact .recvDataB3 d p skb

theorem Shadows.capiRecvMessageLoop (fuel : Nat) (sound : Sound env m.driver) (d : Nat) :
    Shadows env m (Mounted.capiRecvMessageLoop env fuel m d) (Capi.capiRecvMessageLoop env.capi fuel m.driver d) := by
  induction fuel generalizing m with
  | zero => exact .none
  | succ fuel ih =>
    rw [Mounted.capiRecvMessageLoop, Capi.capiRecvMessageLoop]
    cases dev : m.driver.devs d with
    | none => exact .none
    | some cdev =>
      simp only [Option.bind_eq_bind, Option.bind_some]
      split
      · exact .refl m
      cases cdev.ap.msgQueue with
      | nil => exact .refl m
      | cons skb msgQueue =>
        let driver := m.driver.setDev d { cdev with ap := { cdev.ap with msgQueue } }
        have fetched : Sound env driver := ⟨sound.wired.setDev dev rfl, sound.below⟩
        have one := Shadows.recvOne (m := ⟨driver, m.fs⟩) fetched d skb
        refine .before driver (.of_minors rfl) (one.bind fun m₁ run => ih (one.sound fetched (fun s₁ made => ?_) run))
        exact fetched.wired.recvOne (Function.update_self _ _ _) made

theorem Shadows.capiRecvMessage (sound : Sound env m.driver) (d : Nat) :
    Shadows env m (m.capiRecvMessage env d) (Capi.capiRecvMessage env.capi m.driver d) := by
  unfold Mounted.capiRecvMessage Capi.capiRecvMessage
  cases dev : m.driver.devs d with
  | none => exact .none
  | some cdev => exact .capiRecvMessageLoop _ sound d

theorem Shadows.capiRead (sound : Sound env m.driver) (d count : Nat) :
    Shadows env m ((m.capiRead env d count).map (·.1)) ((Capi.capiRead env.capi m.driver d count).map (·.1)) := by
  unfold Mounted.capiRead Capi.capiRead
  cases dev : m.driver.devs d with
  | none => exact .none
  | some cdev =>
    simp only [Option.bind_eq_bind, Option.bind_some]
    split
    · exact .refl m
    have fetch : Shadows env m (if cdev.recvqueue = [] then m.capiRecvMessage env d else some m)
        (if cdev.recvqueue = [] then Capi.capiRecvMessage env.capi m.driver d else some m.driver) := by
      split
      · exact .capiRecvMessage sound d
      · exact .refl m
    rw [Option.map_bind, Option.map_bind]
    refine fetch.bind fun m₁ _ => ?_
    simp only [Function.comp_apply]
    cases dev₁ : m₁.driver.devs d with
    | none => exact .none
    | some cdev₁ =>
      simp only [Option.bind_some]
      cases cdev₁.recvqueue with
      | nil => exact .refl m₁
      | cons skb recvqueue =>
        simp only
        split
        · exact .refl m₁
        split
        · exact .aside (.of_minors rfl)
        · exact .aside (.of_minors rfl)

theorem Shadows.capiPoll (sound : Sound env m.driver) (d : Nat) :
    Shadows env m ((m.capiPoll env d).map (·.1)) ((Capi.capiPoll env.capi m.driver d).map (·.1)) := by
  unfold Mounted.capiPoll Capi.capiPoll
  cases dev : m.driver.devs d with
  | none => exact .none
  | some cdev =>
    simp only [Option.bind_eq_bind, Option.bind_some]
    split
    · exact .refl m
    rw [Option.map_bind, Option.map_bind]
    refine (Shadows.capiRecvMessage sound d).bind fun m₁ _ => ?_
    simp only [Function.comp_apply]
    cases dev₁ : m₁.driver.devs d with
    | none => exact .none
    | some cdev₁ => exact .refl m₁

theorem Shadows.capiWrite (sound : Sound env m.driver) (d : Nat) (buf : Bytes) :
    Shadows env m ((m.capiWrite env d buf).map (·.1)) ((Capi.capiWrite env.capi m.driver d buf).map (·.1)) := by
  unfold Mounted.capiWrite Capi.capiWrite
  cases dev : m.driver.devs d with
  | none => exact .none
  | some cdev =>
    simp only [Option.bind_eq_bind, Option.bind_some]
    split
    · exact .refl m
    split
    · exact .aside (.of_minors rfl)
    split
    · exact .aside (.of_minors rfl)
    have free := Shadows.capincciFree (m := ⟨m.driver.asked, m.fs⟩) sound.wired.asked sound.below d
    -- the length of the message, with the data it claims
    generalize (if Skb.cmd _ = CAPI_DATA_B3_REQ then _ else _ : Nat) = mlen
    split
    · exact .aside (.of_minors rfl)
    rw [Option.map_bind, Option.map_bind]
    refine .before m.driver.asked (.of_minors rfl) (Shadows.bind ?_ fun m₁ _ => ?_)
    · split
      · exact free _
      · exact .refl _
    · simp only [Function.comp_apply]
      generalize Skb.data _ = data
      have frame := putCapiMessage_minors m₁.driver d data (env.capi.put m.driver.tick)
      generalize putCapiMessage m₁.driver d data (env.capi.put m.driver.tick) = sent at frame ⊢
      refine .before sent (.of_minors frame.2) ?_
      cases dev₁ : sent.devs d with
      | none => exact .none
      | some cdev₁ => exact .aside (.of_minors rfl)

end Files

/-! ## Ttys -/

section Ttys

variable {env : Env} {s s' : Driver} {tty : Nat}

/-- An open of a terminal links nothing. -/
theorem ttyOpen_sameLinked (run : ttyOpen env s tty = some s') : SameLinked s s' := by
  obtain ⟨⟨s₁, result⟩, opened, counted⟩ := Option.map_eq_some_iff.1 run
  have same : SameLinked s s₁ := by
    obtain ⟨found, -, opened⟩ := Option.bind_eq_some_iff.1 opened
    cases found with
    | none =>
      cases opened
      exact .refl s
    | some p =>
      obtain ⟨mp, live, opened⟩ := Option.bind_eq_some_iff.1 opened
      split at opened
      · cases opened
        exact .refl s
      · obtain ⟨s₂, received, opened⟩ := Option.bind_eq_some_iff.1 opened
        cases opened
        have same : SameLinks s (s.setMinor p { mp with
            tty := if mp.ttyopencount = 0 then some tty else mp.tty, ttyopencount := mp.ttyopencount + 1 }) :=
          .setMinor live ⟨rfl, rfl, rfl⟩
        exact (same.retty _ s.opens).sameLinked.trans (handleMinorRecv_through received).sameLinks.sameLinked
  subst counted
  unfold countOpen
  split
  · exact same.trans (.of_minors rfl)
  · exact same

/-- The last close of a tty frees a minor without NCCI. -/
theorem ttyClose_sameLinked (wired : Wired s) (run : ttyClose s tty = some s') : SameLinked s s' := by
  obtain ⟨s₁, closed, rfl⟩ := Option.map_eq_some_iff.1 run
  refine SameLinked.trans ?_ (.of_minors (s := s₁) rfl)
  unfold capincTtyClose at closed
  split at closed
  · cases closed
    exact .refl s
  rename_i p ref
  obtain ⟨mp, live, closed⟩ := Option.bind_eq_some_iff.1 closed
  -- the minor after the close, with or without its tty
  obtain ⟨mp', s₂, closed, live₂, same⟩ : ∃ (mp' : Capiminor) (s₂ : Driver),
      (if ¬ mp'.nccip then capiminorFree s₂ p else some s₂) = some s₁ ∧ s₂.minors p = some mp' ∧ SameLinks s s₂ := by
    by_cases last : mp.ttyopencount - 1 = 0
    · simp only [last, if_true] at closed
      let mp' : Capiminor := { mp with tty := none, ttyopencount := 0 }
      have same : SameLinks s (s.setMinor p mp') := .setMinor live ⟨rfl, rfl, rfl⟩
      exact ⟨mp', _, closed, Function.update_self _ _ _, same.retty _ s.opens⟩
    · simp only [last, if_false] at closed
      let mp' : Capiminor := { mp with ttyopencount := mp.ttyopencount - 1 }
      have same : SameLinks s (s.setMinor p mp') := .setMinor live ⟨rfl, rfl, rfl⟩
      exact ⟨mp', _, closed, Function.update_self _ _ _, same⟩
  split at closed
  · rename_i detached
    have detached : mp'.nccip = false := by simpa using detached
    obtain ⟨free, -⟩ := (wired.same same).freeDetached live₂ detached
    cases closed.symm.trans free
    exact same.sameLinked.trans (.freeDetached live₂ detached)
  · cases closed
    exact same.sameLinked

theorem TtyCall.sameLinked {n : Nat} (call : TtyCall n tty s s') : SameLinked s s' := by
  rcases call with rfl | ⟨p, -, moves⟩
  · exact .refl _
  · exact moves.through.sameLinks.sameLinked

end Ttys

/-! ## Calls -/

section Calls

variable {env : MountedEnv} {m m' : Mounted}

/-- Every call does the same with the directory and without. -/
theorem Shadows.call (sound : Sound env m.driver) (op : Op) :
    Shadows env m (m.call env op) (Capi.step env.capi m.driver op) := by
  cases op with
  | openFile =>
    refine .ofDriver fun driver run => ?_
    cases run
    unfold capidevAlloc
    simp only
    split
    · exact .of_minors rfl
    · exact .of_minors rfl
  | ioctlRegister d info id =>
    refine .ofDriver fun driver run => ?_
    obtain ⟨⟨s₁, result⟩, call, rfl⟩ := Option.map_eq_some_iff.1 run
    obtain ⟨cdev, dev, call⟩ := Option.bind_eq_some_iff.1 call
    split at call
    · cases call
      exact .refl _
    split at call
    · cases call
      exact .of_minors rfl
    · cases call
      exact .of_minors rfl
  | ioctlFlags d set userflags =>
    refine .ofDriver fun driver run => ?_
    obtain ⟨cdev, dev, run⟩ := Option.bind_eq_some_iff.1 run
    cases run
    exact .of_minors rfl
  | enqueue d skb =>
    refine .ofDriver fun driver run => ?_
    obtain ⟨cdev, dev, run⟩ := Option.bind_eq_some_iff.1 run
    cases run
    exact .of_minors rfl
  | signalError d info =>
    refine .ofDriver fun driver run => ?_
    obtain ⟨cdev, dev, run⟩ := Option.bind_eq_some_iff.1 run
    cases run
    exact .of_minors rfl
  | read d count => exact .capiRead sound d count
  | poll d => exact .capiPoll sound d
  | write d buf => exact .capiWrite sound d buf
  | release d => exact .capidevFree sound.wired sound.below d
  | ttyOpen tty => exact .ofDriver fun driver run => ttyOpen_sameLinked run
  | ttyClose tty => exact .ofDriver fun driver run => ttyClose_sameLinked sound.wired run
  | ttyWrite tty fromUser buf =>
    refine .ofDriver fun driver run => ?_
    obtain ⟨⟨s₁, result⟩, call, rfl⟩ := Option.map_eq_some_iff.1 run
    exact (capincTtyWrite_call call).sameLinked
  | ttyPutChar tty ch => exact .ofDriver fun driver run => (capincTtyPutChar_call run 0).sameLinked
  | ttyFlushChars tty => exact .ofDriver fun driver run => (capincTtyFlushChars_call run 0).sameLinked
  | ttyThrottle tty => exact .ofDriver fun driver run => (capincTtyThrottle_call run 0).sameLinked
  | ttyUnthrottle tty => exact .ofDriver fun driver run => (capincTtyUnthrottle_call run 0).sameLinked
  | ttyStop tty => exact .ofDriver fun driver run => (capincTtyStop_call run 0).sameLinked
  | ttyStart tty => exact .ofDriver fun driver run => (capincTtyStart_call run 0).sameLinked

end Calls

/-! ## The directory -/

/-- Every node is the one of its minor. Only a failed lookup leaves a node without its NCCI, and only a failed lookup or
a missing inode leaves an NCCI without its node. -/
structure Directory (env : MountedEnv) (m : Mounted) : Prop where
  below : Below env m.driver
  named : ∀ name inode, m.fs.nodes name = some inode →
    ∃ n, n < env.capi.capiTtyminors ∧ name = decimal n ∧ inode.ino = n + 2 ∧ inode.rdev = (env.capifs.capiTtymajor, n)
  deleted : (∀ t, env.capifs.lookup t = true) → ∀ n, m.fs.nodes (decimal n) ≠ none → LinkedAt m.driver n
  created : (∀ t, env.capifs.lookup t = true) → (∀ t, env.capifs.newInode t = true) →
    ∀ n, LinkedAt m.driver n → m.fs.nodes (decimal n) ≠ none

section Directories

variable {env : MountedEnv} {m m' : Mounted} {fs fs' : Capifs} {n k : Nat} {device : Nat × Nat}

/-- A node is made under its number, or was there, or could not be made. -/
theorem capifsNewNcci_nodes {env : CapifsEnv} (small : n < 256) (made : capifsNewNcci env fs n device = some fs') :
    (fs'.nodes = fs.nodes ∧
        (env.newInode fs.tick = false ∨ env.lookup fs.tick = false ∨ fs.nodes (decimal n) ≠ none)) ∨
      ∃ inode : Inode, inode.ino = n + 2 ∧ inode.rdev = device ∧
        fs'.nodes = Function.update fs.nodes (decimal n) (some inode) := by
  unfold capifsNewNcci at made
  rw [nodeName_small small] at made
  simp only [Option.bind_eq_bind, Option.bind_some] at made
  split at made
  · rename_i failed
    cases made
    exact .inl ⟨rfl, .inl (by simpa using failed)⟩
  split at made
  · cases made
    exact .inr ⟨_, rfl, rfl, rfl⟩
  · rename_i other
    cases made
    refine .inl ⟨rfl, .inr ?_⟩
    cases looked : env.lookup fs.tick with
    | false => exact .inl rfl
    | true => exact .inr fun absent => other ⟨looked, by rw [show fs.asked.nodes = fs.nodes from rfl, absent]; rfl⟩

/-- A node is removed under its number, or could not be looked up. -/
theorem capifsFreeNcci_nodes {env : CapifsEnv} (small : n < 256) (freed : capifsFreeNcci env fs n = some fs') :
    (fs'.nodes = fs.nodes ∧ env.lookup fs.tick = false) ∨ fs'.nodes = Function.update fs.nodes (decimal n) none := by
  unfold capifsFreeNcci at freed
  rw [nodeName_small small] at freed
  simp only [Option.bind_eq_bind, Option.bind_some] at freed
  split at freed
  · cases freed
    exact .inr rfl
  · rename_i failed
    cases freed
    exact .inl ⟨rfl, by simpa using failed⟩

/-- Numbers that differ have names that differ. -/
theorem update_decimal (nodes : Bytes → Option Inode) (entry : Option Inode) (other : k ≠ n) :
    Function.update nodes (decimal n) entry (decimal k) = nodes (decimal k) :=
  Function.update_of_ne (fun same => other (decimal_injective same)) _ _

/-- A move keeps the directory in step with the driver. -/
theorem Directory.move (directory : Directory env m) (move : NodeMove env m m') : Directory env m' := by
  obtain ⟨below, named, deleted, created⟩ := directory
  have below' := below.move move
  cases move with
  | aside same fs =>
    rw [← fs] at named deleted created
    exact ⟨below', named, fun looks k there => (same k).2 (deleted looks k there),
      fun looks makes k there => created looks makes k ((same k).1 there)⟩
  | linked n small absent after made =>
    rcases capifsNewNcci_nodes (Nat.lt_of_lt_of_le small env.capi.ttyminors_range.2) made with
      ⟨same, why⟩ | ⟨inode, ino, rdev, nodes⟩
    · rw [← same] at named deleted created
      refine ⟨below', named, fun looks k there => (after k).2 (.inl (deleted looks k there)),
        fun looks makes k there => ?_⟩
      rcases (after k).1 there with there | rfl
      · exact created looks makes k there
      · rcases why with failed | failed | taken
        · exact absurd (failed.symm.trans (makes _)) Bool.false_ne_true
        · exact absurd (failed.symm.trans (looks _)) Bool.false_ne_true
        · rw [same]
          exact taken
    · refine ⟨below', ?_, ?_, ?_⟩
      · intro name inode' there
        rw [nodes] at there
        by_cases here : name = decimal n
        · subst here
          rw [Function.update_self] at there
          cases there
          exact ⟨n, small, rfl, ino, rdev⟩
        · rw [Function.update_of_ne here] at there
          exact named name inode' there
      · intro looks k there
        by_cases here : k = n
        · exact (after k).2 (.inr here)
        · rw [nodes, update_decimal _ _ here] at there
          exact (after k).2 (.inl (deleted looks k there))
      · intro looks makes k there
        rw [nodes]
        by_cases here : k = n
        · rw [here, Function.update_self]
          exact Option.some_ne_none inode
        · rw [update_decimal _ _ here]
          exact created looks makes k (((after k).1 there).resolve_right here)
  | lost n present after freed =>
    rcases capifsFreeNcci_nodes (Nat.lt_of_lt_of_le (below n present) env.capi.ttyminors_range.2) freed with
      ⟨same, failed⟩ | nodes
    · rw [← same] at named deleted created
      exact ⟨below', named, fun looks => absurd (failed.symm.trans (looks _)) Bool.false_ne_true,
        fun looks makes k there => created looks makes k ((after k).1 there).1⟩
    · refine ⟨below', ?_, ?_, ?_⟩
      · intro name inode there
        rw [nodes] at there
        by_cases here : name = decimal n
        · subst here
          rw [Function.update_self] at there
          cases there
        · rw [Function.update_of_ne here] at there
          exact named name inode there
      · intro looks k there
        by_cases here : k = n
        · rw [here, nodes, Function.update_self] at there
          exact absurd rfl there
        · rw [nodes, update_decimal _ _ here] at there
          exact (after k).2 ⟨deleted looks k there, here⟩
      · intro looks makes k there
        obtain ⟨there, other⟩ := (after k).1 there
        rw [nodes, update_decimal _ _ other]
        exact created looks makes k there

theorem Directory.moves (directory : Directory env m) (moves : NodeMoves env m m') : Directory env m' := by
  induction moves with
  | refl => exact directory
  | tail _ move ih => exact ih.move move

theorem Directory.init (env : MountedEnv) : Directory env .init where
  below n linked := by
    obtain ⟨p, mp, live, -⟩ := linked
    cases live
  named name inode there := by cases there
  deleted _ n there := absurd rfl there
  created _ _ n linked := by
    obtain ⟨p, mp, live, -⟩ := linked
    cases live

/-- One call: the driver takes the step that it takes alone, and the directory stays what it is. -/
theorem Directory.step (wired : Wired m.driver) (directory : Directory env m) (op : MountedOp) :
    (Mounted.step env m op).map Mounted.driver = exec (Capi.step env.capi) m.driver op.toOp.toList ∧
      ∀ m', Mounted.step env m op = some m' → Wired m'.driver ∧ Directory env m' := by
  cases op with
  | call op =>
    have shadows : Shadows env m (m.call env op) (Capi.step env.capi m.driver op) :=
      .call ⟨wired, directory.below⟩ op
    have one : exec (Capi.step env.capi) m.driver [op] = Capi.step env.capi m.driver op :=
      Option.bind_fun_some _
    refine ⟨shadows.driver.trans one.symm, fun m' run => ⟨?_, directory.moves (shadows.moves m' run)⟩⟩
    have alone := shadows.driver
    rw [show m.call env op = some m' from run] at alone
    exact wired.step alone.symm
  | remount config =>
    refine ⟨rfl, fun m' run => ?_⟩
    cases run
    exact ⟨wired, directory.below, directory.named, directory.deleted, directory.created⟩

/-- The driver's run is the one without the file system. -/
theorem Directory.run {ops : List MountedOp} (wired : Wired m.driver) (directory : Directory env m) :
    (exec (Mounted.step env) m ops).map Mounted.driver =
        exec (Capi.step env.capi) m.driver (ops.filterMap MountedOp.toOp) ∧
      ∀ m', exec (Mounted.step env) m ops = some m' → Wired m'.driver ∧ Directory env m' := by
  induction ops generalizing m with
  | nil =>
    refine ⟨rfl, fun m' run => ?_⟩
    cases run
    exact ⟨wired, directory⟩
  | cons op ops ih =>
    obtain ⟨alone, kept⟩ := directory.step wired op
    have calls : (op :: ops).filterMap MountedOp.toOp = op.toOp.toList ++ ops.filterMap MountedOp.toOp := by
      cases op <;> rfl
    rw [calls, exec_append, ← alone, exec]
    cases first : Mounted.step env m op with
    | none => exact ⟨rfl, fun m' run => by cases run⟩
    | some m₁ =>
      obtain ⟨wired₁, directory₁⟩ := kept m₁ first
      exact ih wired₁ directory₁

end Directories

/-! ## What a program sees -/

/-- The tty can be opened, and is then the one of minor `p`. -/
def OpensAt (env : Env) (s : Driver) (n p : Nat) : Prop :=
  ∃ s', capincTtyOpen env s n = some (s', 0) ∧ s'.ttys n = some p

section Programs

variable {env : Env} {s : Driver} {d n p : Nat} {mp : Capiminor}

/-- A linked minor is where its terminal opens. -/
theorem Wired.opensAt (wired : Wired s) (live : s.minors p = some mp) (link : mp.nccip = true) :
    OpensAt env s mp.minor p := by
  obtain ⟨found, search, exact'⟩ := wired.byNumber.capiminorFind mp.minor
  have here : found = some p := (exact' p).2 ⟨mp, live, rfl⟩
  subst here
  let opened : Capiminor :=
    { mp with tty := if mp.ttyopencount = 0 then some mp.minor else mp.tty, ttyopencount := mp.ttyopencount + 1 }
  let s₁ : Driver := { s with ttys := Function.update s.ttys mp.minor (some p) }
  have same : SameLinks s (s.setMinor p opened) := .setMinor live ⟨rfl, rfl, rfl⟩
  have attached : Attached (s₁.setMinor p opened) p :=
    (wired.same (same.retty _ s.opens)).isAttached (Function.update_self _ _ _) link
  obtain ⟨s', received, tame⟩ := handleMinorRecv_tame env attached
  refine ⟨s', ?_, ?_⟩
  · unfold capincTtyOpen
    rw [search]
    simp only [Option.bind_eq_bind, Option.bind_some, live]
    rw [if_neg (not_not_intro link), show handleMinorRecv env (s₁.setMinor p opened) p = some s' from received]
    rfl
  · rw [tame.ttys]
    exact Function.update_self _ _ _

end Programs

/-- With capifs the driver runs as it does without. Every node bears the number of a tty and leads to it. As long as no
lookup fails, a node that is there can be opened, and as long as no inode is missing either, the unit that
CAPI_NCCI_GETUNIT answers names a node whose tty is that of the NCCI. -/
theorem nodes_lead_to_ttys (env : MountedEnv) (ops : List MountedOp) :
    (exec (Mounted.step env) .init ops).map Mounted.driver =
        exec (Capi.step env.capi) .init (ops.filterMap MountedOp.toOp) ∧
      ∀ m, exec (Mounted.step env) .init ops = some m →
        (∀ name inode, m.fs.nodes name = some inode → ∃ n, n < env.capi.capiTtyminors ∧ name = decimal n ∧
            inode.ino = n + 2 ∧ inode.rdev = (env.capifs.capiTtymajor, n)) ∧
          ((∀ t, env.capifs.lookup t = true) → ∀ n, m.fs.nodes (decimal n) ≠ none → ∃ p, OpensAt env.capi m.driver n p) ∧
          ((∀ t, env.capifs.lookup t = true) → (∀ t, env.capifs.newInode t = true) →
            ∀ d cdev ncci p, m.driver.devs d = some cdev → (capincciFind cdev ncci).bind Capincci.minorp = some p →
              ∃ n : Nat, capiNcciGetunit m.driver d ncci = some (n : Int) ∧ m.fs.nodes (decimal n) ≠ none ∧
                OpensAt env.capi m.driver n p) := by
  have run : (exec (Mounted.step env) .init ops).map Mounted.driver =
        exec (Capi.step env.capi) .init (ops.filterMap MountedOp.toOp) ∧
      ∀ m, exec (Mounted.step env) .init ops = some m → Wired m.driver ∧ Directory env m :=
    (Directory.init env).run Wired.init
  obtain ⟨alone, kept⟩ := run
  refine ⟨alone, fun m run => ?_⟩
  obtain ⟨wired, directory⟩ := kept m run
  refine ⟨directory.named, ?_, ?_⟩
  · intro looks n there
    obtain ⟨p, mp, live, link, rfl⟩ := directory.deleted looks n there
    exact ⟨p, wired.opensAt live link⟩
  · intro looks makes d cdev ncci p dev found
    obtain ⟨np, named, own⟩ := Option.bind_eq_some_iff.1 found
    obtain ⟨mp, live, link, -⟩ := wired.owned d cdev np p dev (List.mem_of_find?_eq_some named) own
    refine ⟨mp.minor, ?_, directory.created looks makes mp.minor ⟨p, mp, live, link, rfl⟩, wired.opensAt live link⟩
    unfold capiNcciGetunit
    rw [dev]
    simp only [Option.bind_eq_bind, Option.bind_some, found, live]

/-- A file gets the NCCI 0x101 when its message is read. -/
def connecting : List MountedOp :=
  [.call .openFile, .call (.ioctlFlags 0 true CAPIFLAG_HIGHJACKING), .call (.ioctlRegister 0 .NOERR 1),
    .call (.enqueue 0 { data := messageOf CAPI_CONNECT_B3_IND, tailroom := 0, beyond := fun _ => 0 }),
    .call (.read 0 4096)]

theorem nodes_lead_to_ttys_connecting : ∃ m, ∃ n : Nat, exec (Mounted.step .granting) .init connecting = some m ∧
    capiNcciGetunit m.driver 0 0x101 = some (n : Int) ∧ m.fs.nodes (decimal n) ≠ none ∧ OpensAt .granting m.driver n 0 := by
  obtain ⟨-, each⟩ := nodes_lead_to_ttys .granting connecting
  obtain ⟨-, -, unit⟩ := each _ rfl
  obtain ⟨n, answered, there, opens⟩ := unit (fun _ => rfl) (fun _ => rfl) 0 _ 0x101 0 rfl rfl
  exact ⟨_, n, rfl, answered, there, opens⟩

end Capi4Linux.Capi
