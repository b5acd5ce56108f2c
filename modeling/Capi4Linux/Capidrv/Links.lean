import Mathlib.Data.List.Nodup
import Mathlib.Logic.Function.Basic

/-!
# Channels, calls and connections

The links between the records of a card, without their data. A channel has at
most one call, a call has a list of connections, and a channel has a pointer to
one connection. Calls and connections are added and dropped; a call is dropped
together with its list, and a connection clears the pointer of its channel.
-/

namespace Capi4Linux.Capidrv

/-- `plcip` and `nccip` of every channel, channel and connections of every call, call and channel of every
connection. -/
structure Links where
  plcip : Nat → Option Nat
  nccip : Nat → Option Nat
  plcis : Nat → Option (Nat × List Nat)
  plciNext : Nat
  plciList : List Nat
  nccis : Nat → Option (Nat × Nat)
  ncciNext : Nat
  freed : List Nat

namespace Links

def addPlci (l : Links) (chan : Nat) : Links :=
  { l with
    plcip := Function.update l.plcip chan (some l.plciNext)
    plcis := Function.update l.plcis l.plciNext (some (chan, []))
    plciNext := l.plciNext + 1
    plciList := l.plciNext :: l.plciList }

def dropPlci (l : Links) (p chan : Nat) : Links :=
  { l with
    plcip := Function.update l.plcip chan none
    plcis := Function.update l.plcis p none
    plciList := l.plciList.erase p
    freed := l.freed ++ [p] }

def addNcci (l : Links) (p chan : Nat) (nccis : List Nat) : Links :=
  { l with
    nccip := Function.update l.nccip chan (some l.ncciNext)
    plcis := Function.update l.plcis p (some (chan, l.ncciNext :: nccis))
    nccis := Function.update l.nccis l.ncciNext (some (p, chan))
    ncciNext := l.ncciNext + 1 }

def dropNcci (l : Links) (n p chan : Nat) (nccis : List Nat) : Links :=
  { l with
    nccip := Function.update l.nccip chan none
    plcis := Function.update l.plcis p (some (chan, nccis.erase n))
    nccis := Function.update l.nccis n none }

end Links

/-- Every listed call is live and the call of its channel, and records are numbered from fresh numbers. -/
structure Wired (nbchan : Nat) (l : Links) : Prop where
  nodup : l.plciList.Nodup
  listed : ∀ p, p ∈ l.plciList ↔ l.plcis p ≠ none
  chan : ∀ p c ns, l.plcis p = some (c, ns) → c < nbchan ∧ l.plcip c = some p
  owner : ∀ c p, l.plcip c = some p → ∃ ns, l.plcis p = some (c, ns)
  fresh : ∀ p, l.plciNext ≤ p → l.plcis p = none
  freed : l.freed.Nodup ∧ ∀ p ∈ l.freed, p < l.plciNext ∧ l.plcis p = none
  ncciFresh : ∀ n, l.ncciNext ≤ n → l.nccis n = none
  ncciNodup : ∀ p c ns, l.plcis p = some (c, ns) → ns.Nodup
  ncciListed : ∀ p c ns, l.plcis p = some (c, ns) → ∀ n, n ∈ ns ↔ l.nccis n = some (p, c)
  ncciChan : ∀ n p c c' ns, l.nccis n = some (p, c) → l.plcis p = some (c', ns) → c = c'
  ncciOld : ∀ n p c, l.nccis n = some (p, c) → p < l.plciNext
  nccip : ∀ c n, l.nccip c = some n → ∃ p, l.nccis n = some (p, c)

namespace Wired

variable {nbchan : Nat} {l : Links} {p n chan : Nat} {ns : List Nat}

/-- A live call is in the list. -/
theorem isListed (wired : Wired nbchan l) (live : l.plcis p = some (chan, ns)) : p ∈ l.plciList := by
  rw [wired.listed, live]
  exact Option.some_ne_none _

/-- A live call is not the next one. -/
theorem lt (wired : Wired nbchan l) (live : l.plcis p = some (chan, ns)) : p < l.plciNext := by
  apply Nat.lt_of_not_le
  intro old
  rw [wired.fresh p old] at live
  cases live

/-- A live connection was made before the next. -/
theorem ncci_lt (wired : Wired nbchan l) {e : Nat × Nat} (live : l.nccis n = some e) : n < l.ncciNext := by
  apply Nat.lt_of_not_le
  intro old
  rw [wired.ncciFresh n old] at live
  cases live

/-- A new call on a free channel keeps the links wired. -/
theorem addPlci (wired : Wired nbchan l) (inRange : chan < nbchan) (free : l.plcip chan = none) :
    Wired nbchan (l.addPlci chan) := by
  have unused : l.plcis l.plciNext = none := wired.fresh _ (Nat.le_refl _)
  have other : ∀ q c ms, l.plcis q = some (c, ms) → q ≠ l.plciNext ∧ c ≠ chan := by
    intro q c ms live
    refine ⟨Nat.ne_of_lt (wired.lt live), fun same => ?_⟩
    rw [← same, (wired.chan q c ms live).2] at free
    cases free
  have news : ∀ q c ms, (l.addPlci chan).plcis q = some (c, ms) →
      (q = l.plciNext ∧ c = chan ∧ ms = []) ∨ (l.plcis q = some (c, ms)) := by
    intro q c ms live
    rcases eq_or_ne q l.plciNext with rfl | old
    · simp only [Links.addPlci, Function.update_self, Option.some.injEq, Prod.mk.injEq] at live
      exact .inl ⟨rfl, live.1.symm, live.2.symm⟩
    · simp only [Links.addPlci, Function.update_of_ne old] at live
      exact .inr live
  have olds : ∀ q c ms, l.plcis q = some (c, ms) → (l.addPlci chan).plcis q = some (c, ms) := by
    intro q c ms live
    simp only [Links.addPlci, Function.update_of_ne (other q c ms live).1, live]
  constructor
  · apply List.nodup_cons.mpr
    refine ⟨fun member => ?_, wired.nodup⟩
    exact (wired.listed _).mp member unused
  · intro q
    rcases eq_or_ne q l.plciNext with rfl | old
    · simp [Links.addPlci]
    · simp [Links.addPlci, old, wired.listed]
  · intro q c ms live
    rcases news q c ms live with ⟨rfl, rfl, rfl⟩ | old
    · exact ⟨inRange, Function.update_self _ _ _⟩
    · obtain ⟨lt, owner⟩ := wired.chan q c ms old
      refine ⟨lt, ?_⟩
      simp only [Links.addPlci, Function.update_of_ne (other q c ms old).2, owner]
  · intro c q owner
    rcases eq_or_ne c chan with rfl | elsewhere
    · simp only [Links.addPlci, Function.update_self, Option.some.injEq] at owner
      subst owner
      exact ⟨[], Function.update_self _ _ _⟩
    · simp only [Links.addPlci, Function.update_of_ne elsewhere] at owner
      obtain ⟨ms, live⟩ := wired.owner c q owner
      exact ⟨ms, olds q c ms live⟩
  · intro q beyond
    have old : q ≠ l.plciNext := by
      simp only [Links.addPlci] at beyond
      omega
    simp only [Links.addPlci, Function.update_of_ne old]
    apply wired.fresh
    simp only [Links.addPlci] at beyond
    omega
  · refine ⟨wired.freed.1, fun q member => ?_⟩
    obtain ⟨lt, dead⟩ := wired.freed.2 q member
    refine ⟨Nat.lt_succ_of_lt lt, ?_⟩
    simp only [Links.addPlci, Function.update_of_ne (Nat.ne_of_lt lt), dead]
  · exact wired.ncciFresh
  · intro q c ms live
    rcases news q c ms live with ⟨rfl, rfl, rfl⟩ | old
    · exact List.nodup_nil
    · exact wired.ncciNodup q c ms old
  · intro q c ms live m
    rcases news q c ms live with ⟨rfl, rfl, rfl⟩ | old
    · refine ⟨fun member => absurd member List.not_mem_nil, fun live => ?_⟩
      exact absurd (wired.ncciOld m _ _ live) (Nat.lt_irrefl _)
    · exact wired.ncciListed q c ms old m
  · intro m q c c' ms conn live
    rcases news q c' ms live with ⟨rfl, -, -⟩ | old
    · exact absurd (wired.ncciOld m _ _ conn) (Nat.lt_irrefl _)
    · exact wired.ncciChan m q c c' ms conn old
  · intro m q c conn
    exact Nat.lt_succ_of_lt (wired.ncciOld m q c conn)
  · exact wired.nccip

theorem dropPlci (wired : Wired nbchan l) (live : l.plcis p = some (chan, ns)) : Wired nbchan (l.dropPlci p chan) := by
  have lt := wired.lt live
  have news : ∀ q c ms, (l.dropPlci p chan).plcis q = some (c, ms) → q ≠ p ∧ c ≠ chan ∧ l.plcis q = some (c, ms) := by
    intro q c ms live'
    rcases eq_or_ne q p with rfl | other
    · simp [Links.dropPlci] at live'
    · simp only [Links.dropPlci, Function.update_of_ne other] at live'
      refine ⟨other, fun same => other ?_, live'⟩
      have mine := (wired.chan p chan ns live).2
      have its := (wired.chan q c ms live').2
      rw [same, mine] at its
      exact (Option.some.inj its).symm
  constructor
  · exact wired.nodup.erase p
  · intro q
    rcases eq_or_ne q p with rfl | other
    · simp [Links.dropPlci, wired.nodup.not_mem_erase]
    · simp only [Links.dropPlci, List.mem_erase_of_ne other, Function.update_of_ne other]
      exact wired.listed q
  · intro q c ms live'
    obtain ⟨-, elsewhere, old⟩ := news q c ms live'
    simp only [Links.dropPlci, Function.update_of_ne elsewhere]
    exact wired.chan q c ms old
  · intro c q owner
    rcases eq_or_ne c chan with rfl | elsewhere
    · simp [Links.dropPlci] at owner
    · simp only [Links.dropPlci, Function.update_of_ne elsewhere] at owner
      obtain ⟨ms, old⟩ := wired.owner c q owner
      have other : q ≠ p := by
        intro same
        subst same
        rw [live] at old
        cases old
        exact elsewhere rfl
      refine ⟨ms, ?_⟩
      simp only [Links.dropPlci, Function.update_of_ne other, old]
  · intro q beyond
    have other : q ≠ p := by
      intro same
      subst same
      exact absurd lt (Nat.not_lt_of_le beyond)
    simp only [Links.dropPlci, Function.update_of_ne other]
    exact wired.fresh q beyond
  · constructor
    · apply List.Nodup.append wired.freed.1 (List.nodup_singleton p)
      intro q member last
      obtain rfl := List.mem_singleton.mp last
      rw [(wired.freed.2 q member).2] at live
      cases live
    · intro q member
      rcases List.mem_append.mp member with old | last
      · obtain ⟨lt', dead⟩ := wired.freed.2 q old
        refine ⟨lt', ?_⟩
        rcases eq_or_ne q p with rfl | other
        · exact Function.update_self _ _ _
        · simp only [Links.dropPlci, Function.update_of_ne other, dead]
      · obtain rfl := List.mem_singleton.mp last
        exact ⟨lt, Function.update_self _ _ _⟩
  · exact wired.ncciFresh
  · intro q c ms live'
    exact wired.ncciNodup q c ms (news q c ms live').2.2
  · intro q c ms live'
    exact wired.ncciListed q c ms (news q c ms live').2.2
  · intro m q c c' ms conn live'
    exact wired.ncciChan m q c c' ms conn (news q c' ms live').2.2
  · exact wired.ncciOld
  · exact wired.nccip

/-- A call keeps its channel and gets another list, and the connections of other calls stay. -/
theorem relist (wired : Wired nbchan l) (live : l.plcis p = some (chan, ns)) {l' : Links} {ns' : List Nat}
    (plcis : l'.plcis = Function.update l.plcis p (some (chan, ns')))
    (kept : l'.plcip = l.plcip ∧ l'.plciNext = l.plciNext ∧ l'.plciList = l.plciList ∧ l'.freed = l.freed)
    (nodup : ns'.Nodup) (listed : ∀ m, m ∈ ns' ↔ l'.nccis m = some (p, chan))
    (mine : ∀ m c, l'.nccis m = some (p, c) → c = chan)
    (others : ∀ q ≠ p, ∀ m c, l'.nccis m = some (q, c) ↔ l.nccis m = some (q, c))
    (ncciFresh : ∀ m, l'.ncciNext ≤ m → l'.nccis m = none)
    (nccip : ∀ c m, l'.nccip c = some m → ∃ q, l'.nccis m = some (q, c)) : Wired nbchan l' := by
  obtain ⟨plcip, next, list, freed⟩ := kept
  have calls : ∀ q, l'.plcis q = none ↔ l.plcis q = none := by
    intro q
    rw [plcis]
    rcases eq_or_ne q p with rfl | other
    · rw [Function.update_self, live]
      exact iff_of_false (Option.some_ne_none _) (Option.some_ne_none _)
    · rw [Function.update_of_ne other]
  have news : ∀ q c ms, l'.plcis q = some (c, ms) → (q = p ∧ c = chan ∧ ms = ns') ∨ (q ≠ p ∧ l.plcis q = some (c, ms)) := by
    intro q c ms live'
    rw [plcis] at live'
    rcases eq_or_ne q p with rfl | other
    · simp only [Function.update_self, Option.some.injEq, Prod.mk.injEq] at live'
      exact .inl ⟨rfl, live'.1.symm, live'.2.symm⟩
    · rw [Function.update_of_ne other] at live'
      exact .inr ⟨other, live'⟩
  constructor
  · rw [list]
    exact wired.nodup
  · intro q
    rw [ne_eq, calls q, list]
    exact wired.listed q
  · intro q c ms live'
    rw [plcip]
    rcases news q c ms live' with ⟨rfl, rfl, -⟩ | ⟨-, old⟩
    · exact wired.chan q c ns live
    · exact wired.chan q c ms old
  · intro c q owner
    rw [plcip] at owner
    obtain ⟨ms, old⟩ := wired.owner c q owner
    rw [plcis]
    rcases eq_or_ne q p with rfl | other
    · rw [live] at old
      cases old
      exact ⟨_, Function.update_self _ _ _⟩
    · exact ⟨ms, by rw [Function.update_of_ne other, old]⟩
  · intro q beyond
    rw [calls q]
    exact wired.fresh q (next ▸ beyond)
  · rw [freed]
    refine ⟨wired.freed.1, fun q member => ?_⟩
    rw [calls q, next]
    exact wired.freed.2 q member
  · exact ncciFresh
  · intro q c ms live'
    rcases news q c ms live' with ⟨rfl, rfl, rfl⟩ | ⟨-, old⟩
    · exact nodup
    · exact wired.ncciNodup q c ms old
  · intro q c ms live' m
    rcases news q c ms live' with ⟨rfl, rfl, rfl⟩ | ⟨other, old⟩
    · exact listed m
    · rw [others q other]
      exact wired.ncciListed q c ms old m
  · intro m q c c' ms conn live'
    rcases news q c' ms live' with ⟨rfl, rfl, -⟩ | ⟨other, old⟩
    · exact mine m c conn
    · exact wired.ncciChan m q c c' ms ((others q other m c).mp conn) old
  · intro m q c conn
    rw [next]
    rcases eq_or_ne q p with rfl | other
    · exact wired.lt live
    · exact wired.ncciOld m q c ((others q other m c).mp conn)
  · exact nccip

theorem addNcci (wired : Wired nbchan l) (live : l.plcis p = some (chan, ns)) :
    Wired nbchan (l.addNcci p chan ns) := by
  have unused : l.nccis l.ncciNext = none := wired.ncciFresh _ (Nat.le_refl _)
  have conns : ∀ m q c, (l.addNcci p chan ns).nccis m = some (q, c) ↔
      (m = l.ncciNext ∧ q = p ∧ c = chan) ∨ l.nccis m = some (q, c) := by
    intro m q c
    rcases eq_or_ne m l.ncciNext with rfl | old
    · simp only [Links.addNcci, Function.update_self, Option.some.injEq, Prod.mk.injEq, unused, true_and, reduceCtorEq,
        or_false]
      exact and_congr eq_comm eq_comm
    · simp only [Links.addNcci, Function.update_of_ne old, old, false_and, false_or]
  refine wired.relist live rfl ⟨rfl, rfl, rfl, rfl⟩ ?_ ?_ ?_ ?_ ?_ ?_
  · apply List.nodup_cons.mpr
    refine ⟨fun member => ?_, wired.ncciNodup p chan ns live⟩
    rw [(wired.ncciListed p chan ns live _).mp member] at unused
    cases unused
  · intro m
    rw [List.mem_cons, wired.ncciListed p chan ns live m, conns]
    simp
  · intro m c conn
    rcases (conns m p c).mp conn with ⟨-, -, same⟩ | before
    · exact same
    · exact wired.ncciChan m p c chan ns before live
  · intro q other m c
    rw [conns]
    simp [other]
  · intro m beyond
    have beyond : l.ncciNext + 1 ≤ m := beyond
    have old : m ≠ l.ncciNext := by omega
    simp only [Links.addNcci, Function.update_of_ne old]
    apply wired.ncciFresh
    omega
  · intro c m pointer
    rcases eq_or_ne c chan with rfl | elsewhere
    · simp only [Links.addNcci, Function.update_self, Option.some.injEq] at pointer
      subst pointer
      exact ⟨p, Function.update_self _ _ _⟩
    · simp only [Links.addNcci, Function.update_of_ne elsewhere] at pointer
      obtain ⟨q, conn⟩ := wired.nccip c m pointer
      exact ⟨q, (conns m q c).mpr (.inr conn)⟩

theorem dropNcci (wired : Wired nbchan l) (live : l.plcis p = some (chan, ns)) (conn : l.nccis n = some (p, chan)) :
    Wired nbchan (l.dropNcci n p chan ns) := by
  have conns : ∀ m q c, (l.dropNcci n p chan ns).nccis m = some (q, c) ↔ m ≠ n ∧ l.nccis m = some (q, c) := by
    intro m q c
    rcases eq_or_ne m n with rfl | other
    · simp [Links.dropNcci]
    · simp only [Links.dropNcci, Function.update_of_ne other, ne_eq, other, not_false_eq_true, true_and]
  refine wired.relist live rfl ⟨rfl, rfl, rfl, rfl⟩ ((wired.ncciNodup p chan ns live).erase n) ?_ ?_ ?_ ?_ ?_
  · intro m
    rw [conns, (wired.ncciNodup p chan ns live).mem_erase_iff, wired.ncciListed p chan ns live m]
  · intro m c conn'
    exact wired.ncciChan m p c chan ns ((conns m p c).mp conn').2 live
  · intro q other m c
    rw [conns]
    refine and_iff_right_of_imp fun conn' same => other ?_
    rw [same, conn] at conn'
    cases conn'
    rfl
  · intro m beyond
    rcases eq_or_ne m n with rfl | other
    · exact Function.update_self _ _ _
    · simp only [Links.dropNcci, Function.update_of_ne other]
      exact wired.ncciFresh m beyond
  · intro c m pointer
    rcases eq_or_ne c chan with rfl | elsewhere
    · simp [Links.dropNcci] at pointer
    · simp only [Links.dropNcci, Function.update_of_ne elsewhere] at pointer
      obtain ⟨q, conn'⟩ := wired.nccip c m pointer
      refine ⟨q, (conns m q c).mpr ⟨fun same => elsewhere ?_, conn'⟩⟩
      rw [same, conn] at conn'
      cases conn'
      rfl

end Wired

/-- Calls on free channels and connections are added, none is dropped. -/
inductive Grows (nbchan : Nat) : Links → Links → Prop where
  | same (l : Links) : Grows nbchan l l
  | call {l l' : Links} {chan : Nat} (inRange : chan < nbchan) (free : l.plcip chan = none)
      (rest : Grows nbchan (l.addPlci chan) l') : Grows nbchan l l'
  | conn {l l' : Links} {p chan : Nat} {ns : List Nat} (live : l.plcis p = some (chan, ns))
      (rest : Grows nbchan (l.addNcci p chan ns) l') : Grows nbchan l l'

section Grows

variable {nbchan : Nat} {l l' l'' : Links}

/-- Links that do not change grow by nothing. -/
theorem Grows.of_eq (eq : l' = l) : Grows nbchan l l' := by
  subst eq
  exact .same l'

theorem Grows.trans (grows : Grows nbchan l l') (grows' : Grows nbchan l' l'') : Grows nbchan l l'' := by
  induction grows with
  | same => exact grows'
  | call inRange free _ ih => exact .call inRange free (ih grows')
  | conn live _ ih => exact .conn live (ih grows')

theorem Wired.grows (wired : Wired nbchan l) (grows : Grows nbchan l l') : Wired nbchan l' := by
  induction grows with
  | same => exact wired
  | call inRange free _ ih => exact ih (wired.addPlci inRange free)
  | conn live _ ih => exact ih (wired.addNcci live)

/-- A call is still on its channel, and a new one is on a channel that was free. -/
structure Extends (l l' : Links) : Prop where
  freed : l'.freed = l.freed
  kept : ∀ p c ns, l.plcis p = some (c, ns) → ∃ ns', l'.plcis p = some (c, ns')
  channels : ∀ c p, l.plcip c = some p → l'.plcip c = some p
  news : ∀ p c ns, l'.plcis p = some (c, ns) → l.plcis p = none → l.plcip c = none

/-- Links that grow keep what was there. -/
theorem Grows.extends (wired : Wired nbchan l) (grows : Grows nbchan l l') : Extends l l' := by
  induction grows with
  | same =>
    refine ⟨rfl, fun p c ns live => ⟨ns, live⟩, fun c p owner => owner, fun p c ns live new => ?_⟩
    cases live.symm.trans new
  | @call l l' chan inRange free _ ih =>
    obtain ⟨freed, kept, channels, news⟩ := ih (wired.addPlci inRange free)
    have elsewhere : ∀ c p, l.plcip c = some p → (l.addPlci chan).plcip c = some p := by
      intro c p owner
      have other : c ≠ chan := by
        rintro rfl
        cases owner.symm.trans free
      simp only [Links.addPlci, Function.update_of_ne other, owner]
    constructor
    · exact freed
    · intro p c ns live
      apply kept p c ns
      have old : p ≠ l.plciNext := Nat.ne_of_lt (wired.lt live)
      simp only [Links.addPlci, Function.update_of_ne old, live]
    · intro c p owner
      exact channels c p (elsewhere c p owner)
    · intro p c ns live new
      rcases eq_or_ne p l.plciNext with rfl | old
      · obtain ⟨ns', same⟩ := kept l.plciNext chan [] (Function.update_self _ _ _)
        cases live.symm.trans same
        exact free
      · have unused : (l.addPlci chan).plcis p = none := by
          simp only [Links.addPlci, Function.update_of_ne old, new]
        have vacant := news p c ns live unused
        cases owner : l.plcip c with
        | none => rfl
        | some q => cases (elsewhere c q owner).symm.trans vacant
  | @conn l l' p chan ns live _ ih =>
    obtain ⟨freed, kept, channels, news⟩ := ih (wired.addNcci live)
    constructor
    · exact freed
    · intro q c ms call
      rcases eq_or_ne q p with rfl | other
      · cases call.symm.trans live
        exact kept q chan _ (Function.update_self _ _ _)
      · apply kept q c ms
        simp only [Links.addNcci, Function.update_of_ne other, call]
    · exact channels
    · intro q c ms call new
      apply news q c ms call
      have other : q ≠ p := by
        rintro rfl
        cases live.symm.trans new
      simp only [Links.addNcci, Function.update_of_ne other, new]

end Grows

end Capi4Linux.Capidrv
