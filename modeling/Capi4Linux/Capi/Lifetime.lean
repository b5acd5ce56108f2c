import Capi4Linux.Capi.Records

/-!
# Lifetime of tty minors

A minor is shared by its NCCI and its tty. It should be freed once, when both
let go of it. `capinc_tty_close` frees it without looking at `ttyopencount`
when the NCCI is gone: a tty opened several times then still refers to it.
-/

namespace Capi4Linux.Capi
open Bytes Capicore Machine

/-- What decides the life of a minor. -/
inductive MinorOp where
  | capincciAlloc (d : Nat) (ncci : UInt32)
  | capincciFree (d : Nat) (ncci : UInt32)
  | ttyOpen (tty : Nat)
  | ttyClose (tty : Nat)

def minorStep (env : Env) (s : Driver) : MinorOp → Option Driver
  | .capincciAlloc d ncci => capincciAlloc env s d ncci
  | .capincciFree d ncci => capincciFree s d ncci
  | .ttyOpen tty => ttyOpen env s tty
  | .ttyClose tty => ttyClose s tty

/-- Files exist, and a close takes back an open that succeeded. -/
def MinorOp.Allowed (s : Driver) : MinorOp → Prop
  | .capincciAlloc d _ | .capincciFree d _ => s.devs d ≠ none
  | .ttyOpen _ => True
  | .ttyClose tty => 0 < s.opens tty

/-- Files with CAPIFLAG_HIGHJACKING and without NCCIs; no minors yet. -/
structure Ready (s : Driver) : Prop where
  files : ∀ d cdev, s.devs d = some cdev → cdev.userflags &&& CAPIFLAG_HIGHJACKING ≠ 0 ∧ cdev.nccis = []
  freshDev : ∀ d, s.devNext ≤ d → s.devs d = none
  minors : ∀ p, s.minors p = none
  capiminorList : s.capiminorList = []
  ttys : ∀ tty, s.ttys tty = none
  opens : ∀ tty, s.opens tty = 0
  freed : s.freed = []

/-- Minors were freed once, when not open; none that a tty refers to; and those are left whose NCCI
exists or whose tty is open. -/
structure Lifetime (s : Driver) : Prop where
  once : (s.freed.map Prod.fst).Nodup
  idle : ∀ e ∈ s.freed, e.2 ≤ 0
  gone : ∀ e ∈ s.freed, s.minors e.1 = none
  referenced : ∀ tty p, s.ttys tty = some p → s.minors p ≠ none
  reclaimed : ∀ p, s.minors p ≠ none →
    (∃ d cdev np, s.devs d = some cdev ∧ np ∈ cdev.nccis ∧ np.minorp = some p) ∨
      ∃ tty, s.ttys tty = some p ∧ 0 < s.opens tty

/-- A close of a tty whose NCCI is gone is its last. -/
def ClosesLast (s : Driver) : MinorOp → Prop
  | .ttyClose tty => ∀ p mp, s.ttys tty = some p → s.minors p = some mp → mp.nccip = false → mp.ttyopencount ≤ 1
  | _ => True

/-- Ttys and minors refer to each other, and count the same opens. -/
structure Held (s : Driver) : Prop where
  refs : ∀ tty p, s.ttys tty = some p →
    ∃ mp, s.minors p = some mp ∧ mp.tty = some tty ∧ mp.minor = tty ∧ mp.ttyopencount = s.opens tty ∧ 0 < s.opens tty
  back : ∀ p mp tty, s.minors p = some mp → mp.tty = some tty → s.ttys tty = some p
  closed : ∀ p mp, s.minors p = some mp → mp.tty = none → mp.ttyopencount = 0 ∧ mp.nccip = true
  shut : ∀ tty, s.ttys tty = none → s.opens tty = 0
  gone : ∀ e ∈ s.freed, e.2 = 0 ∧ s.minors e.1 = none ∧ e.1 < s.minorNext
  once : (s.freed.map Prod.fst).Nodup

/-- A driver that is ready is wired. -/
theorem Ready.wired {s : Driver} (ready : Ready s) : Wired s where
  listed p := by simp [ready.capiminorList, ready.minors]
  sorted := by rw [ready.capiminorList]; exact List.Pairwise.nil
  owned d cdev np p dev mem := by rw [(ready.files d cdev dev).2] at mem; cases mem
  attached p mp live := by rw [ready.minors] at live; cases live
  distinct d cdev dev := by rw [(ready.files d cdev dev).2]; exact List.Pairwise.nil
  fresh p _ := ready.minors p
  freshDev := ready.freshDev

/-- No minor of it is held. -/
theorem Ready.held {s : Driver} (ready : Ready s) : Held s where
  refs tty p ref := by rw [ready.ttys] at ref; cases ref
  back p mp tty live := by rw [ready.minors] at live; cases live
  closed p mp live := by rw [ready.minors] at live; cases live
  shut tty _ := ready.opens tty
  gone e mem := by rw [ready.freed] at mem; cases mem
  once := by rw [ready.freed]; exact List.Pairwise.nil

/-- What is held lives as long as it should. -/
theorem Held.lifetime {s : Driver} (wired : Wired s) (held : Held s) : Lifetime s where
  once := held.once
  idle e mem := (held.gone e mem).1.le
  gone e mem := (held.gone e mem).2.1
  referenced tty p ref := by
    obtain ⟨mp, live, -⟩ := held.refs tty p ref
    simp [live]
  reclaimed p live := by
    obtain ⟨mp, live⟩ := Option.ne_none_iff_exists'.mp live
    cases tty : mp.tty with
    | none =>
      obtain ⟨cdev, np, dev, mem, own⟩ := wired.attached p mp live (held.closed p mp live tty).2
      exact .inl ⟨mp.ap, cdev, np, dev, mem, own⟩
    | some tty' =>
      have ref := held.back p mp tty' live tty
      obtain ⟨-, -, -, -, -, opened⟩ := held.refs tty' p ref
      exact .inr ⟨tty', ref, opened⟩

/-- `mp'` is held by the tty that holds `mp`. -/
def SameHolder (mp mp' : Capiminor) : Prop :=
  mp'.minor = mp.minor ∧ mp'.tty = mp.tty ∧ mp'.ttyopencount = mp.ttyopencount ∧ (mp.tty = none → mp'.nccip = mp.nccip)

/-- Each minor stays with its tty. -/
theorem Held.congr {s s' : Driver} (held : Held s) (ttys : s'.ttys = s.ttys) (opens : s'.opens = s.opens)
    (freed : s'.freed = s.freed) (next : s.minorNext ≤ s'.minorNext)
    (minors : ∀ p, Option.Rel SameHolder (s.minors p) (s'.minors p)) : Held s' := by
  have after {p : Nat} {mp : Capiminor} (live : s.minors p = some mp) :
      ∃ mp', s'.minors p = some mp' ∧ SameHolder mp mp' := by
    have same := minors p
    rw [live] at same
    generalize s'.minors p = o at same ⊢
    cases same with
    | some same => exact ⟨_, rfl, same⟩
  have before {p : Nat} {mp' : Capiminor} (live : s'.minors p = some mp') :
      ∃ mp, s.minors p = some mp ∧ SameHolder mp mp' := by
    have same := minors p
    rw [live] at same
    generalize s.minors p = o at same ⊢
    cases same with
    | some same => exact ⟨_, rfl, same⟩
  refine ⟨fun tty p ref => ?_, fun p mp tty live own => ?_, fun p mp live own => ?_, ?_, fun e mem => ?_, ?_⟩
  · rw [ttys] at ref
    obtain ⟨mp, live, own, number, count, opened⟩ := held.refs tty p ref
    obtain ⟨mp', live', number', tty', count', -⟩ := after live
    exact ⟨mp', live', tty'.trans own, number'.trans number, by rw [count', count, opens], by rwa [opens]⟩
  · obtain ⟨mq, live', -, tty', -⟩ := before live
    rw [ttys]
    exact held.back p mq tty live' (tty'.symm.trans own)
  · obtain ⟨mq, live', -, tty', count, nccip⟩ := before live
    have closed := tty'.symm.trans own
    obtain ⟨zero, link⟩ := held.closed p mq live' closed
    exact ⟨count.trans zero, (nccip closed).trans link⟩
  · rw [ttys, opens]; exact held.shut
  · rw [freed] at mem
    obtain ⟨idle, absent, aged⟩ := held.gone e mem
    have same := minors e.1
    rw [absent] at same
    refine ⟨idle, ?_, aged.trans_le next⟩
    generalize s'.minors e.1 = o at same ⊢
    cases same with
    | none => rfl
  · rw [freed]; exact held.once

/-- A minor has the holder it has. -/
theorem sameHolder_self (o : Option Capiminor) : Option.Rel SameHolder o o := by
  cases o with
  | none => exact .none
  | some mp => exact .some ⟨rfl, rfl, rfl, fun _ => rfl⟩

/-- A tame change lets go of no minor. -/
theorem Held.tame {s s' : Driver} (held : Held s) (tame : Tame s s') : Held s' := by
  apply held.congr tame.ttys tame.opens tame.freed tame.minorNext.ge
  intro p
  cases live : s.minors p with
  | none =>
    have same := tame.minors p
    rw [live, Option.map_none, Option.map_eq_none_iff] at same
    rw [same]
    exact .none
  | some mp =>
    obtain ⟨mp', live', links⟩ := tame.minor live
    obtain ⟨nccip, number, -, tty, count⟩ := links_eq links
    rw [live']
    exact .some ⟨number, tty, count, fun _ => nccip⟩

/-- A new NCCI takes a minor of its own. -/
theorem Held.newNcci {s s' : Driver} {d : Nat} {cdev : Capidev} {np : Capincci} (wired : Wired s) (held : Held s)
    (new : NewNcci s s' d cdev np) : Held s' := by
  have aged : ∀ e ∈ s.freed, e.1 < s'.minorNext := fun e mem => (held.gone e mem).2.2.trans_le new.minorNext
  rcases new.minor with ⟨-, minors, -⟩ | ⟨n, mp, -, -, minors, links, -, -⟩
  · apply held.congr new.ttys new.opens new.freed new.minorNext
    intro p
    rw [minors]
    exact sameHolder_self _
  · obtain ⟨link, -, -, closed, zero⟩ : mp.nccip = true ∧ mp.minor = n ∧ mp.ap = d ∧ mp.tty = none ∧
        mp.ttyopencount = 0 := by simpa [Capiminor.links] using links
    have unborn := wired.fresh s.minorNext (Nat.le_refl _)
    have newborn : s'.minors s.minorNext = some mp := by rw [minors, Function.update_self]
    have others {p : Nat} (other : p ≠ s.minorNext) : s'.minors p = s.minors p := by
      rw [minors, Function.update_of_ne other]
    refine ⟨fun tty p ref => ?_, fun p mq tty live own => ?_, fun p mq live own => ?_, ?_, fun e mem => ?_, ?_⟩
    · rw [new.ttys] at ref
      obtain ⟨mq, live, facts⟩ := held.refs tty p ref
      have other : p ≠ s.minorNext := by
        rintro rfl
        rw [unborn] at live
        cases live
      exact ⟨mq, (others other).trans live, by rw [new.opens]; exact facts⟩
    · by_cases eq : p = s.minorNext
      · subst eq
        obtain rfl := Option.some.inj (newborn.symm.trans live)
        rw [closed] at own
        cases own
      · rw [new.ttys]
        exact held.back p mq tty ((others eq) ▸ live) own
    · by_cases eq : p = s.minorNext
      · subst eq
        obtain rfl := Option.some.inj (newborn.symm.trans live)
        exact ⟨zero, link⟩
      · exact held.closed p mq ((others eq) ▸ live) own
    · rw [new.ttys, new.opens]; exact held.shut
    · rw [new.freed] at mem
      obtain ⟨idle, absent, old⟩ := held.gone e mem
      exact ⟨idle, (others (Nat.ne_of_lt old)).trans absent, aged e mem⟩
    · rw [new.freed]; exact held.once

/-- A live minor was made before the next. -/
theorem Wired.aged {s : Driver} (wired : Wired s) {p : Nat} {mp : Capiminor} (live : s.minors p = some mp) :
    p < s.minorNext := by
  by_contra beyond
  have absent := wired.fresh p (Nat.le_of_not_lt beyond)
  rw [live] at absent
  cases absent

/-- A live minor was not freed before. -/
theorem Held.once_more {s : Driver} (held : Held s) {p : Nat} {mp : Capiminor} (live : s.minors p = some mp)
    (count : Int) : ((s.freed ++ [(p, count)]).map Prod.fst).Nodup := by
  rw [List.map_append, List.nodup_append]
  refine ⟨held.once, List.nodup_singleton _, ?_⟩
  rintro q mem r last rfl
  obtain ⟨e, mem, same⟩ := List.mem_map.mp mem
  obtain rfl := List.mem_singleton.mp last
  have absent := (held.gone e mem).2.1
  rw [same, live] at absent
  cases absent

/-- A minor that goes away is not open and no tty refers to it. -/
theorem Held.dropped {s s' : Driver} {d : Nat} {cdev : Capidev} {kept rest : List Capincci} {np : Capincci}
    (wired : Wired s) (held : Held s) (drop : Dropped s s' d cdev kept np rest) : Held s' := by
  rcases drop.minor with ⟨-, minors, -, freed⟩ | ⟨p, mp, -, live, ⟨tty, minors, -, freed⟩ | ⟨closed, minors, -, freed⟩⟩
  · apply held.congr drop.ttys drop.opens freed drop.minorNext.ge
    intro p
    rw [minors]
    exact sameHolder_self _
  · apply held.congr drop.ttys drop.opens freed drop.minorNext.ge
    intro q
    rw [minors]
    by_cases eq : q = p
    · subst eq
      rw [Function.update_self, live]
      exact .some ⟨rfl, rfl, rfl, fun closed => absurd closed tty⟩
    · rw [Function.update_of_ne eq]
      exact sameHolder_self _
  · have zero := (held.closed p mp live closed).1
    have others {q : Nat} (other : q ≠ p) : s'.minors q = s.minors q := by rw [minors, Function.update_of_ne other]
    have gone : s'.minors p = none := by rw [minors, Function.update_self]
    have other {q : Nat} {mq : Capiminor} (liveq : s'.minors q = some mq) : q ≠ p := by
      rintro rfl
      cases gone.symm.trans liveq
    refine ⟨fun t q ref => ?_, fun q mq t liveq own => ?_, fun q mq liveq own => ?_, ?_, fun e mem => ?_, ?_⟩
    · rw [drop.ttys] at ref
      obtain ⟨mq, liveq, own, facts⟩ := held.refs t q ref
      have apart : q ≠ p := by
        rintro rfl
        obtain rfl := Option.some.inj (live.symm.trans liveq)
        cases closed.symm.trans own
      rw [drop.opens]
      exact ⟨mq, (others apart).trans liveq, own, facts⟩
    · rw [drop.ttys]
      exact held.back q mq t ((others (other liveq)) ▸ liveq) own
    · exact held.closed q mq ((others (other liveq)) ▸ liveq) own
    · rw [drop.ttys, drop.opens]; exact held.shut
    · rw [freed] at mem
      rcases List.mem_append.mp mem with old | last
      · obtain ⟨idle, absent, aged⟩ := held.gone e old
        refine ⟨idle, ?_, by rwa [drop.minorNext]⟩
        by_cases eq : e.1 = p
        · rw [eq]; exact gone
        · exact (others eq).trans absent
      · obtain rfl := List.mem_singleton.mp last
        exact ⟨zero, gone, by rw [drop.minorNext]; exact wired.aged live⟩
    · rw [freed]; exact held.once_more live _

/-! ## Opens and closes -/

/-- Counting an open or a close is tame. -/
theorem Tame.recount {s s' : Driver} (tame : Tame s s') (tty n : Nat) :
    Tame { s with opens := Function.update s.opens tty n } { s' with opens := Function.update s'.opens tty n } :=
  ⟨tame.minors, tame.devs, tame.capiminorList, tame.ttys, by rw [tame.opens], tame.freed, tame.minorNext,
    tame.devNext, tame.quiet⟩

/-- The minor of a tty number is held by that tty or by none. -/
theorem Held.own_tty {s : Driver} (wired : Wired s) (held : Held s) {p tty : Nat} {mp : Capiminor}
    (live : s.minors p = some mp) (number : mp.minor = tty) :
    (mp.tty = none ∧ mp.ttyopencount = 0 ∧ s.opens tty = 0) ∨
      (mp.tty = some tty ∧ mp.ttyopencount = s.opens tty ∧ 0 < s.opens tty) := by
  cases own : mp.tty with
  | some t =>
    obtain ⟨mq, live', own', number', count, opened⟩ := held.refs t p (held.back p mp t live own)
    obtain rfl := Option.some.inj (live.symm.trans live')
    obtain rfl : t = tty := number'.symm.trans number
    exact .inr ⟨rfl, count, opened⟩
  | none =>
    refine .inl ⟨rfl, (held.closed p mp live own).1, ?_⟩
    cases ref : s.ttys tty with
    | none => exact held.shut tty ref
    | some q =>
      obtain ⟨mq, liveq, own', number', -⟩ := held.refs tty q ref
      obtain rfl := wired.number_inj live liveq (number.trans number'.symm)
      obtain rfl := Option.some.inj (live.symm.trans liveq)
      cases own.symm.trans own'

/-- The tty of a minor is open, now `n` times. -/
theorem Held.reopened {s : Driver} (wired : Wired s) (held : Held s) {p tty : Nat} {mp mp' : Capiminor} {n : Nat}
    (live : s.minors p = some mp) (number : mp.minor = tty) (number' : mp'.minor = tty) (own' : mp'.tty = some tty)
    (count' : mp'.ttyopencount = n) (opened : 0 < n) :
    Held { s.setMinor p mp' with
      ttys := Function.update s.ttys tty (some p), opens := Function.update s.opens tty n } := by
  have here : (s.setMinor p mp').minors p = some mp' := Function.update_self _ _ _
  have others {q : Nat} (other : q ≠ p) : (s.setMinor p mp').minors q = s.minors q := Function.update_of_ne other _ _
  -- the tty that holds `p`, if any, is this one
  have holder {t : Nat} (own : mp.tty = some t) : t = tty := by
    rcases held.own_tty wired live number with ⟨closed, -⟩ | ⟨opened, -⟩
    · cases own.symm.trans closed
    · exact Option.some.inj (own.symm.trans opened)
  refine ⟨fun t q ref => ?_, fun q mq t liveq own => ?_, fun q mq liveq own => ?_, fun t ref => ?_, fun e mem => ?_,
    held.once⟩
  · by_cases eq : t = tty
    · subst eq
      obtain rfl : p = q := by simpa using ref
      refine ⟨mp', here, own', number', ?_⟩
      simp only [Function.update_self]
      exact ⟨count', opened⟩
    · simp only [Function.update_of_ne eq] at ref ⊢
      obtain ⟨mq, liveq, own, facts⟩ := held.refs t q ref
      have apart : q ≠ p := by
        rintro rfl
        obtain rfl := Option.some.inj (live.symm.trans liveq)
        exact eq (holder own)
      exact ⟨mq, (others apart).trans liveq, own, facts⟩
  · by_cases eq : q = p
    · subst eq
      obtain rfl := Option.some.inj (here.symm.trans liveq)
      obtain rfl := Option.some.inj (own'.symm.trans own)
      exact Function.update_self _ _ _
    · have ref := held.back q mq t ((others eq) ▸ liveq) own
      have apart : t ≠ tty := by
        rintro rfl
        obtain ⟨mr, liver, -, numberr, -⟩ := held.refs t q ref
        exact eq (wired.number_inj liver live (numberr.trans number.symm))
      exact (Function.update_of_ne apart _ _).trans ref
  · by_cases eq : q = p
    · subst eq
      obtain rfl := Option.some.inj (here.symm.trans liveq)
      cases own'.symm.trans own
    · exact held.closed q mq ((others eq) ▸ liveq) own
  · by_cases eq : t = tty
    · subst eq
      cases (Function.update_self t (some p) s.ttys).symm.trans ref
    · exact (Function.update_of_ne eq _ _).trans (held.shut t ((Function.update_of_ne eq _ _).symm.trans ref))
  · obtain ⟨idle, absent, aged⟩ := held.gone e mem
    have other : e.1 ≠ p := by
      rintro eq
      rw [eq, live] at absent
      cases absent
    exact ⟨idle, (others other).trans absent, aged⟩

theorem Held.ttyOpen {s : Driver} (wired : Wired s) (held : Held s) (env : Env) (tty : Nat) :
    ∃ s', ttyOpen env s tty = some s' ∧ Wired s' ∧ Held s' := by
  obtain ⟨found, find, facts⟩ := wired.capiminorFind tty
  have refused : countOpen tty (s, - ENXIO) = s := by simp [countOpen, ENXIO]
  cases found with
  | none => exact ⟨s, by simp [Capi.ttyOpen, capincTtyOpen, find, refused], wired, held⟩
  | some p =>
    obtain ⟨mp, live, number⟩ := facts p rfl
    by_cases link : mp.nccip = true
    case neg => exact ⟨s, by simp [Capi.ttyOpen, capincTtyOpen, find, live, link, refused], wired, held⟩
    let mp' : Capiminor :=
      { mp with tty := if mp.ttyopencount = 0 then some tty else mp.tty, ttyopencount := mp.ttyopencount + 1 }
    let s₁ : Driver := { s with ttys := Function.update s.ttys tty (some p) }.setMinor p mp'
    obtain ⟨own, count⟩ : mp'.tty = some tty ∧ mp'.ttyopencount = (s.opens tty + 1 : Nat) := by
      rcases held.own_tty wired live number with ⟨closed, zero, shut⟩ | ⟨opened, count, positive⟩
      · exact ⟨by simp [mp', zero], by simp [mp', zero, shut]⟩
      · exact ⟨by simp [mp', opened], by simp [mp', count]⟩
    obtain ⟨mq, cdev, liveq, linkq, dev⟩ := wired.isAttached live link
    obtain rfl := Option.some.inj (live.symm.trans liveq)
    have attached : Attached s₁ p := ⟨mp', cdev, Function.update_self _ _ _, link, dev⟩
    obtain ⟨s₂, recv, tame⟩ := handleMinorRecv_tame env attached
    have same : SameLinks s (s.setMinor p mp') := .setMinor live ⟨rfl, rfl, rfl⟩
    have counted := tame.recount tty (s.opens tty + 1)
    have opens : s₂.opens = s.opens := tame.opens
    refine ⟨{ s₂ with opens := Function.update s₂.opens tty (s.opens tty + 1) }, ?_, ?_, ?_⟩
    · simp only [Capi.ttyOpen, capincTtyOpen, find, live, Option.bind_eq_bind, Option.bind_some]
      rw [if_neg (not_not_intro link)]
      change ((handleMinorRecv env s₁ p).bind fun s₂ => some (s₂, 0)).map (countOpen tty) = _
      simp [recv, countOpen, opens]
    · exact (wired.same (same.retty _ _)).tame counted
    · exact Held.tame (@Held.reopened s wired held p tty mp mp' _ live number number own count (Nat.succ_pos _)) counted

/-- The last close of a tty, whose minor is kept or freed. -/
theorem Held.lastClose {s s' : Driver} (wired : Wired s) (held : Held s) {p tty : Nat} {mp : Capiminor}
    (ref : s.ttys tty = some p) (live : s.minors p = some mp) (gone : Option Capiminor)
    (ttys : s'.ttys = Function.update s.ttys tty none) (opens : s'.opens = Function.update s.opens tty 0)
    (minors : s'.minors = Function.update s.minors p gone) (minorNext : s'.minorNext = s.minorNext)
    (left : ∀ mq, gone = some mq → mq.tty = none ∧ mq.ttyopencount = 0 ∧ mq.nccip = true)
    (freed : s'.freed = s.freed ∨ (gone = none ∧ s'.freed = s.freed ++ [(p, 0)])) : Held s' := by
  have here : s'.minors p = gone := by rw [minors, Function.update_self]
  have others {q : Nat} (other : q ≠ p) : s'.minors q = s.minors q := by rw [minors, Function.update_of_ne other]
  have idle {q : Nat} {n : Int} (mem : (q, n) ∈ s.freed) : n = 0 ∧ s'.minors q = none ∧ q < s'.minorNext := by
    obtain ⟨zero, absent, aged⟩ := held.gone _ mem
    have other : q ≠ p := by
      rintro rfl
      cases live.symm.trans absent
    exact ⟨zero, (others other).trans absent, minorNext ▸ aged⟩
  refine ⟨fun t q ref' => ?_, fun q mq t liveq own => ?_, fun q mq liveq own => ?_, fun t shut => ?_, ?_, ?_⟩
  · rw [ttys] at ref'
    have other : t ≠ tty := by
      rintro rfl
      cases (Function.update_self t none s.ttys).symm.trans ref'
    rw [Function.update_of_ne other] at ref'
    obtain ⟨mq, liveq, own, facts⟩ := held.refs t q ref'
    obtain ⟨mp', live', own', -⟩ := held.refs tty p ref
    have apart : q ≠ p := by
      rintro rfl
      obtain rfl := Option.some.inj (liveq.symm.trans live')
      exact other (Option.some.inj (own.symm.trans own'))
    rw [opens, Function.update_of_ne other]
    exact ⟨mq, (others apart).trans liveq, own, facts⟩
  · by_cases eq : q = p
    · subst eq
      cases (left mq (here.symm.trans liveq)).1.symm.trans own
    · have ref' := held.back q mq t ((others eq) ▸ liveq) own
      have other : t ≠ tty := by
        rintro rfl
        exact eq (Option.some.inj (ref'.symm.trans ref))
      rw [ttys, Function.update_of_ne other, ref']
  · by_cases eq : q = p
    · subst eq
      exact (left mq (here.symm.trans liveq)).2
    · exact held.closed q mq ((others eq) ▸ liveq) own
  · rw [opens]
    by_cases eq : t = tty
    · subst eq
      exact Function.update_self _ _ _
    · rw [ttys, Function.update_of_ne eq] at shut
      rw [Function.update_of_ne eq, held.shut t shut]
  · rcases freed with freed | ⟨none_left, freed⟩ <;> rw [freed] <;> rintro ⟨q, n⟩ mem
    · exact idle mem
    · rcases List.mem_append.mp mem with old | last
      · exact idle old
      · obtain ⟨rfl, rfl⟩ := Prod.mk.inj (List.mem_singleton.mp last)
        exact ⟨rfl, here.trans none_left, minorNext ▸ wired.aged live⟩
  · rcases freed with freed | ⟨-, freed⟩ <;> rw [freed]
    · exact held.once
    · exact held.once_more live 0

/-- A close that is the last lets go of it. -/
theorem Held.ttyClose {s : Driver} (wired : Wired s) (held : Held s) {tty : Nat} (opened : 0 < s.opens tty)
    (last : ClosesLast s (.ttyClose tty)) : ∃ s', ttyClose s tty = some s' ∧ Wired s' ∧ Held s' := by
  cases ref : s.ttys tty with
  | none =>
    have shut := held.shut tty ref
    omega
  | some p =>
  obtain ⟨mp, live, own, number, count, -⟩ := held.refs tty p ref
  have one_less : mp.ttyopencount - 1 = ((s.opens tty - 1 : Nat) : Int) := by omega
  by_cases single : s.opens tty = 1
  · let mp' : Capiminor := { mp with tty := none, ttyopencount := mp.ttyopencount - 1 }
    have zero : mp.ttyopencount - 1 = 0 := by omega
    have same : SameLinks s (s.setMinor p mp') := .setMinor live ⟨rfl, rfl, rfl⟩
    have opens : Function.update s.opens tty (s.opens tty - 1) = Function.update s.opens tty 0 := by rw [single]
    let s₁ : Driver := { s with ttys := Function.update s.ttys tty none }.setMinor p mp'
    have wired₁ : Wired s₁ := wired.same (same.retty _ _)
    have live₁ : s₁.minors p = some mp' := Function.update_self _ _ _
    by_cases link : mp.nccip = true
    · refine ⟨countClose tty s₁, ?_, wired.same (same.retty _ _), ?_⟩
      · simp only [Capi.ttyClose, capincTtyClose, ref, live, Option.bind_eq_bind, Option.bind_some, zero, if_true]
        rw [if_neg (not_not_intro link)]
        simp only [Option.map_some, s₁, mp', zero]
      · refine held.lastClose wired ref live (some mp') rfl opens rfl rfl ?_ (.inl rfl)
        rintro mq ⟨⟩
        exact ⟨rfl, zero, link⟩
    · have detached : mp.nccip = false := by simpa using link
      obtain ⟨free, wired₂⟩ := wired₁.freeDetached live₁ detached
      refine ⟨countClose tty (s₁.without p mp'), ?_, wired₂.same ((SameLinks.refl _).retty _ _), ?_⟩
      · simp only [Capi.ttyClose, capincTtyClose, ref, live, Option.bind_eq_bind, Option.bind_some, zero, if_true]
        rw [if_pos link]
        simp only [s₁, mp', zero] at free ⊢
        rw [free, Option.map_some]
      · have minors : (countClose tty (s₁.without p mp')).minors = Function.update s.minors p none := by
          simp [countClose, Driver.without, s₁, Driver.setMinor]
        refine held.lastClose wired ref live none rfl opens minors rfl (fun mq eq => by cases eq) (.inr ⟨rfl, ?_⟩)
        simp [countClose, Driver.without, s₁, mp', zero, Driver.setMinor]
  · have more : mp.ttyopencount - 1 ≠ 0 := by omega
    have link : mp.nccip = true := by
      by_contra detached
      have bound := last p mp ref live (by simpa using detached)
      omega
    let mp' : Capiminor := { mp with ttyopencount := mp.ttyopencount - 1 }
    have same : SameLinks s (s.setMinor p mp') := .setMinor live ⟨rfl, rfl, rfl⟩
    refine ⟨countClose tty (s.setMinor p mp'), ?_, wired.same (same.retty _ _), ?_⟩
    · simp only [Capi.ttyClose, capincTtyClose, ref, live, Option.bind_eq_bind, Option.bind_some, more, if_false]
      rw [if_neg (not_not_intro link), Option.map_some]
    · have kept := @Held.reopened s wired held p tty mp mp' (s.opens tty - 1) live number number own one_less (by omega)
      rwa [← ref, Function.update_eq_self] at kept

/-- A close that leaves the tty open frees a minor whose NCCI is gone. -/
theorem Held.earlyClose {s s' : Driver} (held : Held s) {tty : Nat} (early : ¬ ClosesLast s (.ttyClose tty))
    (run : Capi.ttyClose s tty = some s') : ¬ Lifetime s' := by
  simp only [ClosesLast, not_forall, not_le] at early
  obtain ⟨p, mp, ref, live, detached, open_still⟩ := early
  obtain ⟨mq, liveq, own, -, count, -⟩ := held.refs tty p ref
  obtain rfl := Option.some.inj (live.symm.trans liveq)
  have more : mp.ttyopencount - 1 ≠ 0 := by omega
  simp only [Capi.ttyClose, capincTtyClose, ref, live, Option.bind_eq_bind, Option.bind_some, more, if_false, detached,
    Bool.false_eq_true, not_false_eq_true, if_true, capiminorFree, Driver.setMinor, Function.update_self] at run
  split at run
  · obtain rfl := Option.some.inj run
    intro lifetime
    have idle := lifetime.idle (p, mp.ttyopencount - 1) (List.mem_append_right _ (List.mem_singleton_self _))
    simp only at idle
    omega
  · cases run

/-! ## Runs -/

/-- Every step keeps held what is in use. -/
theorem Held.minorStep {s : Driver} (wired : Wired s) (held : Held s) (env : Env) {op : MinorOp} (allowed : op.Allowed s)
    (last : ClosesLast s op) : ∃ s', minorStep env s op = some s' ∧ Wired s' ∧ Held s' := by
  cases op with
  | capincciAlloc d ncci =>
    obtain ⟨cdev, dev⟩ := Option.ne_none_iff_exists'.mp allowed
    obtain ⟨s', run, tame | ⟨np, new⟩⟩ := wired.capincciAlloc env dev ncci
    · exact ⟨s', run, wired.tame tame, held.tame tame⟩
    · exact ⟨s', run, wired.newNcci dev new, held.newNcci wired new⟩
  | capincciFree d ncci =>
    obtain ⟨cdev, dev⟩ := Option.ne_none_iff_exists'.mp allowed
    obtain ⟨s', run, inv, -⟩ := capincciFree_keeps (I := fun s => Wired s ∧ Held s)
      (fun s cdev kept np rest inv => by
        obtain ⟨s', unlink, drop⟩ := inv.1.capincciUnlink
        exact ⟨s', unlink, inv.1.dropped drop, inv.2.dropped inv.1 drop⟩) dev ⟨wired, held⟩ ncci
    exact ⟨s', run, inv⟩
  | ttyOpen tty => exact held.ttyOpen wired env tty
  | ttyClose tty => exact held.ttyClose wired allowed last

/-- Minors live as long as they should exactly when every close of a tty whose NCCI is gone is its last. -/
theorem minors_freed_iff (env : Env) {s : Driver} (ready : Ready s) {ops : List MinorOp}
    (allowed : Meets (minorStep env) MinorOp.Allowed s ops) :
    ((∃ s', exec (minorStep env) s ops = some s') ∧ Always (minorStep env) Lifetime s ops) ↔
      Meets (minorStep env) ClosesLast s ops := by
  refine exec_always_iff_meets (fun s => Wired s ∧ Held s) (fun s inv => inv.2.lifetime inv.1)
    (fun s op inv allowed last => inv.2.minorStep inv.1 env allowed last) ?_ ⟨ready.wired, ready.held⟩ allowed
  intro s op inv _ early s' run
  cases op with
  | ttyClose tty => exact inv.2.earlyClose early run
  | _ => exact absurd trivial early

/-- One file with CAPIFLAG_HIGHJACKING is open. -/
def Driver.oneFile : Driver :=
  { Driver.init.setDev 0
      { ap := { id := 1, info := .NOERR, msgQueue := [] }, errcode := .NOERR, userflags := CAPIFLAG_HIGHJACKING,
        recvqueue := [], nccis := [] } with
    devNext := 1
    capidevList := [0] }

theorem Driver.oneFile_ready : Ready .oneFile where
  files d cdev dev := by
    by_cases eq : d = 0
    · subst eq
      obtain rfl : _ = cdev := by simpa [Driver.oneFile, Driver.setDev] using dev
      exact ⟨by decide, rfl⟩
    · simp [Driver.oneFile, Driver.setDev, Function.update_of_ne eq, Driver.init] at dev
  freshDev d beyond := by
    have other : d ≠ 0 := Nat.ne_of_gt beyond
    simp [Driver.oneFile, Driver.setDev, Function.update_of_ne other, Driver.init]
  minors _ := rfl
  capiminorList := rfl
  ttys _ := rfl
  opens _ := rfl
  freed := rfl

theorem minors_freed_in_order :
    (∃ s', exec (minorStep .granting) .oneFile [.capincciAlloc 0 0x101, .ttyOpen 0, .capincciFree 0 0x101, .ttyClose 0]
        = some s') ∧
      Always (minorStep .granting) Lifetime .oneFile
        [.capincciAlloc 0 0x101, .ttyOpen 0, .capincciFree 0 0x101, .ttyClose 0] := by
  refine (minors_freed_iff .granting Driver.oneFile_ready ?_).mpr ?_
  · refine ⟨nofun, ?_⟩
    rintro _ ⟨⟩
    refine ⟨trivial, ?_⟩
    rintro _ ⟨⟩
    refine ⟨nofun, ?_⟩
    rintro _ ⟨⟩
    refine ⟨Nat.one_pos, ?_⟩
    rintro _ ⟨⟩
    trivial
  · refine ⟨trivial, ?_⟩
    rintro _ ⟨⟩
    refine ⟨trivial, ?_⟩
    rintro _ ⟨⟩
    refine ⟨trivial, ?_⟩
    rintro _ ⟨⟩
    refine ⟨?_, fun _ _ => trivial⟩
    rintro p mp ⟨⟩ ⟨⟩ -
    decide

/-- Two opens, the NCCI goes away, two closes: the first close frees the minor while it is open, the second looks at
the freed minor. -/
theorem minors_freed_early :
    Meets (minorStep .granting) MinorOp.Allowed .oneFile
        [.capincciAlloc 0 0x101, .ttyOpen 0, .ttyOpen 0, .capincciFree 0 0x101, .ttyClose 0, .ttyClose 0] ∧
      ((exec (minorStep .granting) .oneFile
        [.capincciAlloc 0 0x101, .ttyOpen 0, .ttyOpen 0, .capincciFree 0 0x101, .ttyClose 0]).map Driver.freed =
          some [(0, 1)]) ∧
      ¬ ((∃ s', exec (minorStep .granting) .oneFile
            [.capincciAlloc 0 0x101, .ttyOpen 0, .ttyOpen 0, .capincciFree 0 0x101, .ttyClose 0, .ttyClose 0] = some s') ∧
          Always (minorStep .granting) Lifetime .oneFile
            [.capincciAlloc 0 0x101, .ttyOpen 0, .ttyOpen 0, .capincciFree 0 0x101, .ttyClose 0, .ttyClose 0]) := by
  refine ⟨?_, rfl, ?_⟩
  · refine ⟨nofun, ?_⟩
    rintro _ ⟨⟩
    refine ⟨trivial, ?_⟩
    rintro _ ⟨⟩
    refine ⟨trivial, ?_⟩
    rintro _ ⟨⟩
    refine ⟨nofun, ?_⟩
    rintro _ ⟨⟩
    refine ⟨Nat.two_pos, ?_⟩
    rintro _ ⟨⟩
    exact ⟨Nat.one_pos, nofun⟩
  · rintro ⟨⟨s', run⟩, -⟩
    cases run

end Capi4Linux.Capi
