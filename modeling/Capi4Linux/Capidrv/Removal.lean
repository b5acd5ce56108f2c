import Capi4Linux.Capidrv.Controllers
import Capi4Linux.Capidrv.Channels
import Capi4Linux.Capidrv.Connections

/-!
# Taking a card away

`capidrv_delcontr` frees the records of a card channel by channel. It follows
the pointer of a connection to its call, so the call must still be there. A
connection that no channel points to is not found, and stays allocated.
-/

namespace Capi4Linux.Capidrv
open Bytes Capicore Capiutil Machine

/-- The call of a connection that a channel points to is still there. -/
def Anchored (nbchan : Nat) (s : Card) : Prop :=
  ∀ c < nbchan, ∀ n ncci, (s.bchans c).nccip = some n → s.nccis n = some ncci → s.plcis ncci.plcip ≠ none

/-- The same of the links. -/
def Links.Anchored (nbchan : Nat) (l : Links) : Prop :=
  ∀ c < nbchan, ∀ n p c', l.nccip c = some n → l.nccis n = some (p, c') → l.plcis p ≠ none

/-- The calls and the connections of the channels `lo, …, hi - 1` are gone, and the rest is as it was. -/
structure Cleared (lo hi : Nat) (l l' : Links) : Prop where
  plcip : ∀ c, lo ≤ c ∧ c < hi → l'.plcip c = none
  nccip : ∀ c, lo ≤ c ∧ c < hi → l'.nccip c = none
  others : ∀ c, ¬ (lo ≤ c ∧ c < hi) → l'.plcip c = l.plcip c ∧ l'.nccip c = l.nccip c
  calls : ∀ p c, l.plcip c = some p → lo ≤ c ∧ c < hi → l'.plcis p = none
  otherCalls : ∀ p, (∀ c, l.plcip c = some p → ¬ (lo ≤ c ∧ c < hi)) → l'.plcis p = l.plcis p
  conns : ∀ n c, l.nccip c = some n → lo ≤ c ∧ c < hi → l'.nccis n = none
  otherConns : ∀ n, (∀ c, l.nccip c = some n → ¬ (lo ≤ c ∧ c < hi)) → l'.nccis n = l.nccis n
  freed : l'.freed = l.freed ++ (List.range' lo (hi - lo)).reverse.filterMap l.plcip

namespace Cleared

variable {lo mid hi : Nat} {l l' l'' : Links}

/-- No channel at all. -/
theorem refl (l : Links) (lo : Nat) : Cleared lo lo l l where
  plcip := by omega
  nccip := by omega
  others := fun _ _ => ⟨rfl, rfl⟩
  calls := by omega
  otherCalls := fun _ _ => rfl
  conns := by omega
  otherConns := fun _ _ => rfl
  freed := by simp

/-- The upper channels go first. -/
theorem trans (lower : lo ≤ mid) (upper : mid ≤ hi) (h : Cleared mid hi l l') (h' : Cleared lo mid l' l'') :
    Cleared lo hi l l'' := by
  have low : ∀ c, c < mid → l'.plcip c = l.plcip c ∧ l'.nccip c = l.nccip c := fun c lt => h.others c (by omega)
  constructor
  · intro c inRange
    by_cases lt : c < mid
    · exact h'.plcip c ⟨inRange.1, lt⟩
    · rw [(h'.others c (by omega)).1]
      exact h.plcip c (by omega)
  · intro c inRange
    by_cases lt : c < mid
    · exact h'.nccip c ⟨inRange.1, lt⟩
    · rw [(h'.others c (by omega)).2]
      exact h.nccip c (by omega)
  · intro c outside
    obtain ⟨plcip, nccip⟩ := h.others c (by omega)
    obtain ⟨plcip', nccip'⟩ := h'.others c (by omega)
    exact ⟨plcip'.trans plcip, nccip'.trans nccip⟩
  · intro p c owner inRange
    by_cases lt : c < mid
    · exact h'.calls p c ((low c lt).1.trans owner) ⟨inRange.1, lt⟩
    · have gone := h.calls p c owner (by omega)
      by_cases again : ∃ c', l'.plcip c' = some p ∧ lo ≤ c' ∧ c' < mid
      · obtain ⟨c', owner', inRange'⟩ := again
        exact h'.calls p c' owner' inRange'
      · rw [h'.otherCalls p fun c' owner' inRange' => again ⟨c', owner', inRange'⟩]
        exact gone
  · intro p outside
    rw [h'.otherCalls p fun c owner inRange => ?_, h.otherCalls p fun c owner inRange => outside c owner (by omega)]
    exact outside c ((low c inRange.2).1.symm.trans owner) (by omega)
  · intro n c pointer inRange
    by_cases lt : c < mid
    · exact h'.conns n c ((low c lt).2.trans pointer) ⟨inRange.1, lt⟩
    · have gone := h.conns n c pointer (by omega)
      by_cases again : ∃ c', l'.nccip c' = some n ∧ lo ≤ c' ∧ c' < mid
      · obtain ⟨c', pointer', inRange'⟩ := again
        exact h'.conns n c' pointer' inRange'
      · rw [h'.otherConns n fun c' pointer' inRange' => again ⟨c', pointer', inRange'⟩]
        exact gone
  · intro n outside
    rw [h'.otherConns n fun c pointer inRange => ?_, h.otherConns n fun c pointer inRange => outside c pointer (by omega)]
    exact outside c ((low c inRange.2).2.symm.trans pointer) (by omega)
  · have split : List.range' lo (hi - lo) = List.range' lo (mid - lo) ++ List.range' mid (hi - mid) := by
      have glue := List.range'_append_1 (s := lo) (m := mid - lo) (n := hi - mid)
      rw [show lo + (mid - lo) = mid by omega, show mid - lo + (hi - mid) = hi - lo by omega] at glue
      exact glue.symm
    have agree : (List.range' lo (mid - lo)).reverse.filterMap l'.plcip =
        (List.range' lo (mid - lo)).reverse.filterMap l.plcip := by
      apply List.filterMap_congr
      intro c mem
      have bound := List.mem_range'_1.1 (List.mem_reverse.1 mem)
      exact (low c (by omega)).1
    rw [h'.freed, h.freed, agree, split, List.reverse_append, List.filterMap_append, List.append_assoc]

/-- One channel. -/
theorem of_updates {chan : Nat} (plcip : l'.plcip = Function.update l.plcip chan none)
    (nccip : l'.nccip = Function.update l.nccip chan none) (calls : ∀ p, l.plcip chan = some p → l'.plcis p = none)
    (otherCalls : ∀ p, l.plcip chan ≠ some p → l'.plcis p = l.plcis p)
    (conns : ∀ n, l.nccip chan = some n → l'.nccis n = none)
    (otherConns : ∀ n, l.nccip chan ≠ some n → l'.nccis n = l.nccis n)
    (freed : l'.freed = l.freed ++ (l.plcip chan).toList) : Cleared chan (chan + 1) l l' := by
  have here : ∀ c, chan ≤ c ∧ c < chan + 1 ↔ c = chan := fun c => by omega
  constructor
  · simp only [here]
    rintro c rfl
    rw [plcip, Function.update_self]
  · simp only [here]
    rintro c rfl
    rw [nccip, Function.update_self]
  · simp only [here]
    intro c other
    rw [plcip, nccip, Function.update_of_ne other, Function.update_of_ne other]
    exact ⟨rfl, rfl⟩
  · simp only [here]
    rintro p c owner rfl
    exact calls p owner
  · simp only [here]
    exact fun p none => otherCalls p fun owner => none chan owner rfl
  · simp only [here]
    rintro n c pointer rfl
    exact conns n pointer
  · simp only [here]
    exact fun n none => otherConns n fun pointer => none chan pointer rfl
  · rw [freed, show chan + 1 - chan = 1 by omega]
    cases owner : l.plcip chan with
    | none => simp [owner]
    | some p => simp [owner]

end Cleared

section Channel

variable {nbchan chan : Nat} {s s' : Card}

theorem freePlci_eq {p : Nat} {plci : Plci} (live : s.plcis p = some plci) (listed : p ∈ s.plciList) :
    freePlci s p = some { s with
      bchans := Function.update s.bchans plci.chan
        { s.bchans plci.chan with plcip := none, disconnecting := false, incoming := false }
      plciList := s.plciList.erase p
      plcis := Function.update s.plcis p none
      freed := s.freed ++ [p] } := by
  unfold freePlci
  simp only [live, Option.bind_eq_bind, Option.bind_some, if_pos listed]
  rfl

/-- The links after `free_ncci`. -/
theorem freeNcci_links {n : Nat} {ncci : Ncci} {plci : Plci} (live : s.nccis n = some ncci)
    (call : s.plcis ncci.plcip = some plci) (chan : ncci.chan = plci.chan) :
    ∃ t, freeNcci s n = some t ∧ t.links = s.links.dropNcci n ncci.plcip ncci.chan plci.ncciList ∧
      t.status = s.status ∧ t.sent = s.sent := by
  refine ⟨_, freeNcci_eq live call, ?_, rfl, rfl⟩
  unfold Card.links Links.dropNcci
  congr 1
  · funext c
    rcases eq_or_ne c ncci.chan with rfl | other
    · simp only [Function.update_self]
    · simp only [Function.update_of_ne other]
  · funext c
    rcases eq_or_ne c ncci.chan with rfl | other
    · simp only [Function.update_self]
    · simp only [Function.update_of_ne other]
  · funext q
    rcases eq_or_ne q ncci.plcip with rfl | other
    · simp only [Function.update_self, Option.map_some, chan]
    · simp only [Function.update_of_ne other]
  · funext m
    rcases eq_or_ne m n with rfl | other
    · simp only [Function.update_self, Option.map_none]
    · simp only [Function.update_of_ne other]

/-- A channel whose connection is anchored is cleared, without a word to isdn4linux or the capicore. -/
theorem delChannel_some (wired : Wired nbchan s.links)
    (anchored : ∀ n ncci, (s.bchans chan).nccip = some n → s.nccis n = some ncci → s.plcis ncci.plcip ≠ none) :
    ∃ s', delChannel s chan = some s' ∧ Cleared chan (chan + 1) s.links s'.links ∧ Wired nbchan s'.links ∧
      s'.status = s.status ∧ s'.sent = s.sent := by
  -- the call of the channel, after the connection was freed
  have call : ∀ {t : Card}, (t.bchans chan).nccip = none → Wired nbchan t.links →
      ∃ t', freeBchanPlci t chan = some t' ∧ Cleared chan (chan + 1) t.links t'.links ∧ Wired nbchan t'.links ∧
        t'.status = t.status ∧ t'.sent = t.sent := by
    intro t idle wired
    have idle' : t.links.nccip chan = none := idle
    unfold freeBchanPlci
    cases owner : (t.bchans chan).plcip with
    | none =>
      have owner' : t.links.plcip chan = none := owner
      refine ⟨t, rfl, Cleared.of_updates ?_ ?_ ?_ (fun _ _ => rfl) ?_ (fun _ _ => rfl) ?_, wired, rfl, rfl⟩
      · rw [← owner', Function.update_eq_self]
      · rw [← idle', Function.update_eq_self]
      · intro p owner2; rw [owner'] at owner2; cases owner2
      · intro n pointer; rw [idle'] at pointer; cases pointer
      · simp [owner']
    | some p =>
      have owner' : t.links.plcip chan = some p := owner
      obtain ⟨ns, link⟩ := wired.owner chan p owner'
      obtain ⟨plci, live, rfl, rfl⟩ := plcis_of_links link
      have links : (t.dropPlci p plci).links = t.links.dropPlci p plci.chan := links_dropPlci t p plci
      refine ⟨_, freePlci_eq live (wired.listedPlci live), ?_, ?_, rfl, rfl⟩
      · refine Cleared.of_updates (congrArg Links.plcip links) ?_ ?_ ?_ ?_ ?_ ?_
        · refine (congrArg Links.nccip links).trans ?_
          change t.links.nccip = _
          rw [← idle', Function.update_eq_self]
        · intro q owner2
          rw [owner'] at owner2
          cases owner2
          exact (congrFun (congrArg Links.plcis links) p).trans (Function.update_self _ _ _)
        · intro q other
          have ne : q ≠ p := fun same => other (by rw [owner', same])
          exact (congrFun (congrArg Links.plcis links) q).trans (Function.update_of_ne ne _ _)
        · intro n pointer; rw [idle'] at pointer; cases pointer
        · exact fun n _ => congrFun (congrArg Links.nccis links) n
        · refine (congrArg Links.freed links).trans ?_
          rw [owner']
          rfl
      · have kept := wired.dropPlci (links_plcis live)
        rw [← links] at kept
        exact kept
  unfold delChannel freeBchanNcci
  cases pointer : (s.bchans chan).nccip with
  | none =>
    obtain ⟨t', run, rest⟩ := call pointer wired
    exact ⟨t', run, rest⟩
  | some n =>
    have pointer' : s.links.nccip chan = some n := pointer
    obtain ⟨p, link⟩ := wired.nccip chan n pointer'
    obtain ⟨ncci, live, rfl, rfl⟩ := nccis_of_links link
    obtain ⟨plci, there⟩ := Option.ne_none_iff_exists'.1 (anchored n ncci pointer live)
    have same : ncci.chan = plci.chan := wired.ncciChan n _ _ _ _ (links_nccis live) (links_plcis there)
    obtain ⟨t, free, links, status, sent⟩ := freeNcci_links live there same
    have conn : s.links.plcis ncci.plcip = some (ncci.chan, plci.ncciList) := by rw [links_plcis there, same]
    have wired' : Wired nbchan t.links := links ▸ wired.dropNcci conn (links_nccis live)
    have idle : (t.bchans ncci.chan).nccip = none := by
      change t.links.nccip ncci.chan = none
      rw [links]
      exact Function.update_self _ _ _
    obtain ⟨t', run, cleared, wired'', status', sent'⟩ := call idle wired'
    have owner : s.links.plcip ncci.chan = some ncci.plcip := (wired.chan _ _ _ conn).2
    refine ⟨t', ?_, ?_, wired'', status'.trans status, sent'.trans sent⟩
    · simp only [Option.bind_eq_bind, free, Option.bind_some]
      exact run
    · -- the list of the call went with the call
      refine Cleared.of_updates ?_ ?_ ?_ ?_ ?_ ?_ ?_
      · funext c
        rcases eq_or_ne c ncci.chan with rfl | other
        · rw [Function.update_self]
          exact cleared.plcip ncci.chan (by omega)
        · rw [Function.update_of_ne other, (cleared.others c (by omega)).1, links]
          rfl
      · funext c
        rcases eq_or_ne c ncci.chan with rfl | other
        · rw [Function.update_self]
          exact cleared.nccip ncci.chan (by omega)
        · rw [Function.update_of_ne other, (cleared.others c (by omega)).2, links]
          exact Function.update_of_ne other _ _
      · intro q owner'
        exact cleared.calls q ncci.chan (by rw [links]; exact owner') (by omega)
      · intro q other
        have ne : q ≠ ncci.plcip := fun eq => other (by rw [owner, eq])
        rw [cleared.otherCalls q fun c owner' inRange => ?_, links]
        · exact Function.update_of_ne ne _ _
        · rw [links] at owner'
          rw [show c = ncci.chan by omega] at owner'
          exact other owner'
      · intro m pointer''
        rw [pointer'] at pointer''
        cases pointer''
        rw [cleared.otherConns n fun c pointer'' inRange => ?_, links]
        · exact Function.update_self _ _ _
        · rw [show c = ncci.chan by omega] at pointer''
          cases idle.symm.trans pointer''
      · intro m other
        have ne : m ≠ n := fun eq => other (by rw [pointer', eq])
        rw [cleared.otherConns m fun c pointer'' inRange => ?_, links]
        · exact Function.update_of_ne ne _ _
        · rw [show c = ncci.chan by omega] at pointer''
          cases idle.symm.trans pointer''
      · rw [cleared.freed, links, show ncci.chan + 1 - ncci.chan = 1 by omega, owner]
        simp [Links.dropNcci, owner]

/-- A connection whose call is gone leads `free_ncci` to a freed record. -/
theorem delChannel_none {n : Nat} {ncci : Ncci} (pointer : (s.bchans chan).nccip = some n) (live : s.nccis n = some ncci)
    (gone : s.plcis ncci.plcip = none) : delChannel s chan = none := by
  have free : freeNcci s n = none := by
    unfold freeNcci
    simp only [live, gone, Option.bind_eq_bind, Option.bind_some, Option.bind_none]
  unfold delChannel freeBchanNcci
  simp only [pointer, free, Option.bind_eq_bind, Option.bind_none]

end Channel

section Loop

variable {nbchan : Nat} {s : Card}

/-- Some of the channels below `n` has a call. -/
def Busy (s : Card) (n : Nat) : Prop := ∃ c < n, (s.bchans c).plcip ≠ none

instance (s : Card) (n : Nat) : Decidable (Busy s n) :=
  decidable_of_iff (∃ c ∈ List.range n, ((s.bchans c).plcip).isSome) (by simp [Busy, Option.isSome_iff_ne_none])

/-- The channels below `n` are cleared when their connections are anchored; the message about `free_plci` is printed
after each channel above one that has a call. -/
theorem delChannels_some {n : Nat} (small : n ≤ nbchan) : ∀ {s : Card}, Wired nbchan s.links → Anchored n s →
    (∀ c, n ≤ c → (s.bchans c).plcip = none) →
    ∃ s', delChannels n s = some (s', (List.range n).reverse.filter fun c => Busy s c) ∧
      Cleared 0 n s.links s'.links ∧ Wired nbchan s'.links ∧ s'.status = s.status ∧ s'.sent = s.sent := by
  induction n with
  | zero => exact fun {s} wired _ _ => ⟨s, rfl, Cleared.refl _ _, wired, rfl, rfl⟩
  | succ n ih =>
    intro s wired anchored above
    obtain ⟨t, run, cleared, wired', status, sent⟩ := delChannel_some wired (anchored n (by omega))
    have plcip : ∀ c < n, (t.bchans c).plcip = (s.bchans c).plcip := fun c lt => (cleared.others c (by omega)).1
    have nccip : ∀ c < n, (t.bchans c).nccip = (s.bchans c).nccip := fun c lt => (cleared.others c (by omega)).2
    have above' : ∀ c, n ≤ c → (t.bchans c).plcip = none := by
      intro c le
      rcases Nat.eq_or_lt_of_le le with rfl | lt
      · exact cleared.plcip n (by omega)
      · exact (cleared.others c (by omega)).1.trans (above c lt)
    have anchored' : Anchored n t := by
      intro c lt m ncci pointer live
      have pointer' : (s.bchans c).nccip = some m := (nccip c lt).symm.trans pointer
      -- the connection is not the one of channel `n`
      have conn : s.links.nccis m = t.links.nccis m := by
        refine (cleared.otherConns m fun c' pointer2 inRange => ?_).symm
        obtain ⟨p, link⟩ := wired.nccip c' m pointer2
        obtain ⟨p', link'⟩ := wired.nccip c m pointer'
        rw [link] at link'
        cases link'
        omega
      have link : s.links.nccis m = some (ncci.plcip, ncci.chan) := conn.trans (links_nccis live)
      obtain ⟨ncci₀, live₀, same, chan⟩ := nccis_of_links link
      have there := anchored c (by omega) m ncci₀ pointer' live₀
      rw [same] at there
      obtain ⟨plci, there⟩ := Option.ne_none_iff_exists'.1 there
      -- and its call is not the one of channel `n`
      have kept : t.links.plcis ncci.plcip = s.links.plcis ncci.plcip := by
        refine cleared.otherCalls _ fun c' owner inRange => ?_
        obtain ⟨ns, call⟩ := wired.owner c' _ owner
        obtain ⟨p, link'⟩ := wired.nccip c m pointer'
        rw [link] at link'
        cases link'
        have := wired.ncciChan m _ _ _ _ link call
        omega
      intro gone
      rw [(plcis_none_iff t _).2 gone, links_plcis there] at kept
      cases kept
    obtain ⟨s', rest, cleared', wired'', status', sent'⟩ := ih (by omega) wired' anchored' above'
    have bug : t.plciList ≠ [] ↔ Busy s n := by
      constructor
      · intro nonempty
        obtain ⟨p, mem⟩ := List.exists_mem_of_ne_nil _ nonempty
        obtain ⟨⟨c, ns⟩, call⟩ := Option.ne_none_iff_exists'.1 ((wired'.listed p).1 mem)
        have owner := (wired'.chan p c ns call).2
        have lt : c < n := by
          by_contra le
          cases owner.symm.trans (above' c (by omega))
        exact ⟨c, lt, by rw [← plcip c lt]; exact fun none => by cases owner.symm.trans none⟩
      · rintro ⟨c, lt, held⟩
        obtain ⟨p, owner⟩ := Option.ne_none_iff_exists'.1 held
        obtain ⟨ns, call⟩ := wired'.owner c p ((plcip c lt).trans owner)
        exact List.ne_nil_of_mem (wired'.isListed call)
    have below : (List.range n).reverse.filter (fun c => Busy t c) = (List.range n).reverse.filter fun c => Busy s c := by
      apply List.filter_congr
      intro c mem
      have lt := List.mem_range.1 (List.mem_reverse.1 mem)
      rw [decide_eq_decide]
      constructor
      · exact fun ⟨d, small, held⟩ => ⟨d, small, by rw [← plcip d (by omega)]; exact held⟩
      · exact fun ⟨d, small, held⟩ => ⟨d, small, by rw [plcip d (by omega)]; exact held⟩
    refine ⟨s', ?_, Cleared.trans (Nat.zero_le n) (Nat.le_succ n) cleared cleared', wired'', status'.trans status,
      sent'.trans sent⟩
    rw [below] at rest
    simp only [delChannels, run, rest, Option.bind_eq_bind, Option.bind_some]
    rw [List.range_succ, List.reverse_append, List.reverse_singleton, List.singleton_append, List.filter_cons]
    by_cases busy : Busy s n
    · rw [if_pos (bug.2 busy), if_pos (by simpa using busy)]
      rfl
    · rw [if_neg (fun nonempty => busy (bug.1 nonempty)), if_neg (by simpa using busy)]
      rfl

/-- A connection below `n` whose call is gone is met by the loop. -/
theorem delChannels_none {n : Nat} : ∀ {s : Card}, Wired nbchan s.links → ¬ Anchored n s → delChannels n s = none := by
  induction n with
  | zero => exact fun {s} _ loose => absurd (fun c lt => absurd lt (Nat.not_lt_zero c)) loose
  | succ n ih =>
    intro s wired loose
    simp only [delChannels, Option.bind_eq_bind]
    by_cases here : ∀ m ncci, (s.bchans n).nccip = some m → s.nccis m = some ncci → s.plcis ncci.plcip ≠ none
    · obtain ⟨t, run, cleared, wired', -, -⟩ := delChannel_some wired here
      rw [run, Option.bind_some, ih wired', Option.bind_none]
      intro anchored
      apply loose
      intro c lt m ncci pointer live gone
      rcases Nat.lt_succ_iff_lt_or_eq.1 lt with lt | rfl
      · -- nothing that the loop frees has to do with a connection of another channel
        have pointer' : t.links.nccip c = some m := (cleared.others c (by omega)).2.trans pointer
        have conn : t.links.nccis m = s.links.nccis m := by
          refine cleared.otherConns m fun c' pointer2 inRange => ?_
          obtain ⟨p, link⟩ := wired.nccip c' m pointer2
          obtain ⟨p', link'⟩ := wired.nccip c m pointer
          rw [link] at link'
          cases link'
          omega
        obtain ⟨ncci', live', same, chan⟩ := nccis_of_links (conn.trans (links_nccis live))
        have kept : t.links.plcis ncci.plcip = s.links.plcis ncci.plcip := by
          refine cleared.otherCalls _ fun c' owner inRange => ?_
          obtain ⟨ns, call⟩ := wired.owner c' _ owner
          rw [(plcis_none_iff s _).2 gone] at call
          cases call
        refine anchored c lt m ncci' pointer' live' ?_
        rw [same, ← plcis_none_iff, kept, plcis_none_iff]
        exact gone
      · exact here m ncci pointer live gone
    · obtain ⟨m, rest⟩ := not_forall.1 here
      obtain ⟨ncci, rest⟩ := not_forall.1 rest
      simp only [ne_eq, Classical.not_imp, not_not] at rest
      obtain ⟨pointer, live, gone⟩ := rest
      rw [delChannel_none pointer live gone, Option.bind_none]

end Loop

/-- What is left of a card: no call, no pointer, and the connections that no channel pointed to. Each call was freed
once, and neither isdn4linux nor the capicore heard of it. -/
structure Emptied (nbchan : Nat) (s s' : Card) : Prop where
  calls : s'.plciList = [] ∧ ∀ p, s'.plcis p = none
  freed : s'.freed = s.freed ++ (List.range nbchan).reverse.filterMap (fun c => (s.bchans c).plcip) ∧ s'.freed.Nodup
  channels : ∀ c < nbchan, (s'.bchans c).plcip = none ∧ (s'.bchans c).nccip = none
  lost : ∀ n, s'.nccis n = none ↔ s.nccis n = none ∨ ∃ c < nbchan, (s.bchans c).nccip = some n
  silent : s'.status = s.status ∧ s'.sent = s.sent

/-- Taking a card away follows no pointer to a freed record exactly when the connections that its channels point to
still have their calls; then every call is freed once, and only connections without a channel are lost. The message
about `free_plci` is printed after the channels above the lowest one with a call. -/
theorem delcontr_frees_iff {env : Env} {ops : List Op} {s : Card} (run : exec (step env) Card.init ops = some s) :
    ((∃ r, delChannels env.nbchan s = some r) ↔ Anchored env.nbchan s) ∧
      ∀ s' bugs, delChannels env.nbchan s = some (s', bugs) → Emptied env.nbchan s s' ∧
        ∀ c, c ∈ bugs ↔ c < env.nbchan ∧ Busy s c := by
  have valid : Valid env s :=
    (always_of_inv (fun _ _ _ valid _ run => valid_step valid run) (valid_init env)
      (Meets.unconditional (step env) Card.init ops)).last run
  have wired := valid.wired
  have above : ∀ c, env.nbchan ≤ c → (s.bchans c).plcip = none := by
    intro c le
    by_contra held
    obtain ⟨p, owner⟩ := Option.ne_none_iff_exists'.1 held
    obtain ⟨ns, call⟩ := wired.owner c p owner
    have := (wired.chan p c ns call).1
    omega
  have defined : (∃ r, delChannels env.nbchan s = some r) ↔ Anchored env.nbchan s := by
    constructor
    · rintro ⟨r, done⟩
      by_contra loose
      cases (delChannels_none wired loose).symm.trans done
    · intro anchored
      obtain ⟨s', done, -⟩ := delChannels_some (Nat.le_refl _) wired anchored above
      exact ⟨_, done⟩
  refine ⟨defined, fun s' bugs done => ?_⟩
  obtain ⟨t, done', cleared, wired', status, sent⟩ :=
    delChannels_some (Nat.le_refl _) wired (defined.1 ⟨_, done⟩) above
  cases done'.symm.trans done
  have gone : ∀ p, s'.links.plcis p = none := by
    intro p
    by_contra held
    obtain ⟨⟨c, ns⟩, call⟩ := Option.ne_none_iff_exists'.1 held
    obtain ⟨small, owner⟩ := wired'.chan p c ns call
    rw [cleared.plcip c ⟨Nat.zero_le c, small⟩] at owner
    cases owner
  refine ⟨⟨⟨?_, fun p => (plcis_none_iff s' p).1 (gone p)⟩, ⟨?_, wired'.freed.1⟩, ?_, ?_, status, sent⟩, ?_⟩
  · apply List.eq_nil_iff_forall_not_mem.2
    intro p mem
    exact (wired'.listed p).1 mem (gone p)
  · refine cleared.freed.trans ?_
    rw [Nat.sub_zero, ← List.range_eq_range']
    rfl
  · exact fun c small => ⟨cleared.plcip c ⟨Nat.zero_le c, small⟩, cleared.nccip c ⟨Nat.zero_le c, small⟩⟩
  · intro n
    have links : ∀ t : Card, t.links.nccis n = none ↔ t.nccis n = none := fun t => Option.map_eq_none_iff
    by_cases found : ∃ c < env.nbchan, (s.bchans c).nccip = some n
    · obtain ⟨c, small, pointer⟩ := found
      have dead := (links s').1 (cleared.conns n c pointer ⟨Nat.zero_le c, small⟩)
      exact ⟨fun _ => .inr ⟨c, small, pointer⟩, fun _ => dead⟩
    · have kept := cleared.otherConns n fun c pointer inRange => found ⟨c, inRange.2, pointer⟩
      rw [← links s', kept, links s]
      simp only [found, or_false]
  · intro c
    rw [List.mem_filter, List.mem_reverse, List.mem_range, decide_eq_true_iff]

/-- A call with a connection is taken away with its card. -/
theorem delcontr_frees_dialled : ∃ s s' bugs, exec (step Env.granting) Card.init (disconnectedFirst.take 3) = some s ∧
    delChannels 2 s = some (s', bugs) ∧ Anchored 2 s ∧ Emptied 2 s s' ∧ ∀ c, c ∈ bugs ↔ c < 2 ∧ Busy s c := by
  obtain ⟨defined, frees⟩ := @delcontr_frees_iff Env.granting (disconnectedFirst.take 3) _ rfl
  exact ⟨_, _, _, rfl, rfl, defined.1 ⟨_, rfl⟩, frees _ _ rfl⟩

-- a call that the controller disconnected before its connection leaves a pointer that the removal follows
example : (exec (step Env.granting) Card.init disconnectedFirst).map (fun s => (delChannels 2 s).isSome) = some false :=
  rfl

end Capi4Linux.Capidrv
