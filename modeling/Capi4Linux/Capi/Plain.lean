import Capi4Linux.Capi.Nccis
import Capi4Linux.Capi.Stack

/-!
# Files without ttys

While no file has CAPIFLAG_HIGHJACKING no NCCI has a minor. Reading, polling and
the halves of a write then change queues and lists of NCCIs only; nothing is put
but what is written.
-/

namespace Capi4Linux.Capi
open Bytes Capicore Machine

/-- The file has no ttys and gets none. -/
def Capidev.Plain (cdev : Capidev) : Prop := cdev.userflags = 0 ∧ ∀ np ∈ cdev.nccis, np.minorp = none

def Plain (s : Driver) : Prop := ∀ d cdev, s.devs d = some cdev → cdev.Plain

/-- What the capicore knows of a file. -/
def Capidev.bearing (cdev : Capidev) : UInt16 × Capinfo0x11 := (cdev.ap.id, cdev.ap.info)

/-- The files are the same to the capicore, and nothing was put. -/
structure SameFiles (s s' : Driver) : Prop where
  bearing : ∀ d, (s'.devs d).map Capidev.bearing = (s.devs d).map Capidev.bearing
  plain : Plain s'
  devNext : s'.devNext = s.devNext
  accepted : s'.accepted = s.accepted

namespace SameFiles

variable {s s' s'' : Driver} {d : Nat} {cdev cdev' : Capidev}

theorem refl (plain : Plain s) : SameFiles s s := ⟨fun _ => rfl, plain, rfl, rfl⟩

theorem trans (first : SameFiles s s') (second : SameFiles s' s'') : SameFiles s s'' where
  bearing d := (second.bearing d).trans (first.bearing d)
  plain := second.plain
  devNext := second.devNext.trans first.devNext
  accepted := second.accepted.trans first.accepted

theorem asked (plain : Plain s) : SameFiles s s.asked := ⟨fun _ => rfl, plain, rfl, rfl⟩

/-- A file that is open changes. -/
theorem setDev (plain : Plain s) (dev : s.devs d = some cdev) (same : cdev'.bearing = cdev.bearing) (stays : cdev'.Plain) :
    SameFiles s (s.setDev d cdev') where
  bearing e := by
    show (Function.update s.devs d (some cdev') e).map Capidev.bearing = _
    by_cases here : e = d
    · rw [here, Function.update_self, dev, Option.map_some, Option.map_some, same]
    · rw [Function.update_of_ne here]
  plain e edev open_ := by
    change Function.update s.devs d (some cdev') e = _ at open_
    by_cases here : e = d
    · rw [here, Function.update_self] at open_
      cases open_
      exact stays
    · rw [Function.update_of_ne here] at open_
      exact plain e edev open_
  devNext := rfl
  accepted := rfl

/-- A file that is open afterwards was open before. -/
theorem dev (same : SameFiles s s') (here : s'.devs d = some cdev') :
    ∃ cdev, s.devs d = some cdev ∧ cdev.ap.id = cdev'.ap.id ∧ cdev.ap.info = cdev'.ap.info := by
  have bearing := same.bearing d
  rw [here, Option.map_some] at bearing
  obtain ⟨cdev, dev, eq⟩ := Option.map_eq_some_iff.1 bearing.symm
  exact ⟨cdev, dev, congrArg Prod.fst eq, congrArg Prod.snd eq⟩

/-- A file that is closed was closed. -/
theorem closed (same : SameFiles s s') (gone : s'.devs d = none) : s.devs d = none := by
  have bearing := same.bearing d
  rw [gone, Option.map_none] at bearing
  exact Option.map_eq_none_iff.1 bearing.symm

end SameFiles

section Files

variable {env : Env} {s s' : Driver} {d : Nat} {cdev : Capidev} {skb : Skb}

/-- A new NCCI leaves the files but for it. -/
theorem SameFiles.capincciAlloc {ncci : UInt32} (plain : Plain s) (dev : s.devs d = some cdev)
    (run : capincciAlloc env s d ncci = some s') : SameFiles s s' := by
  obtain ⟨flags, none⟩ := plain d cdev dev
  obtain ⟨cdev₁, dev₁, run⟩ := Option.bind_eq_some_iff.mp run
  obtain rfl := Option.some.inj (dev.symm.trans dev₁)
  have bare : capincciMinor env s.asked d cdev.userflags ncci = some (s.asked, Option.none) := by
    rw [flags]
    rfl
  simp only at run
  split at run
  · cases run
    exact .asked plain
  · rw [bare] at run
    cases run
    refine (SameFiles.asked plain).trans (.setDev plain dev rfl ⟨flags, fun np mem => ?_⟩)
    rcases List.mem_append.1 mem with old | new
    · exact none np old
    · rw [List.mem_singleton.1 new]

theorem SameFiles.recvqueueTail (plain : Plain s) (run : recvqueueTail s d skb = some s') : SameFiles s s' := by
  obtain ⟨cdev, dev, run⟩ := Option.bind_eq_some_iff.mp run
  cases run
  exact .setDev plain dev rfl (plain d cdev dev)

/-- A message that is fetched goes to `recvqueue`. -/
theorem SameFiles.recvOne (plain : Plain s) (run : recvOne env s d skb = some s') : SameFiles s s' := by
  obtain ⟨cdev, dev⟩ := recvOne_file run
  cases recvOne_cases dev run with
  | connected _ _ alloc queued =>
    have first := SameFiles.capincciAlloc plain dev alloc
    exact first.trans (.recvqueueTail first.plain queued)
  | diverted _ _ found =>
    obtain ⟨np, search, minorp⟩ := Option.bind_eq_some_iff.mp found
    rw [(plain d cdev dev).2 np (List.mem_of_find?_eq_some search)] at minorp
    cases minorp
  | queued _ _ queued => exact .recvqueueTail plain queued

theorem SameFiles.capiRecvMessage (plain : Plain s) (run : capiRecvMessage env s d = some s') : SameFiles s s' := by
  obtain ⟨cdev, -, run⟩ := Option.bind_eq_some_iff.mp run
  apply capiRecvMessageLoop_keeps (P := SameFiles s) _ (.refl plain) run
  intro t t' cdev skb msgQueue same dev queue one
  have fetched : SameFiles t (t.setDev d { cdev with ap := { cdev.ap with msgQueue } }) :=
    .setDev same.plain dev rfl (same.plain d cdev dev)
  exact same.trans (fetched.trans (.recvOne fetched.plain one))

theorem SameFiles.capiRead {count : Nat} {result : Int ⊕ Bytes} (plain : Plain s)
    (run : capiRead env s d count = some (s', result)) : SameFiles s s' := by
  obtain ⟨cdev, dev, run⟩ := Option.bind_eq_some_iff.mp run
  split at run
  · cases run
    exact .refl plain
  obtain ⟨s₁, fetch, run⟩ := Option.bind_eq_some_iff.mp run
  have first : SameFiles s s₁ := by
    split at fetch
    · exact .capiRecvMessage plain fetch
    · cases fetch
      exact .refl plain
  obtain ⟨cdev₁, dev₁, run⟩ := Option.bind_eq_some_iff.mp run
  split at run
  · cases run
    exact first
  split at run
  · cases run
    exact first
  simp only at run
  split at run
  · cases run
    exact first.trans (.asked first.plain)
  · cases run
    exact (first.trans (.asked first.plain)).trans (.setDev first.plain dev₁ rfl (first.plain d cdev₁ dev₁))

theorem SameFiles.capiPoll {ready : Bool} (plain : Plain s) (run : capiPoll env s d = some (s', ready)) :
    SameFiles s s' := by
  obtain ⟨cdev, dev, run⟩ := Option.bind_eq_some_iff.mp run
  split at run
  · cases run
    exact .refl plain
  obtain ⟨s₁, fetch, run⟩ := Option.bind_eq_some_iff.mp run
  obtain ⟨cdev₁, -, run⟩ := Option.bind_eq_some_iff.mp run
  cases run
  exact .capiRecvMessage plain fetch

/-- NCCIs without minors are simply unlinked. -/
theorem SameFiles.capincciFree {ncci : UInt32} (plain : Plain s) (dev : s.devs d = some cdev)
    (run : capincciFree s d ncci = some s') : SameFiles s s' := by
  obtain ⟨flags, none⟩ := plain d cdev dev
  obtain ⟨cdev₁, dev₁, run⟩ := Option.bind_eq_some_iff.mp run
  obtain rfl := Option.some.inj (dev.symm.trans dev₁)
  have loop : ∀ nccis : List Capincci, (∀ np ∈ nccis, np.minorp = Option.none) → capincciFreeLoop ncci nccis s = some s := by
    intro nccis bare
    induction nccis with
    | nil => rfl
    | cons np nccis ih =>
      have rest := ih fun x mem => bare x (List.mem_cons_of_mem np mem)
      unfold capincciFreeLoop
      rw [bare np List.mem_cons_self]
      split
      · exact rest
      · exact rest
  obtain ⟨s₁, first, run⟩ := Option.bind_eq_some_iff.mp run
  cases (loop cdev.nccis none).symm.trans first
  cases run
  exact .setDev plain dev rfl ⟨flags, fun np mem => none np (List.mem_of_mem_filter mem)⟩

/-- A file is gone, and nothing else has changed. -/
structure Closed (s : Driver) (d : Nat) (s' : Driver) : Prop where
  gone : s'.devs d = none
  others : ∀ e, e ≠ d → s'.devs e = s.devs e
  devNext : s'.devNext = s.devNext
  accepted : s'.accepted = s.accepted

theorem capidevFree_closed (plain : Plain s) (run : capidevFree s d = some s') : Closed s d s' := by
  obtain ⟨cdev, dev, rest⟩ := Option.bind_eq_some_iff.mp run
  obtain ⟨s₁, free, rest⟩ := Option.bind_eq_some_iff.mp rest
  let cdev' : Capidev := { cdev with
    ap := if cdev.ap.id ≠ 0 then { cdev.ap with id := 0, msgQueue := [] } else cdev.ap
    recvqueue := [] }
  have emptied : Plain (s.setDev d cdev') := by
    intro e x here
    change Function.update s.devs d (some cdev') e = _ at here
    by_cases own : e = d
    · rw [own, Function.update_self] at here
      cases here
      exact plain d cdev dev
    · rw [Function.update_of_ne own] at here
      exact plain e x here
  have same : SameFiles (s.setDev d cdev') s₁ := .capincciFree emptied (Function.update_self _ _ _) free
  cases rest
  exact ⟨Function.update_self _ _ _, capidevFree_others run, same.devNext, same.accepted⟩

/-- The first half of a write. -/
theorem capiWriteMessage_halves (calm : Calm s) (plain : Plain s) (dev : s.devs d = some cdev) (env : Env) (buf : Bytes) :
    ∃ s' r, capiWriteMessage env s d buf = some (s', r) ∧ Calm s' ∧ SameFiles s s' ∧
      ∀ data, r = .inr data → cdev.ap.id ≠ 0 ∧ data = withApplId buf cdev.ap.id := by
  have asked := calm.tame (.asked s)
  have dev' : s.asked.devs d = some cdev := dev
  unfold capiWriteMessage
  simp only [dev, Option.bind_eq_bind, Option.bind_some]
  by_cases unregistered : cdev.ap.id = 0
  · exact ⟨_, _, if_pos unregistered, calm, .refl plain, fun data eq => by cases eq⟩
  rw [if_neg unregistered]
  by_cases mem : env.kmalloc s.tick = true
  case neg => exact ⟨_, _, if_pos mem, asked, .asked plain, fun data eq => by cases eq⟩
  rw [if_neg (not_not_intro mem)]
  by_cases fault : env.fault s.tick = true
  · exact ⟨_, _, if_pos fault, asked, .asked plain, fun data eq => by cases eq⟩
  rw [if_neg fault]
  by_cases framed : (Skb.ofUser buf (env.slab s.tick)).claimedLen = buf.length
  case neg => exact ⟨_, _, if_pos framed, asked, .asked plain, fun data eq => by cases eq⟩
  rw [if_neg (not_not_intro framed)]
  obtain ⟨s₁, prepared, calm₁, same₁⟩ : ∃ s₁, prepare s.asked d ((Skb.ofUser buf (env.slab s.tick)).setU16 2 cdev.ap.id) =
      some s₁ ∧ Calm s₁ ∧ SameFiles s.asked s₁ := by
    unfold prepare
    split
    · obtain ⟨s₁, run, calm₁, -⟩ :=
        asked.capincciFree dev' ((Skb.ofUser buf (env.slab s.tick)).setU16 2 cdev.ap.id).ncci
      exact ⟨s₁, run, calm₁, .capincciFree plain dev' run⟩
    · exact ⟨_, rfl, asked, .refl plain⟩
  rw [prepared, Option.bind_some]
  refine ⟨_, _, rfl, calm₁, (SameFiles.asked plain).trans same₁, fun data eq => ⟨unregistered, ?_⟩⟩
  cases eq
  rfl

end Files

end Capi4Linux.Capi
