import Capi4Linux.Capi.Step
import Capi4Linux.Lib.FirstGap
import Mathlib.Data.List.Nodup

/-!
# How files, NCCIs and minors are linked

`Wired` is what every call keeps of the links between the records: a minor with
`nccip` set belongs to exactly one NCCI of a file that is still open, and
`capiminor_list` holds the live minors by increasing number. Most calls change
data only: `Tame` steps leave the links as they are, and talk to the capicore
for attached minors only.
-/

namespace Capi4Linux.Capi
open Bytes Capicore

/-- The fields of a minor that other records depend on. -/
def Capiminor.links (mp : Capiminor) : Bool × Nat × Nat × Option Nat × Int :=
  (mp.nccip, mp.minor, mp.ap, mp.tty, mp.ttyopencount)

/-- Every message so far was built for or put through an attached minor. -/
def Quiet (s : Driver) : Prop := ∀ e ∈ s.talks, e.2 = true

/-- `s'` has the links of `s`, and nothing was said for a detached minor in between. -/
structure Tame (s s' : Driver) : Prop where
  minors : ∀ p, (s'.minors p).map Capiminor.links = (s.minors p).map Capiminor.links
  devs : s'.devs = s.devs
  capiminorList : s'.capiminorList = s.capiminorList
  ttys : s'.ttys = s.ttys
  opens : s'.opens = s.opens
  freed : s'.freed = s.freed
  minorNext : s'.minorNext = s.minorNext
  devNext : s'.devNext = s.devNext
  quiet : Quiet s → Quiet s'

namespace Tame

theorem refl (s : Driver) : Tame s s :=
  ⟨fun _ => rfl, rfl, rfl, rfl, rfl, rfl, rfl, rfl, id⟩

theorem trans {s t u : Driver} (first : Tame s t) (second : Tame t u) : Tame s u where
  minors p := (second.minors p).trans (first.minors p)
  devs := second.devs.trans first.devs
  capiminorList := second.capiminorList.trans first.capiminorList
  ttys := second.ttys.trans first.ttys
  opens := second.opens.trans first.opens
  freed := second.freed.trans first.freed
  minorNext := second.minorNext.trans first.minorNext
  devNext := second.devNext.trans first.devNext
  quiet := second.quiet ∘ first.quiet

/-- An allocation that fails is tame. -/
theorem asked (s : Driver) : Tame s s.asked :=
  ⟨fun _ => rfl, rfl, rfl, rfl, rfl, rfl, rfl, rfl, id⟩

/-- A minor that keeps its links is tame. -/
theorem setMinor {s : Driver} {p : Nat} {mp mp' : Capiminor} (live : s.minors p = some mp)
    (same : mp'.links = mp.links) : Tame s (s.setMinor p mp') := by
  refine ⟨fun q => ?_, rfl, rfl, rfl, rfl, rfl, rfl, rfl, id⟩
  by_cases here : q = p
  · subst here
    simp [Driver.setMinor, live, same]
  · simp [Driver.setMinor, Function.update_of_ne here]

/-- Talk for a minor with an NCCI is tame. -/
theorem talk {p : Nat} {mp : Capiminor} (s : Driver) (attached : mp.nccip = true) : Tame s (s.talk p mp) := by
  refine ⟨fun _ => rfl, rfl, rfl, rfl, rfl, rfl, rfl, rfl, fun quiet e mem => ?_⟩
  rcases List.mem_append.mp mem with old | new
  · exact quiet e old
  · obtain rfl := List.mem_singleton.mp new
    exact attached

theorem putCapiMessage (s : Driver) (d : Nat) (data : Bytes) (info : Capinfo0x11) :
    Tame s (putCapiMessage s d data info) := by
  unfold Capi.putCapiMessage
  split
  · exact ⟨fun _ => rfl, rfl, rfl, rfl, rfl, rfl, rfl, rfl, id⟩
  · exact refl s

/-- A live minor stays live with its links. -/
theorem minor {s s' : Driver} (tame : Tame s s') {p : Nat} {mp : Capiminor} (live : s.minors p = some mp) :
    ∃ mp', s'.minors p = some mp' ∧ mp'.links = mp.links := by
  have same := tame.minors p
  rw [live] at same
  exact Option.map_eq_some_iff.mp same

end Tame

/-- The same links, one by one. -/
theorem links_eq {mp mp' : Capiminor} (same : mp'.links = mp.links) :
    mp'.nccip = mp.nccip ∧ mp'.minor = mp.minor ∧ mp'.ap = mp.ap ∧ mp'.tty = mp.tty ∧
      mp'.ttyopencount = mp.ttyopencount := by
  simpa [Capiminor.links] using same

theorem flushTtyskb_links (mp : Capiminor) : (flushTtyskb mp).links = mp.links := by
  unfold flushTtyskb
  split <;> rfl

/-! ## The data queues of an attached minor -/

/-- The minor is live and linked to an NCCI, and the file it belongs to is open. -/
def Attached (s : Driver) (p : Nat) : Prop :=
  ∃ mp cdev, s.minors p = some mp ∧ mp.nccip = true ∧ s.devs mp.ap = some cdev

/-- A tame change leaves the minor attached. -/
theorem Attached.tame {s s' : Driver} {p : Nat} (attached : Attached s p) (tame : Tame s s') : Attached s' p := by
  obtain ⟨mp, cdev, live, link, open_dev⟩ := attached
  obtain ⟨mp', live', same⟩ := tame.minor live
  obtain ⟨nccip, -, ap, -, -⟩ := links_eq same
  exact ⟨mp', cdev, live', nccip.trans link, by rw [ap, tame.devs, open_dev]⟩

/-- A live minor keeps what it has received. -/
def SameInqueue (s s' : Driver) (p : Nat) : Prop :=
  ∀ mp, s.minors p = some mp → ∃ mp', s'.minors p = some mp' ∧ mp'.inqueue = mp.inqueue

section Queues

variable (env : Env) {s : Driver} {p : Nat}

/-- A response for an attached minor is tame. -/
theorem genDataB3RespFor_tame (attached : Attached s p) (skb : Skb) :
    ∃ s' resp, genDataB3RespFor env s p skb = some (s', resp) ∧ Tame s s' ∧ SameInqueue s s' p := by
  obtain ⟨mp, cdev, live, link, open_dev⟩ := attached
  by_cases mem : env.kmalloc s.tick = true
  · refine ⟨(s.talk p mp).setMinor p { mp with msgid := mp.msgid + 1 }, _, by
      simp only [genDataB3RespFor, live, open_dev, mem, Option.bind_eq_bind, Option.bind_some, not_true, if_false]
      rfl, ?_, ?_⟩
    · exact (Tame.talk s link).trans (@Tame.setMinor (s.talk p mp) p mp _ live rfl)
    · intro mp' live'
      obtain rfl := Option.some.inj (live.symm.trans live')
      exact ⟨{ mp with msgid := mp.msgid + 1 }, Function.update_self _ _ _, rfl⟩
  · refine ⟨s, none, by simp [genDataB3RespFor, live, mem], .refl s, fun mp' live' => ⟨mp', live', rfl⟩⟩

theorem handleRecvSkb_tame (attached : Attached s p) (skb : Skb) :
    ∃ s' ok, handleRecvSkb env s p skb = some (s', ok) ∧ Tame s s' ∧ SameInqueue s s' p := by
  obtain ⟨s₁, resp, gen, tame, queue⟩ := genDataB3RespFor_tame env attached skb
  obtain ⟨mp, cdev, live, link, open_dev⟩ := attached
  have refused : Tame s s.asked ∧ SameInqueue s s.asked p := ⟨.asked s, fun mp' live' => ⟨mp', live', rfl⟩⟩
  unfold handleRecvSkb
  simp only [live, Option.bind_eq_bind, Option.bind_some]
  cases mp.tty with
  | none => exact ⟨_, _, rfl, refused⟩
  | some tty =>
    simp only [gen, Option.bind_some]
    by_cases receive : env.receiveBuf s.tick = true
    case neg => exact ⟨s.asked, false, by simp [receive], refused⟩
    by_cases stop : mp.ttyinstop = true
    case pos => exact ⟨s.asked, false, by simp [receive, stop], refused⟩
    by_cases room : (env.receiveRoom s.tick).any (· < (skb.len : Int) - skb.msgLen) = true
    case pos => exact ⟨s.asked, false, by simp [receive, stop, room], refused⟩
    simp only [receive, stop, room, not_true, if_false, Bool.false_eq_true]
    cases resp with
    | none => exact ⟨_, _, rfl, tame.trans (.asked s₁), queue⟩
    | some nskb =>
      have said := (tame.trans (@Tame.talk p mp s₁ link)).trans
        (.putCapiMessage _ mp.ap nskb (env.put s.tick))
      have same (d : Nat) (info : Capinfo0x11) : (putCapiMessage (s₁.talk p mp) d nskb info).minors = s₁.minors := by
        unfold putCapiMessage; split <;> rfl
      by_cases full : env.put s.tick = .NOERR
      case neg =>
        refine ⟨_, _, by simp only [ne_eq, full, not_false_eq_true, if_true]; rfl, said.trans (.asked _), fun mp' live' => ?_⟩
        simpa [Driver.asked, same] using queue mp' live'
      refine ⟨_, _, by simp only [ne_eq, full, not_true, if_false]; rfl, ?_, fun mp' live' => ?_⟩
      · rw [full] at said
        exact said.trans ⟨fun _ => rfl, rfl, rfl, rfl, rfl, rfl, rfl, rfl, id⟩
      · simpa [Driver.asked, same] using queue mp' live'

/-- Receiving is tame, and the loop ends with the queue. -/
theorem handleMinorRecvLoop_tame : ∀ (fuel : Nat) (s : Driver), Attached s p →
    (∀ mp, s.minors p = some mp → mp.inqueue.length < fuel) →
    ∃ s', handleMinorRecvLoop env fuel s p = some s' ∧ Tame s s'
  | 0, s, attached, enough => by
    obtain ⟨mp, cdev, live, -, -⟩ := attached
    exact absurd (enough mp live) (Nat.not_lt_zero _)
  | fuel + 1, s, attached, enough => by
    have attached' := attached
    obtain ⟨mp, cdev, live, link, open_dev⟩ := attached
    have space := enough mp live
    simp only [handleMinorRecvLoop, live, Option.bind_eq_bind, Option.bind_some]
    cases queue : mp.inqueue with
    | nil => exact ⟨s, rfl, .refl s⟩
    | cons skb inqueue =>
      simp only
      rw [queue, List.length_cons] at space
      have taken := @Tame.setMinor s p mp { mp with inqueue, inbytes := mp.inbytes - .ofNat skb.len } live rfl
      obtain ⟨s₁, ok, recv, tame, same⟩ := handleRecvSkb_tame env (attached'.tame taken) skb
      obtain ⟨mp₁, live₁, rest⟩ := same _ (Function.update_self _ _ _)
      simp only [recv, Option.bind_some]
      have both := taken.trans tame
      cases ok with
      | true =>
        obtain ⟨s', run, last⟩ := handleMinorRecvLoop_tame fuel s₁ (attached'.tame both) fun mp' live' => by
          obtain rfl := Option.some.inj (live₁.symm.trans live')
          rw [rest]
          simp only
          omega
        exact ⟨s', run, both.trans last⟩
      | false =>
        simp only [live₁, Option.bind_some, Bool.false_eq_true, if_false]
        exact ⟨_, rfl, both.trans (.setMinor live₁ rfl)⟩

/-- Reception for an attached minor has an outcome and is tame. -/
theorem handleMinorRecv_tame (attached : Attached s p) : ∃ s', handleMinorRecv env s p = some s' ∧ Tame s s' := by
  have live := attached
  obtain ⟨mp, -, live, -, -⟩ := live
  obtain ⟨s', run, tame⟩ := handleMinorRecvLoop_tame env (mp.inqueue.length + 1) s attached fun mp' live' => by
    obtain rfl := Option.some.inj (live.symm.trans live')
    exact Nat.lt_succ_self _
  exact ⟨s', by simp [handleMinorRecv, live, run], tame⟩

theorem capiminorDelAck_links (mp : Capiminor) (datahandle : UInt16) :
    (capiminorDelAck mp datahandle).links = mp.links ∧ (capiminorDelAck mp datahandle).outqueue = mp.outqueue := by
  unfold capiminorDelAck
  split <;> exact ⟨rfl, rfl⟩

/-- Sending is tame, and the loop ends with the queue. -/
theorem handleMinorSendLoop_tame : ∀ (fuel : Nat) (s : Driver) (count : Nat), Attached s p →
    (∀ mp, s.minors p = some mp → mp.outqueue.length < fuel) →
    ∃ s' n, handleMinorSendLoop env fuel s p count = some (s', n) ∧ Tame s s'
  | 0, s, _, attached, enough => by
    obtain ⟨mp, cdev, live, -, -⟩ := attached
    exact absurd (enough mp live) (Nat.not_lt_zero _)
  | fuel + 1, s, count, attached, enough => by
    have attached' := attached
    obtain ⟨mp, cdev, live, link, open_dev⟩ := attached
    have space := enough mp live
    simp only [handleMinorSendLoop, live, Option.bind_eq_bind, Option.bind_some]
    cases queue : mp.outqueue with
    | nil => exact ⟨s, count, rfl, .refl s⟩
    | cons skb outqueue =>
      rw [queue, List.length_cons] at space
      simp only [open_dev, Option.bind_some]
      have said := (Tame.talk (p := p) s link).trans (.asked _)
      by_cases mem : env.kmalloc s.tick = true
      case neg =>
        simp only [mem]
        exact ⟨_, _, rfl, said.trans (@Tame.setMinor (s.talk p mp).asked p mp _ live rfl)⟩
      simp only [mem, not_true, if_false]
      have added : (capincciAddAck { mp with msgid := mp.msgid + 1, outqueue } mp.datahandle).links = mp.links ∧
          (capincciAddAck { mp with msgid := mp.msgid + 1, outqueue } mp.datahandle).outqueue = outqueue := ⟨rfl, rfl⟩
      generalize capincciAddAck { mp with msgid := mp.msgid + 1, outqueue } mp.datahandle = mp₁ at added ⊢
      generalize skb.push (dataB3Req cdev.ap mp (env.address s.tick) (UInt16.ofNat skb.len)) = msg
      have link₁ : mp₁.nccip = true := (links_eq added.1).1.trans link
      have put := (said.trans (.talk (p := p) _ link₁)).trans (.putCapiMessage _ mp₁.ap msg.data (env.put s.tick))
      have live₂ : (putCapiMessage (Driver.talk (s.talk p mp).asked p mp₁) mp₁.ap msg.data (env.put s.tick)).minors p =
          some mp := by
        unfold putCapiMessage
        split <;> exact live
      generalize putCapiMessage (Driver.talk (s.talk p mp).asked p mp₁) mp₁.ap msg.data (env.put s.tick) = s₂ at put live₂ ⊢
      -- whatever the answer is, the minor keeps its links
      have again (mp' : Capiminor) (links : mp'.links = mp.links) (rest : mp'.outqueue = outqueue) (n : Nat) :
          ∃ s' m, handleMinorSendLoop env fuel (s₂.setMinor p mp') p n = some (s', m) ∧ Tame s s' := by
        have tame := put.trans (.setMinor live₂ links)
        obtain ⟨s', m, run, last⟩ := handleMinorSendLoop_tame fuel _ n (attached'.tame tame) fun mp₃ live₃ => by
          have same : mp' = mp₃ := by simpa [Driver.setMinor] using live₃
          rw [← same, rest]
          omega
        exact ⟨s', m, run, tame.trans last⟩
      obtain ⟨del, rest⟩ := capiminorDelAck_links mp₁ mp.datahandle
      split
      · refine again _ ?_ ?_ _
        exacts [added.1, added.2]
      · split
        · refine ⟨_, _, rfl, put.trans (.setMinor live₂ ?_)⟩
          exact del.trans added.1
        · refine again _ ?_ ?_ _
          exacts [del.trans added.1, rest.trans added.2]

/-- Sending for an attached minor has an outcome and is tame. -/
theorem handleMinorSend_tame (attached : Attached s p) :
    ∃ s' n, handleMinorSend env s p = some (s', n) ∧ Tame s s' := by
  have live := attached
  obtain ⟨mp, -, live, -, -⟩ := live
  by_cases stopped : mp.tty.isSome ∧ mp.ttyoutstop = true
  · exact ⟨s, 0, by simp [handleMinorSend, live, stopped], .refl s⟩
  · obtain ⟨s', n, run, tame⟩ := handleMinorSendLoop_tame env (mp.outqueue.length + 1) s 0 attached fun mp' live' => by
      obtain rfl := Option.some.inj (live.symm.trans live')
      exact Nat.lt_succ_self _
    exact ⟨s', n, by simp only [handleMinorSend, live, Option.bind_eq_bind, Option.bind_some, if_neg stopped, run], tame⟩

end Queues

end Capi4Linux.Capi
