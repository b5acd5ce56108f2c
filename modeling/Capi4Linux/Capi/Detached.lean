import Capi4Linux.Capi.Lifetime

/-!
# Detached minors

A minor whose NCCI is gone belongs to an application that may be freed. The tty
operations that queue data look at `nccip` first. `capinc_tty_unthrottle` and
`capinc_tty_start` do not: they hand out what is still queued.
-/

namespace Capi4Linux.Capi
open Bytes Capicore Machine

/-- The line discipline takes the first message of the queue, and its confirmation is built. -/
def Deliverable (env : Env) (s : Driver) (mp : Capiminor) : Prop :=
  ∃ skb inqueue, mp.inqueue = skb :: inqueue ∧ mp.tty ≠ none ∧ env.receiveBuf s.tick = true ∧
    (env.receiveRoom s.tick).any (· < (skb.len : Int) - skb.msgLen) = false ∧ env.kmalloc s.tick = true

/-- The minor a tty refers to is not freed, and is as `P` says. -/
def AtMinor (s : Driver) (tty : Nat) (P : Capiminor → Prop) : Prop :=
  ∀ p, s.ttys tty = some p → ∃ mp, s.minors p = some mp ∧ P mp

/-- No tty is used whose minor was freed, and no tty whose minor lost its NCCI is unthrottled with data to
deliver or started with data to send. -/
def Discreet (env : Env) (s : Driver) : Op → Prop
  | .ttyClose tty | .ttyWrite tty _ _ | .ttyPutChar tty _ | .ttyFlushChars tty | .ttyThrottle tty | .ttyStop tty =>
    AtMinor s tty fun _ => True
  | .ttyUnthrottle tty => AtMinor s tty fun mp => mp.nccip = false → ¬ Deliverable env s mp
  | .ttyStart tty => AtMinor s tty fun mp => mp.nccip = false → mp.outqueue = []
  | _ => True

/-- What every discreet call keeps. -/
structure Calm (s : Driver) : Prop where
  wired : Wired s
  quiet : Quiet s

theorem Calm.init : Calm .init := ⟨.init, fun e mem => by cases mem⟩

/-- A tame change keeps the driver calm. -/
theorem Calm.tame {s s' : Driver} (calm : Calm s) (tame : Tame s s') : Calm s' :=
  ⟨calm.wired.tame tame, tame.quiet calm.quiet⟩

/-- It stays calm where neither links nor calls change. -/
theorem Calm.same {s s' : Driver} (calm : Calm s) (same : SameLinks s s') (talks : s'.talks = s.talks) : Calm s' :=
  ⟨calm.wired.same same, fun e mem => calm.quiet e (talks ▸ mem)⟩

/-- It stays calm when a file changes but for its NCCIs. -/
theorem Calm.setDev {s : Driver} (calm : Calm s) {d : Nat} {cdev cdev' : Capidev} (dev : s.devs d = some cdev)
    (same : cdev'.nccis = cdev.nccis) : Calm (s.setDev d cdev') :=
  calm.same (.setDev dev same) rfl

/-! ## Files -/

/-- A file that is open keeps its application. -/
def Serves (d : Nat) (ap : CapiAppl) (s : Driver) : Prop :=
  Calm s ∧ ∃ cdev, s.devs d = some cdev ∧ cdev.ap = ap

/-- A tame change leaves the file served. -/
theorem Serves.tame {d : Nat} {ap : CapiAppl} {s s' : Driver} (serves : Serves d ap s) (tame : Tame s s') :
    Serves d ap s' := by
  obtain ⟨calm, cdev, dev, same⟩ := serves
  exact ⟨calm.tame tame, cdev, by rw [tame.devs, dev], same⟩

section Files

variable (env : Env) {d : Nat} {ap : CapiAppl} {s : Driver}

/-- A new NCCI leaves the file served. -/
theorem Serves.capincciAlloc (serves : Serves d ap s) (ncci : UInt32) :
    ∃ s', capincciAlloc env s d ncci = some s' ∧ Serves d ap s' := by
  obtain ⟨calm, cdev, dev, same⟩ := serves
  obtain ⟨s', run, tame | ⟨np, new⟩⟩ := calm.wired.capincciAlloc env dev ncci
  · exact ⟨s', run, Serves.tame ⟨calm, cdev, dev, same⟩ tame⟩
  · have here : s'.devs d = some { cdev with nccis := cdev.nccis ++ [np] } := by rw [new.devs, Function.update_self]
    exact ⟨s', run, ⟨calm.wired.newNcci dev new, fun e mem => calm.quiet e (new.talks ▸ mem)⟩, _, here, same⟩

theorem Serves.recvqueueTail (serves : Serves d ap s) (skb : Skb) :
    ∃ s', recvqueueTail s d skb = some s' ∧ Serves d ap s' := by
  obtain ⟨calm, cdev, dev, same⟩ := serves
  let cdev' : Capidev := { cdev with recvqueue := cdev.recvqueue ++ [skb] }
  exact ⟨s.setDev d cdev', by simp [Capi.recvqueueTail, dev, cdev'], calm.setDev dev rfl, cdev',
    Function.update_self _ _ _, same⟩

/-- A message for the minor of an NCCI reaches an attached minor. -/
theorem Serves.recvDataB3 (serves : Serves d ap s) {p : Nat} (attached : Attached s p) (skb : Skb) :
    ∃ s', recvDataB3 env s d p skb = some s' ∧ Serves d ap s' := by
  have serves' := serves
  have reached := attached
  obtain ⟨mp, cdev, live, -, -⟩ := reached
  unfold Capi.recvDataB3
  split
  · let mp' : Capiminor := { mp with inqueue := mp.inqueue ++ [skb], inbytes := mp.inbytes + .ofNat skb.len }
    have tame : Tame s (s.setMinor p mp') := .setMinor live rfl
    obtain ⟨s', run, more⟩ := handleMinorRecv_tame env (attached.tame tame)
    exact ⟨s', by simpa [live] using run, serves.tame (tame.trans more)⟩
  · split
    · have tame : Tame s (s.setMinor p (capiminorDelAck mp (skb.u16 (CAPI_MSG_BASELEN + 4)))) :=
        .setMinor live (capiminorDelAck_links mp _).1
      obtain ⟨s', n, run, more⟩ := handleMinorSend_tame env (attached.tame tame)
      exact ⟨s', by simp [live, run], serves.tame (tame.trans more)⟩
    · exact serves.recvqueueTail skb

theorem Serves.recvOne (serves : Serves d ap s) (skb : Skb) : ∃ s', recvOne env s d skb = some s' ∧ Serves d ap s' := by
  have alloc {s : Driver} (serves : Serves d ap s) (want : Prop) [Decidable want] :
      ∃ s', (if want then Capi.capincciAlloc env s d skb.ncci else some s) = some s' ∧ Serves d ap s' := by
    by_cases wanted : want
    · simpa [wanted] using serves.capincciAlloc env skb.ncci
    · exact ⟨s, by simp [wanted], serves⟩
  obtain ⟨s₁, conf, serves₁⟩ := alloc serves (skb.cmd = CAPI_CONNECT_B3_CONF ∧ skb.u16 12 = 0)
  obtain ⟨s₂, ind, serves₂⟩ := alloc serves₁ (skb.cmd = CAPI_CONNECT_B3_IND)
  simp only [Capi.recvOne, conf, ind, Option.bind_eq_bind, Option.bind_some]
  split
  · exact serves₂.recvqueueTail skb
  · have after := serves₂
    obtain ⟨calm, cdev, dev, -⟩ := after
    simp only [dev, Option.bind_some]
    cases found : (capincciFind cdev skb.ncci).bind Capincci.minorp with
    | none => exact serves₂.recvqueueTail skb
    | some p =>
      obtain ⟨np, find, own⟩ := Option.bind_eq_some_iff.mp found
      obtain ⟨mp, live, link, -⟩ := calm.wired.owned d cdev np p dev (List.mem_of_find?_eq_some find) own
      exact serves₂.recvDataB3 env (calm.wired.isAttached live link) skb

/-- The loop ends when the application's queue is empty. -/
theorem Serves.capiRecvMessageLoop : ∀ (fuel : Nat) (ap : CapiAppl) (s : Driver), Serves d ap s →
    ap.msgQueue.length < fuel → ∃ s', capiRecvMessageLoop env fuel s d = some s' ∧ ∃ ap', Serves d ap' s'
  | 0, _, _, _, enough => absurd enough (Nat.not_lt_zero _)
  | fuel + 1, ap, s, serves, enough => by
    have serves' := serves
    obtain ⟨calm, cdev, dev, rfl⟩ := serves'
    simp only [Capi.capiRecvMessageLoop, dev, Option.bind_eq_bind, Option.bind_some]
    by_cases info : cdev.ap.info = .NOERR
    case neg => exact ⟨s, by simp [info], _, serves⟩
    rw [if_neg (not_not_intro info)]
    cases queue : cdev.ap.msgQueue with
    | nil => exact ⟨s, rfl, _, serves⟩
    | cons skb msgQueue =>
      rw [queue, List.length_cons] at enough
      let ap' : CapiAppl := { cdev.ap with msgQueue }
      have taken : Serves d ap' (s.setDev d { cdev with ap := ap' }) :=
        ⟨calm.setDev dev rfl, _, Function.update_self _ _ _, rfl⟩
      obtain ⟨s₁, one, serves₁⟩ := taken.recvOne env skb
      obtain ⟨s', run, serves'⟩ := Serves.capiRecvMessageLoop fuel ap' s₁ serves₁ (Nat.lt_of_succ_lt_succ enough)
      refine ⟨s', ?_, serves'⟩
      simp only
      change (Capi.recvOne env (s.setDev d { cdev with ap := ap' }) d skb).bind _ = _
      rw [one, Option.bind_some, run]

/-- A message is received to the end. -/
theorem Serves.capiRecvMessage (serves : Serves d ap s) :
    ∃ s', capiRecvMessage env s d = some s' ∧ ∃ ap', Serves d ap' s' := by
  have serves' := serves
  obtain ⟨-, cdev, dev, rfl⟩ := serves'
  obtain ⟨s', run, after⟩ := Serves.capiRecvMessageLoop env (cdev.ap.msgQueue.length + 1) cdev.ap s serves
    (Nat.lt_succ_self _)
  exact ⟨s', by simp [Capi.capiRecvMessage, dev, run], after⟩

theorem Calm.capiRead (calm : Calm s) {cdev : Capidev} (dev : s.devs d = some cdev) (count : Nat) :
    ∃ s' res, capiRead env s d count = some (s', res) ∧ Calm s' := by
  by_cases unregistered : cdev.ap.id = 0
  · exact ⟨s, _, by simp only [Capi.capiRead, dev, Option.bind_eq_bind, Option.bind_some, unregistered]; rfl, calm⟩
  obtain ⟨s₁, recv, calm₁, cdev₁, dev₁⟩ : ∃ s₁, (if cdev.recvqueue = [] then capiRecvMessage env s d else some s) = some s₁ ∧
      Calm s₁ ∧ ∃ cdev₁, s₁.devs d = some cdev₁ := by
    by_cases empty : cdev.recvqueue = []
    · obtain ⟨s₁, run, -, calm₁, cdev₁, dev₁, -⟩ := Serves.capiRecvMessage env ⟨calm, cdev, dev, rfl⟩
      exact ⟨s₁, by simpa [empty] using run, calm₁, cdev₁, dev₁⟩
    · exact ⟨s, by simp [empty], calm, cdev, dev⟩
  simp only [Capi.capiRead, dev, Option.bind_eq_bind, Option.bind_some, unregistered, if_false, recv, dev₁]
  cases queue : cdev₁.recvqueue with
  | nil => exact ⟨s₁, _, rfl, calm₁⟩
  | cons skb recvqueue =>
    simp only
    split
    · exact ⟨s₁, _, rfl, calm₁⟩
    · have asked := calm₁.tame (.asked s₁)
      split
      · exact ⟨_, _, rfl, asked⟩
      · refine ⟨_, _, rfl, asked.setDev dev₁ ?_⟩
        rfl

theorem Calm.capiPoll (calm : Calm s) {cdev : Capidev} (dev : s.devs d = some cdev) :
    ∃ s' res, capiPoll env s d = some (s', res) ∧ Calm s' := by
  by_cases unregistered : cdev.ap.id = 0
  · exact ⟨s, _, by simp only [Capi.capiPoll, dev, Option.bind_eq_bind, Option.bind_some, unregistered]; rfl, calm⟩
  obtain ⟨s₁, run, -, calm₁, cdev₁, dev₁, -⟩ := Serves.capiRecvMessage env ⟨calm, cdev, dev, rfl⟩
  exact ⟨s₁, _, by simp only [Capi.capiPoll, dev, Option.bind_eq_bind, Option.bind_some, unregistered, if_false, run, dev₁]; rfl,
    calm₁⟩

/-- The NCCIs of a file can be freed. -/
theorem Calm.capincciFree (calm : Calm s) {cdev : Capidev} (dev : s.devs d = some cdev) (ncci : UInt32) :
    ∃ s', capincciFree s d ncci = some s' ∧ Calm s' ∧
      s'.devs d = some { cdev with nccis := cdev.nccis.filter fun np => ! np.taken ncci } := by
  refine capincciFree_keeps (fun s cdev kept np rest inv => ?_) dev calm ncci
  obtain ⟨s', unlink, drop⟩ := inv.wired.capincciUnlink
  exact ⟨s', unlink, inv.wired.dropped drop, fun e mem => inv.quiet e (drop.talks ▸ mem)⟩

/-- Putting a message leaves the files alone. -/
theorem putCapiMessage_devs (s : Driver) (d : Nat) (data : Bytes) (info : Capinfo0x11) :
    (putCapiMessage s d data info).devs = s.devs :=
  (Tame.putCapiMessage s d data info).devs

theorem Calm.capiWrite (calm : Calm s) {cdev : Capidev} (dev : s.devs d = some cdev) (buf : Bytes) :
    ∃ s' res, capiWrite env s d buf = some (s', res) ∧ Calm s' := by
  have asked := calm.tame (.asked s)
  have dev' : s.asked.devs d = some cdev := dev
  simp only [Capi.capiWrite, dev, Option.bind_eq_bind, Option.bind_some]
  by_cases unregistered : cdev.ap.id = 0
  · exact ⟨_, _, if_pos unregistered, calm⟩
  rw [if_neg unregistered]
  by_cases mem : env.kmalloc s.tick = true
  case neg => exact ⟨_, _, if_pos mem, asked⟩
  rw [if_neg (not_not_intro mem)]
  by_cases fault : env.fault s.tick = true
  · exact ⟨_, _, if_pos fault, asked⟩
  rw [if_neg fault]
  generalize ({ data := buf, tailroom := 0, beyond := env.slab s.tick } : Skb) = skb
  by_cases size : (if skb.cmd = CAPI_DATA_B3_REQ then skb.msgLen + (skb.u16 16).toNat else skb.msgLen) ≠ buf.length
  · exact ⟨_, _, if_pos size, asked⟩
  rw [if_neg size]
  generalize skb.setU16 2 cdev.ap.id = skb
  obtain ⟨s₁, free, calm₁, cdev₁, dev₁⟩ : ∃ s₁, (if skb.cmd = CAPI_DISCONNECT_B3_RESP then Capi.capincciFree s.asked d skb.ncci
      else some s.asked) = some s₁ ∧ Calm s₁ ∧ ∃ cdev₁, s₁.devs d = some cdev₁ := by
    by_cases resp : skb.cmd = CAPI_DISCONNECT_B3_RESP
    · obtain ⟨s₁, run, calm₁, dev₁⟩ := asked.capincciFree dev' skb.ncci
      exact ⟨s₁, by rw [if_pos resp, run], calm₁, _, dev₁⟩
    · exact ⟨_, if_neg resp, asked, cdev, dev'⟩
  simp only [free, Option.bind_some, putCapiMessage_devs, dev₁]
  have calm₂ := calm₁.tame (.putCapiMessage s₁ d skb.data (env.put s.tick))
  have dev₂ := (congrFun (putCapiMessage_devs s₁ d skb.data (env.put s.tick)) d).trans dev₁
  refine ⟨_, _, rfl, calm₂.setDev dev₂ ?_⟩
  rfl

/-- A new file has no NCCIs. -/
theorem Wired.newFile (wired : Wired s) {cdev : Capidev} (empty : cdev.nccis = []) (list : List Nat) :
    Wired { s with
      devs := Function.update s.devs s.devNext (some cdev), devNext := s.devNext + 1, capidevList := list } := by
  have new : Function.update s.devs s.devNext (some cdev) s.devNext = some cdev := Function.update_self _ _ _
  have old {e : Nat} (other : e ≠ s.devNext) : Function.update s.devs s.devNext (some cdev) e = s.devs e :=
    Function.update_of_ne other _ _
  refine ⟨wired.listed, wired.sorted, fun e cdev' np p dev mem own => ?_, fun p mp live link => ?_,
    fun e cdev' dev => ?_, wired.fresh, fun e beyond => ?_⟩
  · by_cases eq : e = s.devNext
    · subst eq
      obtain rfl := Option.some.inj (new.symm.trans dev)
      rw [empty] at mem
      cases mem
    · exact wired.owned e cdev' np p ((old eq).symm.trans dev) mem own
  · obtain ⟨cdev', np, dev, mem, own⟩ := wired.attached p mp live link
    have other : mp.ap ≠ s.devNext := by
      intro eq
      rw [eq, wired.freshDev s.devNext (Nat.le_refl _)] at dev
      cases dev
    exact ⟨cdev', np, (old other).trans dev, mem, own⟩
  · by_cases eq : e = s.devNext
    · subst eq
      obtain rfl := Option.some.inj (new.symm.trans dev)
      rw [empty]
      exact List.Pairwise.nil
    · exact wired.distinct e cdev' ((old eq).symm.trans dev)
  · have later : s.devNext + 1 ≤ e := beyond
    exact (old (by omega)).trans (wired.freshDev e (Nat.le_of_succ_le later))

/-- No minor refers to a file without NCCIs. -/
theorem Wired.closedFile (wired : Wired s) {cdev : Capidev} (here : s.devs d = some cdev) (empty : cdev.nccis = [])
    (list : List Nat) : Wired { s with devs := Function.update s.devs d none, capidevList := list } := by
  have gone : Function.update s.devs d none d = none := Function.update_self _ _ _
  have old {e : Nat} (other : e ≠ d) : Function.update s.devs d none e = s.devs e := Function.update_of_ne other _ _
  have other {e : Nat} {cdev' : Capidev} (dev : Function.update s.devs d none e = some cdev') : e ≠ d := by
    rintro rfl
    cases gone.symm.trans dev
  refine ⟨wired.listed, wired.sorted, fun e cdev' np p dev mem own => ?_, fun p mp live link => ?_,
    fun e cdev' dev => ?_, wired.fresh, fun e beyond => ?_⟩
  · exact wired.owned e cdev' np p ((old (other dev)).symm.trans dev) mem own
  · obtain ⟨cdev', np, dev, mem, own⟩ := wired.attached p mp live link
    have apart : mp.ap ≠ d := by
      intro eq
      rw [eq, here] at dev
      obtain rfl := Option.some.inj dev
      rw [empty] at mem
      cases mem
    exact ⟨cdev', np, (old apart).trans dev, mem, own⟩
  · exact wired.distinct e cdev' ((old (other dev)).symm.trans dev)
  · by_cases eq : e = d
    · subst eq
      exact gone
    · exact (old eq).trans (wired.freshDev e beyond)

/-- An open keeps the driver calm. -/
theorem Calm.capidevAlloc (calm : Calm s) : Calm (capidevAlloc env s).1 := by
  have asked := calm.tame (.asked s)
  unfold Capi.capidevAlloc
  simp only
  split
  · exact asked
  · refine ⟨?_, asked.quiet⟩
    exact Wired.newFile asked.wired rfl _

theorem Calm.capidevFree (calm : Calm s) {cdev : Capidev} (dev : s.devs d = some cdev) :
    ∃ s', capidevFree s d = some s' ∧ Calm s' := by
  let ap : CapiAppl := if cdev.ap.id ≠ 0 then { cdev.ap with id := 0, msgQueue := [] } else cdev.ap
  let cdev' : Capidev := { cdev with ap, recvqueue := [] }
  have released : Calm (s.setDev d cdev') := calm.setDev dev rfl
  have here : (s.setDev d cdev').devs d = some cdev' := Function.update_self _ _ _
  obtain ⟨s₁, free, calm₁, dev₁⟩ := released.capincciFree here 0xffffffff
  refine ⟨{ s₁ with devs := Function.update s₁.devs d none, capidevList := s₁.capidevList.erase d }, ?_, ?_,
    calm₁.quiet⟩
  · simp only [Capi.capidevFree, dev, Option.bind_eq_bind, Option.bind_some]
    change (Capi.capincciFree (s.setDev d cdev') d 0xffffffff).bind _ = _
    rw [free, Option.bind_some]
  · exact calm₁.wired.closedFile dev₁ (by simp [Capincci.taken]) _

end Files

/-! ## Ttys -/

section Ttys

variable (env : Env) {tty p : Nat} {mp : Capiminor} {s : Driver}

/-- What a guarded operation finds: nothing to do, or an attached minor. -/
theorem Calm.ttyMinor (calm : Calm s) {P : Capiminor → Prop} (at_minor : AtMinor s tty P) :
    ttyMinor s tty = some none ∨
      ∃ p mp, ttyMinor s tty = some (some (p, mp)) ∧ s.minors p = some mp ∧ Attached s p := by
  unfold Capi.ttyMinor
  cases ref : s.ttys tty with
  | none => exact .inl rfl
  | some p =>
    obtain ⟨mp, live, -⟩ := at_minor p ref
    simp only [live, Option.bind_eq_bind, Option.bind_some]
    by_cases link : mp.nccip = true
    · exact .inr ⟨p, mp, by rw [if_pos link], live, calm.wired.isAttached live link⟩
    · exact .inl (by rw [if_neg link])

/-- A write to a terminal is tame. -/
theorem capincTtyWrite_tame (calm : Calm s) {P : Capiminor → Prop} (at_minor : AtMinor s tty P) (fromUser : Bool)
    (buf : Bytes) : ∃ s' res, capincTtyWrite env s tty fromUser buf = some (s', res) ∧ Tame s s' := by
  rcases calm.ttyMinor at_minor with nothing | ⟨p, mp, minor, live, attached⟩
  · exact ⟨s, 0, by simp [capincTtyWrite, nothing], .refl s⟩
  simp only [capincTtyWrite, minor, Option.bind_eq_bind, Option.bind_some]
  have flushed : Tame s (s.setMinor p (flushTtyskb mp)) := .setMinor live (flushTtyskb_links mp)
  have asked := flushed.trans (.asked _)
  have live₁ : (s.setMinor p (flushTtyskb mp)).asked.minors p = some (flushTtyskb mp) := Function.update_self _ _ _
  by_cases mem : env.kmalloc s.tick = true
  case neg => exact ⟨_, _, if_pos mem, asked⟩
  rw [if_neg (not_not_intro mem)]
  by_cases fault : fromUser = true ∧ env.fault s.tick = true
  · exact ⟨_, _, if_pos fault, asked⟩
  rw [if_neg fault]
  generalize ({ data := buf, tailroom := 0, beyond := env.slab s.tick } : Skb) = skb
  let mp₂ : Capiminor := { flushTtyskb mp with
    outqueue := (flushTtyskb mp).outqueue ++ [skb], outbytes := (flushTtyskb mp).outbytes + .ofNat skb.len }
  have queued : Tame s ((s.setMinor p (flushTtyskb mp)).asked.setMinor p mp₂) := asked.trans (.setMinor live₁ rfl)
  obtain ⟨s₃, n, send, tame₃⟩ := handleMinorSend_tame env (attached.tame queued)
  have sent := queued.trans tame₃
  obtain ⟨s₄, recv, tame₄⟩ := handleMinorRecv_tame env (attached.tame sent)
  refine ⟨s₄, buf.length, ?_, sent.trans tame₄⟩
  change (handleMinorSend env ((s.setMinor p (flushTtyskb mp)).asked.setMinor p mp₂) p).bind _ = _
  rw [send, Option.bind_some, recv, Option.bind_some]

/-- A new buffer for single characters is tame. -/
theorem newTtyskb_tame (live : s.minors p = some mp) (ch : UInt8) :
    ∃ s', capincTtyPutChar.newTtyskb env s p ch = some s' ∧ Tame s s' := by
  have live' : s.asked.minors p = some mp := live
  simp only [capincTtyPutChar.newTtyskb]
  split
  · simp only [live', Option.bind_eq_bind, Option.bind_some]
    refine ⟨_, rfl, (Tame.asked s).trans (.setMinor live' ?_)⟩
    rfl
  · exact ⟨_, rfl, .asked s⟩

theorem capincTtyPutChar_tame (calm : Calm s) {P : Capiminor → Prop} (at_minor : AtMinor s tty P) (ch : UInt8) :
    ∃ s', capincTtyPutChar env s tty ch = some s' ∧ Tame s s' := by
  rcases calm.ttyMinor at_minor with nothing | ⟨p, mp, minor, live, attached⟩
  · exact ⟨s, by simp [capincTtyPutChar, nothing], .refl s⟩
  simp only [capincTtyPutChar, minor, Option.bind_eq_bind, Option.bind_some]
  cases mp.ttyskb with
  | none => exact newTtyskb_tame env live ch
  | some skb =>
    simp only
    split
    · refine ⟨_, rfl, .setMinor live ?_⟩
      rfl
    · have flushed : Tame s (s.setMinor p (flushTtyskb mp)) := .setMinor live (flushTtyskb_links mp)
      obtain ⟨s₁, n, send, tame₁⟩ := handleMinorSend_tame env (attached.tame flushed)
      have sent := flushed.trans tame₁
      obtain ⟨mp₁, live₁, -⟩ := sent.minor live
      obtain ⟨s₂, run, tame₂⟩ := newTtyskb_tame env live₁ ch
      exact ⟨s₂, by simp [send, run], sent.trans tame₂⟩

theorem capincTtyFlushChars_tame (calm : Calm s) {P : Capiminor → Prop} (at_minor : AtMinor s tty P) :
    ∃ s', capincTtyFlushChars env s tty = some s' ∧ Tame s s' := by
  rcases calm.ttyMinor at_minor with nothing | ⟨p, mp, minor, live, attached⟩
  · exact ⟨s, by simp [capincTtyFlushChars, nothing], .refl s⟩
  simp only [capincTtyFlushChars, minor, Option.bind_eq_bind, Option.bind_some]
  split
  · have flushed : Tame s (s.setMinor p (flushTtyskb mp)) := .setMinor live (flushTtyskb_links mp)
    obtain ⟨s₁, n, send, tame₁⟩ := handleMinorSend_tame env (attached.tame flushed)
    have sent := flushed.trans tame₁
    obtain ⟨s₂, recv, tame₂⟩ := handleMinorRecv_tame env (attached.tame sent)
    exact ⟨s₂, by simp [send, recv], sent.trans tame₂⟩
  · simpa using handleMinorRecv_tame env attached

/-- Reception leaves what cannot be delivered. -/
theorem handleMinorRecv_undelivered (live : s.minors p = some mp) (running : mp.ttyinstop = false)
    (kept : ¬ Deliverable env s mp) : ∃ s', handleMinorRecv env s p = some s' ∧ Tame s s' := by
  simp only [handleMinorRecv, handleMinorRecvLoop, live, Option.bind_eq_bind, Option.bind_some]
  cases queue : mp.inqueue with
  | nil => exact ⟨s, rfl, .refl s⟩
  | cons skb inqueue =>
    let taken : Capiminor := { mp with inqueue, inbytes := mp.inbytes - .ofNat skb.len }
    have live₁ : (s.setMinor p taken).minors p = some taken := Function.update_self _ _ _
    have refused : handleRecvSkb env (s.setMinor p taken) p skb = some ((s.setMinor p taken).asked, false) := by
      simp only [handleRecvSkb, live₁, Option.bind_eq_bind, Option.bind_some]
      cases own : taken.tty with
      | none => rfl
      | some tty =>
        by_cases receive : env.receiveBuf s.tick = true
        case neg => exact if_pos receive
        by_cases room : (env.receiveRoom s.tick).any (· < (skb.len : Int) - skb.msgLen) = true
        case pos => simp [taken, running, Driver.setMinor, receive, room]
        have mem : ¬ env.kmalloc s.tick = true := fun mem =>
          kept ⟨skb, inqueue, queue, by rw [show mp.tty = some tty from own]; simp, receive, by simpa using room, mem⟩
        have built : genDataB3RespFor env (s.setMinor p taken) p skb = some (s.setMinor p taken, none) := by
          simp only [genDataB3RespFor, live₁, Option.bind_eq_bind, Option.bind_some]
          exact if_pos mem
        simp only [built, Option.bind_some]
        simp [taken, running, Driver.setMinor, receive, room]
    simp only
    change ∃ s', (handleRecvSkb env (s.setMinor p taken) p skb).bind _ = some s' ∧ Tame s s'
    have live₂ : (s.setMinor p taken).asked.minors p = some taken := live₁
    simp only [refused, Option.bind_some, Bool.false_eq_true, if_false, live₂]
    refine ⟨_, rfl, ((Tame.setMinor live ?_).trans (.asked _)).trans (.setMinor live₂ ?_)⟩ <;> rfl

/-! ## What was said stays said -/

/-- Putting a message for a file concerns no minor. -/
theorem putCapiMessage_talks (s : Driver) (d : Nat) (data : Bytes) (info : Capinfo0x11) :
    (putCapiMessage s d data info).talks = s.talks := by
  unfold putCapiMessage
  split <;> rfl

/-- A response is built for the minor's NCCI. -/
theorem genDataB3RespFor_talks {env : Env} {s' : Driver} {skb : Skb} {resp : Option Bytes}
    (run : genDataB3RespFor env s p skb = some (s', resp)) :
    s.talks ⊆ s'.talks ∧ (env.kmalloc s.tick = true → ∀ mp, s.minors p = some mp → (p, mp.nccip) ∈ s'.talks) := by
  obtain ⟨mp, live, run⟩ := Option.bind_eq_some_iff.mp run
  by_cases mem : env.kmalloc s.tick = true
  · rw [if_neg (not_not_intro mem)] at run
    obtain ⟨cdev, -, run⟩ := Option.bind_eq_some_iff.mp run
    cases run
    refine ⟨List.subset_append_left _ _, fun _ mq liveq => ?_⟩
    obtain rfl := Option.some.inj (live.symm.trans liveq)
    exact List.mem_append_right _ (List.mem_singleton_self _)
  · rw [if_pos mem] at run
    cases run
    exact ⟨List.Subset.refl _, fun got => absurd got mem⟩

/-- A block that the terminal takes is answered to the NCCI. -/
theorem handleRecvSkb_talks {env : Env} {s' : Driver} {skb : Skb} {ok : Bool}
    (run : handleRecvSkb env s p skb = some (s', ok)) :
    s.talks ⊆ s'.talks ∧ ∀ mp, s.minors p = some mp → mp.tty ≠ none → mp.ttyinstop = false →
      env.receiveBuf s.tick = true → (env.receiveRoom s.tick).any (· < (skb.len : Int) - skb.msgLen) = false →
      env.kmalloc s.tick = true → (p, mp.nccip) ∈ s'.talks := by
  obtain ⟨mp, live, run⟩ := Option.bind_eq_some_iff.mp run
  simp only at run
  cases own : mp.tty with
  | none =>
    rw [own] at run
    cases run
    refine ⟨List.Subset.refl _, fun mq liveq held => ?_⟩
    obtain rfl := Option.some.inj (live.symm.trans liveq)
    exact absurd own held
  | some tty =>
    rw [own] at run
    simp only at run
    by_cases receive : env.receiveBuf s.tick = true
    case neg =>
      rw [if_pos receive] at run
      cases run
      exact ⟨List.Subset.refl _, fun _ _ _ _ got => absurd got receive⟩
    rw [if_neg (not_not_intro receive)] at run
    by_cases stop : mp.ttyinstop = true
    · rw [if_pos stop] at run
      cases run
      refine ⟨List.Subset.refl _, fun mq liveq _ running => ?_⟩
      obtain rfl := Option.some.inj (live.symm.trans liveq)
      rw [stop] at running
      cases running
    rw [if_neg stop] at run
    by_cases room : (env.receiveRoom s.tick).any (· < (skb.len : Int) - skb.msgLen) = true
    · rw [if_pos room] at run
      cases run
      refine ⟨List.Subset.refl _, fun mq _ _ _ _ fits => ?_⟩
      rw [room] at fits
      cases fits
    rw [if_neg room] at run
    obtain ⟨⟨s₁, resp⟩, gen, run⟩ := Option.bind_eq_some_iff.mp run
    obtain ⟨more, said⟩ := genDataB3RespFor_talks gen
    have talks : s₁.talks ⊆ s'.talks := by
      cases resp with
      | none => cases run; exact List.Subset.refl _
      | some nskb =>
        simp only at run
        have kept : s₁.talks ⊆ (putCapiMessage (s₁.talk p mp) mp.ap nskb (env.put s.tick)).talks := by
          rw [putCapiMessage_talks]
          exact List.subset_append_left _ _
        split at run <;> cases run <;> exact kept
    exact ⟨List.Subset.trans more talks, fun mq liveq _ _ _ _ got => talks (said got mq liveq)⟩

/-- The loop of receives takes no call back. -/
theorem handleMinorRecvLoop_talks {env : Env} : ∀ {fuel : Nat} {s s' : Driver},
    handleMinorRecvLoop env fuel s p = some s' → s.talks ⊆ s'.talks
  | 0, _, _, run => nomatch run
  | fuel + 1, s, s', run => by
    obtain ⟨mp, live, run⟩ := Option.bind_eq_some_iff.mp run
    simp only at run
    split at run
    · cases run
      exact List.Subset.refl _
    · obtain ⟨⟨s₁, ok⟩, one, run⟩ := Option.bind_eq_some_iff.mp run
      have first := (handleRecvSkb_talks one).1
      simp only at run
      split at run
      · exact List.Subset.trans first (handleMinorRecvLoop_talks run)
      · obtain ⟨mp₁, -, run⟩ := Option.bind_eq_some_iff.mp run
        cases run
        exact first

/-- Reception that can deliver talks for the minor. -/
theorem handleMinorRecv_delivers {env : Env} {s' : Driver} (live : s.minors p = some mp) (running : mp.ttyinstop = false)
    (ready : Deliverable env s mp) (run : handleMinorRecv env s p = some s') : (p, mp.nccip) ∈ s'.talks := by
  obtain ⟨skb, inqueue, queue, held, receive, room, mem⟩ := ready
  simp only [handleMinorRecv, handleMinorRecvLoop, live, Option.bind_eq_bind, Option.bind_some, queue] at run
  obtain ⟨⟨s₁, ok⟩, one, run⟩ := Option.bind_eq_some_iff.mp run
  have said := (handleRecvSkb_talks one).2 _ (Function.update_self _ _ _) held running receive room mem
  simp only at run
  split at run
  · exact handleMinorRecvLoop_talks run said
  · obtain ⟨mp₁, -, run⟩ := Option.bind_eq_some_iff.mp run
    cases run
    exact said

/-- The loop of sends talks to the NCCI if there is something to send. -/
theorem handleMinorSendLoop_talks {env : Env} : ∀ {fuel : Nat} {s s' : Driver} {count n : Nat},
    handleMinorSendLoop env fuel s p count = some (s', n) →
      s.talks ⊆ s'.talks ∧ ∀ mp, s.minors p = some mp → mp.outqueue ≠ [] → (p, mp.nccip) ∈ s'.talks
  | 0, _, _, _, _, run => nomatch run
  | fuel + 1, s, s', count, n, run => by
    obtain ⟨mp, live, run⟩ := Option.bind_eq_some_iff.mp run
    simp only at run
    split at run
    · rename_i empty
      cases run
      refine ⟨List.Subset.refl _, fun mq liveq some_left => ?_⟩
      obtain rfl := Option.some.inj (live.symm.trans liveq)
      exact absurd empty some_left
    · obtain ⟨cdev, -, run⟩ := Option.bind_eq_some_iff.mp run
      -- the header is built before anything is asked for
      have first : (s.talk p mp).talks ⊆ s'.talks := by
        split at run
        · cases run
          exact List.Subset.refl _
        · have kept (mp' : Capiminor) (data : Bytes) : (s.talk p mp).talks ⊆
              (putCapiMessage ((s.talk p mp).asked.talk p mp') mp'.ap data (env.put s.tick)).talks := by
            rw [putCapiMessage_talks]
            exact List.subset_append_left _ _
          split at run
          · exact List.Subset.trans (kept _ _) (handleMinorSendLoop_talks run).1
          · split at run
            · cases run
              exact kept _ _
            · exact List.Subset.trans (kept _ _) (handleMinorSendLoop_talks run).1
      refine ⟨List.Subset.trans (List.subset_append_left _ _) first, fun mq liveq _ => ?_⟩
      obtain rfl := Option.some.inj (live.symm.trans liveq)
      exact first (List.mem_append_right _ (List.mem_singleton_self _))

/-- Starting a detached minor with data to send talks for it. -/
theorem handleMinorSend_sends {env : Env} {s' : Driver} {n : Nat} (live : s.minors p = some mp)
    (running : mp.ttyoutstop = false) (some_left : mp.outqueue ≠ []) (run : handleMinorSend env s p = some (s', n)) :
    (p, mp.nccip) ∈ s'.talks := by
  simp only [handleMinorSend, live, running, Option.bind_eq_bind, Option.bind_some, Bool.false_eq_true, and_false,
    if_false] at run
  exact (handleMinorSendLoop_talks run).2 mp live some_left

/-- With nothing to send it does nothing. -/
theorem handleMinorSend_empty (live : s.minors p = some mp) (empty : mp.outqueue = []) :
    handleMinorSend env s p = some (s, 0) := by
  simp only [handleMinorSend, handleMinorSendLoop, live, empty, Option.bind_eq_bind, Option.bind_some]
  split <;> rfl

/-! ## Calls -/

/-- An open of a terminal returns. -/
theorem Calm.ttyOpen (calm : Calm s) : ∃ s', ttyOpen env s tty = some s' ∧ Calm s' := by
  obtain ⟨found, find, facts⟩ := calm.wired.capiminorFind tty
  have refused : countOpen tty (s, - ENXIO) = s := by simp [countOpen, ENXIO]
  cases found with
  | none => exact ⟨s, by simp [Capi.ttyOpen, capincTtyOpen, find, refused], calm⟩
  | some p =>
    obtain ⟨mp, live, -⟩ := facts p rfl
    by_cases link : mp.nccip = true
    case neg => exact ⟨s, by simp [Capi.ttyOpen, capincTtyOpen, find, live, link, refused], calm⟩
    let mp' : Capiminor :=
      { mp with tty := if mp.ttyopencount = 0 then some tty else mp.tty, ttyopencount := mp.ttyopencount + 1 }
    let s₁ : Driver := { s with ttys := Function.update s.ttys tty (some p) }.setMinor p mp'
    have same : SameLinks s (s.setMinor p mp') := .setMinor live ⟨rfl, rfl, rfl⟩
    have calm₁ : Calm s₁ := calm.same (same.retty _ _) rfl
    obtain ⟨s₂, recv, tame⟩ := handleMinorRecv_tame env (calm₁.wired.isAttached (Function.update_self _ _ _) link)
    refine ⟨{ s₂ with opens := Function.update s₂.opens tty (s₂.opens tty + 1) }, ?_,
      (calm₁.tame tame).same ((SameLinks.refl s₂).retty _ _) rfl⟩
    simp only [Capi.ttyOpen, capincTtyOpen, find, live, Option.bind_eq_bind, Option.bind_some]
    rw [if_neg (not_not_intro link)]
    change ((handleMinorRecv env s₁ p).bind fun s₂ => some (s₂, 0)).map (countOpen tty) = _
    simp [recv, countOpen]

/-- A close of a terminal with a minor returns. -/
theorem Calm.ttyClose (calm : Calm s) {P : Capiminor → Prop} (at_minor : AtMinor s tty P) :
    ∃ s', ttyClose s tty = some s' ∧ Calm s' := by
  have counted {s : Driver} (calm : Calm s) : Calm (countClose tty s) :=
    calm.same ((SameLinks.refl s).retty _ _) rfl
  cases ref : s.ttys tty with
  | none => exact ⟨countClose tty s, by simp [Capi.ttyClose, capincTtyClose, ref], counted calm⟩
  | some p =>
    obtain ⟨mp, live, -⟩ := at_minor p ref
    -- the minor after the close, with or without its tty
    obtain ⟨mp', s₁, close, link, live₁, calm₁⟩ : ∃ (mp' : Capiminor) (s₁ : Driver), capincTtyClose s tty =
        (if ¬ mp'.nccip then capiminorFree s₁ p else some s₁) ∧ mp'.nccip = mp.nccip ∧ s₁.minors p = some mp' ∧
          Calm s₁ := by
      simp only [capincTtyClose, ref, live, Option.bind_eq_bind, Option.bind_some]
      by_cases last : mp.ttyopencount - 1 = 0
      · simp only [last, if_true]
        let mp' : Capiminor := { mp with tty := none, ttyopencount := 0 }
        have same : SameLinks s (s.setMinor p mp') := .setMinor live ⟨rfl, rfl, rfl⟩
        exact ⟨mp', { s with ttys := Function.update s.ttys tty none }.setMinor p mp', rfl, rfl,
          Function.update_self _ _ _, calm.same (same.retty _ _) rfl⟩
      · simp only [last, if_false]
        let mp' : Capiminor := { mp with ttyopencount := mp.ttyopencount - 1 }
        have same : SameLinks s (s.setMinor p mp') := .setMinor live ⟨rfl, rfl, rfl⟩
        exact ⟨mp', s.setMinor p mp', rfl, rfl, Function.update_self _ _ _, calm.same same rfl⟩
    by_cases attached : mp'.nccip = true
    · exact ⟨_, by rw [Capi.ttyClose, close, if_neg (not_not_intro attached), Option.map_some], counted calm₁⟩
    · obtain ⟨free, wired⟩ := calm₁.wired.freeDetached live₁ (by simpa using attached)
      exact ⟨_, by rw [Capi.ttyClose, close, if_pos attached, free, Option.map_some], counted ⟨wired, calm₁.quiet⟩⟩

/-- A flag of the minor is set. -/
theorem tame_mark (live : s.minors p = some mp) {mp' : Capiminor} (same : mp'.links = mp.links) :
    ∃ s', some (s.setMinor p mp') = some s' ∧ Tame s s' :=
  ⟨_, rfl, .setMinor live same⟩

theorem capincTtyThrottle_tame {P : Capiminor → Prop} (at_minor : AtMinor s tty P) :
    ∃ s', capincTtyThrottle s tty = some s' ∧ Tame s s' := by
  unfold capincTtyThrottle
  cases ref : s.ttys tty with
  | none => exact ⟨s, rfl, .refl s⟩
  | some p =>
    obtain ⟨mp, live, -⟩ := at_minor p ref
    simp only [live, Option.bind_eq_bind, Option.bind_some]
    exact tame_mark live rfl

theorem capincTtyStop_tame {P : Capiminor → Prop} (at_minor : AtMinor s tty P) :
    ∃ s', capincTtyStop s tty = some s' ∧ Tame s s' := by
  unfold capincTtyStop
  cases ref : s.ttys tty with
  | none => exact ⟨s, rfl, .refl s⟩
  | some p =>
    obtain ⟨mp, live, -⟩ := at_minor p ref
    simp only [live, Option.bind_eq_bind, Option.bind_some]
    exact tame_mark live rfl

/-- To unthrottle is tame if a minor without an NCCI has nothing to deliver. -/
theorem capincTtyUnthrottle_tame (calm : Calm s)
    (at_minor : AtMinor s tty fun mp => mp.nccip = false → ¬ Deliverable env s mp) :
    ∃ s', capincTtyUnthrottle env s tty = some s' ∧ Tame s s' := by
  unfold capincTtyUnthrottle
  cases ref : s.ttys tty with
  | none => exact ⟨s, rfl, .refl s⟩
  | some p =>
    obtain ⟨mp, live, kept⟩ := at_minor p ref
    simp only [live, Option.bind_eq_bind, Option.bind_some]
    let mp' : Capiminor := { mp with ttyinstop := false }
    have marked : Tame s (s.setMinor p mp') := .setMinor live rfl
    obtain ⟨s', run, tame⟩ : ∃ s', handleMinorRecv env (s.setMinor p mp') p = some s' ∧ Tame (s.setMinor p mp') s' := by
      by_cases link : mp.nccip = true
      · exact handleMinorRecv_tame env ((calm.wired.isAttached live link).tame marked)
      · exact handleMinorRecv_undelivered env (Function.update_self _ _ _) rfl (kept (by simpa using link))
    exact ⟨s', run, marked.trans tame⟩

/-- To start is tame if a minor without an NCCI has nothing to send. -/
theorem capincTtyStart_tame (calm : Calm s) (at_minor : AtMinor s tty fun mp => mp.nccip = false → mp.outqueue = []) :
    ∃ s', capincTtyStart env s tty = some s' ∧ Tame s s' := by
  unfold capincTtyStart
  cases ref : s.ttys tty with
  | none => exact ⟨s, rfl, .refl s⟩
  | some p =>
    obtain ⟨mp, live, kept⟩ := at_minor p ref
    simp only [live, Option.bind_eq_bind, Option.bind_some]
    let mp' : Capiminor := { mp with ttyoutstop := false }
    have marked : Tame s (s.setMinor p mp') := .setMinor live rfl
    by_cases link : mp.nccip = true
    · obtain ⟨s', n, run, tame⟩ := handleMinorSend_tame env ((calm.wired.isAttached live link).tame marked)
      exact ⟨s', by rw [run, Option.map_some], marked.trans tame⟩
    · have empty : mp'.outqueue = [] := kept (by simpa using link)
      exact ⟨_, by rw [handleMinorSend_empty env (Function.update_self _ _ _) empty, Option.map_some], marked⟩

end Ttys

/-- A discreet step returns and keeps the driver calm. -/
theorem Calm.step {s : Driver} (calm : Calm s) (env : Env) {op : Op} (allowed : Allowed s op)
    (discreet : Discreet env s op) : ∃ s', step env s op = some s' ∧ Calm s' := by
  have keep {o : Option Driver} (run : ∃ s', o = some s' ∧ Tame s s') : ∃ s', o = some s' ∧ Calm s' := by
    obtain ⟨s', run, tame⟩ := run
    exact ⟨s', run, calm.tame tame⟩
  have touch {d : Nat} {cdev cdev' : Capidev} (dev : s.devs d = some cdev) (same : cdev'.nccis = cdev.nccis) :
      ∃ s', some (s.setDev d cdev') = some s' ∧ Calm s' := ⟨_, rfl, calm.setDev dev same⟩
  cases op with
  | openFile => exact ⟨_, rfl, calm.capidevAlloc env⟩
  | ioctlRegister d info id =>
    obtain ⟨cdev, dev⟩ := Option.ne_none_iff_exists'.mp allowed
    simp only [Capi.step, capiIoctlRegister, dev, Option.bind_eq_bind, Option.bind_some]
    split
    · exact ⟨s, rfl, calm⟩
    · split <;> exact touch dev rfl
  | ioctlFlags d set userflags =>
    obtain ⟨cdev, dev⟩ := Option.ne_none_iff_exists'.mp allowed
    simp only [Capi.step, capiIoctlFlags, dev, Option.bind_eq_bind, Option.bind_some]
    exact touch dev rfl
  | enqueue d skb =>
    obtain ⟨cdev, dev⟩ := Option.ne_none_iff_exists'.mp allowed
    simp only [Capi.step, enqueueMessage, dev, Option.bind_eq_bind, Option.bind_some]
    exact touch dev rfl
  | signalError d info =>
    obtain ⟨cdev, dev⟩ := Option.ne_none_iff_exists'.mp allowed
    simp only [Capi.step, Capi.signalError, dev, Option.bind_eq_bind, Option.bind_some]
    exact touch dev rfl
  | read d count =>
    obtain ⟨cdev, dev⟩ := Option.ne_none_iff_exists'.mp allowed
    obtain ⟨s', res, run, after⟩ := calm.capiRead env dev count
    exact ⟨s', by simp [Capi.step, run], after⟩
  | poll d =>
    obtain ⟨cdev, dev⟩ := Option.ne_none_iff_exists'.mp allowed
    obtain ⟨s', res, run, after⟩ := calm.capiPoll env dev
    exact ⟨s', by simp [Capi.step, run], after⟩
  | write d buf =>
    obtain ⟨cdev, dev⟩ := Option.ne_none_iff_exists'.mp allowed
    obtain ⟨s', res, run, after⟩ := calm.capiWrite env dev buf
    exact ⟨s', by simp [Capi.step, run], after⟩
  | release d =>
    obtain ⟨cdev, dev⟩ := Option.ne_none_iff_exists'.mp allowed
    exact calm.capidevFree dev
  | ttyOpen tty => exact calm.ttyOpen env
  | ttyClose tty => exact calm.ttyClose discreet
  | ttyWrite tty fromUser buf =>
    obtain ⟨s', res, run, tame⟩ := capincTtyWrite_tame env calm discreet fromUser buf
    exact ⟨s', by simp [Capi.step, run], calm.tame tame⟩
  | ttyPutChar tty ch => exact keep (capincTtyPutChar_tame env calm discreet ch)
  | ttyFlushChars tty => exact keep (capincTtyFlushChars_tame env calm discreet)
  | ttyThrottle tty => exact keep (capincTtyThrottle_tame discreet)
  | ttyUnthrottle tty => exact keep (capincTtyUnthrottle_tame env calm discreet)
  | ttyStop tty => exact keep (capincTtyStop_tame discreet)
  | ttyStart tty => exact keep (capincTtyStart_tame env calm discreet)

/-! ## Calls that are not discreet -/

section Indiscreet

variable {env : Env} {s s' : Driver} {tty : Nat}

/-- The minor of a tty that is freed, or not as `P` says. -/
theorem not_atMinor {P : Capiminor → Prop} (other : ¬ AtMinor s tty P) :
    ∃ p, s.ttys tty = some p ∧ ∀ mp, s.minors p = some mp → ¬ P mp := by
  simp only [AtMinor, not_forall, not_exists, not_and] at other
  obtain ⟨p, ref, other⟩ := other
  exact ⟨p, ref, other⟩

/-- A terminal without a live minor points to one that is freed. -/
theorem freed_of_not_atMinor (other : ¬ AtMinor s tty fun _ => True) :
    ∃ p, s.ttys tty = some p ∧ s.minors p = none := by
  obtain ⟨p, ref, absent⟩ := not_atMinor other
  refine ⟨p, ref, ?_⟩
  cases live : s.minors p with
  | none => rfl
  | some mp => exact absurd trivial (absent mp live)

/-- To unthrottle a minor without an NCCI that has something to deliver talks to none. -/
theorem capincTtyUnthrottle_loud (other : ¬ AtMinor s tty fun mp => mp.nccip = false → ¬ Deliverable env s mp)
    (run : capincTtyUnthrottle env s tty = some s') : ¬ Quiet s' := by
  obtain ⟨p, ref, other⟩ := not_atMinor other
  simp only [capincTtyUnthrottle, ref] at run
  obtain ⟨mp, live, run⟩ := Option.bind_eq_some_iff.mp run
  have loud := other mp live
  simp only [Classical.not_imp, not_not] at loud
  have live' : (s.setMinor p { mp with ttyinstop := false }).minors p = some { mp with ttyinstop := false } :=
    Function.update_self _ _ _
  have said := handleMinorRecv_delivers live' rfl loud.2 run
  intro quiet
  exact absurd (quiet _ said) (by simp [loud.1])

/-- So does to start one that has something to send. -/
theorem capincTtyStart_loud (other : ¬ AtMinor s tty fun mp => mp.nccip = false → mp.outqueue = [])
    (run : capincTtyStart env s tty = some s') : ¬ Quiet s' := by
  obtain ⟨p, ref, other⟩ := not_atMinor other
  simp only [capincTtyStart, ref] at run
  obtain ⟨mp, live, run⟩ := Option.bind_eq_some_iff.mp run
  have loud := other mp live
  simp only [Classical.not_imp] at loud
  obtain ⟨⟨s₁, n⟩, send, rfl⟩ := Option.map_eq_some_iff.mp run
  have live' : (s.setMinor p { mp with ttyoutstop := false }).minors p = some { mp with ttyoutstop := false } :=
    Function.update_self _ _ _
  have said := handleMinorSend_sends live' rfl loud.2 send
  intro quiet
  exact absurd (quiet _ said) (by simp [loud.1])

/-- A call that is not discreet uses a freed minor, or talks for a detached one. -/
theorem indiscreet_loud {op : Op} (indiscreet : ¬ Discreet env s op) (run : step env s op = some s') : ¬ Quiet s' := by
  cases op with
  | ttyUnthrottle tty => exact capincTtyUnthrottle_loud indiscreet run
  | ttyStart tty => exact capincTtyStart_loud indiscreet run
  | ttyClose tty | ttyThrottle tty | ttyStop tty =>
    obtain ⟨p, ref, gone⟩ := freed_of_not_atMinor indiscreet
    simp [step, ttyClose, capincTtyClose, capincTtyThrottle, capincTtyStop, ref, gone] at run
  | ttyWrite tty fromUser buf | ttyPutChar tty ch | ttyFlushChars tty =>
    obtain ⟨p, ref, gone⟩ := freed_of_not_atMinor indiscreet
    have minor : ttyMinor s tty = none := by simp [ttyMinor, ref, gone]
    simp [step, capincTtyWrite, capincTtyPutChar, capincTtyFlushChars, minor] at run
  | _ => exact absurd trivial indiscreet

end Indiscreet

/-- In a run nothing is built for or put through a minor whose NCCI is gone, and no freed record is used, exactly
when every call is discreet. -/
theorem detached_silent_iff (env : Env) {ops : List Op} (allowed : Meets (step env) Allowed .init ops) :
    ((∃ s', exec (step env) .init ops = some s') ∧ Always (step env) Quiet .init ops) ↔
      Meets (step env) (Discreet env) .init ops :=
  exec_always_iff_meets Calm (fun _ calm => calm.quiet)
    (fun _ _ calm allowed discreet => calm.step env allowed discreet)
    (fun _ _ _ _ indiscreet _ run => indiscreet_loud indiscreet run) Calm.init allowed

/-- A message of the controller with the NCCI 0x101. -/
def messageOf (cmd : UInt8 × UInt8) : Bytes := [12, 0, 1, 0, cmd.1, cmd.2, 1, 0, 1, 1, 0, 0]

/-- A tty is opened and stopped with a character to send, then its NCCI goes away. -/
def hangup : List Op :=
  [.openFile, .ioctlFlags 0 true CAPIFLAG_HIGHJACKING, .ioctlRegister 0 .NOERR 1,
    .enqueue 0 { data := messageOf CAPI_CONNECT_B3_IND, tailroom := 0, beyond := fun _ => 0 }, .read 0 100, .ttyOpen 0,
    .ttyStop 0, .ttyWrite 0 true [65], .write 0 (messageOf CAPI_DISCONNECT_B3_RESP)]

/-- The run ends with a call on the terminal that is open. -/
theorem hangup_allowed {op : Op} (last : ∀ s, 0 < s.opens 0 → Allowed s op) :
    Meets (step .granting) Allowed .init (hangup ++ [op]) := by
  refine ⟨trivial, ?_⟩
  rintro _ ⟨⟩
  refine ⟨nofun, ?_⟩
  rintro _ ⟨⟩
  refine ⟨nofun, ?_⟩
  rintro _ ⟨⟩
  refine ⟨nofun, ?_⟩
  rintro _ ⟨⟩
  refine ⟨nofun, ?_⟩
  rintro _ ⟨⟩
  refine ⟨trivial, ?_⟩
  rintro _ ⟨⟩
  refine ⟨Nat.one_pos, ?_⟩
  rintro _ ⟨⟩
  refine ⟨Nat.one_pos, ?_⟩
  rintro _ ⟨⟩
  refine ⟨nofun, ?_⟩
  rintro _ ⟨⟩
  exact ⟨last _ Nat.one_pos, fun _ _ => trivial⟩

theorem detached_silent_hangup :
    (∃ s', exec (step .granting) .init (hangup ++ [.ttyClose 0]) = some s') ∧
      Always (step .granting) Quiet .init (hangup ++ [.ttyClose 0]) := by
  refine (detached_silent_iff .granting ?_).mpr ?_
  · exact hangup_allowed fun _ opened => opened
  refine ⟨trivial, ?_⟩
  rintro _ ⟨⟩
  refine ⟨trivial, ?_⟩
  rintro _ ⟨⟩
  refine ⟨trivial, ?_⟩
  rintro _ ⟨⟩
  refine ⟨trivial, ?_⟩
  rintro _ ⟨⟩
  refine ⟨trivial, ?_⟩
  rintro _ ⟨⟩
  refine ⟨trivial, ?_⟩
  rintro _ ⟨⟩
  refine ⟨?_, ?_⟩
  · rintro p ⟨⟩
    exact ⟨_, rfl, trivial⟩
  rintro _ ⟨⟩
  refine ⟨?_, ?_⟩
  · rintro p ⟨⟩
    exact ⟨_, rfl, trivial⟩
  rintro _ ⟨⟩
  refine ⟨trivial, ?_⟩
  rintro _ ⟨⟩
  refine ⟨?_, fun _ _ => trivial⟩
  rintro p ⟨⟩
  exact ⟨_, rfl, trivial⟩

/-- Starting the tty instead builds a DATA_B3_REQ for the minor and puts it. -/
theorem detached_sends :
    Meets (step .granting) Allowed .init (hangup ++ [.ttyStart 0]) ∧
      (exec (step .granting) .init (hangup ++ [.ttyStart 0])).map Driver.talks = some [(0, false), (0, false)] ∧
      ¬ ((∃ s', exec (step .granting) .init (hangup ++ [.ttyStart 0]) = some s') ∧
          Always (step .granting) Quiet .init (hangup ++ [.ttyStart 0])) := by
  refine ⟨hangup_allowed fun _ opened => opened, rfl, ?_⟩
  rintro ⟨⟨s', run⟩, always⟩
  have quiet := always.last run
  cases run
  exact absurd (quiet (0, false) (List.mem_cons_self)) (by decide)

end Capi4Linux.Capi
