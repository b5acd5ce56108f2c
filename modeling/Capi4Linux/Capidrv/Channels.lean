import Capi4Linux.Capidrv.Valid

/-!
# Channels and calls

Dials by number and incoming calls by search claim the channels of a card. At
every moment a channel has at most one call, and it is free again when its call
is released.
-/

namespace Capi4Linux.Capidrv
open Bytes Capicore Capiutil Machine

/-- The listed calls are on channels of their own, and no record is freed twice. -/
structure Exclusive (nbchan : Nat) (s : Card) : Prop where
  listed : ∀ p ∈ s.plciList, ∃ plci, s.plcis p = some plci ∧ plci.chan < nbchan
  distinct : ∀ p q plci plci', s.plcis p = some plci → s.plcis q = some plci' → plci.chan = plci'.chan → p = q
  plcip : ∀ c p, (s.bchans c).plcip = some p ↔ p ∈ s.plciList ∧ ∃ plci, s.plcis p = some plci ∧ plci.chan = c
  freed : s.freed.Nodup ∧ ∀ p ∈ s.freed, s.plcis p = none ∧ p ∉ s.plciList

/-- A new call is given a channel that was free, and a freed call leaves its channel free and unmarked. -/
structure Handover (s s' : Card) : Prop where
  taken : ∀ p plci, s'.plcis p = some plci → s.plcis p = none → (s.bchans plci.chan).plcip = none
  freed : ∀ p plci, s.plcis p = some plci → s'.plcis p = none → p ∈ s'.freed
  released : ∀ p ∈ s'.freed, p ∉ s.freed → ∃ plci, s.plcis p = some plci ∧ (s'.bchans plci.chan).plcip = none ∧
    (s'.bchans plci.chan).disconnecting = false ∧ (s'.bchans plci.chan).incoming = false

/-- A message or a command makes the driver follow no pointer to a freed record. A command to accept a call may be
for a channel without one; the numbers of a CONNECT_IND must fit, and a number that is dialled must have an end. -/
structure Defined (env : Env) (s : Card) : Prop where
  recv : ∀ msg cmsg, capiMessage2cmsg msg = some cmsg → 0 < env.nbchan → (cmd cmsg = CAPI_CONNECT_IND → NumbersFit cmsg) →
    (∀ command ∈ (env.icall (s.tick + 1)).1, command.Safe env) → ∃ s', step env s (.recv msg) = some s'
  command : ∀ command, 0 < env.nbchan → command.Safe env → ∃ s', step env s (.command command) = some s'

section Channels

variable {env : Env} {s s' : Card}

/-- A call that is not on the card is not among the links. -/
theorem plcis_none_iff (s : Card) (p : Nat) : s.links.plcis p = none ↔ s.plcis p = none := Option.map_eq_none_iff

/-- On a valid card each channel has one call at most. -/
theorem Valid.exclusive (valid : Valid env s) : Exclusive env.nbchan s := by
  have wired := valid.wired
  have live : ∀ p, p ∈ s.plciList ↔ s.plcis p ≠ none := by
    intro p
    rw [ne_eq, ← plcis_none_iff]
    exact wired.listed p
  constructor
  · intro p member
    obtain ⟨plci, found⟩ := Option.ne_none_iff_exists'.mp ((live p).mp member)
    exact ⟨plci, found, (wired.chan p _ _ (links_plcis found)).1⟩
  · intro p q plci plci' first second same
    have mine := (wired.chan p _ _ (links_plcis first)).2
    have its := (wired.chan q _ _ (links_plcis second)).2
    rw [same, its] at mine
    exact (Option.some.inj mine).symm
  · intro c p
    constructor
    · intro owner
      obtain ⟨ns, link⟩ := wired.owner c p owner
      obtain ⟨plci, found, chan, -⟩ := plcis_of_links link
      exact ⟨wired.listedPlci found, plci, found, chan⟩
    · intro ⟨_, plci, found, chan⟩
      exact chan ▸ (wired.chan p _ _ (links_plcis found)).2
  · refine ⟨wired.freed.1, fun p member => ?_⟩
    have dead := (plcis_none_iff s p).mp (wired.freed.2 p member).2
    exact ⟨dead, fun listed => (live p).mp listed dead⟩

/-- Links that only grow hand nothing over. -/
theorem Extends.handover (grown : Extends s.links s'.links) : Handover s s' := by
  constructor
  · intro p plci live new
    exact grown.news p _ _ (links_plcis live) ((plcis_none_iff s p).mpr new)
  · intro p plci live gone
    obtain ⟨ns, kept⟩ := grown.kept p _ _ (links_plcis live)
    rw [(plcis_none_iff s' p).mpr gone] at kept
    cases kept
  · intro p member old
    have same : s'.freed = s.freed := grown.freed
    exact absurd (same ▸ member) old

theorem handover_of_eq (valid : Valid env s) (same : s'.links = s.links) : Handover s s' := by
  apply Extends.handover
  exact (Grows.of_eq same).extends valid.wired

/-- Dropping a connection leaves the calls alone. -/
theorem handover_dropNcci {n p chan : Nat} {ns : List Nat} (live : s.links.plcis p = some (chan, ns))
    (drops : s'.links = s.links.dropNcci n p chan ns) : Handover s s' := by
  have calls : ∀ q, s'.plcis q = none ↔ s.plcis q = none := by
    intro q
    rw [← plcis_none_iff, ← plcis_none_iff, drops]
    rcases eq_or_ne q p with rfl | other
    · simp [Links.dropNcci, live]
    · simp only [Links.dropNcci, Function.update_of_ne other]
  constructor
  · intro q plci here new
    rw [(calls q).mpr new] at here
    cases here
  · intro q plci here gone
    rw [(calls q).mp gone] at here
    cases here
  · intro q member old
    have same : s'.freed = s.freed := congrArg Links.freed drops
    exact absurd (same ▸ member) old

/-- A dropped call gives its channel up. -/
theorem DropsCall.handover {p : Nat} {plci : Plci} (live : s.plcis p = some plci) (drops : DropsCall s p plci s') :
    Handover s s' := by
  have calls : ∀ q, q ≠ p → (s'.plcis q = none ↔ s.plcis q = none) := by
    intro q other
    rw [← plcis_none_iff, ← plcis_none_iff, drops.links]
    simp only [Links.dropPlci, Function.update_of_ne other]
  have gone : s'.plcis p = none := by
    rw [← plcis_none_iff, drops.links]
    exact Function.update_self _ _ _
  have freed : s'.freed = s.freed ++ [p] := congrArg Links.freed drops.links
  constructor
  · intro q plci' here new
    have other : q ≠ p := by
      rintro rfl
      cases gone.symm.trans here
    rw [(calls q other).mpr new] at here
    cases here
  · intro q plci' here dead
    rcases eq_or_ne q p with rfl | other
    · rw [freed]
      exact List.mem_append_right _ (List.mem_singleton_self q)
    · rw [(calls q other).mp dead] at here
      cases here
  · intro q member old
    rw [freed] at member
    rcases List.mem_append.mp member with before | last
    · exact absurd before old
    · obtain rfl := List.mem_singleton.mp last
      refine ⟨plci, live, ?_, drops.disconnecting, drops.incoming⟩
      have vacant : s'.links.plcip plci.chan = none := by
        rw [drops.links]
        exact Function.update_self _ _ _
      exact vacant

/-- In a step a channel changes hands only when its call ends. -/
theorem handover_step (valid : Valid env s) {op : Op} (run : step env s op = some s') : Handover s s' := by
  cases transition valid run with
  | calm calm => exact handover_of_eq valid calm.links
  | command effect => exact ((effect_grows effect).extends valid.wired).handover
  | data at_channel conn live active sends => exact handover_of_eq valid sends.calm.links
  | @recv msg cmsg s₁ decoded reaction =>
    have handled : Handover s s₁ := by
      cases reaction_links valid reaction with
      | grows grows => exact (grows.extends valid.wired).handover
      | call releases drops => exact drops.handover releases.live
      | conn releases drops => exact handover_dropNcci (links_plcis releases.conn.call) drops
    unfold confirm
    split
    · exact ⟨handled.taken, handled.freed, handled.released⟩
    · exact handled

/-- On a valid card no pointer to a freed record is followed. -/
theorem Valid.defined (valid : Valid env s) : Defined env s := by
  constructor
  · intro msg cmsg decoded channels fit safe
    have incoming : cmd cmsg = CAPI_CONNECT_IND → ∃ s', handleIncomingCall env s cmsg = some s' := fun message =>
      incomingCall_defined valid (fit message) fun chan found _ =>
        commands_defined (offered_valid valid found cmsg) channels safe
    obtain ⟨s₁, handled⟩ := handleMessage_defined valid (payload msg) fun _ => incoming
    exact ⟨confirm env s₁ cmsg, recv_eq decoded handled⟩
  · intro command channels safe
    obtain ⟨⟨s', res⟩, ran⟩ := command_defined valid channels safe.other (safe.ends s)
    exact ⟨s', congrArg (Option.map Prod.fst) ran⟩

/-- In every run the calls of a card have channels of their own; a channel in use is never given to a second call,
and it is available again when its call is freed, which happens once. -/
theorem channels_exclusive (env : Env) (ops : List Op) :
    Always (step env) (fun s => Exclusive env.nbchan s ∧ Defined env s) Card.init ops ∧
      Each (step env) (fun s _ s' => Handover s s') Card.init ops := by
  have free := Meets.unconditional (step env) Card.init ops
  constructor
  · have valid := always_of_inv (fun s op s' valid _ run => valid_step valid run) (valid_init env) free
    exact valid.mono fun s valid => ⟨valid.exclusive, valid.defined⟩
  · refine each_of_inv (Valid env) ?_ (valid_init env) free
    intro s op s' valid _ run
    exact ⟨handover_step valid run, valid_step valid run⟩

end Channels

end Capi4Linux.Capidrv
