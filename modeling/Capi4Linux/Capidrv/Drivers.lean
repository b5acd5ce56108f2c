import Capi4Linux.Capidrv.Dispatch

/-!
# The drivers that isdn4linux knows

isdn4linux knows a driver from `register_isdn` to `ISDN_STAT_UNLOAD`, and expects
each of its channels to be discharged before, from the last one down. It is told
of every card in this order, and knows exactly the drivers of the cards on the
list. Each of these cards is where a run of one card leads, so what holds along
the runs of a card holds of all cards of the driver.
-/

namespace Capi4Linux.Capidrv
open Machine

/-- A driver as isdn4linux knows it, with the number of its channels, after the stop of those still to be discharged. -/
inductive DriverState where
  | absent
  | registered (channels : Nat)
  | running (channels : Nat)
  | stopped (left : Nat)
  deriving DecidableEq

/-- What a status makes of the driver; `none` where isdn4linux does not expect it. -/
def DriverState.hear : DriverState → DriverStatus → Option DriverState
  | .absent, .register channels => some (.registered channels)
  | .registered channels, .RUN => some (.running channels)
  | .running channels, .STOP => some (.stopped channels)
  | .stopped (left + 1), .DISCH chan => if chan = left then some (.stopped left) else none
  | .stopped 0, .UNLOAD => some .absent
  | _, _ => none

/-- What isdn4linux was told of a driver. -/
def Global.heardOf (g : Global) (id : Int) : List DriverStatus :=
  (g.status.filter fun told => told.1 = id).map Prod.snd

/-- A driver that isdn4linux knows is one of the list, and the other way round. -/
def Global.knows (g : Global) (id : Int) : DriverState :=
  match findcontrbydriverid g id with
  | some x => .running x.env.nbchan
  | none => .absent

structure Roster (g : Global) : Prop where
  separate : Separate g
  reached : ∀ x ∈ g.contrList, ∃ ops, exec (step x.env) Card.init ops = some x.card
  heard : ∀ id, exec DriverState.hear .absent (g.heardOf id) = some (g.knows id)

section Drivers

variable {g g' : Global} {op : DriverOp}

/-- A new card is where a listen request and a trace leave it. -/
theorem startCard_reached (env : Env) (version : Option (Nat × Nat)) :
    exec (step env) Card.init [.listen, .trace version] = some (startCard env version) := rfl

/-- A new card is reached from the start. -/
theorem newContr_reached {applId contr nbchannel : UInt16} {a : AddAnswers} {x : Contr}
    (new : newContr applId contr nbchannel a = some x) : ∃ ops, exec (step x.env) Card.init ops = some x.card := by
  unfold newContr at new
  split at new
  · obtain ⟨myid, -, same⟩ := Option.map_eq_some_iff.1 new
    cases same
    exact ⟨_, startCard_reached _ a.version⟩
  · cases new

/-- What is reached stays so with every step. -/
theorem cardStep_reached {x y : Contr} (reached : ∃ ops, exec (step x.env) Card.init ops = some x.card)
    (run : cardStep op x = some y) : ∃ ops, exec (step y.env) Card.init ops = some y.card := by
  obtain ⟨ops, reached⟩ := reached
  obtain ⟨o, -, made⟩ := Option.bind_eq_some_iff.1 run
  obtain ⟨card, stepped, same⟩ := Option.map_eq_some_iff.1 made
  cases same
  refine ⟨ops ++ [o], ?_⟩
  rw [exec_append, reached, Option.bind_some, exec, stepped]
  rfl

/-- What a driver hears goes on with what is told of it. -/
theorem heardOf_append {told : List (Int × DriverStatus)} (status : g'.status = g.status ++ told) (id : Int) :
    g'.heardOf id = g.heardOf id ++ (told.filter fun t => t.1 = id).map Prod.snd := by
  unfold Global.heardOf
  rw [status, List.filter_append, List.map_append]

/-- Where nothing is told nothing is heard. -/
theorem heardOf_of_status (status : g'.status = g.status) (id : Int) : g'.heardOf id = g.heardOf id := by
  unfold Global.heardOf
  rw [status]

/-- What isdn4linux knows of an id is whether a card is registered with it. -/
theorem knows_eq_find (g : Global) (id : Int) :
    g.knows id = ((g.contrList.map Contr.registered).find? fun r => r.1 = id).elim .absent fun r => .running r.2 := by
  have view : (g.contrList.map Contr.registered).find? (fun r => r.1 = id) =
      (findcontrbydriverid g id).map Contr.registered := List.find?_map
  rw [view, Global.knows]
  cases findcontrbydriverid g id with
  | none => rfl
  | some x => rfl

/-- It depends on the registered cards only. -/
theorem knows_of_registered (same : g'.contrList.map Contr.registered = g.contrList.map Contr.registered) (id : Int) :
    g'.knows id = g.knows id := by
  rw [knows_eq_find, knows_eq_find, same]

/-- A stopped driver has its channels discharged one by one. -/
theorem hear_discharged (nbchan : Nat) :
    exec DriverState.hear (.stopped nbchan) ((List.range nbchan).reverse.map .DISCH) = some (.stopped 0) := by
  induction nbchan with
  | zero => rfl
  | succ nbchan ih =>
    rw [List.range_succ, List.reverse_append, List.reverse_singleton, List.singleton_append, List.map_cons, exec,
      DriverState.hear, if_pos rfl, Option.bind_some]
    exact ih

/-- A running driver is stopped, has all its channels discharged, and is unloaded. -/
theorem hear_removed (nbchan : Nat) :
    exec DriverState.hear (.running nbchan) (.STOP :: (List.range nbchan).reverse.map .DISCH ++ [.UNLOAD]) =
      some .absent := by
  rw [List.cons_append, exec, DriverState.hear, Option.bind_some, exec_append, hear_discharged]
  rfl

theorem Roster.init (applId : UInt16) : Roster (Global.init applId) where
  separate := Separate.init applId
  reached x mem := by cases mem
  heard id := rfl

/-- A new card is told of in order. -/
theorem Roster.add (h : Roster g) {contr nbchannel : UInt16} {a : AddAnswers}
    (allowed : g.Allowed (.add contr nbchannel a)) : Roster (capidrvAddcontr g contr nbchannel a).2 := by
  have list := (capidrvAddcontr_list g contr nbchannel a).1
  have status : (capidrvAddcontr g contr nbchannel a).2.status =
      g.status ++ (newContr g.applId contr nbchannel a).toList.flatMap fun x =>
        [(x.myid, .register x.env.nbchan), (x.myid, .RUN)] := by
    unfold capidrvAddcontr newContr
    cases a.tryModuleGet with
    | false => simp
    | true =>
      cases a.contrMem with
      | false => simp
      | true =>
        cases a.bchansMem with
        | false => simp
        | true =>
          cases a.registerIsdn with
          | none => simp
          | some myid => simp [AddAnswers.env]
  refine ⟨h.separate.add allowed, ?_, fun id => ?_⟩
  · intro x mem
    rw [list, List.mem_append] at mem
    rcases mem with new | old
    · exact newContr_reached (Option.mem_toList.1 new)
    · exact h.reached x old
  · rw [heardOf_append status, exec_append, h.heard id, Option.bind_some]
    unfold Global.knows findcontrbydriverid
    rw [list]
    cases new : newContr g.applId contr nbchannel a with
    | none => rfl
    | some x =>
      have unused := allowed.2 x.myid (newContr_number new).2
      rw [Option.toList_some, List.singleton_append]
      by_cases here : x.myid = id
      · have unknown : (g.contrList.find? fun y => y.myid = id) = none :=
          List.find?_eq_none.2 fun y mem same => unused y mem ((of_decide_eq_true same).trans here.symm)
        rw [unknown, List.find?_cons_of_pos (by simpa using here)]
        simp [here, exec, DriverState.hear]
      · rw [List.find?_cons_of_neg (by simpa using here)]
        simp [here, exec]

/-- The other drivers stay on the list. -/
theorem Separate.findcontrbydriverid_remove (h : Separate g) {x : Contr} {contr : UInt32} (mem : x ∈ g.contrList)
    (number : x.env.contrnr = contr) (id : Int) :
    ((g.contrList.eraseP fun y => y.env.contrnr = contr).find? fun y => y.myid = id) =
      if x.myid = id then none else findcontrbydriverid g id := by
  obtain ⟨y, before, after, -, met, list, remaining⟩ :=
    List.exists_of_eraseP (p := fun y => decide (y.env.contrnr = contr)) mem (decide_eq_true number)
  have same : y = x := by
    have mem' : y ∈ g.contrList := by simp [list]
    exact List.inj_on_of_nodup_map h.numbers mem' mem ((of_decide_eq_true met).trans number.symm)
  subst same
  have ids := h.ids
  rw [list, List.map_append, List.map_cons, List.nodup_middle, List.nodup_cons, ← List.map_append] at ids
  rw [remaining, findcontrbydriverid, list]
  split
  · rename_i here
    refine List.find?_eq_none.2 fun z mem met => ids.1 ?_
    have alike : z.myid = y.myid := (of_decide_eq_true met).trans here.symm
    exact alike ▸ List.mem_map_of_mem mem
  · rename_i other
    rw [List.find?_append, List.find?_append, List.find?_cons_of_neg (by simpa using other)]

theorem Roster.remove (h : Roster g) {contr : UInt16} {r : Int} (run : capidrvDelcontr g contr = some (r, g')) :
    Roster g' := by
  have separate := (h.separate.remove run).1
  unfold capidrvDelcontr at run
  cases found : findcontrbynumber g contr.toUInt32 with
  | none =>
    rw [found] at run
    cases run
    exact h
  | some x =>
    rw [found] at run
    obtain ⟨⟨s, bugs⟩, -, run⟩ := Option.bind_eq_some_iff.1 run
    have mem : x ∈ g.contrList := List.mem_of_find?_eq_some found
    have number : x.env.contrnr = contr.toUInt32 := by simpa using List.find?_some found
    have status : g'.status = g.status ++ (DriverStatus.STOP :: (List.range x.env.nbchan).reverse.map .DISCH ++
        [DriverStatus.UNLOAD]).map fun status => (x.myid, status) := by
      cases run
      simp [Function.comp_def]
    have list : g'.contrList = g.contrList.eraseP fun y => y.env.contrnr = contr.toUInt32 := by
      cases run
      rfl
    refine ⟨separate, ?_, fun id => ?_⟩
    · intro y stays
      rw [list] at stays
      exact h.reached y (List.mem_of_mem_eraseP stays)
    · have remaining : findcontrbydriverid g' id = if x.myid = id then none else findcontrbydriverid g id := by
        rw [findcontrbydriverid, list, h.separate.findcontrbydriverid_remove mem number id]
      rw [heardOf_append status, exec_append, h.heard id, Option.bind_some, Global.knows, Global.knows, remaining,
        List.filter_map, List.map_map]
      by_cases here : x.myid = id
      · have known : findcontrbydriverid g id = some x := here ▸ h.separate.findId mem
        rw [if_pos here, known, ← hear_removed x.env.nbchan]
        simp [Function.comp_def, here]
      · rw [if_neg here]
        simp [Function.comp_def, here, exec]

/-- An event for one card leaves what isdn4linux knows. -/
theorem Roster.step (h : Roster g) (allowed : g.Allowed op) (run : g.step op = some g') : Roster g' := by
  have forCard (card : op.toCard ≠ none) : Roster g' := by
    rw [step_first card] at run
    obtain ⟨-, -, run⟩ := Option.bind_eq_some_iff.1 run
    have first := h.separate.firstStep run
    obtain ⟨separate, registered, status⟩ := (first 0).2
    refine ⟨separate, ?_, fun id => ?_⟩
    · intro y mem
      have own := (first y.env.contrnr).1
      rw [separate.find mem] at own
      cases before : findcontrbynumber g y.env.contrnr with
      | none =>
        rw [before] at own
        cases own
      | some x =>
        have reached := h.reached x (List.mem_of_find?_eq_some before)
        rw [before, ownStep] at own
        split at own
        · obtain ⟨z, stepped, same⟩ := Option.map_eq_some_iff.1 own
          cases same
          exact cardStep_reached reached stepped
        · cases own
          exact reached
    · rw [heardOf_of_status status, knows_of_registered registered]
      exact h.heard id
  cases op with
  | add contr nbchannel a =>
    cases run
    exact h.add allowed
  | remove contr =>
    obtain ⟨⟨r, g''⟩, removed, same⟩ := Option.map_eq_some_iff.1 run
    cases same
    exact h.remove removed
  | recv msg => exact forCard (by simp [DriverOp.toCard])
  | command driver c => exact forCard (by simp [DriverOp.toCard])
  | sendbuf driver chan doack skb => exact forCard (by simp [DriverOp.toCard])
  | readstat driver len => exact forCard (by simp [DriverOp.toCard])
  | listen contr => exact forCard (by simp [DriverOp.toCard])

end Drivers

/-- In every interleaving isdn4linux hears of each driver that it is registered, runs, is stopped, has each of its
channels discharged, from the last one down, and is unloaded, in this order, and knows it as long as its card is on the
list; the cards are counted, keep their numbers apart, and each is where a run of one card leads, so that no two calls on
it share a channel. -/
theorem drivers_announced (applId : UInt16) (ops : List DriverOp)
    (allowed : Meets Global.step Global.Allowed (Global.init applId) ops) :
    Always Global.step (fun g => Roster g ∧ ∀ x ∈ g.contrList, Exclusive x.env.nbchan x.card) (Global.init applId) ops := by
  have roster : Always Global.step Roster (Global.init applId) ops :=
    always_of_inv (fun g op g' h ok run => h.step ok run) (Roster.init applId) allowed
  refine roster.mono fun g h => ⟨h, fun x mem => ?_⟩
  obtain ⟨cardOps, reached⟩ := h.reached x mem
  have valid := always_of_inv (fun s op s' valid _ run => valid_step valid run) (valid_init x.env)
    (Meets.unconditional (step x.env) Card.init cardOps)
  exact (valid.last reached).exclusive

theorem drivers_announced_comeAndGo :
    Always Global.step (fun g => Roster g ∧ ∀ x ∈ g.contrList, Exclusive x.env.nbchan x.card) (Global.init 1) comeAndGo :=
  drivers_announced 1 comeAndGo comeAndGo_allowed

end Capi4Linux.Capidrv
