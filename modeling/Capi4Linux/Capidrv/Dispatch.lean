import Capi4Linux.Capidrv.Controllers
import Capi4Linux.Capidrv.Channels

/-!
# Controllers side by side

Seen from one controller number, the driver is a machine of its own: it looks at
every event, takes part in those addressed to its card, and never sees another
card. The list of cards behaves as these machines do together.
-/

namespace Capi4Linux.Capidrv
open Bytes Capicore Capiutil Machine Projection

/-- What an event is for the card that it is addressed to. -/
def DriverOp.toCard : DriverOp → Option Op
  | .add _ _ _ => none
  | .remove _ => none
  | .recv msg => some (.recv msg)
  | .command _ c => some (.command c)
  | .sendbuf _ chan doack skb => some (.sendbuf chan doack skb)
  | .readstat _ len => some (.readstat len)
  | .listen _ => some .listen

/-- The event is addressed to the card. -/
def DriverOp.concerns (op : DriverOp) (x : Contr) : Bool :=
  match op with
  | .add _ _ _ => false
  | .remove _ => false
  | .recv msg => (capiMessage2cmsg msg).any fun cmsg => x.env.contrnr = cmsg.adr &&& 0x7f
  | .command driver _ => x.myid = driver
  | .sendbuf driver _ _ _ => x.myid = driver
  | .readstat driver _ => x.myid = driver
  | .listen contr => x.env.contrnr = contr

/-- The card that `capidrv_addcontr` puts on the list. -/
def newContr (applId contr nbchannel : UInt16) (a : AddAnswers) : Option Contr :=
  if a.tryModuleGet ∧ a.contrMem ∧ a.bchansMem then
    a.registerIsdn.map fun myid => ⟨a.env applId contr nbchannel, myid, startCard (a.env applId contr nbchannel) a.version⟩
  else none

/-- The driver id and the number of channels that the card has at isdn4linux. -/
def Contr.registered (x : Contr) : Int × Nat := (x.myid, x.env.nbchan)

/-- The card makes the step that the event is for it. -/
def cardStep (op : DriverOp) (x : Contr) : Option Contr :=
  op.toCard.bind fun op => (step x.env x.card op).map fun card => { x with card := card }

/-- A controller and an event that is for one card. -/
def ownStep (op : DriverOp) : Option Contr → Option (Option Contr)
  | none => some none
  | some x => if op.concerns x then (cardStep op x).map some else some (some x)

/-- The driver as the controller with number `k` sees it: its own card, if it has one. A message must be one that
`capi_message2cmsg` can read, whomever it is for. -/
def soloStep (applId : UInt16) (k : UInt32) (x : Option Contr) (op : DriverOp) : Option (Option Contr) :=
  match op with
  | .add contr nbchannel a => some (if contr.toUInt32 = k then newContr applId contr nbchannel a else x)
  | .remove contr =>
    if contr.toUInt32 = k then
      match x with
      | none => some none
      | some x => (delChannels x.env.nbchan x.card).map fun _ => none
    else some x
  | .recv msg => (capiMessage2cmsg msg).bind fun _ => ownStep op x
  | _ => ownStep op x

/-- Controller numbers and driver ids are given once, and the cards are counted. -/
structure Separate (g : Global) : Prop where
  numbers : (g.contrList.map fun x => x.env.contrnr).Nodup
  ids : (g.contrList.map Contr.myid).Nodup
  count : g.ncontr = g.contrList.length
  refs : g.contrList.length ≤ g.moduleRefs

section Dispatch

variable {g g' : Global} {op : DriverOp}

/-- A card keeps its controller and its driver id. -/
theorem cardStep_keeps {x y : Contr} (run : cardStep op x = some y) : y.env = x.env ∧ y.myid = x.myid := by
  obtain ⟨o, -, run⟩ := Option.bind_eq_some_iff.1 run
  obtain ⟨card, -, same⟩ := Option.map_eq_some_iff.1 run
  cases same
  exact ⟨rfl, rfl⟩

/-- Whatever an event answers, its effect on the list is one step of the first card it is addressed to. -/
theorem onCard_snd {ρ : Type} (g : Global) (p : Contr → Bool) (absent : ρ) (f : Env → Card → Option (ρ × Card)) :
    (onCard g p absent f).map Prod.snd =
      (onFirst p (fun x => ((f x.env x.card).map fun e => ((), { x with card := e.2 })).map fun e => (e.1, [e.2])) ()
        g.contrList).map fun e => { g with contrList := e.2 } := by
  unfold onCard
  generalize g.contrList = xs
  have lists : (onFirst p (fun x => (f x.env x.card).map fun e => (e.1, [{ x with card := e.2 }])) absent xs).map Prod.snd =
      (onFirst p (fun x => ((f x.env x.card).map fun e => ((), { x with card := e.2 })).map fun e => (e.1, [e.2])) ()
        xs).map Prod.snd := by
    induction xs with
    | nil => rfl
    | cons x xs ih =>
      rw [onFirst, onFirst]
      split
      · cases f x.env x.card with
        | none => rfl
        | some e => rfl
      · rw [Option.map_map, Option.map_map]
        have cons := congrArg (Option.map fun ys => x :: ys) ih
        rw [Option.map_map, Option.map_map] at cons
        exact cons
  have whole := congrArg (Option.map fun ys => ({ g with contrList := ys } : Global)) lists
  rw [Option.map_map, Option.map_map] at whole
  rw [Option.map_map]
  exact whole

/-- A message can be read. -/
def DriverOp.readable : DriverOp → Option Unit
  | .recv msg => (capiMessage2cmsg msg).map fun _ => ()
  | _ => some ()

/-- The step of the first card that an event is addressed to. -/
def firstStep (op : DriverOp) (g : Global) : Option Global :=
  (onFirst op.concerns (fun x => ((cardStep op x).map fun y => ((), y)).map fun (r, y) => (r, [y])) () g.contrList).map
    fun e => { g with contrList := e.2 }

/-- An event that is for one card steps that card. -/
theorem step_first (card : op.toCard ≠ none) : g.step op = op.readable.bind fun _ => firstStep op g := by
  cases op with
  | add => exact absurd rfl card
  | remove => exact absurd rfl card
  | recv msg =>
    simp only [Global.step, recvMessage, DriverOp.readable, firstStep, Option.bind_eq_bind]
    cases decoded : capiMessage2cmsg msg with
    | none => rfl
    | some cmsg =>
      rw [Option.bind_some, Option.map_some, Option.bind_some, onCard_snd]
      have heard : DriverOp.concerns (.recv msg) = fun x => decide (x.env.contrnr = cmsg.adr &&& 0x7f) := by
        funext x
        simp [DriverOp.concerns, decoded]
      rw [heard]
      congr 2
      funext x
      simp only [cardStep, DriverOp.toCard, step, Option.bind_some, Option.map_map]
      rfl
  | command driver c =>
    simp only [Global.step, ifCommand, DriverOp.readable, firstStep, Option.bind_some]
    rw [onCard_snd]
    congr 2
    funext x
    simp only [cardStep, DriverOp.toCard, step, Option.bind_some, Option.map_map]
    rfl
  | sendbuf driver chan doack skb =>
    simp only [Global.step, ifSendbufTo, DriverOp.readable, firstStep, Option.bind_some]
    rw [onCard_snd]
    congr 2
    funext x
    simp only [cardStep, DriverOp.toCard, step, Option.bind_some, Option.map_map]
    rfl
  | readstat driver len =>
    simp only [Global.step, ifReadstatOf, DriverOp.readable, firstStep, Option.bind_some]
    rw [onCard_snd]
    rfl
  | listen contr =>
    simp only [Global.step, listentimerfunc, DriverOp.readable, firstStep, Option.bind_some]
    rw [onCard_snd]
    rfl

/-- Cards registered alike have the same ids. -/
theorem ids_of_registered {xs ys : List Contr} (same : ys.map Contr.registered = xs.map Contr.registered) :
    ys.map Contr.myid = xs.map Contr.myid := by
  have firsts := congrArg (List.map Prod.fst) same
  rwa [List.map_map, List.map_map] at firsts

theorem Separate.registered (h : Separate g) : (g.contrList.map Contr.registered).Nodup := by
  refine List.Nodup.of_map Prod.fst ?_
  rw [List.map_map]
  exact h.ids

/-- With numbers and ids given once, an event is addressed to one card at most. -/
theorem Separate.only (h : Separate g) : ∀ x ∈ g.contrList, ∀ y ∈ g.contrList, op.concerns x = true →
    op.concerns y = true → x.env.contrnr = y.env.contrnr := by
  have byId : ∀ x ∈ g.contrList, ∀ y ∈ g.contrList, x.myid = y.myid → x.env.contrnr = y.env.contrnr := by
    intro x mem y mem' same
    rw [List.inj_on_of_nodup_map h.ids mem mem' same]
  intro x mem y mem' here there
  cases op with
  | add => cases here
  | remove => cases here
  | recv msg =>
    cases decoded : capiMessage2cmsg msg with
    | none =>
      rw [DriverOp.concerns, decoded] at here
      cases here
    | some cmsg =>
      rw [DriverOp.concerns, decoded] at here there
      exact (of_decide_eq_true here).trans (of_decide_eq_true there).symm
  | command driver c => exact byId x mem y mem' ((of_decide_eq_true here).trans (of_decide_eq_true there).symm)
  | sendbuf driver => exact byId x mem y mem' ((of_decide_eq_true here).trans (of_decide_eq_true there).symm)
  | readstat driver => exact byId x mem y mem' ((of_decide_eq_true here).trans (of_decide_eq_true there).symm)
  | listen contr => exact (of_decide_eq_true here).trans (of_decide_eq_true there).symm

/-- What an event for one card does to the card of number `k`, in a driver whose numbers are given once. -/
theorem Separate.firstStep (h : Separate g) (run : firstStep op g = some g') (k : UInt32) :
    ownStep op (findcontrbynumber g k) = some (findcontrbynumber g' k) ∧ Separate g' ∧
      g'.contrList.map Contr.registered = g.contrList.map Contr.registered ∧ g'.status = g.status := by
  obtain ⟨⟨r, ys⟩, list, rfl⟩ := Option.map_eq_some_iff.1 run
  have keep : ∀ (x : Contr) (r : Unit) (y : Contr), (cardStep op x).map (fun y => ((), y)) = some (r, y) →
      y.env.contrnr = x.env.contrnr := by
    intro x r y step
    obtain ⟨y', step, same⟩ := Option.map_eq_some_iff.1 step
    cases same
    rw [(cardStep_keeps step).1]
  have keepId : ∀ (x : Contr) (r : Unit) (y : Contr), (cardStep op x).map (fun y => ((), y)) = some (r, y) →
      y.registered = x.registered := by
    intro x r y step
    obtain ⟨y', step, same⟩ := Option.map_eq_some_iff.1 step
    cases same
    rw [Contr.registered, (cardStep_keeps step).1, (cardStep_keeps step).2]
    rfl
  have only : ∀ x ∈ g.contrList, ∀ y ∈ g.contrList, op.concerns x = true → op.concerns y = true →
      x.env.contrnr = y.env.contrnr := h.only
  have sameId : ∀ x ∈ g.contrList, ∀ y ∈ g.contrList, op.concerns x = true → op.concerns y = true →
      x.registered = y.registered := by
    intro x mem y mem' here there
    rw [List.inj_on_of_nodup_map h.numbers mem mem' (only x mem y mem' here there)]
  obtain ⟨found, numbers⟩ := find_onFirst keep h.numbers only list k
  obtain ⟨-, registered⟩ := find_onFirst keepId h.registered sameId list (0, 0)
  have ids := ids_of_registered registered
  have length : ys.length = g.contrList.length := by
    have both := congrArg List.length numbers
    rwa [List.length_map, List.length_map] at both
  refine ⟨?_, ⟨by rw [numbers]; exact h.numbers, by rw [ids]; exact h.ids, h.count.trans (by rw [length]),
    by rw [length]; exact h.refs⟩, registered, rfl⟩
  have view : findcontrbynumber { g with contrList := ys } k = ys.find? fun x => x.env.contrnr = k := rfl
  rw [view, ← found]
  unfold findcontrbynumber
  cases here : g.contrList.find? fun x => x.env.contrnr = k with
  | none => rfl
  | some x =>
    rw [Option.bind_some, ownStep]
    split
    · rename_i met
      have mem := List.mem_of_find?_eq_some here
      have number : x.env.contrnr = k := by simpa using List.find?_some here
      -- the card is still on the list, so its step was made
      have there : ∃ y, ys.find? (fun x => x.env.contrnr = k) = some y := by
        have mem' : k ∈ ys.map fun x => x.env.contrnr := by
          rw [numbers, ← number]
          exact List.mem_map_of_mem mem
        obtain ⟨y, mem'', same⟩ := List.mem_map.1 mem'
        exact Option.isSome_iff_exists.1 (List.find?_isSome.2 ⟨y, mem'', by simpa using same⟩)
      obtain ⟨y, there⟩ := there
      rw [here, there, Option.bind_some, if_pos met] at found
      obtain ⟨e, made, same⟩ := Option.map_eq_some_iff.1 found
      obtain ⟨z, stepped, pair⟩ := Option.map_eq_some_iff.1 made
      rw [stepped]
      rfl
    · rfl

/-- The card of a number is the one on the list that has it. -/
theorem Separate.find (h : Separate g) {x : Contr} (mem : x ∈ g.contrList) : findcontrbynumber g x.env.contrnr = some x := by
  obtain ⟨y, found⟩ := Option.isSome_iff_exists.1
    (List.find?_isSome (p := fun y : Contr => decide (y.env.contrnr = x.env.contrnr)).2 ⟨x, mem, decide_eq_true rfl⟩)
  have same : y.env.contrnr = x.env.contrnr := by simpa using List.find?_some found
  rw [findcontrbynumber, found, List.inj_on_of_nodup_map h.numbers (List.mem_of_find?_eq_some found) mem same]

/-- The card of a driver id is the one on the list that has it. -/
theorem Separate.findId (h : Separate g) {x : Contr} (mem : x ∈ g.contrList) : findcontrbydriverid g x.myid = some x := by
  obtain ⟨y, found⟩ := Option.isSome_iff_exists.1
    (List.find?_isSome (p := fun y : Contr => decide (y.myid = x.myid)).2 ⟨x, mem, decide_eq_true rfl⟩)
  have same : y.myid = x.myid := by simpa using List.find?_some found
  rw [findcontrbydriverid, found, List.inj_on_of_nodup_map h.ids (List.mem_of_find?_eq_some found) mem same]

/-- An event that every controller can take, the driver can take. -/
theorem Separate.firstStep_defined (h : Separate g) (defined : ∀ k, ∃ x, ownStep op (findcontrbynumber g k) = some x) :
    ∃ g', Capidrv.firstStep op g = some g' := by
  have each : ∀ x ∈ g.contrList, op.concerns x = true → ∃ e, ((cardStep op x).map fun y => ((), y)) = some e := by
    intro x mem met
    obtain ⟨y, own⟩ := defined x.env.contrnr
    rw [h.find mem, ownStep, if_pos met] at own
    obtain ⟨z, stepped, -⟩ := Option.map_eq_some_iff.1 own
    exact ⟨((), z), by rw [stepped]; rfl⟩
  obtain ⟨r, ys, run⟩ := @onFirst_defined _ _ _ _ () _ each
  exact ⟨_, Option.map_eq_some_iff.2 ⟨_, run, rfl⟩⟩

/-! ## Controllers that come and go -/

/-- The list after `capidrv_addcontr`. -/
theorem capidrvAddcontr_list (g : Global) (contr nbchannel : UInt16) (a : AddAnswers) :
    (capidrvAddcontr g contr nbchannel a).2.contrList = (newContr g.applId contr nbchannel a).toList ++ g.contrList ∧
      (capidrvAddcontr g contr nbchannel a).2.applId = g.applId := by
  unfold capidrvAddcontr newContr
  cases a.tryModuleGet with
  | false => exact ⟨rfl, rfl⟩
  | true =>
    cases a.contrMem with
    | false => exact ⟨rfl, rfl⟩
    | true =>
      cases a.bchansMem with
      | false => exact ⟨rfl, rfl⟩
      | true =>
        cases a.registerIsdn with
        | none => exact ⟨rfl, rfl⟩
        | some myid => exact ⟨rfl, rfl⟩

/-- A new card has the controller's number and the id that isdn4linux gave. -/
theorem newContr_number {applId contr nbchannel : UInt16} {a : AddAnswers} {x : Contr}
    (new : newContr applId contr nbchannel a = some x) :
    x.env.contrnr = contr.toUInt32 ∧ a.registerIsdn = some x.myid := by
  unfold newContr at new
  split at new
  · obtain ⟨myid, given, same⟩ := Option.map_eq_some_iff.1 new
    cases same
    exact ⟨rfl, given⟩
  · cases new

/-- A number that no card has is not found. -/
theorem findcontrbynumber_none {k : UInt32} (absent : ∀ x ∈ g.contrList, x.env.contrnr ≠ k) :
    findcontrbynumber g k = none :=
  List.find?_eq_none.2 fun x mem met => absent x mem (of_decide_eq_true met)

/-- The card of every number after a controller came. -/
theorem findcontrbynumber_add {contr nbchannel : UInt16} {a : AddAnswers}
    (absent : ∀ x ∈ g.contrList, x.env.contrnr ≠ contr.toUInt32) (k : UInt32) :
    findcontrbynumber (capidrvAddcontr g contr nbchannel a).2 k =
      if contr.toUInt32 = k then newContr g.applId contr nbchannel a else findcontrbynumber g k := by
  have list := (capidrvAddcontr_list g contr nbchannel a).1
  unfold findcontrbynumber
  rw [list]
  cases new : newContr g.applId contr nbchannel a with
  | none =>
    rw [Option.toList_none, List.nil_append]
    split
    · rename_i here
      exact findcontrbynumber_none fun x mem same => absent x mem (same.trans here.symm)
    · rfl
  | some x =>
    have number := (newContr_number new).1
    rw [Option.toList_some, List.singleton_append]
    split
    · rename_i here
      rw [List.find?_cons_of_pos (by simpa [number] using here)]
    · rename_i other
      rw [List.find?_cons_of_neg (by simpa [number] using other)]

/-- The card of every number after a controller went. -/
theorem Separate.findcontrbynumber_remove (h : Separate g) {xs : List Contr} {contr k : UInt32}
    (list : xs = g.contrList.eraseP fun y => y.env.contrnr = contr) :
    (xs.find? fun x => x.env.contrnr = k) = if contr = k then none else findcontrbynumber g k := by
  subst list
  have numbers := h.numbers
  unfold findcontrbynumber
  generalize g.contrList = xs at numbers ⊢
  induction xs with
  | nil => split <;> rfl
  | cons x xs ih =>
    obtain ⟨off, numbers⟩ := List.nodup_cons.1 numbers
    by_cases gone : x.env.contrnr = contr
    · rw [List.eraseP_cons_of_pos (by simpa using gone)]
      split
      · rename_i here
        refine List.find?_eq_none.2 fun y mem met => off ?_
        have same : y.env.contrnr = x.env.contrnr := (of_decide_eq_true met).trans (here.symm.trans gone.symm)
        exact List.mem_map.2 ⟨y, mem, same⟩
      · rename_i other
        rw [List.find?_cons_of_neg (by simpa [gone] using other)]
    · rw [List.eraseP_cons_of_neg (by simpa using gone)]
      by_cases here : x.env.contrnr = k
      · have other : ¬ contr = k := fun same => gone (here.trans same.symm)
        rw [List.find?_cons_of_pos (by simpa using here), List.find?_cons_of_pos (by simpa using here), if_neg other]
      · rw [List.find?_cons_of_neg (by simpa using here), List.find?_cons_of_neg (by simpa using here)]
        exact ih numbers

theorem Separate.init (applId : UInt16) : Separate (Global.init applId) :=
  ⟨List.nodup_nil, List.nodup_nil, rfl, Nat.le_refl 0⟩

/-- An allowed new card stays apart from the others. -/
theorem Separate.add (h : Separate g) {contr nbchannel : UInt16} {a : AddAnswers}
    (allowed : g.Allowed (.add contr nbchannel a)) : Separate (capidrvAddcontr g contr nbchannel a).2 := by
  obtain ⟨absent, unused⟩ := allowed
  have refs := h.refs
  have count := h.count
  have list := (capidrvAddcontr_list g contr nbchannel a).1
  have counted : (capidrvAddcontr g contr nbchannel a).2.ncontr = g.ncontr + (newContr g.applId contr nbchannel a).toList.length ∧
      g.moduleRefs + (newContr g.applId contr nbchannel a).toList.length ≤ (capidrvAddcontr g contr nbchannel a).2.moduleRefs := by
    unfold capidrvAddcontr newContr
    cases a.tryModuleGet with
    | false => simp
    | true =>
      cases a.contrMem with
      | false => simp
      | true =>
        cases a.bchansMem with
        | false => simp
        | true =>
          cases a.registerIsdn with
          | none => simp
          | some myid => simp
  obtain ⟨ncontr, moduleRefs⟩ := counted
  cases new : newContr g.applId contr nbchannel a with
  | none =>
    rw [new, Option.toList_none, List.nil_append] at list
    rw [new, Option.toList_none, List.length_nil] at ncontr moduleRefs
    exact ⟨by rw [list]; exact h.numbers, by rw [list]; exact h.ids, by rw [list, ncontr, count]; simp, by rw [list]; omega⟩
  | some x =>
    obtain ⟨number, given⟩ := newContr_number new
    rw [new, Option.toList_some, List.singleton_append] at list
    rw [new, Option.toList_some, List.length_singleton] at ncontr moduleRefs
    refine ⟨?_, ?_, by rw [list, ncontr, count]; simp, by rw [list, List.length_cons]; omega⟩
    · rw [list, List.map_cons, List.nodup_cons]
      refine ⟨fun mem => ?_, h.numbers⟩
      obtain ⟨y, mem, same⟩ := List.mem_map.1 mem
      exact absent y mem (same.trans number)
    · rw [list, List.map_cons, List.nodup_cons]
      refine ⟨fun mem => ?_, h.ids⟩
      obtain ⟨y, mem, same⟩ := List.mem_map.1 mem
      exact unused x.myid given y mem same

/-- A removal takes the controller's card and no other. -/
theorem Separate.remove (h : Separate g) {contr : UInt16} {r : Int} (run : capidrvDelcontr g contr = some (r, g')) :
    Separate g' ∧ g'.applId = g.applId ∧
      ∀ k, findcontrbynumber g' k = if contr.toUInt32 = k then none else findcontrbynumber g k := by
  unfold capidrvDelcontr at run
  cases found : findcontrbynumber g contr.toUInt32 with
  | none =>
    rw [found] at run
    cases run
    refine ⟨h, rfl, fun k => ?_⟩
    split
    · rename_i here
      rw [← here, found]
    · rfl
  | some x =>
    rw [found] at run
    obtain ⟨⟨s, bugs⟩, -, run⟩ := Option.bind_eq_some_iff.1 run
    cases run
    have sub := List.eraseP_sublist (l := g.contrList) (p := fun y => decide (y.env.contrnr = contr.toUInt32))
    have mem : x ∈ g.contrList := List.mem_of_find?_eq_some found
    have same : x.env.contrnr = contr.toUInt32 := by simpa using List.find?_some found
    have length := List.length_eraseP_of_mem mem (p := fun y => decide (y.env.contrnr = contr.toUInt32)) (by simpa using same)
    have positive := List.length_pos_of_mem mem
    have refs := h.refs
    have count := h.count
    refine ⟨⟨(sub.map _).nodup h.numbers, (sub.map _).nodup h.ids, ?_, ?_⟩, rfl, fun k => ?_⟩
    · show g.ncontr - 1 = _
      rw [length, count]
      omega
    · show _ ≤ g.moduleRefs - 1
      rw [length]
      omega
    · exact h.findcontrbynumber_remove rfl

/-! ## Steps and runs -/

/-- A removal concerns the controller's card only. -/
theorem soloStep_remove (applId contr : UInt16) (k : UInt32) (x : Option Contr) :
    soloStep applId k x (.remove contr) =
      if contr.toUInt32 = k then x.elim (some none) fun x => (delChannels x.env.nbchan x.card).map fun _ => none
      else some x := by
  cases x <;> rfl

/-- What the driver does in a step is what every controller does in its own. -/
theorem Separate.step (h : Separate g) (allowed : g.Allowed op) (run : g.step op = some g') :
    Separate g' ∧ g'.applId = g.applId ∧
      ∀ k, soloStep g.applId k (findcontrbynumber g k) op = some (findcontrbynumber g' k) := by
  -- an event that is for one card
  have forCard (card : op.toCard ≠ none) : Separate g' ∧ g'.applId = g.applId ∧
      ∀ k, (op.readable.bind fun _ => ownStep op (findcontrbynumber g k)) = some (findcontrbynumber g' k) := by
    rw [step_first card] at run
    obtain ⟨read, readable, run⟩ := Option.bind_eq_some_iff.1 run
    have first := h.firstStep run
    obtain ⟨e, -, same⟩ := Option.map_eq_some_iff.1 run
    refine ⟨(first 0).2.1, by rw [← same], fun k => ?_⟩
    rw [readable, Option.bind_some]
    exact (first k).1
  cases op with
  | add contr nbchannel a =>
    cases run
    refine ⟨h.add allowed, (capidrvAddcontr_list g contr nbchannel a).2, fun k => ?_⟩
    rw [findcontrbynumber_add allowed.1]
    rfl
  | remove contr =>
    obtain ⟨⟨r, g''⟩, removed, same⟩ := Option.map_eq_some_iff.1 run
    cases same
    obtain ⟨separate, applId, after⟩ := h.remove removed
    refine ⟨separate, applId, fun k => ?_⟩
    rw [after, soloStep_remove]
    split
    · rename_i here
      rw [← here]
      unfold capidrvDelcontr at removed
      cases found : findcontrbynumber g contr.toUInt32 with
      | none => rfl
      | some x =>
        rw [found] at removed
        obtain ⟨e, freed, -⟩ := Option.bind_eq_some_iff.1 removed
        show (delChannels x.env.nbchan x.card).map (fun _ => none) = some none
        rw [freed]
        rfl
    · rfl
  | recv msg =>
    obtain ⟨separate, applId, own⟩ := forCard (by simp [DriverOp.toCard])
    refine ⟨separate, applId, fun k => ?_⟩
    rw [← own k, soloStep, DriverOp.readable, Option.bind_map]
    rfl
  | command driver c => exact forCard (by simp [DriverOp.toCard])
  | sendbuf driver chan doack skb => exact forCard (by simp [DriverOp.toCard])
  | readstat driver len => exact forCard (by simp [DriverOp.toCard])
  | listen contr => exact forCard (by simp [DriverOp.toCard])

/-- A step that every controller can make, the driver can make. -/
theorem Separate.step_defined (h : Separate g)
    (defined : ∀ k, ∃ x, soloStep g.applId k (findcontrbynumber g k) op = some x) : ∃ g', g.step op = some g' := by
  have forCard (card : op.toCard ≠ none)
      (defined : ∀ k, ∃ x, (op.readable.bind fun _ => ownStep op (findcontrbynumber g k)) = some x) :
      ∃ g', g.step op = some g' := by
    rw [step_first card]
    obtain ⟨x, own⟩ := defined 0
    obtain ⟨read, readable, -⟩ := Option.bind_eq_some_iff.1 own
    rw [readable, Option.bind_some]
    refine h.firstStep_defined fun k => ?_
    obtain ⟨x, own⟩ := defined k
    rw [readable, Option.bind_some] at own
    exact ⟨x, own⟩
  cases op with
  | add contr nbchannel a => exact ⟨_, rfl⟩
  | remove contr =>
    obtain ⟨x, own⟩ := defined contr.toUInt32
    rw [soloStep_remove, if_pos rfl] at own
    show ∃ g', (capidrvDelcontr g contr).map (·.2) = some g'
    unfold capidrvDelcontr
    cases found : findcontrbynumber g contr.toUInt32 with
    | none => exact ⟨g, rfl⟩
    | some y =>
      rw [found] at own
      obtain ⟨e, freed, -⟩ := Option.map_eq_some_iff.1 own
      exact ⟨_, by simp only [freed]; rfl⟩
  | recv msg =>
    refine forCard (by simp [DriverOp.toCard]) fun k => ?_
    obtain ⟨x, own⟩ := defined k
    refine ⟨x, ?_⟩
    rw [← own, soloStep, DriverOp.readable, Option.bind_map]
    rfl
  | command driver c => exact forCard (by simp [DriverOp.toCard]) defined
  | sendbuf driver chan doack skb => exact forCard (by simp [DriverOp.toCard]) defined
  | readstat driver len => exact forCard (by simp [DriverOp.toCard]) defined
  | listen contr => exact forCard (by simp [DriverOp.toCard]) defined

/-- The controllers and the driver go the same way. -/
theorem Separate.run {ops : List DriverOp} (h : Separate g) (allowed : Meets Global.step Global.Allowed g ops) :
    (∀ g', exec Global.step g ops = some g' →
        ∀ k, exec (soloStep g.applId k) (findcontrbynumber g k) ops = some (findcontrbynumber g' k)) ∧
      ((∀ k, ∃ x, exec (soloStep g.applId k) (findcontrbynumber g k) ops = some x) →
        ∃ g', exec Global.step g ops = some g') := by
  induction ops generalizing g with
  | nil =>
    refine ⟨fun g' run k => ?_, fun _ => ⟨g, rfl⟩⟩
    cases run
    rfl
  | cons op ops ih =>
    refine ⟨fun g' run k => ?_, fun defined => ?_⟩
    · obtain ⟨g₁, first, rest⟩ := Option.bind_eq_some_iff.1 run
      obtain ⟨separate, applId, own⟩ := h.step allowed.1 first
      have after := (ih separate (allowed.2 g₁ first)).1 g' rest k
      rw [applId] at after
      rw [exec, own k, Option.bind_some]
      exact after
    · obtain ⟨g₁, first⟩ := h.step_defined fun k => by
        obtain ⟨x, run⟩ := defined k
        obtain ⟨y, first, -⟩ := Option.bind_eq_some_iff.1 run
        exact ⟨y, first⟩
      obtain ⟨separate, applId, own⟩ := h.step allowed.1 first
      obtain ⟨g', rest⟩ := (ih separate (allowed.2 g₁ first)).2 fun k => by
        obtain ⟨x, run⟩ := defined k
        rw [exec, own k, Option.bind_some] at run
        rw [applId]
        exact ⟨x, run⟩
      exact ⟨g', by rw [exec, first]; exact rest⟩

end Dispatch

/-- In every interleaving of devices that come and go, messages, calls and timers the driver has an outcome just when
every controller has one by itself, and then each controller is where it is by itself: what happens on one card
neither shows on another nor depends on it. -/
theorem controllers_independent (applId : UInt16) (ops : List DriverOp)
    (allowed : Meets Global.step Global.Allowed (Global.init applId) ops) :
    ((∃ g, exec Global.step (Global.init applId) ops = some g) ↔
        ∀ k, ∃ x, exec (soloStep applId k) none ops = some x) ∧
      ∀ g, exec Global.step (Global.init applId) ops = some g →
        ∀ k, exec (soloStep applId k) none ops = some (findcontrbynumber g k) := by
  obtain ⟨forward, back⟩ := (Separate.init applId).run allowed
  have forward : ∀ g, exec Global.step (Global.init applId) ops = some g →
      ∀ k, exec (soloStep applId k) none ops = some (findcontrbynumber g k) := forward
  refine ⟨⟨?_, back⟩, forward⟩
  rintro ⟨g, run⟩ k
  exact ⟨_, forward g run k⟩

theorem comeAndGo_allowed : Meets Global.step Global.Allowed (Global.init 1) comeAndGo := by
  refine ⟨⟨by simp [Global.init], by simp [Global.init]⟩, fun g run => ?_⟩
  cases run
  refine ⟨⟨?_, ?_⟩, fun g' _ => ⟨trivial, fun _ _ => ⟨trivial, fun _ _ => trivial⟩⟩⟩
  · simp [capidrvAddcontr, Global.init, AddAnswers.given, AddAnswers.env]
  · simp [capidrvAddcontr, Global.init, AddAnswers.given]

theorem controllers_independent_comeAndGo : ∃ g, exec Global.step (Global.init 1) comeAndGo = some g ∧
    (∀ k, ∃ x, exec (soloStep 1 k) none comeAndGo = some x) ∧
      ∀ k, exec (soloStep 1 k) none comeAndGo = some (findcontrbynumber g k) := by
  obtain ⟨same, each⟩ := controllers_independent 1 comeAndGo comeAndGo_allowed
  exact ⟨_, rfl, same.1 ⟨_, rfl⟩, each _ rfl⟩

end Capi4Linux.Capidrv
