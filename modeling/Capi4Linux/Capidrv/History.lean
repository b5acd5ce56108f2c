import Capi4Linux.Capidrv.Channels

/-!
# What isdn4linux hears of a line

For isdn4linux a channel is a line. A call begins when isdn4linux dials or is
told of an incoming call, and ends when it is told that the call is over. What
happens on a card is a history of such events; the lines it describes are those
of the card.
-/

namespace Capi4Linux.Capidrv
open Bytes Capicore Capiutil Machine

/-- A call is dialled, one is refused for lack of memory, or isdn4linux is told something. -/
inductive LineEvent where
  | dial (chan : Nat)
  | refuse (chan : Nat)
  | told (status : Status)

/-- A line as isdn4linux knows it. -/
inductive Line where
  | idle
  | refused
  | busy
  deriving DecidableEq

namespace LineEvent

def status : LineEvent → Option Status
  | told status => some status
  | _ => none

/-- A call begins. -/
def begins : LineEvent → Bool
  | dial _ => true
  | told (.ICALL _ _) => true
  | _ => false

/-- A call ends, or was refused. -/
def ends : LineEvent → Bool
  | told (.DHUP _) => true
  | _ => false

def refuses : LineEvent → Bool
  | refuse _ => true
  | _ => false

/-- The line that an event is about; the status buffer is not a line. -/
def chan : LineEvent → Option Nat
  | dial chan => some chan
  | refuse chan => some chan
  | told (.ICALL chan _) => some chan
  | told (.DHUP chan) => some chan
  | told (.DCONN chan) => some chan
  | told (.BCONN chan) => some chan
  | told (.BHUP chan) => some chan
  | told (.CINF chan _) => some chan
  | told (.BSENT chan _) => some chan
  | told (.STAVAIL _) => none

/-- The event begins and ends nothing. -/
def talks : LineEvent → Bool
  | told (.ICALL _ _) => false
  | told (.DHUP _) => false
  | told _ => true
  | _ => false

end LineEvent

/-- What an event makes of its line. Nothing is told of a line without a call. -/
def Line.next : Line → LineEvent → Option Line
  | .idle, .dial _ => some .busy
  | .idle, .refuse _ => some .refused
  | .idle, .told (.ICALL _ _) => some .busy
  | .refused, .told (.DHUP _) => some .idle
  | .busy, .told (.DHUP _) => some .idle
  | .busy, .told (.ICALL _ _) => none
  | .busy, .told _ => some .busy
  | _, _ => none

/-- A line hears the events that are about it. -/
def Line.hear (c : Nat) (line : Line) (event : LineEvent) : Option Line :=
  if event.chan = some c then line.next event else some line

/-- A line of the card. -/
def Card.line (s : Card) (c : Nat) : Line := if (s.bchans c).plcip.isSome then .busy else .idle

/-- What happened between two states of a card: what isdn4linux was told, what it made of the lines, one record for
every call that began, and one freed for every call that ended. -/
structure History (env : Env) (s s' : Card) (events : List LineEvent) : Prop where
  status : s'.status = s.status ++ events.filterMap LineEvent.status
  lines : ∀ c, exec (Line.hear c) (s.line c) events = some (s'.line c)
  begun : s'.plciNext = s.plciNext + events.countP LineEvent.begins
  ended : s'.freed.length + events.countP LineEvent.refuses = s.freed.length + events.countP LineEvent.ends
  memory : (∀ t, env.kmalloc t = true) → events.countP LineEvent.refuses = 0

/-- The calls are on the channels that they were on. -/
structure SameLines (s s' : Card) : Prop where
  plcip : ∀ c, (s'.bchans c).plcip = (s.bchans c).plcip
  plciNext : s'.plciNext = s.plciNext
  freed : s'.freed = s.freed

/-- Nothing changes for isdn4linux. -/
structure Unheard (s s' : Card) : Prop extends SameLines s s' where
  status : s'.status = s.status

section Histories

variable {env : Env} {s s' s'' : Card} {events events' : List LineEvent}

theorem SameLines.refl (s : Card) : SameLines s s := ⟨fun _ => rfl, rfl, rfl⟩

/-- A channel that keeps its pointers keeps its line. -/
theorem SameLines.setBchan (s : Card) (chan : Nat) {bchan : Bchan} (plcip : bchan.plcip = (s.bchans chan).plcip) :
    SameLines s (s.setBchan chan bchan) :=
  ⟨field_update Bchan.plcip plcip, rfl, rfl⟩

theorem SameLines.line (same : SameLines s s') (c : Nat) : s'.line c = s.line c := by
  unfold Card.line
  rw [same.plcip]

/-- A history goes on where another ends. -/
theorem History.trans (first : History env s s' events) (last : History env s' s'' events') :
    History env s s'' (events ++ events') where
  status := by rw [last.status, first.status, List.filterMap_append, List.append_assoc]
  lines c := by rw [exec_append, first.lines, Option.bind_some, last.lines]
  begun := by rw [last.begun, first.begun, List.countP_append, Nat.add_assoc]
  ended := by
    have before := first.ended
    have after := last.ended
    rw [List.countP_append, List.countP_append]
    omega
  memory mem := by rw [List.countP_append, first.memory mem, last.memory mem]

theorem Unheard.refl (s : Card) : Unheard s s := ⟨.refl s, rfl⟩

theorem Unheard.trans (first : Unheard s s') (last : Unheard s' s'') : Unheard s s'' where
  plcip c := (last.plcip c).trans (first.plcip c)
  plciNext := last.plciNext.trans first.plciNext
  freed := last.freed.trans first.freed
  status := last.status.trans first.status

/-- What is unheard is a history without events. -/
theorem History.silent (unheard : Unheard s s') : History env s s' [] where
  status := by rw [unheard.status, List.filterMap_nil, List.append_nil]
  lines c := by rw [unheard.line]; rfl
  begun := by rw [unheard.plciNext]; rfl
  ended := by rw [unheard.freed]; rfl
  memory _ := rfl

/-- isdn4linux is told something of a call. -/
theorem History.talk {status : Status} {chan p : Nat} (same : SameLines s s') (told : s'.status = s.status ++ [status])
    (about : (LineEvent.told status).chan = some chan) (talks : (LineEvent.told status).talks = true)
    (busy : (s.bchans chan).plcip = some p) : History env s s' [.told status] := by
  have line : s.line chan = .busy := by
    unfold Card.line
    rw [busy]
    rfl
  refine ⟨told, fun c => ?_, ?_, ?_, fun _ => rfl⟩
  · rw [same.line, exec, Line.hear]
    split
    · rename_i here
      obtain rfl : chan = c := Option.some.inj (about.symm.trans here)
      rw [line]
      cases status <;> first | rfl | cases talks
    · rfl
  · rw [same.plciNext]
    cases status <;> first | rfl | cases talks
  · rw [same.freed]
    cases status <;> first | rfl | cases talks

/-- The trace is not about a line. -/
theorem History.trace {len : Nat} (same : SameLines s s') (told : s'.status = s.status ++ [.STAVAIL len]) :
    History env s s' [.told (.STAVAIL len)] := by
  refine ⟨told, fun c => ?_, ?_, ?_, fun _ => rfl⟩
  · rw [same.line]
    rfl
  · rw [same.plciNext]
    rfl
  · rw [same.freed]
    rfl

/-- A call cannot be dialled. -/
theorem History.refused {chan : Nat} (free : (s.bchans chan).plcip = none) (same : SameLines s s')
    (status : s'.status = s.status ++ [.DHUP chan]) {t : Nat} (nomem : env.kmalloc t = false) :
    History env s s' [.refuse chan, .told (.DHUP chan)] := by
  refine ⟨status, fun c => ?_, same.plciNext, ?_, fun mem => ?_⟩
  · rw [same.line]
    by_cases here : chan = c
    · subst here
      have idle : s.line chan = .idle := by
        unfold Card.line
        rw [free]
        rfl
      simp [exec, Line.hear, LineEvent.chan, idle, Line.next]
    · simp [exec, Line.hear, LineEvent.chan, here]
  · rw [same.freed]
    rfl
  · rw [mem] at nomem
    cases nomem

/-! ## Commands -/

variable {cmsg : Cmsg} {p n : Nat} {plci : Plci} {ncci : Ncci}

/-- The channel of a live call is busy with it. -/
theorem Wired.busy {nbchan : Nat} (wired : Wired nbchan s.links) (live : s.plcis p = some plci) :
    (s.bchans plci.chan).plcip = some p := (wired.chan p _ _ (links_plcis live)).2

/-- The channel of a live connection is busy with its call. -/
theorem Conn.busy {nbchan : Nat} (wired : Wired nbchan s.links) (conn : Conn s n ncci plci) :
    (s.bchans ncci.chan).plcip = some ncci.plcip := by
  rw [conn.chan]
  exact wired.busy conn.call

end Histories

end Capi4Linux.Capidrv
