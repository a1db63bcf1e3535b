import PeerMessaging.Channel.Standard

/-!
# Rehearsal

A rehearsed handler plays a script: it writes down every hook that is called, and what it
then does is listed in cues for each kind of hook. A budget bounds how often cues are
followed, so every rehearsal ends.

Of cues that decide the result of a hook, a failure counts more than swallowing the item,
and this more than another item in its stead; of two cues of one kind the later counts.
-/

namespace PeerMessaging

/-- The kinds of hooks. -/
inductive Moment where
  | active
  | inactive
  | added
  | removed
  | timer
  | exception
  | read
  | write
  | event
  deriving DecidableEq

namespace Moment

/-- The name of the kind. -/
def name : Moment → String
  | active => "active"
  | inactive => "inactive"
  | added => "added"
  | removed => "removed"
  | timer => "timer"
  | exception => "exception"
  | read => "read"
  | write => "write"
  | event => "event"

/-- Every kind. -/
def all : List Moment :=
  [active, inactive, added, removed, timer, exception, read, write, event]

/-- The kind of the hook that hears a signal. -/
def ofSignal : Signal → Moment
  | .added => added
  | .removed => removed
  | .active => active
  | .inactive => inactive
  | .timer => timer
  | .event _ => event

end Moment

/-- One thing to do. -/
inductive Cue where
  | ask (effect : Effect)
  | fail (f : Failure)
  | swallow
  | substitute (item : Item)
  deriving DecidableEq

/-- A handler that plays a script. -/
structure Player where
  tag : String
  role : HandlerRole := .duplex
  cues : List (Moment × List Cue) := []
  budget : Nat := 8
  left : Nat := budget
  deriving DecidableEq

/-- What a hook was about. -/
inductive Subject where
  | nothing
  | failure (f : Failure)
  | item (item : Item)
  | event (e : ChannelEvent)
  deriving DecidableEq

/-- What was written down. -/
inductive JournalEntry where
  | called (tag name : String) (id : Nat) (moment : Moment) (subject : Subject)
      (active : Bool)
  | noTimers
  | finished (size : Nat)
  | notice (n : Notice)
  deriving DecidableEq

namespace Player

/-- The surroundings in which players write down what happens. -/
abbrev Stage := Surroundings (List JournalEntry)

/-- Writes something down. -/
def note (e : JournalEntry) (w : Stage) : Stage := { w with user := w.user ++ [e] }

/-- What is asked of the channel by cues. -/
def asked (cues : List Cue) : List Effect :=
  cues.filterMap fun
    | .ask r => some r
    | _ => none

/-- The failure that counts among cues. -/
def failure? (cues : List Cue) : Option Failure :=
  (cues.filterMap fun
    | .fail f => some f
    | _ => none).getLast?

/-- The substitute that counts among cues. -/
def substitute? (cues : List Cue) : Option Item :=
  (cues.filterMap fun
    | .substitute item => some item
    | _ => none).getLast?

/-- Writes down that there was no timer for each time that one was to be rung. -/
def noteRings (c : Context) (effects : List Effect) (w : Stage) : Stage :=
  effects.foldl (fun w r => if r = .ring ∧ !c.hasTimers then note .noTimers w else w) w

/-- Plays a hook: it is written down, and the cues for it are followed if there are any and
the budget is not used up. The result is the cues that were followed. -/
def play (moment : Moment) (subject : Subject) : Hook Stage Player (List Cue) := fun c p w =>
  let w := note (.called p.tag c.name c.id moment subject c.channel.active) w
  let cues := (p.cues.lookup moment).getD []
  if cues.isEmpty ∨ p.left = 0 then .still p w []
  else ⟨{ p with left := p.left - 1 }, noteRings c (asked cues) w, asked cues, cues⟩

/-- A reaction with another result. -/
def conclude {α : Type} (f : List Cue → α) (r : Reaction Stage Player (List Cue)) :
    Reaction Stage Player α :=
  ⟨r.handler, r.world, r.effects, f r.result⟩

/-- What a signal is about. -/
def subjectOf : Signal → Subject
  | .event e => .event e
  | _ => .nothing

/-- The result of a hook that gives nothing. -/
def unitResult (cues : List Cue) : Except Failure Unit :=
  match failure? cues with
  | some f => .error f
  | none => .ok ()

/-- The result of reading an item. -/
def readResult (item : Item) (cues : List Cue) : Except Failure (Option Item) :=
  match failure? cues with
  | some f => .error f
  | none =>
    if cues.contains .swallow then .ok none else .ok (some ((substitute? cues).getD item))

/-- The result of writing an item. -/
def writeResult (item : Item) (cues : List Cue) : Except Failure Item :=
  match failure? cues with
  | some f => .error f
  | none => .ok ((substitute? cues).getD item)

/-- How players behave. -/
def hooks : Hooks Stage Player where
  role := role
  signal s c p w := conclude unitResult (play (.ofSignal s) (subjectOf s) c p w)
  read item c p w := conclude (readResult item) (play .read (.item item) c p w)
  write item c p w := conclude (writeResult item) (play .write (.item item) c p w)
  caught f c p w := conclude (fun _ => ()) (play .exception (.failure f) c p w)
  fresh p := { p with left := p.budget }

/-- A listener for encoded buffers that writes down their sizes. -/
def listener (buffer : Gather) (w : Stage) : Stage := note (.finished buffer.size) w

/-- The services of a rehearsal: what listeners hear is written down. -/
def services (scheme : SignatureScheme) : Services (List JournalEntry) where
  scheme := scheme
  hear n u := u ++ [.notice n]

/-- A chain of standard handlers and players. -/
abbrev Cast := StandardHandler (List JournalEntry) ⊕ Player

/-- How such a chain behaves. -/
def castHooks (scheme : SignatureScheme) : Hooks Stage Cast :=
  (StandardHandler.hooks (services scheme)).sum hooks

end Player

end PeerMessaging
