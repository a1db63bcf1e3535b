import PeerMessaging.Channel.Handler
import PeerMessaging.Channel.Timers

/-!
# Pipelines

A pipeline is the chain of named handlers of one channel. What is read and what happens goes
through the chain from its head, and so does what is written. What a handler asks for while
it handles something is put off: the writes and events wait in one queue, which is worked off
when the walk that filled it has ended.

A failure of a handler is told to that handler and to all behind it. It ends a walk that
carries an item and no other walk.

Working off the queue may fill it again, so it gets a bound on the number of things to do;
without a result the bound was too low.
-/

namespace PeerMessaging

/-- A handler in its place. -/
structure Entry (H : Type) where
  id : Nat
  name : String
  handler : H
  deriving DecidableEq

/-- What was put off: a write, or an event for those behind a place. -/
inductive Deferred where
  | write (item : Item)
  | event (origin : Nat) (event : ChannelEvent)
  deriving DecidableEq

/-- A buffer on its way to the socket. -/
structure Outbound where
  buffer : Gather
  remote : Option SocketAddress
  deriving DecidableEq

/-- The chain of a channel, what waits in it, and the world around it. -/
structure Pipeline (W H : Type) where
  channel : ChannelInfo
  world : W
  entries : List (Entry H) := []
  nextId : Nat := 0
  queue : List Deferred := []
  outbound : List Outbound := []
  unhandled : List Item := []
  closeRequested : Bool := false
  timers : Timers := {}
  onEncoded : Option (Gather → W → W) := none

namespace Pipeline

variable {W H α : Type}

/-! ## One handler -/

/-- What the handler at an entry sees. -/
def context (p : Pipeline W H) (e : Entry H) : Context where
  id := e.id
  name := e.name
  channel := p.channel
  hasTimers := p.timers.listening
  now := p.timers.now

/-- Takes up what the handler at a place asked for. -/
def enqueue (p : Pipeline W H) (place id : Nat) : Effect → Pipeline W H
  | .write item => { p with queue := p.queue ++ [.write item] }
  | .raise event => { p with queue := p.queue ++ [.event place event] }
  | .close => { p with closeRequested := true }
  | .arm delay => { p with timers := p.timers.arm id delay }
  | .disarm => { p with timers := p.timers.disarm id }
  | .ring => { p with timers := p.timers.ring id }

/-- Runs a hook of the handler at a place. The result is `idle` where there is no handler. -/
def run (hook : Hook W H α) (idle : α) (p : Pipeline W H) (place : Nat) : α × Pipeline W H :=
  match p.entries[place]? with
  | none => (idle, p)
  | some e =>
    let r := hook (p.context e) e.handler p.world
    let p := { p with
      entries := p.entries.set place { e with handler := r.handler }, world := r.world }
    (r.result, r.effects.foldl (fun p q => p.enqueue place e.id q) p)

/-! ## Walks -/

/-- The places from one on. -/
def placesFrom (p : Pipeline W H) (start : Nat) : List Nat :=
  List.range' start (p.entries.length - start)

/-- Tells a failure to the handlers at the given places. -/
def tellAll (hooks : Hooks W H) (f : Failure) (places : List Nat) (p : Pipeline W H) :
    Pipeline W H :=
  places.foldl (fun p place => (p.run (hooks.caught f) () place).2) p

/-- Tells a failure to the handler that met it and to all behind it. -/
def tell (hooks : Hooks W H) (f : Failure) (place : Nat) (p : Pipeline W H) : Pipeline W H :=
  p.tellAll hooks f (p.placesFrom place)

/-- Gives a signal to the handler at a place. -/
def signalAt (hooks : Hooks W H) (s : Signal) (p : Pipeline W H) (place : Nat) : Pipeline W H :=
  match p.run (hooks.hear s) (.ok ()) place with
  | (.ok (), p) => p
  | (.error f, p) => p.tell hooks f place

/-- Gives a signal to the handlers at all places from one on. -/
def signalFrom (hooks : Hooks W H) (s : Signal) (start : Nat) (p : Pipeline W H) :
    Pipeline W H :=
  (p.placesFrom start).foldl (fun p place => p.signalAt hooks s place) p

/-- Carries an item that is read over the given places. -/
def readOver (hooks : Hooks W H) : List Nat → Item → Pipeline W H → Pipeline W H
  | [], item, p => { p with unhandled := p.unhandled ++ [item] }
  | place :: rest, item, p =>
    match p.run (hooks.take item) (.ok (some item)) place with
    | (.ok (some item), p) => p.readOver hooks rest item
    | (.ok none, p) => p
    | (.error f, p) => p.tell hooks f place

/-- Carries an item that is written over the given places. -/
def writeOver (hooks : Hooks W H) : List Nat → Item → Pipeline W H →
    Except Failure Item × Pipeline W H
  | [], item, p => (.ok item, p)
  | place :: rest, item, p =>
    match p.run (hooks.turn item) (.ok item) place with
    | (.ok item, p) => p.writeOver hooks rest item
    | (.error f, p) => (.error f, p.tell hooks f place)

/-- Puts an encoded buffer on its way. -/
def emit (p : Pipeline W H) (buffer : Gather) (remote : Option SocketAddress) :
    Pipeline W H :=
  { p with
    world := match p.onEncoded with
      | some listen => listen buffer p.world
      | none => p.world
    outbound := p.outbound ++ [⟨buffer, remote⟩] }

/-- Writes an item, which has to end as an encoded buffer. -/
def writeNow (hooks : Hooks W H) (item : Item) (p : Pipeline W H) :
    Except Failure Unit × Pipeline W H :=
  match p.writeOver hooks (p.placesFrom 0) item with
  | (.ok (.encoded buffer), p) => (.ok (), p.emit buffer item.destination)
  | (.ok _, p) => (.error (.state .notEncoded), p)
  | (.error f, p) => (.error f, p)

/-! ## What was put off -/

/-- Does one thing that was put off. Nobody hears of a write that fails. -/
def perform (hooks : Hooks W H) (d : Deferred) (p : Pipeline W H) : Pipeline W H :=
  match d with
  | .write item => (p.writeNow hooks item).2
  | .event origin event => p.signalFrom hooks (.event event) (origin + 1)

/-- Works off the queue, the oldest first, doing at most so many things. -/
def settle (hooks : Hooks W H) : Nat → Pipeline W H → Option (Pipeline W H)
  | bound, p =>
    match p.queue with
    | [] => some p
    | d :: rest =>
      match bound with
      | 0 => none
      | bound + 1 => settle hooks bound (perform hooks d { p with queue := rest })

/-! ## What happens to a channel -/

/-- The channel became active. -/
def activate (hooks : Hooks W H) (bound : Nat) (p : Pipeline W H) : Option (Pipeline W H) :=
  ({ p with channel := { p.channel with active := true } }.signalFrom hooks .active 0).settle
    hooks bound

/-- The channel is active no longer. -/
def deactivate (hooks : Hooks W H) (bound : Nat) (p : Pipeline W H) : Option (Pipeline W H) :=
  ({ p with channel := { p.channel with active := false } }.signalFrom hooks .inactive 0).settle
    hooks bound

/-- An item arrived. -/
def read (hooks : Hooks W H) (bound : Nat) (item : Item) (p : Pipeline W H) :
    Option (Pipeline W H) :=
  (p.readOver hooks (p.placesFrom 0) item).settle hooks bound

/-- Something happened that every handler is to hear of. -/
def raise (hooks : Hooks W H) (bound : Nat) (event : ChannelEvent) (p : Pipeline W H) :
    Option (Pipeline W H) :=
  (p.signalFrom hooks (.event event) 0).settle hooks bound

/-- An item is to be sent. -/
def write (hooks : Hooks W H) (bound : Nat) (item : Item) (p : Pipeline W H) :
    Option (Except Failure Unit × Pipeline W H) :=
  let (result, p) := p.writeNow hooks item
  (p.settle hooks bound).map fun p => (result, p)

/-- The place of the handler with a given number. -/
def placeOfId (p : Pipeline W H) (id : Nat) : Option Nat :=
  p.entries.findIdx? fun e => e.id == id

/-- The timer of a handler rang; nothing happens if the handler is gone. -/
def ringTimer (hooks : Hooks W H) (bound : Nat) (id : Nat) (p : Pipeline W H) :
    Option (Pipeline W H) :=
  match p.placeOfId id with
  | none => some p
  | some place => (p.signalAt hooks .timer place).settle hooks bound

/-- Hands out the timers that rang, the oldest first, up to so many of them; which they were,
and the pipeline afterwards. A timer that rings meanwhile is handed out too. -/
def ringAll (hooks : Hooks W H) (bound : Nat) :
    Nat → Pipeline W H → Option (List Nat × Pipeline W H)
  | rings, p =>
    match p.timers.rung with
    | [] => some ([], p)
    | id :: rest =>
      match rings with
      | 0 => none
      | rings + 1 =>
        match { p with timers := { p.timers with rung := rest } }.ringTimer hooks bound id with
        | none => none
        | some p => (ringAll hooks bound rings p).map fun (rang, p) => (id :: rang, p)

/-- Time passed; which timers rang, and the pipeline after they did. -/
def advance (hooks : Hooks W H) (bound time : Nat) (p : Pipeline W H) :
    Option (List Nat × Pipeline W H) :=
  { p with timers := p.timers.advance time }.ringAll hooks bound bound

/-! ## What leaves a channel -/

/-- Takes the buffers that wait for the socket. -/
def takeOutbound (p : Pipeline W H) : List Outbound × Pipeline W H :=
  (p.outbound, { p with outbound := [] })

/-- Takes the items that no handler kept. -/
def takeUnhandled (p : Pipeline W H) : List Item × Pipeline W H :=
  (p.unhandled, { p with unhandled := [] })

end Pipeline

end PeerMessaging
