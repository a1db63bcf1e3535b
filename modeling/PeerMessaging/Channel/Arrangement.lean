import PeerMessaging.Channel.Pipeline

/-!
# The arrangement of a pipeline

Handlers are added, replaced and removed by name. No two handlers of a pipeline have the same
name, and every handler that is put in gets a number that no other ever had. A change that is
refused changes nothing.

A handler hears that it was added when it is in its place, and that it is removed while it
still is. What it asks for on its removal is done when it is gone.

A blueprint is a list of named prototypes. A pipeline that is built from it has a fresh
handler for each.
-/

namespace PeerMessaging.Pipeline

variable {W H : Type}

/-- The names of the handlers in order. -/
def names (p : Pipeline W H) : List String := p.entries.map Entry.name

/-- The place of the handler with a given name. -/
def place? (p : Pipeline W H) (name : String) : Option Nat :=
  p.entries.findIdx? fun e => e.name == name

/-- Whether there is a handler of a name. -/
def contains (p : Pipeline W H) (name : String) : Bool := (p.place? name).isSome

/-- The entry with a given name. -/
def entry? (p : Pipeline W H) (name : String) : Option (Entry H) :=
  p.entries.find? fun e => e.name == name

/-- The place that a change refers to. -/
def anchor (p : Pipeline W H) (name : String) : Except Failure Nat :=
  match p.place? name with
  | some place => .ok place
  | none => .error (.state (.handlerNotFound name))

/-- Refuses a name that is taken. -/
def checkNew (p : Pipeline W H) (name : String) : Except Failure Unit :=
  if p.contains name then .error (.state (.duplicateHandler name)) else .ok ()

/-- Puts a handler in at a place and lets it know. -/
def insertAt (hooks : Hooks W H) (bound place : Nat) (name : String) (h : H)
    (p : Pipeline W H) : Option (Pipeline W H) :=
  let p := { p with
    entries := p.entries.insertIdx place ⟨p.nextId, name, h⟩, nextId := p.nextId + 1 }
  (p.signalAt hooks .added place).settle hooks bound

/-- Lets the handler at a place know that it goes, and takes it out. A failure that it meets
then is nobody's concern. -/
def removeAt (hooks : Hooks W H) (bound place : Nat) (p : Pipeline W H) :
    Option (Pipeline W H) :=
  let p := (p.run (hooks.hear .removed) (.ok ()) place).2
  { p with entries := p.entries.eraseIdx place }.settle hooks bound

/-- What comes of a change: whether it was allowed, and the pipeline afterwards; nothing if the
bound was too low. -/
abbrev Changed (W H : Type) := Option (Except Failure Unit × Pipeline W H)

/-- The change that comes after a check. A check that fails returns at once, and the pipeline is
the one that was checked. -/
def after {β : Type} (p : Pipeline W H) (check : Except Failure β)
    (change : β → Option (Pipeline W H)) : Changed W H :=
  match check with
  | .ok b => (change b).map fun q => (.ok (), q)
  | .error f => some (.error f, p)

/-- Adds a handler at the head. -/
def addFirst (hooks : Hooks W H) (bound : Nat) (name : String) (h : H) (p : Pipeline W H) :
    Changed W H :=
  p.after (p.checkNew name) fun () => p.insertAt hooks bound 0 name h

/-- Adds a handler at the end. -/
def addLast (hooks : Hooks W H) (bound : Nat) (name : String) (h : H) (p : Pipeline W H) :
    Changed W H :=
  p.after (p.checkNew name) fun () => p.insertAt hooks bound p.entries.length name h

/-- The place of the handler to refer to, provided that a new name is not taken. -/
def anchorForNew (p : Pipeline W H) (base name : String) : Except Failure Nat :=
  match p.anchor base, p.checkNew name with
  | .error f, _ => .error f
  | _, .error f => .error f
  | .ok place, .ok () => .ok place

/-- Adds a handler in front of another. -/
def addBefore (hooks : Hooks W H) (bound : Nat) (base name : String) (h : H)
    (p : Pipeline W H) : Changed W H :=
  p.after (p.anchorForNew base name) fun place => p.insertAt hooks bound place name h

/-- Adds a handler behind another. -/
def addAfter (hooks : Hooks W H) (bound : Nat) (base name : String) (h : H)
    (p : Pipeline W H) : Changed W H :=
  p.after (p.anchorForNew base name) fun place => p.insertAt hooks bound (place + 1) name h

/-- Replaces a handler in its place; the new one may have the old name. -/
def replace (hooks : Hooks W H) (bound : Nat) (old name : String) (h : H)
    (p : Pipeline W H) : Changed W H :=
  p.after (if name = old then p.anchor old else p.anchorForNew old name) fun place =>
    (p.removeAt hooks bound place).bind (insertAt hooks bound place name h)

/-- Removes a handler. -/
def remove (hooks : Hooks W H) (bound : Nat) (name : String) (p : Pipeline W H) :
    Changed W H :=
  p.after (p.anchor name) fun place => p.removeAt hooks bound place

/-- Adds fresh handlers for prototypes at the end, up to the first that is refused. -/
def addFresh (hooks : Hooks W H) (bound : Nat) : List (String × H) → Pipeline W H →
    Changed W H
  | [], p => some (.ok (), p)
  | (name, prototype) :: rest, p =>
    match p.addLast hooks bound name (hooks.fresh prototype) with
    | some (.ok (), p) => p.addFresh hooks bound rest
    | refused => refused

/-- The pipeline for inspection. -/
def record (p : Pipeline W H) : String :=
  Text.recordText "Pipeline" [("handlers", Text.listText (p.names.map Text.quote)),
    ("channel", p.channel.record), ("pending_outbound", toString p.outbound.length)]

end PeerMessaging.Pipeline

namespace PeerMessaging

/-- Named prototypes from which pipelines are built. -/
structure Blueprint (H : Type) where
  prototypes : List (String × H) := []

namespace Blueprint

variable {W H : Type}

/-- Builds the pipeline of a channel in a world: whether all handlers were added, and the pipeline
with those that were. -/
def build (b : Blueprint H) (hooks : Hooks W H) (bound : Nat) (channel : ChannelInfo)
    (world : W) (timers : Timers) : Pipeline.Changed W H :=
  Pipeline.addFresh hooks bound b.prototypes
    { channel := channel, world := world, timers := timers }

/-- The blueprint for inspection. -/
def record (b : Blueprint H) : String :=
  Text.recordText "PipelineFactory"
    [("handlers", Text.listText (b.prototypes.map fun entry => Text.quote entry.1))]

end Blueprint

end PeerMessaging
