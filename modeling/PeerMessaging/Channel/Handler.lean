import PeerMessaging.Channel.Item

/-!
# Handlers of a channel

A channel is handled by a chain of handlers. What a handler is, and what surrounds the
channel, is left open: `H` is the state of a handler and `W` the world around the channel.
Hooks say how the states behave. A hook sees a context and gives a reaction: the handler and
the world afterwards, what the handler asks of its channel, and a result. A handler never
acts on the channel itself.

A handler may take part in reading, in writing, in both or in neither. Only one that takes
part in reading hears events.
-/

namespace PeerMessaging

/-- What a handler sees of its channel. -/
structure Context where
  id : Nat
  name : String
  channel : ChannelInfo
  hasTimers : Bool
  now : Nat
  deriving DecidableEq

/-- What a handler asks of its channel. -/
inductive Effect where
  | write (item : Item)
  | raise (event : ChannelEvent)
  | close
  | arm (delay : Nat)
  | disarm
  | ring
  deriving DecidableEq

/-- What came of a hook. -/
structure Reaction (W H α : Type) where
  handler : H
  world : W
  effects : List Effect := []
  result : α

/-- What happens to a handler apart from reading, writing and failures. -/
inductive Signal where
  | added
  | removed
  | active
  | inactive
  | timer
  | event (e : ChannelEvent)
  deriving DecidableEq

/-- How a handler takes part in its channel. -/
inductive HandlerRole where
  | inbound
  | outbound
  | duplex
  | passive
  deriving DecidableEq

namespace HandlerRole

/-- The name of the role. -/
def name : HandlerRole → String
  | inbound => "Inbound"
  | outbound => "Outbound"
  | duplex => "Duplex"
  | passive => "Passive"

/-- Whether the role takes part in reading. -/
def reads : HandlerRole → Bool
  | inbound | duplex => true
  | _ => false

/-- Whether the role takes part in writing. -/
def writes : HandlerRole → Bool
  | outbound | duplex => true
  | _ => false

end HandlerRole

/-- A hook: from a context, a handler and the world to a reaction. -/
abbrev Hook (W H α : Type) := Context → H → W → Reaction W H α

/-- How handlers behave. -/
structure Hooks (W H : Type) where
  role : H → HandlerRole
  signal : Signal → Hook W H (Except Failure Unit)
  read : Item → Hook W H (Except Failure (Option Item))
  write : Item → Hook W H (Except Failure Item)
  caught : Failure → Hook W H Unit
  fresh : H → H

variable {W H K α : Type}

namespace Reaction

/-- Nothing happens. -/
def still (h : H) (w : W) (result : α) : Reaction W H α :=
  { handler := h, world := w, result := result }

/-- The reaction of a handler that is seen as one of a larger kind. -/
def widen (f : H → K) (r : Reaction W H α) : Reaction W K α :=
  { r with handler := f r.handler }

end Reaction

namespace Hooks

/-- How a handler hears a signal: events pass by those that do not read. -/
def hear (hooks : Hooks W H) (s : Signal) : Hook W H (Except Failure Unit) := fun c h w =>
  match s with
  | .event _ => if (hooks.role h).reads then hooks.signal s c h w else .still h w (.ok ())
  | _ => hooks.signal s c h w

/-- How a handler takes an item that is read: items pass by those that do not read. -/
def take (hooks : Hooks W H) (item : Item) : Hook W H (Except Failure (Option Item)) :=
  fun c h w =>
    if (hooks.role h).reads then hooks.read item c h w else .still h w (.ok (some item))

/-- How a handler turns an item that is written: items pass by those that do not write. -/
def turn (hooks : Hooks W H) (item : Item) : Hook W H (Except Failure Item) := fun c h w =>
  if (hooks.role h).writes then hooks.write item c h w else .still h w (.ok item)

/-- Handlers of two kinds in one chain. -/
def sum (left : Hooks W H) (right : Hooks W K) : Hooks W (H ⊕ K) where
  role := Sum.elim left.role right.role
  signal s c h w :=
    match h with
    | .inl h => (left.signal s c h w).widen .inl
    | .inr h => (right.signal s c h w).widen .inr
  read item c h w :=
    match h with
    | .inl h => (left.read item c h w).widen .inl
    | .inr h => (right.read item c h w).widen .inr
  write item c h w :=
    match h with
    | .inl h => (left.write item c h w).widen .inl
    | .inr h => (right.write item c h w).widen .inr
  caught f c h w :=
    match h with
    | .inl h => (left.caught f c h w).widen .inl
    | .inr h => (right.caught f c h w).widen .inr
  fresh := Sum.map left.fresh right.fresh

end Hooks

end PeerMessaging
