import PeerMessaging.Channel.Arrangement

/-!
# Operations on a pipeline

Whatever is done to a pipeline from outside is one of a fixed set of operations: its
arrangement is changed, its channel changes state, an item arrives or is to be sent, an event
is raised or a timer rings. What becomes of a pipeline is told by the sequence of its operations.
-/

namespace PeerMessaging

/-- What can be done to a pipeline from outside. -/
inductive Operation (H : Type) where
  | addFirst (name : String) (h : H)
  | addLast (name : String) (h : H)
  | addBefore (base name : String) (h : H)
  | addAfter (base name : String) (h : H)
  | replace (old name : String) (h : H)
  | remove (name : String)
  | activate
  | deactivate
  | read (item : Item)
  | raise (event : ChannelEvent)
  | write (item : Item)
  | ringTimer (id : Nat)

namespace Operation

variable {W H : Type}

/-- The result of an operation that is never refused. -/
def accepted (p : Option (Pipeline W H)) : Option (Except Failure Unit × Pipeline W H) :=
  p.map fun p => (.ok (), p)

/-- What comes of an operation; nothing if the bound was too low. -/
def apply (hooks : Hooks W H) (bound : Nat) (p : Pipeline W H) :
    Operation H → Option (Except Failure Unit × Pipeline W H)
  | addFirst name h => p.addFirst hooks bound name h
  | addLast name h => p.addLast hooks bound name h
  | addBefore base name h => p.addBefore hooks bound base name h
  | addAfter base name h => p.addAfter hooks bound base name h
  | replace old name h => p.replace hooks bound old name h
  | remove name => p.remove hooks bound name
  | activate => accepted (p.activate hooks bound)
  | deactivate => accepted (p.deactivate hooks bound)
  | read item => accepted (p.read hooks bound item)
  | raise event => accepted (p.raise hooks bound event)
  | write item => p.write hooks bound item
  | ringTimer id => accepted (p.ringTimer hooks bound id)

/-- What comes of operations one after another: the pipeline at the end, whichever of them
were refused. -/
def applyAll (hooks : Hooks W H) (bound : Nat) :
    List (Operation H) → Pipeline W H → Option (Pipeline W H)
  | [], p => some p
  | o :: rest, p =>
    match o.apply hooks bound p with
    | some (_, p) => applyAll hooks bound rest p
    | none => none

end Operation

end PeerMessaging
