import PeerMessaging.Proofs.Dispatch.History

/-!
# Which handler runs, and what goes back

Handlers are functions and leave no name behind, so that an answer alone does not show which of
them ran, or how often. Here every handler of a history notes its runs: the place in the history at
which it was registered, and what it was given. Such handlers answer as before, and the notes that
one request adds are the runs that it caused.

A request that is served causes one run, that of the handler that stands, also if nobody waits for
the answer; any other request causes none. What the dispatcher prepares or answers by itself goes
back to the peer that asked, in the envelope of the request.
-/

namespace PeerMessaging

variable {U : Type}

/-- A run of a handler: where in the history it was registered, and what it was given. -/
structure HandlerRun where
  place : Nat
  request : Message
  prepared : Message

/-- The same handler, which notes its runs. -/
def CommandHandler.noting (h : CommandHandler U) (place : Nat) :
    CommandHandler (U × List HandlerRun) := fun request prepared s =>
  ((h request prepared s.1).1, (h request prepared s.1).2, s.2 ++ [⟨place, request, prepared⟩])

namespace HandlerChange

/-- The same change, with a handler that notes its runs. -/
def noting (place : Nat) : HandlerChange U → HandlerChange (U × List HandlerRun)
  | .register command h => .register command (h.noting place)
  | .unregister command => .unregister command

/-- The same history, with handlers that note their runs. -/
def noted (changes : List (HandlerChange U)) : List (HandlerChange (U × List HandlerRun)) :=
  changes.mapIdx noting

/-- A handler was the last to be registered for a command, at a place in the history, and is still
there. -/
def StandsSince (changes : List (HandlerChange U)) (command : UInt8) (h : CommandHandler U)
    (place : Nat) : Prop :=
  ∃ before after, changes = before ++ .register command h :: after ∧ before.length = place ∧
    ∀ e ∈ after, e.command ≠ command

variable {changes : List (HandlerChange U)} {command : UInt8} {h : CommandHandler U}

/-- A handler stands exactly if it stands since some change. -/
theorem standing_iff_since :
    Standing changes command h ↔ ∃ place, StandsSince changes command h place := by
  constructor
  · rintro ⟨before, after, split, untouched⟩
    exact ⟨before.length, before, after, split, rfl, untouched⟩
  · rintro ⟨_, before, after, split, -, untouched⟩
    exact ⟨before, after, split, untouched⟩

/-- Of two handlers that stand for a command, neither stands since a later change. -/
theorem StandsSince.place_le {h' : CommandHandler U} {place place' : Nat}
    (since : StandsSince changes command h place) (since' : StandsSince changes command h' place') :
    place' ≤ place := by
  obtain ⟨before, after, rfl, rfl, untouched⟩ := since
  obtain ⟨before', after', split, rfl, -⟩ := since'
  rcases List.append_eq_append_iff.mp split with ⟨between, rfl, rest⟩ | ⟨between, rfl, -⟩
  · cases between with
    | nil => exact Nat.le_of_eq (congrArg List.length (List.append_nil before))
    | cons e between =>
        -- the other registration would be among the later changes, which leave the command alone
        obtain ⟨-, rfl⟩ := List.cons.inj rest
        exact absurd rfl (untouched (.register command h')
          (List.mem_append_right _ List.mem_cons_self))
  · rw [List.length_append]
    exact Nat.le_add_right _ _

/-- One registration alone counts for a command. -/
theorem StandsSince.unique {h' : CommandHandler U} {place place' : Nat}
    (since : StandsSince changes command h place) (since' : StandsSince changes command h' place') :
    h = h' ∧ place = place' :=
  ⟨Dispatcher.standing_unique (standing_iff_since.mpr ⟨place, since⟩)
      (standing_iff_since.mpr ⟨place', since'⟩),
    Nat.le_antisymm (since'.place_le since) (since.place_le since')⟩

@[simp] theorem command_noting (place : Nat) (e : HandlerChange U) :
    (e.noting place).command = e.command := by
  cases e <;> rfl

/-- Notes do not change for which commands something was done. -/
theorem untouched_mapIdx (place : Nat → Nat) :
    (∀ e ∈ changes.mapIdx fun i e => noting (place i) e, e.command ≠ command) ↔
      ∀ e ∈ changes, e.command ≠ command := by
  constructor
  · intro untouched e member
    obtain ⟨i, within, rfl⟩ := List.getElem_of_mem member
    rw [← command_noting (place i)]
    exact untouched _ (List.mem_mapIdx.mpr ⟨i, within, rfl⟩)
  · intro untouched e member
    obtain ⟨i, within, rfl⟩ := List.mem_mapIdx.mp member
    rw [command_noting]
    exact untouched _ (List.getElem_mem within)

/-- The handler that stands is the same, and notes its runs with its own place. -/
theorem standing_noted {h' : CommandHandler (U × List HandlerRun)} :
    Standing (noted changes) command h' ↔
      ∃ h place, StandsSince changes command h place ∧ h' = h.noting place := by
  constructor
  · rintro ⟨before', after', split, untouched⟩
    obtain ⟨before, rest, rfl, -, split⟩ := List.mapIdx_eq_append_iff.mp split
    obtain ⟨e, after, rfl, same, rfl⟩ := List.mapIdx_eq_cons_iff.mp split
    cases e with
    | register own h =>
        cases same
        exact ⟨h, _, ⟨before, after, rfl, (Nat.zero_add _).symm,
          (untouched_mapIdx fun i => i + 1 + before.length).mp untouched⟩, rfl⟩
    | unregister own => cases same
  · rintro ⟨h, _, ⟨before, after, rfl, rfl, untouched⟩, rfl⟩
    refine ⟨before.mapIdx noting, after.mapIdx fun i e => noting (i + 1 + before.length) e, ?_,
      (untouched_mapIdx fun i => i + 1 + before.length).mpr untouched⟩
    rw [noted, List.mapIdx_append, List.mapIdx_cons, Nat.zero_add]
    rfl

end HandlerChange

namespace Dispatcher

open HandlerChange

variable {request : Message} {u : U} {h : CommandHandler U} {responder : PeerAddress}
  {version : UInt32} {changes : List (HandlerChange U)}

/-! ## What becomes of a request, as equations -/

/-- The message that ends the run of a handler: its own, or an exception if it failed. -/
def concluded (responder : PeerAddress) (request : Message) : Except Failure Message → Message
  | .ok m => m
  | .error _ => request.replyTo responder .exception

/-- A request of another version is answered with an exception. -/
theorem respond_outdated (differs : request.version ≠ version) :
    (after responder version changes).respond request u =
      (reply request (request.replyTo responder .exception), u) := by
  have fate := (after responder version changes).decision request u
  generalize (after responder version changes).respond request u = outcome at fate ⊢
  cases fate with
  | outdated _ => rw [responder_after]
  | unknown served _ => exact absurd (served.trans (version_after ..)) differs
  | answered served _ _ _ _ _ => exact absurd (served.trans (version_after ..)) differs
  | failed served _ _ _ _ _ => exact absurd (served.trans (version_after ..)) differs

/-- A request for which no handler stands is answered with `unknownId`. -/
theorem respond_bare (served : request.version = version)
    (bare : ∀ h, ¬ Standing changes request.command h) :
    (after responder version changes).respond request u =
      (reply request (request.replyTo responder .unknownId), u) := by
  have fate := (after responder version changes).decision request u
  generalize (after responder version changes).respond request u = outcome at fate ⊢
  cases fate with
  | outdated differs => exact absurd (served.trans (version_after ..).symm) differs
  | unknown _ _ => rw [responder_after]
  | answered _ h found _ _ _ => exact absurd (handler?_after.mp found) (bare h)
  | failed _ h found _ _ _ => exact absurd (handler?_after.mp found) (bare h)

/-- A request for which a handler stands is answered with what the handler concludes. -/
theorem respond_served (served : request.version = version)
    (stands : Standing changes request.command h) :
    (after responder version changes).respond request u =
      (reply request (concluded responder request
          (h request (request.replyTo responder .ok) u).1),
        (h request (request.replyTo responder .ok) u).2) := by
  have fate := (after responder version changes).decision request u
  generalize (after responder version changes).respond request u = outcome at fate ⊢
  cases fate with
  | outdated differs => exact absurd (served.trans (version_after ..).symm) differs
  | unknown _ none => cases none.symm.trans (handler?_after.mpr stands)
  | answered _ h' found _ _ ran =>
      cases standing_unique stands (handler?_after.mp found)
      rw [responder_after] at ran
      rw [ran]
      rfl
  | failed _ h' found _ _ ran =>
      cases standing_unique stands (handler?_after.mp found)
      rw [responder_after] at ran ⊢
      rw [ran]
      rfl

/-- Only a request that is fire-and-forget has no reply. -/
theorem reply_eq_none (request m : Message) :
    reply request m = none ↔ request.isFireAndForget = true := by
  rw [reply]
  split <;> simp [*]

theorem eq_of_mem_reply {m m' : Message} (member : m' ∈ reply request m) : m' = m := by
  rw [reply] at member
  split at member
  · cases member
  · exact (Option.some.inj member).symm

/-! ## Decisions after any history -/

/-- What the dispatcher prepares or answers by itself: a message of some kind in the envelope of the
request, from the peer in whose name it answers to the one that asked. Whoever asked finds it by
the same key. -/
structure Addressed (responder : PeerAddress) (request : Message) (kind : MessageKind)
    (m : Message) : Prop where
  kind : m.kind = kind
  id : m.id = request.id
  version : m.version = request.version
  command : m.command = request.command
  keepAlive : m.keepAlive = request.keepAlive
  sender : m.sender = responder
  recipient : m.recipient = request.sender
  socket : m.recipientSocket = request.senderSocket
  key : m.correlationKey = request.correlationKey

/-- What becomes of a request after some changes of the handlers: which handlers ran for it, what
goes back and what they made of the state. -/
structure Decided (responder : PeerAddress) (version : UInt32) (changes : List (HandlerChange U))
    (request : Message) (u : U) (runs : List HandlerRun) (outcome : Option Message × U) :
    Prop where
  silent : outcome.1 = none ↔ request.isFireAndForget = true
  outdated : request.version ≠ version → runs = [] ∧ outcome.2 = u ∧
    ∀ m ∈ outcome.1, Addressed responder request .exception m
  unknown : request.version = version → (∀ h, ¬ Standing changes request.command h) →
    runs = [] ∧ outcome.2 = u ∧ ∀ m ∈ outcome.1, Addressed responder request .unknownId m
  served : request.version = version → ∀ h place, StandsSince changes request.command h place →
    ∃ prepared result, Addressed responder request .ok prepared ∧
      runs = [⟨place, request, prepared⟩] ∧ h request prepared u = (result, outcome.2) ∧
      ∀ m ∈ outcome.1, match result with
        | .ok own => m = own
        | .error _ => Addressed responder request .exception m

/-- The envelope of a reply goes to the peer that asked. -/
theorem addressed_replyTo (asks : request.isRequest = true) (responder : PeerAddress)
    {kind : MessageKind} (answers : kind.isRequest = false) :
    Addressed responder request kind (request.replyTo responder kind) := by
  refine ⟨rfl, rfl, rfl, rfl, rfl, rfl, rfl, rfl, ?_⟩
  have answers' : (request.replyTo responder kind).isRequest = false := answers
  rw [Message.correlationKey, Message.correlationKey, asks, answers']
  rfl

/-- Somebody was there to go if and only if a handler stands. -/
theorem unregister_after {command : UInt8} :
    ((after responder version changes).unregister command).1 = true ↔
      ∃ h, Standing changes command h := by
  rw [unregister, Option.isSome_iff_exists]
  exact exists_congr fun h => handler?_after

/-- One request causes some runs: they are what it adds to the notes, and nothing else changes when
notes are taken. -/
def Causes (responder : PeerAddress) (version : UInt32) (changes : List (HandlerChange U))
    (request : Message) (u : U) (runs : List HandlerRun) : Prop :=
  ∀ notes, (after responder version (noted changes)).respond request (u, notes) =
    (((after responder version changes).respond request u).1,
      ((after responder version changes).respond request u).2, notes ++ runs)

/-- A request of another version is decided without a run of a handler. -/
theorem decided_outdated (asks : request.isRequest = true) (differs : request.version ≠ version) :
    Decided responder version changes request u []
        ((after responder version changes).respond request u) ∧
      Causes responder version changes request u [] := by
  refine ⟨?_, fun notes => ?_⟩
  · rw [respond_outdated differs]
    refine ⟨reply_eq_none _ _, fun _ => ⟨rfl, rfl, fun m member => ?_⟩,
      fun served => absurd served differs, fun served => absurd served differs⟩
    rw [eq_of_mem_reply member]
    exact addressed_replyTo asks responder rfl
  · rw [respond_outdated differs, respond_outdated differs, List.append_nil]

/-- A request for which no handler stands is decided without a run of a handler. -/
theorem decided_bare (asks : request.isRequest = true) (served : request.version = version)
    (bare : ∀ h, ¬ Standing changes request.command h) :
    Decided responder version changes request u []
        ((after responder version changes).respond request u) ∧
      Causes responder version changes request u [] := by
  refine ⟨?_, fun notes => ?_⟩
  · rw [respond_bare served bare]
    refine ⟨reply_eq_none _ _, fun differs => absurd served differs,
      fun _ _ => ⟨rfl, rfl, fun m member => ?_⟩, fun _ h place since => ?_⟩
    · rw [eq_of_mem_reply member]
      exact addressed_replyTo asks responder rfl
    · exact absurd (standing_iff_since.mpr ⟨place, since⟩) (bare h)
  · have bare' : ∀ h, ¬ Standing (noted changes) request.command h := fun h' stands => by
      obtain ⟨h, place, since, -⟩ := standing_noted.mp stands
      exact bare h (standing_iff_since.mpr ⟨place, since⟩)
    rw [respond_bare served bare, respond_bare served bare', List.append_nil]

/-- A request for which a handler stands is decided by one run of this handler. -/
theorem decided_served (asks : request.isRequest = true) (served : request.version = version)
    {place : Nat} (since : StandsSince changes request.command h place) :
    Decided responder version changes request u
        [⟨place, request, request.replyTo responder .ok⟩]
        ((after responder version changes).respond request u) ∧
      Causes responder version changes request u
        [⟨place, request, request.replyTo responder .ok⟩] := by
  have stands := standing_iff_since.mpr ⟨place, since⟩
  refine ⟨?_, fun notes => ?_⟩
  · rw [respond_served served stands]
    refine ⟨reply_eq_none _ _, fun differs => absurd served differs,
      fun _ bare => absurd stands (bare h), fun _ h' place' since' => ?_⟩
    obtain ⟨rfl, rfl⟩ := since.unique since'
    refine ⟨_, _, addressed_replyTo asks responder rfl, rfl, rfl, fun m member => ?_⟩
    rw [eq_of_mem_reply member]
    cases (h request (request.replyTo responder .ok) u).1 with
    | ok own => rfl
    | error f => exact addressed_replyTo asks responder rfl
  · rw [respond_served served stands,
      respond_served served (standing_noted.mpr ⟨h, place, since, rfl⟩)]
    rfl

/-- **The decision is exact after any history of registrations** (`Decided`): what runs, how often,
what goes back and in which envelope is told by the version, by the handler that stands for the
command and by what it gives. `unregister` answers whether a handler stood. -/
theorem respond_decided (asks : request.isRequest = true) (responder : PeerAddress)
    (version : UInt32) (changes : List (HandlerChange U)) (u : U) :
    (∃ runs, Decided responder version changes request u runs
        ((after responder version changes).respond request u) ∧
      Causes responder version changes request u runs) ∧
    ∀ command, ((after responder version changes).unregister command).1 = true ↔
      ∃ h, Standing changes command h := by
  refine ⟨?_, fun _ => unregister_after⟩
  by_cases served : request.version = version
  · by_cases stands : ∃ h, Standing changes request.command h
    · obtain ⟨h, stands⟩ := stands
      obtain ⟨place, since⟩ := standing_iff_since.mp stands
      exact ⟨_, decided_served asks served since⟩
    · exact ⟨_, decided_bare asks served (not_exists.mp stands)⟩
  · exact ⟨_, decided_outdated asks served⟩

/-- A handler that counts its runs and sends the prepared reply. -/
def counting : CommandHandler Nat := fun _ prepared n => (.ok prepared, n + 1)

/-- It came, went and came again, and stayed when it went elsewhere. -/
def someHistory : List (HandlerChange Nat) :=
  [.register 3 counting, .unregister 3, .register 3 counting, .register 4 counting, .unregister 4]

/-- A request that nobody answers. -/
def unanswered : Message where
  kind := .requestFf1
  command := 3

/-- The handler runs once, that of the third change, and nothing goes back. -/
theorem respond_decided_unanswered :
    unanswered.isRequest = true ∧ StandsSince someHistory 3 counting 2 ∧
      ((after .unknown 0 someHistory).respond unanswered 5).1 = none ∧
      (∃ runs, Causes .unknown 0 someHistory unanswered 5 runs ∧
        runs.map HandlerRun.place = [2]) ∧
      ((after .unknown 0 someHistory).unregister 4).1 = false := by
  have since : StandsSince someHistory 3 counting 2 :=
    ⟨[.register 3 counting, .unregister 3], [.register 4 counting, .unregister 4], rfl, rfl,
      by decide⟩
  have asks : unanswered.isRequest = true := rfl
  obtain ⟨⟨runs, decided, causes⟩, -⟩ := respond_decided asks .unknown 0 someHistory 5
  refine ⟨asks, since, decided.silent.mpr rfl, ⟨runs, causes, ?_⟩, ?_⟩
  · obtain ⟨_, _, -, ran, -⟩ := decided.served rfl counting 2 since
    rw [ran]
    rfl
  · rfl

end Dispatcher

end PeerMessaging
