import PeerMessaging.Request.Correlator

/-!
# What a message does to its request

A message that arrives is one of four things. It is a request, and then it does nothing. It is
a reply that does not fit, and then it aborts. It fits and is one part of a stream, or it fits
and is the whole reply: then its sender is reportFound, and only the whole reply ends the request.
Each of them is said once here, with all that it changes.
-/

namespace PeerMessaging.Correlator

/-- The reply has the key of the request, and the relay flag of its recipient unless it belongs to
a reverse connection setup. -/
def Corresponds (request response : Message) : Prop :=
  response.correlationKey = request.correlationKey ∧
    (response.command = rconCommand ∨ request.recipient.relayed = response.sender.relayed)

instance (request response : Message) : Decidable (Corresponds request response) :=
  inferInstanceAs (Decidable (_ ∧ _))

/-- The kinds of replies that may end a request well. -/
def fittingKinds : List MessageKind :=
  [.ok, .partiallyOk, .notFound, .denied, .cancel, .user1, .user2]

/-- The reply fits its request. -/
def Fits (request response : Message) : Prop :=
  response.kind ∈ fittingKinds ∧ Corresponds request response

/-- `refusal` has no objection exactly to a response that corresponds. -/
theorem refusal_eq_none_iff {request response : Message} :
    refusal request response = none ↔ Corresponds request response := by
  rw [refusal]
  by_cases key : response.correlationKey = request.correlationKey
  · rw [if_neg (not_not_intro key)]
    by_cases relay : response.command = rconCommand
    · rw [if_neg fun h => h.1 relay]
      exact ⟨fun _ => ⟨key, .inl relay⟩, fun _ => rfl⟩
    · by_cases same : request.recipient.relayed = response.sender.relayed
      · rw [if_neg fun h => h.2 same]
        exact ⟨fun _ => ⟨key, .inr same⟩, fun _ => rfl⟩
      · rw [if_pos ⟨relay, same⟩]
        exact ⟨nofun, fun h => absurd h.2 (not_or.mpr ⟨relay, same⟩)⟩
  · rw [if_pos key]
    exact ⟨nofun, fun h => absurd h.1 key⟩

/-- A reply that is no failure of the other side has a fitting kind. -/
theorem mem_fittingKinds {k : MessageKind} :
    k ∈ fittingKinds ↔ k ≠ .unknownId ∧ k ≠ .exception ∧ k.isRequest = false := by
  cases k <;> decide

/-- A fitting reply is no request. -/
theorem Fits.answers {request m : Message} (fits : Fits request m) : m.isRequest = false :=
  (mem_fittingKinds.mp fits.1).2.2

/-! ## The sender of a reply -/

/-- The sender of a reply as it is known from now on: a relayed one that tells its relays is known
by the first five of these. -/
def knownSender (response : Message) : PeerAddress :=
  if response.sender.relayed ∧ response.firstEndpoints ≠ [] then
    response.sender.withRelays response.firstEndpoints
  else response.sender

/-- Nothing but the sender of a good answer changes. -/
theorem refreshed_eq (response : Message) :
    refreshed response = { response with
      sender := if isAnswer response then knownSender response else response.sender } := by
  rw [refreshed, knownSender]
  cases isAnswer response <;> cases response.sender.relayed <;> cases response.firstEndpoints <;>
    rfl

/-- Refreshing a response does not change whether it is a part of a stream. -/
theorem streaming_refreshed (response : Message) :
    (refreshed response).streaming = response.streaming := by
  rw [refreshed_eq]

/-- Refreshing a response does not change whether it is an answer. -/
theorem isAnswer_refreshed (response : Message) :
    isAnswer (refreshed response) = isAnswer response := by
  rw [refreshed_eq]
  rfl

/-! ## How a request ends -/

/-- How the request stands. -/
def outcome (c : Correlator) : Outcome := c.completion.outcome

/-- What the listeners hear of an abort. -/
def abortNotices (c : Correlator) (a : Abort) : List Notice :=
  if a.isUserAbort then [] else c.listeners.map fun l => .failed l c.request.recipient a

/-- What the listeners hear of a good answer. -/
def messageNotices (c : Correlator) (m : Message) : List Notice :=
  if isAnswer m then c.listeners.map fun l => .found l m.sender else []

/-- A request is completed exactly if its outcome is not pending. -/
theorem isCompleted_eq_true_iff {c : Completion} : c.isCompleted = true ↔ c.outcome ≠ .pending := by
  rw [Completion.isCompleted]
  cases c.outcome with
  | pending => exact ⟨nofun, fun h => absurd rfl h⟩
  | success reply => exact ⟨fun _ => nofun, fun _ => rfl⟩
  | failed abort => exact ⟨fun _ => nofun, fun _ => rfl⟩

/-- Whatever is tried once the request has ended is refused. -/
theorem abort_of_ended {c : Correlator} (ended : c.outcome ≠ .pending) (a : Abort) :
    c.abort a = c :=
  if_pos (isCompleted_eq_true_iff.mpr ended)

/-- A request that has ended stays as it is when it should succeed. -/
theorem succeed_of_ended {c : Correlator} (ended : c.outcome ≠ .pending)
    (reply : Option Message) : c.succeed reply = c :=
  if_pos (isCompleted_eq_true_iff.mpr ended)

/-- A pending request that is aborted. -/
theorem abort_of_pending {c : Correlator} (pending : c.outcome = .pending) (a : Abort) :
    (c.abort a).outcome = .failed a ∧ (c.abort a).traffic = c.traffic.requestFailed a.cause ∧
      (c.abort a).notices = c.notices ++ c.abortNotices a := by
  have open_ : ¬ c.completion.isCompleted = true :=
    fun ended => isCompleted_eq_true_iff.mp ended pending
  have ends : (c.completion.fail a).2.outcome = .failed a := by
    rw [Completion.fail, Completion.finish, show c.completion.outcome = .pending from pending]
    rfl
  rw [abort, if_neg open_, abortNotices]
  refine ⟨ends, rfl, ?_⟩
  cases a.isUserAbort with
  | true => exact (List.append_nil _).symm
  | false => rfl

/-- A pending request that is answered. -/
theorem succeed_of_pending {c : Correlator} (pending : c.outcome = .pending)
    (reply : Option Message) :
    (c.succeed reply).outcome = .success reply ∧
      (c.succeed reply).traffic = c.traffic.requestCompleted := by
  have open_ : ¬ c.completion.isCompleted = true :=
    fun ended => isCompleted_eq_true_iff.mp ended pending
  rw [succeed, if_neg open_, outcome, Completion.complete, Completion.finish,
    show c.completion.outcome = .pending from pending]
  exact ⟨rfl, rfl⟩

/-- After an abort a request is not pending. -/
theorem outcome_abort_ne_pending (c : Correlator) (a : Abort) : (c.abort a).outcome ≠ .pending := by
  by_cases pending : c.outcome = .pending
  · rw [(abort_of_pending pending a).1]
    exact nofun
  · rw [abort_of_ended pending]
    exact pending

/-- After a success a request is not pending. -/
theorem outcome_succeed_ne_pending (c : Correlator) (reply : Option Message) :
    (c.succeed reply).outcome ≠ .pending := by
  by_cases pending : c.outcome = .pending
  · rw [(succeed_of_pending pending reply).1]
    exact nofun
  · rw [succeed_of_ended pending]
    exact pending

theorem notices_succeed (c : Correlator) (reply : Option Message) :
    (c.succeed reply).notices = c.notices := by
  rw [succeed]
  split <;> rfl

/-- `reportFound` tells the listeners of the sender of an answer, and nothing else. -/
theorem notices_reportFound (c : Correlator) (m : Message) :
    (c.reportFound m).notices = c.notices ++ c.messageNotices m := by
  rw [reportFound, messageNotices]
  cases isAnswer m with
  | true => rfl
  | false => exact (List.append_nil _).symm

theorem completion_reportFound (c : Correlator) (m : Message) :
    (c.reportFound m).completion = c.completion := by
  rw [reportFound]
  split <;> rfl

theorem outcome_reportFound (c : Correlator) (m : Message) :
    (c.reportFound m).outcome = c.outcome := by
  rw [outcome, completion_reportFound, outcome]

theorem traffic_reportFound (c : Correlator) (m : Message) :
    (c.reportFound m).traffic = c.traffic := by
  rw [reportFound]
  split <;> rfl

/-! ## The request and its listeners stay -/

/-- Two correlators of one request with the same listeners. -/
structure Akin (c c' : Correlator) : Prop where
  request : c'.request = c.request
  listeners : c'.listeners = c.listeners

theorem Akin.trans {c c' c'' : Correlator} (h : Akin c c') (h' : Akin c' c'') : Akin c c'' :=
  ⟨h'.request.trans h.request, h'.listeners.trans h.listeners⟩

theorem request_finish (c : Completion) (o : Outcome) : (c.finish o).2.request = c.request := by
  rw [Completion.finish]
  split <;> rfl

theorem akin_abort (c : Correlator) (a : Abort) : Akin c (c.abort a) := by
  rw [abort]
  split
  · exact ⟨rfl, rfl⟩
  · exact ⟨request_finish .., rfl⟩

theorem akin_succeed (c : Correlator) (reply : Option Message) : Akin c (c.succeed reply) := by
  rw [succeed]
  split
  · exact ⟨rfl, rfl⟩
  · exact ⟨request_finish .., rfl⟩

theorem akin_reportFound (c : Correlator) (m : Message) : Akin c (c.reportFound m) := by
  rw [reportFound]
  split <;> exact ⟨rfl, rfl⟩

/-! ## One message -/

/-- All that a message can do to a request. -/
inductive Reception (c : Correlator) (m : Message) : Disposition × Correlator → Prop
  | request (asks : m.isRequest = true) : Reception c m (.notForThisRequest, c)
  | refused (answers : m.isRequest = false) (misfit : ¬ Fits c.request m) (text : String) :
      Reception c m (.completed, c.abort (.peer text))
  | part (fits : Fits c.request m) (more : m.streaming = true) :
      Reception c m (.awaitMore, c.reportFound (refreshed m))
  | whole (fits : Fits c.request m) (last : m.streaming = false) :
      Reception c m (.completed, (c.reportFound (refreshed m)).succeed (some (refreshed m)))

/-- What `receive` does with a message is one of the cases of `Reception`. -/
theorem reception (c : Correlator) (m : Message) : Reception c m (c.receive (some m)) := by
  -- the checks are made in this order, and only what passes all of them fits
  show Reception c m (if m.kind = .unknownId then _ else _)
  by_cases unknown : m.kind = .unknownId
  · rw [if_pos unknown]
    refine .refused ?_ ?_ _
    · rw [Message.isRequest, unknown]
      rfl
    · exact fun fits => (mem_fittingKinds.mp fits.1).1 unknown
  rw [if_neg unknown]
  by_cases failed : m.kind = .exception
  · rw [if_pos failed]
    refine .refused ?_ ?_ _
    · rw [Message.isRequest, failed]
      rfl
    · exact fun fits => (mem_fittingKinds.mp fits.1).2.1 failed
  rw [if_neg failed]
  by_cases asks : m.isRequest = true
  · rw [if_pos asks]
    exact .request asks
  rw [if_neg asks]
  have answers : m.isRequest = false := Bool.eq_false_iff.mpr asks
  cases checked : refusal c.request m with
  | some reason =>
      refine .refused answers (fun fits => ?_) reason
      rw [refusal_eq_none_iff.mpr fits.2] at checked
      exact nomatch checked
  | none =>
      have fits : Fits c.request m :=
        ⟨mem_fittingKinds.mpr ⟨unknown, failed, answers⟩, refusal_eq_none_iff.mp checked⟩
      show Reception c m (if (refreshed m).isDone then _ else _)
      rw [Message.isDone, streaming_refreshed]
      cases streaming : m.streaming with
      | true => exact .part fits streaming
      | false => exact .whole fits streaming

end PeerMessaging.Correlator
