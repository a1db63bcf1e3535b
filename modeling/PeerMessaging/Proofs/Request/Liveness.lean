import PeerMessaging.Proofs.Request.Runs

/-!
# What listeners hear of a request

Two kinds of notices tell listeners how peers do, and each has its law over whole runs. Every
good answer that corresponds to the request tells that its sender lives, even when the request
has ended. The failure of the request is told once, when it ends with it, and never when the
failure is this side's own.
-/

namespace PeerMessaging

namespace Notice

end Notice

namespace Correlator

/-- A listener can be removed exactly if it is registered; it is told nothing more, and the others
stay registered. -/
theorem removeListener_eq (c : Correlator) (listener : Nat) :
    ((c.removeListener listener).1 = true ↔ listener ∈ c.listeners) ∧
      ∀ l, l ∈ (c.removeListener listener).2.listeners ↔ l ∈ c.listeners ∧ l ≠ listener := by
  constructor
  · rw [removeListener, decide_eq_true_eq, ne_eq, List.length_filter_eq_length_iff]
    simp
  · intro l
    rw [removeListener, List.mem_filter, decide_eq_true_eq]

/-- What listeners hear of an event that brings a good answer, pending or not. -/
def answerNotices (c : Correlator) (e : RequestEvent) : List Notice :=
  match e.message? with
  | some m =>
      if isAnswer m = true ∧ Corresponds c.request m then
        c.listeners.map fun l => .found l (knownSender m)
      else []
  | none => []

/-- What listeners hear of the end of a request. -/
def endNotices (c : Correlator) : Outcome → List Notice
  | .failed a => c.abortNotices a
  | _ => []

/-- Each listener is told of an abort, unless it is the user's own. -/
theorem abortNotices_eq (c : Correlator) (a : Abort) :
    c.abortNotices a = if a.cause = .userAbort then []
      else c.listeners.map fun l => .failed l c.request.recipient a := by
  rw [abortNotices, Abort.isUserAbort]
  by_cases user : a.cause = .userAbort
  · rw [if_pos user, user]
    rfl
  · rw [if_neg user, if_neg (by rw [beq_iff_eq]; exact user)]

/-- A good answer that corresponds is a reply that fits. -/
theorem fits_of_isAnswer {request m : Message} (answer : isAnswer m = true)
    (corresponds : Corresponds request m) : Fits request m := by
  refine ⟨?_, corresponds⟩
  rw [isAnswer] at answer
  cases kind : m.kind <;> rw [kind] at answer <;> first | decide | exact nomatch answer

/-- For a message that corresponds, the notices of its event are those that `reportFound` gives. -/
theorem answerNotices_of_message {c : Correlator} {e : RequestEvent} {m : Message}
    (brought : e.message? = some m) (corresponds : Corresponds c.request m) :
    c.answerNotices e = c.messageNotices (refreshed m) := by
  rw [answerNotices, brought, messageNotices, isAnswer_refreshed]
  cases answer : isAnswer m with
  | true =>
      have sender : (refreshed m).sender = knownSender m := by
        rw [refreshed_eq, answer]
        rfl
      rw [sender]
      exact if_pos ⟨answer, corresponds⟩
  | false => exact if_neg fun h => Bool.false_ne_true (answer.symm.trans h.1)

/-- A message that does not fit brings no notices of an answer. -/
theorem answerNotices_of_misfit {c : Correlator} {e : RequestEvent}
    (misfit : ∀ m, e.message? = some m → ¬ Fits c.request m) : c.answerNotices e = [] := by
  rw [answerNotices]
  cases brought : e.message? with
  | none => rfl
  | some m => exact if_neg fun h => misfit m brought (fits_of_isAnswer h.1 h.2)

/-- What is heard of an abort. -/
theorem notices_abort (c : Correlator) (a : Abort) :
    (c.abort a).notices = c.notices
      ++ if c.outcome = .pending then c.endNotices (c.abort a).outcome else [] := by
  by_cases pending : c.outcome = .pending
  · obtain ⟨ends, -, notices⟩ := abort_of_pending pending a
    rw [if_pos pending, ends, notices]
    rfl
  · rw [if_neg pending, abort_of_ended pending, List.append_nil]

/-- A request that goes on has no notices of its end. -/
theorem endNotices_self (c : Correlator) :
    (if c.outcome = .pending then c.endNotices c.outcome else []) = [] := by
  by_cases pending : c.outcome = .pending
  · rw [if_pos pending, pending]
    rfl
  · exact if_neg pending

/-- A request that succeeds has no notices of its end. -/
theorem endNotices_of_succeed (c d : Correlator) (reply : Option Message) :
    (if c.outcome = .pending then d.endNotices (c.succeed reply).outcome else []) = [] := by
  by_cases pending : c.outcome = .pending
  · rw [if_pos pending, (succeed_of_pending pending reply).1]
    rfl
  · exact if_neg pending

/-- What is heard of one event: of its good answer first, and then of the end. -/
theorem Handling.notices_eq {c c' : Correlator} {e : RequestEvent} (h : Handling c e c') :
    c'.notices = c.notices ++ c.answerNotices e
      ++ if c.outcome = .pending then c.endNotices c'.outcome else [] := by
  cases h with
  | nothing silent =>
      have unheard : c.answerNotices e = [] := by
        rw [answerNotices, silent]
        rfl
      rw [notices_succeed, unheard, endNotices_of_succeed, List.append_nil, List.append_nil]
  | abort a asked =>
      -- what aborts brings no message, so it is no good answer
      have unheard : c.answerNotices e = [] := by
        refine answerNotices_of_misfit fun m brought => ?_
        rw [abort?_eq_none brought] at asked
        cases asked
      rw [notices_abort, unheard, List.append_nil]
  | refused m brought answers misfit text =>
      have unheard : c.answerNotices e = [] := by
        refine answerNotices_of_misfit fun m' brought' => ?_
        rwa [← Option.some.inj (brought.symm.trans brought')]
      rw [notices_abort, unheard, List.append_nil]
  | part m brought fits more =>
      rw [notices_reportFound, answerNotices_of_message brought fits.2, outcome_reportFound,
        endNotices_self, List.append_nil]
  | whole m brought fits last =>
      rw [notices_succeed, notices_reportFound, answerNotices_of_message brought fits.2,
        ← outcome_reportFound c (refreshed m), endNotices_of_succeed, List.append_nil]
  | passed quiet calm asks =>
      have unheard : c.answerNotices e = [] :=
        answerNotices_of_misfit fun m brought fits =>
          Bool.false_ne_true (fits.answers.symm.trans (asks m brought))
      rw [unheard, endNotices_self, List.append_nil, List.append_nil]

/-! ## The two kinds apart -/

/-- A failure that arose on this side becomes an abort by the user. -/
theorem toAbort_of_isLocal {f : Failure} (local_ : f.isLocal = true) :
    f.toAbort = .user f.text := by
  cases f <;> first | rfl | exact nomatch local_

end Correlator

namespace Surroundings

end Surroundings

end PeerMessaging
