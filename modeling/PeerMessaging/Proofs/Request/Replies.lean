import PeerMessaging.Proofs.Request.Runs

/-!
# Replies one after another

A correlator that is given replies in order ends as the surroundings do to which the same replies
are delivered one at a time, although these hold only the request and start with a correlator of
their own for each. For what was counted before does not matter to a correlator, nor does what its
listeners heard already.
-/

namespace PeerMessaging

variable {U : Type} {services : Services U}

namespace Correlator

/-! ## What was counted before -/

/-- The correlator with other counters. -/
def counting (c : Correlator) (t : Traffic) : Correlator := { c with traffic := t }

theorem abort_counting (c : Correlator) (t : Traffic) (a : Abort) :
    ∃ t', (c.counting t).abort a = (c.abort a).counting t' := by
  by_cases ended : c.completion.isCompleted = true
  · refine ⟨t, ?_⟩
    rw [abort, abort, if_pos ended,
      if_pos (show (c.counting t).completion.isCompleted = true from ended)]
  · refine ⟨t.requestFailed a.cause, ?_⟩
    rw [abort, abort, if_neg ended,
      if_neg (show ¬ (c.counting t).completion.isCompleted = true from ended)]
    rfl

theorem succeed_counting (c : Correlator) (t : Traffic) (reply : Option Message) :
    ∃ t', (c.counting t).succeed reply = (c.succeed reply).counting t' := by
  by_cases ended : c.completion.isCompleted = true
  · refine ⟨t, ?_⟩
    rw [succeed, succeed, if_pos ended,
      if_pos (show (c.counting t).completion.isCompleted = true from ended)]
  · refine ⟨t.requestCompleted, ?_⟩
    rw [succeed, succeed, if_neg ended,
      if_neg (show ¬ (c.counting t).completion.isCompleted = true from ended)]
    rfl

theorem reportFound_counting (c : Correlator) (t : Traffic) (m : Message) :
    (c.counting t).reportFound m = (c.reportFound m).counting t := by
  rw [reportFound, reportFound]
  split <;> rfl

/-- What was counted before does not matter. -/
theorem receive_counting (c : Correlator) (t : Traffic) (reply : Option Message) :
    ∃ t', (c.counting t).receive reply
      = ((c.receive reply).1, (c.receive reply).2.counting t') := by
  -- only the request and the reply decide, so both sides take the same branch
  have same : (c.counting t).request = c.request := rfl
  have aborted : ∀ a, ∃ t', ((Disposition.completed, (c.counting t).abort a) : _ × _)
      = (.completed, (c.abort a).counting t') := by
    intro a
    obtain ⟨t', counted⟩ := abort_counting c t a
    exact ⟨t', congrArg _ counted⟩
  cases reply with
  | none =>
      obtain ⟨t', counted⟩ := succeed_counting c t none
      exact ⟨t', congrArg _ counted⟩
  | some m =>
      simp only [receive, same]
      by_cases unknown : m.kind = .unknownId
      · rw [if_pos unknown, if_pos unknown]
        exact aborted _
      rw [if_neg unknown, if_neg unknown]
      by_cases failed : m.kind = .exception
      · rw [if_pos failed, if_pos failed]
        exact aborted _
      rw [if_neg failed, if_neg failed]
      by_cases asks : m.isRequest = true
      · rw [if_pos asks, if_pos asks]
        exact ⟨t, rfl⟩
      rw [if_neg asks, if_neg asks]
      cases refusal c.request m with
      | some reason => exact aborted _
      | none =>
          dsimp only
          rw [reportFound_counting]
          cases (refreshed m).isDone with
          | true =>
              obtain ⟨t', counted⟩ := succeed_counting (c.reportFound (refreshed m)) t
                (some (refreshed m))
              exact ⟨t', congrArg _ counted⟩
          | false => exact ⟨t, rfl⟩

/-- Nobody hears of a request that this side gave up. -/
theorem notices_abort_user (c : Correlator) (text : String) :
    (c.abort (.user text)).notices = c.notices := by
  rw [abort]
  split <;> rfl

/-! ## Replies one after another -/

/-- Takes in replies in order; what each was told to be, and the correlator afterwards. -/
def receiveAll : List Message → Correlator → List Disposition × Correlator
  | [], c => ([], c)
  | m :: rest, c =>
    ((c.receive (some m)).1 :: (receiveAll rest (c.receive (some m)).2).1,
      (receiveAll rest (c.receive (some m)).2).2)

theorem akin_receive (c : Correlator) (m : Message) : Akin c (c.receive (some m)).2 :=
  (handling c (.arrived (some m))).akin

theorem receiveAll_append (before after : List Message) :
    ∀ c : Correlator, receiveAll (before ++ after) c =
      ((receiveAll before c).1 ++ (receiveAll after (receiveAll before c).2).1,
        (receiveAll after (receiveAll before c).2).2) := by
  induction before with
  | nil => intro c; rfl
  | cons m before ih =>
      intro c
      rw [List.cons_append, receiveAll, ih]
      rfl

theorem akin_receiveAll {replies : List Message} :
    ∀ c : Correlator, Akin c (receiveAll replies c).2 := by
  induction replies with
  | nil => intro c; exact ⟨rfl, rfl⟩
  | cons m replies ih => intro c; exact (akin_receive c m).trans (ih _)

end Correlator

namespace Surroundings

/-- A request stands in the surroundings as a correlator has it, and its listeners heard what the
correlator tells, from some state of theirs on. -/
structure Holds (services : Services U) (n : Nat) (start : U) (w : Surroundings U)
    (c : Correlator) : Prop where
  request : w.requests[n]? = some c.completion
  listeners : c.listeners = w.listeners
  user : w.user = tell services c.notices start

/-- The correlator of a request holds where nothing was told yet. -/
theorem holds_of_found {n : Nat} {w : Surroundings U} {c : Correlator}
    (found : w.correlator? n = some c) : Holds services n w.user w c := by
  obtain ⟨request, listeners, -, quiet⟩ := correlator?_eq_some found
  refine ⟨request, listeners, ?_⟩
  rw [quiet]
  rfl

theorem Holds.count {n : Nat} {start : U} {w : Surroundings U} {c : Correlator}
    (holds : Holds services n start w c) (f : Traffic → Traffic) :
    Holds services n start (w.count f) c := ⟨holds.request, holds.listeners, holds.user⟩

/-- A reply is delivered as the correlator receives it. -/
theorem Holds.deliver {n : Nat} {start : U} {w : Surroundings U} {c : Correlator}
    (holds : Holds services n start w c) (m : Message) :
    (w.deliver services n m).1 =
        ((c.receive (some m)).1 == .completed && !c.request.keepAlive) ∧
      Holds services n start (w.deliver services n m).2 (c.receive (some m)).2 := by
  obtain ⟨request, listeners, user⟩ := holds
  -- the surroundings hold the same request, with nothing heard yet and counters of their own
  obtain ⟨k, found, same, asked⟩ : ∃ k, w.correlator? n = some k ∧
      c = (k.counting c.traffic).hearing c.notices ∧ k.request = c.request := by
    refine ⟨⟨c.completion, w.listeners, [], w.traffic⟩, ?_, ?_, rfl⟩
    · rw [correlator?, request]
      rfl
    · rw [← listeners, Correlator.counting, Correlator.hearing, List.append_nil]
  obtain ⟨t, counted⟩ := Correlator.receive_counting k c.traffic (some m)
  have received : c.receive (some m) = ((k.receive (some m)).1,
      ((k.receive (some m)).2.counting t).hearing c.notices) :=
    calc c.receive (some m)
      _ = ((k.counting c.traffic).hearing c.notices).receive (some m) :=
          congrArg (fun c => c.receive (some m)) same
      _ = _ := by rw [Correlator.receive_hearing, counted]
  have inside : n < w.requests.length := (List.getElem?_eq_some_iff.mp request).1
  have akin := Correlator.akin_receive k m
  obtain ⟨-, told, -, -⟩ := correlator?_eq_some found
  have delivered : w.deliver services n m =
      ((k.receive (some m)).1 == .completed && !k.request.keepAlive,
        w.put services n (k.receive (some m)).2) := by
    rw [Surroundings.deliver, found]
  rw [delivered, received, asked]
  refine ⟨rfl, ?_, akin.listeners.trans told, ?_⟩
  · exact List.getElem?_set_self inside
  · show tell services (k.receive (some m)).2.notices w.user = _
    rw [user, Correlator.hearing, tell, tell, tell, List.foldl_append]
    rfl

end Surroundings

end PeerMessaging
