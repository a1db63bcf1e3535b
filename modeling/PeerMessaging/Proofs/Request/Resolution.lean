import PeerMessaging.Proofs.Request.Runs

/-!
# A request ends with a reply that fits

Whatever happens to a request, and in whatever order, it ends at most once: at the first event
that decides it. Nothing but a whole reply that fits makes it succeed with a reply, and a reply
that does not fit makes it fail. What an arrival is told to be says what became of the request,
and the counters count its end once.
-/

namespace PeerMessaging

namespace Correlator

/-- What an event makes of a pending request that it ends. -/
inductive Decides (request : Message) (e : RequestEvent) : Outcome → Prop
  | nothing (silent : e = .arrived none) : Decides request e (.success none)
  | reply (m : Message) (brought : e.message? = some m) (fits : Fits request m)
      (last : m.streaming = false) : Decides request e (.success (some (refreshed m)))
  | misfit (m : Message) (brought : e.message? = some m) (answers : m.isRequest = false)
      (misfit : ¬ Fits request m) (text : String) : Decides request e (.failed (.peer text))
  | abort (a : Abort) (asked : e.abort? = some a) : Decides request e (.failed a)

/-- An event leaves a pending request pending, or decides it. -/
theorem Handling.decides {c c' : Correlator} {e : RequestEvent} (h : Handling c e c')
    (pending : c.outcome = .pending) : c'.outcome = .pending ∨ Decides c.request e c'.outcome := by
  cases h with
  | nothing silent =>
      rw [(succeed_of_pending pending none).1]
      exact .inr (.nothing silent)
  | abort a asked =>
      rw [(abort_of_pending pending a).1]
      exact .inr (.abort a asked)
  | refused m brought answers misfit text =>
      rw [(abort_of_pending pending (.peer text)).1]
      exact .inr (.misfit m brought answers misfit text)
  | part m brought fits more =>
      exact .inl ((outcome_reportFound c _).trans pending)
  | whole m brought fits last =>
      have pending' := (outcome_reportFound c (refreshed m)).trans pending
      rw [(succeed_of_pending pending' _).1]
      exact .inr (.reply m brought fits last)
  | passed quiet calm asks => exact .inl pending

/-- A request that ends in a run is decided by one event, which finds it pending. -/
theorem run_decides {c : Correlator} {events : List RequestEvent} {o : Outcome}
    (pending : c.outcome = .pending) (ends : (c.run events).outcome = o) (ended : o ≠ .pending) :
    ∃ before e after, events = before ++ e :: after ∧ (c.run before).outcome = .pending ∧
      Decides c.request e o := by
  subst ends
  obtain ⟨before, e, after, split, open_, ends⟩ := exists_ending pending ended
  refine ⟨before, e, after, split, open_, ?_⟩
  rcases (handling (c.run before) e).decides open_ with still | decided
  · exact absurd (ends.symm.trans still) ended
  · rwa [ends, (akin_run c).request] at decided

/-- A reply that is no part of a stream ends a pending request, well if it fits. -/
theorem outcome_of_reply {c c' : Correlator} {e : RequestEvent} {m : Message}
    (h : Handling c e c') (pending : c.outcome = .pending) (brought : e.message? = some m)
    (answers : m.isRequest = false) (last : m.streaming = false) :
    (Fits c.request m → c'.outcome = .success (some (refreshed m))) ∧
      (¬ Fits c.request m → ∃ text, c'.outcome = .failed (.peer text)) := by
  cases h with
  | nothing silent =>
      rw [silent] at brought
      exact nomatch brought
  | abort a asked =>
      rw [abort?_eq_none brought] at asked
      exact nomatch asked
  | refused m' brought' answers' misfit text =>
      obtain rfl := Option.some.inj (brought.symm.trans brought')
      exact ⟨fun fits => absurd fits misfit, fun _ => ⟨text, (abort_of_pending pending _).1⟩⟩
  | part m' brought' fits more =>
      obtain rfl := Option.some.inj (brought.symm.trans brought')
      exact absurd (last.symm.trans more) nofun
  | whole m' brought' fits last' =>
      obtain rfl := Option.some.inj (brought.symm.trans brought')
      have pending' := (outcome_reportFound c (refreshed m)).trans pending
      exact ⟨fun _ => (succeed_of_pending pending' _).1, fun misfit => absurd fits misfit⟩
  | passed quiet calm asks =>
      exact absurd (answers.symm.trans (asks m brought)) nofun

/-! ## What arrivals are told to be -/

/-- A disposition says what arrived and what it did. -/
structure Disposed (c : Correlator) (reply : Option Message) (d : Disposition)
    (c' : Correlator) : Prop where
  notForThisRequest : d = .notForThisRequest ↔ ∃ m, reply = some m ∧ m.isRequest = true
  awaitMore : d = .awaitMore ↔ ∃ m, reply = some m ∧ Fits c.request m ∧ m.streaming = true
  untouched : d ≠ .completed → c'.completion = c.completion ∧ c'.traffic = c.traffic
  ended : d = .completed → c'.outcome ≠ .pending

/-- Each case of a reception is disposed of as `Disposed` says. -/
theorem Reception.disposed {c : Correlator} {m : Message} {step : Disposition × Correlator}
    (h : Reception c m step) : Disposed c (some m) step.1 step.2 := by
  cases h with
  | request asks =>
      refine ⟨⟨fun _ => ⟨m, rfl, asks⟩, fun _ => rfl⟩, ⟨nofun, ?_⟩, fun _ => ⟨rfl, rfl⟩, nofun⟩
      rintro ⟨m', same, fits, -⟩
      obtain rfl := Option.some.inj same
      exact absurd (asks.symm.trans fits.answers) nofun
  | refused answers misfit text =>
      refine ⟨⟨nofun, ?_⟩, ⟨nofun, ?_⟩, fun h => absurd rfl h,
        fun _ => outcome_abort_ne_pending c _⟩
      · rintro ⟨m', same, asks⟩
        obtain rfl := Option.some.inj same
        exact absurd (answers.symm.trans asks) nofun
      · rintro ⟨m', same, fits, -⟩
        obtain rfl := Option.some.inj same
        exact absurd fits misfit
  | part fits more =>
      refine ⟨⟨nofun, ?_⟩, ⟨fun _ => ⟨m, rfl, fits, more⟩, fun _ => rfl⟩,
        fun _ => ⟨completion_reportFound c _, traffic_reportFound c _⟩, nofun⟩
      rintro ⟨m', same, asks⟩
      obtain rfl := Option.some.inj same
      exact absurd (asks.symm.trans fits.answers) nofun
  | whole fits last =>
      refine ⟨⟨nofun, ?_⟩, ⟨nofun, ?_⟩, fun h => absurd rfl h,
        fun _ => outcome_succeed_ne_pending _ _⟩
      · rintro ⟨m', same, asks⟩
        obtain rfl := Option.some.inj same
        exact absurd (asks.symm.trans fits.answers) nofun
      · rintro ⟨m', same, -, more⟩
        obtain rfl := Option.some.inj same
        exact absurd (last.symm.trans more) nofun

/-- What `receive` answers says whether the request has ended. -/
theorem disposed_receive (c : Correlator) (reply : Option Message) :
    Disposed c reply (c.receive reply).1 (c.receive reply).2 := by
  cases reply with
  | none =>
      refine ⟨⟨nofun, ?_⟩, ⟨nofun, ?_⟩, fun h => absurd rfl h,
        fun _ => outcome_succeed_ne_pending c none⟩
      · rintro ⟨m, absent, -⟩
        exact nomatch absent
      · rintro ⟨m, absent, -⟩
        exact nomatch absent
  | some m => exact (reception c m).disposed

/-! ## What is counted -/

/-- The counters with the end of a request among them. -/
def counted (t : Traffic) : Outcome → Traffic
  | .pending => t
  | .success _ => t.requestCompleted
  | .failed a => t.requestFailed a.cause

/-- An event on a pending request counts its end, if it ends it, and nothing else. -/
theorem Handling.traffic_eq {c c' : Correlator} {e : RequestEvent} (h : Handling c e c')
    (pending : c.outcome = .pending) : c'.traffic = counted c.traffic c'.outcome := by
  cases h with
  | nothing silent =>
      obtain ⟨ends, counts⟩ := succeed_of_pending pending none
      rw [ends, counts, counted]
  | abort a asked =>
      obtain ⟨ends, counts, -⟩ := abort_of_pending pending a
      rw [ends, counts, counted]
  | refused m brought answers misfit text =>
      obtain ⟨ends, counts, -⟩ := abort_of_pending pending (.peer text)
      rw [ends, counts, counted]
  | part m brought fits more =>
      rw [outcome_reportFound, traffic_reportFound, pending, counted]
  | whole m brought fits last =>
      have pending' := (outcome_reportFound c (refreshed m)).trans pending
      obtain ⟨ends, counts⟩ := succeed_of_pending pending' (some (refreshed m))
      rw [ends, counts, counted, traffic_reportFound]
  | passed quiet calm asks => rw [pending, counted]

/-- The counters tell of the end of the request once, and of nothing else. -/
theorem traffic_run {events : List RequestEvent} :
    ∀ {c : Correlator}, c.outcome = .pending →
      (c.run events).traffic = counted c.traffic (c.run events).outcome := by
  induction events with
  | nil => intro c pending; rw [run, pending, counted]
  | cons e events ih =>
      intro c pending
      -- the event that ends the request counts it, and no later one counts anything
      have counts := (handling c e).traffic_eq pending
      by_cases next : (c.handle e).outcome = .pending
      · rw [next, counted] at counts
        rw [run, ih next, counts]
      · obtain ⟨completion, traffic⟩ := @run_of_ended events _ next
        rw [run, traffic, counts, outcome, outcome, completion]

/-! ## Whole runs -/

/-- What holds of the request after any run. -/
structure Resolves (c : Correlator) (events : List RequestEvent) : Prop where
  once : ∀ before after, events = before ++ after → (c.run before).outcome ≠ .pending →
    (c.run events).outcome = (c.run before).outcome
  nothing : (c.run events).outcome = .success none →
    ∃ before after, events = before ++ .arrived none :: after ∧ (c.run before).outcome = .pending
  reply : ∀ r, (c.run events).outcome = .success (some r) →
    ∃ before e after m, events = before ++ e :: after ∧ (c.run before).outcome = .pending ∧
      e.message? = some m ∧ Fits c.request m ∧ m.streaming = false ∧
      r = { m with sender := if isAnswer m then knownSender m else m.sender }
  failed : ∀ a, (c.run events).outcome = .failed a →
    ∃ before e after, events = before ++ e :: after ∧ (c.run before).outcome = .pending ∧
      (e.abort? = some a ∨ a.cause = .peerAbort ∧
        ∃ m, e.message? = some m ∧ m.isRequest = false ∧ ¬ Fits c.request m)
  answered : ∀ before e after m, events = before ++ e :: after →
    (c.run before).outcome = .pending → e.message? = some m → m.isRequest = false →
    m.streaming = false →
    (Fits c.request m → (c.run events).outcome = .success (some (refreshed m))) ∧
      (¬ Fits c.request m → ∃ text, (c.run events).outcome = .failed (.peer text))
  disposed : ∀ before after reply, events = before ++ .arrived reply :: after →
    Disposed (c.run before) reply ((c.run before).receive reply).1
      (c.run (before ++ [.arrived reply]))
  counted : (c.run events).traffic = counted c.traffic (c.run events).outcome

/-- The laws of resolution hold of every run that begins with a pending request. -/
theorem resolves {c : Correlator} (pending : c.outcome = .pending) (events : List RequestEvent) :
    Resolves c events where
  once := by
    rintro before after rfl ended
    rw [run_append]
    exact congrArg Completion.outcome (run_of_ended ended).1
  nothing := by
    intro ends
    obtain ⟨before, e, after, split, open_, decided⟩ := run_decides pending ends nofun
    cases decided with
    | nothing silent => exact ⟨before, after, silent ▸ split, open_⟩
  reply := by
    intro r ends
    obtain ⟨before, e, after, split, open_, decided⟩ := run_decides pending ends nofun
    cases decided with
    | reply m brought fits last =>
        exact ⟨before, e, after, m, split, open_, brought, fits, last, refreshed_eq m⟩
  failed := by
    intro a ends
    obtain ⟨before, e, after, split, open_, decided⟩ := run_decides pending ends nofun
    refine ⟨before, e, after, split, open_, ?_⟩
    cases decided with
    | misfit m brought answers misfit text => exact .inr ⟨rfl, m, brought, answers, misfit⟩
    | abort a asked => exact .inl asked
  answered := by
    rintro before e after m rfl open_ brought answers last
    have known := outcome_of_reply (handling (c.run before) e) open_ brought answers last
    rw [(akin_run c).request] at known
    -- what follows the reply comes too late to change anything
    have later : (c.run (before ++ e :: after)).outcome = ((c.run before).handle e).outcome := by
      rw [run_append]
      show (((c.run before).handle e).run after).outcome = _
      refine congrArg Completion.outcome (run_of_ended ?_).1
      by_cases fits : Fits c.request m
      · rw [known.1 fits]
        exact nofun
      · obtain ⟨text, ends⟩ := known.2 fits
        rw [ends]
        exact nofun
    rwa [later]
  disposed := by
    rintro before after reply -
    rw [run_concat]
    exact disposed_receive _ reply
  counted := traffic_run pending

end Correlator

namespace Surroundings

/-- **A pending request is resolved once**, by the first reply that fits or by the first abort,
whatever happens to it in its channel (`Resolves`). -/
theorem run_resolves {U : Type} {services : Services U} {w : Surroundings U} {n : Nat}
    {c : Correlator} (found : w.correlator? n = some c) (pending : c.outcome = .pending)
    (events : List RequestEvent) :
    ((w.run services n events).requests[n]? = some (c.run events).completion ∧
      (w.run services n events).traffic = (c.run events).traffic) ∧ c.Resolves events :=
  ⟨⟨(run_eq found events).1, (run_eq found events).2.1⟩, Correlator.resolves pending events⟩

/-- A part of a streamed answer, what is no answer, the rest of the answer and a late abort. -/
def someEvents : List RequestEvent :=
  [.arrived (some { kind := .ok, streaming := true }), .arrived (some { kind := .request2 }),
    .read someContext (.message { kind := .partiallyOk }),
    .aborted (.user "too late")]

/-- A reply ends the request, and what comes later does not change its outcome. -/
theorem run_resolves_lone :
    ∃ c : Correlator, lone.correlator? 0 = some c ∧ c.outcome = .pending ∧
      c.Resolves someEvents ∧
      ((lone.run recording 0 someEvents).requests[0]?.map Completion.outcome)
        = some (.success (some { kind := .partiallyOk })) := by
  obtain ⟨⟨completion, -⟩, resolves⟩ :=
    @run_resolves _ recording lone 0 _ rfl rfl someEvents
  refine ⟨_, rfl, rfl, resolves, ?_⟩
  rw [completion]
  decide +kernel

end Surroundings

end PeerMessaging
