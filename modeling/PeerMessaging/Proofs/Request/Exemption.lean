import PeerMessaging.Proofs.Request.Runs

/-!
# Which replies may change the relay flag

Whatever happens to a request, the first event that has a verdict on it decides how it ends, and
the verdict is found without the correlator: a message that arrives has one, unless it is a
request or one part of a stream, and so has every abort. Of the request itself the verdict on a
message needs the correlation key and the relay flag of the recipient, and nothing else. So it is
the command that a reply names, and not the command that was asked for, that lifts the check of
the relay flag: a peer that names the reverse connection setup in its reply passes with either
flag.
-/

namespace PeerMessaging

/-- How a request stands, without the words of an abort. -/
def Outcome.gist (o : Outcome) : Option (Except AbortCause (Option Message)) :=
  o.result?.map (Except.mapError Abort.cause)

/-- Only a pending outcome has no gist. -/
theorem Outcome.gist_eq_none_iff {o : Outcome} : o.gist = none ↔ o = .pending := by
  cases o with
  | pending => exact ⟨fun _ => rfl, fun _ => rfl⟩
  | success reply => exact ⟨nofun, nofun⟩
  | failed abort => exact ⟨nofun, nofun⟩

/-- The gist is a reply exactly for a success with this reply. -/
theorem Outcome.gist_eq_reply_iff {o : Outcome} {reply : Option Message} :
    o.gist = some (.ok reply) ↔ o = .success reply := by
  cases o with
  | pending => exact ⟨nofun, nofun⟩
  | success reply' =>
      refine ⟨fun same => ?_, fun same => ?_⟩
      · rw [Except.ok.inj (Option.some.inj same)]
      · rw [same]
        rfl
  | failed abort =>
      refine ⟨fun same => ?_, nofun⟩
      exact nomatch Option.some.inj same

/-- The event says that nobody answers. -/
def RequestEvent.isSilence : RequestEvent → Bool
  | .arrived none => true
  | _ => false

namespace Correlator

instance (request response : Message) : Decidable (Fits request response) :=
  inferInstanceAs (Decidable (_ ∧ _))

/-- What an event makes of a pending request, none if the request stays pending. -/
def verdict (request : Message) (e : RequestEvent) : Option (Except AbortCause (Option Message)) :=
  match e.message? with
  | some m =>
    if m.isRequest then none
    else if Fits request m then if m.streaming then none else some (.ok (some (refreshed m)))
    else some (.error .peerAbort)
  | none =>
    match e.abort? with
    | some a => some (.error a.cause)
    | none => if e.isSilence then some (.ok none) else none

/-- The verdict on an event with a message depends on the message alone: whether it asks, fits and
is a last part. -/
theorem verdict_of_message {request m : Message} {e : RequestEvent}
    (brought : e.message? = some m) :
    verdict request e =
      if m.isRequest then none
      else if Fits request m then if m.streaming then none else some (.ok (some (refreshed m)))
      else some (.error .peerAbort) := by
  rw [verdict, brought]

/-- The verdict on an event that aborts is the cause of the abort. -/
theorem verdict_of_abort {request : Message} {a : Abort} {e : RequestEvent}
    (asked : e.abort? = some a) : verdict request e = some (.error a.cause) := by
  cases brought : e.message? with
  | some m =>
      rw [abort?_eq_none brought] at asked
      exact nomatch asked
  | none => rw [verdict, brought, asked]

/-! ## The first verdict counts -/

/-- An abort decides a request that is undecided so far. -/
theorem gist_abort (c : Correlator) (a : Abort) :
    (c.abort a).outcome.gist = c.outcome.gist.or (some (.error a.cause)) := by
  by_cases pending : c.outcome = .pending
  · rw [(abort_of_pending pending a).1, pending]
    rfl
  · obtain ⟨g, ended⟩ := Option.ne_none_iff_exists'.mp (mt Outcome.gist_eq_none_iff.mp pending)
    rw [abort_of_ended pending, ended, Option.some_or]

/-- A success decides a request that is undecided so far. -/
theorem gist_succeed (c : Correlator) (reply : Option Message) :
    (c.succeed reply).outcome.gist = c.outcome.gist.or (some (.ok reply)) := by
  by_cases pending : c.outcome = .pending
  · rw [(succeed_of_pending pending reply).1, pending]
    rfl
  · obtain ⟨g, ended⟩ := Option.ne_none_iff_exists'.mp (mt Outcome.gist_eq_none_iff.mp pending)
    rw [succeed_of_ended pending, ended, Option.some_or]

/-- One event: the request stays as it stands, or it was pending and takes the verdict. -/
theorem gist_handle (c : Correlator) (e : RequestEvent) :
    (c.handle e).outcome.gist = c.outcome.gist.or (verdict c.request e) := by
  have known := handling c e
  generalize c.handle e = c' at known
  cases known with
  | nothing silent =>
      rw [gist_succeed, silent]
      rfl
  | abort a asked => rw [gist_abort, verdict_of_abort asked]
  | refused m brought answers misfit text =>
      rw [gist_abort, verdict_of_message brought, answers, if_neg nofun, if_neg misfit]
      rfl
  | part m brought fits more =>
      rw [outcome_reportFound, verdict_of_message brought, fits.answers, if_neg nofun, if_pos fits,
        if_pos more, Option.or_none]
  | whole m brought fits last =>
      rw [gist_succeed, outcome_reportFound, verdict_of_message brought, fits.answers, if_neg nofun,
        if_pos fits, last, if_neg nofun]
  | passed quiet calm asks =>
      -- nothing is decided by requests of others, nor by what brings no message and no failure
      have none : verdict c.request e = none := by
        cases brought : e.message? with
        | some m => rw [verdict_of_message brought, if_pos (asks m brought)]
        | none =>
            have heard : ¬ e.isSilence = true := by
              intro silence
              cases e with
              | arrived reply => cases reply with
                | none => exact quiet rfl
                | some m => exact nomatch brought
              | _ => exact nomatch silence
            rw [verdict, brought, calm]
            exact if_neg heard
      rw [none, Option.or_none]

/-- A run that starts pending ends as the first event says that has a verdict. -/
theorem gist_run (events : List RequestEvent) :
    ∀ c : Correlator,
      (c.run events).outcome.gist = c.outcome.gist.or (events.findSome? (verdict c.request)) := by
  induction events with
  | nil => intro c; exact (Option.or_none).symm
  | cons e events ih =>
      intro c
      rw [run, ih, gist_handle, (handling c e).akin.request, List.findSome?_cons]
      cases verdict c.request e with
      | none => rw [Option.or_none]
      | some v => rw [Option.or_assoc, Option.some_or]

/-! ## The relay flag -/

/-- The correlator of a request that asks for another command. -/
def commanding (c : Correlator) (command : UInt8) : Correlator :=
  { c with completion :=
      { c.completion with request := { c.completion.request with command := command } } }

theorem relayed_refreshed (m : Message) : (refreshed m).sender.relayed = m.sender.relayed := by
  rw [refreshed]
  split <;> rfl

theorem command_refreshed (m : Message) : (refreshed m).command = m.command := by
  rw [refreshed]
  split <;> rfl

/-- A reply that only its relay flag could keep from ending the request. -/
structure Awaited (request m : Message) : Prop where
  kind : m.kind ∈ fittingKinds
  key : m.correlationKey = request.correlationKey
  last : m.streaming = false

/-- An awaited reply ends the request, well if it names the reverse connection setup or has the
flag of the recipient. -/
theorem verdict_of_awaited {request m : Message} {e : RequestEvent}
    (brought : e.message? = some m) (awaited : Awaited request m) :
    verdict request e =
      if m.command = rconCommand ∨ request.recipient.relayed = m.sender.relayed then
        some (.ok (some (refreshed m)))
      else some (.error .peerAbort) := by
  have answers : m.isRequest = false := (mem_fittingKinds.mp awaited.kind).2.2
  rw [verdict_of_message brought, answers, if_neg nofun, awaited.last]
  by_cases lets : m.command = rconCommand ∨ request.recipient.relayed = m.sender.relayed
  · rw [if_pos lets, if_pos ⟨awaited.kind, awaited.key, lets⟩, if_neg nofun]
  · rw [if_neg lets, if_neg fun fits : Fits request m => lets fits.2.2]

/-- The verdict that a request ends with a reply comes from an awaited one. -/
theorem awaited_of_verdict {request r : Message} {e : RequestEvent}
    (ends : verdict request e = some (.ok (some r))) :
    ∃ m, e.message? = some m ∧ Awaited request m ∧ r = refreshed m ∧
      (m.command = rconCommand ∨ request.recipient.relayed = m.sender.relayed) := by
  cases brought : e.message? with
  | some m =>
      rw [verdict_of_message brought] at ends
      by_cases asks : m.isRequest = true
      · rw [if_pos asks] at ends
        exact nomatch ends
      rw [if_neg asks] at ends
      by_cases fits : Fits request m
      · rw [if_pos fits] at ends
        cases streaming : m.streaming with
        | true =>
            rw [streaming, if_pos rfl] at ends
            exact nomatch ends
        | false =>
            rw [streaming, if_neg nofun] at ends
            have same := Option.some.inj (Except.ok.inj (Option.some.inj ends))
            exact ⟨m, rfl, ⟨fits.1, fits.2.1, streaming⟩, same.symm, fits.2.2⟩
      · rw [if_neg fits] at ends
        exact nomatch Option.some.inj ends
  | none =>
      -- neither an abort nor the news that nobody answers brings a reply
      rw [verdict, brought] at ends
      dsimp only at ends
      split at ends
      · exact nomatch Option.some.inj ends
      · split at ends
        · exact nomatch Except.ok.inj (Option.some.inj ends)
        · exact nomatch ends

/-- What the relay flag of a reply means for a request after any run. -/
structure RelayRule (c : Correlator) (events : List RequestEvent) : Prop where
  checked : ∀ r, (c.run events).outcome = .success (some r) →
    r.sender.relayed = c.request.recipient.relayed ∨ r.command = rconCommand
  lifted : ∀ r, (c.run events).outcome = .success (some r) ∧
      r.sender.relayed ≠ c.request.recipient.relayed ↔
    ∃ before e after m, events = before ++ e :: after ∧ (c.run before).outcome = .pending ∧
      e.message? = some m ∧ Awaited c.request m ∧ m.command = rconCommand ∧
      m.sender.relayed ≠ c.request.recipient.relayed ∧ r = refreshed m
  refused : ∀ before e after m, events = before ++ e :: after →
    (c.run before).outcome = .pending → e.message? = some m → Awaited c.request m →
    m.command ≠ rconCommand → m.sender.relayed ≠ c.request.recipient.relayed →
    (c.run events).outcome.gist = some (.error .peerAbort)
  unasked : ∀ command,
    ((c.commanding command).run events).outcome.gist = (c.run events).outcome.gist

/-- A run ends as an event says that finds the request pending. -/
theorem gist_run_of_split {c : Correlator} {before after : List RequestEvent} {e : RequestEvent}
    {v : Except AbortCause (Option Message)} (open_ : (c.run before).outcome = .pending)
    (ruled : verdict c.request e = some v) :
    (c.run (before ++ e :: after)).outcome.gist = some v := by
  rw [run_append, run, gist_run, gist_handle, open_, (akin_run c).request, ruled]
  rfl

/-- **A reply lifts the check of its own relay flag.** A request that ends with a reply of another
flag has been given one that names the reverse connection setup, whatever the request asked for;
and every such reply ends it. -/
theorem run_relay_rule {c : Correlator} (pending : c.outcome = .pending)
    (events : List RequestEvent) : c.RelayRule events := by
  -- how the run ends with a reply is told by the event that decides it
  have decided : ∀ r, (c.run events).outcome = .success (some r) →
      ∃ before e after m, events = before ++ e :: after ∧ (c.run before).outcome = .pending ∧
        e.message? = some m ∧ Awaited c.request m ∧ r = refreshed m ∧
        (m.command = rconCommand ∨ c.request.recipient.relayed = m.sender.relayed) := by
    intro r ends
    have first := Outcome.gist_eq_reply_iff.mpr ends
    rw [gist_run, pending] at first
    obtain ⟨before, e, after, rfl, ruled, silent⟩ := List.findSome?_eq_some_iff.mp first
    obtain ⟨m, brought, awaited, same, lets⟩ := awaited_of_verdict ruled
    refine ⟨before, e, after, m, rfl, Outcome.gist_eq_none_iff.mp ?_, brought, awaited, same, lets⟩
    rw [gist_run, pending, List.findSome?_eq_none_iff.mpr silent]
    rfl
  refine ⟨fun r ends => ?_, fun r => ⟨fun ⟨ends, differ⟩ => ?_, ?_⟩, ?_, fun command => ?_⟩
  · obtain ⟨-, -, -, m, -, -, -, -, rfl, lets⟩ := decided r ends
    rw [relayed_refreshed, command_refreshed]
    exact lets.elim .inr fun same => .inl same.symm
  · obtain ⟨before, e, after, m, split, open_, brought, awaited, rfl, lets⟩ := decided r ends
    rw [relayed_refreshed] at differ
    exact ⟨before, e, after, m, split, open_, brought, awaited,
      lets.resolve_right fun same => differ same.symm, differ, rfl⟩
  · rintro ⟨before, e, after, m, rfl, open_, brought, awaited, named, differ, rfl⟩
    refine ⟨Outcome.gist_eq_reply_iff.mp (gist_run_of_split open_ ?_), ?_⟩
    · rw [verdict_of_awaited brought awaited, if_pos (.inl named)]
    · rwa [relayed_refreshed]
  · rintro before e after m rfl open_ brought awaited other differ
    refine gist_run_of_split open_ ?_
    rw [verdict_of_awaited brought awaited,
      if_neg (not_or.mpr ⟨other, fun same => differ same.symm⟩)]
  · -- neither the key nor the recipient of the request depends on its command
    rw [gist_run, gist_run]
    rfl

/-- A request for a command other than the reverse connection setup, to a peer that is not
relayed. -/
def plainAsk : Message := { command := 5 }

/-- A whole answer to it that names the reverse connection setup, from a relayed sender. -/
def turnedReply : Message :=
  { kind := .ok, command := rconCommand, sender := { PeerAddress.unknown with relayed := true } }

/-- A request that was not relayed meets a request by somebody else and then a relayed answer. -/
theorem run_relay_rule_plainAsk :
    (ofRequest plainAsk [0]).outcome = .pending ∧
      (ofRequest plainAsk [0]).RelayRule
        [.arrived (some { kind := .request2 }), .arrived (some turnedReply)] :=
  ⟨rfl, run_relay_rule rfl _⟩

/-- The check is lifted for a request that has nothing to do with a reverse connection setup. -/
theorem turnedReply_resolves :
    plainAsk.command ≠ rconCommand ∧
      ((ofRequest plainAsk [0]).run [.arrived (some turnedReply)]).outcome
        = .success (some turnedReply) ∧
      turnedReply.sender.relayed ≠ plainAsk.recipient.relayed := by
  decide +kernel

end Correlator

end PeerMessaging
