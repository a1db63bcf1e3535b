import PeerMessaging.Proofs.Dispatch.History
import PeerMessaging.Proofs.Request.Liveness
import PeerMessaging.Proofs.Request.Resolution
import PeerMessaging.Proofs.Wire.Headers

/-!
# A request and its reply find each other

A request travels to another node, a dispatcher answers it there, and the reply travels back to
what waits for it. On the way both lose what no packet carries, and the addresses of their peers
become those of the sockets. What is left is enough: the reply still has the number, the version
and the command of the request and goes to the peer that asked, so it is taken for the reply that
it is. A handler that answers in the envelope it was given makes the request succeed; without one,
or if it fails, or if the version is another, the request fails and the listeners are told that the
peer failed.
-/

namespace PeerMessaging

open HandlerChange Packet

namespace Exchange

variable {U : Type} {scheme : SignatureScheme}

/-- The kinds of requests that somebody answers. -/
def askingKinds : List MessageKind := [.request1, .request2, .request3, .request4]

/-- A request, and what the other side read of its packet, wherever the packet moved. -/
structure Asked (scheme : SignatureScheme) (q q' : Message) : Prop where
  kind : q.kind ∈ askingKinds
  read : ∃ packet origin destination udp, encode scheme q = .ok packet ∧
    decode scheme packet.toBytes origin destination udp = .ok q'

/-- What a reply must keep of its envelope on all its ways. -/
structure Enveloped (q : Message) (responder : PeerAddress) (kind : MessageKind) (m : Message) :
    Prop where
  id : m.id = q.id
  version : m.version = q.version
  kind : m.kind = kind
  command : m.command = q.command
  sender : m.sender.id = responder.id
  relayed : m.sender.relayed = responder.relayed
  recipient : m.recipient.id = q.sender.id
  streaming : m.streaming = false

/-- The request succeeded with a reply, and every listener heard once that its sender lives. -/
structure Answered (c : Correlator) (responder : PeerAddress) (r reply : Message)
    (c' : Correlator) : Prop where
  outcome : c'.outcome = .success (some reply)
  id : reply.id = c.request.id
  version : reply.version = c.request.version
  kind : reply.kind = .ok
  command : reply.command = c.request.command
  sender : reply.sender.id = responder.id
  content : reply.content = r.content
  heard : c'.notices = c.notices ++ c.listeners.map fun l => .found l reply.sender

/-- The request failed because of the peer, and every listener heard of it once. -/
structure Blamed (c : Correlator) (a : Abort) (c' : Correlator) : Prop where
  outcome : c'.outcome = .failed a
  cause : a.cause = .peerAbort
  heard : c'.notices = c.notices ++ c.listeners.map fun l => .failed l c.request.recipient a

/-! ## The envelope on its way -/

/-- The asking kinds are kinds of requests, and none of them is fire-and-forget. -/
theorem isRequest_of_mem {k : MessageKind} (asks : k ∈ askingKinds) :
    k.isRequest = true ∧ k.isFireAndForget = false := by
  revert asks
  cases k <;> decide

/-- What the other side reads is the same question. -/
theorem Asked.header {q q' : Message} (asked : Asked scheme q q') :
    q.version ≤ maxVersion ∧ q'.id = q.id ∧ q'.version = q.version ∧ q'.kind = q.kind ∧
      q'.command = q.command ∧ q'.sender.id = q.sender.id := by
  obtain ⟨packet, origin, destination, udp, encoded, read⟩ := asked.read
  obtain ⟨same, -⟩ := eq_received_of_decode encoded read
  rw [same]
  exact ⟨(header_of_encode encoded).1, rfl, rfl, rfl, rfl, rfl⟩

/-- `replyTo` makes the envelope of the request that was asked. -/
theorem enveloped_replyTo {q q' : Message} (asked : Asked scheme q q') (responder : PeerAddress)
    (kind : MessageKind) : Enveloped q responder kind (q'.replyTo responder kind) := by
  obtain ⟨-, id, version, -, command, sender⟩ := asked.header
  exact ⟨id, version, rfl, command, rfl, rfl, sender, rfl⟩

namespace Enveloped

variable {q m m' : Message} {responder : PeerAddress} {kind : MessageKind}

/-- Content does not touch the envelope. -/
theorem grown {additions : List Addition} (h : Enveloped q responder kind m)
    (grown : Message.Grown additions m m') : Enveloped q responder kind m' := by
  rw [grown.header]
  exact ⟨h.id, h.version, h.kind, h.command, h.sender, h.relayed, h.recipient, h.streaming⟩

/-- A packet keeps the envelope. -/
theorem arrives {wire : Gather} {origin destination : SocketAddress} {udp : Bool}
    (h : Enveloped q responder kind m) (encoded : encode scheme m = .ok wire)
    (read : decode scheme wire.toBytes origin destination udp = .ok m') :
    Enveloped q responder kind m' := by
  obtain ⟨same, -⟩ := eq_received_of_decode encoded read
  rw [same]
  exact ⟨h.id, h.version, h.kind, h.command, h.sender, h.relayed, h.recipient, h.streaming⟩

/-- Request and reply name the peer that asked, each in its own way. -/
theorem correlationKey (h : Enveloped q responder kind m) (asks : q.kind.isRequest = true)
    (answers : kind.isRequest = false) : m.correlationKey = q.correlationKey := by
  have reply : m.isRequest = false := by rw [Message.isRequest, h.kind, answers]
  have request : q.isRequest = true := asks
  rw [Message.correlationKey, Message.correlationKey, reply, request, h.id, h.recipient]
  rfl

/-- A reply in the envelope of a request fits it, unless the relay flag of the responder forbids it.
-/
theorem fits (h : Enveloped q responder kind m) (asks : q.kind.isRequest = true)
    (fitting : kind ∈ Correlator.fittingKinds)
    (relay : responder.relayed = q.recipient.relayed ∨ q.command = rconCommand) :
    Correlator.Fits q m := by
  have answers := (Correlator.mem_fittingKinds.mp fitting).2.2
  refine ⟨h.kind ▸ fitting, h.correlationKey asks answers, ?_⟩
  rcases relay with same | rcon
  · exact .inr (same.symm.trans h.relayed.symm)
  · exact .inl (h.command.trans rcon)

end Enveloped

/-! ## What becomes of the request -/

open Correlator

variable {c : Correlator} {r : Message} {e : RequestEvent} {responder : PeerAddress}

/-- A sender that is known better is still the same peer. -/
theorem id_knownSender (m : Message) : (knownSender m).id = m.sender.id := by
  rw [knownSender]
  split <;> rfl

/-- A reply in its envelope makes a pending request succeed. -/
theorem answered_of_enveloped (pending : c.outcome = .pending)
    (asks : c.request.kind.isRequest = true) (h : Enveloped c.request responder .ok r)
    (relay : responder.relayed = c.request.recipient.relayed ∨ c.request.command = rconCommand)
    (brought : e.message? = some r) :
    Answered c responder r (refreshed r) (c.handle e) := by
  have fits := h.fits asks (by decide) relay
  have answer : isAnswer r = true := by
    rw [isAnswer, h.kind]
    rfl
  have ends := (outcome_of_reply (handling c e) pending brought fits.answers h.streaming).1 fits
  have heard := (handling c e).notices_eq
  rw [answerNotices_of_message brought fits.2, messageNotices, isAnswer_refreshed, if_pos answer,
    ends]
    at heard
  -- what is refreshed is the sender alone, and it stays the same peer
  have sender : (refreshed r).sender.id = r.sender.id := by
    rw [refreshed_eq, answer]
    exact id_knownSender r
  refine ⟨ends, ?_, ?_, ?_, ?_, sender.trans h.sender, ?_, ?_⟩
  · rw [refreshed_eq]
    exact h.id
  · rw [refreshed_eq]
    exact h.version
  · rw [refreshed_eq]
    exact h.kind
  · rw [refreshed_eq]
    exact h.command
  · rw [refreshed_eq]
  · rw [heard, if_pos pending]
    exact List.append_nil _

/-- A reply that tells of a failure makes a pending request fail. -/
theorem failed_of_kind (pending : c.outcome = .pending)
    (failure : r.kind = .unknownId ∨ r.kind = .exception) (streaming : r.streaming = false)
    (brought : e.message? = some r) : ∃ a, Blamed c a (c.handle e) := by
  have misfit : ¬ Fits c.request r := by
    intro fits
    obtain ⟨known, fine, -⟩ := mem_fittingKinds.mp fits.1
    exact failure.elim known fine
  have answers : r.isRequest = false := by
    rw [Message.isRequest]
    rcases failure with kind | kind <;> rw [kind] <;> rfl
  obtain ⟨text, ends⟩ :=
    (outcome_of_reply (handling c e) pending brought answers streaming).2 misfit
  have unheard : c.answerNotices e = [] := by
    refine answerNotices_of_misfit fun m brought' => ?_
    obtain rfl := Option.some.inj (brought.symm.trans brought')
    exact misfit
  have heard := (handling c e).notices_eq
  rw [unheard, List.append_nil, if_pos pending, ends] at heard
  have cause : (Abort.peer text).cause ≠ .userAbort := by
    show AbortCause.peerAbort ≠ .userAbort
    decide
  refine ⟨.peer text, ends, rfl, ?_⟩
  rw [heard, endNotices, abortNotices_eq, if_neg cause]

/-! ## The whole way -/

/-- The reply of a dispatcher to what it read of a request, on its way back to a correlator. The
header comes through in any case, and so does a section whose length fits the bytes that the
length is written in. -/
structure Correlates (scheme : SignatureScheme) (q q' : Message) (responder : PeerAddress)
    (version : UInt32) (changes : List (HandlerChange U)) (u : U) (c : Correlator)
    (origin destination : SocketAddress) (udp : Bool) : Prop where
  answered : ∀ h (additions : List Addition) u', version = q.version →
    Standing changes q.command h → (∀ a ∈ additions, a.isGenuine) →
    h q' (q'.replyTo responder .ok) u
      = (.ok ((q'.replyTo responder .ok).build (additions.map .add)), u') →
    (responder.relayed = q.recipient.relayed ∨ q.command = rconCommand) →
    ∃ answer, ((Dispatcher.after responder version changes).respond q' u).1 = some answer ∧
      answer = (q'.replyTo responder .ok).build (additions.map .add) ∧
      ∀ wire, encode scheme answer = .ok wire →
        (∀ r, decode scheme wire.toBytes origin destination udp = .ok r →
          ((∀ s ∈ answer.content, s.Short) → Conveyed origin destination udp answer r) ∧
          ∀ e, e.message? = some r → ∃ reply, Answered c responder r reply (c.handle e)) ∧
        (scheme.HasSizes → Short answer.content →
          (isSigned answer.content = true → Accepted scheme answer) →
          ∃ r, decode scheme wire.toBytes origin destination udp = .ok r)
  failed : (version ≠ q.version ∨ (∀ h, ¬ Standing changes q.command h) ∨
      ∃ h f u', Standing changes q.command h ∧
        h q' (q'.replyTo responder .ok) u = (.error f, u')) →
    ∃ answer wire r, ((Dispatcher.after responder version changes).respond q' u).1 = some answer ∧
      encode scheme answer = .ok wire ∧
      decode scheme wire.toBytes origin destination udp = .ok r ∧
      ∀ e, e.message? = some r → ∃ a, Blamed c a (c.handle e)

section Decisions

variable {q q' : Message} {version : UInt32} {changes : List (HandlerChange U)} {u : U}

/-- Somebody waits for the reply. -/
theorem reply_of_asked (asked : Asked scheme q q') (answer : Message) :
    Dispatcher.reply q' answer = some answer := by
  obtain ⟨-, -, -, kind, -⟩ := asked.header
  have awaited : q'.isFireAndForget = false := by
    rw [Message.isFireAndForget, kind]
    exact (isRequest_of_mem asked.kind).2
  rw [Dispatcher.reply, awaited]
  rfl

/-- Where the standing handler gives an answer, the dispatcher responds with this answer. -/
theorem respond_of_answer (asked : Asked scheme q q') (served : version = q.version)
    {h : CommandHandler U} (stands : Standing changes q.command h) {answer : Message} {u' : U}
    (ran : h q' (q'.replyTo responder .ok) u = (.ok answer, u')) :
    ((Dispatcher.after responder version changes).respond q' u).1 = some answer := by
  obtain ⟨-, -, version', -, command, -⟩ := asked.header
  have known := (Dispatcher.after responder version changes).decision q' u
  generalize (Dispatcher.after responder version changes).respond q' u = step at known ⊢
  rw [← command, ← @Dispatcher.handler?_after U responder version] at stands
  cases known with
  | outdated differs =>
      rw [Dispatcher.version_after, version', served] at differs
      exact absurd rfl differs
  | unknown _ bare =>
      rw [bare] at stands
      exact nomatch stands
  | answered _ h' found answer' u'' ran' =>
      obtain rfl := Option.some.inj (found.symm.trans stands)
      rw [Dispatcher.responder_after, ran] at ran'
      obtain ⟨same, -⟩ := Prod.mk.inj ran'
      obtain rfl := Except.ok.inj same
      exact reply_of_asked asked answer
  | failed _ h' found f u'' ran' =>
      obtain rfl := Option.some.inj (found.symm.trans stands)
      rw [Dispatcher.responder_after, ran] at ran'
      exact nomatch ran'

/-- Where the version differs, no handler stands or the handler fails, the dispatcher responds with
an envelope of a kind that tells of it. -/
theorem respond_of_failure (asked : Asked scheme q q')
    (fails : version ≠ q.version ∨ (∀ h, ¬ Standing changes q.command h) ∨
      ∃ h f u', Standing changes q.command h ∧
        h q' (q'.replyTo responder .ok) u = (.error f, u')) :
    ∃ kind, (kind = .unknownId ∨ kind = .exception) ∧
      ((Dispatcher.after responder version changes).respond q' u).1
        = some (q'.replyTo responder kind) := by
  obtain ⟨-, -, version', -, command, -⟩ := asked.header
  have known := (Dispatcher.after responder version changes).decision q' u
  generalize (Dispatcher.after responder version changes).respond q' u = step at known ⊢
  cases known with
  | outdated _ =>
      rw [Dispatcher.responder_after]
      exact ⟨.exception, .inr rfl, reply_of_asked asked _⟩
  | unknown _ _ =>
      rw [Dispatcher.responder_after]
      exact ⟨.unknownId, .inl rfl, reply_of_asked asked _⟩
  | answered served h' found answer' u'' ran' =>
      -- none of the three reasons to fail is left
      rw [Dispatcher.handler?_after, command] at found
      rw [Dispatcher.version_after, version'] at served
      rw [Dispatcher.responder_after] at ran'
      rcases fails with differs | bare | ⟨h, f, u', stands, ran⟩
      · exact absurd served.symm differs
      · exact absurd found (bare h')
      · rw [Dispatcher.standing_unique found stands, ran] at ran'
        exact nomatch ran'
  | failed _ h' _ f u'' _ =>
      rw [Dispatcher.responder_after]
      exact ⟨.exception, .inr rfl, reply_of_asked asked _⟩

end Decisions

/-- What a handler added can be written without gaps, if it can be written at all. -/
theorem writable_of_additions {answer prepared : Message} {additions : List Addition}
    {wire : Gather} (genuine : ∀ a ∈ additions, a.isGenuine) (fresh : prepared.content = [])
    (made : prepared.build (additions.map .add) = answer)
    (encoded : encode scheme answer = .ok wire) : answer.Writable := by
  subst made
  have grown := @Message.grown_build additions prepared
  refine writable_of_encode (grown.wellFormed (fresh ▸ Content.wellFormed_nil)) ?_ encoded
  intro blank
  rcases grown.sections _ blank with old | ⟨a, ha, adds⟩
  · rw [fresh] at old
    exact absurd old List.not_mem_nil
  · exact Addition.ne_announced_empty (genuine a ha) adds rfl

/-- **A request ends as the dispatcher of its recipient decides**: with the answer of the standing
handler, or with a failure of the peer (`Correlates`), after any history of the dispatcher and
between any sockets. -/
theorem correlates {q q' : Message} (asked : Asked scheme q q') (responder : PeerAddress)
    (version : UInt32) (changes : List (HandlerChange U)) (u : U) {c : Correlator}
    (waits : c.request = q) (pending : c.outcome = .pending)
    (origin destination : SocketAddress) (udp : Bool) :
    Correlates scheme q q' responder version changes u c origin destination udp := by
  subst waits
  obtain ⟨asks, -⟩ := isRequest_of_mem asked.kind
  -- the answer of a handler first, and then what is sent if there is none
  constructor
  · intro h additions u' served stands genuine ran relay
    refine ⟨_, respond_of_answer asked served stands ran, rfl, fun wire encoded => ?_⟩
    have writable := writable_of_additions genuine rfl rfl encoded
    have grown := @Message.grown_build additions (q'.replyTo responder .ok)
    have enveloped := (enveloped_replyTo asked responder .ok).grown grown
    constructor
    · intro r read
      constructor
      · intro short
        rw [eq_arrived_of_decode writable short encoded read]
        exact conveyed_arrived origin destination udp _
      · intro e brought
        have arrived := enveloped.arrives encoded read
        exact ⟨_, answered_of_enveloped pending asks arrived relay brought⟩
    · intro sizes short accepted
      exact ⟨_, decode_toBytes sizes writable short encoded accepted origin destination udp⟩
  · intro fails
    obtain ⟨kind, failure, responds⟩ := respond_of_failure asked fails
    have enveloped := enveloped_replyTo asked responder kind
    have fits : (q'.replyTo responder kind).version ≤ maxVersion := by
      rw [enveloped.version]
      exact asked.header.1
    obtain ⟨wire, encoded, read⟩ := @decode_of_empty scheme _ fits rfl origin destination udp
    have arrived := enveloped.arrives encoded read
    refine ⟨_, wire, _, responds, encoded, read, fun e brought => ?_⟩
    exact failed_of_kind pending (arrived.kind ▸ failure) arrived.streaming brought

/-- A peer that doubles numbers. -/
def doubler : PeerAddress := { PeerAddress.unknown with id := .ofBytes (List.replicate 20 9) }

/-- Its handler, for the one number it is asked about. -/
def doubling : CommandHandler Unit := fun _ prepared u =>
  (.ok (prepared.build [.add (.plain (.integer 10))]), u)

/-- A handler that fails. -/
def failing : CommandHandler Unit := fun _ _ u => (.error (.state (.reported "no")), u)

/-- What happened to the handlers so far. -/
def someChanges : List (HandlerChange Unit) :=
  [.register 3 failing, .register 3 doubling, .register 4 failing, .unregister 4]

/-- A request to double a number. -/
def someRequest : Message where
  id := 7
  version := 1
  command := 3
  sender := relayedPeer
  content := [.integer 5]

/-- The request as it arrives. -/
def arrivedRequest : Message :=
  arrived relayedPeer.udpSocket doubler.udpSocket true someRequest

/-- The answer to it. -/
def someAnswer : Message :=
  (arrivedRequest.replyTo doubler .ok).build [.add (.plain (.integer 10))]

/-- The request waits with two listeners. -/
def waiting : Correlator := .ofRequest someRequest [1, 2]

theorem asked_someRequest : Asked Ed25519.scheme someRequest arrivedRequest := by
  have wellFormed : someRequest.content.WellFormed :=
    Content.wellFormed_nil.of_append (s := .integer 5) rfl
  have writable : someRequest.Writable := ⟨wellFormed, by decide⟩
  have short : Short someRequest.content := ⟨by decide, fun kind => by cases kind <;> decide⟩
  have made : (encode Ed25519.scheme someRequest).isOk = true := by decide +kernel
  cases encoded : encode Ed25519.scheme someRequest with
  | error f => rw [encoded] at made; exact nomatch made
  | ok packet =>
      refine ⟨by decide, packet, relayedPeer.udpSocket, doubler.udpSocket, true, encoded, ?_⟩
      exact decode_toBytes Ed25519.hasSizes writable short encoded nofun _ _ _

theorem correlates_someRequest :
    (∃ answer wire r reply,
      ((Dispatcher.after doubler 1 someChanges).respond arrivedRequest ()).1 = some answer ∧
      encode Ed25519.scheme answer = .ok wire ∧
      decode Ed25519.scheme wire.toBytes doubler.udpSocket relayedPeer.udpSocket true = .ok r ∧
      Answered waiting doubler r reply (waiting.handle (.arrived (some r))) ∧
      reply.content.integers = [10]) ∧
    ∃ answer wire r a,
      ((Dispatcher.after doubler 2 someChanges).respond arrivedRequest ()).1 = some answer ∧
      encode Ed25519.scheme answer = .ok wire ∧
      decode Ed25519.scheme wire.toBytes doubler.udpSocket relayedPeer.udpSocket true = .ok r ∧
      Blamed waiting a (waiting.handle (.arrived (some r))) := by
  have exchange := fun version => correlates asked_someRequest doubler version someChanges ()
    (c := waiting) rfl rfl doubler.udpSocket relayedPeer.udpSocket true
  constructor
  · have stands : Standing someChanges 3 doubling :=
      ⟨[.register 3 failing], [.register 4 failing, .unregister 4], rfl, by decide⟩
    have content : someAnswer.content = [.integer 10] := rfl
    have short : ∀ s ∈ someAnswer.content, s.Short := by
      intro s hs
      rw [content] at hs
      obtain rfl := List.mem_singleton.mp hs
      exact trivial
    have short' : Short someAnswer.content :=
      ⟨by decide, fun kind => by cases kind <;> decide⟩
    have made : (encode Ed25519.scheme someAnswer).isOk = true := by decide +kernel
    obtain ⟨_, responds, rfl, ways⟩ := (exchange 1).answered doubling [.plain (.integer 10)] ()
      rfl stands (by decide) rfl (.inl rfl)
    cases encoded : encode Ed25519.scheme someAnswer with
    | error f => rw [encoded] at made; exact nomatch made
    | ok wire =>
        obtain ⟨reads, arrives⟩ := ways wire encoded
        obtain ⟨r, read⟩ := arrives Ed25519.hasSizes short' nofun
        obtain ⟨conveyed, ends⟩ := reads r read
        obtain ⟨reply, answered⟩ := ends (.arrived (some r)) rfl
        refine ⟨_, wire, r, reply, responds, encoded, read, answered, ?_⟩
        rw [answered.content, (conveyed short).integers]
        rfl
  · obtain ⟨answer, wire, r, responds, encoded, read, ends⟩ :=
      (exchange 2).failed (.inl (by decide))
    obtain ⟨a, failed⟩ := ends (.arrived (some r)) rfl
    exact ⟨answer, wire, r, a, responds, encoded, read, failed⟩

end Exchange

end PeerMessaging
