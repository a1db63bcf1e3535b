import PeerMessaging.Proofs.Channel.Chain
import PeerMessaging.Proofs.Wire.Canonical

/-!
# A channel that serves requests

A packet that comes to such a channel is no message, a message that asks for nothing, or a request.
The first is dropped, the second is left over, and only the third gets to the dispatcher, once. The
reply is put off until the packet was read; then it goes its way through the encoder, and goes out
if it has a packet and fits. If it does not, this is told to the dispatcher, which closes a stream.
A stream is closed as well if its request did not ask to keep it.
-/

namespace PeerMessaging

variable {U : Type} {services : Services U}

namespace Channel

open StandardHandler

/-- What goes out for what a dispatcher decided, and whether there was a reply that could not go. -/
inductive Dispatched (services : Services U) (udp : Bool) :
    Option Message → List Outbound → Bool → Prop
  | silent : Dispatched services udp none [] false
  | sent {reply : Message} {buffer : Gather} (sendable : Sendable services udp reply buffer) :
      Dispatched services udp (some reply) [⟨buffer, reply.recipientSocket⟩] false
  | unsendable {reply : Message} (never : ∀ buffer, ¬ Sendable services udp reply buffer) :
      Dispatched services udp (some reply) [] true

/-- The surroundings after some buffers were sent: they are counted, and who listens to the channel
hears of each. -/
def afterSending (p : Channel U) (sent : List Outbound) (w : Surroundings U) : Surroundings U :=
  sent.foldl (fun w o =>
    let w := w.count Traffic.messageSent
    match p.onEncoded with
    | some listen => listen o.buffer w
    | none => w) w

/-- What a request does to a channel that serves requests. The dispatcher is asked once, at most one
buffer goes out, and the channel is to be closed if this was so before, or if it is a stream whose
request did not ask to keep it or whose reply could not go. -/
structure Served (services : Services U) (d : Dispatcher U) (request : Message) (p q : Channel U)
    (sent : List Outbound) (failed : Bool) : Prop where
  dispatched :
    Dispatched services p.channel.udp (d.respond request p.world.user).1 sent failed
  outbound : q.outbound = p.outbound ++ sent
  world : q.world = p.afterSending sent
    { p.world.count Traffic.messageReceived with user := (d.respond request p.world.user).2 }
  unhandled : q.unhandled = p.unhandled
  close : q.closeRequested =
    (p.closeRequested || !p.channel.udp && (!request.keepAlive || failed))

/-- What a packet does to a channel that serves requests: it is dropped and counted, left over as
the message that it is, or served. A reply that is prepared for a request goes back to where this
came from. -/
inductive Serves (services : Services U) (d : Dispatcher U) (x : Parcel) (p q : Channel U) : Prop
  | garbage (f : Failure) (rejected : x.decode services = .error f)
      (outbound : q.outbound = p.outbound) (unhandled : q.unhandled = p.unhandled)
      (close : q.closeRequested = p.closeRequested)
      (world : q.world = p.world.count Traffic.decodeError)
  | stray (m : Message) (decoded : x.decode services = .ok m)
      (asksNothing : m.isRequest = false) (outbound : q.outbound = p.outbound)
      (unhandled : q.unhandled = p.unhandled ++ [.message m])
      (close : q.closeRequested = p.closeRequested)
      (world : q.world = p.world.count Traffic.messageReceived)
  | request (m : Message) (decoded : x.decode services = .ok m)
      (asks : m.isRequest = true) (sent : List Outbound) (failed : Bool)
      (served : Served services d m p q sent failed)
      (back : ∀ responder kind, (m.replyTo responder kind).recipientSocket = some x.sender)

/-- A single write that was put off and puts nothing off itself. -/
theorem settle_write {p : Channel U} {item : Item} (queue : p.queue = [.write item])
    (quiet : ({ p with queue := [] }.writeNow (hooks services) item).2.queue = []) {bound : Nat}
    (enough : 1 ≤ bound) :
    p.settle (hooks services) bound =
      some ({ p with queue := [] }.writeNow (hooks services) item).2 := by
  cases bound with
  | zero => exact absurd enough (Nat.not_succ_le_zero 0)
  | succ bound =>
      rw [Pipeline.settle, queue]
      exact Pipeline.settle_idle quiet bound

/-- A message that was read knows the socket from which it came. -/
theorem senderSocket_of_decode {x : Parcel} {m : Message} (decoded : x.decode services = .ok m) :
    m.senderSocket = some x.sender := by
  obtain ⟨m', rest, read, made⟩ := Packet.decode_eq_ok_iff.mp decoded
  obtain ⟨good, -⟩ := Packet.spelled_unsigned services.scheme x.sender x.recipient x.udp read
  have known : m'.senderSocket = some x.sender := congrArg Message.senderSocket good.fixed.symm
  rcases made with ⟨-, rfl, -⟩ | ⟨-, rfl, -⟩
  · exact known
  · exact known

/-! ## The reply on its way out -/

section Reply

variable {d : Dispatcher U} {p : Channel U} {reply : Message}

/-- A reply that can go is sent to where it is to go. -/
theorem writeNow_reply {buffer : Gather} (chained : Chained (.dispatcher d) p.entries)
    (sendable : Sendable services p.channel.udp reply buffer) :
    (p.writeNow (hooks services) (.message reply)).2 =
      { p.used with world := p.world.count Traffic.messageSent }.emit buffer
        reply.recipientSocket := by
  rw [writeNow_encoded chained (encode_eq_ok_iff.mpr sendable)]

/-- A reply that cannot go closes a stream. -/
theorem writeNow_unsendable (chained : Chained (.dispatcher d) p.entries)
    (never : ∀ buffer, ¬ Sendable services p.channel.udp reply buffer) :
    (p.writeNow (hooks services) (.message reply)).2 =
      { p.used with closeRequested := p.closeRequested || !p.channel.udp } := by
  cases refused : encode services reply p.channel.udp with
  | ok buffer => exact absurd (encode_eq_ok_iff.mp refused) (never buffer)
  | error f =>
      obtain ⟨place, last, walked⟩ := writeOver_refused chained refused
      have hears : ∀ c : Context, c.channel = p.channel →
          (hooks services).caught f c (.dispatcher d) p.world =
            ⟨.dispatcher d, p.world, if p.channel.udp then [] else [.close], ()⟩ := by
        intro c same
        show Reaction.mk _ _ _ _ = _
        rw [same]
      obtain ⟨id, learned⟩ := last.run_asking () hears
      rw [Pipeline.writeNow, walked, learned]
      cases p.channel.udp with
      | true =>
          rw [Bool.not_true, Bool.or_false]
          rfl
      | false =>
          rw [Bool.not_false, Bool.or_true]
          rfl

/-- Who listens to the channel hears of what is sent. -/
theorem world_emit (p : Channel U) (w : Surroundings U) (buffer : Gather)
    (remote : Option SocketAddress) :
    ({ p with world := w.count Traffic.messageSent }.emit buffer remote).world =
      p.afterSending [⟨buffer, remote⟩] w := by
  rw [Pipeline.emit, afterSending, List.foldl_cons, List.foldl_nil]
  dsimp only
  cases p.onEncoded <;> rfl

/-- Whatever a dispatcher decided, either it goes out or it does not. -/
theorem exists_dispatched (services : Services U) (udp : Bool) (reply : Option Message) :
    ∃ sent failed, Dispatched services udp reply sent failed := by
  cases reply with
  | none => exact ⟨_, _, .silent⟩
  | some reply =>
      by_cases some : ∃ buffer, Sendable services udp reply buffer
      · obtain ⟨buffer, sendable⟩ := some
        exact ⟨_, _, .sent sendable⟩
      · exact ⟨_, _, .unsendable (not_exists.mp some)⟩

/-- What was decided is done once the packet was read, and nothing else waits. -/
theorem settle_dispatched {reply : Option Message} {sent : List Outbound} {failed : Bool}
    (chained : Chained (.dispatcher d) p.entries)
    (dispatched : Dispatched services p.channel.udp reply sent failed)
    (queue : p.queue = (reply.map fun r => Deferred.write (.message r)).toList) :
    ∃ q, (∀ bound, 1 ≤ bound → p.settle (hooks services) bound = some q) ∧ q.queue = [] ∧
      q.outbound = p.outbound ++ sent ∧ q.unhandled = p.unhandled ∧
      q.closeRequested = (p.closeRequested || !p.channel.udp && failed) ∧
      q.world = p.afterSending sent p.world := by
  cases dispatched with
  | silent =>
      refine ⟨p, fun bound _ => Pipeline.settle_idle queue bound, queue, ?_, rfl, ?_, rfl⟩
      · rw [List.append_nil]
      · rw [Bool.and_false, Bool.or_false]
  | sent sendable =>
      have written := writeNow_reply (p := { p with queue := [] }) chained sendable
      refine ⟨_, fun bound enough => settle_write queue ?_ enough, ?_⟩
      · rw [written]
        rfl
      · rw [written, Bool.and_false, Bool.or_false]
        exact ⟨rfl, rfl, rfl, rfl, world_emit p.used p.world _ _⟩
  | unsendable never =>
      have written := writeNow_unsendable (p := { p with queue := [] }) chained never
      refine ⟨_, fun bound enough => settle_write queue ?_ enough, ?_⟩
      · rw [written]
        rfl
      · rw [written, Bool.and_true, List.append_nil]
        exact ⟨rfl, rfl, rfl, rfl, rfl⟩

end Reply

/-! ## A request on its way in -/

section Request

variable {d : Dispatcher U} {p : Channel U} {m : Message} {x : Parcel}

/-- A message that asks for nothing comes through as it is. -/
theorem readOver_stray (chained : Chained (.dispatcher d) p.entries)
    (decoded : x.decode services = .ok m)
    (stray : m.isRequest = false) :
    p.readOver (hooks services) (p.placesFrom 0) x.item =
      { p.seen with
        world := p.world.count Traffic.messageReceived
        unhandled := p.unhandled ++ [.message m] } := by
  refine readOver_through chained decoded fun c w => ?_
  show StandardHandler.read services (.message m) c (.dispatcher d) w = _
  rw [StandardHandler.read, if_neg (Bool.eq_false_iff.mp stray)]

/-- A request gets to the dispatcher, and its reply is put off. -/
theorem readOver_request (chained : Chained (.dispatcher d) p.entries)
    (decoded : x.decode services = .ok m)
    (asks : m.isRequest = true) :
    p.readOver (hooks services) (p.placesFrom 0) x.item =
      { p.seen with
        world := { p.world.count Traffic.messageReceived with
          user := (d.respond m p.world.user).2 }
        queue := p.queue ++
          ((d.respond m p.world.user).1.map fun r => Deferred.write (.message r)).toList
        closeRequested := p.closeRequested || !p.channel.udp && !m.keepAlive } := by
  have keeps : ∀ c : Context, c.channel = p.channel →
      (hooks services).take (.message m) c (.dispatcher d)
          (p.world.count Traffic.messageReceived) =
        ⟨.dispatcher d,
          { p.world.count Traffic.messageReceived with user := (d.respond m p.world.user).2 },
          ((d.respond m p.world.user).1.map fun r => Effect.write (.message r)).toList
            ++ (if !p.channel.udp && !m.keepAlive then [.close] else []), .ok none⟩ := by
    intro c same
    show StandardHandler.read services (.message m) c (.dispatcher d) _ = _
    rw [StandardHandler.read, if_pos asks, same]
    rfl
  obtain ⟨place, id, walked⟩ := readOver_kept chained decoded keeps
  rw [walked, List.foldl_append]
  cases (d.respond m p.world.user).1 <;> cases !p.channel.udp && !m.keepAlive <;>
    simp [Pipeline.enqueue, noting]

end Request

/-! ## A packet -/

/-- The dispatcher of a server is behind its encoder. -/
theorem Lives.chained {d : Dispatcher U} {idleWindow : Option Nat} {p : Channel U}
    (lives : Lives services (server d idleWindow) p) : Chained (.dispatcher d) p.entries :=
  chained_of_follows rfl lives.follows.1

/-- **A channel that serves requests answers each packet at most once and to the right place.**
Reading a packet with a bound of at least one empties the queue and leaves the channel as `Serves`
tells: a packet that is no message is dropped, a reply is left over, and a request is answered by
the dispatcher. -/
theorem serves {d : Dispatcher U} {idleWindow : Option Nat} {p : Channel U}
    (lives : Lives services (server d idleWindow) p) (x : Parcel) :
    ∃ q, (∀ bound, 1 ≤ bound → p.read (hooks services) bound x.item = some q) ∧
      q.queue = [] ∧ Serves services d x p q := by
  have chained := lives.chained
  have idle := lives.follows.2
  cases decoded : x.decode services with
  | error f =>
      have walked := readOver_rejected chained decoded
      refine ⟨_, fun bound _ => read_of_quiet walked idle bound, idle, ?_⟩
      exact .garbage f decoded rfl rfl rfl rfl
  | ok m =>
      cases asks : m.isRequest with
      | false =>
          have walked := readOver_stray chained decoded asks
          refine ⟨_, fun bound _ => read_of_quiet walked idle bound, idle, ?_⟩
          exact .stray m decoded asks rfl rfl rfl rfl
      | true =>
          have walked := readOver_request chained decoded asks
          rw [idle, List.nil_append] at walked
          -- what was decided waits until the packet was read, and is then done
          obtain ⟨sent, failed, dispatched⟩ :=
            exists_dispatched services p.channel.udp (d.respond m p.world.user).1
          obtain ⟨q, settled, idle', outbound, unhandled, close, world⟩ := settle_dispatched
            (p := p.readOver (hooks services) (p.placesFrom 0) x.item)
            (by rw [walked]; exact chained.noting _) (by rw [walked]; exact dispatched)
            (by rw [walked])
          refine ⟨q, settled, idle', .request m decoded asks sent failed ?_ fun _ _ => ?_⟩
          · rw [walked] at outbound unhandled close world
            exact {
              dispatched := dispatched
              outbound := outbound
              world := world
              unhandled := unhandled
              close := close.trans ((Bool.or_assoc ..).trans
                (congrArg (p.closeRequested || ·) (Bool.and_or_distrib_left ..).symm)) }
          · exact senderSocket_of_decode decoded

/-- Services around a channel whose handlers count what they are asked. -/
def tallying : Services Nat where
  scheme := Ed25519.scheme
  hear _ asked := asked

/-- A dispatcher that confirms one command. -/
def confirming : Dispatcher Nat where
  responder := .unknown
  version := 0
  handlers := [(5, fun _ prepared asked => (.ok prepared, asked + 1))]

/-- A stream of a server that was not asked anything yet. -/
def freshStream : Channel Nat where
  channel := { here := PeerAddress.unknown.tcpSocket }
  world := { user := 0 }
  entries := [⟨0, "idle", .idle { window := 60 }⟩, ⟨1, "decoder", .decoder⟩,
    ⟨2, "encoder", .encoder⟩, ⟨3, "dispatcher", .dispatcher confirming⟩]
  nextId := 4

/-- A request without content for this command, which does not ask to keep the stream. -/
def plainRequest : Parcel where
  bytes := [0, 0, 0, 7, 0, 0, 0, 0, 5] ++ List.replicate 49 0
  sender := Packet.somewhere
  recipient := PeerAddress.unknown.tcpSocket
  udp := false

/-- The request is confirmed once, to where it came from, and the stream is closed. -/
theorem serves_plainRequest :
    ∃ q, freshStream.read (hooks tallying) 1 plainRequest.item = some q ∧
      Serves tallying confirming plainRequest freshStream q ∧
      q.world.user = 1 ∧ q.outbound.map Outbound.remote = [some Packet.somewhere] ∧
      q.closeRequested = true := by
  have built : (server confirming (some 60)).build (hooks tallying) 0 freshStream.channel
      freshStream.world {} = some (.ok (), freshStream) := rfl
  obtain ⟨q, settled, -, serves⟩ := serves (.built built) plainRequest
  have known : (freshStream.read (hooks tallying) 1 plainRequest.item).map (fun q =>
        (q.world.user, q.outbound.map Outbound.remote, q.closeRequested))
      = some (1, [some Packet.somewhere], true) := by decide +kernel
  rw [settled 1 (Nat.le_refl 1)] at known
  obtain ⟨asked, rest⟩ := Prod.mk.inj (Option.some.inj known)
  obtain ⟨sent, close⟩ := Prod.mk.inj rest
  exact ⟨q, settled 1 (Nat.le_refl 1), serves, asked, sent, close⟩

end Channel

end PeerMessaging
