import PeerMessaging.Proofs.Channel.Chain
import PeerMessaging.Proofs.Request.Liveness
import PeerMessaging.Proofs.Request.Replies
import PeerMessaging.Proofs.Wire.Refusals

/-!
# A channel that carries a request

Such a channel reads for one request. Packets that are no messages, and requests of others, do
nothing to it; every reply is taken in by the correlator of the request, in the order in which they
were read. So after any packets the request stands as if the correlator had been given the replies
alone, and the listeners heard what they had heard then. Nothing goes out, and the channel is to be
closed once a reply was told to complete a request that did not ask to keep the channel.

A message that has no packet, or none that fits, does not go out. The request learns of it and is
given up, and since the failure arose on this side no listener is told that the peer failed.
-/

namespace PeerMessaging

variable {U : Type} {services : Services U}

namespace Parcel

/-- The messages among some packets, in order. -/
def messages (services : Services U) (parcels : List Parcel) : List Message :=
  parcels.filterMap fun x => (x.decode services).toOption

/-- The messages among some packets that are requests, in order. -/
def requests (services : Services U) (parcels : List Parcel) : List Message :=
  (messages services parcels).filter fun m => m.isRequest

/-- The messages among some packets that are no requests, in order. -/
def replies (services : Services U) (parcels : List Parcel) : List Message :=
  (messages services parcels).filter fun m => !m.isRequest

/-- The messages of two runs of packets are those of the first and those of the second. -/
theorem messages_append (front back : List Parcel) :
    messages services (front ++ back) = messages services front ++ messages services back :=
  List.filterMap_append

theorem requests_append (front back : List Parcel) :
    requests services (front ++ back) = requests services front ++ requests services back := by
  rw [requests, messages_append, List.filter_append]
  rfl

/-- The replies among two runs of packets are those of the first and those of the second. -/
theorem replies_append (front back : List Parcel) :
    replies services (front ++ back) = replies services front ++ replies services back := by
  rw [replies, messages_append, List.filter_append]
  rfl

section Split

variable {x : Parcel} {m : Message} {f : Failure}

/-- A packet that is no message is neither a request nor a reply. -/
theorem split_of_garbage (rejected : x.decode services = .error f) :
    requests services [x] = [] ∧ replies services [x] = [] := by
  simp [requests, replies, messages, rejected, Except.toOption]

/-- A packet with a request brings this request and no reply. -/
theorem split_of_request (decoded : x.decode services = .ok m) (asks : m.isRequest = true) :
    requests services [x] = [m] ∧ replies services [x] = [] := by
  simp [requests, replies, messages, decoded, asks, Except.toOption]

/-- A packet with a reply brings this reply and no request. -/
theorem split_of_reply (decoded : x.decode services = .ok m) (answers : m.isRequest = false) :
    requests services [x] = [] ∧ replies services [x] = [m] := by
  simp [requests, replies, messages, decoded, answers, Except.toOption]

end Split

end Parcel

namespace Channel

open StandardHandler Surroundings

/-- The correlator of a client is behind its encoder. -/
theorem Lives.chained_client {n : Nat} {idleWindow : Option Nat} {p : Channel U}
    (lives : Lives services (client n idleWindow) p) : Chained (.request n) p.entries :=
  chained_of_follows rfl lives.follows.1

section Reading

variable {n : Nat} {p : Channel U} {m : Message} {x : Parcel}

/-- A request that is read comes through as it is. -/
theorem readOver_foreign (chained : Chained (.request n) p.entries)
    (decoded : x.decode services = .ok m)
    (asks : m.isRequest = true) :
    p.readOver (hooks services) (p.placesFrom 0) x.item =
      { p.seen with
        world := p.world.count Traffic.messageReceived
        unhandled := p.unhandled ++ [.message m] } := by
  refine readOver_through chained decoded fun c w => ?_
  show StandardHandler.read services (.message m) c (.request n) w = _
  rw [StandardHandler.read, if_pos asks]

/-- A reply that is read is delivered, and the channel is closed if the delivery says so. -/
theorem readOver_reply (chained : Chained (.request n) p.entries)
    (decoded : x.decode services = .ok m)
    (replies : m.isRequest = false) :
    p.readOver (hooks services) (p.placesFrom 0) x.item =
      { p.seen with
        world := ((p.world.count Traffic.messageReceived).deliver services n m).2
        closeRequested := p.closeRequested ||
          ((p.world.count Traffic.messageReceived).deliver services n m).1 } := by
  have keeps : ∀ c : Context, c.channel = p.channel →
      (hooks services).take (.message m) c (.request n) (p.world.count Traffic.messageReceived) =
        ⟨.request n, ((p.world.count Traffic.messageReceived).deliver services n m).2,
          if ((p.world.count Traffic.messageReceived).deliver services n m).1 then [.close]
            else [], .ok none⟩ := by
    intro c _
    show StandardHandler.read services (.message m) c (.request n) _ = _
    rw [StandardHandler.read, if_neg (Bool.eq_false_iff.mp replies)]
  obtain ⟨place, id, walked⟩ := readOver_kept chained decoded keeps
  rw [walked]
  cases ((p.world.count Traffic.messageReceived).deliver services n m).1 with
  | true =>
      rw [Bool.or_true]
      rfl
  | false =>
      rw [Bool.or_false]
      rfl

end Reading

/-! ## Any packets -/

/-- What some packets do to a channel that carries a request. -/
structure Heeds (services : Services U) (n : Nat) (start : U) (c : Correlator)
    (parcels : List Parcel) (p q : Channel U) : Prop where
  idle : q.queue = []
  outbound : q.outbound = p.outbound
  /-- The requests among the packets are left over. -/
  unhandled : q.unhandled = p.unhandled ++ (Parcel.requests services parcels).map Item.message
  /-- The request stands, and the listeners heard, as if the correlator had been given the replies
  alone. -/
  holds : Holds services n start q.world
    (Correlator.receiveAll (Parcel.replies services parcels) c).2
  /-- The channel is to be closed once a reply was told to complete a request that did not ask to
  keep it. -/
  close : q.closeRequested = true ↔ p.closeRequested = true ∨
    c.request.keepAlive = false ∧
      .completed ∈ (Correlator.receiveAll (Parcel.replies services parcels) c).1

section Heeding

variable {n : Nat} {idleWindow : Option Nat} {start : U} {p q r : Channel U} {c : Correlator}

/-- Packets without a reply leave the request alone. -/
theorem Heeds.of_silence {parcels : List Parcel} (silence : Parcel.replies services parcels = [])
    (idle : q.queue = []) (outbound : q.outbound = p.outbound)
    (unhandled : q.unhandled =
      p.unhandled ++ (Parcel.requests services parcels).map Item.message)
    (holds : Holds services n start q.world c) (close : q.closeRequested = p.closeRequested) :
    Heeds services n start c parcels p q := by
  refine ⟨idle, outbound, unhandled, ?_, ?_⟩
  · rw [silence]
    exact holds
  · rw [silence, close]
    refine ⟨.inl, ?_⟩
    rintro (already | ⟨-, completed⟩)
    · exact already
    · exact absurd completed List.not_mem_nil

/-- Packets come one after another. -/
theorem Heeds.append {front back : List Parcel} (first : Heeds services n start c front p q)
    (second : Heeds services n start
      (Correlator.receiveAll (Parcel.replies services front) c).2 back q r) :
    Heeds services n start c (front ++ back) p r := by
  have whole := Correlator.receiveAll_append (Parcel.replies services front)
    (Parcel.replies services back) c
  rw [← Parcel.replies_append] at whole
  constructor
  case idle => exact second.idle
  case outbound => exact second.outbound.trans first.outbound
  case unhandled =>
    rw [second.unhandled, first.unhandled, Parcel.requests_append, List.map_append,
      List.append_assoc]
  case holds =>
    rw [whole]
    exact second.holds
  case close =>
    rw [second.close, first.close, whole, List.mem_append,
      (Correlator.akin_receiveAll c).request, or_assoc, ← and_or_left]

/-- What one packet does. -/
theorem heeds_one (lives : Lives services (client n idleWindow) p)
    (holds : Holds services n start p.world c) (x : Parcel) :
    ∃ q, (∀ bound, p.read (hooks services) bound x.item = some q) ∧
      Heeds services n start c [x] p q := by
  have chained := lives.chained_client
  have idle := lives.follows.2
  cases decoded : x.decode services with
  | error f =>
      obtain ⟨requests, replies⟩ := Parcel.split_of_garbage decoded
      refine ⟨_, read_of_quiet (readOver_rejected chained decoded) idle, ?_⟩
      refine .of_silence replies idle rfl ?_ (holds.count _) rfl
      rw [requests, List.map_nil, List.append_nil]
      rfl
  | ok m =>
      cases asks : m.isRequest with
      | true =>
          obtain ⟨requests, replies⟩ := Parcel.split_of_request decoded asks
          refine ⟨_, read_of_quiet (readOver_foreign chained decoded asks) idle, ?_⟩
          refine .of_silence replies idle rfl ?_ (holds.count _) rfl
          rw [requests, List.map_singleton]
      | false =>
          obtain ⟨requests, replies⟩ := Parcel.split_of_reply decoded asks
          -- the packet is counted before the correlator is asked
          obtain ⟨close, holds'⟩ := (holds.count Traffic.messageReceived).deliver m
          refine ⟨_, read_of_quiet (readOver_reply chained decoded asks) idle, ?_⟩
          constructor
          case idle => exact idle
          case outbound => rfl
          case unhandled =>
            rw [requests, List.map_nil, List.append_nil]
            rfl
          case holds =>
            rw [replies]
            exact holds'
          case close =>
            show (p.closeRequested || _) = true ↔ _
            rw [close, replies, Bool.or_eq_true, Bool.and_eq_true, Bool.not_eq_true', beq_iff_eq,
              and_comm, eq_comm (b := Disposition.completed)]
            exact or_congr_right (and_congr_right fun _ => List.mem_singleton.symm)

/-- What some packets do, read one after another. -/
theorem exists_heeds {parcels : List Parcel} :
    ∀ {p : Channel U} {c : Correlator}, Lives services (client n idleWindow) p →
      Holds services n start p.world c →
      ∃ q, (∀ bound, Operation.applyAll (hooks services) bound
          (parcels.map fun x => .read x.item) p = some q) ∧
        Heeds services n start c parcels p q := by
  induction parcels with
  | nil =>
      intro p c lives holds
      refine ⟨p, fun _ => rfl, .of_silence rfl lives.follows.2 rfl ?_ holds rfl⟩
      exact (List.append_nil _).symm
  | cons x parcels ih =>
      intro p c lives holds
      obtain ⟨q, read, heeds⟩ := heeds_one lives holds x
      have applied : ∀ bound, (Operation.read x.item).apply (hooks services) bound p =
          some (.ok (), q) := by
        intro bound
        rw [Operation.apply, read bound]
        rfl
      obtain ⟨r, reads, heeds'⟩ := ih (.operation lives rfl (applied 0)) heeds.holds
      refine ⟨r, fun bound => ?_, heeds.append heeds'⟩
      rw [List.map_cons, Operation.applyAll, applied bound]
      exact reads bound

end Heeding

/-! ## A message on its way out -/

/-- What a message that cannot go does to a channel that carries a request. The failure arose on
this side, so the request is given up and no listener hears of it. -/
structure GivenUp (n : Nat) (c : Correlator) (f : Failure) (p q : Channel U) : Prop where
  here : f.isLocal = true
  idle : q.queue = []
  outbound : q.outbound = p.outbound
  unhandled : q.unhandled = p.unhandled
  close : q.closeRequested = p.closeRequested
  request : q.world.requests[n]? = some (c.abort (.user f.text)).completion
  fails : c.outcome = .pending → (c.abort (.user f.text)).outcome = .failed (.user f.text)
  user : q.world.user = p.world.user

/-- Whatever keeps the channel from writing a message arose on this side. -/
theorem onlyLocal_encode (local_ : services.scheme.FailsLocally) (m : Message) (udp : Bool) :
    OnlyLocal (encode services m udp) := by
  rw [encode]
  split
  · exact FailsAs.error (Packet.onlyLocal_encode local_ m _ ‹_›)
  · split
    · exact FailsAs.error rfl
    · exact FailsAs.ok _

section Writing

variable {n : Nat} {idleWindow : Option Nat} {p : Channel U} {c : Correlator} {m : Message}
  {f : Failure}

/-- A message that cannot go is a failure for the request. -/
theorem write_refused (lives : Lives services (client n idleWindow) p)
    (refused : encode services m p.channel.udp = .error f) (bound : Nat) :
    p.write (hooks services) bound (.message m) = some (.error f,
      { p.used with world := p.world.correlate services n fun c => c.channelFailed f }) := by
  obtain ⟨place, last, walked⟩ := writeOver_refused lives.chained_client refused
  have learned : p.used.run ((hooks services).caught f) () place = _ :=
    last.run_quiet () (w := p.world.correlate services n fun c => c.channelFailed f) fun _ _ => rfl
  have written : p.writeNow (hooks services) (.message m) = (.error f,
      { p.used with world := p.world.correlate services n fun c => c.channelFailed f }) := by
    rw [Pipeline.writeNow, walked, learned]
  exact write_of_quiet written lives.follows.2 bound

/-- A message that can go is written without a failure. -/
theorem write_sendable (lives : Lives services (client n idleWindow) p) {buffer : Gather}
    (encoded : encode services m p.channel.udp = .ok buffer) (bound : Nat) :
    ∃ q, p.write (hooks services) bound (.message m) = some (.ok (), q) := by
  exact ⟨_, write_of_quiet (writeNow_encoded lives.chained_client encoded) lives.follows.2 bound⟩

/-- A message that cannot be encoded gives the request up: it aborts by the user, and no listener is
told. -/
theorem givenUp (local_ : services.scheme.FailsLocally)
    (lives : Lives services (client n idleWindow) p) (found : p.world.correlator? n = some c)
    (refused : encode services m p.channel.udp = .error f) :
    GivenUp n c f p
      { p.used with world := p.world.correlate services n fun c => c.channelFailed f } := by
  have here := onlyLocal_encode local_ m p.channel.udp f refused
  obtain ⟨known, -, -, quiet⟩ := correlator?_eq_some found
  have inside : n < p.world.requests.length := (List.getElem?_eq_some_iff.mp known).1
  have changed : (p.world.correlate services n fun c => c.channelFailed f) =
      p.world.put services n (c.abort (.user f.text)) := by
    rw [correlate, found, ← Correlator.toAbort_of_isLocal here]
    rfl
  rw [changed]
  constructor
  case here => exact here
  case idle => exact lives.follows.2
  case outbound => rfl
  case unhandled => rfl
  case close => rfl
  case request => exact List.getElem?_set_self inside
  case fails =>
    intro pending
    exact (Correlator.abort_of_pending pending _).1
  case user =>
    show tell services (c.abort (.user f.text)).notices p.world.user = _
    rw [Correlator.notices_abort_user, quiet]
    rfl

end Writing

/-- **A channel that carries a request does what its correlator does.** After any parcels the
channel of a request is as `Heeds` tells: the replies among them were received in order, and nothing
else was done. Writing a message fails exactly if no buffer is `Sendable` for it, and the request is
`GivenUp` then, as long as the scheme fails locally. -/
theorem heeds {n : Nat} {idleWindow : Option Nat} {p : Channel U} {c : Correlator}
    (lives : Lives services (client n idleWindow) p) (found : p.world.correlator? n = some c) :
    (∀ parcels, ∃ q, (∀ bound, Operation.applyAll (hooks services) bound
        (parcels.map fun x => .read (Parcel.item x)) p = some q) ∧
      Heeds services n p.world.user c parcels p q) ∧
    (∀ m bound, (∃ f q, p.write (hooks services) bound (.message m) = some (.error f, q)) ↔
      ∀ buffer, ¬ Sendable services p.channel.udp m buffer) ∧
    (services.scheme.FailsLocally → ∀ m bound f q,
      p.write (hooks services) bound (.message m) = some (.error f, q) → GivenUp n c f p q) := by
  refine ⟨fun parcels => exists_heeds lives (holds_of_found found), ?_, ?_⟩
  -- whether a write fails is known before it is written: the encoder gives a buffer or it does not
  · intro m bound
    cases encoded : encode services m p.channel.udp with
    | ok buffer =>
        obtain ⟨q', sent⟩ := write_sendable lives encoded bound
        constructor
        · rintro ⟨f, q, written⟩
          exact nomatch sent.symm.trans written
        · intro never
          exact absurd (encode_eq_ok_iff.mp encoded) (never buffer)
    | error f =>
        constructor
        · intro _ buffer sendable
          exact nomatch encoded.symm.trans (encode_eq_ok_iff.mpr sendable)
        · intro _
          exact ⟨f, _, write_refused lives encoded bound⟩
  · intro local_ m bound f q written
    cases encoded : encode services m p.channel.udp with
    | ok buffer =>
        obtain ⟨q', sent⟩ := write_sendable lives encoded bound
        exact nomatch sent.symm.trans written
    | error f' =>
        cases (write_refused lives encoded bound).symm.trans written
        exact givenUp local_ lives found encoded

/-- A channel of a request that nothing was read for yet. -/
def freshChannel : Channel (List Notice) where
  channel := { here := PeerAddress.unknown.udpSocket, udp := true }
  world := lone
  entries := [⟨0, "decoder", .decoder⟩, ⟨1, "encoder", .encoder⟩, ⟨2, "request", .request 0⟩]
  nextId := 3

/-- The correlator of the request. -/
def loneCorrelator : Correlator := .ofRequest {} [1, 2]

/-- A packet that is no message, a request of somebody else, and a reply that fits. -/
def someParcels : List Parcel :=
  [[1, 2, 3], [0, 0, 0, 7, 0, 0, 0, 0, 5] ++ List.replicate 49 0,
    [0, 0, 0, 0, 0, 0, 0, 0x60, 0] ++ List.replicate 49 0].map
      fun bytes => ⟨bytes, PeerAddress.unknown.udpSocket, PeerAddress.unknown.udpSocket, true⟩

/-- The packets leave one request over and complete the other, and its two listeners hear of the
peer. A message of a version that is too large is not written, and they hear nothing of it. -/
theorem heeds_someParcels :
    (∃ q, Operation.applyAll (hooks recording) 0 (someParcels.map fun x => .read x.item)
          freshChannel = some q ∧
        Heeds recording 0 [] loneCorrelator someParcels freshChannel q ∧
        q.unhandled.length = 1 ∧ q.world.user.length = 2 ∧ q.closeRequested = true) ∧
      ∃ f q, freshChannel.write (hooks recording) 0 (.message { version := 0x1000000 }) =
          some (.error f, q) ∧
        GivenUp 0 loneCorrelator f freshChannel q ∧ q.world.user = [] := by
  have built : (client 0 none).build (hooks recording) 0 freshChannel.channel freshChannel.world {}
      = some (.ok (), freshChannel) := rfl
  obtain ⟨reads, writes, givesUp⟩ := heeds (c := loneCorrelator) (.built built) rfl
  constructor
  · obtain ⟨q, read, heeds⟩ := reads someParcels
    have known : (Operation.applyAll (hooks recording) 0 (someParcels.map fun x => .read x.item)
        freshChannel).map (fun q =>
          (q.unhandled.length, q.world.user.length, q.closeRequested)) = some (1, 2, true) := by
      decide +kernel
    rw [read 0] at known
    obtain ⟨left, rest⟩ := Prod.mk.inj (Option.some.inj known)
    obtain ⟨heard, close⟩ := Prod.mk.inj rest
    exact ⟨q, read 0, heeds, left, heard, close⟩
  · have never : ∀ buffer, ¬ Sendable recording true { version := 0x1000000 } buffer := by
      rintro buffer ⟨encoded, -⟩
      have refused : (Packet.encode recording.scheme { version := 0x1000000 }).isOk = false := by
        decide +kernel
      rw [encoded] at refused
      exact nomatch refused
    obtain ⟨f, q, written⟩ := (writes { version := 0x1000000 } 0).mpr never
    have givenUp := givesUp Ed25519.hasKeys.failsLocally _ 0 f q written
    exact ⟨f, q, written, givenUp, givenUp.user⟩

end Channel

end PeerMessaging
