import PeerMessaging.Channel.Standard
import PeerMessaging.Proofs.Channel.Identity
import PeerMessaging.Proofs.Dispatch.History

/-!
# The chain of a standard channel

A channel is built from a blueprint of standard handlers, and from then on it lives: operations are
applied to it, handlers come to the dispatcher or leave it, and things happen around it. As long as
its arrangement is left alone its handlers are those of the blueprint. Of a standard handler only
an idle watch changes by its own hooks, and what changes is what its detector saw.

So the walks of a channel can be told beforehand. An item passes the watches in front, which take
note of it, and reaches the decoder on its way in, the encoder on its way out, and then the last
handler.
-/

namespace PeerMessaging

variable {U : Type} {services : Services U}

/-- A packet with the sockets between which it moved. -/
structure Parcel where
  bytes : Bytes
  sender : SocketAddress
  recipient : SocketAddress
  udp : Bool
  deriving DecidableEq

namespace Parcel

/-- The packet as a channel reads it. -/
def item (x : Parcel) : Item := .packet x.bytes x.sender x.recipient x.udp

/-- The message of the packet, or why it is none. -/
def decode (services : Services U) (x : Parcel) : Except Failure Message :=
  Packet.decode services.scheme x.bytes x.sender x.recipient x.udp

end Parcel

/-- A pipeline of standard handlers. -/
abbrev Channel (U : Type) := Pipeline (Surroundings U) (StandardHandler U)

/-! ## The handlers of a blueprint -/

namespace StandardHandler

/-- Two states of one handler: they differ at most in what an idle watch saw. -/
inductive Alike : StandardHandler U → StandardHandler U → Prop
  | watch (d d' : IdleDetector) : Alike (.idle d) (.idle d')
  | refl (h : StandardHandler U) : Alike h h

theorem Alike.trans {h h' h'' : StandardHandler U} (first : Alike h h') (second : Alike h' h'') :
    Alike h h'' := by
  cases first with
  | watch d d' =>
      cases second with
      | watch _ d'' => exact .watch d d''
      | refl _ => exact .watch d d'
  | refl _ => exact second

/-- An idle watch stays one. -/
theorem alike_idleSignal (d : IdleDetector) (s : Signal) (c : Context) (w : Surroundings U) :
    Alike (.idle d) (idleSignal d s c w).handler := by
  unfold idleSignal
  split
  · split <;> exact .watch _ _
  · exact .watch _ _
  · exact .watch _ _
  · exact .watch _ _
  · split
    · exact .watch _ _
    · split <;> exact .watch _ _
  · exact .watch _ _

/-- No hook changes anything else of a handler. -/
theorem alike_ask (q : Question) (c : Context) (h : StandardHandler U) (w : Surroundings U) :
    Alike h ((hooks services).ask q c h w).handler := by
  cases q with
  | hear s =>
      show Alike h (signal services s c h w).handler
      unfold signal
      split
      · exact alike_idleSignal ..
      all_goals exact .refl _
  | take item =>
      show Alike h (read services item c h w).handler
      unfold read
      split
      · exact .refl _
      · split <;> exact .refl _
      · split <;> exact .refl _
      · exact .watch _ _
      · exact .refl _
  | turn item =>
      show Alike h (write services item c h w).handler
      unfold write
      split
      · split <;> exact .refl _
      · exact .watch _ _
      · exact .refl _
  | learn f =>
      show Alike h (caught services f c h w).handler
      unfold caught
      split <;> exact .refl _

/-- Hooks leave a standard handler alike, however many of them run. -/
theorem alike_of_reacts {h h' : StandardHandler U}
    (reacts : Relation.ReflTransGen (hooks services).Reacts h h') : Alike h h' := by
  induction reacts with
  | refl => exact .refl h
  | tail _ last ih =>
      obtain ⟨q, c, w, rfl⟩ := last
      exact ih.trans (alike_ask q c _ w)

theorem alike_fresh (h : StandardHandler U) : Alike h (fresh h) := by
  cases h with
  | idle d => exact .watch d _
  | _ => exact .refl _

/-- The handler after some changes of the handlers that a dispatcher knows. -/
def informed (changes : List (HandlerChange U)) : StandardHandler U → StandardHandler U
  | .dispatcher d => .dispatcher (d.changeAll changes)
  | h => h

/-- Changes of the dispatcher keep likeness. -/
theorem Alike.informed {h h' : StandardHandler U} (alike : Alike h h')
    (changes : List (HandlerChange U)) : Alike (h.informed changes) (h'.informed changes) := by
  cases alike with
  | watch d d' => exact .watch d d'
  | refl _ => exact .refl _

end StandardHandler

namespace Channel

open StandardHandler

/-- The handlers of a blueprint with a further state of each. -/
def Follows (prototypes : List (String × StandardHandler U))
    (entries : List (Entry (StandardHandler U))) : Prop :=
  List.Forall₂ (fun prototype e => Alike prototype.2 e.handler) prototypes entries

/-- The blueprint after some changes of the handlers that its dispatcher knows. -/
def informedBlueprint (changes : List (HandlerChange U)) (b : Blueprint (StandardHandler U)) :
    Blueprint (StandardHandler U) where
  prototypes := b.prototypes.map fun prototype => (prototype.1, prototype.2.informed changes)

/-- The channel after some changes of the handlers that its dispatcher knows. -/
def informed (changes : List (HandlerChange U)) (p : Channel U) : Channel U :=
  { p with entries := p.entries.map fun e => { e with handler := e.handler.informed changes } }

/-- How a channel of a blueprint can have come about. It was built, and operations were applied to
it that left its arrangement alone. In between, handlers came to its dispatcher or left it, and
anything may have happened around it: time passed, what was left over or sent was taken, the world
changed. -/
inductive Lives (services : Services U) : Blueprint (StandardHandler U) → Channel U → Prop
  | built {b : Blueprint (StandardHandler U)} {p : Channel U} {bound : Nat} {channel : ChannelInfo}
      {world : Surroundings U} {timers : Timers}
      (built : b.build (hooks services) bound channel world timers = some (.ok (), p)) :
      Lives services b p
  | operation {b : Blueprint (StandardHandler U)} {p q : Channel U}
      {o : Operation (StandardHandler U)} {bound : Nat} {result : Except Failure Unit}
      (lives : Lives services b p) (keeps : o.arranges = false)
      (applied : o.apply (hooks services) bound p = some (result, q)) : Lives services b q
  | informed {b : Blueprint (StandardHandler U)} {p : Channel U} (lives : Lives services b p)
      (changes : List (HandlerChange U)) :
      Lives services (informedBlueprint changes b) (informed changes p)
  | outside {b : Blueprint (StandardHandler U)} {p q : Channel U} (lives : Lives services b p)
      (entries : q.entries = p.entries) (queue : q.queue = p.queue) : Lives services b q

/-- Entries that are kin follow the same prototypes. -/
theorem follows_kin {prototypes : List (String × StandardHandler U)}
    {l m : List (Entry (StandardHandler U))} (follows : Follows prototypes l)
    (kin : List.Forall₂ (Entry.Kin (hooks services)) l m) : Follows prototypes m := by
  induction follows generalizing m with
  | nil =>
      cases kin
      exact .nil
  | cons head _ ih =>
      cases kin with
      | cons head' tail' => exact .cons (head.trans (alike_of_reacts head'.handler)) (ih tail')

/-- The entries made from prototypes follow them. -/
theorem follows_freshFrom (prototypes : List (String × StandardHandler U)) :
    ∀ id, Follows prototypes ((hooks services).freshFrom id prototypes) := by
  induction prototypes with
  | nil => intro id; exact .nil
  | cons prototype rest ih => intro id; exact .cons (alike_fresh _) (ih (id + 1))

/-- The errands of an operation that leaves the arrangement alone bring no handler and take none
away. -/
theorem serve_of_keeps {o : Operation (StandardHandler U)} (keeps : o.arranges = false)
    (p : Channel U) : (o.errands p).foldl Pipeline.Roster.serve p.roster = p.roster := by
  cases o with
  | ringTimer id =>
      rw [Operation.errands]
      split <;> rfl
  | activate => rfl
  | deactivate => rfl
  | read item => rfl
  | raise event => rfl
  | write item => rfl
  | _ => exact Bool.noConfusion keeps

/-- A channel that `Lives` has the handlers of its blueprint, and nothing waits in its queue. -/
theorem Lives.follows {b : Blueprint (StandardHandler U)} {p : Channel U}
    (lives : Lives services b p) : Follows b.prototypes p.entries ∧ p.queue = [] := by
  induction lives with
  | built built =>
      obtain ⟨⟨past, history⟩, -, -, kin⟩ := Pipeline.furnished_of_build built
      exact ⟨follows_kin (follows_freshFrom _ 0) kin, history.idle⟩
  | @operation _ p q o _ _ _ keeps applied ih =>
      obtain ⟨journal, accounts⟩ := Operation.apply_accounts applied
      have kin := accounts.roster
      rw [serve_of_keeps keeps] at kin
      exact ⟨follows_kin ih.1 kin.entries, accounts.queue ih.2⟩
  | @informed b p _ changes ih =>
      refine ⟨?_, ih.2⟩
      rw [Follows, informedBlueprint, Channel.informed, List.forall₂_map_left_iff,
        List.forall₂_map_right_iff]
      exact ih.1.imp fun _ _ alike => alike.informed changes
  | outside _ entries queue ih => exact ⟨entries ▸ ih.1, queue.trans ih.2⟩

/-! ## The shape of the chain -/

/-- Watches in front, then a decoder, an encoder and one handler more, which only reads. -/
inductive Chained (last : StandardHandler U) : List (Entry (StandardHandler U)) → Prop
  | intro {watches : List (Entry (StandardHandler U))} {d e l : Entry (StandardHandler U)}
      (reader : last.role = .inbound) (idle : ∀ w ∈ watches, ∃ detector, w.handler = .idle detector)
      (decoder : d.handler = .decoder) (encoder : e.handler = .encoder)
      (stands : l.handler = last) : Chained last (watches ++ [d, e, l])

/-- The last handler of a chain reads. -/
theorem Chained.reader {last : StandardHandler U} {entries : List (Entry (StandardHandler U))}
    (chained : Chained last entries) : last.role = .inbound := by
  obtain ⟨reader, -, -, -, -⟩ := chained
  exact reader

/-- A watch does not only read. -/
theorem steady_of_reader {h : StandardHandler U} (reader : h.role = .inbound) (d : IdleDetector) :
    h ≠ .idle d := by
  rintro rfl
  exact nomatch reader

/-- The prototypes of a channel with the given last handler. -/
def chain (idleWindow : Option Nat) (name : String) (last : StandardHandler U) :
    List (String × StandardHandler U) :=
  (idleWindow.map fun w => ("idle", .idle { window := w })).toList
    ++ [("decoder", .decoder), ("encoder", .encoder), (name, last)]

/-- Only idle detectors change; any other handler that is alike is the same. -/
theorem eq_of_alike {h h' : StandardHandler U} (alike : Alike h h') (steady : ∀ d, h ≠ .idle d) :
    h' = h := by
  cases alike with
  | watch d _ => exact absurd rfl (steady d)
  | refl _ => rfl

/-- Watches in front of a decoder, an encoder and a last handler. -/
theorem chained_of_watches {name : String} {last : StandardHandler U}
    {entries : List (Entry (StandardHandler U))} (watches : List (Entry (StandardHandler U)))
    (reader : last.role = .inbound) (idle : ∀ w ∈ watches, ∃ detector, w.handler = .idle detector)
    (follows : Follows [("decoder", .decoder), ("encoder", .encoder), (name, last)] entries) :
    Chained last (watches ++ entries) := by
  cases follows with
  | cons decoder follows =>
      cases follows with
      | cons encoder follows =>
          cases follows with
          | cons stands follows =>
              cases follows
              exact .intro reader idle (eq_of_alike decoder nofun) (eq_of_alike encoder nofun)
                (eq_of_alike stands (steady_of_reader reader))

/-- Entries that follow the prototypes of `chain` are a chain. -/
theorem chained_of_follows {idleWindow : Option Nat} {name : String} {last : StandardHandler U}
    {entries : List (Entry (StandardHandler U))} (reader : last.role = .inbound)
    (follows : Follows (chain idleWindow name last) entries) : Chained last entries := by
  cases idleWindow with
  | none => exact chained_of_watches [] reader nofun follows
  | some w =>
      cases follows with
      | @cons _ e _ rest alike follows =>
          refine chained_of_watches [e] reader ?_ follows
          rintro _ (_ | ⟨_, ⟨⟩⟩)
          generalize e.handler = h at alike
          cases alike with
          | watch _ d => exact ⟨d, rfl⟩
          | refl _ => exact ⟨_, rfl⟩

/-! ## Walks along the chain -/

/-- The handler of an entry after its idle watch took note of something. -/
def notingEntry (note : IdleDetector → IdleDetector) (e : Entry (StandardHandler U)) :
    Entry (StandardHandler U) :=
  match e.handler with
  | .idle d => { e with handler := .idle (note d) }
  | _ => e

/-- The channel after its idle watches took note of something. -/
def noting (note : IdleDetector → IdleDetector) (p : Channel U) : Channel U :=
  { p with entries := p.entries.map (notingEntry note) }

theorem notingEntry_of_idle {e : Entry (StandardHandler U)} {d : IdleDetector}
    (idle : e.handler = .idle d) (note : IdleDetector → IdleDetector) :
    notingEntry note e = { e with handler := .idle (note d) } := by
  rw [notingEntry, idle]

/-- `notingEntry` changes idle detectors only. -/
theorem notingEntry_of_steady {e : Entry (StandardHandler U)} (steady : ∀ d, e.handler ≠ .idle d)
    (note : IdleDetector → IdleDetector) : notingEntry note e = e := by
  rw [notingEntry]
  split
  · exact absurd ‹_› (steady _)
  · rfl

/-- Of a chain only the watches take note of anything. -/
theorem map_notingEntry {last : StandardHandler U} {watches : List (Entry (StandardHandler U))}
    {d e l : Entry (StandardHandler U)} (reader : last.role = .inbound)
    (decoder : d.handler = .decoder) (encoder : e.handler = .encoder) (stands : l.handler = last)
    (note : IdleDetector → IdleDetector) :
    (watches ++ [d, e, l]).map (notingEntry note) =
      watches.map (notingEntry note) ++ [d, e, l] := by
  rw [List.map_append, List.map_cons, List.map_cons, List.map_singleton,
    notingEntry_of_steady (decoder ▸ nofun), notingEntry_of_steady (encoder ▸ nofun),
    notingEntry_of_steady (stands ▸ steady_of_reader reader)]

/-- A chain in which idle detectors note something is a chain. -/
theorem Chained.noting {last : StandardHandler U} {entries : List (Entry (StandardHandler U))}
    (chained : Chained last entries) (note : IdleDetector → IdleDetector) :
    Chained last (entries.map (notingEntry note)) := by
  obtain ⟨reader, idle, decoder, encoder, stands⟩ := chained
  rw [map_notingEntry reader decoder encoder stands]
  refine .intro reader ?_ decoder encoder stands
  intro w member
  obtain ⟨e, there, rfl⟩ := List.mem_map.mp member
  obtain ⟨d, watch⟩ := idle e there
  exact ⟨note d, by rw [notingEntry_of_idle watch]⟩

variable {p : Channel U} {place : Nat} {e : Entry (StandardHandler U)}

/-- A hook by which a watch takes note of something. -/
theorem run_noting {α : Type} {hook : Hook (Surroundings U) (StandardHandler U) α} {result : α}
    {d : IdleDetector} (note : IdleDetector → IdleDetector) (stands : p.entries[place]? = some e)
    (idle : e.handler = .idle d) (none : α)
    (does : hook (p.context e) (.idle d) p.world = .still (.idle (note d)) p.world result) :
    p.run hook none place =
      (result, { p with entries := p.entries.set place (notingEntry note e) }) := by
  rw [Pipeline.run_eq none stands, idle, does, notingEntry_of_idle idle]
  rfl

/-- A handler in its place. -/
def Stands (p : Channel U) (place : Nat) (h : StandardHandler U) : Prop :=
  ∃ e, p.entries[place]? = some e ∧ e.handler = h

/-- A hook that leaves its handler as it is. -/
theorem Stands.run_asking {α : Type} {hook : Hook (Surroundings U) (StandardHandler U) α}
    {h : StandardHandler U} {w : Surroundings U} {effects : List Effect} {result : α}
    (stands : p.Stands place h) (none : α)
    (does : ∀ c : Context, c.channel = p.channel → hook c h p.world = ⟨h, w, effects, result⟩) :
    ∃ id, p.run hook none place =
      (result, effects.foldl (fun p q => p.enqueue place id q) { p with world := w }) := by
  obtain ⟨e, there, rfl⟩ := stands
  obtain ⟨within, rfl⟩ := List.getElem?_eq_some_iff.mp there
  refine ⟨p.entries[place].id, ?_⟩
  rw [Pipeline.run_eq none there, does _ rfl, Pipeline.follow]
  dsimp only
  rw [List.set_getElem_self within]

/-- A hook that leaves its handler as it is and asks for nothing. -/
theorem Stands.run_quiet {α : Type} {hook : Hook (Surroundings U) (StandardHandler U) α}
    {h : StandardHandler U} {w : Surroundings U} {result : α} (stands : p.Stands place h) (none : α)
    (does : ∀ c : Context, c.channel = p.channel → hook c h p.world = .still h w result) :
    p.run hook none place = (result, { p with world := w }) := by
  obtain ⟨id, ran⟩ := stands.run_asking none does
  exact ran

/-- A walk that each watch passes on, and of which it takes note, comes to those behind the
watches. -/
theorem walk_watches {β : Type} (walk : List Nat → Channel U → β)
    {note : IdleDetector → IdleDetector} {timers : Timers}
    (passed : ∀ {place places e d} {q : Channel U}, q.timers = timers →
      q.entries[place]? = some e → e.handler = .idle d →
        walk (place :: places) q =
          walk places { q with entries := q.entries.set place (notingEntry note e) })
    (rest : Nat) {watches : List (Entry (StandardHandler U))} :
    ∀ (front : List (Entry (StandardHandler U))) {back : List (Entry (StandardHandler U))}
      {p : Channel U}, p.timers = timers →
      (∀ w ∈ watches, ∃ d, w.handler = .idle d) → p.entries = front ++ (watches ++ back) →
      walk (List.range' front.length (watches.length + rest)) p =
        walk (List.range' (front.length + watches.length) rest)
          { p with entries := front ++ (watches.map (notingEntry note) ++ back) } := by
  -- the front grows by each watch that was passed, with what it noted
  induction watches with
  | nil =>
      intro front back p _ _ here
      rw [List.nil_append] at here
      rw [List.length_nil, Nat.zero_add, Nat.add_zero, List.map_nil, List.nil_append, ← here]
  | cons e watches ih =>
      intro front back p same idle here
      obtain ⟨⟨d, watch⟩, idle'⟩ := List.forall_mem_cons.mp idle
      rw [List.cons_append] at here
      have stands : p.entries[front.length]? = some e := by rw [here]; simp
      have places : List.range' front.length ((e :: watches).length + rest) =
          front.length :: List.range' (front.length + 1) (watches.length + rest) := by
        rw [List.length_cons, Nat.add_right_comm, List.range'_succ]
      have noted : p.entries.set front.length (notingEntry note e) =
          (front ++ [notingEntry note e]) ++ (watches ++ back) := by
        rw [here]
        simp
      have next := ih (front ++ [notingEntry note e])
        (p := { p with entries := (front ++ [notingEntry note e]) ++ (watches ++ back) })
        same idle' rfl
      rw [List.length_append, List.length_singleton] at next
      rw [places, passed same stands watch, noted, next, List.length_cons,
        Nat.add_comm watches.length, Nat.add_assoc]
      simp

/-- A walk passes the idle detectors at the front of its places, and each of them notes what passes.
-/
theorem walk_watches_first {β : Type} (walk : List Nat → Channel U → β)
    {note : IdleDetector → IdleDetector}
    (passed : ∀ {place places e d} {q : Channel U}, q.timers = p.timers →
      q.entries[place]? = some e → e.handler = .idle d →
        walk (place :: places) q =
          walk places { q with entries := q.entries.set place (notingEntry note e) })
    (rest : Nat) {watches back : List (Entry (StandardHandler U))}
    (idle : ∀ w ∈ watches, ∃ d, w.handler = .idle d) (here : p.entries = watches ++ back) :
    walk (List.range' 0 (watches.length + rest)) p =
      walk (List.range' watches.length rest)
        { p with entries := watches.map (notingEntry note) ++ back } := by
  have walked := walk_watches walk passed rest [] rfl idle here
  rwa [List.length_nil, Nat.zero_add] at walked

/-- An item that is read comes to the handlers behind the watches. -/
theorem readOver_watches (item : Item) (rest : Nat)
    {watches back : List (Entry (StandardHandler U))}
    (idle : ∀ w ∈ watches, ∃ d, w.handler = .idle d) (here : p.entries = watches ++ back) :
    p.readOver (hooks services) (List.range' 0 (watches.length + rest)) item =
      { p with
        entries := watches.map (notingEntry (·.recordRead p.timers.now)) ++ back
      }.readOver (hooks services) (List.range' watches.length rest) item := by
  refine walk_watches_first (fun places p => p.readOver (hooks services) places item)
    (fun {place places e d q} same stands watch => ?_) rest idle here
  have taken : q.run ((hooks services).take item) (.ok (some item)) place = _ :=
    run_noting (·.recordRead q.timers.now) stands watch _ rfl
  show Pipeline.readOver _ (place :: places) item q = _
  rw [Pipeline.readOver, taken, same]

/-- An item that is written comes to the handlers behind the watches. -/
theorem writeOver_watches (item : Item) (rest : Nat)
    {watches back : List (Entry (StandardHandler U))}
    (idle : ∀ w ∈ watches, ∃ d, w.handler = .idle d) (here : p.entries = watches ++ back) :
    p.writeOver (hooks services) (List.range' 0 (watches.length + rest)) item =
      { p with
        entries := watches.map (notingEntry (·.recordWrite p.timers.now)) ++ back
      }.writeOver (hooks services) (List.range' watches.length rest) item := by
  refine walk_watches_first (fun places p => p.writeOver (hooks services) places item)
    (fun {place places e d q} same stands watch => ?_) rest idle here
  have turned : q.run ((hooks services).turn item) (.ok item) place = _ :=
    run_noting (·.recordWrite q.timers.now) stands watch _ rfl
  show Pipeline.writeOver _ (place :: places) item q = _
  rw [Pipeline.writeOver, turned, same]

/-- A channel split behind its watches: where the walks that come past them go on, once the watches
took note of what came by. -/
structure Split (last : StandardHandler U) (note : IdleDetector → IdleDetector) (p : Channel U)
    (watches back : List (Entry (StandardHandler U))) : Prop where
  entries : p.entries = watches ++ back
  idle : ∀ w ∈ watches, ∃ d, w.handler = .idle d
  places : p.placesFrom 0 = List.range' 0 (watches.length + 3)
  noted : { p with entries := watches.map (notingEntry note) ++ back } = p.noting note
  decoder : (p.noting note).Stands watches.length .decoder
  encoder : (p.noting note).Stands (watches.length + 1) .encoder
  last : (p.noting note).Stands (watches.length + 2) last
  behind : (p.noting note).placesFrom (watches.length + 1) =
    [watches.length + 1, watches.length + 2]

/-- A chain splits into its idle detectors and the handlers behind them. -/
theorem exists_split {last : StandardHandler U} (chained : Chained last p.entries)
    (note : IdleDetector → IdleDetector) : ∃ watches back, Split last note p watches back := by
  -- with the entries as an index, the cases give the three handlers behind the watches
  generalize here : p.entries = entries at chained
  obtain ⟨reader, idle, decoder, encoder, stands⟩ := chained
  rename_i watches d e l
  have noted : (p.noting note).entries = watches.map (notingEntry note) ++ [d, e, l] := by
    rw [noting, here, map_notingEntry reader decoder encoder stands]
  have size : (p.noting note).entries.length = watches.length + 3 := by
    rw [noted, List.length_append, List.length_map]
    rfl
  refine ⟨watches, [d, e, l], ?_⟩
  constructor
  case entries => exact here
  case idle => exact idle
  case places =>
    rw [Pipeline.placesFrom, here, List.length_append]
    rfl
  case noted =>
    rw [← noted]
    rfl
  case decoder => exact ⟨d, by simp [noted], decoder⟩
  case encoder => exact ⟨e, by simp [noted], encoder⟩
  case last => exact ⟨l, by simp [noted], stands⟩
  case behind =>
    have two : watches.length + 3 - (watches.length + 1) = 2 := by omega
    rw [Pipeline.placesFrom, size, two]
    rfl

/-! ## What the decoder and the encoder make of an item -/

/-- A message has a packet, which on datagrams is not too large. -/
def Sendable (services : Services U) (udp : Bool) (m : Message) (buffer : Gather) : Prop :=
  Packet.encode services.scheme m = .ok buffer ∧ (udp = true → buffer.size ≤ maxDatagram)

/-- The channel encodes just what is `Sendable`. -/
theorem encode_eq_ok_iff {m : Message} {udp : Bool} {buffer : Gather} :
    encode services m udp = .ok buffer ↔ Sendable services udp m buffer := by
  rw [encode, Sendable]
  cases Packet.encode services.scheme m with
  | error f => exact ⟨nofun, fun sendable => nomatch sendable.1⟩
  | ok b =>
      dsimp only
      by_cases large : udp = true ∧ maxDatagram < b.size
      · rw [if_pos large]
        refine ⟨nofun, ?_⟩
        rintro ⟨same, fits⟩
        cases same
        exact absurd (fits large.1) (Nat.not_le_of_lt large.2)
      · rw [if_neg large]
        constructor
        · intro same
          cases same
          exact ⟨rfl, fun datagram => Nat.le_of_not_lt fun tooLarge => large ⟨datagram, tooLarge⟩⟩
        · rintro ⟨same, -⟩
          exact same

section Walks

variable {last : StandardHandler U} {x : Parcel} {m : Message} {f : Failure} {buffer : Gather}

theorem readOver_of_pass {places : List Nat} {item next : Item} {q : Channel U}
    (passed : p.run ((hooks services).take item) (.ok (some item)) place = (.ok (some next), q)) :
    p.readOver (hooks services) (place :: places) item =
      q.readOver (hooks services) places next := by
  rw [Pipeline.readOver, passed]

theorem readOver_of_keep {places : List Nat} {item : Item} {q : Channel U}
    (kept : p.run ((hooks services).take item) (.ok (some item)) place = (.ok none, q)) :
    p.readOver (hooks services) (place :: places) item = q := by
  rw [Pipeline.readOver, kept]

theorem writeOver_of_pass {places : List Nat} {item next : Item} {q : Channel U}
    (passed : p.run ((hooks services).turn item) (.ok item) place = (.ok next, q)) :
    p.writeOver (hooks services) (place :: places) item =
      q.writeOver (hooks services) places next := by
  rw [Pipeline.writeOver, passed]

/-- Reading is over after the walk if nothing was put off. -/
theorem read_of_quiet {item : Item} {q : Channel U}
    (walked : p.readOver (hooks services) (p.placesFrom 0) item = q) (idle : q.queue = [])
    (bound : Nat) : p.read (hooks services) bound item = some q := by
  rw [Pipeline.read, walked]
  exact Pipeline.settle_idle idle bound

/-- So is writing. -/
theorem write_of_quiet {item : Item} {result : Except Failure Unit} {q : Channel U}
    (written : p.writeNow (hooks services) item = (result, q)) (idle : q.queue = [])
    (bound : Nat) : p.write (hooks services) bound item = some (result, q) := by
  rw [Pipeline.write, written]
  dsimp only
  rw [Pipeline.settle_idle idle]
  rfl

/-- The decoder counts a packet that is no message and keeps it. -/
theorem take_rejected (rejected : x.decode services = .error f) (c : Context)
    (w : Surroundings U) :
    (hooks services).take x.item c .decoder w =
      .still .decoder (w.count Traffic.decodeError) (.ok none) := by
  rw [Parcel.decode] at rejected
  show Reaction.still _ (decode services x.bytes x.sender x.recipient x.udp w).2 (Except.ok _) = _
  rw [StandardHandler.decode, rejected]

/-- The decoder counts a packet that is a message and passes the message on. -/
theorem take_decoded (decoded : x.decode services = .ok m) (c : Context) (w : Surroundings U) :
    (hooks services).take x.item c .decoder w =
      .still .decoder (w.count Traffic.messageReceived) (.ok (some (.message m))) := by
  rw [Parcel.decode] at decoded
  show Reaction.still _ (decode services x.bytes x.sender x.recipient x.udp w).2 (Except.ok _) = _
  rw [StandardHandler.decode, decoded]

/-- The encoder counts a message that it can encode and passes the buffer on. -/
theorem turn_encoded {c : Context} (encoded : encode services m c.channel.udp = .ok buffer)
    (w : Surroundings U) :
    (hooks services).turn (.message m) c .encoder w =
      .still .encoder (w.count Traffic.messageSent) (.ok (.encoded buffer)) := by
  show StandardHandler.write services (.message m) c .encoder w = _
  rw [StandardHandler.write, encoded]

/-- The encoder fails with the failure of the encoding. -/
theorem turn_refused {c : Context} (refused : encode services m c.channel.udp = .error f)
    (w : Surroundings U) :
    (hooks services).turn (.message m) c .encoder w = .still .encoder w (.error f) := by
  show StandardHandler.write services (.message m) c .encoder w = _
  rw [StandardHandler.write, refused]

/-- The channel after a packet passed its watches. -/
abbrev seen (p : Channel U) : Channel U := p.noting (·.recordRead p.timers.now)

/-- The channel after an item on its way out passed its watches. -/
abbrev used (p : Channel U) : Channel U := p.noting (·.recordWrite p.timers.now)

/-- A packet that is no message goes no further than the decoder. -/
theorem readOver_rejected (chained : Chained last p.entries)
    (rejected : x.decode services = .error f) :
    p.readOver (hooks services) (p.placesFrom 0) x.item =
      { p.seen with world := p.world.count Traffic.decodeError } := by
  obtain ⟨watches, back, split⟩ := exists_split chained (·.recordRead p.timers.now)
  rw [split.places, readOver_watches _ 3 split.idle split.entries, split.noted, List.range'_succ]
  exact readOver_of_keep (split.decoder.run_quiet _ fun c _ => take_rejected rejected c _)

/-- A packet that is a message comes to the last handler as this message. -/
theorem readOver_decoded (chained : Chained last p.entries)
    (decoded : x.decode services = .ok m) :
    ∃ place, p.seen.Stands place last ∧
      p.readOver (hooks services) (p.placesFrom 0) x.item =
        { p.seen with world := p.world.count Traffic.messageReceived }.readOver (hooks services)
          [place] (.message m) := by
  obtain ⟨watches, back, split⟩ := exists_split chained (·.recordRead p.timers.now)
  refine ⟨_, split.last, ?_⟩
  rw [split.places, readOver_watches _ 3 split.idle split.entries, split.noted, List.range'_succ,
    readOver_of_pass (split.decoder.run_quiet _ fun c _ => take_decoded decoded c _)]
  have stands : Stands { p.seen with world := p.world.count Traffic.messageReceived }
    (watches.length + 1) .encoder := split.encoder
  exact readOver_of_pass (stands.run_quiet _ fun c _ => rfl)

/-- A message that the last handler hands on is left over. -/
theorem readOver_through (chained : Chained last p.entries)
    (decoded : x.decode services = .ok m)
    (passes : ∀ c w, (hooks services).take (.message m) c last w =
      .still last w (.ok (some (.message m)))) :
    p.readOver (hooks services) (p.placesFrom 0) x.item =
      { p.seen with
        world := p.world.count Traffic.messageReceived
        unhandled := p.unhandled ++ [.message m] } := by
  obtain ⟨place, last, walked⟩ := readOver_decoded chained decoded
  have stands : Stands { p.seen with world := p.world.count Traffic.messageReceived } place _ :=
    last
  rw [walked, readOver_of_pass (stands.run_quiet _ fun c _ => passes c _)]
  rfl

/-- A message that the last handler keeps does what this handler makes of it. -/
theorem readOver_kept {w : Surroundings U} {effects : List Effect}
    (chained : Chained last p.entries)
    (decoded : x.decode services = .ok m)
    (keeps : ∀ c : Context, c.channel = p.channel →
      (hooks services).take (.message m) c last (p.world.count Traffic.messageReceived) =
        ⟨last, w, effects, .ok none⟩) :
    ∃ place id,
      p.readOver (hooks services) (p.placesFrom 0) x.item =
        effects.foldl (fun p effect => p.enqueue place id effect) { p.seen with world := w } := by
  obtain ⟨place, last, walked⟩ := readOver_decoded chained decoded
  have stands : Stands { p.seen with world := p.world.count Traffic.messageReceived } place _ :=
    last
  obtain ⟨id, kept⟩ := stands.run_asking (.ok (some (.message m))) keeps
  exact ⟨place, id, walked.trans (readOver_of_keep kept)⟩

/-- A message that can be sent comes out of the chain as its packet. -/
theorem writeOver_encoded (chained : Chained last p.entries)
    (encoded : encode services m p.channel.udp = .ok buffer) :
    p.writeOver (hooks services) (p.placesFrom 0) (.message m) =
      (.ok (.encoded buffer), { p.used with world := p.world.count Traffic.messageSent }) := by
  obtain ⟨watches, back, split⟩ := exists_split chained (·.recordWrite p.timers.now)
  rw [split.places, writeOver_watches _ 3 split.idle split.entries, split.noted, List.range'_succ,
    writeOver_of_pass (split.decoder.run_quiet _ fun c _ => rfl)]
  have stands : Stands { p.used with world := p.world.count Traffic.messageSent }
    (watches.length + 2) _ := split.last
  rw [List.range'_succ, writeOver_of_pass (split.encoder.run_quiet _ fun c same =>
    turn_encoded (same ▸ encoded) _)]
  refine (writeOver_of_pass (stands.run_quiet _ fun c _ => ?_)).trans rfl
  rw [Pipeline.turn_aside]
  show HandlerRole.writes _ = _
  rw [show (hooks services).role _ = _ from chained.reader]
  rfl

/-- A message that can be sent goes out as its packet, to where it is to go. -/
theorem writeNow_encoded (chained : Chained last p.entries)
    (encoded : encode services m p.channel.udp = .ok buffer) :
    p.writeNow (hooks services) (.message m) = (.ok (),
      { p.used with world := p.world.count Traffic.messageSent }.emit buffer
        m.recipientSocket) := by
  rw [Pipeline.writeNow, writeOver_encoded chained encoded]
  rfl

/-- A message that cannot be sent goes no further than the encoder, and the last handler learns of
it. -/
theorem writeOver_refused (chained : Chained last p.entries)
    (refused : encode services m p.channel.udp = .error f) :
    ∃ place, p.used.Stands place last ∧
      p.writeOver (hooks services) (p.placesFrom 0) (.message m) =
        (.error f, (p.used.run ((hooks services).caught f) () place).2) := by
  obtain ⟨watches, back, split⟩ := exists_split chained (·.recordWrite p.timers.now)
  refine ⟨_, split.last, ?_⟩
  rw [split.places, writeOver_watches _ 3 split.idle split.entries, split.noted, List.range'_succ,
    writeOver_of_pass (split.decoder.run_quiet _ fun c _ => rfl), List.range'_succ,
    Pipeline.writeOver, split.encoder.run_quiet _ fun c same => turn_refused (same ▸ refused) _]
  show (Except.error f, Pipeline.tell (hooks services) f (watches.length + 1) p.used) = _
  rw [Pipeline.tell, split.behind, Pipeline.tellAll, List.foldl_cons,
    split.encoder.run_quiet () fun c _ => rfl]
  rfl

end Walks

end Channel

end PeerMessaging
