import Mathlib.Data.List.Forall2
import Mathlib.Logic.Relation
import PeerMessaging.Channel.Operation

/-!
# Walks through a pipeline

Whatever happens in a pipeline, its handlers are called one after another. A call is one question
to the handler at a place, with all that the handler asked for and answered. A walk is told by
its calls: the relations below say which calls make up a walk of each kind, from the pipeline
before it to the pipeline after it, and every function that walks keeps to the relation of its
kind.

What a walk can change is what one call can change. A handler gets a new state, which is one that
its own hooks gave it, the world moves on, and what the handler asked for is put off behind
everything that waits already. Nothing leaves the pipeline on a walk, and no handler comes, goes
or gets another name or number.
-/

namespace PeerMessaging

variable {W H α β : Type}

/-! ## Questions and answers -/

/-- What a handler is called for. -/
inductive Question where
  | hear (s : Signal)
  | take (item : Item)
  | turn (item : Item)
  | learn (f : Failure)
  deriving DecidableEq

/-- What a handler makes of it. An item that it does not hand on it keeps. -/
inductive Answer where
  | done
  | pass (item : Item)
  | keep
  | fail (f : Failure)
  deriving DecidableEq

namespace Answer

/-- The answer to a signal. -/
def ofSignal : Except Failure Unit → Answer
  | .ok () => done
  | .error f => fail f

/-- The answer to an item that is read. -/
def ofRead : Except Failure (Option Item) → Answer
  | .ok (some item) => pass item
  | .ok none => keep
  | .error f => fail f

/-- The answer to an item that is written. -/
def ofWrite : Except Failure Item → Answer
  | .ok item => pass item
  | .error f => fail f

end Answer

/-- The same reaction with its result seen in another way. -/
def Reaction.map (f : α → β) (r : Reaction W H α) : Reaction W H β :=
  ⟨r.handler, r.world, r.effects, f r.result⟩

namespace Hooks

/-- The hook that a question goes to. -/
def ask (hooks : Hooks W H) : Question → Hook W H Answer
  | .hear s => fun c h w => (hooks.signal s c h w).map .ofSignal
  | .take item => fun c h w => (hooks.read item c h w).map .ofRead
  | .turn item => fun c h w => (hooks.write item c h w).map .ofWrite
  | .learn f => fun c h w => (hooks.caught f c h w).map fun _ => .done

/-- Whether a question is put to a handler at all: events and items that are read are for those
that read, and items that are written for those that write. -/
def joins (hooks : Hooks W H) : Question → H → Bool
  | .hear (.event _), h => (hooks.role h).reads
  | .take _, h => (hooks.role h).reads
  | .turn _, h => (hooks.role h).writes
  | _, _ => true

/-- One state of a handler comes after another by one of its hooks. -/
def Reacts (hooks : Hooks W H) (h h' : H) : Prop :=
  ∃ q c w, h' = (hooks.ask q c h w).handler

/-- No hook touches a part of the world. -/
def Spares (hooks : Hooks W H) (part : W → β) : Prop :=
  ∀ q c h w, part (hooks.ask q c h w).world = part w

end Hooks

/-- The same handler later on: its number and its name are the same, and its state has come from
the earlier one by its own hooks. -/
structure Entry.Kin (hooks : Hooks W H) (e e' : Entry H) : Prop where
  id : e'.id = e.id
  name : e'.name = e.name
  handler : Relation.ReflTransGen hooks.Reacts e.handler e'.handler

theorem Entry.Kin.refl (hooks : Hooks W H) (e : Entry H) : e.Kin hooks e := ⟨rfl, rfl, .refl⟩

theorem Entry.Kin.trans {hooks : Hooks W H} {e f g : Entry H} (first : e.Kin hooks f)
    (second : f.Kin hooks g) : e.Kin hooks g :=
  ⟨second.id.trans first.id, second.name.trans first.name, first.handler.trans second.handler⟩

/-! ## Calls -/

/-- One call of the handler at a place: the question, and what came of it. -/
structure Call where
  place : Nat
  id : Nat
  question : Question
  effects : List Effect
  answer : Answer
  deriving DecidableEq

/-- What an effect of the handler at a place puts into the queue. -/
def Effect.deferred (place : Nat) : Effect → List Deferred
  | .write item => [.write item]
  | .raise event => [.event place event]
  | _ => []

/-- What was put off in a call, in the order in which the handler asked for it. -/
def Call.asked (c : Call) : List Deferred := c.effects.flatMap (Effect.deferred c.place)

namespace Pipeline

/-- How the handler of an entry reacts to a question. -/
def reaction (hooks : Hooks W H) (p : Pipeline W H) (e : Entry H) (q : Question) :
    Reaction W H Answer :=
  hooks.ask q (p.context e) e.handler p.world

/-- The pipeline after the handler of an entry reacted. -/
def follow (p : Pipeline W H) (place : Nat) (e : Entry H) (r : Reaction W H α) : Pipeline W H :=
  r.effects.foldl (fun p q => p.enqueue place e.id q)
    { p with entries := p.entries.set place { e with handler := r.handler }, world := r.world }

/-- Effects go behind what is in the queue already; apart from that only the request to close and
the timers can change. -/
theorem foldl_enqueue (place id : Nat) (effects : List Effect) (p : Pipeline W H) :
    ∃ closeRequested timers, effects.foldl (fun p q => p.enqueue place id q) p =
      { p with
        queue := p.queue ++ effects.flatMap (Effect.deferred place)
        closeRequested := closeRequested
        timers := timers } := by
  induction effects generalizing p with
  | nil => exact ⟨p.closeRequested, p.timers, by rw [List.flatMap_nil, List.append_nil]; rfl⟩
  | cons effect rest ih =>
    obtain ⟨closeRequested, timers, granted⟩ := ih (p.enqueue place id effect)
    refine ⟨closeRequested, timers, granted.trans ?_⟩
    cases effect <;> simp [enqueue, Effect.deferred]

end Pipeline

/-- A call is made in a pipeline and leaves another: the handler stands at the place, the question
is one for it, and the rest is its reaction. -/
inductive Call.Made (hooks : Hooks W H) : Call → Pipeline W H → Pipeline W H → Prop
  | intro {p : Pipeline W H} {place : Nat} {e : Entry H} {q : Question}
      (stands : p.entries[place]? = some e) (joins : hooks.joins q e.handler = true) :
      Made hooks
        ⟨place, e.id, q, (p.reaction hooks e q).effects, (p.reaction hooks e q).result⟩
        p (p.follow place e (p.reaction hooks e q))

namespace Pipeline

variable {hooks : Hooks W H} {p q r : Pipeline W H}

/-! ## What a walk keeps -/

/-- From one pipeline to another nothing happened but calls of handlers, who asked for the things
given. -/
structure Steady (hooks : Hooks W H) (asked : List Deferred) (p q : Pipeline W H) : Prop where
  queue : q.queue = p.queue ++ asked
  outbound : q.outbound = p.outbound
  unhandled : q.unhandled = p.unhandled
  channel : q.channel = p.channel
  nextId : q.nextId = p.nextId
  onEncoded : q.onEncoded = p.onEncoded
  entries : List.Forall₂ (Entry.Kin hooks) p.entries q.entries
  world : ∀ log : W → List Gather, hooks.Spares log → log q.world = log p.world

theorem kin_refl (hooks : Hooks W H) (l : List (Entry H)) :
    List.Forall₂ (Entry.Kin hooks) l l :=
  List.forall₂_same.mpr fun e _ => .refl hooks e

theorem kin_trans {l m n : List (Entry H)} (first : List.Forall₂ (Entry.Kin hooks) l m)
    (second : List.Forall₂ (Entry.Kin hooks) m n) : List.Forall₂ (Entry.Kin hooks) l n := by
  induction first generalizing n with
  | nil => exact second
  | cons head _ ih =>
    cases second with
    | cons head' tail => exact .cons (head.trans head') (ih tail)

/-- What is the same of the same handlers. -/
theorem kin_map {f : Entry H → β} (same : ∀ {e e'}, e.Kin hooks e' → f e' = f e)
    {l m : List (Entry H)} (kin : List.Forall₂ (Entry.Kin hooks) l m) : m.map f = l.map f := by
  induction kin with
  | nil => rfl
  | cons head _ ih => rw [List.map_cons, List.map_cons, same head, ih]

/-- A handler that takes a further state of its own is the same handler. -/
theorem kin_set {l : List (Entry H)} {place : Nat} {e e' : Entry H} (stands : l[place]? = some e)
    (kin : e.Kin hooks e') : List.Forall₂ (Entry.Kin hooks) l (l.set place e') := by
  induction l generalizing place with
  | nil => exact .nil
  | cons head tail ih =>
    cases place with
    | zero =>
      cases stands
      exact .cons kin (kin_refl hooks tail)
    | succ place => exact .cons (.refl hooks head) (ih stands)

/-- What stands at a place of one list has its counterpart at the same place of the other. -/
theorem exists_getElem?_of_forall₂ {R : α → β → Prop} {l : List α} {m : List β}
    (each : List.Forall₂ R l m) {place : Nat} {a : α} (stands : l[place]? = some a) :
    ∃ b, m[place]? = some b ∧ R a b := by
  induction each generalizing place with
  | nil => cases stands
  | cons head _ ih =>
    cases place with
    | zero =>
      cases stands
      exact ⟨_, rfl, head⟩
    | succ place => exact ih stands

namespace Steady

theorem refl (hooks : Hooks W H) (p : Pipeline W H) : Steady hooks [] p p :=
  ⟨(List.append_nil _).symm, rfl, rfl, rfl, rfl, rfl, kin_refl hooks _, fun _ _ => rfl⟩

theorem trans {asked asked' : List Deferred} (first : Steady hooks asked p q)
    (second : Steady hooks asked' q r) : Steady hooks (asked ++ asked') p r where
  queue := by rw [second.queue, first.queue, List.append_assoc]
  outbound := second.outbound.trans first.outbound
  unhandled := second.unhandled.trans first.unhandled
  channel := second.channel.trans first.channel
  nextId := second.nextId.trans first.nextId
  onEncoded := second.onEncoded.trans first.onEncoded
  entries := kin_trans first.entries second.entries
  world log spares := (second.world log spares).trans (first.world log spares)

theorem length {asked : List Deferred} (steady : Steady hooks asked p q) :
    q.entries.length = p.entries.length := steady.entries.length_eq.symm

end Steady

/-- One call keeps all that a walk keeps. -/
theorem made_steady {c : Call} (made : c.Made hooks p q) : Steady hooks c.asked p q := by
  cases made with
  | @intro _ place e question stands joins =>
    obtain ⟨closeRequested, timers, followed⟩ :=
      foldl_enqueue place e.id (p.reaction hooks e question).effects
        { p with
          entries := p.entries.set place
            { e with handler := (p.reaction hooks e question).handler }
          world := (p.reaction hooks e question).world }
    rw [follow, followed]
    exact {
      queue := rfl
      outbound := rfl
      unhandled := rfl
      channel := rfl
      nextId := rfl
      onEncoded := rfl
      entries := kin_set stands ⟨rfl, rfl, .single ⟨question, p.context e, p.world, rfl⟩⟩
      world := fun _ spares => spares question (p.context e) e.handler p.world }

/-! ## Kinds of walks -/

/-- The handler at a place is asked a question and gives an answer. -/
structure Asks (hooks : Hooks W H) (place : Nat) (question : Question) (answer : Answer)
    (c : Call) (p q : Pipeline W H) : Prop where
  made : c.Made hooks p q
  place : c.place = place
  question : c.question = question
  answer : c.answer = answer

/-- A failure is told to the handlers at the given places. -/
inductive Told (hooks : Hooks W H) (f : Failure) :
    List Nat → List Call → Pipeline W H → Pipeline W H → Prop
  | nil {p : Pipeline W H} : Told hooks f [] [] p p
  | cons {p q r : Pipeline W H} {place : Nat} {places : List Nat} {c : Call} {calls : List Call}
      (head : Asks hooks place (.learn f) .done c p q) (tail : Told hooks f places calls q r) :
      Told hooks f (place :: places) (c :: calls) p r

/-- A signal goes to the handlers at the given places. It passes by a handler that does not take
part in it. When a handler fails, this is told to it and to all behind it before the signal goes
on. -/
inductive Heard (hooks : Hooks W H) (s : Signal) :
    List Nat → List Call → Pipeline W H → Pipeline W H → Prop
  | nil {p : Pipeline W H} : Heard hooks s [] [] p p
  | aside {p q : Pipeline W H} {place : Nat} {places : List Nat} {e : Entry H}
      {calls : List Call} (stands : p.entries[place]? = some e)
      (aside : hooks.joins (.hear s) e.handler = false) (tail : Heard hooks s places calls p q) :
      Heard hooks s (place :: places) calls p q
  | calm {p q r : Pipeline W H} {place : Nat} {places : List Nat} {c : Call} {calls : List Call}
      (head : Asks hooks place (.hear s) .done c p q) (tail : Heard hooks s places calls q r) :
      Heard hooks s (place :: places) (c :: calls) p r
  | alarmed {p q r t : Pipeline W H} {place : Nat} {places : List Nat} {c : Call}
      {told calls : List Call} {f : Failure} (head : Asks hooks place (.hear s) (.fail f) c p q)
      (alarm : Told hooks f (q.placesFrom place) told q r)
      (tail : Heard hooks s places calls r t) :
      Heard hooks s (place :: places) (c :: (told ++ calls)) p t

/-- The two ways of an item. -/
inductive Way where
  | inward
  | outward
  deriving DecidableEq

/-- What a handler is asked about an item on its way. -/
def Way.question : Way → Item → Question
  | inward => .take
  | outward => .turn

/-- How a walk ended: with an item behind the last handler, with an item that a handler kept or
failed on, or without ever carrying one. -/
inductive Ending where
  | through (item : Item)
  | kept
  | failed (f : Failure)
  | over
  deriving DecidableEq

/-- An item goes over the given places. It passes by a handler that does not take part in its way,
and every other handler gets what the one before it handed on. The walk ends at the first that
hands nothing on; a failure is told to that handler and to all behind it. -/
inductive Carried (hooks : Hooks W H) (way : Way) :
    List Nat → Item → List Call → Ending → Pipeline W H → Pipeline W H → Prop
  | arrived {p : Pipeline W H} {item : Item} : Carried hooks way [] item [] (.through item) p p
  | aside {p q : Pipeline W H} {place : Nat} {places : List Nat} {e : Entry H} {item : Item}
      {calls : List Call} {ending : Ending} (stands : p.entries[place]? = some e)
      (aside : hooks.joins (way.question item) e.handler = false)
      (tail : Carried hooks way places item calls ending p q) :
      Carried hooks way (place :: places) item calls ending p q
  | passed {p q r : Pipeline W H} {place : Nat} {places : List Nat} {item next : Item} {c : Call}
      {calls : List Call} {ending : Ending}
      (head : Asks hooks place (way.question item) (.pass next) c p q)
      (tail : Carried hooks way places next calls ending q r) :
      Carried hooks way (place :: places) item (c :: calls) ending p r
  | kept {p q : Pipeline W H} {place : Nat} {places : List Nat} {item : Item} {c : Call}
      (head : Asks hooks place (way.question item) .keep c p q) :
      Carried hooks way (place :: places) item [c] .kept p q
  | failed {p q r : Pipeline W H} {place : Nat} {places : List Nat} {item : Item} {c : Call}
      {told : List Call} {f : Failure}
      (head : Asks hooks place (way.question item) (.fail f) c p q)
      (alarm : Told hooks f (q.placesFrom place) told q r) :
      Carried hooks way (place :: places) item (c :: told) (.failed f) p r

/-- A call leaves the pipeline steady, but for what it asks. -/
theorem Asks.steady {place : Nat} {question : Question} {answer : Answer} {c : Call}
    (asks : Asks hooks place question answer c p q) : Steady hooks c.asked p q :=
  made_steady asks.made

/-- The call is numbered as the handler at the place is. -/
theorem Asks.id_eq {place : Nat} {question : Question} {answer : Answer} {c : Call} {e : Entry H}
    (asks : Asks hooks place question answer c p q) (stands : p.entries[place]? = some e) :
    c.id = e.id := by
  obtain ⟨made, rfl, -, -⟩ := asks
  cases made with
  | intro stands' _ =>
    cases stands'.symm.trans stands
    rfl

theorem Told.steady {f : Failure} {places : List Nat} {calls : List Call}
    (told : Told hooks f places calls p q) : Steady hooks (calls.flatMap Call.asked) p q := by
  induction told with
  | nil => exact .refl hooks _
  | cons head _ ih => exact head.steady.trans ih

/-- The walk of a signal leaves the pipeline steady, but for what the calls ask. -/
theorem Heard.steady {s : Signal} {places : List Nat} {calls : List Call}
    (heard : Heard hooks s places calls p q) : Steady hooks (calls.flatMap Call.asked) p q := by
  induction heard with
  | nil => exact .refl hooks _
  | aside _ _ _ ih => exact ih
  | calm head _ ih => exact head.steady.trans ih
  | alarmed head alarm _ ih =>
    rw [List.flatMap_cons, List.flatMap_append]
    exact head.steady.trans (alarm.steady.trans ih)

/-- The way of an item leaves the pipeline steady, but for what the calls ask. -/
theorem Carried.steady {way : Way} {places : List Nat} {item : Item} {calls : List Call}
    {ending : Ending} (carried : Carried hooks way places item calls ending p q) :
    Steady hooks (calls.flatMap Call.asked) p q := by
  induction carried with
  | arrived => exact .refl hooks _
  | aside _ _ _ ih => exact ih
  | passed head _ ih => exact head.steady.trans ih
  | kept head =>
    rw [List.flatMap_singleton]
    exact head.steady
  | failed head alarm => exact head.steady.trans alarm.steady

/-! ## Who is called on a walk -/

/-- A call is one of the handlers given: it is the reaction of the handler at its place, in a state
to which its own hooks have brought it. -/
def IsOf (hooks : Hooks W H) (l : List (Entry H)) (c : Call) : Prop :=
  ∃ e e' context world, l[c.place]? = some e ∧ e.Kin hooks e' ∧ c.id = e.id ∧
    c.effects = (hooks.ask c.question context e'.handler world).effects ∧
    c.answer = (hooks.ask c.question context e'.handler world).result

/-- Who is one of some handlers later on was one of them before. -/
theorem IsOf.of_kin {l m : List (Entry H)} (kin : List.Forall₂ (Entry.Kin hooks) l m) {c : Call}
    (isOf : IsOf hooks m c) : IsOf hooks l c := by
  obtain ⟨e', e'', context, world, stands, kin', id, reaction⟩ := isOf
  obtain ⟨e, stands', same⟩ := exists_getElem?_of_forall₂ kin.flip stands
  exact ⟨e, e'', context, world, stands', same.trans kin', id.trans same.id, reaction⟩

/-- A call is one of a handler at its place. -/
theorem Asks.isOf {place : Nat} {question : Question} {answer : Answer} {c : Call}
    (asks : Asks hooks place question answer c p q) : IsOf hooks p.entries c := by
  obtain ⟨made, -, -, -⟩ := asks
  cases made with
  | @intro _ place e question stands _ =>
    exact ⟨e, e, p.context e, p.world, stands, .refl hooks e, rfl, rfl, rfl⟩

theorem Told.isOf {f : Failure} {places : List Nat} {calls : List Call}
    (told : Told hooks f places calls p q) : ∀ c ∈ calls, IsOf hooks p.entries c := by
  induction told with
  | nil => exact fun _ member => absurd member List.not_mem_nil
  | cons head _ ih =>
    exact List.forall_mem_cons.mpr
      ⟨head.isOf, fun c member => (ih c member).of_kin head.steady.entries⟩

theorem Heard.isOf {s : Signal} {places : List Nat} {calls : List Call}
    (heard : Heard hooks s places calls p q) : ∀ c ∈ calls, IsOf hooks p.entries c := by
  induction heard with
  | nil => exact fun _ member => absurd member List.not_mem_nil
  | aside _ _ _ ih => exact ih
  | calm head _ ih =>
    exact List.forall_mem_cons.mpr
      ⟨head.isOf, fun c member => (ih c member).of_kin head.steady.entries⟩
  | alarmed head alarm _ ih =>
    refine List.forall_mem_cons.mpr ⟨head.isOf, List.forall_mem_append.mpr ⟨?_, ?_⟩⟩
    · exact fun c member => (alarm.isOf c member).of_kin head.steady.entries
    · exact fun c member => (ih c member).of_kin (head.steady.trans alarm.steady).entries

theorem Carried.isOf {way : Way} {places : List Nat} {item : Item} {calls : List Call}
    {ending : Ending} (carried : Carried hooks way places item calls ending p q) :
    ∀ c ∈ calls, IsOf hooks p.entries c := by
  induction carried with
  | arrived => exact fun _ member => absurd member List.not_mem_nil
  | aside _ _ _ ih => exact ih
  | passed head _ ih =>
    exact List.forall_mem_cons.mpr
      ⟨head.isOf, fun c member => (ih c member).of_kin head.steady.entries⟩
  | kept head => exact List.forall_mem_singleton.mpr head.isOf
  | failed head alarm =>
    exact List.forall_mem_cons.mpr
      ⟨head.isOf, fun c member => (alarm.isOf c member).of_kin head.steady.entries⟩

/-! ## What is asked on a walk -/

/-- Where a failure is told, each call is about this failure. -/
theorem Told.questions {f : Failure} {places : List Nat} {calls : List Call}
    (told : Told hooks f places calls p q) : ∀ c ∈ calls, c.question = .learn f := by
  induction told with
  | nil => exact fun _ member => absurd member List.not_mem_nil
  | cons head _ ih => exact List.forall_mem_cons.mpr ⟨head.question, ih⟩

/-- On the walk of a signal handlers are asked to hear it, and they learn of failures. -/
theorem Heard.questions {s : Signal} {places : List Nat} {calls : List Call}
    (heard : Heard hooks s places calls p q) :
    ∀ c ∈ calls, c.question = .hear s ∨ ∃ f, c.question = .learn f := by
  induction heard with
  | nil => exact fun _ member => absurd member List.not_mem_nil
  | aside _ _ _ ih => exact ih
  | calm head _ ih => exact List.forall_mem_cons.mpr ⟨.inl head.question, ih⟩
  | alarmed head alarm _ ih =>
    refine List.forall_mem_cons.mpr ⟨.inl head.question, List.forall_mem_append.mpr ⟨?_, ih⟩⟩
    exact fun c member => .inr ⟨_, alarm.questions c member⟩

/-- On the way of an item handlers are asked about items, and they learn of failures. -/
theorem Carried.questions {way : Way} {places : List Nat} {item : Item} {calls : List Call}
    {ending : Ending} (carried : Carried hooks way places item calls ending p q) :
    ∀ c ∈ calls, (∃ item, c.question = way.question item) ∨ ∃ f, c.question = .learn f := by
  induction carried with
  | arrived => exact fun _ member => absurd member List.not_mem_nil
  | aside _ _ _ ih => exact ih
  | passed head _ ih => exact List.forall_mem_cons.mpr ⟨.inl ⟨_, head.question⟩, ih⟩
  | kept head => exact List.forall_mem_singleton.mpr (.inl ⟨_, head.question⟩)
  | failed head alarm =>
    refine List.forall_mem_cons.mpr ⟨.inl ⟨_, head.question⟩, ?_⟩
    exact fun c member => .inr ⟨_, alarm.questions c member⟩

/-! ## Hooks and questions -/

/-- Asking a handler that takes part in a signal runs its `hear` hook. -/
theorem ask_hear {s : Signal} {h : H} (joins : hooks.joins (.hear s) h = true) (c : Context)
    (w : W) : hooks.ask (.hear s) c h w = (hooks.hear s c h w).map .ofSignal := by
  cases s with
  | event e =>
    have reads : (hooks.role h).reads = true := joins
    rw [Hooks.hear, if_pos reads]
    rfl
  | _ => rfl

theorem ask_take {item : Item} {h : H} (joins : hooks.joins (.take item) h = true) (c : Context)
    (w : W) : hooks.ask (.take item) c h w = (hooks.take item c h w).map .ofRead := by
  have reads : (hooks.role h).reads = true := joins
  rw [Hooks.take, if_pos reads]
  rfl

theorem ask_turn {item : Item} {h : H} (joins : hooks.joins (.turn item) h = true) (c : Context)
    (w : W) : hooks.ask (.turn item) c h w = (hooks.turn item c h w).map .ofWrite := by
  have writes : (hooks.role h).writes = true := joins
  rw [Hooks.turn, if_pos writes]
  rfl

/-- The `hear` hook of a handler that takes no part in a signal does nothing. -/
theorem hear_aside {s : Signal} {h : H} (aside : hooks.joins (.hear s) h = false) (c : Context)
    (w : W) : hooks.hear s c h w = .still h w (.ok ()) := by
  cases s with
  | event e =>
    have reads : (hooks.role h).reads = false := aside
    rw [Hooks.hear, if_neg (ne_true_of_eq_false reads)]
  | _ => cases aside

theorem take_aside {item : Item} {h : H} (aside : hooks.joins (.take item) h = false) (c : Context)
    (w : W) : hooks.take item c h w = .still h w (.ok (some item)) := by
  have reads : (hooks.role h).reads = false := aside
  rw [Hooks.take, if_neg (ne_true_of_eq_false reads)]

theorem turn_aside {item : Item} {h : H} (aside : hooks.joins (.turn item) h = false) (c : Context)
    (w : W) : hooks.turn item c h w = .still h w (.ok item) := by
  have writes : (hooks.role h).writes = false := aside
  rw [Hooks.turn, if_neg (ne_true_of_eq_false writes)]

/-! ## The functions that walk

Each of them goes over places that are there, by induction on the places. What keeps them there is
that no call changes how many handlers there are.
-/

/-- `run` gives the result of the hook, and the pipeline as the reaction leaves it. -/
theorem run_eq {hook : Hook W H α} {place : Nat} {e : Entry H} (idle : α)
    (stands : p.entries[place]? = some e) :
    p.run hook idle place = ((hook (p.context e) e.handler p.world).result,
      p.follow place e (hook (p.context e) e.handler p.world)) := by
  rw [run, stands]
  rfl

/-- To run a hook is to ask its question. -/
theorem run_asks {hook : Hook W H α} (seen : α → Answer) {place : Nat} {e : Entry H}
    (question : Question) (idle : α) (stands : p.entries[place]? = some e)
    (joins : hooks.joins question e.handler = true)
    (same : ∀ c w, hooks.ask question c e.handler w = (hook c e.handler w).map seen) :
    ∃ c, Asks hooks place question (seen (p.run hook idle place).1) c p
      (p.run hook idle place).2 := by
  have made : Call.Made hooks _ p _ := .intro stands joins
  rw [reaction, same] at made
  rw [run_eq idle stands]
  exact ⟨_, made, rfl, rfl, rfl⟩

/-- A hook that does nothing leaves the pipeline as it is. -/
theorem run_still {hook : Hook W H α} {place : Nat} {e : Entry H} {result : α} (idle : α)
    (stands : p.entries[place]? = some e)
    (still : ∀ c w, hook c e.handler w = .still e.handler w result) :
    p.run hook idle place = (result, p) := by
  obtain ⟨within, rfl⟩ := List.getElem?_eq_some_iff.mp stands
  rw [run_eq idle stands, still]
  exact congrArg (fun entries => (result, { p with entries := entries }))
    (List.set_getElem_self within)

/-- Further places on the way are still there after the calls so far. -/
theorem within_tail {asked : List Deferred} {place : Nat} {places : List Nat}
    (within : ∀ place' ∈ place :: places, place' < p.entries.length)
    (steady : Steady hooks asked p q) : ∀ place' ∈ places, place' < q.entries.length :=
  fun place' member => steady.length ▸ within place' (List.mem_cons_of_mem _ member)

theorem stands_of_lt {place : Nat} (within : place < p.entries.length) :
    ∃ e, p.entries[place]? = some e := ⟨_, List.getElem?_eq_getElem within⟩

theorem lt_of_mem_placesFrom {start place : Nat} (h : place ∈ p.placesFrom start) :
    place < p.entries.length := by
  have := List.mem_range'_1.mp h
  omega

theorem tellAll_told {f : Failure} {places : List Nat}
    (within : ∀ place ∈ places, place < p.entries.length) :
    ∃ calls, Told hooks f places calls p (p.tellAll hooks f places) := by
  induction places generalizing p with
  | nil => exact ⟨[], .nil⟩
  | cons place places ih =>
    obtain ⟨e, stands⟩ := stands_of_lt (within place List.mem_cons_self)
    obtain ⟨c, head⟩ := run_asks (fun _ => .done) (.learn f) () stands rfl
      fun c w => (rfl : hooks.ask (.learn f) c e.handler w = _)
    obtain ⟨calls, tail⟩ := ih (within_tail within head.steady)
    exact ⟨c :: calls, .cons head tail⟩

theorem tell_told (hooks : Hooks W H) (p : Pipeline W H) (f : Failure) (place : Nat) :
    ∃ calls, Told hooks f (p.placesFrom place) calls p (p.tell hooks f place) :=
  tellAll_told fun _ => lt_of_mem_placesFrom

/-- Giving a signal to the handlers at some places is the walk of the signal. -/
theorem foldl_signalAt_heard {s : Signal} {places : List Nat}
    (within : ∀ place ∈ places, place < p.entries.length) :
    ∃ calls, Heard hooks s places calls p
      (places.foldl (fun p place => p.signalAt hooks s place) p) := by
  induction places generalizing p with
  | nil => exact ⟨[], .nil⟩
  | cons place places ih =>
    obtain ⟨e, stands⟩ := stands_of_lt (within place List.mem_cons_self)
    rw [List.foldl_cons, signalAt]
    cases joins : hooks.joins (.hear s) e.handler with
    | false =>
      obtain ⟨calls, tail⟩ := ih (within_tail within (.refl hooks p))
      rw [run_still (.ok ()) stands (hear_aside joins)]
      exact ⟨calls, .aside stands joins tail⟩
    | true =>
      obtain ⟨c, head⟩ := run_asks _ _ (.ok ()) stands joins (ask_hear joins)
      revert head
      rcases p.run (hooks.hear s) (.ok ()) place with ⟨_ | _, q⟩ <;> intro head
      · -- the alarm goes from this place to the end, and the signal goes on after it
        obtain ⟨told, alarm⟩ := tell_told hooks q _ place
        obtain ⟨calls, tail⟩ := ih (within_tail within (head.steady.trans alarm.steady))
        exact ⟨_, .alarmed head alarm tail⟩
      · obtain ⟨calls, tail⟩ := ih (within_tail within head.steady)
        exact ⟨_, .calm head tail⟩

theorem signalFrom_heard (hooks : Hooks W H) (p : Pipeline W H) (s : Signal) (start : Nat) :
    ∃ calls, Heard hooks s (p.placesFrom start) calls p (p.signalFrom hooks s start) :=
  foldl_signalAt_heard fun _ => lt_of_mem_placesFrom

theorem signalAt_heard (hooks : Hooks W H) (s : Signal) {place : Nat}
    (within : place < p.entries.length) :
    ∃ calls, Heard hooks s [place] calls p (p.signalAt hooks s place) :=
  foldl_signalAt_heard fun _ h => List.mem_singleton.mp h ▸ within

/-- What is left of an item that was read: the item if it came through. -/
def Ending.left : Ending → List Item
  | .through item => [item]
  | .kept | .failed _ | .over => []

/-- Reading an item over some places is its way inward, and what came through is left over. -/
theorem readOver_carried (hooks : Hooks W H) {places : List Nat} (item : Item)
    (within : ∀ place ∈ places, place < p.entries.length) :
    ∃ calls ending q, Carried hooks .inward places item calls ending p q ∧
      p.readOver hooks places item = { q with unhandled := q.unhandled ++ ending.left } := by
  induction places generalizing p item with
  | nil => exact ⟨[], .through item, p, .arrived, rfl⟩
  | cons place places ih =>
    obtain ⟨e, stands⟩ := stands_of_lt (within place List.mem_cons_self)
    rw [readOver]
    cases joins : hooks.joins (.take item) e.handler with
    | false =>
      obtain ⟨calls, ending, q, tail, walked⟩ := ih item (within_tail within (.refl hooks p))
      rw [run_still (.ok (some item)) stands (take_aside joins)]
      exact ⟨calls, ending, q, .aside stands joins tail, walked⟩
    | true =>
      obtain ⟨c, head⟩ := run_asks _ _ (.ok (some item)) stands joins (ask_take joins)
      revert head
      rcases p.run (hooks.take item) (.ok (some item)) place with ⟨f | _ | next, q⟩ <;> intro head
      · obtain ⟨told, alarm⟩ := tell_told hooks q f place
        exact ⟨_, .failed f, _, .failed head alarm, by rw [Ending.left, List.append_nil]⟩
      · exact ⟨_, .kept, _, .kept head, by rw [Ending.left, List.append_nil]⟩
      · obtain ⟨calls, ending, r, tail, walked⟩ := ih next (within_tail within head.steady)
        exact ⟨_, ending, r, .passed head tail, walked⟩

/-- The result of writing an item over some places and how the walk ended belong together. -/
inductive Ending.Yields : Ending → Except Failure Item → Prop
  | through {item : Item} : Yields (.through item) (.ok item)
  | failed {f : Failure} : Yields (.failed f) (.error f)

/-- Writing an item over some places is its way outward. -/
theorem writeOver_carried (hooks : Hooks W H) {places : List Nat} (item : Item)
    (within : ∀ place ∈ places, place < p.entries.length) :
    ∃ calls ending, Carried hooks .outward places item calls ending p
        (p.writeOver hooks places item).2 ∧
      ending.Yields (p.writeOver hooks places item).1 := by
  induction places generalizing p item with
  | nil => exact ⟨[], .through item, .arrived, .through⟩
  | cons place places ih =>
    obtain ⟨e, stands⟩ := stands_of_lt (within place List.mem_cons_self)
    rw [writeOver]
    cases joins : hooks.joins (.turn item) e.handler with
    | false =>
      obtain ⟨calls, ending, tail, yields⟩ := ih item (within_tail within (.refl hooks p))
      rw [run_still (.ok item) stands (turn_aside joins)]
      exact ⟨calls, ending, .aside stands joins tail, yields⟩
    | true =>
      obtain ⟨c, head⟩ := run_asks _ _ (.ok item) stands joins (ask_turn joins)
      revert head
      rcases p.run (hooks.turn item) (.ok item) place with ⟨f | next, q⟩ <;> intro head
      · obtain ⟨told, alarm⟩ := tell_told hooks q f place
        exact ⟨_, .failed f, .failed head alarm, .failed⟩
      · obtain ⟨calls, ending, tail, yields⟩ := ih next (within_tail within head.steady)
        exact ⟨_, ending, .passed head tail, yields⟩

end Pipeline

end PeerMessaging
