import PeerMessaging.Message.Edit
import PeerMessaging.Proofs.Wire.Content

/-!
# Messages that are built step by step

A message starts without content, and each step sets a header field or appends a section. A step
that is refused changes nothing, so one may go on after it. As long as each section comes with
its value, the content stays one that can be written: well formed and complete.
-/

namespace PeerMessaging

/-- The section comes with its value. -/
def Addition.isTyped : Addition → Bool
  | .plain s => s.isComplete
  | .signed _ _ => true
  | .foreign _ _ => true
  | .announced _ => false

/-- The step sets a header field or adds a section with its value. -/
def Edit.isTyped : Edit → Bool
  | .add addition => addition.isTyped
  | _ => true

/-- The section that an addition puts into a slot, if it can be one at all. -/
def Addition.section? : Addition → Option Section
  | .plain s => some s
  | .signed publicKey _ => some (.signedPublicKey publicKey)
  | .foreign (.foreign kind) data => some (.foreign kind data)
  | .foreign _ _ => none
  | .announced kind => some (.announce kind)

/-- A section that is added as it is has its value; only an announcement may lack one. -/
def Addition.isGenuine : Addition → Bool
  | .plain s => s.isComplete
  | _ => true

/-- A typed addition adds a section that is complete. -/
theorem Addition.isComplete_of_isTyped {a : Addition} {s : Section} (typed : a.isTyped)
    (adds : a.section? = some s) : s.isComplete := by
  cases a with
  | plain s' =>
      obtain rfl := Option.some.inj adds
      exact typed
  | signed publicKey signingKey =>
      obtain rfl := Option.some.inj adds
      rfl
  | foreign kind data =>
      cases kind with
      | foreign k =>
          obtain rfl := Option.some.inj adds
          rfl
      | _ => exact nomatch adds
  | announced kind => exact nomatch typed

/-- An empty section is never announced without its value, for it has none. -/
theorem Addition.ne_announced_empty {a : Addition} {s : Section} (genuine : a.isGenuine)
    (adds : a.section? = some s) : s ≠ .announced .empty := by
  rintro rfl
  cases a with
  | plain s' =>
      obtain rfl := Option.some.inj adds
      exact nomatch genuine
  | signed publicKey signingKey => exact nomatch adds
  | foreign kind data => cases kind <;> exact nomatch adds
  | announced kind => cases kind <;> exact nomatch adds

namespace Message

/-- What a message is before the first step: a new one, or the reply to any request. -/
inductive Envelope : Message → Prop
  | new : Envelope {}
  | reply (request : Message) (responder : PeerAddress) (kind : MessageKind) :
      Envelope (request.replyTo responder kind)

/-- Takes steps in order, also after one that is refused. -/
def build (m : Message) : List Edit → Message
  | [] => m
  | e :: rest => (m.edit e).2.build rest

/-- The content can be written: it is well formed, and every section has its value. -/
structure Writable (m : Message) : Prop where
  wellFormed : m.content.WellFormed
  complete : ∀ s ∈ m.content, s.isComplete

/-- An envelope can be written, for it has no content. -/
theorem Envelope.writable {m : Message} (h : m.Envelope) : m.Writable := by
  have none : m.content = [] := by cases h <;> rfl
  refine ⟨none ▸ Content.wellFormed_nil, ?_⟩
  rw [none]
  exact fun s hs => (List.not_mem_nil hs).elim

/-- A section that is appended changes the content alone. -/
theorem add_eq_ok {m m' : Message} {s : Section} (h : m.add s = (.ok (), m')) :
    m.content.append s = .ok m'.content ∧ m' = { m with content := m'.content } := by
  rw [add] at h
  cases appended : m.content.append s with
  | error fault => rw [appended] at h; exact nomatch h
  | ok content =>
      rw [appended] at h
      obtain ⟨-, rfl⟩ := Prod.mk.inj h
      exact ⟨rfl, rfl⟩

/-- A section that cannot be appended changes nothing. -/
theorem add_eq_error {m m' : Message} {s : Section} {f : Failure} (h : m.add s = (.error f, m')) :
    (∃ fault, f = .state fault) ∧ m' = m := by
  rw [add] at h
  cases appended : m.content.append s with
  | ok content => rw [appended] at h; exact nomatch h
  | error fault =>
      rw [appended] at h
      obtain ⟨failed, rfl⟩ := Prod.mk.inj h
      exact ⟨⟨fault, (Except.error.inj failed).symm⟩, rfl⟩

/-- All that an addition does when it is taken. -/
theorem attach_eq_ok {m m' : Message} {addition : Addition}
    (h : m.attach addition = (.ok (), m')) :
    ∃ s, addition.section? = some s ∧ m.content.append s = .ok m'.content ∧
      m' = { m with content := m'.content, signingKey := m'.signingKey } := by
  have keyless : ∀ {s : Section}, m.add s = (.ok (), m') → m.content.append s = .ok m'.content ∧
      m' = { m with content := m'.content, signingKey := m'.signingKey } := by
    intro s added
    obtain ⟨appended, same⟩ := add_eq_ok added
    rw [same]
    rw [same] at appended
    exact ⟨appended, rfl⟩
  cases addition with
  | plain s => exact ⟨s, rfl, keyless h⟩
  | signed publicKey signingKey =>
      rw [attach, addSigned] at h
      split at h
      · next added =>
        obtain ⟨-, rfl⟩ := Prod.mk.inj h
        obtain ⟨appended, same⟩ := add_eq_ok added
        refine ⟨_, rfl, appended, ?_⟩
        rw [same]
      · exact nomatch h
  | foreign kind data =>
      cases kind with
      | foreign k => exact ⟨_, rfl, keyless h⟩
      | _ => exact nomatch h
  | announced kind => exact ⟨_, rfl, keyless h⟩

/-- An addition that is refused is one that the state of the message does not allow, and changes
nothing. -/
theorem attach_eq_error {m m' : Message} {addition : Addition} {f : Failure}
    (h : m.attach addition = (.error f, m')) : (∃ fault, f = .state fault) ∧ m' = m := by
  cases addition with
  | signed publicKey signingKey =>
      rw [attach, addSigned] at h
      split at h
      · exact nomatch h
      · next added =>
        obtain ⟨failed, rfl⟩ := Prod.mk.inj h
        obtain rfl := Except.error.inj failed
        exact add_eq_error added
  | foreign kind data =>
      cases kind with
      | foreign k => exact add_eq_error h
      | _ =>
          obtain ⟨failed, rfl⟩ := Prod.mk.inj h
          exact ⟨⟨_, (Except.error.inj failed).symm⟩, rfl⟩
  | _ => exact add_eq_error h

/-- A step that is refused changes nothing. -/
theorem edit_eq_error {m m' : Message} {e : Edit} {f : Failure}
    (h : m.edit e = (.error f, m')) : m' = m := by
  cases e with
  | add addition => exact (attach_eq_error h).2
  | _ => exact nomatch h

namespace Writable

/-- Only the content counts. -/
theorem of_content {m m' : Message} (sound : m.Writable) (same : m'.content = m.content) :
    m'.Writable :=
  ⟨same ▸ sound.wellFormed, same ▸ sound.complete⟩

/-- A typed addition keeps a message writable. -/
theorem attach {m m' : Message} {addition : Addition} (sound : m.Writable)
    (typed : addition.isTyped) (h : m.attach addition = (.ok (), m')) : m'.Writable := by
  obtain ⟨s, adds, appended, -⟩ := attach_eq_ok h
  refine ⟨sound.wellFormed.of_append appended, ?_⟩
  obtain ⟨-, longer⟩ := Content.append_eq_ok_iff.mp appended
  rw [← longer]
  intro e he
  rcases List.mem_append.mp he with he | he
  · exact sound.complete e he
  · rw [List.mem_singleton.mp he]
    exact Addition.isComplete_of_isTyped typed adds

/-- A typed step keeps a message writable. -/
theorem edit {m m' : Message} {e : Edit} (sound : m.Writable) (typed : e.isTyped)
    (h : m.edit e = (.ok (), m')) : m'.Writable := by
  cases e with
  | add addition => exact sound.attach typed h
  | _ =>
      obtain ⟨-, rfl⟩ := Prod.mk.inj h
      exact sound.of_content rfl

/-- Whatever is built stays writable. -/
theorem build {edits : List Edit} :
    ∀ {m : Message}, m.Writable → (∀ e ∈ edits, e.isTyped) → (m.build edits).Writable := by
  induction edits with
  | nil => intro m sound _; exact sound
  | cons e edits ih =>
      intro m sound typed
      have later : ∀ e ∈ edits, e.isTyped := fun e' he => typed e' (List.mem_cons_of_mem _ he)
      rw [Message.build]
      cases step : m.edit e with
      | mk result next =>
        cases result with
        | error f =>
            obtain rfl := edit_eq_error step
            exact ih sound later
        | ok taken => exact ih (sound.edit (typed e (List.mem_cons_self ..)) step) later

end Writable

/-! ## Messages that only grow -/

/-- A message that came out of another by additions alone. -/
structure Grown (additions : List Addition) (m m' : Message) : Prop where
  header : m' = { m with content := m'.content, signingKey := m'.signingKey }
  wellFormed : m.content.WellFormed → m'.content.WellFormed
  sections : ∀ s ∈ m'.content, s ∈ m.content ∨ ∃ a ∈ additions, a.section? = some s

/-- An addition that is taken makes a message grow by its section. -/
theorem grown_attach {m m' : Message} {a : Addition} (h : m.attach a = (.ok (), m')) :
    Grown [a] m m' := by
  obtain ⟨s, adds, appended, header⟩ := attach_eq_ok h
  refine ⟨header, fun wellFormed => wellFormed.of_append appended, ?_⟩
  obtain ⟨-, longer⟩ := Content.append_eq_ok_iff.mp appended
  rw [← longer]
  intro e he
  rcases List.mem_append.mp he with he | he
  · exact .inl he
  · rw [List.mem_singleton.mp he]
    exact .inr ⟨a, List.mem_singleton_self a, adds⟩

/-- What grew out of a message that grew has grown by both stretches of additions. -/
theorem Grown.trans {first rest : List Addition} {m m' m'' : Message} (h : Grown first m m')
    (h' : Grown rest m' m'') : Grown (first ++ rest) m m'' := by
  refine ⟨?_, fun wellFormed => h'.wellFormed (h.wellFormed wellFormed), ?_⟩
  · rw [h'.header, h.header]
  · intro s hs
    rcases h'.sections s hs with before | ⟨a, ha, adds⟩
    · rcases h.sections s before with old | ⟨a, ha, adds⟩
      · exact .inl old
      · exact .inr ⟨a, List.mem_append_left _ ha, adds⟩
    · exact .inr ⟨a, List.mem_append_right _ ha, adds⟩

/-- Whatever is added, refused or not, only content comes to a message. -/
theorem grown_build {additions : List Addition} :
    ∀ m : Message, Grown additions m (m.build (additions.map .add)) := by
  induction additions with
  | nil => intro m; exact ⟨rfl, fun wellFormed => wellFormed, fun s hs => .inl hs⟩
  | cons a additions ih =>
      intro m
      rw [List.map_cons, build, edit]
      cases step : m.attach a with
      | mk result next =>
        cases result with
        | ok taken => exact (grown_attach step).trans (ih next)
        | error f =>
            -- a refused addition counts like one that adds what was there
            obtain ⟨-, rfl⟩ := attach_eq_error step
            have later := ih next
            refine ⟨later.header, later.wellFormed, fun s hs => ?_⟩
            rcases later.sections s hs with old | ⟨b, hb, adds⟩
            · exact .inl old
            · exact .inr ⟨b, List.mem_cons_of_mem _ hb, adds⟩

end Message

end PeerMessaging
