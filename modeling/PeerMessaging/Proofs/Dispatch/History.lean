import PeerMessaging.Dispatch

/-!
# What a dispatcher decides after any history

Handlers come and go. The one that stands for a command is the one that was registered last, if
nothing was done to that command since; whatever happened to other commands does not count. And a
request meets one of four fates: its version is not served, its command has no handler, its
handler answers, or its handler fails.
-/

namespace PeerMessaging

variable {U : Type}

/-- A change of the handlers of a dispatcher. -/
inductive HandlerChange (U : Type) where
  | register (command : UInt8) (h : CommandHandler U)
  | unregister (command : UInt8)

namespace HandlerChange

/-- The command whose handler changes. -/
def command : HandlerChange U → UInt8
  | register command _ => command
  | unregister command => command

/-- A handler was the last to be registered for a command and is still there. -/
def Standing (changes : List (HandlerChange U)) (command : UInt8) (h : CommandHandler U) : Prop :=
  ∃ before after, changes = before ++ .register command h :: after ∧
    ∀ e ∈ after, e.command ≠ command

/-- A change that came first counts only if the later ones leave its command alone. -/
theorem standing_cons {e : HandlerChange U} {changes : List (HandlerChange U)} {command : UInt8}
    {h : CommandHandler U} :
    Standing (e :: changes) command h ↔
      Standing changes command h ∨
        e = .register command h ∧ ∀ e' ∈ changes, e'.command ≠ command := by
  constructor
  · rintro ⟨before, after, split, untouched⟩
    cases before with
    | nil =>
        obtain ⟨rfl, rfl⟩ := List.cons.inj split
        exact .inr ⟨rfl, untouched⟩
    | cons e' before =>
        obtain ⟨-, rfl⟩ := List.cons.inj split
        exact .inl ⟨before, after, rfl, untouched⟩
  · rintro (⟨before, after, rfl, untouched⟩ | ⟨rfl, untouched⟩)
    · exact ⟨e :: before, after, rfl, untouched⟩
    · exact ⟨[], changes, rfl, untouched⟩

end HandlerChange

namespace Dispatcher

open HandlerChange

/-- Makes one change. -/
def change (d : Dispatcher U) : HandlerChange U → Dispatcher U
  | .register command h => d.register command h
  | .unregister command => (d.unregister command).2

/-- Makes changes in order. -/
def changeAll (d : Dispatcher U) : List (HandlerChange U) → Dispatcher U
  | [] => d
  | e :: rest => (d.change e).changeAll rest

/-- The dispatcher of a peer after some changes. -/
def after (responder : PeerAddress) (version : UInt32) (changes : List (HandlerChange U)) :
    Dispatcher U :=
  changeAll { responder := responder, version := version } changes

/-! ## The table of handlers -/

/-- An entry in front is found under its own command and hides nothing else. -/
theorem lookup_entry (own other : UInt8) (h : CommandHandler U)
    (entries : List (UInt8 × CommandHandler U)) :
    ((own, h) :: entries).lookup other
      = if other = own then some h else entries.lookup other := by
  rw [List.lookup_cons]
  by_cases same : other = own
  · rw [if_pos same, beq_iff_eq.mpr same]
  · rw [if_neg same, beq_eq_false_iff_ne.mpr same]

/-- Without the entries of a command, only this command is not found. -/
theorem lookup_filter (entries : List (UInt8 × CommandHandler U)) (command other : UInt8) :
    (entries.filter fun entry => entry.1 ≠ command).lookup other
      = if other = command then none else entries.lookup other := by
  induction entries with
  | nil => simp
  | cons entry entries ih =>
      obtain ⟨own, h⟩ := entry
      by_cases gone : own = command
      · rw [List.filter_cons_of_neg (by simp [gone]), ih, lookup_entry, gone]
        by_cases same : other = command <;> simp [same]
      · rw [List.filter_cons_of_pos (by simp [gone]), lookup_entry, lookup_entry, ih]
        by_cases found : other = own
        · simp [found, gone]
        · simp [found]

/-- `unregister` takes away the handler of its command and no other. -/
theorem handler?_unregister (d : Dispatcher U) (command other : UInt8) :
    (d.unregister command).2.handler? other
      = if other = command then none else d.handler? other :=
  lookup_filter d.handlers command other

/-- `register` puts its handler to its command and to no other. -/
theorem handler?_register (d : Dispatcher U) (command other : UInt8) (h : CommandHandler U) :
    (d.register command h).handler? other
      = if other = command then some h else d.handler? other := by
  have table : (d.register command h).handler? other
      = ((d.unregister command).2.handler? other).or ([(command, h)].lookup other) :=
    List.lookup_append
  rw [table, handler?_unregister, lookup_entry]
  by_cases same : other = command <;> simp [same]

/-- A change decides about its own command and leaves the others. -/
theorem handler?_change (d : Dispatcher U) (e : HandlerChange U) (command : UInt8)
    (h : CommandHandler U) :
    (d.change e).handler? command = some h ↔
      e = .register command h ∨ e.command ≠ command ∧ d.handler? command = some h := by
  cases e with
  | register own new =>
      rw [change, handler?_register]
      by_cases same : command = own
      · subst same
        simp [HandlerChange.command]
      · simp [HandlerChange.command, same, Ne.symm same]
  | unregister own =>
      rw [change, handler?_unregister]
      by_cases same : command = own
      · subst same
        simp [HandlerChange.command]
      · simp [HandlerChange.command, same, Ne.symm same]

/-- After some changes a command has the handler that stands, or else the one it had before. -/
theorem handler?_changeAll {changes : List (HandlerChange U)} {command : UInt8}
    {h : CommandHandler U} :
    ∀ d : Dispatcher U, (d.changeAll changes).handler? command = some h ↔
      Standing changes command h ∨
        (∀ e ∈ changes, e.command ≠ command) ∧ d.handler? command = some h := by
  induction changes with
  | nil =>
      intro d
      constructor
      · exact fun had => .inr ⟨fun e he => (List.not_mem_nil he).elim, had⟩
      · rintro (⟨before, after, split, -⟩ | ⟨-, had⟩)
        · exact absurd split (by simp)
        · exact had
  | cons e changes ih =>
      intro d
      rw [changeAll, ih, handler?_change, standing_cons, List.forall_mem_cons]
      -- a handler stands for the changes behind, or for this one, or it was there before
      constructor
      · rintro (stands | ⟨untouched, rfl | ⟨other, had⟩⟩)
        · exact .inl (.inl stands)
        · exact .inl (.inr ⟨rfl, untouched⟩)
        · exact .inr ⟨⟨other, untouched⟩, had⟩
      · rintro ((stands | ⟨rfl, untouched⟩) | ⟨⟨other, untouched⟩, had⟩)
        · exact .inl stands
        · exact .inr ⟨untouched, .inl rfl⟩
        · exact .inr ⟨untouched, .inr ⟨other, had⟩⟩

/-- A dispatcher knows just the handlers that stand. -/
theorem handler?_after {responder : PeerAddress} {version : UInt32}
    {changes : List (HandlerChange U)} {command : UInt8} {h : CommandHandler U} :
    (after responder version changes).handler? command = some h ↔ Standing changes command h := by
  rw [after, handler?_changeAll]
  constructor
  · rintro (stands | ⟨-, had⟩)
    · exact stands
    · cases had
  · exact .inl

/-- At most one handler stands for a command. -/
theorem standing_unique {changes : List (HandlerChange U)} {command : UInt8}
    {h h' : CommandHandler U} (stands : Standing changes command h)
    (stands' : Standing changes command h') : h = h' := by
  rw [← @handler?_after U .unknown 0] at stands stands'
  exact Option.some.inj (stands.symm.trans stands')

/-- No history changes in whose name a dispatcher answers, or which version it serves. -/
theorem responder_version_changeAll {changes : List (HandlerChange U)} :
    ∀ d : Dispatcher U, (d.changeAll changes).responder = d.responder ∧
      (d.changeAll changes).version = d.version := by
  induction changes with
  | nil => intro d; exact ⟨rfl, rfl⟩
  | cons e changes ih =>
      intro d
      obtain ⟨responder, version⟩ := ih (d.change e)
      rw [changeAll, responder, version]
      cases e <;> exact ⟨rfl, rfl⟩

@[simp] theorem responder_after (responder : PeerAddress) (version : UInt32)
    (changes : List (HandlerChange U)) :
    (after responder version changes).responder = responder :=
  (responder_version_changeAll _).1

@[simp] theorem version_after (responder : PeerAddress) (version : UInt32)
    (changes : List (HandlerChange U)) :
    (after responder version changes).version = version :=
  (responder_version_changeAll _).2

/-! ## One request -/

/-- All that can become of a request. -/
inductive Decision (d : Dispatcher U) (request : Message) (u : U) : Option Message × U → Prop
  | outdated (differs : request.version ≠ d.version) :
      Decision d request u (reply request (request.replyTo d.responder .exception), u)
  | unknown (served : request.version = d.version) (bare : d.handler? request.command = none) :
      Decision d request u (reply request (request.replyTo d.responder .unknownId), u)
  | answered (served : request.version = d.version) (h : CommandHandler U)
      (found : d.handler? request.command = some h) (answer : Message) (u' : U)
      (ran : h request (request.replyTo d.responder .ok) u = (.ok answer, u')) :
      Decision d request u (reply request answer, u')
  | failed (served : request.version = d.version) (h : CommandHandler U)
      (found : d.handler? request.command = some h) (f : Failure) (u' : U)
      (ran : h request (request.replyTo d.responder .ok) u = (.error f, u')) :
      Decision d request u (reply request (request.replyTo d.responder .exception), u')

/-- What `respond` gives is one of the decisions on the request. -/
theorem decision (d : Dispatcher U) (request : Message) (u : U) :
    Decision d request u (d.respond request u) := by
  rw [respond]
  by_cases served : request.version = d.version
  · rw [if_neg (not_not_intro served), dispatch]
    cases found : d.handler? request.command with
    | none => exact .unknown served found
    | some h =>
        dsimp only
        rcases ran : h request (request.replyTo d.responder .ok) u with ⟨f | answer, u'⟩
        · exact .failed served h found f u' ran
        · exact .answered served h found answer u' ran
  · rw [if_pos served]
    exact .outdated served

end Dispatcher

end PeerMessaging
