import PeerMessaging.Channel.Idle

/-!
# Idle detection is neither early nor late

A detector does not poll. Its timer is set for what the detector tells, and when it expires the
detector looks at the time since the last activity. This is enough to be exact: of all the times at
which it looks, a channel is found idle at those that are whole windows after the last activity, one
or more.

What carries the argument is where the expiry that is pending can lie. It is never more than a
window ahead of what happened last. And either it is at most a window after the last activity, or
the channel was idle all along and it is a number of whole windows after it. Activity restores the
first, a look that finds the channel idle the second, and a look that does not puts the expiry a
window after the activity.

Whatever is asked of a detector in whatever order, it never tells that a channel is idle before a
window has passed, and its phase only moves forward.
-/

namespace PeerMessaging

/-- What happens while a detector watches: a read or a write at a time, or a look when the timer
expired, with what it showed. -/
inductive WatchEvent where
  | read (time : Nat)
  | write (time : Nat)
  | look (time : Nat) (idle : Bool)
  deriving DecidableEq

namespace WatchEvent

/-- The time of a read or a write. -/
def activity? : WatchEvent → Option Nat
  | read time => some time
  | write time => some time
  | look _ _ => none

/-- The time of a look that found the channel idle. -/
def report? : WatchEvent → Option Nat
  | look time true => some time
  | _ => none

/-- The times at which the channel was found idle. -/
def reports (events : List WatchEvent) : List Nat := events.filterMap report?

/-- The time of the last activity, if the last one before was at the time given first. -/
def lastOf (before : Nat) (events : List WatchEvent) : Nat :=
  (events.filterMap activity?).getLastD before

/-- Nothing was read or written. -/
def Silent (events : List WatchEvent) : Prop := ∀ m ∈ events, m.activity? = none

instance (events : List WatchEvent) : Decidable (Silent events) :=
  inferInstanceAs (Decidable (∀ m ∈ events, m.activity? = none))

/-- The channel was found idle a window after a time, and every window later, as far as it was
watched. At most one look came too early for that. -/
def Paced (w since : Nat) (events : List WatchEvent) : Prop :=
  ∃ n, events.length ≤ n + 1 ∧ reports events = (List.range' 1 n).map fun k => since + k * w

@[simp] theorem lastOf_nil (before : Nat) : lastOf before [] = before := rfl

/-- An event that is activity is the last activity so far. -/
theorem lastOf_cons_of_activity {m : WatchEvent} {time : Nat} (active : m.activity? = some time)
    (before : Nat) (rest : List WatchEvent) : lastOf before (m :: rest) = lastOf time rest := by
  rw [lastOf, lastOf, List.filterMap_cons_some active]
  exact List.getLastD_cons

@[simp] theorem reports_cons_idle (time : Nat) (rest : List WatchEvent) :
    reports (look time true :: rest) = time :: reports rest := rfl

@[simp] theorem reports_cons_busy (time : Nat) (rest : List WatchEvent) :
    reports (look time false :: rest) = reports rest := rfl

@[simp] theorem lastOf_cons_look (before time : Nat) (idle : Bool) (rest : List WatchEvent) :
    lastOf before (look time idle :: rest) = lastOf before rest := rfl

end WatchEvent

namespace IdleDetector

open WatchEvent

/-- Takes note of a read or a write. A look changes nothing. -/
def note (d : IdleDetector) : WatchEvent → IdleDetector
  | .read time => d.recordRead time
  | .write time => d.recordWrite time
  | .look _ _ => d

/-- What a look shows: the whole window passed since the last activity, or only a part of it. -/
inductive Sees (d : IdleDetector) (now : Nat) : IdleCheck → Prop
  | idle (full : d.window ≤ now - d.lastActivity) : Sees d now ⟨true, d.window⟩
  | busy (part : now - d.lastActivity < d.window) :
      Sees d now ⟨false, d.window - (now - d.lastActivity)⟩

/-- An initialized detector sees something, and no other does. -/
theorem sees_of_check {d : IdleDetector} {now : Nat} {c : IdleCheck} (seen : d.check now = some c) :
    d.phase = .initialized ∧ Sees d now c := by
  rw [check] at seen
  by_cases phase : d.phase = .initialized
  · rw [if_pos phase] at seen
    dsimp only at seen
    refine ⟨phase, ?_⟩
    by_cases full : d.window ≤ now - d.lastActivity
    · rw [if_pos full] at seen
      cases seen
      exact .idle full
    · rw [if_neg full] at seen
      cases seen
      exact .busy (Nat.lt_of_not_le full)
  · rw [if_neg phase] at seen
    exact nomatch seen

/-- A detector that was started can be checked at any time. -/
theorem exists_check {d : IdleDetector} (phase : d.phase = .initialized) (now : Nat) :
    ∃ c, d.check now = some c := by
  rw [check, if_pos phase]
  dsimp only
  split
  · exact ⟨_, rfl⟩
  · exact ⟨_, rfl⟩

/-- The delay that a look tells is a part of the window. -/
theorem nextDelay_of_sees {d : IdleDetector} {now : Nat} {c : IdleCheck} (positive : 0 < d.window)
    (sees : Sees d now c) : 0 < c.nextDelay ∧ c.nextDelay ≤ d.window := by
  cases sees with
  | idle full => exact ⟨positive, Nat.le_refl _⟩
  | busy part => exact ⟨Nat.sub_pos_of_lt part, Nat.sub_le _ _⟩

end IdleDetector

/-! ## Watching -/

/-- A detector that watches a channel: when something happened last, and when its timer expires. -/
structure Watch where
  detector : IdleDetector
  now : Nat
  due : Nat

namespace Watch

open WatchEvent

/-- What can happen next: activity up to the time when the timer expires, also at this very time, or
a look at this time, after which the timer is set for what the look told. -/
inductive Step : Watch → WatchEvent → Watch → Prop
  | active {x : Watch} {m : WatchEvent} {time : Nat} (active : m.activity? = some time)
      (since : x.now ≤ time) (until_ : time ≤ x.due) :
      Step x m ⟨x.detector.note m, time, x.due⟩
  | look {x : Watch} {c : IdleCheck} (seen : x.detector.check x.due = some c) :
      Step x (.look x.due c.idle) ⟨x.detector, x.due, x.due + c.nextDelay⟩

/-- What can happen one after another. -/
inductive Run : Watch → List WatchEvent → Watch → Prop
  | nil {x : Watch} : Run x [] x
  | cons {x y z : Watch} {m : WatchEvent} {events : List WatchEvent} (head : Step x m y)
      (tail : Run y events z) : Run x (m :: events) z

theorem Run.append {x y z : Watch} {front back : List WatchEvent} (first : Run x front y)
    (second : Run y back z) : Run x (front ++ back) z := by
  induction first with
  | nil => exact second
  | cons head _ ih => exact .cons head (ih second)

/-- A run passes through every point of its events. -/
theorem Run.split {z : Watch} {front back : List WatchEvent} :
    ∀ {x : Watch}, Run x (front ++ back) z → ∃ y, Run x front y ∧ Run y back z := by
  induction front with
  | nil => intro x run; exact ⟨x, .nil, run⟩
  | cons m front ih =>
      intro x run
      cases run with
      | cons head tail =>
          obtain ⟨y, first, second⟩ := ih tail
          exact ⟨y, .cons head first, second⟩

/-- Where a watch with a window stands if the last activity was at a time. The timer expires at most
a window after what happened last. And it expires at most a window after the activity, or else whole
windows after it. -/
structure Abreast (w a : Nat) (x : Watch) : Prop where
  window : x.detector.window = w
  phase : x.detector.phase = .initialized
  last : x.detector.lastActivity = a
  past : a ≤ x.now
  ahead : x.now ≤ x.due
  near : x.due ≤ x.now + w
  due : x.due ≤ a + w ∨ ∃ k, x.due = a + k * w

variable {w a : Nat} {x y : Watch} {m : WatchEvent}

/-- A look finds the channel idle whole windows after the last activity and at no other time. -/
theorem Abreast.idle_iff (abreast : Abreast w a x) (positive : 0 < w) {c : IdleCheck}
    (seen : x.detector.check x.due = some c) :
    c.idle = true ↔ ∃ k, 1 ≤ k ∧ x.due = a + k * w := by
  obtain ⟨window, -, last, -, -, -, due⟩ := abreast
  obtain ⟨-, sees⟩ := IdleDetector.sees_of_check seen
  cases sees with
  | idle full =>
      refine ⟨fun _ => ?_, fun _ => rfl⟩
      rw [window, last] at full
      rcases due with near | ⟨k, whole⟩
      · exact ⟨1, Nat.le_refl 1, by omega⟩
      · refine ⟨k, ?_, whole⟩
        cases k with
        | zero => omega
        | succ k => exact Nat.succ_pos k
  | busy part =>
      refine ⟨nofun, ?_⟩
      rintro ⟨k, some, whole⟩
      have window_le : w ≤ k * w := Nat.le_mul_of_pos_left w some
      rw [window, last] at part
      omega

/-- Activity is the last thing that happened. -/
theorem lastActivity_note {d : IdleDetector} {time : Nat} (active : m.activity? = some time)
    (since : d.lastActivity ≤ time) : (d.note m).lastActivity = time := by
  have both : d.lastRead ≤ time ∧ d.lastWrite ≤ time := Nat.max_le.mp since
  cases m with
  | read t =>
      cases active
      exact Nat.max_eq_left both.2
  | write t =>
      cases active
      exact Nat.max_eq_right both.1
  | look t idle => exact nomatch active

/-- Activity changes neither the window nor the phase of a detector. -/
theorem note_window_phase (d : IdleDetector) (m : WatchEvent) :
    (d.note m).window = d.window ∧ (d.note m).phase = d.phase := by
  cases m <;> exact ⟨rfl, rfl⟩

/-- One step keeps a watch abreast of the last activity. -/
theorem Abreast.step (abreast : Abreast w a x) (positive : 0 < w) (step : Step x m y) :
    Abreast w (lastOf a [m]) y := by
  cases step with
  | @active _ time active since until_ =>
      obtain ⟨window, phase, last, past, ahead, near, -⟩ := abreast
      obtain ⟨window', phase'⟩ := note_window_phase x.detector m
      rw [lastOf_cons_of_activity active, lastOf_nil]
      exact {
        window := window'.trans window
        phase := phase'.trans phase
        last := lastActivity_note active (last ▸ Nat.le_trans past since)
        past := Nat.le_refl time
        ahead := until_
        near := Nat.le_trans near (Nat.add_le_add_right since w)
        due := .inl (Nat.le_trans near (Nat.add_le_add_right since w)) }
  | @look c seen =>
      have found := abreast.idle_iff positive seen
      obtain ⟨window, phase, last, past, ahead, near, -⟩ := abreast
      obtain ⟨-, sees⟩ := IdleDetector.sees_of_check seen
      obtain ⟨-, short⟩ := IdleDetector.nextDelay_of_sees (window ▸ positive) sees
      rw [window] at short
      rw [lastOf_cons_look, lastOf_nil]
      have past' : a ≤ x.due := Nat.le_trans past ahead
      refine ⟨window, phase, last, past', Nat.le_add_right _ _, Nat.add_le_add_left short _, ?_⟩
      cases sees with
      | idle full =>
          -- the next expiry is one more window after the activity
          obtain ⟨k, -, whole⟩ := found.mp rfl
          refine .inr ⟨k + 1, ?_⟩
          show x.due + x.detector.window = a + (k + 1) * w
          rw [whole, window, Nat.succ_mul, Nat.add_assoc]
      | busy part =>
          rw [window, last] at part
          refine .inl ?_
          show x.due + (x.detector.window - (x.due - x.detector.lastActivity)) ≤ a + w
          rw [window, last]
          omega

theorem Abreast.run {events : List WatchEvent} (positive : 0 < w) :
    ∀ {x : Watch} {a : Nat}, Abreast w a x → Run x events y →
      Abreast w (lastOf a events) y := by
  induction events with
  | nil =>
      intro x a abreast run
      cases run
      exact abreast
  | cons m rest ih =>
      intro x a abreast run
      cases run with
      | cons head tail =>
          have next := ih (abreast.step positive head) tail
          cases active : m.activity? with
          | some time =>
              rw [lastOf_cons_of_activity active] at next ⊢
              exact next
          | none =>
              cases m with
              | look time idle => exact next
              | _ => exact nomatch active

/-! ## Silence -/

/-- The only thing that can happen in silence is a look at the time when the timer expires. -/
theorem Step.of_silent (step : Step x m y) (silent : m.activity? = none) :
    ∃ c, x.detector.check x.due = some c ∧ m = .look x.due c.idle ∧
      y = ⟨x.detector, x.due, x.due + c.nextDelay⟩ := by
  cases step with
  | active active _ _ => exact nomatch silent.symm.trans active
  | @look c seen => exact ⟨c, seen, rfl, rfl⟩

/-- If the timer expires whole windows after the last activity, then in silence the channel is found
idle at this time and every window later. -/
theorem Abreast.reports_of_whole {events : List WatchEvent} (positive : 0 < w) :
    ∀ {x : Watch} {k : Nat}, Abreast w a x → x.due = a + (k + 1) * w → Run x events y →
      Silent events →
      reports events = (List.range' (k + 1) events.length).map fun k => a + k * w := by
  induction events with
  | nil => intro x k _ _ _ _; rfl
  | cons m rest ih =>
      intro x k abreast whole run silent
      obtain ⟨quiet, silent'⟩ := List.forall_mem_cons.mp silent
      cases run with
      | @cons _ z _ _ _ head tail =>
          have next := abreast.step positive head
          obtain ⟨c, seen, rfl, rfl⟩ := head.of_silent quiet
          have idle : c.idle = true :=
            (abreast.idle_iff positive seen).mpr ⟨k + 1, Nat.succ_pos k, whole⟩
          have delay : c.nextDelay = w := by
            obtain ⟨-, sees⟩ := IdleDetector.sees_of_check seen
            cases sees with
            | idle full => exact abreast.window
            | busy part => exact nomatch idle
          -- so the timer is set to the next whole window, as the induction asks
          have whole' : x.due + c.nextDelay = a + (k + 1 + 1) * w := by
            rw [whole, delay, Nat.succ_mul (k + 1), Nat.add_assoc]
          rw [lastOf_cons_look, lastOf_nil] at next
          rw [idle, reports_cons_idle, ih next whole' tail silent', whole]
          rfl

/-- In silence after an activity the channel is found idle a window after it and every window
later. -/
theorem Abreast.paced_of_near {events : List WatchEvent} (positive : 0 < w) {x : Watch}
    (abreast : Abreast w a x) (near : x.due ≤ a + w) (run : Run x events y)
    (silent : Silent events) : Paced w a events := by
  by_cases whole : x.due = a + (0 + 1) * w
  · exact ⟨events.length, Nat.le_succ _, abreast.reports_of_whole positive whole run silent⟩
  cases run with
  | nil => exact ⟨0, Nat.zero_le _, rfl⟩
  | @cons _ _ _ m rest head tail =>
      obtain ⟨quiet, silent'⟩ := List.forall_mem_cons.mp silent
      have next := abreast.step positive head
      obtain ⟨c, seen, rfl, rfl⟩ := head.of_silent quiet
      rw [lastOf_cons_look, lastOf_nil] at next
      -- the look is early, so it does not find the channel idle and waits for the rest
      obtain ⟨-, sees⟩ := IdleDetector.sees_of_check seen
      cases sees with
      | idle full =>
          rw [abreast.window, abreast.last] at full
          omega
      | busy part =>
          rw [abreast.window, abreast.last] at part
          have past := Nat.le_trans abreast.past abreast.ahead
          have whole' : x.due + (x.detector.window - (x.due - x.detector.lastActivity))
              = a + (0 + 1) * w := by
            rw [abreast.window, abreast.last]
            omega
          refine ⟨rest.length, Nat.le_refl _, ?_⟩
          rw [reports_cons_busy]
          exact next.reports_of_whole positive whole' tail silent'

/-! ## Every activity is watched -/

/-- Reads and writes in the order of time, none before the time given. -/
def InOrder : Nat → List WatchEvent → Prop
  | _, [] => True
  | since, m :: rest => ∃ time, m.activity? = some time ∧ since ≤ time ∧ InOrder time rest

/-- A watch that expires goes on. -/
theorem Abreast.exists_look (abreast : Abreast w a x) (positive : 0 < w) :
    ∃ idle y, Step x (.look x.due idle) y ∧ y.now = x.due ∧ x.due < y.due := by
  obtain ⟨c, seen⟩ := IdleDetector.exists_check abreast.phase x.due
  obtain ⟨-, sees⟩ := IdleDetector.sees_of_check seen
  obtain ⟨more, -⟩ := IdleDetector.nextDelay_of_sees (abreast.window ▸ positive) sees
  exact ⟨c.idle, _, .look seen, rfl, Nat.lt_add_of_pos_right more⟩

/-- The timer expires as often as it takes to reach any time in silence. -/
theorem Abreast.exists_until (positive : 0 < w) (time : Nat) {x : Watch} (abreast : Abreast w a x)
    (since : x.now ≤ time) :
    ∃ events y, Run x events y ∧ Silent events ∧ y.now ≤ time ∧ time ≤ y.due := by
  by_cases soon : time ≤ x.due
  · exact ⟨[], x, .nil, fun m member => absurd member List.not_mem_nil, since, soon⟩
  obtain ⟨idle, z, step, now, later⟩ := abreast.exists_look positive
  have reached : z.now ≤ time := by
    rw [now]
    exact Nat.le_of_not_le soon
  obtain ⟨events, y, run, silent, past, ahead⟩ :=
    (abreast.step positive step).exists_until positive time reached
  exact ⟨_, y, .cons step run, List.forall_mem_cons.mpr ⟨rfl, silent⟩, past, ahead⟩
termination_by time - x.due

/-- The reads and writes among some events. -/
def activities (events : List WatchEvent) : List WatchEvent :=
  events.filter fun m => m.activity?.isSome

theorem activities_append (front back : List WatchEvent) :
    activities (front ++ back) = activities front ++ activities back := List.filter_append ..

theorem activities_cons {time : Nat} (active : m.activity? = some time) (rest : List WatchEvent) :
    activities (m :: rest) = m :: activities rest := by
  have kept : m.activity?.isSome = true := by rw [active]; rfl
  exact List.filter_cons_of_pos kept

theorem activities_of_silent {events : List WatchEvent} (silent : Silent events) :
    activities events = [] := by
  rw [activities, List.filter_eq_nil_iff]
  intro m member
  rw [silent m member]
  decide

/-- Whatever is read and written, there is a run in which it is. -/
theorem Abreast.exists_run (positive : 0 < w) {acts : List WatchEvent} :
    ∀ {x : Watch} {a : Nat}, Abreast w a x → InOrder x.now acts →
      ∃ events y, Run x events y ∧ activities events = acts := by
  induction acts with
  | nil => intro x a _ _; exact ⟨[], x, .nil, rfl⟩
  | cons m rest ih =>
      intro x a abreast order
      obtain ⟨time, active, since, order'⟩ := order
      obtain ⟨idle, y, run, silent, past, ahead⟩ := abreast.exists_until positive time since
      have step : Step y m ⟨y.detector.note m, time, y.due⟩ := .active active past ahead
      obtain ⟨later, z, run', same⟩ := ih ((abreast.run positive run).step positive step) order'
      refine ⟨idle ++ m :: later, z, run.append (.cons step run'), ?_⟩
      rw [activities_append, activities_of_silent silent, activities_cons active, same]
      rfl

/-- A detector that is started at a time, with its timer set for what it told. -/
def ofStart (d : IdleDetector) (time : Nat) : Watch :=
  ⟨(d.start time).2, time, time + (d.start time).1.getD 0⟩

/-- A detector that was just started is abreast with its start. -/
theorem abreast_ofStart {d : IdleDetector} (positive : 0 < d.window)
    (fresh : d.phase = .uninitialized) (time : Nat) :
    Abreast d.window time (ofStart d time) := by
  have started : d.start time = (some d.window,
      { d with phase := .initialized, lastRead := time, lastWrite := time }) := by
    rw [IdleDetector.start, if_pos fresh, if_neg (Nat.ne_of_gt positive)]
  rw [ofStart, started]
  exact {
    window := rfl
    phase := rfl
    last := Nat.max_self time
    past := Nat.le_refl time
    ahead := Nat.le_add_right ..
    near := Nat.le_refl _
    due := .inl (Nat.le_refl _) }

end Watch

/-! ## Arbitrary calls -/

/-- What can be asked of a detector, at any time and in any order. -/
inductive DetectorCall where
  | start (now : Nat)
  | read (now : Nat)
  | write (now : Nat)
  | check (now : Nat)
  | stop
  deriving DecidableEq

namespace DetectorCall

/-- The time of a call that starts the detector. -/
def start? : DetectorCall → Option Nat
  | start now => some now
  | _ => none

/-- The time of a read. -/
def read? : DetectorCall → Option Nat
  | read now => some now
  | _ => none

/-- The time of a write. -/
def write? : DetectorCall → Option Nat
  | write now => some now
  | _ => none

end DetectorCall

namespace IdlePhase

/-- The rank of a phase: uninitialized, initialized, destroyed. -/
def age : IdlePhase → Nat
  | uninitialized => 0
  | initialized => 1
  | destroyed => 2

end IdlePhase

namespace IdleDetector

open DetectorCall

/-- The detector after a call. -/
def call (d : IdleDetector) : DetectorCall → IdleDetector
  | .start now => (d.start now).2
  | .read now => d.recordRead now
  | .write now => d.recordWrite now
  | .check _ => d
  | .stop => d.stop

/-- The detector after some calls. -/
def callAll (d : IdleDetector) (calls : List DetectorCall) : IdleDetector := calls.foldl call d

/-- A call leaves the window as it is, and the phase of the detector does not go back. -/
theorem call_forward (d : IdleDetector) (e : DetectorCall) :
    (d.call e).window = d.window ∧ d.phase.age ≤ (d.call e).phase.age := by
  cases e with
  | start now =>
      show (d.start now).2.window = _ ∧ _ ≤ (d.start now).2.phase.age
      rw [start]
      split
      · rename_i fresh
        rw [fresh]
        exact ⟨rfl, Nat.zero_le _⟩
      · exact ⟨rfl, Nat.le_refl _⟩
  | read now => exact ⟨rfl, Nat.le_refl _⟩
  | write now => exact ⟨rfl, Nat.le_refl _⟩
  | check now => exact ⟨rfl, Nat.le_refl _⟩
  | stop =>
      refine ⟨rfl, ?_⟩
      show d.phase.age ≤ 2
      cases d.phase <;> decide

/-- Calls keep the window of a detector, and its phase never goes back. -/
theorem callAll_forward (calls : List DetectorCall) :
    ∀ d : IdleDetector, (d.callAll calls).window = d.window ∧
      d.phase.age ≤ (d.callAll calls).phase.age := by
  induction calls with
  | nil => intro d; exact ⟨rfl, Nat.le_refl _⟩
  | cons e rest ih =>
      intro d
      obtain ⟨window, older⟩ := call_forward d e
      obtain ⟨window', older'⟩ := ih (d.call e)
      exact ⟨window'.trans window, Nat.le_trans older older'⟩

/-- The last of what some calls tell begins with what the first of them tells. -/
theorem getLastD_filterMap_cons (f : DetectorCall → Option Nat) (e : DetectorCall)
    (rest : List DetectorCall) (before : Nat) :
    ((e :: rest).filterMap f).getLastD before =
      (rest.filterMap f).getLastD ((f e).getD before) := by
  rw [List.filterMap_cons]
  cases f e with
  | none => rfl
  | some time => exact List.getLastD_cons

/-- What a call does to a detector that was started. -/
theorem call_of_started {d : IdleDetector} (started : d.phase ≠ .uninitialized)
    (e : DetectorCall) :
    d.call e = {
      window := d.window
      phase := if e = .stop then .destroyed else d.phase
      lastRead := e.read?.getD d.lastRead
      lastWrite := e.write?.getD d.lastWrite } := by
  cases e with
  | start now => exact congrArg Prod.snd (if_neg started)
  | _ => rfl

/-- Once a detector was started, reads and writes move its two times and only a stop ends it. -/
theorem callAll_of_started {calls : List DetectorCall} :
    ∀ {d : IdleDetector}, d.phase ≠ .uninitialized →
      d.callAll calls = {
        window := d.window
        phase := if .stop ∈ calls then .destroyed else d.phase
        lastRead := (calls.filterMap read?).getLastD d.lastRead
        lastWrite := (calls.filterMap write?).getLastD d.lastWrite } := by
  induction calls with
  | nil => intro d _; rfl
  | cons e rest ih =>
      intro d started
      have called := call_of_started started e
      have started' : (d.call e).phase ≠ .uninitialized := by
        rw [called]
        dsimp only
        split
        · exact nofun
        · exact started
      show (d.call e).callAll rest = _
      rw [ih started', called, getLastD_filterMap_cons, getLastD_filterMap_cons]
      by_cases stops : e = .stop
      · simp [stops]
      · simp [stops, Ne.symm stops]

/-- With a stop a detector is destroyed for good, and before it the first start initializes it. -/
theorem phase_callAll (calls : List DetectorCall) (d : IdleDetector) :
    (d.callAll calls).phase =
      if .stop ∈ calls then .destroyed
      else if d.phase = .uninitialized ∧ ∃ e ∈ calls, e.start?.isSome then .initialized
      else d.phase := by
  by_cases fresh : d.phase = .uninitialized
  · induction calls generalizing d with
    | nil => simp [callAll]
    | cons e rest ih =>
        show ((d.call e).callAll rest).phase = _
        -- after a start or a stop the induction has done its work: the other half takes over
        cases e with
        | start now =>
            have begun : (d.call (.start now)).phase = .initialized := by
              show (d.start now).2.phase = .initialized
              rw [start, if_pos fresh]
            rw [callAll_of_started (begun ▸ nofun)]
            simp [begun, fresh, start?]
        | stop =>
            rw [callAll_of_started (show (d.call .stop).phase ≠ .uninitialized from nofun)]
            simp [call, stop]
        | _ =>
            refine (ih (d.call _) ?_).trans ?_
            · exact fresh
            · simp [call, recordRead, recordWrite, fresh, start?]
  · rw [callAll_of_started fresh]
    simp [fresh]

/-- The times that the detector goes by after it was started and called. -/
theorem callAll_start {d : IdleDetector} (fresh : d.phase = .uninitialized) (start : Nat)
    (calls : List DetectorCall) :
    (d.callAll (.start start :: calls)).window = d.window ∧
      (d.callAll (.start start :: calls)).lastActivity =
        max ((calls.filterMap read?).getLastD start) ((calls.filterMap write?).getLastD start) := by
  have begun : d.call (.start start) =
      { d with phase := .initialized, lastRead := start, lastWrite := start } := by
    show (d.start start).2 = _
    rw [IdleDetector.start, if_pos fresh]
  have after : d.callAll (.start start :: calls) = (d.call (.start start)).callAll calls := rfl
  have started : (d.call (.start start)).phase ≠ .uninitialized := by
    rw [begun]
    exact nofun
  rw [after, callAll_of_started started, begun]
  exact ⟨rfl, rfl⟩

/-! ## The promise -/

open WatchEvent Watch

/-- What a detector with a window does from the time at which it is started. -/
structure DetectsFrom (d : IdleDetector) (start : Nat) : Prop where
  /-- The first delay is the whole window. -/
  starts : (d.start start).1 = some d.window
  /-- In every run, a look finds the channel idle whole windows after the last activity and at no
  other time. -/
  exact : ∀ {before later : List WatchEvent} {time : Nat} {idle : Bool} {x : Watch},
    Run (ofStart d start) (before ++ .look time idle :: later) x →
      (idle = true ↔ ∃ k, 1 ≤ k ∧ time = lastOf start before + k * d.window)
  /-- In silence after an activity the channel is found idle a window later, then every window. -/
  paced : ∀ {before silent : List WatchEvent} {m : WatchEvent} {time : Nat} {x : Watch},
    m.activity? = some time → Silent silent →
    Run (ofStart d start) (before ++ m :: silent) x → Paced d.window time silent
  /-- So it is in silence after the start. -/
  paced_start : ∀ {silent : List WatchEvent} {x : Watch},
    Silent silent → Run (ofStart d start) silent x → Paced d.window start silent
  /-- The timer never expires for the last time. -/
  onward : ∀ {events : List WatchEvent} {x : Watch}, Run (ofStart d start) events x →
    ∃ idle y, Step x (.look x.due idle) y ∧ y.now = x.due ∧ x.due < y.due
  /-- Every reading and writing in the order of time is watched in some run. -/
  watches : ∀ {acts : List WatchEvent}, InOrder start acts →
    ∃ events x, Run (ofStart d start) events x ∧ activities events = acts
  /-- Whatever was called after the start, a check that finds the channel idle comes a window or
  more after the later of the last read and the last write. Every check tells a delay that is a part
  of the window, and after one that does not find the channel idle it ends a window after the last
  activity. -/
  checks : ∀ {calls : List DetectorCall} {now last : Nat} {c : IdleCheck},
    last = max ((calls.filterMap read?).getLastD start) ((calls.filterMap write?).getLastD start) →
    (d.callAll (.start start :: calls)).check now = some c →
      (c.idle = true → last + d.window ≤ now) ∧
      (0 < c.nextDelay ∧ c.nextDelay ≤ d.window) ∧
      (c.idle = false → last ≤ now → now + c.nextDelay = last + d.window)

/-- Calls never move the phase of a detector back, and tell the phase it is in. A start in another
phase than the first does nothing, and only in the second there is a `check`. -/
structure MovesForward (d : IdleDetector) : Prop where
  forward : ∀ calls : List DetectorCall, d.phase.age ≤ (d.callAll calls).phase.age
  phase : ∀ calls : List DetectorCall, (d.callAll calls).phase =
    if .stop ∈ calls then .destroyed
    else if d.phase = .uninitialized ∧ ∃ e ∈ calls, e.start?.isSome then .initialized
    else d.phase
  start_again : ∀ now, d.phase ≠ .uninitialized → d.start now = (none, d)
  check_iff : ∀ now, (d.check now).isSome ↔ d.phase = .initialized

/-- Whatever is called on a detector, its state goes one way only. -/
theorem movesForward (d : IdleDetector) : MovesForward d where
  forward calls := (callAll_forward calls d).2
  phase calls := phase_callAll calls d
  start_again now started := if_neg started
  check_iff now := by
    constructor
    · intro seen
      obtain ⟨c, found⟩ := Option.isSome_iff_exists.mp seen
      exact (sees_of_check found).1
    · intro phase
      obtain ⟨c, found⟩ := exists_check phase now
      rw [found]
      rfl

/-- A check after arbitrary calls. -/
theorem check_callAll {d : IdleDetector} {start now last : Nat} {calls : List DetectorCall}
    {c : IdleCheck} (positive : 0 < d.window) (fresh : d.phase = .uninitialized)
    (same : last =
      max ((calls.filterMap read?).getLastD start) ((calls.filterMap write?).getLastD start))
    (seen : (d.callAll (.start start :: calls)).check now = some c) :
    (c.idle = true → last + d.window ≤ now) ∧
      (0 < c.nextDelay ∧ c.nextDelay ≤ d.window) ∧
      (c.idle = false → last ≤ now → now + c.nextDelay = last + d.window) := by
  obtain ⟨window, activity⟩ := callAll_start fresh start calls
  rw [← same] at activity
  obtain ⟨-, sees⟩ := sees_of_check seen
  have delay := nextDelay_of_sees (window.symm ▸ positive) sees
  rw [window] at delay
  refine ⟨?_, delay, ?_⟩
  · intro idle
    cases sees with
    | idle full =>
        rw [window, activity] at full
        omega
    | busy part => exact nomatch idle
  · intro busy past
    cases sees with
    | idle full => exact nomatch busy
    | busy part =>
        rw [window, activity] at part
        show now + (_ - (now - _)) = _
        rw [window, activity]
        omega

/-- **Idle detection is neither early nor late**: from every start, a detector with a window reports
just the windows without activity (`DetectsFrom`), and no call moves its state back
(`MovesForward`). -/
theorem detects (d : IdleDetector) :
    MovesForward d ∧
      ∀ start, 0 < d.window → d.phase = .uninitialized → DetectsFrom d start := by
  refine ⟨movesForward d, ?_⟩
  intro start positive fresh
  have begin := abreast_ofStart positive fresh start
  constructor
  case starts =>
    rw [IdleDetector.start, if_pos fresh, if_neg (Nat.ne_of_gt positive)]
  -- the state before the look in question is abreast of the events so far
  case exact =>
    intro before later time idle x run
    obtain ⟨y, first, second⟩ := run.split
    cases second with
    | cons head tail =>
        cases head with
        | active active _ _ => exact nomatch active
        | look seen => exact (begin.run positive first).idle_iff positive seen
  case paced =>
    intro before silent m time x active quiet run
    obtain ⟨y, first, second⟩ := run.split
    cases second with
    | @cons _ z _ _ _ head tail =>
        have abreast := (begin.run positive first).step positive head
        rw [lastOf_cons_of_activity active, lastOf_nil] at abreast
        refine abreast.paced_of_near positive ?_ tail quiet
        cases head with
        | @active _ time' active' since until_ =>
            cases active.symm.trans active'
            exact abreast.near
        | look _ => exact nomatch active
  case paced_start =>
    intro silent x quiet run
    exact begin.paced_of_near positive begin.near run quiet
  case onward =>
    intro events x run
    exact (begin.run positive run).exists_look positive
  case watches =>
    intro acts order
    exact begin.exists_run positive order
  case checks =>
    intro calls now last c same seen
    exact check_callAll positive fresh same seen

/-- A read three quarters into the first window puts the first idle time off to three quarters into
the second. -/
theorem detects_read_in_window :
    Run (ofStart { window := 200 } 0) [.read 150, .look 200 false, .look 350 true, .look 550 true]
        ⟨⟨200, .initialized, 150, 0⟩, 550, 750⟩ ∧
      (true = true ↔ ∃ k, 1 ≤ k ∧ 350 = lastOf 0 [.read 150, .look 200 false] + k * 200) ∧
      Paced 200 150 [.look 200 false, .look 350 true, .look 550 true] := by
  have run : Run (ofStart { window := 200 } 0)
      [.read 150, .look 200 false, .look 350 true, .look 550 true]
      ⟨⟨200, .initialized, 150, 0⟩, 550, 750⟩ := by
    refine .cons (.active rfl (by decide) (by decide)) ?_
    refine .cons (.look (c := ⟨false, 150⟩) rfl) ?_
    refine .cons (.look (c := ⟨true, 200⟩) rfl) ?_
    exact .cons (.look (c := ⟨true, 200⟩) rfl) .nil
  have promise := (detects { window := 200 }).2 0 (by decide) rfl
  refine ⟨run, ?_, ?_⟩
  · have passes : Run (ofStart { window := 200 } 0)
        ([.read 150, .look 200 false] ++ .look 350 true :: [.look 550 true]) _ := run
    exact promise.exact passes
  · have silent : Silent [.look 200 false, .look 350 true, .look 550 true] := by decide
    have begins : Run (ofStart { window := 200 } 0) ([] ++ .read 150 :: _) _ := run
    exact promise.paced rfl silent begins

end IdleDetector

end PeerMessaging
