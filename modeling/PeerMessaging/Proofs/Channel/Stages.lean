import PeerMessaging.Proofs.Channel.Accounts

/-!
# What takes place in a stage

The journal of an operation tells its stages one after another, whether the operation has come to an
end or not. Each of them is the walk of one errand. The handlers that it finds are those at the
start of the operation, with the changes of all errands before it and in whatever states their own
hooks have left them by then; and whoever is called is one of them.
-/

namespace PeerMessaging.Pipeline

variable {W H : Type} {hooks : Hooks W H} {p q r : Pipeline W H}

/-- A stage takes place with the given handlers, whatever their states are by then. If it was put
off, it does what was put off. -/
structure Stage.Happens (hooks : Hooks W H) (l : Roster H) (stage : Stage H) : Prop where
  performs : ∃ m n : Pipeline W H, l.Kin hooks m.roster ∧
    Performs hooks stage.errand stage.calls stage.ending m n
  caused : ∀ d, stage.cause = some d → stage.errand = d.errand

/-- The stages of a journal take place one after another, beginning with the given handlers. -/
def Chronicle (hooks : Hooks W H) (l : Roster H) (journal : List (Stage H)) : Prop :=
  ∀ front stage back, journal = front ++ stage :: back →
    stage.Happens hooks ((front.map Stage.errand).foldl Roster.serve l)

namespace Chronicle

variable {l m : Roster H} {stage : Stage H} {journal : List (Stage H)}

theorem nil (hooks : Hooks W H) (l : Roster H) : Chronicle hooks l [] :=
  fun _ _ _ split => absurd split.symm (by simp)

theorem cons (happens : stage.Happens hooks l)
    (later : Chronicle hooks (l.serve stage.errand) journal) :
    Chronicle hooks l (stage :: journal) := by
  intro front stage' back split
  cases front with
  | nil =>
    obtain ⟨rfl, -⟩ := List.cons.inj split
    exact happens
  | cons first front =>
    obtain ⟨rfl, split'⟩ := List.cons.inj split
    exact later front stage' back split'

/-- A journal that is a chronicle of a roster is one of any roster that is kin. -/
theorem of_kin (kin : l.Kin hooks m) (chronicle : Chronicle hooks m journal) :
    Chronicle hooks l journal := by
  intro front stage back split
  obtain ⟨⟨m', n, kin', performs⟩, caused⟩ := chronicle front stage back split
  exact ⟨⟨m', n, (kin.serveAll _).trans kin', performs⟩, caused⟩

end Chronicle

/-- An errand that is done comes first in a chronicle. -/
theorem Performs.chronicle {errand : Errand H} {calls : List Call} {ending : Ending}
    {cause : Option Deferred} {journal : List (Stage H)}
    (performs : Performs hooks errand calls ending p q)
    (caused : ∀ d, cause = some d → errand = d.errand)
    (later : Chronicle hooks q.roster journal) :
    Chronicle hooks p.roster (⟨cause, errand, calls, ending⟩ :: journal) :=
  .cons ⟨⟨p, q, .refl hooks _, performs⟩, caused⟩ (later.of_kin performs.roster)

/-- The stages of a drain come first in a chronicle. -/
theorem Working.chronicle {stages journal : List (Stage H)} (working : Working hooks stages p q)
    (later : Chronicle hooks q.roster journal) : Chronicle hooks p.roster (stages ++ journal) := by
  induction working with
  | pause => exact later
  | next _ performs _ ih =>
    refine performs.chronicle (fun d same => ?_) (ih later)
    cases same
    rfl

/-- The journal of errands that are under way is a chronicle. -/
theorem Underway.chronicle {errands : List (Errand H)} {journal : List (Stage H)}
    (underway : Underway hooks errands journal p q) : Chronicle hooks p.roster journal := by
  induction underway with
  | pause => exact .nil hooks _
  | amid performs working =>
    have stages := working.chronicle (.nil hooks _)
    rw [List.append_nil] at stages
    exact performs.chronicle (fun _ same => nomatch same) stages
  | next performs drains _ ih =>
    exact performs.chronicle (fun _ same => nomatch same) (drains.working.chronicle ih)

/-! ## Who is there -/

/-- The handlers at the start of a walk are those that its errand leaves, unless one goes. -/
theorem begun_entries (p : Pipeline W H) {errand : Errand H}
    (stays : ∀ place, errand ≠ .leave place) :
    (p.begun errand).entries = (p.roster.serve errand).entries := by
  cases errand with
  | leave place => exact absurd rfl (stays place)
  | _ => rfl

end PeerMessaging.Pipeline
