import PeerMessaging.Config.Validation

/-!
# The limits of a connection

The words of the complaints about connecting state limits. The check compares the whole seconds of
an idle window and of the connect timeout with the longest ones, and so what it lets through goes
past the words by all that whole seconds leave out, which is less than one. The shortest timeout is
a whole number of milliseconds and compared with those, and there nothing is left out.

A complaint is due, and settings are within the limits, with some leeway past the longest spans: no
leeway is what the words say, and what whole seconds leave out is what is checked.
-/

namespace PeerMessaging

/-- `complainIf` complains of one thing, and only if its condition holds. -/
theorem mem_complainIf_iff {condition : Bool} {complaint k : Complaint} :
    k ∈ complainIf condition complaint ↔ condition = true ∧ k = complaint := by
  cases condition with
  | true => exact ⟨fun h => ⟨rfl, List.mem_singleton.mp h⟩, fun h => List.mem_singleton.mpr h.2⟩
  | false => exact ⟨nofun, nofun⟩

namespace Duration

variable {d : Duration} {n : Nat}

/-- The most that whole seconds leave out, in nanoseconds. -/
def fraction : Nat := 999999999

/-- The span is past a limit by less than a second. -/
def JustPast (d limit : Duration) : Prop :=
  limit.nanos < d.nanos ∧ d.nanos ≤ limit.nanos + fraction

theorem nanos_ofMillis (n : Nat) : (ofMillis n).nanos = n * 1000000 := rfl

theorem nanos_ofSeconds (n : Nat) : (ofSeconds n).nanos = n * 1000000000 := rfl

theorem isZero_eq_true_iff : d.isZero = true ↔ d.nanos = 0 := beq_iff_eq

/-- Whole seconds exceed a limit only where the span exceeds it by more than they leave out. -/
theorem lt_seconds_iff : n < d.seconds ↔ (ofSeconds n).nanos + fraction < d.nanos := by
  rw [seconds, nanos_ofSeconds, fraction]
  omega

/-- A span keeps a limit if it keeps it but for a fraction and is not just past it. -/
theorem le_iff_not_justPast {limit : Duration} :
    d.nanos ≤ limit.nanos ↔ d.nanos ≤ limit.nanos + fraction ∧ ¬ d.JustPast limit := by
  constructor
  · intro kept
    exact ⟨Nat.le_add_right_of_le kept, fun past => Nat.not_lt.mpr kept past.1⟩
  · rintro ⟨most, stays⟩
    exact Nat.not_lt.mp fun past => stays ⟨past, most⟩

/-- Whole milliseconds fall below a limit where the span does. -/
theorem millis_lt_iff : d.millis < n ↔ d.nanos < (ofMillis n).nanos := by
  rw [millis, nanos_ofMillis]
  omega

end Duration

open Duration

/-- The complaints that are due about how a node connects, with some nanoseconds of leeway past
the longest spans. -/
inductive Complaint.Due (leeway : Nat) (c : ConnectionSettings) : Complaint → Prop
  | version (large : 0xFFFFFF < c.version) : Due leeway c (.versionTooLarge c.version.toNat)
  | idleTcp (long : (ofSeconds 3600).nanos + leeway < c.idleTcp.nanos) : Due leeway c .longIdleTcp
  | idleUdp (long : (ofSeconds 3600).nanos + leeway < c.idleUdp.nanos) : Due leeway c .longIdleUdp
  | short (some : c.connectTimeout.nanos ≠ 0)
      (short : c.connectTimeout.nanos < (ofMillis 10).nanos) : Due leeway c .shortTimeout
  | long (long : (ofSeconds 300).nanos + leeway < c.connectTimeout.nanos) :
      Due leeway c .longTimeout

namespace ConnectionSettings

/-- The limits that the words of the complaints state, with some nanoseconds of leeway past the
longest spans. A timeout of zero is none. -/
structure Within (leeway : Nat) (c : ConnectionSettings) : Prop where
  version : c.version ≤ 0xFFFFFF
  idleTcp : c.idleTcp.nanos ≤ (ofSeconds 3600).nanos + leeway
  idleUdp : c.idleUdp.nanos ≤ (ofSeconds 3600).nanos + leeway
  connectTimeout : c.connectTimeout.nanos = 0 ∨
    (ofMillis 10).nanos ≤ c.connectTimeout.nanos ∧
      c.connectTimeout.nanos ≤ (ofSeconds 300).nanos + leeway

/-- Some span is past the longest one by less than a second. -/
def Overruns (c : ConnectionSettings) : Prop :=
  c.idleTcp.JustPast (ofSeconds 3600) ∨ c.idleUdp.JustPast (ofSeconds 3600) ∨
    c.connectTimeout.JustPast (ofSeconds 300)

variable {c : ConnectionSettings} {leeway : Nat} {k : Complaint}

/-- Settings are within the limits if no complaint is due. -/
theorem within_iff_not_due : c.Within leeway ↔ ∀ k : Complaint, ¬ k.Due leeway c := by
  constructor
  · intro within k due
    cases due with
    | version large => exact UInt32.not_lt.mpr within.version large
    | idleTcp long => exact Nat.not_lt.mpr within.idleTcp long
    | idleUdp long => exact Nat.not_lt.mpr within.idleUdp long
    | short some short =>
        rcases within.connectTimeout with none | ⟨least, -⟩
        · exact some none
        · exact Nat.not_lt.mpr least short
    | long long =>
        rcases within.connectTimeout with none | ⟨-, most⟩
        · rw [none] at long
          exact Nat.not_lt_zero _ long
        · exact Nat.not_lt.mpr most long
  · intro spared
    refine ⟨UInt32.not_lt.mp fun large => spared _ (.version large),
      Nat.not_lt.mp fun long => spared _ (.idleTcp long),
      Nat.not_lt.mp fun long => spared _ (.idleUdp long), ?_⟩
    rcases Nat.eq_zero_or_pos c.connectTimeout.nanos with none | some
    · exact .inl none
    · exact .inr ⟨Nat.not_lt.mp fun short => spared _ (.short (Nat.ne_of_gt some) short),
        Nat.not_lt.mp fun long => spared _ (.long long)⟩

/-- What is complained of in a timeout. One that is too short is not too long. -/
theorem mem_timeout_iff {d : Duration} :
    k ∈ (if !d.isZero && d.millis < 10 then [Complaint.shortTimeout]
        else complainIf (300 < d.seconds) .longTimeout)
      ↔ (d.nanos ≠ 0 ∧ d.nanos < (ofMillis 10).nanos) ∧ k = .shortTimeout ∨
        (ofSeconds 300).nanos + fraction < d.nanos ∧ k = .longTimeout := by
  have tooShort : (!d.isZero && decide (d.millis < 10)) = true
      ↔ d.nanos ≠ 0 ∧ d.nanos < (ofMillis 10).nanos := by
    rw [Bool.and_eq_true, Bool.not_eq_true', decide_eq_true_iff, millis_lt_iff,
      ← Bool.not_eq_true, isZero_eq_true_iff]
  rw [← tooShort]
  split
  · rename_i short
    have notLong : ¬ (ofSeconds 300).nanos + fraction < d.nanos := by
      have small := (tooShort.mp short).2
      rw [nanos_ofMillis] at small
      rw [nanos_ofSeconds]
      omega
    rw [List.mem_singleton, and_iff_right short, or_iff_left fun long => notLong long.1]
  · rename_i other
    rw [mem_complainIf_iff, decide_eq_true_iff, lt_seconds_iff,
      or_iff_right fun short => other short.1]

/-- The check complains of what is due with the leeway of whole seconds, and of nothing else. -/
theorem mem_complaints_iff : k ∈ c.complaints ↔ k.Due fraction c := by
  rw [complaints, List.mem_append, List.mem_append, List.mem_append, mem_timeout_iff]
  simp only [mem_complainIf_iff, decide_eq_true_iff, lt_seconds_iff]
  constructor
  · rintro (((⟨large, rfl⟩ | ⟨long, rfl⟩) | ⟨long, rfl⟩) | (⟨⟨some, short⟩, rfl⟩ | ⟨long, rfl⟩))
    · exact .version large
    · exact .idleTcp long
    · exact .idleUdp long
    · exact .short some short
    · exact .long long
  · rintro (large | long | long | ⟨some, short⟩ | long)
    · exact .inl (.inl (.inl ⟨large, rfl⟩))
    · exact .inl (.inl (.inr ⟨long, rfl⟩))
    · exact .inl (.inr ⟨long, rfl⟩)
    · exact .inr (.inl ⟨⟨some, short⟩, rfl⟩)
    · exact .inr (.inr ⟨long, rfl⟩)

/-- There is no complaint about connection settings exactly if they are `Within` the limits. -/
theorem complaints_eq_nil_iff : c.complaints = [] ↔ c.Within fraction := by
  rw [List.eq_nil_iff_forall_not_mem, within_iff_not_due]
  exact forall_congr' fun k => not_congr mem_complaints_iff

/-- Settings are within the limits without any leeway if they are with it and no span overruns. -/
theorem within_zero_iff : c.Within 0 ↔ c.Within fraction ∧ ¬ c.Overruns := by
  rw [Overruns, not_or, not_or]
  constructor
  · rintro ⟨version, idleTcp, idleUdp, timeout⟩
    obtain ⟨mostTcp, tcp⟩ := le_iff_not_justPast.mp idleTcp
    obtain ⟨mostUdp, udp⟩ := le_iff_not_justPast.mp idleUdp
    rcases timeout with none | ⟨least, most⟩
    · refine ⟨⟨version, mostTcp, mostUdp, .inl none⟩, tcp, udp, fun past => ?_⟩
      exact Nat.not_lt_zero _ (none ▸ past.1)
    · obtain ⟨most, stays⟩ := le_iff_not_justPast.mp most
      exact ⟨⟨version, mostTcp, mostUdp, .inr ⟨least, most⟩⟩, tcp, udp, stays⟩
  · rintro ⟨⟨version, idleTcp, idleUdp, timeout⟩, tcp, udp, stays⟩
    exact ⟨version, le_iff_not_justPast.mpr ⟨idleTcp, tcp⟩, le_iff_not_justPast.mpr ⟨idleUdp, udp⟩,
      timeout.imp_right fun kept => ⟨kept.1, le_iff_not_justPast.mpr ⟨kept.2, stays⟩⟩⟩

/-- **Connection settings are checked against the stated limits but for the last second.** Each
complaint is made where its limit is broken, by a second at least if it is that of a longest span
(`Due`); settings pass where all limits are kept up to that second (`Within fraction`); and they
keep the limits as stated if they pass and no span is past the longest one by less than a second
(`Overruns`). -/
theorem limits_checked (c : ConnectionSettings) :
    (∀ k : Complaint, k ∈ c.complaints ↔ k.Due fraction c) ∧
    (c.complaints = [] ↔ c.Within fraction) ∧
    (c.Within 0 ↔ c.complaints = [] ∧ ¬ c.Overruns) := by
  refine ⟨fun k => mem_complaints_iff, complaints_eq_nil_iff, ?_⟩
  rw [complaints_eq_nil_iff]
  exact within_zero_iff

/-- Both windows and the timeout are a millisecond too long. -/
def overlong : ConnectionSettings where
  idleTcp := .ofMillis 3600001
  idleUdp := .ofMillis 3600001
  connectTimeout := .ofMillis 300001

/-- Settings that break every limit on a longest span can pass: three complaints are due and none
is made. -/
theorem overlong_passes :
    overlong.complaints = [] ∧ ¬ overlong.Within 0 ∧ Complaint.longIdleTcp.Due 0 overlong ∧
      Complaint.longIdleUdp.Due 0 overlong ∧ Complaint.longTimeout.Due 0 overlong := by
  refine ⟨by decide, fun within => ?_, .idleTcp (by decide), .idleUdp (by decide),
    .long (by decide)⟩
  exact absurd within.idleTcp (by decide)

end ConnectionSettings

end PeerMessaging
