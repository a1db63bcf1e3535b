import PeerMessaging.Proofs.Message.Building
import PeerMessaging.Proofs.Message.Store
import PeerMessaging.Proofs.Wire.Signing

/-!
# The layout of a message

A message starts without content or comes out of a packet, whose reader adds the sections that it
reads one by one. Then sections are added, each with its value or only by its kind, and some of
them are refused. Whatever is done, the calls that were taken have filled the slots in their order:
each slot has the kind of its own call and a reference that counts the earlier slots of the family,
and where each call came with its value, the reference leads to just this value. A call is refused
for a reason that the layout shows, and changes nothing then.
-/

namespace PeerMessaging

open Reader

/-! ## What a call asks for -/

namespace Addition

/-- The kind that the addition asks a slot for. -/
def kind : Addition → ContentKind
  | .plain s => s.kind
  | .signed _ _ => .signedPublicKey
  | .foreign kind _ => kind
  | .announced kind => kind

/-- The value that the addition passes, if it passes any. -/
def value? : Addition → Option Value
  | .plain s => s.value?
  | .signed publicKey _ => some (.bytes publicKey)
  | .foreign _ data => some (.bytes data)
  | .announced _ => none

/-- Bytes of another layer come under a kind of another layer. -/
def Suits : Addition → Prop
  | .foreign kind _ => kind.isForeign = true
  | _ => True

/-- A section has the kind that its addition asks for. -/
theorem kind_of_section {a : Addition} {s : Section} (adds : a.section? = some s) :
    s.kind = a.kind := by
  cases a with
  | foreign kind data =>
      cases kind with
      | foreign k => obtain rfl := Option.some.inj adds; rfl
      | _ => cases adds
  | announced kind =>
      obtain rfl := Option.some.inj adds
      cases kind <;> rfl
  | _ => obtain rfl := Option.some.inj adds; rfl

/-- A section has the value that its addition passes. -/
theorem value_of_section {a : Addition} {s : Section} (adds : a.section? = some s) :
    s.value? = a.value? := by
  cases a with
  | foreign kind data =>
      cases kind with
      | foreign k => obtain rfl := Option.some.inj adds; rfl
      | _ => cases adds
  | announced kind =>
      obtain rfl := Option.some.inj adds
      cases kind <;> rfl
  | _ => obtain rfl := Option.some.inj adds; rfl

/-- Just the additions that suit their kind have a section. -/
theorem exists_section_iff {a : Addition} : (∃ s, a.section? = some s) ↔ a.Suits := by
  cases a with
  | foreign kind data =>
      cases kind with
      | foreign k => exact iff_of_true ⟨_, rfl⟩ rfl
      | _ => exact iff_of_false (fun ⟨_, h⟩ => nomatch h) Bool.false_ne_true
  | _ => exact iff_of_true ⟨_, rfl⟩ trivial

end Addition

/-- What the step adds, if it adds anything. -/
def Edit.addition? : Edit → Option Addition
  | .add addition => some addition
  | _ => none

/-- The number of slots before the first that is undefined. -/
def Slots.used (slots : Slots) : Nat := (slots.toList.takeWhile fun k => k ≠ .undefined).length

/-- Enters what calls ask for and pass, one after the other. -/
def Store.enterAll : List Addition → Store → Except StateFault Store
  | [], st => .ok st
  | a :: rest, st =>
    match st.enter a.kind a.value? with
    | .ok st => enterAll rest st
    | .error fault => .error fault

/-- One more call enters its kind and value behind the others. -/
theorem Store.enterAll_append {calls : List Addition} {a : Addition} {st' : Store} :
    ∀ {st : Store}, enterAll calls st = .ok st' →
      enterAll (calls ++ [a]) st = st'.enter a.kind a.value? := by
  induction calls with
  | nil =>
      intro st h
      obtain rfl := Except.ok.inj h
      rw [List.nil_append, enterAll]
      cases st.enter a.kind a.value? <;> rfl
  | cons b calls ih =>
      intro st h
      rw [enterAll] at h
      rw [List.cons_append, enterAll]
      cases entered : st.enter b.kind b.value? with
      | error fault => rw [entered] at h; cases h
      | ok next =>
          rw [entered] at h
          exact ih h

namespace Message

/-- The additions among some steps that are taken, in order. -/
def taken (m : Message) : List Edit → List Addition
  | [] => []
  | e :: rest =>
    match m.edit e with
    | (.ok (), next) => e.addition?.toList ++ next.taken rest
    | (.error _, next) => next.taken rest

/-! ## What the layout of a message shows -/

/-- The slots, the references and the separate places of a content are those of the calls that
filled it, in their order. -/
structure Laid (calls : List Addition) (c : Content) : Prop where
  fits : calls.length ≤ 8
  used : ∀ i (h : i < 8), i < calls.length → c.slots[i] ≠ .undefined
  unused : ∀ i (h : i < 8), calls.length ≤ i → c.slots[i] = .undefined
  asked : ∀ i (h : i < 8) a, calls[i]? = some a → c.slots[i] = a.kind
  signedFirst : ∀ i (h : i < 8), c.slots[i] = .signedPublicKey → i = 0
  count : c.references.length = calls.length
  reference : ∀ i (h : i < 8), i < calls.length → c.references[i]?
    = some ⟨(c.slots.toList.take i).countP fun k => k.family = c.slots[i].family, c.slots[i]⟩
  kept : Store.enterAll calls {} = .ok (.ofContent c)

/-- Each family has as many values as slots, and each slot finds the value of its call. -/
structure Stocked (calls : List Addition) (c : Content) : Prop where
  count : ∀ k, k ≠ .empty → k ≠ .undefined →
    (c.values k).length = c.slots.toList.countP fun e => e.family = k.family
  found : ∀ (i : Nat) (a : Addition) (r : Reference), calls[i]? = some a →
    c.references[i]? = some r → r.kind ≠ .empty →
    ∃ v, a.value? = some v ∧ (c.values r.kind)[r.index]? = some v

/-- Whether a call is taken can be told from the slots, and a call that is not changes nothing. -/
structure Answered (m : Message) (a : Addition) : Prop where
  taken_iff : (∃ m', m.attach a = (.ok (), m')) ↔
    a.kind ≠ .undefined ∧ m.content.slots.used < 8 ∧
      (a.kind = .signedPublicKey → m.content.slots.used = 0) ∧ a.Suits
  refused : ∀ f m', m.attach a = (.error f, m') → (∃ fault, f = .state fault) ∧ m' = m

/-- What a message is before the first call: a new one, a reply, or what came out of a packet. -/
inductive Source (scheme : SignatureScheme) : Message → Prop
  | envelope {m : Message} : m.Envelope → Source scheme m
  | packet {m : Message} {p : Bytes} {origin destination : SocketAddress} {udp : Bool} :
    Packet.decode scheme p origin destination udp = .ok m → Source scheme m

end Message

/-! ## The calls of the reader -/

/-- Reads sections of the given kinds one after another. -/
def Section.readEach (scheme : SignatureScheme) : List ContentKind → Reader (List Section)
  | [] => pure []
  | k :: rest => do
    let s ← Section.reader scheme k
    let others ← readEach scheme rest
    return s :: others

/-- Reads the sections of a packet and nothing else of it. -/
def Packet.sectionsReader (scheme : SignatureScheme) (origin : SocketAddress) :
    Reader (List Section) := do
  let words ← wordsReader origin
  let _ ← relayAfter words.1
  Section.readEach scheme
    ((Slots.unpack (UInt32.ofNat words.2)).toList.takeWhile fun k => k ≠ .undefined)

/-- Behind a gap no section is read. -/
theorem Content.eq_of_run_gap {scheme : SignatureScheme} {ks : List ContentKind} :
    ∀ {c c' : Content} {b rest : Bytes}, (reader scheme true ks c).run b = .ok (c', rest) →
      c' = c ∧ b = rest := by
  induction ks with
  | nil =>
      intro c c' b rest h
      obtain ⟨rfl, rfl⟩ := run_pure_eq_ok.mp h
      exact ⟨rfl, rfl⟩
  | cons k ks ih =>
      intro c c' b rest h
      rw [reader] at h
      by_cases undefined : k = .undefined
      · rw [if_pos undefined] at h
        exact ih h
      · rw [if_neg undefined, if_pos rfl] at h
        exact absurd h run_malformed_ne_ok

/-- What the reader of a content adds are the sections that are read one after another. -/
theorem Content.run_readEach {scheme : SignatureScheme} {ks : List ContentKind} :
    ∀ {c c' : Content} {b rest : Bytes}, (reader scheme false ks c).run b = .ok (c', rest) →
      ∃ sections, c' = c ++ sections ∧
        (Section.readEach scheme (ks.takeWhile fun k => k ≠ .undefined)).run b
          = .ok (sections, rest) := by
  induction ks with
  | nil =>
      intro c c' b rest h
      obtain ⟨rfl, rfl⟩ := run_pure_eq_ok.mp h
      exact ⟨[], (List.append_nil c).symm, rfl⟩
  | cons k ks ih =>
      intro c c' b rest h
      rw [reader] at h
      by_cases undefined : k = .undefined
      · rw [if_pos undefined] at h
        obtain ⟨rfl, rfl⟩ := eq_of_run_gap h
        rw [List.takeWhile_cons_of_neg (by rw [decide_eq_true_eq]; exact not_not_intro undefined)]
        exact ⟨[], (List.append_nil c').symm, rfl⟩
      · rw [if_neg undefined, if_neg Bool.false_ne_true] at h
        obtain ⟨s, mid, first, next⟩ := run_bind_eq_ok.mp h
        obtain ⟨longer, mid', second, last⟩ := run_bind_eq_ok.mp next
        obtain ⟨appended, rfl⟩ := run_ofExcept_eq_ok.mp second
        obtain ⟨others, rfl, read⟩ := ih last
        -- the reader of a content appends each section, which leaves those before it as they are
        have grown : longer = c ++ [s] := by
          cases done : c.append s with
          | error fault => rw [done] at appended; cases appended
          | ok made =>
              rw [done] at appended
              obtain rfl : made = longer := Except.ok.inj appended
              exact (append_eq_ok_iff.mp done).2.symm
        subst grown
        refine ⟨s :: others, (List.append_cons ..).symm, ?_⟩
        rw [List.takeWhile_cons_of_pos (by rw [decide_eq_true_eq]; exact undefined)]
        exact run_bind_eq_ok.mpr ⟨s, mid, first, run_bind_pure_eq_ok.mpr ⟨others, read, rfl⟩⟩

namespace Packet

variable {scheme : SignatureScheme} {origin destination : SocketAddress} {udp : Bool}

/-- The content of a decoded message is the one that `unsignedReader` has read. -/
theorem run_of_decode {p : Bytes} {m : Message}
    (read : decode scheme p origin destination udp = .ok m) :
    ∃ m' rest, (unsignedReader scheme origin destination udp).run p = .ok (m', rest) ∧
      m.content = m'.content := by
  obtain ⟨m', rest, run, ⟨-, rfl, -⟩ | ⟨-, rfl, -⟩⟩ := decode_eq_ok_iff.mp read
  · exact ⟨m', rest, run, rfl⟩
  · exact ⟨m', rest, run, rfl⟩

/-- The content of a message that came out of a packet are the sections read there. -/
theorem run_sectionsReader {p : Bytes} {m : Message}
    (read : decode scheme p origin destination udp = .ok m) :
    ∃ rest, (sectionsReader scheme origin).run p = .ok (m.content, rest) := by
  obtain ⟨m', rest, run, same⟩ := run_of_decode read
  obtain ⟨words, mid, told, -, later⟩ := run_words_of_run run
  obtain ⟨relay, mid', passed, sections⟩ := run_bind_eq_ok.mp later
  obtain ⟨all, made, each⟩ := Content.run_readEach sections
  rw [List.nil_append] at made
  subst made
  rw [same]
  exact ⟨rest, run_bind_eq_ok.mpr ⟨words, mid, told, run_bind_eq_ok.mpr
    ⟨relay, mid', passed, each⟩⟩⟩

/-- A message that was decoded can be written. -/
theorem writable_of_decode {p : Bytes} {m : Message}
    (read : decode scheme p origin destination udp = .ok m) : m.Writable := by
  obtain ⟨m', rest, run, same⟩ := run_of_decode read
  have good := (spelled_unsigned scheme origin destination udp run).1
  exact ⟨same ▸ good.wellFormed, same ▸ fun s hs => (good.sections s hs).1.isComplete⟩

end Packet

/-! ## Calls fill the slots in order -/

namespace Message

/-- The content is what the calls have put there, and the separate places follow it. -/
structure Follows (calls : List Addition) (c : Content) : Prop where
  wellFormed : c.WellFormed
  sections : calls.map Addition.section? = c.map some
  kept : Store.enterAll calls {} = .ok (.ofContent c)

theorem follows_nil : Follows [] [] where
  wellFormed := Content.wellFormed_nil
  sections := rfl
  kept := congrArg Except.ok Store.ofContent_nil.symm

/-- One call that is taken fills one slot. -/
theorem Follows.append {calls : List Addition} {c c' : Content} (h : Follows calls c)
    {a : Addition} {s : Section} (adds : a.section? = some s) (appended : c.append s = .ok c') :
    Follows (calls ++ [a]) c' := by
  have longer := (Content.append_eq_ok_iff.mp appended).2
  refine ⟨h.wellFormed.of_append appended, ?_, ?_⟩
  · rw [← longer, List.map_append, List.map_append, h.sections]
    exact congrArg _ (congrArg ([·]) adds)
  · rw [Store.enterAll_append h.kept, ← Addition.kind_of_section adds,
      ← Addition.value_of_section adds, Store.enter_ofContent h.wellFormed, appended]
    rfl

/-- A call that is taken fills the next slot. -/
theorem Follows.attach {calls : List Addition} {m m' : Message} {a : Addition}
    (h : Follows calls m.content) (attached : m.attach a = (.ok (), m')) :
    Follows (calls ++ [a]) m'.content := by
  obtain ⟨s, adds, appended, -⟩ := attach_eq_ok attached
  exact h.append adds appended

/-- Sections that were read have been added one by one. -/
theorem Follows.sections_added {rest : Content} :
    ∀ {calls : List Addition} {c : Content}, Follows calls c →
      Content.WellFormed (c ++ rest) → Follows (calls ++ rest.map .plain) (c ++ rest) := by
  induction rest with
  | nil => intro calls c h _; rwa [List.map_nil, List.append_nil, List.append_nil]
  | cons s rest ih =>
      intro calls c h wellFormed
      rw [List.append_cons] at wellFormed
      rw [List.map_cons, List.append_cons, List.append_cons c]
      exact ih (h.append (a := .plain s) rfl wellFormed.left.append_eq_ok) wellFormed

/-- Whatever is done, the calls that were taken have filled the slots. -/
theorem follows_build {edits : List Edit} :
    ∀ {calls : List Addition} {m : Message}, Follows calls m.content →
      Follows (calls ++ m.taken edits) (m.build edits).content := by
  induction edits with
  | nil => intro calls m h; rwa [taken, List.append_nil]
  | cons e edits ih =>
      intro calls m h
      rw [taken, build]
      cases step : m.edit e with
      | mk result next =>
        cases result with
        | error f =>
            obtain rfl := edit_eq_error step
            exact ih h
        | ok done =>
            dsimp only
            rw [← List.append_assoc]
            refine ih ?_
            cases e with
            | add a => exact h.attach step
            | _ =>
                -- a header field was set
                obtain ⟨-, rfl⟩ := Prod.mk.inj step
                show Follows (calls ++ []) m.content
                rwa [List.append_nil]

/-- There are as many sections as calls that were taken. -/
theorem Follows.length_eq {calls : List Addition} {c : Content} (h : Follows calls c) :
    calls.length = c.length := by
  have length := congrArg List.length h.sections
  rwa [List.length_map, List.length_map] at length

/-- The call of a slot put the section there. -/
theorem Follows.section_of_call {calls : List Addition} {content : Content}
    (h : Follows calls content) {i : Nat} {a : Addition} (call : calls[i]? = some a) :
    ∃ s, content[i]? = some s ∧ a.section? = some s := by
  have at_ := congrArg (fun l => l[i]?) h.sections
  simp only [List.getElem?_map, call, Option.map_some] at at_
  cases put : content[i]? with
  | none => rw [put] at at_; cases at_
  | some s =>
      rw [put] at at_
      exact ⟨s, rfl, Option.some.inj at_⟩

/-- A slot has the kind of its section, and is undefined if there is none. -/
theorem getElem_slots {content : Content} {i : Nat} (h : i < 8) :
    content.slots[i] = ((content[i]?).map Section.kind).getD .undefined := by
  rw [Content.slots, Vector.getElem_ofFn, Content.kinds, List.getElem?_map]

/-- In well-formed content, as many slots are used as there are sections. -/
theorem used_slots {c : Content} (wellFormed : c.WellFormed) : c.slots.used = c.length := by
  have defined : ∀ k ∈ c.kinds, decide (k ≠ .undefined) = true := by
    intro k hk
    rw [decide_eq_true_eq]
    rintro rfl
    exact wellFormed.defined hk
  have stops : (List.replicate (Content.capacity - c.kinds.length)
      ContentKind.undefined).takeWhile (fun k => decide (k ≠ .undefined)) = [] := by
    cases Content.capacity - c.kinds.length <;> rfl
  rw [Slots.used, Content.slots_eq wellFormed.fits, List.takeWhile_append_of_pos defined, stops,
    List.append_nil, Content.kinds, List.length_map]

/-! ## The layout -/

/-- Content that follows some calls is laid out as the calls say. -/
theorem Follows.laid {calls : List Addition} {content : Content} (h : Follows calls content) :
    Laid calls content := by
  have length := h.length_eq
  have count : content.kinds.length = content.length := List.length_map ..
  have inside : ∀ {i : Nat}, i < calls.length → ∃ s, content[i]? = some s :=
    fun within => ⟨_, List.getElem?_eq_getElem (length ▸ within)⟩
  have front : ∀ {i : Nat}, i < calls.length →
      content.slots.toList.take i = content.kinds.take i := by
    intro i within
    rw [Content.slots_eq h.wellFormed.fits]
    exact List.take_append_of_le_length (count ▸ length ▸ Nat.le_of_lt within)
  refine ⟨?_, ?_, ?_, ?_, ?_, ?_, ?_, h.kept⟩
  · exact length ▸ count ▸ h.wellFormed.fits
  · intro i small within undefined
    obtain ⟨s, put⟩ := inside within
    rw [getElem_slots small, put, Option.map_some, Option.getD_some] at undefined
    exact h.wellFormed.defined (List.mem_map.mpr ⟨s, List.mem_of_getElem? put, undefined⟩)
  · intro i small behind
    rw [getElem_slots small, List.getElem?_eq_none (length ▸ behind)]
    rfl
  · intro i small a call
    obtain ⟨s, put, adds⟩ := h.section_of_call call
    rw [getElem_slots small, put]
    exact Addition.kind_of_section adds
  · intro i small signed
    -- behind the first slot the kind is that of a section of the tail, where no key can be
    cases i with
    | zero => rfl
    | succ i =>
        rw [getElem_slots small] at signed
        cases put : content[i + 1]? with
        | none => rw [put] at signed; cases signed
        | some s =>
            rw [put, Option.map_some, Option.getD_some] at signed
            refine absurd (List.mem_of_getElem? (i := i) ?_) h.wellFormed.signedFirst
            rw [List.getElem?_tail, Content.kinds, List.getElem?_map, put, ← signed]
            rfl
  · rw [Content.length_references, length]
  · intro i small within
    obtain ⟨s, put⟩ := inside within
    have kind : content.kinds[i]? = some content.slots[i] := by
      rw [Content.kinds, List.getElem?_map, getElem_slots small, put]
      rfl
    rw [Content.getElem?_references, kind, front within]
    rfl

/-- Complete content that follows some calls has a value for every slot, and it is the one of its
call. -/
theorem Follows.stocked {calls : List Addition} {c : Content} (h : Follows calls c)
    (complete : ∀ s ∈ c, s.isComplete) : Stocked calls c := by
  constructor
  · intro k valued used
    have unused : (List.replicate (Content.capacity - c.kinds.length)
        ContentKind.undefined).countP (fun e => e.family = k.family) = 0 := by
      rw [List.countP_eq_zero]
      intro e he same
      rw [decide_eq_true_eq, List.eq_of_mem_replicate he] at same
      exact used (Content.family_eq_undefined_iff.mp same.symm)
    rw [Content.values_eq, (Content.owns_valueFor valued).length_filterMap complete,
      Content.slots_eq h.wellFormed.fits, List.countP_append, unused, Nat.add_zero]
  · intro i a r call refers valued
    obtain ⟨s, put, adds⟩ := h.section_of_call call
    cases (Content.reference_of_slot put).symm.trans refers
    obtain ⟨v, own, found⟩ := Content.value_of_slot complete put valued
    rw [Addition.value_of_section adds] at own
    exact ⟨v, own, found⟩

/-- Whether a section can be attached is a matter of its kind and of the slots. -/
theorem exists_attach_iff {m : Message} {a : Addition} :
    (∃ m', m.attach a = (.ok (), m')) ↔
      ∃ s, a.section? = some s ∧ ∃ c', m.content.append s = .ok c' := by
  constructor
  · rintro ⟨m', attached⟩
    obtain ⟨s, adds, appended, -⟩ := attach_eq_ok attached
    exact ⟨s, adds, _, appended⟩
  · rintro ⟨s, adds, c', appended⟩
    have added : m.add s = (.ok (), { m with content := c' }) := by rw [add, appended]
    cases a with
    | signed publicKey signingKey =>
        obtain rfl := Option.some.inj adds
        rw [attach, addSigned, added]
        exact ⟨_, rfl⟩
    | foreign kind data =>
        cases kind with
        | foreign k => obtain rfl := Option.some.inj adds; exact ⟨_, added⟩
        | _ => cases adds
    | _ => obtain rfl := Option.some.inj adds; exact ⟨_, added⟩

/-- Whether a call is taken can be told from the slots, and a call that is refused changes nothing.
-/
theorem answered {m : Message} (wellFormed : m.content.WellFormed) (a : Addition) :
    Answered m a := by
  constructor
  · rw [exists_attach_iff, used_slots wellFormed, List.length_eq_zero_iff]
    constructor
    · rintro ⟨s, adds, c', appended⟩
      obtain ⟨⟨defined, fits, first⟩, -⟩ := Content.append_eq_ok_iff.mp appended
      rw [Addition.kind_of_section adds] at defined first
      exact ⟨defined, fits, first, Addition.exists_section_iff.mp ⟨s, adds⟩⟩
    · rintro ⟨defined, fits, first, suits⟩
      obtain ⟨s, adds⟩ := Addition.exists_section_iff.mpr suits
      rw [← Addition.kind_of_section adds] at defined first
      exact ⟨s, adds, _, Content.append_eq_ok_iff.mpr ⟨⟨defined, fits, first⟩, rfl⟩⟩
  · exact fun f m' refused => attach_eq_error refused

/-- The first calls: none for a new message or a reply, and the sections of a packet for a message
that came out of it. -/
structure FilledBy (scheme : SignatureScheme) (start : Message) (first : List Addition) :
    Prop where
  envelope : start.Envelope → first = []
  packet : ∀ p origin destination udp,
    Packet.decode scheme p origin destination udp = .ok start →
    ∃ sections rest, (Packet.sectionsReader scheme origin).run p = .ok (sections, rest) ∧
      first = sections.map .plain

/-- The sections that a message starts with fill its first slots. -/
theorem filledBy (scheme : SignatureScheme) (start : Message) :
    FilledBy scheme start (start.content.map .plain) where
  envelope := fun h => by cases h <;> rfl
  packet := fun p origin destination udp read => by
    obtain ⟨rest, run⟩ := Packet.run_sectionsReader read
    exact ⟨start.content, rest, run, rfl⟩

/-- A message can be written before any step, whether it is new, a reply or decoded. -/
theorem Source.writable {scheme : SignatureScheme} {start : Message}
    (source : Source scheme start) : start.Writable := by
  cases source with
  | envelope h => exact h.writable
  | packet read => exact Packet.writable_of_decode read

/-- A call that was taken is one of those that were made. -/
theorem mem_of_mem_taken {a : Addition} {edits : List Edit} :
    ∀ {m : Message}, a ∈ m.taken edits → .add a ∈ edits := by
  induction edits with
  | nil => intro m member; exact absurd member List.not_mem_nil
  | cons e edits ih =>
      intro m member
      rw [taken] at member
      split at member
      · rcases List.mem_append.mp member with first | later
        · cases e with
          | add a' =>
              obtain rfl := List.mem_singleton.mp first
              exact List.mem_cons_self
          | _ => exact absurd first List.not_mem_nil
        · exact List.mem_cons_of_mem _ (ih later)
      · exact List.mem_cons_of_mem _ (ih member)

/-- Each section was put there by its call. -/
theorem Follows.call_of_section {calls : List Addition} {c : Content} (h : Follows calls c)
    {s : Section} (hs : s ∈ c) : ∃ a ∈ calls, a.section? = some s := by
  have there : some s ∈ calls.map Addition.section? := by
    rw [h.sections]
    exact List.mem_map_of_mem hs
  exact List.mem_map.mp there

/-- The calls that made a message, of which those before the edits passed whole sections. -/
theorem follows_source {scheme : SignatureScheme} {start : Message} (source : Source scheme start)
    (edits : List Edit) :
    Follows (start.content.map .plain ++ start.taken edits) (start.build edits).content :=
  follows_build (follows_nil.sections_added source.writable.wellFormed)

/-- An empty section is never announced by a call that means what it says. -/
theorem not_announced_empty {scheme : SignatureScheme} {start : Message}
    (source : Source scheme start) {edits : List Edit}
    (genuine : ∀ a, .add a ∈ edits → a.isGenuine = true) :
    .announced .empty ∉ (start.build edits).content := by
  intro blank
  obtain ⟨a, member, adds⟩ := (follows_source source edits).call_of_section blank
  have honest : a.isGenuine = true := by
    rcases List.mem_append.mp member with first | later
    · obtain ⟨s, hs, rfl⟩ := List.mem_map.mp first
      exact source.writable.complete s hs
    · exact genuine a (mem_of_mem_taken later)
  exact a.ne_announced_empty honest adds rfl

/-- **The layout of a message is that of the calls that were taken**: slots and references are
`Laid` as the calls say, typed calls leave every slot `Stocked` with its own value, and each further
call is `Answered`. -/
theorem layout_build {scheme : SignatureScheme} {start : Message} (source : Source scheme start)
    (edits : List Edit) :
    ∃ first, FilledBy scheme start first ∧
      Laid (first ++ start.taken edits) (start.build edits).content ∧
      ((∀ e ∈ edits, e.isTyped) →
        Stocked (first ++ start.taken edits) (start.build edits).content) ∧
      ∀ a, Answered (start.build edits) a := by
  have read : Follows ([] ++ start.content.map .plain) ([] ++ start.content) :=
    follows_nil.sections_added source.writable.wellFormed
  have follows : Follows (_ ++ start.taken edits) (start.build edits).content :=
    follows_build read
  refine ⟨_, filledBy scheme start, follows.laid, fun typed => ?_, fun a => ?_⟩
  · exact follows.stocked (source.writable.build typed).complete
  · exact answered follows.wellFormed a

/-- Steps after a packet: a value, a signature that comes too late, bytes under a kind that is not
foreign, and a public key. -/
def laterEdits : List Edit :=
  [.add (.plain (.integer 5)), .add (.signed [1] [2]), .add (.foreign .buffer [3]),
    .add (.plain (.publicKey [4]))]

/-- Two of four steps after a packet with two sections are taken. -/
theorem layout_build_strayPacket :
    ∃ m, Packet.decode Ed25519.scheme Packet.strayPacket Packet.somewhere Packet.somewhere true
        = .ok m ∧
      m.taken laterEdits = [.plain (.integer 5), .plain (.publicKey [4])] ∧
      ∃ sections : List Section, sections.length = 2 ∧
        Stocked (sections.map .plain ++ m.taken laterEdits) (m.build laterEdits).content := by
  have known : (Packet.decode Ed25519.scheme Packet.strayPacket Packet.somewhere Packet.somewhere
      true).toOption.map (fun m => (m.taken laterEdits, m.content.length))
        = some ([.plain (.integer 5), .plain (.publicKey [4])], 2) := by decide +kernel
  cases read : Packet.decode Ed25519.scheme Packet.strayPacket Packet.somewhere
      Packet.somewhere true with
  | error f => rw [read] at known; cases known
  | ok m =>
      rw [read] at known
      obtain ⟨taken, length⟩ := Prod.mk.inj (Option.some.inj known)
      obtain ⟨first, filled, -, stocked, -⟩ := layout_build (.packet read) laterEdits
      obtain ⟨sections, rest, run, rfl⟩ := filled.packet _ _ _ _ read
      obtain ⟨rest', run'⟩ := Packet.run_sectionsReader read
      obtain ⟨rfl, -⟩ := Prod.mk.inj (Except.ok.inj (run.symm.trans run'))
      exact ⟨m, rfl, taken, _, length, stocked (by decide)⟩

end Message

end PeerMessaging
