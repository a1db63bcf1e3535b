import PeerMessaging.Wire.Reader

/-!
# What readers take and give

Two questions are asked of a reader. Does it take certain bytes off the front of anything and
give a certain value for them? Then what a writer puts there is read back. And what was in
front, once it gave a value? The bytes may differ from those that a writer would put there, but
only in bits that mean nothing: these are told by a mask as long as the bytes, and a value is
*spelled* by bytes that become the written ones once the bits of the mask are cleared.

Both answers are put together along the steps of a reader.
-/

namespace PeerMessaging

namespace Bytes

/-- The bytes with all bits of a mask set to zero. -/
def clear (mask b : Bytes) : Bytes := List.zipWith (fun u x => x &&& ~~~u) mask b

/-- The mask of `n` bytes in which every bit means something. -/
def solid (n : Nat) : Bytes := List.replicate n 0

/-- No bit of a mask is set in the bytes. -/
def Avoids (mask b : Bytes) : Prop := ∀ i : Nat, mask.getD i 0 &&& b.getD i 0 = 0

/-- The bytes `front` are `written` as soon as the bits of the mask are cleared. -/
def Spells (mask front written : Bytes) : Prop :=
  front.length = mask.length ∧ clear mask front = written

@[simp] theorem length_solid (n : Nat) : (solid n).length = n := List.length_replicate

theorem solid_add (m n : Nat) : solid (m + n) = solid m ++ solid n :=
  List.replicate_append_replicate.symm

theorem flatMap_solid {α : Type} (write : α → Bytes) (list : List α) :
    list.flatMap (fun a => solid (write a).length) = solid (list.flatMap write).length := by
  induction list with
  | nil => rfl
  | cons a list ih => rw [List.flatMap_cons, List.flatMap_cons, ih, List.length_append, solid_add]

theorem length_flatMap_le {α : Type} {write : α → Bytes} {list : List α} {n : Nat}
    (each : ∀ a ∈ list, (write a).length ≤ n) :
    (list.flatMap write).length ≤ list.length * n := by
  induction list with
  | nil => exact Nat.zero_le _
  | cons a list ih =>
      have head := each a (List.mem_cons_self ..)
      have rest := ih fun c hc => each c (List.mem_cons_of_mem _ hc)
      rw [List.flatMap_cons, List.length_append, List.length_cons, Nat.add_mul]
      omega

/-- Spare bits are cleared stretch by stretch. -/
theorem clear_append {mask front : Bytes} (same : front.length = mask.length)
    (mask' front' : Bytes) :
    clear (mask ++ mask') (front ++ front') = clear mask front ++ clear mask' front' :=
  List.zipWith_append same.symm

/-- Without spare bits nothing is cleared. -/
theorem clear_solid (b : Bytes) : clear (solid b.length) b = b := by
  induction b with
  | nil => rfl
  | cons x rest ih =>
      show (x &&& ~~~0) :: clear (solid rest.length) rest = x :: rest
      rw [ih]
      simp

/-- A number of some bytes is one of as many bits. -/
theorem mod_bits {n k v : Nat} (small : v < 256 ^ n) (bits : 256 ^ n = 2 ^ k) : v % 2 ^ k = v := by
  rw [← bits]
  exact Nat.mod_eq_of_lt small

/-- What holds of the 256 bytes holds of a byte. -/
theorem forall_byte {P : UInt8 → Prop} (all : ∀ n : Fin 256, P (UInt8.ofNat n)) (x : UInt8) :
    P x := by
  have at_ := all ⟨x.toNat, x.toNat_lt⟩
  rwa [UInt8.ofNat_toNat] at at_

/-- A byte without the bits of a mask is the same once they are cleared. -/
theorem and_not_of_and_eq_zero {u x : UInt8} (h : u &&& x = 0) : x &&& ~~~u = x := by
  -- bit by bit
  have bits := congrArg UInt8.toBitVec h
  rw [UInt8.toBitVec_and] at bits
  apply UInt8.toBitVec_inj.mp
  rw [UInt8.toBitVec_and, UInt8.toBitVec_not]
  ext i hi
  have bit := congrArg (fun v : BitVec 8 => v[i]) bits
  simp only [BitVec.getElem_and] at bit
  simp only [BitVec.getElem_and, BitVec.getElem_not]
  cases hu : u.toBitVec[i] <;> cases hx : x.toBitVec[i] <;> simp_all

/-- Bytes that avoid the spare bits are not changed by clearing them. -/
theorem clear_of_avoids {mask b : Bytes} (same : b.length = mask.length) (avoids : Avoids mask b) :
    clear mask b = b := by
  refine List.ext_getElem (by simp [clear, same]) ?_
  intro i hi hb
  have none := avoids i
  rw [List.getD_eq_getElem?_getD, List.getD_eq_getElem?_getD,
    List.getElem?_eq_getElem (same ▸ hb), List.getElem?_eq_getElem hb] at none
  simp only [clear, List.getElem_zipWith]
  exact and_not_of_and_eq_zero none

namespace Spells

theorem solid {n : Nat} {front : Bytes} (h : front.length = n) :
    Spells (solid n) front front := by
  subst h
  exact ⟨(length_solid _).symm, clear_solid front⟩

/-- Without spare bits the bytes are those that are written. -/
theorem eq_of_solid {n : Nat} {front written : Bytes} (h : Spells (Bytes.solid n) front written) :
    front = written := by
  obtain ⟨width, rfl⟩ := h
  rw [length_solid] at width
  subst width
  exact (clear_solid front).symm

theorem append {mask front written mask' front' written' : Bytes} (h : Spells mask front written)
    (h' : Spells mask' front' written') :
    Spells (mask ++ mask') (front ++ front') (written ++ written') := by
  obtain ⟨same, rfl⟩ := h
  obtain ⟨same', rfl⟩ := h'
  exact ⟨by rw [List.length_append, List.length_append, same, same'], clear_append same _ _⟩

theorem nil : Spells [] [] [] := ⟨rfl, rfl⟩

theorem cons (u x : UInt8) {mask front written : Bytes} (h : Spells mask front written) :
    Spells (u :: mask) (x :: front) ((x &&& ~~~u) :: written) := by
  obtain ⟨same, rfl⟩ := h
  exact ⟨congrArg (· + 1) same, rfl⟩

theorem length_eq {mask front written : Bytes} (h : Spells mask front written) :
    written.length = front.length := by
  obtain ⟨same, rfl⟩ := h
  rw [clear, List.length_zipWith, same, Nat.min_self]

/-- Only one spelling leaves all bits of the mask clear. -/
theorem eq_of_avoids {mask front written : Bytes} (h : Spells mask front written)
    (avoids : Avoids mask front) : front = written := by
  rw [← h.2, clear_of_avoids h.1 avoids]

end Spells

end Bytes

namespace Reader

variable {α β : Type}

/-- The reader takes `front` off whatever follows it, and gives a value. -/
def Reads (r : Reader α) (front : Bytes) (a : α) : Prop :=
  ∀ rest, r.run (front ++ rest) = .ok (a, rest)

/-- Whatever the reader takes spells the value that it gives, and the value is a good one. -/
def Spelled (r : Reader α) (good : α → Prop) (mask written : α → Bytes) : Prop :=
  ∀ ⦃b a rest⦄, r.run b = .ok (a, rest) →
    good a ∧ ∃ front, b = front ++ rest ∧ Bytes.Spells (mask a) front (written a)

/-! ## Steps that succeed -/

/-- Two readers, one after the other, read what the first reads and then what the second reads. -/
theorem run_bind_eq_ok {r : Reader α} {f : α → Reader β} {b rest : Bytes} {c : β} :
    (r >>= f).run b = .ok (c, rest) ↔
      ∃ a mid, r.run b = .ok (a, mid) ∧ (f a).run mid = .ok (c, rest) := by
  rw [run_bind]
  constructor
  · intro h
    cases first : r.run b with
    | error e => rw [first] at h; exact nomatch h
    | ok step =>
        obtain ⟨a, mid⟩ := step
        rw [first] at h
        exact ⟨a, mid, rfl, h⟩
  · rintro ⟨a, mid, first, second⟩
    rw [first]
    exact second

theorem run_pure_eq_ok {a c : α} {b rest : Bytes} :
    (pure a : Reader α).run b = .ok (c, rest) ↔ a = c ∧ b = rest := by
  rw [run_pure, Except.ok.injEq, Prod.mk.injEq]

/-- A last step that only makes a result reads nothing. -/
theorem run_bind_pure_eq_ok {r : Reader α} {f : α → β} {b rest : Bytes} {c : β} :
    (r >>= fun a => pure (f a)).run b = .ok (c, rest) ↔
      ∃ a, r.run b = .ok (a, rest) ∧ f a = c := by
  rw [run_bind_eq_ok]
  constructor
  · rintro ⟨a, mid, first, last⟩
    obtain ⟨rfl, rfl⟩ := run_pure_eq_ok.mp last
    exact ⟨a, first, rfl⟩
  · rintro ⟨a, first, rfl⟩
    exact ⟨a, rest, first, rfl⟩

theorem run_malformed_ne_ok {f : DecodeFault} {b rest : Bytes} {a : α} :
    (malformed f : Reader α).run b ≠ .ok (a, rest) := nofun

theorem run_ofExcept_eq_ok {e : Except Failure α} {b rest : Bytes} {a : α} :
    (ofExcept e).run b = .ok (a, rest) ↔ e = .ok a ∧ b = rest := by
  cases e with
  | error f => exact ⟨nofun, fun h => nomatch h.1⟩
  | ok c => rw [Except.ok.injEq]; exact run_pure_eq_ok

/-- `take n` reads the first `n` bytes. -/
theorem run_take_eq_ok {n : Nat} {b front rest : Bytes} :
    (take n).run b = .ok (front, rest) ↔ front.length = n ∧ b = front ++ rest := by
  constructor
  · intro h
    simp only [run, take] at h
    split at h
    · cases h
    · simp only [Except.ok.injEq, Prod.mk.injEq] at h
      obtain ⟨rfl, rfl⟩ := h
      exact ⟨by rw [List.length_take]; omega, (List.take_append_drop n b).symm⟩
  · rintro ⟨width, rfl⟩
    exact run_take_append width rest

/-- `word n` reads a number from its `n` bytes. -/
theorem run_word_eq_ok {n v : Nat} {b rest : Bytes} :
    (word n).run b = .ok (v, rest) ↔ v < 256 ^ n ∧ b = Bytes.ofNat n v ++ rest := by
  rw [word, run_bind_pure_eq_ok]
  simp only [run_take_eq_ok]
  constructor
  · rintro ⟨front, ⟨rfl, rfl⟩, rfl⟩
    exact ⟨Bytes.toNat_lt front, by rw [Bytes.ofNat_toNat]⟩
  · rintro ⟨small, rfl⟩
    exact ⟨_, ⟨Bytes.length_ofNat n v, rfl⟩, Bytes.toNat_ofNat_of_lt small⟩

/-! ## Reading what was written -/

theorem reads_pure (a : α) : (pure a : Reader α).Reads [] a := fun _ => rfl

/-- A first step that takes what it knows leaves the rest to the next one. -/
theorem Reads.run_step {r : Reader α} {front : Bytes} {a : α} (first : r.Reads front a)
    (f : α → Reader β) (rest : Bytes) : (r >>= f).run (front ++ rest) = (f a).run rest := by
  rw [run_bind, first]

/-- What two readers read back is read back by the one after the other. -/
theorem Reads.bind {r : Reader α} {f : α → Reader β} {front back : Bytes} {a : α} {c : β}
    (first : r.Reads front a) (second : (f a).Reads back c) :
    (r >>= f).Reads (front ++ back) c := by
  intro rest
  rw [List.append_assoc, first.run_step]
  exact second rest

/-- A last step that only computes. -/
theorem Reads.bind_pure {r : Reader α} {f : α → Reader β} {front : Bytes} {a : α} {c : β}
    (first : r.Reads front a) (last : f a = pure c) : (r >>= f).Reads front c := by
  intro rest
  rw [run_bind, first]
  show (f a).run rest = _
  rw [last]
  rfl

/-- `take` reads back as many bytes. -/
theorem reads_take {front : Bytes} {n : Nat} (width : front.length = n) :
    (take n).Reads front front := fun rest => run_take_append width rest

/-- `word` reads back a number that fits. -/
theorem reads_word {n v : Nat} (small : v < 256 ^ n) : (word n).Reads (Bytes.ofNat n v) v :=
  fun _ => run_word_eq_ok.mpr ⟨small, rfl⟩

/-- Reading again and again takes the bytes of one value after the other. -/
theorem reads_times {γ : Type} {r : Reader α} {write : γ → Bytes} {value : γ → α} :
    ∀ {list : List γ}, (∀ c ∈ list, r.Reads (write c) (value c)) →
      (times list.length r).Reads (list.flatMap write) (list.map value) := by
  intro list
  induction list with
  | nil => intro _; exact reads_pure []
  | cons c list ih =>
      intro each
      rw [List.flatMap_cons]
      refine Reads.bind (each c (List.mem_cons_self ..)) ?_
      exact Reads.bind_pure (ih fun d hd => each d (List.mem_cons_of_mem _ hd)) rfl

/-- Reading again and again gives values that are spelled one after the other. -/
theorem Spelled.times {r : Reader α} {good : α → Prop} {mask written : α → Bytes}
    (h : r.Spelled good mask written) :
    ∀ n, (times n r).Spelled (fun list => list.length = n ∧ ∀ a ∈ list, good a)
      (List.flatMap mask) (List.flatMap written) := by
  intro n
  induction n with
  | zero =>
      intro b list rest run
      obtain ⟨rfl, rfl⟩ := run_pure_eq_ok.mp run
      exact ⟨⟨rfl, fun a ha => nomatch ha⟩, [], rfl, Bytes.Spells.nil⟩
  | succ n ih =>
      intro b list rest run
      obtain ⟨a, mid, first, run⟩ := run_bind_eq_ok.mp run
      obtain ⟨others, mid', second, run⟩ := run_bind_eq_ok.mp run
      obtain ⟨rfl, rfl⟩ := run_pure_eq_ok.mp run
      obtain ⟨fine, front, rfl, spells⟩ := h first
      obtain ⟨⟨count, allFine⟩, back, rfl, spells'⟩ := ih second
      refine ⟨⟨by rw [List.length_cons, count], ?_⟩, front ++ back, ?_, spells.append spells'⟩
      · intro c hc
        rcases List.mem_cons.mp hc with rfl | hc
        · exact fine
        · exact allFine c hc
      · rw [List.append_assoc]

/-- A reader with one spelling for each value leaves no bit without a meaning. -/
theorem spelled_of_exact {r : Reader α} {write : α → Bytes}
    (exact : ∀ {b a rest}, r.run b = .ok (a, rest) → b = write a ++ rest) :
    r.Spelled (fun _ => True) (fun a => Bytes.solid (write a).length) write :=
  fun _ a _ h => ⟨trivial, write a, exact h, Bytes.Spells.solid rfl⟩

/-- Values with one spelling each have one spelling together. -/
theorem eq_of_run_times {r : Reader α} {write : α → Bytes}
    (exact : ∀ {b a rest}, r.run b = .ok (a, rest) → b = write a ++ rest) {n : Nat}
    {b rest : Bytes} {list : List α} (h : (times n r).run b = .ok (list, rest)) :
    list.length = n ∧ b = list.flatMap write ++ rest := by
  obtain ⟨⟨count, -⟩, front, rfl, spells⟩ := (spelled_of_exact exact).times n h
  rw [Bytes.flatMap_solid] at spells
  rw [spells.eq_of_solid]
  exact ⟨count, rfl⟩

end Reader

end PeerMessaging
