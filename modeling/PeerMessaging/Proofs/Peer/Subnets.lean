import PeerMessaging.Peer.Admission

/-!
# Who lies in one subnet

A filter masks addresses and compares what is left as words, long addresses in two halves. What it
compares that way are leading bits, and nothing else: as many as it says for the family, over the
border between the halves too. So a candidate is refused if and only if some known peer is of its
family and shares these bits.

How the known peers are listed does not matter then, and neither does the place that the candidate
is for. More peers can only refuse more, and so can a shorter subnet.
-/

namespace PeerMessaging

/-! ## Leading bits of a word -/

/-- Two words have the same leading `n` bits. -/
def SameLead {w : Nat} (n : Nat) (a b : BitVec w) : Prop := ∀ i < n, a.getMsbD i = b.getMsbD i

theorem sameLead_all_iff {w : Nat} {a b : BitVec w} : SameLead w a b ↔ a = b :=
  ⟨BitVec.eq_of_getMsbD_eq, fun same _ _ => same ▸ rfl⟩

/-- Masking leaves the leading bits. -/
theorem getMsbD_masked {w n : Nat} (fits : n ≤ w) (bits : BitVec w) (i : Nat) :
    (bits &&& (BitVec.allOnes w <<< (w - n))).getMsbD i = (bits.getMsbD i && decide (i < n)) := by
  have shifted : i + (w - n) < w ↔ i < n := by omega
  rw [BitVec.getMsbD_and, BitVec.getMsbD_shiftLeft, BitVec.getMsbD_allOnes,
    decide_eq_decide.mpr shifted]

/-- Two words masked to their leading bits are the same exactly if they agree in these bits. -/
theorem masked_eq_iff {w n : Nat} (fits : n ≤ w) {a b : BitVec w} :
    a &&& (BitVec.allOnes w <<< (w - n)) = b &&& (BitVec.allOnes w <<< (w - n)) ↔
      SameLead n a b := by
  constructor
  · intro same i inside
    have bit := congrArg (fun v => v.getMsbD i) same
    simpa only [getMsbD_masked fits, decide_eq_true inside, Bool.and_true] using bit
  · intro lead
    refine BitVec.eq_of_getMsbD_eq fun i _ => ?_
    rw [getMsbD_masked fits, getMsbD_masked fits]
    by_cases inside : i < n
    · rw [lead i inside]
    · rw [decide_eq_false inside, Bool.and_false, Bool.and_false]

/-- A word of which all bits are kept is left as it is, without a mask. -/
theorem kept_eq_iff {w n : Nat} (fits : n ≤ w) {a b : BitVec w} :
    (if n = w then a else a &&& (BitVec.allOnes w <<< (w - n))) =
      (if n = w then b else b &&& (BitVec.allOnes w <<< (w - n))) ↔ SameLead n a b := by
  by_cases all : n = w
  · subst all
    rw [if_pos rfl, if_pos rfl, sameLead_all_iff]
  · rw [if_neg all, if_neg all, masked_eq_iff fits]

theorem leading32_eq_iff {n : Nat} (fits : n ≤ 32) {a b : BitVec 32} :
    leading32 a n = leading32 b n ↔ SameLead n a b := kept_eq_iff fits

theorem leading64_eq_iff {n : Nat} (fits : n ≤ 64) {a b : BitVec 64} :
    leading64 a n = leading64 b n ↔ SameLead n a b := kept_eq_iff fits

/-! ## The two halves of a long address -/

theorem getMsbD_high (bits : BitVec 128) {i : Nat} (inside : i < 64) :
    (bits.extractLsb' 64 64).getMsbD i = bits.getMsbD i := by
  have within : 64 + 64 - i ≤ 128 := by omega
  have place : 128 - (64 + 64 - i) = i := by omega
  rw [BitVec.getMsbD_extractLsb', decide_eq_true inside, decide_eq_true within, place,
    Bool.true_and, Bool.true_and]

theorem getMsbD_low (bits : BitVec 128) {i : Nat} (inside : i < 64) :
    (bits.extractLsb' 0 64).getMsbD i = bits.getMsbD (64 + i) := by
  have within : 0 + 64 - i ≤ 128 := by omega
  have place : 128 - (0 + 64 - i) = 64 + i := by omega
  rw [BitVec.getMsbD_extractLsb', decide_eq_true inside, decide_eq_true within, place,
    Bool.true_and, Bool.true_and]

/-- Few leading bits lie in the high half. -/
theorem sameLead_high_iff {n : Nat} (few : n ≤ 64) {a b : BitVec 128} :
    SameLead n (a.extractLsb' 64 64) (b.extractLsb' 64 64) ↔ SameLead n a b := by
  refine forall_congr' fun i => imp_congr_right fun inside => ?_
  rw [getMsbD_high a (by omega), getMsbD_high b (by omega)]

/-- Many leading bits are the high half and those of the low one that are left. -/
theorem sameLead_halves_iff {n : Nat} (many : 64 ≤ n) (fits : n ≤ 128) {a b : BitVec 128} :
    (a.extractLsb' 64 64 = b.extractLsb' 64 64 ∧
      SameLead (n - 64) (a.extractLsb' 0 64) (b.extractLsb' 0 64)) ↔ SameLead n a b := by
  rw [← sameLead_all_iff, sameLead_high_iff (Nat.le_refl 64)]
  constructor
  · rintro ⟨high, low⟩ i inside
    by_cases first : i < 64
    · exact high i first
    · have bit := low (i - 64) (by omega)
      rw [getMsbD_low a (by omega), getMsbD_low b (by omega)] at bit
      rwa [Nat.add_sub_cancel' (Nat.le_of_not_lt first)] at bit
  · refine fun lead => ⟨fun i inside => lead i (by omega), fun i inside => ?_⟩
    rw [getMsbD_low a (by omega), getMsbD_low b (by omega)]
    exact lead (64 + i) (by omega)

/-- `leading128`, which works on halves, is the same of two words exactly if they agree in the
leading bits. -/
theorem leading128_eq_iff {n : Nat} (fits : n ≤ 128) {a b : BitVec 128} :
    leading128 a n = leading128 b n ↔ SameLead n a b := by
  rw [leading128, leading128]
  by_cases all : n = 128
  · subst all
    rw [if_pos rfl, if_pos rfl, Prod.mk.injEq, ← sameLead_halves_iff (by decide) (by decide),
      sameLead_all_iff]
  · rw [if_neg all, if_neg all]
    by_cases many : 64 ≤ n
    · rw [if_pos many, if_pos many, Prod.mk.injEq, ← sameLead_halves_iff many fits,
        leading64_eq_iff (by omega)]
    · rw [if_neg many, if_neg many, Prod.mk.injEq, ← sameLead_high_iff (by omega),
        leading64_eq_iff (by omega), and_iff_left rfl]

/-! ## Addresses -/

namespace IpAddress

/-- Both addresses are short or both are long. -/
def SameFamily : IpAddress → IpAddress → Prop
  | .v4 _, .v4 _ => True
  | .v6 _, .v6 _ => True
  | _, _ => False

/-- Two addresses of one family have the same leading `n` bits. -/
inductive Agree (n : Nat) : IpAddress → IpAddress → Prop
  | v4 {a b : BitVec 32} (lead : SameLead n a b) : Agree n (.v4 a) (.v4 b)
  | v6 {a b : BitVec 128} (lead : SameLead n a b) : Agree n (.v6 a) (.v6 b)

/-- Addresses that agree on a prefix agree on every shorter one. -/
theorem Agree.shorter {m n : Nat} {a b : IpAddress} (fewer : m ≤ n) (agree : a.Agree n b) :
    a.Agree m b := by
  cases agree with
  | v4 lead => exact .v4 fun i inside => lead i (Nat.lt_of_lt_of_le inside fewer)
  | v6 lead => exact .v6 fun i inside => lead i (Nat.lt_of_lt_of_le inside fewer)

/-- No leading bits are the same for all addresses of a family. -/
theorem agree_zero_iff {a b : IpAddress} : a.Agree 0 b ↔ a.SameFamily b := by
  constructor
  · rintro (_ | _) <;> exact trivial
  · intro same
    cases a <;> cases b
    · exact .v4 nofun
    · exact same.elim
    · exact same.elim
    · exact .v6 nofun

end IpAddress

/-! ## The filter -/

namespace SubnetFilter

/-- How many leading bits make the subnet of an address. -/
def lengthFor (f : SubnetFilter) : IpAddress → Nat
  | .v4 _ => f.bits4
  | .v6 _ => f.bits6

/-- `sameSubnet` holds exactly of addresses that agree on the prefix of their family. -/
theorem sameSubnet_eq_true_iff {f : SubnetFilter} {a b : IpAddress} :
    f.sameSubnet a b = true ↔ a.Agree (f.lengthFor a) b := by
  cases a <;> cases b
  · rw [sameSubnet, beq_iff_eq, eq_comm, leading32_eq_iff f.bits4_le]
    exact ⟨.v4, fun | .v4 lead => lead⟩
  · exact iff_of_false Bool.false_ne_true nofun
  · exact iff_of_false Bool.false_ne_true nofun
  · rw [sameSubnet, beq_iff_eq, eq_comm, leading128_eq_iff f.bits6_le]
    exact ⟨.v6, fun | .v6 lead => lead⟩

/-- A candidate is rejected exactly if some known peer agrees with it on the prefix. -/
theorem rejects_eq_true_iff {f : SubnetFilter} {candidate : PeerAddress}
    {known : List PeerAddress} {target : PeerId} :
    f.rejects candidate known target = true ↔
      ∃ peer ∈ known, candidate.ip.Agree (f.lengthFor candidate.ip) peer.ip := by
  simp only [rejects, List.any_eq_true, sameSubnet_eq_true_iff]

/-- A filter refuses just the candidates that share a subnet with a known peer, and what follows
from it. -/
structure Screens (f : SubnetFilter) : Prop where
  rejects_iff : ∀ candidate known target, f.rejects candidate known target = true ↔
    ∃ peer ∈ known, candidate.ip.Agree (f.lengthFor candidate.ip) peer.ip
  whole : ∀ candidate known target, f.lengthFor candidate.ip = 0 →
    (f.rejects candidate known target = true ↔
      ∃ peer ∈ known, candidate.ip.SameFamily peer.ip)
  members : ∀ candidate known known' target target', (∀ peer, peer ∈ known ↔ peer ∈ known') →
    f.rejects candidate known target = f.rejects candidate known' target'
  gains : ∀ candidate known known' target, known ⊆ known' →
    f.rejects candidate known target = true → f.rejects candidate known' target = true
  shorter : ∀ (g : SubnetFilter) candidate known target,
    g.lengthFor candidate.ip ≤ f.lengthFor candidate.ip →
      f.rejects candidate known target = true → g.rejects candidate known target = true

/-- **A candidate is refused exactly if it shares a subnet**: `make` gives a filter for all prefix
lengths that fit the families, and it `Screens` by the leading bits that the candidate has in common
with a known peer of its family. -/
theorem make_screens {bits4 bits6 : Nat} (fits4 : bits4 ≤ 32) (fits6 : bits6 ≤ 128) :
    ∃ f, make bits4 bits6 = .ok f ∧ f.bits4 = bits4 ∧ f.bits6 = bits6 ∧ f.Screens := by
  refine ⟨⟨bits4, bits6, fits4, fits6⟩, ?_, rfl, rfl, ?_⟩
  · rw [make, dif_pos fits4, dif_pos fits6]
  · refine {
      rejects_iff := fun _ _ _ => rejects_eq_true_iff
      whole := fun candidate known target none => ?_
      members := fun candidate known known' target target' same => ?_
      gains := fun candidate known known' target more refused => ?_
      shorter := fun g candidate known target fewer refused => ?_ }
    · rw [rejects_eq_true_iff, none]
      simp only [IpAddress.agree_zero_iff]
    · rw [Bool.eq_iff_iff, rejects_eq_true_iff, rejects_eq_true_iff]
      simp only [same]
    · obtain ⟨peer, member, agree⟩ := rejects_eq_true_iff.mp refused
      exact rejects_eq_true_iff.mpr ⟨peer, more member, agree⟩
    · obtain ⟨peer, member, agree⟩ := rejects_eq_true_iff.mp refused
      exact rejects_eq_true_iff.mpr ⟨peer, member, agree.shorter fewer⟩

/-- A peer of which only the internet address matters. -/
def peerAt (ip : IpAddress) : PeerAddress := { PeerAddress.unknown with ip := ip }

/-- A subnet that reaches past the high half of a long address: one known peer shares it, and one
differs in its last bit. -/
theorem make_screens_pastHalf :
    24 ≤ 32 ∧ 65 ≤ 128 ∧ ∃ f, make 24 65 = .ok f ∧ f.Screens ∧
      f.rejects (peerAt (.v6 (7 <<< 64))) [peerAt (.v4 7), peerAt (.v6 (7 <<< 64 + 5))] .zero
        = true ∧
      f.rejects (peerAt (.v6 (7 <<< 64))) [peerAt (.v6 (7 <<< 64 + 1 <<< 63))] .zero = false := by
  obtain ⟨f, made, -, -, screens⟩ := @make_screens 24 65 (by decide) (by decide)
  obtain rfl : ⟨24, 65, by decide, by decide⟩ = f := Except.ok.inj made
  exact ⟨by decide, by decide, _, made, screens, by decide, by decide⟩

end SubnetFilter

end PeerMessaging
