namespace CportNode

structure CportSet where
  bits : Nat
  /-- Only the bits of cports are set. -/
  bounded : ∀ n, bits.testBit n = true → n < UInt16.size
  deriving DecidableEq

namespace CportSet

instance : Membership UInt16 CportSet :=
  ⟨fun set c => set.bits.testBit c.toNat = true⟩

instance (c : UInt16) (set : CportSet) : Decidable (c ∈ set) :=
  inferInstanceAs (Decidable (set.bits.testBit c.toNat = true))

theorem mem_def {c : UInt16} {set : CportSet} : c ∈ set ↔ set.bits.testBit c.toNat = true :=
  Iff.rfl

def empty : CportSet :=
  ⟨0, fun n h => by simp only [Nat.zero_testBit, Bool.false_eq_true] at h⟩

def insert (c : UInt16) (set : CportSet) : CportSet where
  bits := set.bits ||| 1 <<< c.toNat
  bounded n h := by
    simp only [Nat.testBit_or, Nat.one_shiftLeft, Nat.testBit_two_pow, Bool.or_eq_true,
      decide_eq_true_eq] at h
    rcases h with h | rfl
    · exact set.bounded n h
    · exact c.toNat_lt

def erase (c : UInt16) (set : CportSet) : CportSet where
  bits := if c ∈ set then set.bits ^^^ 1 <<< c.toNat else set.bits
  bounded n h := by
    split at h
    · simp only [Nat.testBit_xor, Nat.one_shiftLeft, Nat.testBit_two_pow, bne_iff_ne, ne_eq] at h
      by_cases same : c.toNat = n
      · exact same ▸ c.toNat_lt
      · simp only [same, decide_false, Bool.not_eq_false] at h
        exact set.bounded n h
    · exact set.bounded n h

def ascending (set : CportSet) : List UInt16 :=
  ((List.range (set.bits.log2 + 1)).map UInt16.ofNat).filter (· ∈ set)

@[simp] theorem not_mem_empty {c : UInt16} : c ∉ empty := by
  simp [mem_def, empty]

@[simp] theorem mem_insert {c d : UInt16} {set : CportSet} :
    d ∈ insert c set ↔ d = c ∨ d ∈ set := by
  rw [mem_def, insert, Nat.testBit_or, Nat.one_shiftLeft, Nat.testBit_two_pow, Bool.or_eq_true,
    decide_eq_true_eq, UInt16.toNat_inj, or_comm, eq_comm, mem_def]

@[simp] theorem mem_erase {c d : UInt16} {set : CportSet} : d ∈ erase c set ↔ d ∈ set ∧ d ≠ c := by
  rw [mem_def, erase]
  split
  · rename_i present
    rw [Nat.testBit_xor, Nat.one_shiftLeft, Nat.testBit_two_pow]
    by_cases same : c = d
    · subst same
      simp [mem_def.mp present]
    · simp [UInt16.toNat_inj, same, mem_def, Ne.symm same]
  · rename_i absent
    rw [← mem_def]
    exact ⟨fun present => ⟨present, fun same => absent (same ▸ present)⟩, And.left⟩

theorem ext_mem {set set' : CportSet} (same : ∀ c, c ∈ set ↔ c ∈ set') : set = set' := by
  have agree (n : Nat) (inRange : n < UInt16.size) :
      set.bits.testBit n = true ↔ set'.bits.testBit n = true := by
    have := same (UInt16.ofNat n)
    rwa [mem_def, mem_def, UInt16.toNat_ofNat_of_lt' inRange] at this
  have bits : set.bits = set'.bits := by
    refine Nat.eq_of_testBit_eq fun n => Bool.eq_iff_iff.mpr ⟨fun h => ?_, fun h => ?_⟩
    · exact (agree n (set.bounded n h)).mp h
    · exact (agree n (set'.bounded n h)).mpr h
  cases set
  cases set'
  simpa only [mk.injEq] using bits

@[simp] theorem mem_ascending {c : UInt16} {set : CportSet} : c ∈ set.ascending ↔ c ∈ set := by
  simp only [ascending, List.mem_filter, List.mem_map, List.mem_range, decide_eq_true_eq,
    and_iff_right_iff_imp]
  intro h
  refine ⟨c.toNat, Nat.lt_of_not_ge fun high => ?_, UInt16.ofNat_toNat⟩
  have large := Nat.pow_le_pow_right Nat.two_pos high
  rw [mem_def, Nat.testBit_lt_two_pow (Nat.lt_of_lt_of_le Nat.lt_log2_self large)] at h
  contradiction

end CportSet

end CportNode
