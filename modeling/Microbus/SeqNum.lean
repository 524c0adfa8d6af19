import Microbus.TxManager
import Microbus.Foundation.Cyclic

/-! The sequence numbers on the wire as residues of the position in the stream. -/
namespace Microbus

/-- The sequence number of the `n`-th packet of a stream. -/
def seq (n : Nat) : UInt8 := UInt8.ofNat (n % 255)

@[simp] theorem seq_toNat (n : Nat) : (seq n).toNat = n % 255 := by
  have : n % 255 < 255 := Nat.mod_lt _ (by decide)
  rw [seq, UInt8.toNat_ofNat', Nat.mod_eq_of_lt (by omega)]

theorem seq_eq_iff {n k : Nat} : seq n = seq k ↔ n % 255 = k % 255 := by
  rw [← UInt8.toNat_inj, seq_toNat, seq_toNat]

theorem seq_zero : seq 0 = 0 := rfl

theorem seq_ne_null (n : Nat) : seq n ≠ nullSequenceNum := by
  intro h
  have hn := congrArg UInt8.toNat h
  rw [seq_toNat] at hn
  have : n % 255 < 255 := Nat.mod_lt _ (by decide)
  have : nullSequenceNum.toNat = 255 := rfl
  omega

theorem toNat_lt_255 {a : UInt8} (h : a ≠ nullSequenceNum) : a.toNat < 255 := by
  have hlt := a.toNat_lt
  have hne : a.toNat ≠ 255 := fun hc => h (UInt8.toNat_inj.mp hc)
  omega

theorem exists_seq_of_ne_null {a : UInt8} (h : a ≠ nullSequenceNum) : a = seq a.toNat := by
  have hlt := toNat_lt_255 h
  rw [← UInt8.toNat_inj, seq_toNat]
  omega

theorem incr_seq (n : Nat) : incrSequenceNum (seq n) = seq (n + 1) := by
  have hlt : n % 255 < 255 := Nat.mod_lt _ (by decide)
  have hadd : (seq n + 1).toNat = n % 255 + 1 := by
    rw [UInt8.toNat_add, seq_toNat, UInt8.toNat_one]
    exact Nat.mod_eq_of_lt (by omega)
  have hmax : maxSequenceNum.toNat = 255 := rfl
  unfold incrSequenceNum
  simp only [ge_iff_le, UInt8.le_iff_toNat_le, hadd, hmax]
  by_cases h : 255 ≤ n % 255 + 1
  · rw [if_pos h, ← UInt8.toNat_inj, seq_toNat]
    have : (0 : UInt8).toNat = 0 := rfl
    omega
  · rw [if_neg h, ← UInt8.toNat_inj, hadd, seq_toNat]
    omega

theorem expectedSeqNum_null : expectedSeqNum nullSequenceNum = seq 0 := rfl

theorem expectedSeqNum_seq (n : Nat) : expectedSeqNum (seq n) = seq (n + 1) := by
  unfold expectedSeqNum
  rw [if_neg (seq_ne_null n), incr_seq]

section Window

variable {s n e : Nat}

/-- Equal counters mean an empty window, or one of all 255 numbers. -/
theorem seq_start_eq_end (hse : s ≤ e) (he : e ≤ s + 255) : seq s = seq e ↔ e = s ∨ e = s + 255 := by
  rw [seq_eq_iff]
  omega

theorem nextInRange_seq (hsn : s ≤ n) (hne : n ≤ e) (he : e < s + 255) :
    nextInRange (seq s) (seq e) (seq n) := by
  unfold nextInRange
  simp only [ge_iff_le, UInt8.le_iff_toNat_le, seq_toNat]
  split <;> omega

/-- An acknowledgement is taken exactly when it names a packet of the window. -/
theorem validAck_seq_iff {a : Nat} (hse : s ≤ e) (he : e ≤ s + 255) :
    validAckSeqNum (seq s) (seq e) (seq a) = true ↔
      e < s + 255 ∧ ∃ k, s ≤ k ∧ k < e ∧ seq a = seq k := by
  have hvalid : validAckSeqNum (seq s) (seq e) (seq a) = true ↔
      if e % 255 < s % 255 then s % 255 ≤ a % 255 ∨ a % 255 < e % 255
      else s % 255 ≤ a % 255 ∧ a % 255 < e % 255 := by
    unfold validAckSeqNum
    simp only [UInt8.lt_iff_toNat_lt, seq_toNat]
    split <;> simp [UInt8.le_iff_toNat_le]
  rw [hvalid]
  constructor
  · intro h
    refine ⟨?_, s + (a % 255 + 255 - s % 255) % 255, ?_, ?_, ?_⟩
    · split at h <;> omega
    · omega
    · split at h <;> omega
    · rw [seq_eq_iff]; omega
  · rintro ⟨hlt, k, hsk, hke, hk⟩
    rw [seq_eq_iff] at hk
    split <;> omega

end Window

end Microbus
