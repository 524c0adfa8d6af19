import Mathlib.Algebra.Group.Nat.Defs
import Mathlib.Data.List.Basic

/-! Numbers as bytes in memory, the least significant byte first. -/
namespace Bytes

def byte (n i : Nat) : UInt8 := UInt8.ofNat (n / 256 ^ i)

def value (bytes : List UInt8) : Nat := bytes.foldr (fun b acc => b.toNat + 256 * acc) 0

@[simp] theorem value_nil : value [] = 0 := rfl

@[simp] theorem value_cons (b : UInt8) (bytes : List UInt8) : value (b :: bytes) = b.toNat + 256 * value bytes := rfl

theorem toNat_byte (n i : Nat) : (byte n i).toNat = n / 256 ^ i % 256 := by simp [byte]

theorem byte_succ (n i : Nat) : byte n (i + 1) = byte (n / 256) i := by
  simp [byte, Nat.pow_succ', Nat.div_div_eq_div_mul]

/-- The first `k` bytes keep the number modulo `256 ^ k`. -/
theorem value_bytes (k n : Nat) : value ((List.range k).map (byte n)) = n % 256 ^ k := by
  induction k generalizing n with
  | zero => simp [Nat.mod_one]
  | succ k ih =>
      have htail : (List.range k).map (byte n ∘ Nat.succ) = (List.range k).map (byte (n / 256)) := by
        apply List.map_congr_left
        exact fun i _ => byte_succ n i
      rw [List.range_succ_eq_map, List.map_cons, List.map_map, htail, value_cons, ih, toNat_byte,
        Nat.pow_zero, Nat.div_one,
        Nat.pow_succ', Nat.mod_mul]

end Bytes
