import Mathlib.Logic.Function.Basic
import Mathlib.Data.List.Basic

/-! Sets of small numbers as the bits of bytes in memory, the most significant bit of a byte first. -/
namespace BitField

/-- The bit of member `i` in its byte. -/
def mask (i : Nat) : UInt8 := 1 <<< UInt8.ofNat (7 - i % 8)

def insert (bytes : Nat → UInt8) (i : Nat) : Nat → UInt8 :=
  Function.update bytes (i / 8) (bytes (i / 8) ||| mask i)

def erase (bytes : Nat → UInt8) (i : Nat) : Nat → UInt8 :=
  Function.update bytes (i / 8) (bytes (i / 8) &&& ~~~mask i)

def contains (bytes : Nat → UInt8) (i : Nat) : Bool := (bytes (i / 8)).toNat.testBit (7 - i % 8)

variable {bytes : Nat → UInt8} {i j k : Nat}

theorem contains_of_zero (h : bytes (i / 8) = 0) : contains bytes i = false := by
  rw [contains, h]
  exact Nat.zero_testBit _

theorem testBit_mask (i j : Nat) : (mask i).toNat.testBit (7 - j % 8) = decide (i % 8 = j % 8) := by
  have hall : ∀ a b : Fin 8, (mask a.val).toNat.testBit (7 - b.val) = decide (a.val = b.val) := by decide
  have hi : mask i = mask (i % 8) := by rw [mask, mask, Nat.mod_mod]
  rw [hi]
  exact hall ⟨i % 8, Nat.mod_lt i (by decide)⟩ ⟨j % 8, Nat.mod_lt j (by decide)⟩

theorem testBit_not_mask (i j : Nat) : (~~~mask i).toNat.testBit (7 - j % 8) = !decide (i % 8 = j % 8) := by
  have hall : ∀ a b : Fin 8, (~~~mask a.val).toNat.testBit (7 - b.val) = !decide (a.val = b.val) := by decide
  have hi : mask i = mask (i % 8) := by rw [mask, mask, Nat.mod_mod]
  rw [hi]
  exact hall ⟨i % 8, Nat.mod_lt i (by decide)⟩ ⟨j % 8, Nat.mod_lt j (by decide)⟩

/-- In one byte, the bit tells the member. -/
theorem mod_eq_iff (hbyte : j / 8 = i / 8) : i % 8 = j % 8 ↔ i = j := by omega

@[simp] theorem contains_insert : contains (insert bytes i) j = (contains bytes j || decide (i = j)) := by
  unfold contains insert
  by_cases hbyte : j / 8 = i / 8
  · rw [hbyte, Function.update_self, UInt8.toNat_or, Nat.testBit_or, testBit_mask]
    simp only [mod_eq_iff hbyte]
  · rw [Function.update_of_ne hbyte, decide_eq_false (show ¬ i = j from fun hc => hbyte (by rw [hc])), Bool.or_false]

@[simp] theorem contains_erase : contains (erase bytes i) j = (contains bytes j && !decide (i = j)) := by
  unfold contains erase
  by_cases hbyte : j / 8 = i / 8
  · rw [hbyte, Function.update_self, UInt8.toNat_and, Nat.testBit_and, testBit_not_mask]
    simp only [mod_eq_iff hbyte]
  · rw [Function.update_of_ne hbyte, decide_eq_false (show ¬ i = j from fun hc => hbyte (by rw [hc])), Bool.not_false,
      Bool.and_true]

theorem insert_apply_of_le (hi : i < 8 * k) (hj : k ≤ j) : insert bytes i j = bytes j :=
  Function.update_of_ne (by omega) _ _

theorem erase_apply_of_le (hi : i < 8 * k) (hj : k ≤ j) : erase bytes i j = bytes j :=
  Function.update_of_ne (by omega) _ _

theorem contains_foldl_insert (p : Nat → Prop) [DecidablePred p] (l : List Nat) : ∀ bytes : Nat → UInt8,
    (contains (l.foldl (fun bytes i => if p i then insert bytes i else bytes) bytes) j = true ↔
      contains bytes j = true ∨ (j ∈ l ∧ p j)) := by
  induction l with
  | nil => simp
  | cons i l ih =>
      intro bytes
      rw [List.foldl_cons, ih, List.mem_cons]
      by_cases hp : p i
      · rw [if_pos hp, contains_insert, Bool.or_eq_true, decide_eq_true_eq]
        constructor
        · rintro ((hc | rfl) | hc)
          · exact Or.inl hc
          · exact Or.inr ⟨Or.inl rfl, hp⟩
          · exact Or.inr ⟨Or.inr hc.1, hc.2⟩
        · rintro (hc | ⟨rfl | hl, hj⟩)
          · exact Or.inl (Or.inl hc)
          · exact Or.inl (Or.inr rfl)
          · exact Or.inr ⟨hl, hj⟩
      · rw [if_neg hp]
        refine or_congr_right (and_congr_left fun hj => ?_)
        exact ⟨Or.inr, fun hc => hc.resolve_left fun heq => hp (heq ▸ hj)⟩

theorem foldl_insert_apply_of_le (p : Nat → Prop) [DecidablePred p] (l : List Nat) (hl : ∀ i ∈ l, i < 8 * k)
    (hj : k ≤ j) :
    ∀ bytes : Nat → UInt8, l.foldl (fun bytes i => if p i then insert bytes i else bytes) bytes j = bytes j := by
  induction l with
  | nil => exact fun _ => rfl
  | cons i l ih =>
      intro bytes
      rw [List.foldl_cons, ih fun i' hi' => hl i' (List.mem_cons_of_mem _ hi')]
      split
      · exact insert_apply_of_le (hl i List.mem_cons_self) hj
      · rfl

theorem contains_foldl_erase (l : List Nat) : ∀ bytes : Nat → UInt8,
    (contains (l.foldl erase bytes) j = true ↔ contains bytes j = true ∧ j ∉ l) := by
  induction l with
  | nil => simp
  | cons i l ih =>
      intro bytes
      rw [List.foldl_cons, ih, contains_erase, Bool.and_eq_true, Bool.not_eq_true', decide_eq_false_iff_not,
        List.mem_cons, not_or,
        and_assoc, @eq_comm _ i j]

theorem foldl_erase_apply_of_le (l : List Nat) (hl : ∀ i ∈ l, i < 8 * k) (hj : k ≤ j) :
    ∀ bytes : Nat → UInt8, l.foldl erase bytes j = bytes j := by
  induction l with
  | nil => exact fun _ => rfl
  | cons i l ih =>
      intro bytes
      rw [List.foldl_cons, ih fun i' hi' => hl i' (List.mem_cons_of_mem _ hi')]
      exact erase_apply_of_le (hl i List.mem_cons_self) hj

end BitField
