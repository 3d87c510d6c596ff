/-
  UMqtt.Lib.Base128 — little-endian base-128 numerals with a continuation bit: seven
  value bits a byte, the top bit set on every byte but the last.
-/

import Mathlib

namespace UMqtt.Lib.Base128

/-- The shortest numeral of `n`. -/
def encode (n : Nat) : List UInt8 :=
  if n < 128 then [UInt8.ofNat n] else UInt8.ofNat (n % 128 + 128) :: encode (n / 128)
termination_by n
decreasing_by omega

/-- The value bits of a byte. -/
def digit (b : UInt8) : Nat := b.toNat % 128

/-- The value of a list of digits, the lowest first. -/
def value : List UInt8 → Nat
  | [] => 0
  | b :: bs => digit b + 128 * value bs

/-- The byte says that another one follows. -/
def continues (b : UInt8) : Prop := 128 ≤ b.toNat

instance (b : UInt8) : Decidable (continues b) := inferInstanceAs (Decidable (128 ≤ b.toNat))

theorem encode_lt {n : Nat} (h : n < 128) : encode n = [UInt8.ofNat n] := by rw [encode, if_pos h]

theorem encode_ge {n : Nat} (h : 128 ≤ n) : encode n = UInt8.ofNat (n % 128 + 128) :: encode (n / 128) := by
  rw [encode, if_neg (by omega)]

theorem toNat_ofNat_lt {n : Nat} (h : n < 256) : (UInt8.ofNat n).toNat = n := by
  rw [UInt8.toNat_ofNat']; omega

theorem digit_lt (b : UInt8) : digit b < 128 := Nat.mod_lt _ (by decide)

/-- A numeral is continuation bytes and one last byte, and its value is `n`. -/
theorem encode_shape (n : Nat) : ∃ init last, encode n = init ++ [last] ∧ (∀ b ∈ init, continues b) ∧
    ¬ continues last ∧ value (init ++ [last]) = n := by
  induction n using Nat.strongRecOn with
  | _ n ih =>
    by_cases h : n < 128
    · refine ⟨[], UInt8.ofNat n, encode_lt h, by simp, ?_, ?_⟩
      · simp only [continues, toNat_ofNat_lt (show n < 256 by omega)]; omega
      · simp only [List.nil_append, value, digit, toNat_ofNat_lt (show n < 256 by omega)]; omega
    · obtain ⟨init, last, he, hc, hl, hv⟩ := ih (n / 128) (by omega)
      have hb : (UInt8.ofNat (n % 128 + 128)).toNat = n % 128 + 128 := toNat_ofNat_lt (by omega)
      refine ⟨UInt8.ofNat (n % 128 + 128) :: init, last, ?_, ?_, hl, ?_⟩
      · rw [encode_ge (by omega), he]; rfl
      · intro b hb'
        rcases List.mem_cons.mp hb' with rfl | hb'
        · simp only [continues, hb]; omega
        · exact hc b hb'
      · simp only [List.cons_append, value, digit, hb, hv]; omega

theorem value_snoc (ds : List UInt8) (b : UInt8) : value (ds ++ [b]) = value ds + 128 ^ ds.length * digit b := by
  induction ds with
  | nil => simp only [List.nil_append, value, List.length_nil, Nat.pow_zero]; omega
  | cons d ds ih =>
    simp only [List.cons_append, value, ih, List.length_cons, Nat.pow_succ, Nat.mul_add]
    rw [Nat.mul_comm (128 ^ ds.length) 128, Nat.mul_assoc]; omega

/-- So many digits stay below that power of the base. -/
theorem value_lt (ds : List UInt8) : value ds < 128 ^ ds.length := by
  induction ds with
  | nil => exact Nat.one_pos
  | cons d ds ih =>
    have hd := digit_lt d
    simp only [value, List.length_cons, Nat.pow_succ]
    omega

/-- `k + 1` digits write every number below `128 ^ (k + 1)`. -/
theorem length_encode_le {k : Nat} {n : Nat} (h : n < 128 ^ (k + 1)) : (encode n).length ≤ k + 1 := by
  induction k generalizing n with
  | zero => rw [encode_lt (by simpa using h)]; simp
  | succ k ih =>
    by_cases hn : n < 128
    · rw [encode_lt hn]; simp
    · rw [encode_ge (by omega), List.length_cons]
      have : n / 128 < 128 ^ (k + 1) := by
        rw [Nat.div_lt_iff_lt_mul (by decide)]; rw [Nat.pow_succ] at h; omega
      have := ih this
      omega

theorem encode_ne_nil (n : Nat) : encode n ≠ [] := by
  obtain ⟨init, last, he, _⟩ := encode_shape n
  simp [he]

end UMqtt.Lib.Base128
