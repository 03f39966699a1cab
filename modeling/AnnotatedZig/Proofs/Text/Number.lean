import AnnotatedZig.Proofs.Text.Pieces
import AnnotatedZig.Text.Number
import Mathlib.Algebra.Group.Nat.Defs

/-!
# Numbers, printed and read

A run of digits that may be read is below a power of ten, so the number it denotes can be printed. And
what is printed of a natural number is read back as that number.
-/

set_option autoImplicit false

namespace AnnotatedZig

theorem toList_toString (n : Nat) : (toString n).toList = Nat.toDigits 10 n := by
  simp

theorem isDigit_toString (n : Nat) : ∀ c ∈ (toString n).toList, c.isDigit = true := by
  intro c hc
  rw [toList_toString] at hc
  exact Nat.isDigit_of_mem_toDigits (by decide) (by decide) hc

namespace Text

theorem prints_iff (n : Int) : Prints n ↔ n.natAbs < 10 ^ digitLimit :=
  Nat.length_toDigits_le_iff (by decide) (by decide)

theorem toNat_of_isDigit (c : Char) (h : c.isDigit = true) : 48 ≤ c.toNat ∧ c.toNat ≤ 57 := by
  simp only [Char.isDigit, Bool.and_eq_true, decide_eq_true_eq, UInt32.le_iff_toNat_le] at h
  exact h

theorem ofDigitChars_lt (digits : Text) (h : ∀ c ∈ digits, c.isDigit = true) (above : Nat) :
    Nat.ofDigitChars 10 digits above < (above+1) * 10 ^ digits.length := by
  induction digits generalizing above with
  | nil => simp
  | cons c digits ih =>
    have hdigit : c.toNat - 48 < 10 := by
      have hc := toNat_of_isDigit c (h c (by simp))
      omega
    have hrest := ih (fun d hd => h d (by simp [hd])) (10*above + (c.toNat - 48))
    calc Nat.ofDigitChars 10 (c::digits) above
        = Nat.ofDigitChars 10 digits (10*above + (c.toNat - 48)) := Nat.ofDigitChars_cons
      _ < (10*above + (c.toNat - 48) + 1) * 10 ^ digits.length := hrest
      _ ≤ (above+1) * 10 * 10 ^ digits.length := Nat.mul_le_mul_right _ (by omega)
      _ = (above+1) * 10 ^ (c::digits).length := by
          rw [List.length_cons, Nat.pow_succ', Nat.mul_assoc]

theorem prints_ofDigitChars (digits : Text) (h : ∀ c ∈ digits, c.isDigit = true)
    (length : digits.length ≤ digitLimit) : Prints (Nat.ofDigitChars 10 digits 0) := by
  rw [prints_iff]
  calc Nat.ofDigitChars 10 digits 0 < (0+1) * 10 ^ digits.length := ofDigitChars_lt digits h 0
    _ ≤ 10 ^ digitLimit := by
        rw [Nat.zero_add, Nat.one_mul]
        exact Nat.pow_le_pow_right (by decide) length

/-- The greatest number that can be printed. -/
def lastPrinted : Nat := 10 ^ digitLimit - 1

theorem lastPrinted_succ : lastPrinted + 1 = 10 ^ digitLimit :=
  Nat.sub_add_cancel (Nat.pow_pos (by decide))

theorem prints_lastPrinted : Prints lastPrinted := by
  rw [prints_iff, ← lastPrinted_succ]
  -- The number is far too large to be computed, and arithmetic would try.
  generalize lastPrinted = last
  omega

theorem not_prints_beyond : ¬ Prints ((lastPrinted : Int) + 1) := by
  rw [prints_iff, ← lastPrinted_succ]
  generalize lastPrinted = last
  omega

end Text

end AnnotatedZig
