import Mathlib.Data.Int.Defs
import Mathlib.Algebra.Group.Nat.Basic
import Mathlib.Data.Nat.Size
/-!
# Machine integers and the configuration constants

The sources keep budgets, counts and reference counts in `int`, which wraps at 32 bits, and give
serialized integers the width `bits_required` computes. Both are defined here once, with the facts
that say when a wrap changes nothing and that a value fits its width; the rest of the development
reaches them only through these names.

`yojimbo_config.h` and `yojimbo_bitpack.h` are not among the sources. `MaxChannels` takes the value
the spec gives it, and `bitsRequired` the width the spec gives the `numChannelEntries` header.
-/

namespace Yojimbo

/-- Modelled from the spec: `MaxChannels` of `yojimbo_config.h` is not in the sources; the spec
fixes it at 64. -/
def MaxChannels : Int := 64

/-- The value an `int` holds after an assignment: two's complement at 32 bits. -/
def cInt (x : Int) : Int := (x + 2147483648) % 4294967296 - 2147483648

/-- The largest `int`, `INT_MAX`. -/
def intMax : Int := 2147483647

theorem cInt_of_le {x : Int} (hlo : -2147483648 ≤ x) (hhi : x ≤ intMax) : cInt x = x := by
  unfold cInt intMax at *
  omega

theorem cInt_cInt_add (x y : Int) : cInt (cInt x + y) = cInt (x + y) := by
  unfold cInt
  omega

theorem cInt_cInt_sub {x y : Int} (hx : -2147483648 ≤ x ∧ x ≤ 2147483647)
    (hxy : -2147483648 ≤ x - y ∧ x - y ≤ 2147483647) : cInt (cInt x - y) = x - y := by
  rw [cInt_of_le hx.1 hx.2, cInt_of_le hxy.1 hxy.2]

/-- The number of binary digits of `n`, counting at most `fuel` of them: `Nat.size` by structural
recursion, so that it evaluates. -/
def width : Nat → Nat → Nat
  | 0, _ => 0
  | fuel + 1, n => if n = 0 then 0 else width fuel (n / 2) + 1

theorem width_eq_size : ∀ (fuel n : Nat), n < 2 ^ fuel → width fuel n = n.size
  | 0, n, h => by
    obtain rfl : n = 0 := by simpa using h
    exact Nat.size_zero.symm
  | fuel + 1, n, h => by
    rw [width]
    split
    · subst n; exact Nat.size_zero.symm
    · rename_i hn
      rw [width_eq_size fuel (n / 2) (by rw [Nat.pow_succ] at h; omega)]
      conv_rhs => rw [← Nat.bit_decomp n]
      rw [Nat.size_bit (by rwa [Nat.bit_decomp]), Nat.div2_val]

/-- Modelled from the spec: `bits_required` is not in the sources. The spec's header for
`numChannelEntries` takes ceil(log2(numChannels + 1)) bits: the width of `max - min`, a 32-bit
unsigned value. -/
def bitsRequired (min max : Int) : Nat := width 32 (max - min).toNat

theorem lt_two_pow_bitsRequired {min max value : Int} (hmax : value ≤ max)
    (hspan : max - min < 4294967296) : (value - min).toNat < 2 ^ bitsRequired min max := by
  have hle : (value - min).toNat ≤ (max - min).toNat := by omega
  rw [bitsRequired, width_eq_size 32 _ (by rw [show (2 : Nat) ^ 32 = 4294967296 from rfl]; omega)]
  exact lt_of_le_of_lt hle (Nat.lt_size_self _)

example : bitsRequired 0 64 = 7 := by decide

end Yojimbo
