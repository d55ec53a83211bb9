import Catkit2.Core.Memory
import Catkit2.L1Encoding.Types
import Mathlib.Data.UInt

/-!
# Words in memory and number conversions (catkit_core/Types.h, `CastTo`)

A 64-bit word is stored as eight bytes, the lowest first; `wordLE` reads back
what `bytesLE` wrote (`wordLE_bytesLE`). `objectBytes` is the memory at
`&arg` for an alternative `arg` of a `Value`.

`CastTo<std::int64_t>` and `CastTo<double>` are `T(val)` where the
alternative converts to `T`, else `std::bad_variant_access`.
-/
namespace Catkit2.L1

/-! ## Words -/

/-- The lowest `n` bytes of `w`, the lowest first. -/
def bytesLE : Nat → UInt64 → List UInt8
  | 0, _ => []
  | n + 1, w => w.toUInt8 :: bytesLE n (w >>> 8)

def wordLE : List UInt8 → UInt64
  | [] => 0
  | b :: bs => b.toUInt64 + wordLE bs * 256

@[simp] theorem length_bytesLE (n : Nat) (w : UInt64) : (bytesLE n w).length = n := by
  induction n generalizing w with
  | zero => rfl
  | succ n ih => simp only [bytesLE, List.length_cons, ih]

theorem toNat_wordLE_bytesLE (n : Nat) (hn : n ≤ 8) (w : UInt64) :
    (wordLE (bytesLE n w)).toNat = w.toNat % 2 ^ (8 * n) := by
  induction n generalizing w with
  | zero => simp [bytesLE, wordLE, Nat.mod_one]
  | succ n ih =>
    have htail := ih (by omega) (w >>> 8)
    have hshift : (w >>> 8).toNat = w.toNat / 256 := by
      rw [UInt64.toNat_shiftRight]
      simp [Nat.shiftRight_eq_div_pow]
    have hpow : 2 ^ (8 * (n + 1)) = 256 * 2 ^ (8 * n) := by
      rw [Nat.mul_succ, Nat.pow_add, Nat.mul_comm]
    have hsplit := Nat.mod_mul (x := w.toNat) (a := 256) (b := 2 ^ (8 * n))
    have hle : 2 ^ (8 * n) * 256 ≤ 2 ^ 64 := by
      have := Nat.pow_le_pow_right (n := 2) (by decide) (show 8 * n + 8 ≤ 64 by omega)
      rwa [Nat.pow_add] at this
    have hlt : w.toNat / 256 % 2 ^ (8 * n) < 2 ^ (8 * n) := Nat.mod_lt _ (Nat.two_pow_pos _)
    rw [bytesLE, wordLE, UInt64.toNat_add, UInt64.toNat_mul, htail, hshift, hpow, hsplit,
      UInt8.toNat_toUInt64, UInt64.toNat_toUInt8, show (256 : UInt64).toNat = 256 from rfl]
    omega

/-- **A word is read back.** -/
theorem wordLE_bytesLE (w : UInt64) : wordLE (bytesLE 8 w) = w := by
  apply UInt64.toNat_inj.mp
  rw [toNat_wordLE_bytesLE 8 (Nat.le_refl 8)]
  exact Nat.mod_eq_of_lt w.toNat_lt

/-! ## Conversions -/

/-- `m / 2 ^ k` to the nearest, ties to even. -/
def roundShift (m k : Nat) : Nat :=
  let q := m / 2 ^ k
  let r := m % 2 ^ k
  if 2 * r < 2 ^ k ∨ 2 * r = 2 ^ k ∧ q % 2 = 0 then q else q + 1

/-- `double(i)`: the bits of the nearest double. A carry out of the 53 bits
goes into the exponent. -/
def doubleOfInt64 (i : Int64) : UInt64 :=
  let m := i.toInt.natAbs
  let sign := if i.toInt < 0 then 2 ^ 63 else 0
  if m = 0 then 0
  else
    let e := m.log2
    let q := if e ≤ 52 then m * 2 ^ (52 - e) else roundShift m (e - 52)
    UInt64.ofNat (sign + (e + 1022) * 2 ^ 52 + q)

/-- `std::int64_t(x)`, towards zero. Out of range (a nan included) it is
undefined in C++; x86-64 then gives the smallest integer. -/
def int64OfDouble (bits : UInt64) : Int64 :=
  let e := bits.toNat / 2 ^ 52 % 2 ^ 11
  let f := 2 ^ 52 + bits.toNat % 2 ^ 52
  let m : Nat := if e < 1023 then 0 else if e ≤ 1075 then f / 2 ^ (1075 - e) else f * 2 ^ (e - 1075)
  let i : Int := if bits.toNat < 2 ^ 63 then m else -m
  if -2 ^ 63 ≤ i ∧ i < 2 ^ 63 then Int64.ofInt i else Int64.minValue

example : doubleOfInt64 (-3) = 0xC008000000000000 ∧ int64OfDouble 0xC00E000000000000 = -3 := by decide

/-- `none` is `std::bad_variant_access`.
mirrors catkit_core/Types.h:47-61 -/
def castToInt64 : Value → Option Int64
  | .int i => some i
  | .double bits => some (int64OfDouble bits)
  | .bool b => some (if b then 1 else 0)
  | _ => none

/-- mirrors catkit_core/Types.h:47-61 -/
def castToDouble : Value → Option UInt64
  | .int i => some (doubleOfInt64 i)
  | .double bits => some bits
  | .bool b => some (if b then doubleOfInt64 1 else 0)
  | _ => none

/-! ## Objects -/

/-- The memory from `&arg` on, for the alternative `arg` that a `Value` holds.
`storage` is what is there anyway: the bytes behind a boolean, and the whole
object where it is a class (a string, a container, a tensor, a `NoneValue`). -/
def objectBytes (storage : Mem) : Value → Mem
  | .int i => storage.memcpy 0 (Mem.ofList (bytesLE 8 i.toUInt64)) 8
  | .double bits => storage.memcpy 0 (Mem.ofList (bytesLE 8 bits)) 8
  | .bool b => storage.memcpy 0 (Mem.ofList [if b then 1 else 0]) 1
  | _ => storage

/-- A number of eight bytes is stored as its bytes. -/
theorem read_word (storage : Mem) (w : UInt64) :
    wordLE ((storage.memcpy 0 (Mem.ofList (bytesLE 8 w)) 8).read 0 8) = w := by
  have hread := Mem.read_ofList (bytesLE 8 w)
  rw [length_bytesLE] at hread
  rw [Mem.read_memcpy_self, hread, wordLE_bytesLE]

end Catkit2.L1
