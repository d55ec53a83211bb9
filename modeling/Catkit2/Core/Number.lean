import Mathlib.Data.Int.Log
import Mathlib.Data.Rat.Floor
import Mathlib.Algebra.Order.Field.Power
import Mathlib.Tactic.Linarith
import Mathlib.Tactic.Positivity
import Mathlib.Tactic.FieldSimp

/-!
# Numbers as programs compare them

`Number` is a real number of a program: exact, infinite or not a number, ordered
the way `<` of C++ and Python orders integers and doubles (anything compared
with a nan is false). The two zeros of a double are one number here.

`Format.round` is the nearest number of a binary format, ties to even, `round`
the nearest double, and `fmul`, `fsub` and `divBy` are the double operations:
exact, then rounded.

* `round_natCast`: integers below 2^53 are doubles.
* `le_round`, `round_le`: rounding never crosses a double.
* `Format.round_mono`, `Format.convert_mono`: rounding keeps the order.
-/
namespace Catkit2

inductive Number where
  | nan
  | negInf
  | posInf
  | fin (q : ℚ)
  deriving DecidableEq

namespace Number

/-! ## Comparison -/

def lt : Number → Number → Bool
  | .nan, _ | _, .nan => false
  | _, .negInf | .posInf, _ => false
  | .negInf, _ | _, .posInf => true
  | .fin a, .fin b => decide (a < b)

def le : Number → Number → Bool
  | .nan, _ | _, .nan => false
  | .negInf, _ | _, .posInf => true
  | _, .negInf | .posInf, _ => false
  | .fin a, .fin b => decide (a ≤ b)

@[simp] theorem lt_fin (a b : ℚ) : lt (.fin a) (.fin b) = decide (a < b) := rfl
@[simp] theorem le_fin (a b : ℚ) : le (.fin a) (.fin b) = decide (a ≤ b) := rfl
@[simp] theorem nan_le (a : Number) : le .nan a = false := by cases a <;> rfl
@[simp] theorem le_nan (a : Number) : le a .nan = false := by cases a <;> rfl

@[simp] theorem nan_lt (a : Number) : lt .nan a = false := by cases a <;> rfl
@[simp] theorem lt_nan (a : Number) : lt a .nan = false := by cases a <;> rfl
@[simp] theorem lt_irrefl (a : Number) : lt a a = false := by cases a <;> simp [lt]

theorem lt_ne_nan {a b : Number} (h : lt a b = true) : a ≠ .nan ∧ b ≠ .nan := by
  constructor <;> rintro rfl <;> simp at h

/-- `b ≤ a` says that `a < b` fails of two numbers. -/
theorem le_iff_not_lt {a b : Number} : le b a = true ↔ a ≠ .nan ∧ b ≠ .nan ∧ lt a b = false := by
  cases a <;> cases b <;> simp [lt, le]

theorem le_of_lt_true {a b : Number} (h : lt a b = true) : le a b = true := by
  cases a <;> cases b <;> simp_all [lt, le]
  exact LT.lt.le h

theorem lt_of_le_true_of_ne {a b : Number} (h : le a b = true) (hne : a ≠ b) : lt a b = true := by
  cases a <;> cases b <;> simp_all [lt, le]
  exact lt_of_le_of_ne h hne

theorem le_posInf {a : Number} (h : a ≠ .nan) : le a .posInf = true := by
  cases a with
  | nan => exact absurd rfl h
  | _ => rfl

theorem negInf_le {a : Number} (h : a ≠ .nan) : le .negInf a = true := by
  cases a with
  | nan => exact absurd rfl h
  | _ => rfl

theorem not_lt_of_le {a b : Number} (h : le a b = true) : lt b a = false := by
  cases a <;> cases b <;> simp_all [lt, le]

theorem lt_of_lt_of_le {a b c : Number} (h : lt a b = true) (h' : le b c = true) :
    lt a c = true := by
  cases a <;> cases b <;> cases c <;> simp_all [lt, le]
  exact LT.lt.trans_le h h'

/-! ## Rounding to the nearest number of a format -/

/-- The nearest integer, ties to even. -/
def roundHalfEven (x : ℚ) : ℤ :=
  if x - ⌊x⌋ < 1 / 2 then ⌊x⌋
  else if 1 / 2 < x - ⌊x⌋ then ⌊x⌋ + 1
  else if ⌊x⌋ % 2 = 0 then ⌊x⌋
  else ⌊x⌋ + 1

/-- A binary format of floating point numbers: how many bits one has, the exponent of the
last bit of the subnormals, and the first power of two beyond the format. -/
structure Format where
  bits : ℕ
  least : ℤ
  limit : ℚ
  bits_pos : 0 < bits
  limit_pos : 0 < limit

def double : Format := ⟨53, -1074, 2 ^ 1024, by norm_num, by norm_num⟩

def single : Format := ⟨24, -149, 2 ^ 128, by norm_num, by norm_num⟩

namespace Format

/-- The exponent of the last bit of `x`; subnormals share one. -/
def ulpExp (f : Format) (x : ℚ) : ℤ := max (Int.log 2 |x| + 1 - f.bits) f.least

/-- The nearest number of the format, were there no limit. -/
def nearest (f : Format) (x : ℚ) : ℚ := roundHalfEven (x / 2 ^ f.ulpExp x) * 2 ^ f.ulpExp x

def round (f : Format) (x : ℚ) : Number :=
  if f.limit ≤ f.nearest x then .posInf
  else if f.nearest x ≤ -f.limit then .negInf
  else .fin (f.nearest x)

/-- A number of a program, as the format holds it. -/
def convert (f : Format) : Number → Number
  | .fin q => f.round q
  | x => x

end Format

/-- The nearest double. -/
def round (x : ℚ) : Number := double.round x

def fmul : Number → Number → Number
  | .nan, _ | _, .nan => .nan
  | .fin a, .fin b => round (a * b)
  | .posInf, .posInf | .negInf, .negInf => .posInf
  | .posInf, .negInf | .negInf, .posInf => .negInf
  | .posInf, .fin q | .fin q, .posInf => if q = 0 then .nan else if 0 < q then .posInf else .negInf
  | .negInf, .fin q | .fin q, .negInf => if q = 0 then .nan else if 0 < q then .negInf else .posInf

def fsub : Number → Number → Number
  | .nan, _ | _, .nan => .nan
  | .fin a, .fin b => round (a - b)
  | .posInf, .posInf | .negInf, .negInf => .nan
  | .posInf, _ | _, .negInf => .posInf
  | .negInf, _ | _, .posInf => .negInf

/-- Division by a positive number. -/
def divBy : Number → ℚ → Number
  | .fin a, d => round (a / d)
  | x, _ => x

/-! ## The nearest integer -/

theorem le_roundHalfEven {m : ℤ} {x : ℚ} (h : (m : ℚ) ≤ x) : m ≤ roundHalfEven x := by
  have hf : m ≤ ⌊x⌋ := Int.le_floor.mpr h
  unfold roundHalfEven
  split
  · exact hf
  · split
    · omega
    · split <;> omega

theorem roundHalfEven_le {m : ℤ} {x : ℚ} (h : x ≤ m) : roundHalfEven x ≤ m := by
  have hfx := Int.floor_le x
  by_cases hm : x = m
  · -- an integer has no fraction to round
    subst hm
    unfold roundHalfEven
    simp
  · have hlt : ⌊x⌋ < m := Int.floor_lt.mpr (lt_of_le_of_ne h hm)
    unfold roundHalfEven
    split
    · omega
    · split
      · omega
      · split <;> omega

theorem roundHalfEven_intCast (m : ℤ) : roundHalfEven m = m :=
  le_antisymm (roundHalfEven_le (le_refl _)) (le_roundHalfEven (le_refl _))

/-- Rounding to an integer keeps the order. -/
theorem roundHalfEven_mono {x y : ℚ} (h : x ≤ y) : roundHalfEven x ≤ roundHalfEven y := by
  have hfloor : ⌊x⌋ ≤ ⌊y⌋ := Int.floor_le_floor h
  by_cases heq : ⌊x⌋ = ⌊y⌋
  · -- between the same integers, the one that is rounded up has the larger fraction
    unfold roundHalfEven
    rw [heq]
    by_cases hx : x - ⌊y⌋ < 1 / 2
    · rw [if_pos hx]
      split
      · exact Int.le_refl _
      · split
        · omega
        · split <;> omega
    · have hy : ¬ y - ⌊y⌋ < 1 / 2 := by linarith
      rw [if_neg hx, if_neg hy]
      by_cases hx' : 1 / 2 < x - ⌊y⌋
      · rw [if_pos hx', if_pos (by linarith)]
      · rw [if_neg hx']
        split
        · split <;> omega
        · split <;> omega
  · have hlt : x ≤ ((⌊x⌋ + 1 : ℤ) : ℚ) := by
      have := (Int.lt_floor_add_one x).le
      push_cast
      exact this
    calc roundHalfEven x ≤ ⌊x⌋ + 1 := roundHalfEven_le hlt
      _ ≤ ⌊y⌋ := by omega
      _ ≤ roundHalfEven y := le_roundHalfEven (Int.floor_le y)

theorem roundHalfEven_neg (x : ℚ) : roundHalfEven (-x) = -roundHalfEven x := by
  have hle := Int.floor_le x
  have hlt := Int.lt_floor_add_one x
  by_cases hx : x = ⌊x⌋
  · rw [hx, ← Int.cast_neg, roundHalfEven_intCast, roundHalfEven_intCast]
  · -- the fraction of `-x` is what is missing from that of `x`
    have hpos : (⌊x⌋ : ℚ) < x := lt_of_le_of_ne hle (Ne.symm hx)
    have hfloor : ⌊-x⌋ = -⌊x⌋ - 1 := by
      rw [Int.floor_eq_iff]
      push_cast
      constructor <;> linarith
    unfold roundHalfEven
    rw [hfloor]
    push_cast
    by_cases h1 : x - ⌊x⌋ < 1 / 2
    · rw [if_pos h1, if_neg (by linarith), if_pos (by linarith)]
      omega
    · by_cases h2 : 1 / 2 < x - ⌊x⌋
      · rw [if_neg h1, if_pos h2, if_pos (by linarith)]
        omega
      · rw [if_neg h1, if_neg h2, if_neg (by linarith), if_neg (by linarith)]
        by_cases heven : ⌊x⌋ % 2 = 0
        · rw [if_pos heven, if_neg (by omega)]
          omega
        · rw [if_neg heven, if_pos (by omega)]
          omega

/-! ## The nearest number of a format -/

theorem two_zpow_pos (k : ℤ) : (0 : ℚ) < 2 ^ k := zpow_pos (by norm_num) k

/-- `m * 2^k` seen at a finer exponent is an integer. -/
theorem mul_zpow_div {m k u : ℤ} (h : u ≤ k) :
    (m : ℚ) * 2 ^ k / 2 ^ u = ((m * 2 ^ (k - u).toNat : ℤ) : ℚ) := by
  have hk : (2 : ℚ) ^ k = 2 ^ (k - u).toNat * 2 ^ u := by
    rw [← zpow_natCast, ← zpow_add₀ (by norm_num)]
    congr 1
    omega
  rw [hk, ← mul_assoc, mul_div_assoc, div_self (two_zpow_pos u).ne', mul_one]
  push_cast
  ring

namespace Format

variable {f : Format} {m k : ℤ} {x y : ℚ}

theorem ulpExp_of_pos (hx : 0 < x) : f.ulpExp x = max (Int.log 2 x + 1 - f.bits) f.least := by
  unfold ulpExp
  rw [abs_of_pos hx]

theorem least_le_ulpExp (x : ℚ) : f.least ≤ f.ulpExp x := le_max_right _ _

/-- The first bit of a number, as a multiple of its last one. -/
theorem firstBit (u : ℤ) : ((2 ^ (f.bits - 1) : ℤ) : ℚ) * 2 ^ u = 2 ^ (f.bits - 1 + u) := by
  have hb := f.bits_pos
  have hpow : ((2 ^ (f.bits - 1) : ℤ) : ℚ) = 2 ^ ((f.bits : ℤ) - 1) := by
    rw [show (f.bits : ℤ) - 1 = ((f.bits - 1 : ℕ) : ℤ) by omega, zpow_natCast]
    push_cast
    rfl
  rw [hpow, ← zpow_add₀ (by norm_num)]

/-- A number of the format below the last bit of `x` lies below the first bit of `x`. -/
theorem lt_of_exp_lt (hm : m < 2 ^ f.bits) (hk : f.least ≤ k) (hu : k < f.ulpExp x) (hx : 0 < x) :
    (m : ℚ) * 2 ^ k < (2 ^ (f.bits - 1) : ℤ) * 2 ^ f.ulpExp x ∧
      ((2 ^ (f.bits - 1) : ℤ) : ℚ) * 2 ^ f.ulpExp x ≤ x := by
  have hexp : f.ulpExp x = Int.log 2 x + 1 - f.bits := by
    rw [ulpExp_of_pos hx] at hu ⊢
    omega
  rw [firstBit]
  constructor
  · have h1 : (m : ℚ) < 2 ^ (f.bits : ℤ) := by exact_mod_cast hm
    calc (m : ℚ) * 2 ^ k < 2 ^ (f.bits : ℤ) * 2 ^ k := mul_lt_mul_of_pos_right h1 (two_zpow_pos k)
      _ = 2 ^ (f.bits + k) := (zpow_add₀ (by norm_num) _ _).symm
      _ ≤ 2 ^ (f.bits - 1 + f.ulpExp x) := zpow_le_zpow_right₀ (by norm_num) (by omega)
  · rw [hexp, show (f.bits : ℤ) - 1 + (Int.log 2 x + 1 - f.bits) = Int.log 2 x by omega]
    exact_mod_cast Int.zpow_log_le_self (b := 2) (by norm_num) hx

/-- A number of the format that `x` does not lie below, the rounding of `x` does not either. -/
theorem le_nearest (hm : m < 2 ^ f.bits) (hk : f.least ≤ k) (hx : 0 < x) (h : (m : ℚ) * 2 ^ k ≤ x) :
    (m : ℚ) * 2 ^ k ≤ f.nearest x := by
  have hu := two_zpow_pos (f.ulpExp x)
  by_cases hku : k < f.ulpExp x
  · obtain ⟨h1, h2⟩ := lt_of_exp_lt hm hk hku hx
    have h3 : ((2 ^ (f.bits - 1) : ℤ) : ℚ) ≤ x / 2 ^ f.ulpExp x := by
      rwa [le_div_iff₀ hu]
    have h4 : ((2 ^ (f.bits - 1) : ℤ) : ℚ) ≤ roundHalfEven (x / 2 ^ f.ulpExp x) := by
      exact_mod_cast le_roundHalfEven h3
    exact h1.le.trans (mul_le_mul_of_nonneg_right h4 hu.le)
  · have h3 : (m : ℚ) * 2 ^ k / 2 ^ f.ulpExp x ≤ x / 2 ^ f.ulpExp x := by gcongr
    rw [mul_zpow_div (not_lt.mp hku)] at h3
    have h4 : (m : ℚ) * 2 ^ k / 2 ^ f.ulpExp x ≤ roundHalfEven (x / 2 ^ f.ulpExp x) := by
      rw [mul_zpow_div (not_lt.mp hku)]
      exact_mod_cast le_roundHalfEven h3
    rwa [div_le_iff₀ hu] at h4

/-- A number of the format that does not lie below `x` does not lie below its rounding. -/
theorem nearest_le (hm : m < 2 ^ f.bits) (hk : f.least ≤ k) (hx : 0 < x) (h : x ≤ (m : ℚ) * 2 ^ k) :
    f.nearest x ≤ (m : ℚ) * 2 ^ k := by
  have hu := two_zpow_pos (f.ulpExp x)
  by_cases hku : k < f.ulpExp x
  · obtain ⟨h1, h2⟩ := lt_of_exp_lt hm hk hku hx
    linarith
  · have h3 : x / 2 ^ f.ulpExp x ≤ (m : ℚ) * 2 ^ k / 2 ^ f.ulpExp x := by gcongr
    rw [mul_zpow_div (not_lt.mp hku)] at h3
    have h4 : (roundHalfEven (x / 2 ^ f.ulpExp x) : ℚ) ≤ (m : ℚ) * 2 ^ k / 2 ^ f.ulpExp x := by
      rw [mul_zpow_div (not_lt.mp hku)]
      exact_mod_cast roundHalfEven_le h3
    rwa [le_div_iff₀ hu] at h4

theorem nearest_zero : f.nearest 0 = 0 := by
  have h0 : roundHalfEven 0 = 0 := by exact_mod_cast roundHalfEven_intCast 0
  rw [nearest, zero_div, h0, Int.cast_zero, zero_mul]

theorem nearest_neg (x : ℚ) : f.nearest (-x) = -f.nearest x := by
  unfold nearest ulpExp
  rw [abs_neg, neg_div, roundHalfEven_neg]
  push_cast
  ring

theorem nearest_nonneg (hx : 0 ≤ x) : 0 ≤ f.nearest x := by
  rcases hx.lt_or_eq with hx | rfl
  · simpa using le_nearest (m := 0) (k := f.least) (by positivity) le_rfl hx (by simpa using hx.le)
  · exact nearest_zero.ge

theorem nearest_mono_of_pos (hx : 0 < x) (h : x ≤ y) : f.nearest x ≤ f.nearest y := by
  have hy : 0 < y := hx.trans_le h
  have hlog : Int.log 2 x ≤ Int.log 2 y := Int.log_mono_right hx h
  have hux := ulpExp_of_pos (f := f) hx
  have huy := ulpExp_of_pos (f := f) hy
  by_cases heq : f.ulpExp x = f.ulpExp y
  · unfold nearest
    rw [heq]
    have hdiv : x / 2 ^ f.ulpExp y ≤ y / 2 ^ f.ulpExp y := by
      have := two_zpow_pos (f.ulpExp y)
      gcongr
    have hr : (roundHalfEven (x / 2 ^ f.ulpExp y) : ℚ) ≤ roundHalfEven (y / 2 ^ f.ulpExp y) := by
      exact_mod_cast roundHalfEven_mono hdiv
    exact mul_le_mul_of_nonneg_right hr (two_zpow_pos _).le
  · -- the first number of the format with the exponent of `y` lies between them
    have hexp : f.ulpExp y = Int.log 2 y + 1 - f.bits ∧ Int.log 2 x < Int.log 2 y := by omega
    have hb := f.bits_pos
    have hm : (2 ^ (f.bits - 1) : ℤ) < 2 ^ f.bits := pow_lt_pow_right₀ (by norm_num) (by omega)
    have hfirst : ((2 ^ (f.bits - 1) : ℤ) : ℚ) * 2 ^ f.ulpExp y = 2 ^ Int.log 2 y := by
      rw [firstBit, hexp.1]
      congr 1
      omega
    have hxle : x ≤ ((2 ^ (f.bits - 1) : ℤ) : ℚ) * 2 ^ f.ulpExp y := by
      rw [hfirst]
      calc x ≤ 2 ^ (Int.log 2 x + 1) := (Int.lt_zpow_succ_log_self (by norm_num) x).le
        _ ≤ 2 ^ Int.log 2 y := zpow_le_zpow_right₀ (by norm_num) (by omega)
    have hyge : ((2 ^ (f.bits - 1) : ℤ) : ℚ) * 2 ^ f.ulpExp y ≤ y := by
      rw [hfirst]
      exact_mod_cast Int.zpow_log_le_self (b := 2) (by norm_num) hy
    exact (nearest_le hm (least_le_ulpExp y) hx hxle).trans (le_nearest hm (least_le_ulpExp y) hy hyge)

theorem nearest_mono (h : x ≤ y) : f.nearest x ≤ f.nearest y := by
  by_cases hx : 0 < x
  · exact nearest_mono_of_pos hx h
  · by_cases hy : y < 0
    · have hneg := nearest_mono_of_pos (f := f) (neg_pos.mpr hy) (neg_le_neg h)
      rw [nearest_neg, nearest_neg] at hneg
      linarith
    · have hnx := nearest_nonneg (f := f) (x := -x) (by linarith)
      rw [nearest_neg] at hnx
      have hny := nearest_nonneg (f := f) (x := y) (by linarith)
      linarith

/-- Rounding keeps the order. -/
theorem round_mono (h : x ≤ y) : le (f.round x) (f.round y) = true := by
  have hv := nearest_mono (f := f) h
  have hl := f.limit_pos
  unfold round
  by_cases hover : f.limit ≤ f.nearest x
  · rw [if_pos hover, if_pos (hover.trans hv)]
    rfl
  · rw [if_neg hover]
    by_cases hunder : f.nearest x ≤ -f.limit
    · rw [if_pos hunder]
      split
      · rfl
      · split <;> rfl
    · rw [if_neg hunder]
      split
      · rfl
      · rw [if_neg (by linarith)]
        simpa using hv

theorem round_ne_nan (x : ℚ) : f.round x ≠ .nan := by
  unfold round
  split
  · exact Number.noConfusion
  · split <;> exact Number.noConfusion

theorem convert_eq_nan_iff {a : Number} : f.convert a = .nan ↔ a = .nan := by
  cases a with
  | fin q => simp [convert, round_ne_nan]
  | _ => simp [convert]

/-- Conversion keeps the order of what can be compared. -/
theorem convert_mono {a b : Number} (h : le a b = true) : le (f.convert a) (f.convert b) = true := by
  cases a with
  | nan => rw [nan_le] at h; cases h
  | negInf =>
    cases b with
    | nan => cases h
    | fin q => exact negInf_le (round_ne_nan q)
    | _ => rfl
  | posInf =>
    cases b with
    | posInf => rfl
    | _ => cases h
  | fin q =>
    cases b with
    | nan => cases h
    | negInf => cases h
    | posInf => exact le_posInf (round_ne_nan q)
    | fin r => exact round_mono (by simpa using h)

end Format

/-! ## Doubles -/

theorem lt_overflow {x : ℚ} (h : x < 2 ^ 64) : x < double.limit :=
  h.trans_le (pow_le_pow_right₀ (by norm_num) (by norm_num))

/-- Rounding a positive number does not take it below a double below it. -/
theorem le_round {m k : ℤ} {x : ℚ} (hm : 0 ≤ m) (hm' : m < 2 ^ 53) (hk : -1074 ≤ k) (hx : 0 < x)
    (h : (m : ℚ) * 2 ^ k ≤ x) : le (.fin (m * 2 ^ k)) (round x) = true := by
  have hv := Format.le_nearest (f := double) hm' hk hx h
  have h0 : (0 : ℚ) ≤ m * 2 ^ k := mul_nonneg (by exact_mod_cast hm) (two_zpow_pos k).le
  have ho := double.limit_pos
  unfold round Format.round
  split
  · rfl
  · rw [if_neg (by linarith)]
    simpa using hv

/-- Rounding a positive number does not take it above a double above it. -/
theorem round_le {m k : ℤ} {x : ℚ} (hm : m < 2 ^ 53) (hk : -1074 ≤ k) (hx : 0 < x)
    (hfin : (m : ℚ) * 2 ^ k < double.limit) (h : x ≤ m * 2 ^ k) :
    le (round x) (.fin (m * 2 ^ k)) = true := by
  have hv := Format.nearest_le (f := double) hm hk hx h
  unfold round Format.round
  rw [if_neg (by linarith)]
  split
  · rfl
  · simpa using hv

theorem round_ne_nan (x : ℚ) : round x ≠ .nan := Format.round_ne_nan x

/-- Integers below 2^53 are doubles. -/
theorem round_natCast {n : ℕ} (h : n < 2 ^ 53) : round n = .fin n := by
  have ho := double.limit_pos
  have hv : double.nearest n = n := by
    by_cases h0 : n = 0
    · subst h0
      exact_mod_cast Format.nearest_zero
    · have hx : (0 : ℚ) < n := by exact_mod_cast Nat.pos_of_ne_zero h0
      have hn : (n : ℤ) < 2 ^ double.bits := by exact_mod_cast h
      have hk : double.least ≤ 0 := by norm_num [double]
      have h1 := Format.le_nearest hn hk hx (by simp)
      have h2 := Format.nearest_le hn hk hx (by simp)
      simp only [Int.cast_natCast, zpow_zero, mul_one] at h1 h2
      exact le_antisymm h2 h1
  have hsmall : (n : ℚ) < double.limit := lt_overflow (by exact_mod_cast h.trans (by norm_num))
  have h0 : (0 : ℚ) ≤ n := n.cast_nonneg
  unfold round Format.round
  rw [hv, if_neg (by linarith), if_neg (by linarith)]

/-- Rounding keeps the order. -/
theorem round_mono {x y : ℚ} (h : x ≤ y) : le (round x) (round y) = true := Format.round_mono h

theorem zero_le_round_natCast (n : ℕ) : le (.fin 0) (round n) = true := by
  have hzero : round 0 = .fin 0 := by simpa using round_natCast (n := 0) (by norm_num)
  rw [← hzero]
  exact round_mono (by positivity)

theorem round_natCast_ne_negInf (n : ℕ) : round n ≠ .negInf := by
  intro h
  have := zero_le_round_natCast n
  rw [h] at this
  cases this

/-- Dividing by a positive number keeps the order of what is not negative. -/
theorem divBy_mono {a b : Number} (h0 : le (.fin 0) a = true) (h : le a b = true) {d : ℚ} (hd : 0 < d) :
    le (divBy a d) (divBy b d) = true := by
  cases a with
  | nan => cases h
  | negInf => cases h0
  | posInf =>
    cases b with
    | posInf => rfl
    | _ => cases h
  | fin x =>
    have hx : 0 ≤ x := by simpa using h0
    cases b with
    | nan => cases h
    | negInf => cases h
    | posInf => exact le_posInf (round_ne_nan _)
    | fin y =>
      have hxy : x ≤ y := by simpa using h
      exact round_mono (by gcongr)

end Number

end Catkit2
