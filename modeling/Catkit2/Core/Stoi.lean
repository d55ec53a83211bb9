import Mathlib.Algebra.Ring.Int.Defs
import Mathlib.Algebra.Ring.Nat
import Mathlib.Data.List.TakeWhile

/-!
# Integers in text, as `std::stoi` reads them

White space, a sign, and as many decimal digits as follow, in the "C" locale;
what comes behind them is ignored. `strtol` stops at the ends of a `long`, which
is no narrower than an `int`, and `stoi` raises in that case as for any other
number that is no `int`.

* `stoi_str`: the digits of a number are read as that number.
-/
namespace Catkit2.Stoi

inductive Exception where
  | invalid_argument
  | out_of_range
  deriving DecidableEq, Repr

/-! ## Reading -/

/-- A blank, or one of the characters from tab to carriage return. -/
def isSpace (c : UInt8) : Bool := c = 32 || (9 ≤ c && c ≤ 13)

def isDigit (c : UInt8) : Bool := 48 ≤ c && c ≤ 57

/-- Whether there is a minus sign, and what comes behind the sign. -/
def splitSign : List UInt8 → Bool × List UInt8
  | [] => (false, [])
  | c :: s => if c = 45 then (true, s) else if c = 43 then (false, s) else (false, c :: s)

def value (digits : List UInt8) : Nat := digits.foldl (fun n c => 10 * n + (c.toNat - 48)) 0

/-- `none` where there is no digit. -/
def strtol (s : List UInt8) : Option Int :=
  let (negative, s) := splitSign (s.dropWhile isSpace)
  let digits := s.takeWhile isDigit
  if digits = [] then none else some (if negative then -value digits else value digits)

def stoi (s : List UInt8) : Except Exception Int32 :=
  match strtol s with
  | none => .error .invalid_argument
  | some n => if -2 ^ 31 ≤ n ∧ n < 2 ^ 31 then .ok (Int32.ofInt n) else .error .out_of_range

example : stoi [32, 45, 49, 50, 120] = .ok (-12) ∧ stoi [45, 120] = .error .invalid_argument := by decide

/-! ## Writing -/

/-- The decimal digits of a number. -/
def str (n : Nat) : List UInt8 := (Nat.toDigits 10 n).map fun c => UInt8.ofNat c.toNat

theorem toNat_of_digit {c : Char} (h : c.isDigit = true) :
    (UInt8.ofNat c.toNat).toNat = c.toNat ∧ 48 ≤ c.toNat ∧ c.toNat ≤ 57 := by
  obtain ⟨h1, h2⟩ := Char.isDigit_iff_toNat.mp h
  refine ⟨?_, h1, h2⟩
  rw [UInt8.toNat_ofNat']
  exact Nat.mod_eq_of_lt (Nat.lt_of_le_of_lt h2 (by decide))

theorem isDigit_of_mem_str {n : Nat} {c : UInt8} (h : c ∈ str n) : isDigit c = true := by
  obtain ⟨d, hd, rfl⟩ := List.mem_map.mp h
  obtain ⟨h1, h2, h3⟩ := toNat_of_digit (Nat.isDigit_of_mem_toDigits (by decide) (by decide) hd)
  simp only [isDigit, Bool.and_eq_true, decide_eq_true_eq, UInt8.le_iff_toNat_le, h1]
  exact ⟨h2, h3⟩

theorem str_ne_nil (n : Nat) : str n ≠ [] := by
  intro h
  exact Nat.toDigits_ne_nil (List.map_eq_nil_iff.mp h)

/-- A digit is neither white space nor a sign. -/
theorem not_space_of_isDigit {c : UInt8} (h : isDigit c = true) : isSpace c = false ∧ c ≠ 45 ∧ c ≠ 43 := by
  simp only [isDigit, Bool.and_eq_true, decide_eq_true_eq, UInt8.le_iff_toNat_le] at h
  obtain ⟨h1, -⟩ := h
  have h48 : 48 ≤ c.toNat := h1
  refine ⟨?_, ?_, ?_⟩
  · rw [Bool.eq_false_iff]
    intro hs
    simp only [isSpace, Bool.or_eq_true, Bool.and_eq_true, decide_eq_true_eq, UInt8.le_iff_toNat_le] at hs
    rcases hs with rfl | ⟨-, hs⟩
    · exact absurd h48 (by decide)
    · have : c.toNat ≤ 13 := hs
      omega
  · rintro rfl
    exact absurd h48 (by decide)
  · rintro rfl
    exact absurd h48 (by decide)

theorem value_str (n : Nat) : value (str n) = n := by
  have hfold : ∀ (l : List Char) (m : Nat), (∀ c ∈ l, c.isDigit = true) →
      (l.map fun c => UInt8.ofNat c.toNat).foldl (fun n c => 10 * n + (c.toNat - 48)) m = Nat.ofDigitChars 10 l m := by
    intro l
    induction l with
    | nil => intro m _; rw [Nat.ofDigitChars_nil]; rfl
    | cons c l ih =>
      intro m hl
      obtain ⟨hc, hl⟩ := List.forall_mem_cons.mp hl
      rw [List.map_cons, List.foldl_cons, ih _ hl, Nat.ofDigitChars_cons, (toNat_of_digit hc).1]
      rfl
  rw [value, str, hfold _ 0 fun c hc => Nat.isDigit_of_mem_toDigits (by decide) (by decide) hc]
  exact Nat.ofDigitChars_ten_toDigits

theorem strtol_str (n : Nat) : strtol (str n) = some n := by
  have hdigits := fun c => isDigit_of_mem_str (n := n) (c := c)
  obtain ⟨c, s, hs⟩ := List.exists_cons_of_ne_nil (str_ne_nil n)
  obtain ⟨hspace, hminus, hplus⟩ := not_space_of_isDigit (hdigits c (hs ▸ List.mem_cons_self))
  have hdrop : (str n).dropWhile isSpace = str n := by rw [hs, List.dropWhile_cons, hspace]; rfl
  have hsign : splitSign (str n) = (false, str n) := by rw [hs, splitSign, if_neg hminus, if_neg hplus]
  have htake : (str n).takeWhile isDigit = str n := List.takeWhile_eq_self_iff.mpr hdigits
  simp only [strtol, hdrop, hsign, htake, if_neg (str_ne_nil n), value_str]
  rfl

/-- **The digits of a number are read as that number.** -/
theorem stoi_str {n : Nat} (h : n < 2 ^ 31) : stoi (str n) = .ok (Int32.ofNat n) := by
  rw [stoi, strtol_str]
  show (if -2 ^ 31 ≤ (n : Int) ∧ (n : Int) < 2 ^ 31 then _ else _) = _
  rw [if_pos ⟨by omega, by omega⟩]
  rfl

end Catkit2.Stoi
