import Mathlib.Data.Nat.Basic
import Mathlib.Tactic.TypeStar

/-!
# Byte memory and ring slots

`Mem` is a mapped region, the byte at each offset; `memcpy` and `read` are
the two accesses. The frame lemmas say what a copy leaves alone
(`read_memcpy_of_disjoint`) and what it writes (`read_memcpy_self`).

A ring of `n` slots of `w` bytes stores item `i` at `slotOffset n w i`. Two
items of one window of at most `n` ids have disjoint slots
(`slot_ne_of_window`, `slotOffset_disjoint`), and every slot lies in the first `n * w` bytes
(`slotOffset_add_le`).
-/
namespace Catkit2

/-- A mapped region. -/
abbrev Mem := Nat → UInt8

namespace Mem

/-- `memcpy(base + dst, src, n)`. -/
def memcpy (m : Mem) (dst : Nat) (src : Mem) (n : Nat) : Mem :=
  fun i => if dst ≤ i ∧ i < dst + n then src (i - dst) else m i

/-- The `n` bytes from offset `off` on. -/
def read (m : Mem) (off n : Nat) : List UInt8 := (List.range n).map fun i => m (off + i)

/-- A buffer that holds `l`. -/
def ofList (l : List UInt8) : Mem := fun i => l.getD i 0

@[simp] theorem length_read (m : Mem) (off n : Nat) : (m.read off n).length = n := by
  simp [read]

theorem read_congr {m m' : Mem} {off off' n : Nat} (h : ∀ i, i < n → m (off + i) = m' (off' + i)) :
    m.read off n = m'.read off' n := by
  apply List.map_congr_left
  intro i hi
  exact h i (List.mem_range.mp hi)

theorem read_ofList (l : List UInt8) : (ofList l).read 0 l.length = l := by
  apply List.ext_getElem
  · simp
  · intro i h1 h2
    simp [read, ofList, h2]

theorem read_memcpy_self (m src : Mem) (dst n : Nat) :
    (m.memcpy dst src n).read dst n = src.read 0 n := by
  apply read_congr
  intro i hi
  simp [memcpy, hi]

theorem read_memcpy_of_disjoint (m src : Mem) {dst n off k : Nat}
    (h : off + k ≤ dst ∨ dst + n ≤ off) : (m.memcpy dst src n).read off k = m.read off k := by
  apply read_congr
  intro i hi
  simp only [memcpy]
  rw [if_neg (by omega)]

end Mem

/-! ## Slots of a ring -/

/-- Where item `i` of a ring of `n` slots of `w` bytes is stored. -/
def slotOffset (n w i : Nat) : Nat := i % n * w

/-- `i ↦ i % n` is injective on a window of at most `n` ids. -/
theorem slot_inj {n a b : Nat} (hab : a ≤ b) (hb : b < a + n) (h : a % n = b % n) : a = b := by
  have hd : (b - a) % n = 0 := Nat.sub_mod_eq_zero_of_mod_eq h.symm
  rw [Nat.mod_eq_of_lt (by omega)] at hd
  omega

theorem slot_ne_of_window {n a b lo : Nat} (ha : lo ≤ a) (hb : lo ≤ b) (ha' : a < lo + n)
    (hb' : b < lo + n) (hne : a ≠ b) : a % n ≠ b % n := by
  intro h
  rcases Nat.le_total a b with hab | hab
  · exact hne (slot_inj hab (by omega) h)
  · exact hne (slot_inj hab (by omega) h.symm).symm

theorem slotOffset_disjoint {n a b : Nat} (w : Nat) (h : a % n ≠ b % n) :
    slotOffset n w a + w ≤ slotOffset n w b ∨ slotOffset n w b + w ≤ slotOffset n w a := by
  unfold slotOffset
  rcases Nat.lt_or_gt_of_ne h with h | h
  · left
    have := Nat.mul_le_mul_right w (Nat.succ_le_of_lt h)
    rwa [Nat.succ_mul] at this
  · right
    have := Nat.mul_le_mul_right w (Nat.succ_le_of_lt h)
    rwa [Nat.succ_mul] at this

theorem slotOffset_add_le {n : Nat} (hn : 0 < n) (w i : Nat) : slotOffset n w i + w ≤ n * w := by
  have := Nat.mul_le_mul_right w (Nat.succ_le_of_lt (Nat.mod_lt i hn))
  rwa [Nat.succ_mul] at this

end Catkit2
