import Catkit2.Core.Text

/-!
# `msg % ()` (printf-style formatting of a `str` without values)

CPython reads a directive in phases: the mapping key, flags, width,
precision, length, conversion. Each phase takes the characters that belong to
it and hands the first that does not to the next one (`step`). Without values
only the conversion `%` writes anything; any other asks for a value.

* `formatNoArgs_eq_self_iff`: the text comes back exactly when it has no `%`.
-/
namespace Catkit2.PyText

inductive Mode where
  | literal
  | directive
  | flags
  | width (w : Nat)
  | point
  | precision (p : Nat)
  | length
  deriving DecidableEq, Repr

/-- The next mode and what is written. -/
abbrev Step := Except Error (Mode × Text)

def percent : CodePoint := ofChar '%'

def isDigit (c : CodePoint) : Bool := Nat.ble 0x30 c.val && Nat.ble c.val 0x39

def digit (c : CodePoint) : Nat := c.val - 0x30

def notEnough : Error := .typeError "not enough arguments for format string"

def readConversion (c : CodePoint) : Step :=
  if c = percent then .ok (.literal, [percent]) else .error notEnough

def readLength (c : CodePoint) : Step :=
  if c ∈ text "hlL" then .ok (.length, []) else readConversion c

/-- A precision is a C `int`. -/
def readPrecision (p : Nat) (c : CodePoint) : Step :=
  if isDigit c then
    if (0x7fffffff - digit c) / 10 < p then .error (.valueError "precision too big")
    else .ok (.precision (p * 10 + digit c), [])
  else readLength c

def readPoint (c : CodePoint) : Step :=
  if c = ofChar '*' then .error notEnough else readPrecision 0 c

/-- A width is a `Py_ssize_t`. -/
def readWidth (w : Nat) (c : CodePoint) : Step :=
  if isDigit c then
    if (0x7fffffffffffffff - digit c) / 10 < w then .error (.valueError "width too big")
    else .ok (.width (w * 10 + digit c), [])
  else if c = ofChar '.' then .ok (.point, [])
  else readLength c

def readFlags (c : CodePoint) : Step :=
  if c ∈ text "-+ #0" then .ok (.flags, [])
  else if c = ofChar '*' then .error notEnough
  else readWidth 0 c

def readDirective (c : CodePoint) : Step :=
  if c = ofChar '(' then .error (.typeError "format requires a mapping") else readFlags c

def step : Mode → CodePoint → Step
  | .literal, c => if c = percent then .ok (.directive, []) else .ok (.literal, [c])
  | .directive, c => readDirective c
  | .flags, c => readFlags c
  | .width w, c => readWidth w c
  | .point, c => readPoint c
  | .precision p, c => readPrecision p c
  | .length, c => readConversion c

def formatFrom : Mode → Text → Except Error Text
  | .literal, [] => .ok []
  | _, [] => .error (.valueError "incomplete format")
  | m, c :: t => do
    let (m', written) ← step m c
    let rest ← formatFrom m' t
    return written ++ rest

def formatNoArgs (msg : Text) : Except Error Text := formatFrom .literal msg

/-! ## A character writes at most one -/

/-- At most one character is written. -/
def Brief (s : Step) : Prop := ∀ m written, s = .ok (m, written) → written.length ≤ 1

theorem brief_error (e : Error) : Brief (.error e) := fun _ _ h => by cases h

theorem brief_ok {m : Mode} {written : Text} (h : written.length ≤ 1) : Brief (.ok (m, written)) := by
  intro m' written' heq
  cases heq
  exact h

theorem brief_ite {p : Prop} [Decidable p] {s s' : Step} (h : Brief s) (h' : Brief s') :
    Brief (if p then s else s') := by
  split
  · exact h
  · exact h'

theorem brief_conversion (c : CodePoint) : Brief (readConversion c) :=
  brief_ite (brief_ok (by simp)) (brief_error _)

theorem brief_length (c : CodePoint) : Brief (readLength c) :=
  brief_ite (brief_ok (by simp)) (brief_conversion c)

theorem brief_precision (p : Nat) (c : CodePoint) : Brief (readPrecision p c) :=
  brief_ite (brief_ite (brief_error _) (brief_ok (by simp))) (brief_length c)

theorem brief_width (w : Nat) (c : CodePoint) : Brief (readWidth w c) :=
  brief_ite (brief_ite (brief_error _) (brief_ok (by simp)))
    (brief_ite (brief_ok (by simp)) (brief_length c))

theorem brief_flags (c : CodePoint) : Brief (readFlags c) :=
  brief_ite (brief_ok (by simp)) (brief_ite (brief_error _) (brief_width 0 c))

theorem brief_step (m : Mode) (c : CodePoint) : Brief (step m c) := by
  cases m with
  | literal => exact brief_ite (brief_ok (by simp)) (brief_ok (by simp))
  | directive => exact brief_ite (brief_error _) (brief_flags c)
  | flags => exact brief_flags c
  | width w => exact brief_width w c
  | point => exact brief_ite (brief_error _) (brief_precision 0 c)
  | precision p => exact brief_precision p c
  | length => exact brief_conversion c

/-! ## The whole text -/

theorem formatFrom_cons {m : Mode} {c : CodePoint} {t out : Text} :
    formatFrom m (c :: t) = .ok out ↔ ∃ m' written rest, step m c = .ok (m', written) ∧
      formatFrom m' t = .ok rest ∧ out = written ++ rest := by
  have h : formatFrom m (c :: t) = (do
      let (m', written) ← step m c
      let rest ← formatFrom m' t
      return written ++ rest) := by
    cases m <;> rfl
  rw [h, bind_ok_iff]
  constructor
  · intro ⟨⟨m', written⟩, hs, h⟩
    obtain ⟨rest, hr, h⟩ := bind_ok_iff.mp h
    cases h
    exact ⟨m', written, rest, hs, hr, rfl⟩
  · intro ⟨m', written, rest, hs, hr, hout⟩
    subst hout
    exact ⟨(m', written), hs, bind_ok_iff.mpr ⟨rest, hr, rfl⟩⟩

theorem formatFrom_length {t : Text} : ∀ {m : Mode} {out : Text}, formatFrom m t = .ok out →
    out.length ≤ t.length := by
  induction t with
  | nil =>
    intro m out h
    cases m <;> cases h
    simp
  | cons c t ih =>
    intro m out h
    obtain ⟨m', written, rest, hs, hr, rfl⟩ := formatFrom_cons.mp h
    have hw := brief_step m c m' written hs
    have hrest := ih hr
    simp only [List.length_append, List.length_cons]
    omega

/-- The `%` that starts a directive writes nothing. -/
theorem formatNoArgs_length {t out : Text} (hp : percent ∈ t) (h : formatNoArgs t = .ok out) :
    out.length < t.length := by
  unfold formatNoArgs at h
  induction t generalizing out with
  | nil => cases hp
  | cons c t ih =>
    obtain ⟨m', written, rest, hs, hr, rfl⟩ := formatFrom_cons.mp h
    simp only [step] at hs
    split at hs
    · cases hs
      have hrest := formatFrom_length hr
      simp only [List.nil_append, List.length_cons]
      omega
    · rename_i hc
      cases hs
      have hrest := ih ((List.mem_cons.mp hp).resolve_left fun h => hc h.symm) hr
      simp only [List.length_append, List.length_cons, List.length_nil]
      omega

theorem formatNoArgs_of_not_mem {t : Text} (hp : percent ∉ t) : formatNoArgs t = .ok t := by
  unfold formatNoArgs
  induction t with
  | nil => rfl
  | cons c t ih =>
    have hc : c ≠ percent := fun h => hp (h ▸ List.mem_cons_self)
    have ht := ih fun h => hp (List.mem_cons_of_mem _ h)
    exact formatFrom_cons.mpr ⟨.literal, [c], t, if_neg hc, ht, rfl⟩

theorem formatNoArgs_eq_self_iff {t : Text} : formatNoArgs t = .ok t ↔ percent ∉ t := by
  constructor
  · intro h hp
    have := formatNoArgs_length hp h
    omega
  · exact formatNoArgs_of_not_mem

example : formatNoArgs (text "100%% and %5%") = .ok (text "100% and %") := by decide

end Catkit2.PyText
