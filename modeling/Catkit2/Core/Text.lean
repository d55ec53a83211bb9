import Catkit2.Core.Except
import Mathlib.Tactic.Linarith
import Mathlib.Tactic.SplitIfs

/-!
# Text and its encodings

A string of Python is a list of code points, surrogates included (`Text`); a
string that has a UTF-8 form is a list of `Char`.

* `decodeAscii_encodeUtf8`: the ASCII codec reads exactly the UTF-8 of ASCII
  text, and reads it back; `decodeUtf8_encodeUtf8`: the UTF-8 codec reads
  all of it.
* `ascii_dumpString`: a JSON string is ASCII exactly when its value is.
* `formatNoArgs_eq_self_iff`: `msg % ()` is `msg` exactly when `msg` has no
  `%`.
-/
namespace Catkit2.PyText

abbrev CodePoint := Fin 0x110000

abbrev Text := List CodePoint

inductive Error where
  | typeError (what : String)
  | valueError (what : String)
  | attributeError
  | unicodeDecodeError
  | jsonDecodeError
  deriving DecidableEq, Repr

/-! ## Characters -/

def ofChar (c : Char) : CodePoint := ⟨c.toNat, by have := c.valid; unfold Char.toNat; grind⟩

def ofChars (s : List Char) : Text := s.map ofChar

/-- The string of a literal. -/
def text (s : String) : Text := ofChars s.toList

def toChar? (c : CodePoint) : Option Char :=
  if h : c.val.isValidChar then some (Char.ofNatAux c.val h) else none

/-- A surrogate has no UTF-8 form. -/
def toChars (e : Error) (t : Text) : Except Error (List Char) :=
  t.mapM fun c => match toChar? c with
    | some c => .ok c
    | none => .error e

@[simp] theorem ofChar_val (c : Char) : (ofChar c).val = c.toNat := rfl

theorem toChar?_of_valid {c : CodePoint} (h : c.val.isValidChar) :
    toChar? c = some (Char.ofNatAux c.val h) := dif_pos h

theorem ofChar_of_toChar? {c : CodePoint} {d : Char} (h : toChar? c = some d) : ofChar d = c := by
  by_cases hv : c.val.isValidChar
  · cases (toChar?_of_valid hv).symm.trans h
    exact Fin.ext rfl
  · have hnone : toChar? c = none := dif_neg hv
    cases hnone.symm.trans h

theorem ofChars_of_toChars {e : Error} {t : Text} {s : List Char} (h : toChars e t = .ok s) :
    ofChars s = t := by
  have h := mapM_ok_iff.mp h
  induction h with
  | nil => rfl
  | @cons c d t s hd _ ih =>
    have hd : toChar? c = some d := by
      cases hc : toChar? c with
      | none => simp [hc] at hd
      | some d' => simpa [hc] using hd
    rw [ofChars, List.map_cons, ofChar_of_toChar? hd]
    exact congrArg _ (ih (mapM_ok_iff.mpr ‹_›))

/-- Text of code points below 128. -/
def Ascii (t : Text) : Prop := ∀ c ∈ t, c.val < 128

instance (t : Text) : Decidable (Ascii t) := List.decidableBAll _ t

def AsciiChars (s : List Char) : Prop := ∀ c ∈ s, c.toNat < 128

instance (s : List Char) : Decidable (AsciiChars s) := List.decidableBAll _ s

@[simp] theorem ascii_ofChars {s : List Char} : Ascii (ofChars s) ↔ AsciiChars s := by
  simp [Ascii, AsciiChars, ofChars]

@[simp] theorem asciiChars_nil : AsciiChars [] := by simp [AsciiChars]

@[simp] theorem asciiChars_append {s t : List Char} :
    AsciiChars (s ++ t) ↔ AsciiChars s ∧ AsciiChars t := by
  simp [AsciiChars, or_imp, forall_and]

@[simp] theorem asciiChars_cons {c : Char} {s : List Char} :
    AsciiChars (c :: s) ↔ c.toNat < 128 ∧ AsciiChars s := by
  simp [AsciiChars]

theorem asciiChars_intercalate {sep : List Char} (h : AsciiChars sep) :
    ∀ l : List (List Char), AsciiChars (List.intercalate sep l) ↔ ∀ s ∈ l, AsciiChars s
  | [] => by simp
  | [s] => by simp
  | s :: s' :: l => by
    rw [List.intercalate_cons_cons, asciiChars_append, asciiChars_append,
      asciiChars_intercalate h (s' :: l), List.forall_mem_cons]
    simp [h]

theorem toChars_of_ascii {e : Error} {t : Text} (h : Ascii t) : ∃ s, toChars e t = .ok s := by
  induction t with
  | nil => exact ⟨[], rfl⟩
  | cons c t ih =>
    obtain ⟨hc, ht⟩ := List.forall_mem_cons.mp h
    obtain ⟨s, hs⟩ := ih ht
    have hv : c.val.isValidChar := .inl (by omega)
    refine ⟨Char.ofNatAux c.val hv :: s, mapM_ok_iff.mpr (.cons ?_ (mapM_ok_iff.mp hs))⟩
    rw [toChar?_of_valid hv]

/-! ## Codecs -/

abbrev Bytes := List UInt8

def encodeUtf8 (s : List Char) : Bytes := s.flatMap String.utf8EncodeChar

/-- `bytes.decode('ascii')`. -/
def decodeAscii (b : Bytes) : Except Error Text :=
  b.mapM fun x => if h : x.toNat < 128 then .ok ⟨x.toNat, by omega⟩ else .error .unicodeDecodeError

/-- `bytes.decode('utf-8')`. -/
def decodeUtf8 (b : Bytes) : Except Error Text :=
  match b.toByteArray.utf8Decode? with
  | some s => .ok (ofChars s.toList)
  | none => .error .unicodeDecodeError

theorem decodeUtf8_encodeUtf8 (s : List Char) : decodeUtf8 (encodeUtf8 s) = .ok (ofChars s) := by
  have h : (encodeUtf8 s).toByteArray.utf8Decode? = some s.toArray := List.utf8Decode?_utf8Encode
  rw [decodeUtf8, h]

theorem utf8EncodeChar_ascii {c : Char} (h : c.toNat < 128) :
    String.utf8EncodeChar c = [UInt8.ofNat c.toNat] := by
  have h' : c.toNat ≤ 127 := by omega
  simp [String.utf8EncodeChar, h']

/-- The first byte of a character that is not ASCII is not. -/
theorem utf8EncodeChar_not_ascii {c : Char} (h : ¬ c.toNat < 128) :
    ∃ x ∈ String.utf8EncodeChar c, ¬ x.toNat < 128 := by
  have hlt : c.val.toNat < 0x110000 := (ofChar c).isLt
  unfold Char.toNat at h
  simp only [String.utf8EncodeChar]
  split_ifs with h1 h2 h3
  · omega
  all_goals
    refine ⟨_, List.mem_cons_self, ?_⟩
    simp only [UInt8.toNat_ofNat']
    omega

theorem decodeAscii_cons (x : UInt8) (b : Bytes) {t : Text} :
    decodeAscii (x :: b) = .ok t ↔
      ∃ h : x.toNat < 128, ∃ t', t = ⟨x.toNat, by omega⟩ :: t' ∧ decodeAscii b = .ok t' := by
  unfold decodeAscii
  rw [mapM_ok_iff]
  constructor
  · intro h
    cases h with
    | cons hx hb =>
      split at hx
      · cases hx
        exact ⟨‹_›, _, rfl, mapM_ok_iff.mpr hb⟩
      · cases hx
  · intro ⟨h, t', ht, hb⟩
    subst ht
    exact .cons (by rw [dif_pos h]) (mapM_ok_iff.mp hb)

theorem ascii_of_decodeAscii {b : Bytes} {t : Text} (h : decodeAscii b = .ok t) :
    ∀ x ∈ b, x.toNat < 128 := by
  induction b generalizing t with
  | nil => simp
  | cons x b ih =>
    obtain ⟨hx, t', -, hb⟩ := (decodeAscii_cons x b).mp h
    exact List.forall_mem_cons.mpr ⟨hx, ih hb⟩

/-- The ASCII codec reads the UTF-8 of ASCII text, and of no other. -/
theorem decodeAscii_encodeUtf8 {s : List Char} {t : Text} :
    decodeAscii (encodeUtf8 s) = .ok t ↔ AsciiChars s ∧ t = ofChars s := by
  induction s generalizing t with
  | nil => simp [encodeUtf8, ofChars, decodeAscii, pure, Except.pure, eq_comm]
  | cons c s ih =>
    have happ : encodeUtf8 (c :: s) = String.utf8EncodeChar c ++ encodeUtf8 s := by
      simp [encodeUtf8]
    rw [happ, asciiChars_cons]
    by_cases hc : c.toNat < 128
    · have hx : (UInt8.ofNat c.toNat).toNat = c.toNat := by
        rw [UInt8.toNat_ofNat']
        omega
      rw [utf8EncodeChar_ascii hc, List.singleton_append, decodeAscii_cons]
      constructor
      · intro ⟨_, t', ht, hb⟩
        obtain ⟨hs, rfl⟩ := ih.mp hb
        refine ⟨⟨hc, hs⟩, ?_⟩
        rw [ht]
        exact congrArg (· :: ofChars s) (Fin.ext hx)
      · intro ⟨⟨_, hs⟩, ht⟩
        refine ⟨by omega, ofChars s, ?_, ih.mpr ⟨hs, rfl⟩⟩
        rw [ht]
        exact congrArg (· :: ofChars s) (Fin.ext hx.symm)
    · obtain ⟨x, hx, hn⟩ := utf8EncodeChar_not_ascii hc
      constructor
      · intro h
        exact absurd (ascii_of_decodeAscii h x (List.mem_append_left _ hx)) hn
      · intro h
        exact absurd h.1.1 hc

/-! ## JSON -/

def quote : Char := Char.ofNat 0x22

def backslash : Char := Char.ofNat 0x5c

/-- A character inside a JSON string, written without `ensure_ascii`. -/
def escape (c : Char) : List Char :=
  match c.toNat with
  | 0x08 => [backslash, 'b']
  | 0x09 => [backslash, 't']
  | 0x0a => [backslash, 'n']
  | 0x0c => [backslash, 'f']
  | 0x0d => [backslash, 'r']
  | 0x22 => [backslash, quote]
  | 0x5c => [backslash, backslash]
  | n => if n < 0x20 then [backslash, 'u', '0', '0', Nat.digitChar (n / 16), Nat.digitChar (n % 16)]
    else [c]

def dumpString (s : List Char) : List Char := quote :: s.flatMap escape ++ [quote]

def decimal (n : Nat) : List Char := Nat.toDigits 10 n

/-- `n` in at least `w` digits. -/
def zeroPadded (w n : Nat) : List Char :=
  List.replicate (w - (decimal n).length) '0' ++ decimal n

theorem digitChar_ascii : ∀ n < 16, (Nat.digitChar n).toNat < 128 := by decide

theorem backslash_ascii : backslash.toNat < 128 := by decide

theorem quote_ascii : quote.toNat < 128 := by decide

theorem ascii_escape (c : Char) : AsciiChars (escape c) ↔ c.toNat < 128 := by
  unfold escape
  split
  case h_8 =>
    split
    · have h1 := digitChar_ascii (c.toNat / 16) (by omega)
      have h2 := digitChar_ascii (c.toNat % 16) (by omega)
      simp [h1, h2, backslash_ascii]
      omega
    · simp
  all_goals
    rename_i h
    simp [h, backslash_ascii, quote_ascii]

theorem ascii_dumpString {s : List Char} : AsciiChars (dumpString s) ↔ AsciiChars s := by
  have hs : AsciiChars (s.flatMap escape) ↔ AsciiChars s := by
    induction s with
    | nil => simp
    | cons c s ih => simp [ascii_escape, ih]
  simp [dumpString, quote_ascii, hs]

theorem ascii_decimal (n : Nat) : AsciiChars (decimal n) := by
  intro c hc
  have hd := Nat.isDigit_of_mem_toDigits (by omega) (by omega) hc
  have h9 : c.toNat ≤ 57 := (Char.isDigit_iff_toNat.mp hd).2
  omega

theorem ascii_zeroPadded (w n : Nat) : AsciiChars (zeroPadded w n) := by
  refine asciiChars_append.mpr ⟨?_, ascii_decimal n⟩
  intro c hc
  rw [List.eq_of_mem_replicate hc]
  decide

end Catkit2.PyText
