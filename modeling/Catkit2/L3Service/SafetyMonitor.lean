import Catkit2.Core.Except
import Catkit2.Core.Number
import Catkit2.Core.OrdMap
import Catkit2.L2Stream.LogRefinement
import Mathlib.Data.UInt

/-!
# The safety monitor and the services that rely on it

`check_safety` (catkit2/services/safety_monitor/safety_monitor.py) looks at
the latest frame of every configured safety and submits one bit for each to
the `is_safe` stream; `Service::IsSafe` (catkit_core/Service.cpp) reads the
newest frame of that stream. Every doubt is meant to fail closed: a frame
that cannot be read, a missing setting and an old check all count as unsafe.

What a check sees is a parameter (`Check.latest`): for each safety, in the
order they are checked, what `get_service`, `get_data_stream` and
`get_latest_frame` return or that one of them raises. The frame is looked at
in one moment. Numbers are `Number`s, and the Python float operations are
correctly rounded. Python compares an integer and a float exactly; numpy
converts an element and a bound to one dtype first (`Numpy`). Elements are
real: complex numbers have no order that a bound could mean.

* `verdict_met_iff`: a bit that is set means that the safety met its bounds,
  except where something compared is nan, or rounding takes an older frame or
  a reading out of bounds onto the limit, and nothing else rejects the safety.
* `isSafe_iff`: `IsSafe` is true exactly when the newest check is at most 180 s
  old and all of its bits are set.
* `isSafe_tells_all_iff`: of which vectors it tells whether all bits are set.
-/
namespace Catkit2.L3

open Catkit2.L1 Catkit2.L2

/-! ## Configuration -/

/-- A setting as the YAML file gives it; `int` includes booleans. -/
inductive PyValue where
  | none
  | int (n : ℤ)
  | float (x : Number)
  | str (s : StdString)

/-- The number a setting stands for, if it is one. -/
def PyValue.value : PyValue → Option Number
  | .int n => some (.fin n)
  | .float x => some x
  | .none | .str _ => Option.none

/-- One entry of `safeties`; a setting is `none` where the key is missing. -/
structure SafetyInfo where
  service_id : Option StdString
  stream_name : Option StdString
  safe_interval : Option PyValue
  minimum_value : Option PyValue
  maximum_value : Option PyValue

/-- The `safeties` of the configuration: a dictionary, with fewer entries than
memory has bytes for. -/
structure Safeties where
  entries : List (StdString × SafetyInfo)
  nodup : (OrdMap.keys entries).Nodup
  small : entries.length < 2 ^ 58

/-- `sorted(self.safeties.keys())`, with the entry of each.
mirrors catkit2/services/safety_monitor/safety_monitor.py:11-12 -/
def Safeties.checkedSafeties (c : Safeties) : List (StdString × SafetyInfo) :=
  OrdMap.ofEntries c.entries

/-- `d[key]` -/
def key {α : Type} (name : String) : Option α → Except String α
  | some v => .ok v
  | none => .error ("KeyError: " ++ name)

/-! ## Comparisons in numpy -/

/-- How numpy compares an element of a dtype with a setting: it converts both to a common
dtype, or raises where there is none. Conversion rounds, which keeps the order. -/
structure Numpy where
  common : DataType → PyValue → Except String (Number → Number)
  mono : ∀ {dtype v f}, common dtype v = .ok f → ∀ {a b}, Number.le a b = true → Number.le (f a) (f b) = true
  nan : ∀ {dtype v f}, common dtype v = .ok f → ∀ {a}, f a = .nan ↔ a = .nan

/-- Converted numbers are in order exactly if they were, and are still two. -/
theorem Numpy.lt_iff (numpy : Numpy) {dtype : DataType} {v : PyValue} {f : Number → Number}
    (h : numpy.common dtype v = .ok f) (a b : Number) :
    Number.lt (f a) (f b) = true ↔ Number.lt a b = true ∧ f a ≠ f b := by
  constructor
  · intro hlt
    refine ⟨?_, fun he => by rw [he, Number.lt_irrefl] at hlt; cases hlt⟩
    by_contra hne
    have hf := Number.lt_ne_nan hlt
    have hle : Number.le b a = true := Number.le_iff_not_lt.mpr
      ⟨fun h' => hf.1 ((numpy.nan h).mpr h'), fun h' => hf.2 ((numpy.nan h).mpr h'), Bool.eq_false_iff.mpr hne⟩
    rw [Number.not_lt_of_le (numpy.mono h hle)] at hlt
    cases hlt
  · intro ⟨hlt, hne⟩
    exact Number.lt_of_le_true_of_ne (numpy.mono h (Number.le_of_lt_true hlt)) hne

/-! ## One check -/

/-- What a check sees of a frame: its timestamp, its dtype and `last_frame.data[0]`. -/
structure Reading where
  timestamp : UInt64
  dtype : DataType
  first : Except String Number

/-- One call of `check_safety`: the time it starts, what it sees of the
`i`-th safety, and the time its result is submitted. -/
structure Check where
  currentTime : UInt64
  latest : Nat → StdString → StdString → Except String Reading
  submitted : UInt64

/-- `value * 1e9` -/
def timesE9 : PyValue → Except String Number
  | .int n =>
    match Number.round n with
    | .fin q => .ok (Number.round (q * 10 ^ 9))
    | _ => .error "OverflowError: int too large to convert to float"
  | .float x => .ok (Number.fmul x (.fin (10 ^ 9)))
  | .none => .error "TypeError: unsupported operand type(s) for *: 'NoneType' and 'float'"
  | .str _ => .error "TypeError: can't multiply sequence by non-int of type 'float'"

/-- `current_time - width`, the left operand converted to a float first. -/
def timestampLowerBound (currentTime : UInt64) (width : Number) : Number :=
  Number.fsub (Number.round currentTime.toNat) width

/-- `if bound is not None: if last_frame.data[0] < bound`; `cmp` is `<` for
the minimum, `>` for the maximum. -/
def violates (numpy : Numpy) (cmp : Number → Number → Bool) (last_frame : Reading) (bound : PyValue) :
    Except String Bool :=
  match bound with
  | .none => .ok false
  | bound =>
    match last_frame.first, bound.value, numpy.common last_frame.dtype bound with
    | .error e, _, _ => .error e
    | .ok x, some m, .ok f => .ok (cmp (f x) (f m))
    | .ok _, some _, .error e => .error e
    | .ok _, none, _ => .error "TypeError: '<' not supported between these types"

/-- `a > b` -/
def gt (a b : Number) : Bool := Number.lt b a

/-- The body of the `try`.
mirrors catkit2/services/safety_monitor/safety_monitor.py:27-49 -/
def checkBody (numpy : Numpy) (currentTime : UInt64) (info : SafetyInfo)
    (latest : StdString → StdString → Except String Reading) : Except String Bool := do
  let service_id ← key "service_id" info.service_id
  let stream_name ← key "stream_name" info.stream_name
  let last_frame ← latest service_id stream_name
  let safe_interval ← key "safe_interval" info.safe_interval
  let width ← timesE9 safe_interval
  let tooOld := Number.lt (.fin last_frame.timestamp.toNat) (timestampLowerBound currentTime width)
  let minimum_value ← key "minimum_value" info.minimum_value
  let tooLow ← violates numpy Number.lt last_frame minimum_value
  let maximum_value ← key "maximum_value" info.maximum_value
  let tooHigh ← violates numpy gt last_frame maximum_value
  pure (!tooOld && !tooLow && !tooHigh)

/-- An exception counts as unsafe.
mirrors catkit2/services/safety_monitor/safety_monitor.py:25-58 -/
def verdict (numpy : Numpy) (currentTime : UInt64) (info : SafetyInfo)
    (latest : StdString → StdString → Except String Reading) : Bool :=
  match checkBody numpy currentTime info latest with
  | .ok is_safe => is_safe
  | .error _ => false

/-- mirrors catkit2/services/safety_monitor/safety_monitor.py:20-58 -/
def isSafes (numpy : Numpy) (c : Safeties) (k : Check) : List Bool :=
  c.checkedSafeties.mapIdx fun i e => verdict numpy k.currentTime e.2 (k.latest i)

/-! ## The `is_safe` stream -/

/-- An array of `int8` zeros and ones. -/
def bits (l : List Bool) : List UInt8 := l.map fun b => if b then 1 else 0

/-- mirrors catkit2/services/safety_monitor/safety_monitor.py:14 -/
def makeIsSafeStream (c : Safeties) : Except String DataStream :=
  DataStream.create .int8 [UInt64.ofNat c.entries.length] 20

/-- mirrors catkit2/services/safety_monitor/safety_monitor.py:18-61 -/
def checkSafety (numpy : Numpy) (c : Safeties) (s : DataStream) (k : Check) : DataStream :=
  s.submitData (Mem.ofList (bits (isSafes numpy c k))) k.submitted

def monitor (numpy : Numpy) (c : Safeties) (s : DataStream) (checks : List Check) : DataStream :=
  checks.foldl (checkSafety numpy c) s

/-! ## The services -/

/-- `(current_time - frame.m_TimeStamp) / 1.0e9 > 3 * SAFETY_INTERVAL`
mirrors catkit_core/Service.cpp:237 -/
def checkTooOld (currentTime timeStamp : UInt64) : Bool :=
  Number.lt (.fin 180) (Number.divBy (Number.round (currentTime - timeStamp).toNat) (10 ^ 9))

/-- `frame.AsArray<std::uint8_t>()`
mirrors catkit_core/Tensor.inl:175-188 -/
def asArrayUInt8 (frame : DataFrame) (buffer : Mem) : List UInt8 :=
  buffer.read frame.data frame.arraySize

/-- `is_safe` is what `GetService("safety")` and `GetDataStream("is_safe")`
find, or that one of them throws. The sum of the bytes is a byte.
mirrors catkit_core/Service.cpp:223-267 -/
def isSafe (requiresSafety : Bool) (is_safe : Except String DataStream) (currentTime : UInt64) :
    Bool :=
  if !requiresSafety then true
  else match is_safe with
    | .error _ => false
    | .ok stream =>
      match stream.getLatestFrame with
      | .frame frame =>
        if checkTooOld currentTime frame.timeStamp then false
        else
          let data := asArrayUInt8 frame stream.buffer
          if data.sum.toNat ≠ data.length then false
          else true
      | _ => false

/-! ## What a set bit is to mean -/

/-- The settings and the frame of a safety as a check reads them. -/
structure Reads (info : SafetyInfo) (latest : StdString → StdString → Except String Reading)
    (seen : Reading) (interval minimum maximum : PyValue) : Prop where
  frame : ∃ service_id stream_name, info.service_id = some service_id ∧
    info.stream_name = some stream_name ∧ latest service_id stream_name = .ok seen
  interval : info.safe_interval = some interval
  minimum : info.minimum_value = some minimum
  maximum : info.maximum_value = some maximum

/-- The frame is no older than `safe_interval` seconds, in exact arithmetic. -/
def NoOlder (currentTime : UInt64) (seen : Reading) (interval : PyValue) : Prop :=
  match interval.value with
  | some (.fin q) => (currentTime.toNat : ℚ) - seen.timestamp.toNat ≤ q * 10 ^ 9
  | some .posInf => True
  | _ => False

/-- A bound that is configured holds of the first element. -/
def Bounded (rel : Number → Number → Bool) (seen : Reading) (bound : PyValue) : Prop :=
  bound ≠ .none → ∃ x m, seen.first = .ok x ∧ bound.value = some m ∧ rel x m = true

/-- The stream had a frame, no older than `safe_interval`, whose first element
is within the bounds that are configured. -/
def Met (currentTime : UInt64) (info : SafetyInfo)
    (latest : StdString → StdString → Except String Reading) : Prop :=
  ∃ seen interval minimum maximum, Reads info latest seen interval minimum maximum ∧
    NoOlder currentTime seen interval ∧ Bounded (fun x m => Number.le m x) seen minimum ∧
    Bounded Number.le seen maximum

/-! ## Where a set bit means that -/

/-- A setting as a float, where it is a number that has one. -/
def PyValue.asDouble : PyValue → Option Number
  | .int n =>
    match Number.round n with
    | .fin q => some (.fin q)
    | _ => Option.none
  | .float x => some x
  | .none | .str _ => Option.none

/-- Counted in doubles, the timestamp lies more than `interval` seconds before the time. -/
def StaleInDoubles (currentTime timestamp : UInt64) (interval : Number) : Prop :=
  Number.lt (.fin timestamp.toNat)
    (Number.fsub (Number.round currentTime.toNat) (Number.fmul interval (.fin (10 ^ 9)))) = true

/-- The frame is too old also in doubles, or the interval is no number. -/
def RejectsAge (currentTime : UInt64) (seen : Reading) (interval : PyValue) : Prop :=
  ∀ v, interval.asDouble = some v → StaleInDoubles currentTime seen.timestamp v

/-- The interval is nan, or the frame is too old but not so in doubles. -/
def BlursAge (currentTime : UInt64) (seen : Reading) (interval : PyValue) : Prop :=
  interval.value = some .nan ∨ ∃ q, interval.value = some (.fin q) ∧
    (seen.timestamp.toNat : ℚ) < currentTime.toNat - q * 10 ^ 9 ∧ ¬ RejectsAge currentTime seen interval

/-- The reading is out of the bound (`out` is `<` for the minimum, `>` for the maximum) and
numpy keeps them apart, or the two cannot be compared. -/
def RejectsBound (numpy : Numpy) (out : Number → Number → Bool) (seen : Reading) (bound : PyValue) : Prop :=
  bound ≠ .none ∧ ∀ x m f, seen.first = .ok x → bound.value = some m →
    numpy.common seen.dtype bound = .ok f → out x m = true ∧ f x ≠ f m

/-- The reading or the bound is nan, or the reading is out of the bound and numpy makes them equal. -/
def BlursBound (numpy : Numpy) (out : Number → Number → Bool) (seen : Reading) (bound : PyValue) : Prop :=
  ∃ x m f, seen.first = .ok x ∧ bound.value = some m ∧ numpy.common seen.dtype bound = .ok f ∧
    (x = .nan ∨ m = .nan ∨ (out x m = true ∧ f x = f m))

/-- One of the three comparisons rejects the safety. -/
def Rejected (numpy : Numpy) (currentTime : UInt64) (seen : Reading) (interval minimum maximum : PyValue) : Prop :=
  RejectsAge currentTime seen interval ∨ RejectsBound numpy Number.lt seen minimum ∨
    RejectsBound numpy gt seen maximum

/-- One of the three comparisons is blurred. -/
def Blurred (numpy : Numpy) (currentTime : UInt64) (seen : Reading) (interval minimum maximum : PyValue) : Prop :=
  BlursAge currentTime seen interval ∨ BlursBound numpy Number.lt seen minimum ∨
    BlursBound numpy gt seen maximum

/-- Where a comparison is blurred, another one rejects the safety. -/
def Decisive (numpy : Numpy) (currentTime : UInt64) (info : SafetyInfo)
    (latest : StdString → StdString → Except String Reading) : Prop :=
  ∀ seen interval minimum maximum, Reads info latest seen interval minimum maximum →
    Blurred numpy currentTime seen interval minimum maximum →
    Rejected numpy currentTime seen interval minimum maximum

/-! ## One verdict -/

theorem key_ok_iff {α : Type} {name : String} {o : Option α} {v : α} :
    key name o = .ok v ↔ o = some v := by
  cases o <;> simp [key]

theorem violates_ok_false_iff {numpy : Numpy} {cmp : Number → Number → Bool}
    (hcmp : ∀ {dtype v f}, numpy.common dtype v = .ok f → ∀ x m,
      (cmp (f x) (f m) = true ↔ cmp x m = true ∧ f x ≠ f m)) {seen : Reading} {bound : PyValue} :
    violates numpy cmp seen bound = .ok false ↔ ¬ RejectsBound numpy cmp seen bound := by
  unfold RejectsBound
  by_cases hb : bound = .none
  · subst hb
    simp [violates]
  · have hv : violates numpy cmp seen bound =
        match seen.first, bound.value, numpy.common seen.dtype bound with
        | .error e, _, _ => .error e
        | .ok x, some m, .ok f => .ok (cmp (f x) (f m))
        | .ok _, some _, .error e => .error e
        | .ok _, none, _ => .error "TypeError: '<' not supported between these types" := by
      cases bound with
      | none => exact absurd rfl hb
      | _ => rfl
    rw [hv]
    cases hx : seen.first with
    | error e => simp [hb]
    | ok x =>
      cases hm : bound.value with
      | none => simp [hb]
      | some m =>
        cases hf : numpy.common seen.dtype bound with
        | error e => simp [hb]
        | ok f =>
          have h := hcmp hf x m
          rw [← not_iff_not, Bool.not_eq_true] at h
          simpa [hb] using h

theorem low_ok_iff {numpy : Numpy} {seen : Reading} {minimum : PyValue} :
    violates numpy Number.lt seen minimum = .ok false ↔ ¬ RejectsBound numpy Number.lt seen minimum :=
  violates_ok_false_iff fun hf x m => numpy.lt_iff hf x m

theorem high_ok_iff {numpy : Numpy} {seen : Reading} {maximum : PyValue} :
    violates numpy gt seen maximum = .ok false ↔ ¬ RejectsBound numpy gt seen maximum :=
  violates_ok_false_iff fun hf x m => (numpy.lt_iff hf m x).trans (and_congr_right' ne_comm)

theorem timesE9_ok_iff {interval : PyValue} {width : Number} :
    timesE9 interval = .ok width ↔
      ∃ v, interval.asDouble = some v ∧ width = Number.fmul v (.fin (10 ^ 9)) := by
  cases interval with
  | none => simp [timesE9, PyValue.asDouble]
  | str s => simp [timesE9, PyValue.asDouble]
  | float x => simp [timesE9, PyValue.asDouble, eq_comm]
  | int n =>
    simp only [timesE9, PyValue.asDouble]
    generalize Number.round n = x
    cases x with
    | fin q => simp [Number.fmul, eq_comm]
    | _ => simp

theorem age_ok_iff {currentTime : UInt64} {seen : Reading} {interval : PyValue} :
    (∃ width, timesE9 interval = .ok width ∧
      Number.lt (.fin seen.timestamp.toNat) (timestampLowerBound currentTime width) = false) ↔
      ¬ RejectsAge currentTime seen interval := by
  unfold RejectsAge StaleInDoubles
  simp only [timesE9_ok_iff, timestampLowerBound, not_forall, Bool.not_eq_true]
  constructor
  · rintro ⟨_, ⟨v, hv, rfl⟩, h⟩
    exact ⟨v, hv, h⟩
  · rintro ⟨v, hv, h⟩
    exact ⟨_, ⟨v, hv, rfl⟩, h⟩

/-- What the tests of a safety come to. -/
theorem verdict_iff {numpy : Numpy} {currentTime : UInt64} {info : SafetyInfo}
    {latest : StdString → StdString → Except String Reading} :
    verdict numpy currentTime info latest = true ↔ ∃ seen interval minimum maximum,
      Reads info latest seen interval minimum maximum ∧
        ¬ Rejected numpy currentTime seen interval minimum maximum := by
  have hbody : verdict numpy currentTime info latest = true ↔
      checkBody numpy currentTime info latest = .ok true := by
    unfold verdict
    cases checkBody numpy currentTime info latest <;> simp
  rw [hbody]
  unfold checkBody Rejected
  simp only [bind_ok_iff, key_ok_iff, not_or, ← age_ok_iff, ← low_ok_iff, ← high_ok_iff]
  constructor
  · rintro ⟨sid, hsid, name, hname, seen, hseen, interval, hint, width, hwidth, minimum, hmin, low,
      hlow, maximum, hmax, high, hhigh, hr⟩
    simp only [pure, Except.pure, Except.ok.injEq, Bool.and_eq_true, Bool.not_eq_true'] at hr
    obtain ⟨⟨hold, rfl⟩, rfl⟩ := hr
    exact ⟨seen, interval, minimum, maximum, ⟨⟨sid, name, hsid, hname, hseen⟩, hint, hmin, hmax⟩,
      ⟨width, hwidth, hold⟩, hlow, hhigh⟩
  · rintro ⟨seen, interval, minimum, maximum, ⟨⟨sid, name, hsid, hname, hseen⟩, hint, hmin, hmax⟩,
      ⟨width, hwidth, hold⟩, hlow, hhigh⟩
    refine ⟨sid, hsid, name, hname, seen, hseen, interval, hint, width, hwidth, minimum, hmin, false,
      hlow, maximum, hmax, false, hhigh, ?_⟩
    simp [pure, Except.pure, hold]

/-- A bound that does not reject its reading holds exactly where it is not blurred. -/
theorem bounded_iff {numpy : Numpy} {out rel : Number → Number → Bool}
    (hrel : ∀ x m, rel x m = true ↔ x ≠ .nan ∧ m ≠ .nan ∧ out x m = false) {seen : Reading}
    {bound : PyValue} (h : ¬ RejectsBound numpy out seen bound) :
    Bounded rel seen bound ↔ ¬ BlursBound numpy out seen bound := by
  unfold RejectsBound at h
  unfold Bounded BlursBound
  by_cases hb : bound = .none
  · subst hb
    simp [PyValue.value]
  · simp only [hb, ne_eq, not_false_eq_true, true_and, not_forall] at h
    obtain ⟨x, m, f, hx, hm, hf, hout⟩ := h
    simp only [ne_eq, hb, not_false_eq_true, forall_const, hx, hm, hf, Except.ok.injEq,
      Option.some.injEq]
    constructor
    · rintro ⟨_, _, rfl, rfl, hr⟩ ⟨_, _, _, rfl, rfl, rfl, hn⟩
      obtain ⟨h1, h2, h3⟩ := (hrel x m).mp hr
      rcases hn with hn | hn | ⟨hn, -⟩
      · exact h1 hn
      · exact h2 hn
      · rw [h3] at hn; cases hn
    · intro hn
      refine ⟨x, m, rfl, rfl, (hrel x m).mpr ⟨fun hx => ?_, fun hm => ?_, ?_⟩⟩
      · exact hn ⟨x, m, f, rfl, rfl, rfl, .inl hx⟩
      · exact hn ⟨x, m, f, rfl, rfl, rfl, .inr (.inl hm)⟩
      · by_contra ht
        rw [Bool.not_eq_false] at ht
        refine hn ⟨x, m, f, rfl, rfl, rfl, .inr (.inr ⟨ht, ?_⟩)⟩
        by_contra hne
        exact hout ⟨ht, hne⟩

/-- An interval of minus infinity lets no frame pass. -/
theorem stale_negInf (currentTime timestamp : UInt64) : StaleInDoubles currentTime timestamp .negInf := by
  unfold StaleInDoubles
  rw [show Number.fmul .negInf (.fin (10 ^ 9)) = .negInf by norm_num [Number.fmul]]
  have h1 := Number.round_ne_nan currentTime.toNat
  have h2 := Number.round_natCast_ne_negInf currentTime.toNat
  cases h : Number.round currentTime.toNat with
  | nan => exact absurd h h1
  | negInf => exact absurd h h2
  | posInf => rfl
  | fin q => rfl

/-- A frame that is not rejected for its age is no older than the interval
exactly where the age is not blurred. -/
theorem noOlder_iff {currentTime : UInt64} {seen : Reading} {interval : PyValue}
    (h : ¬ RejectsAge currentTime seen interval) :
    NoOlder currentTime seen interval ↔ ¬ BlursAge currentTime seen interval := by
  unfold NoOlder BlursAge
  cases hv : interval.value with
  | none =>
    refine absurd (fun v hd => ?_) h
    cases interval <;> cases hv <;> cases hd
  | some x =>
    cases x with
    | nan => simp
    | posInf => simp
    | negInf =>
      refine absurd (fun v hd => ?_) h
      cases interval with
      | float x =>
        cases hv
        cases hd
        exact stale_negInf _ _
      | _ => cases hv
    | fin q =>
      simp only [Option.some.injEq, Number.fin.injEq, reduceCtorEq, false_or, exists_eq_left', h,
        not_false_eq_true, and_true, not_lt]
      constructor <;> intro h <;> linarith

theorem Reads.unique {info : SafetyInfo} {latest : StdString → StdString → Except String Reading}
    {s s' : Reading} {i i' m m' n n' : PyValue} (h : Reads info latest s i m n)
    (h' : Reads info latest s' i' m' n') : s = s' ∧ i = i' ∧ m = m' ∧ n = n' := by
  obtain ⟨sid, name, h1, h2, h3⟩ := h.frame
  obtain ⟨sid', name', h1', h2', h3'⟩ := h'.frame
  rw [h1] at h1'; cases h1'
  rw [h2] at h2'; cases h2'
  rw [h3] at h3'; cases h3'
  refine ⟨rfl, ?_, ?_, ?_⟩
  · have := h.interval.symm.trans h'.interval; cases this; rfl
  · have := h.minimum.symm.trans h'.minimum; cases this; rfl
  · have := h.maximum.symm.trans h'.maximum; cases this; rfl

/-- A safety that nothing rejects met its bounds exactly where nothing is blurred. -/
theorem met_iff_not_blurred {numpy : Numpy} {currentTime : UInt64} {info : SafetyInfo}
    {latest : StdString → StdString → Except String Reading} {seen : Reading}
    {interval minimum maximum : PyValue} (hr : Reads info latest seen interval minimum maximum)
    (hp : ¬ Rejected numpy currentTime seen interval minimum maximum) :
    Met currentTime info latest ↔ ¬ Blurred numpy currentTime seen interval minimum maximum := by
  unfold Rejected at hp
  unfold Blurred
  simp only [not_or] at hp ⊢
  obtain ⟨hage, hlow, hhigh⟩ := hp
  have hmin : Bounded (fun x m => Number.le m x) seen minimum ↔ _ :=
    bounded_iff (fun _ _ => Number.le_iff_not_lt) hlow
  have hmax : Bounded Number.le seen maximum ↔ ¬ BlursBound numpy gt seen maximum :=
    bounded_iff (fun _ _ => Number.le_iff_not_lt.trans and_left_comm) hhigh
  rw [← noOlder_iff hage, ← hmin, ← hmax]
  constructor
  · rintro ⟨seen', interval', minimum', maximum', hr', ho, hlo, hhi⟩
    obtain ⟨rfl, rfl, rfl, rfl⟩ := hr.unique hr'
    exact ⟨ho, hlo, hhi⟩
  · intro hall
    exact ⟨seen, interval, minimum, maximum, hr, hall⟩

/-- **One verdict.** A bit that is set means that the safety met its bounds,
exactly where the safety is decisive. -/
theorem verdict_met_iff (numpy : Numpy) (currentTime : UInt64) (info : SafetyInfo)
    (latest : StdString → StdString → Except String Reading) :
    (verdict numpy currentTime info latest = true → Met currentTime info latest) ↔
      Decisive numpy currentTime info latest := by
  constructor
  · intro h seen interval minimum maximum hr hb
    by_contra hp
    exact (met_iff_not_blurred hr hp).mp (h (verdict_iff.mpr ⟨_, _, _, _, hr, hp⟩)) hb
  · intro h hv
    obtain ⟨seen, interval, minimum, maximum, hr, hp⟩ := verdict_iff.mp hv
    exact (met_iff_not_blurred hr hp).mpr fun hb => hp (h _ _ _ _ hr hb)

/-! ## The newest check -/

/-- Seconds computed from at most 180 s of nanoseconds are at most 180. -/
theorem seconds_le {d : ℕ} (h : d ≤ 180 * 10 ^ 9) :
    Number.le (Number.divBy (Number.round d) (10 ^ 9)) (.fin 180) = true := by
  rw [Number.round_natCast (by omega)]
  show Number.le (Number.round (d / 10 ^ 9)) (.fin 180) = true
  by_cases h0 : d = 0
  · subst h0
    have hz := Number.round_natCast (n := 0) (by norm_num)
    rw [Nat.cast_zero] at hz
    rw [Nat.cast_zero, zero_div, hz]
    rfl
  · have hle : (d : ℚ) ≤ 180 * 10 ^ 9 := by exact_mod_cast h
    have hpos : (0 : ℚ) < d := by exact_mod_cast Nat.pos_of_ne_zero h0
    have hr := Number.round_le (m := 180) (k := 0) (x := d / 10 ^ 9) (by norm_num) (by omega)
      (by positivity) (Number.lt_overflow (by norm_num))
      (by rw [div_le_iff₀ (by norm_num)]; simpa using hle)
    norm_num at hr ⊢
    exact hr

/-- One nanosecond more than 180 s is still more once it is rounded twice. -/
theorem lt_seconds {d : ℕ} (h : 180 * 10 ^ 9 < d) :
    Number.lt (.fin 180) (Number.divBy (Number.round d) (10 ^ 9)) = true := by
  have hle : ((180 * 10 ^ 9 + 1 : ℤ) : ℚ) * 2 ^ (0 : ℤ) ≤ d := by
    rw [zpow_zero, mul_one]; exact_mod_cast h
  have hpos : (0 : ℚ) < d := by exact_mod_cast Nat.lt_of_le_of_lt (Nat.zero_le _) h
  have hr := Number.le_round (m := 180 * 10 ^ 9 + 1) (by norm_num) (by norm_num) (by omega) hpos hle
  cases hd : Number.round d with
  | nan => exact absurd hd (Number.round_ne_nan _)
  | negInf => exact absurd hd (Number.round_natCast_ne_negInf d)
  | posInf => rfl
  | fin v =>
    rw [hd, Number.le_fin, decide_eq_true_eq] at hr
    -- the first double above 180 lies below the exact quotient
    have hq : ((180 * 2 ^ 45 + 1 : ℤ) : ℚ) * 2 ^ (-45 : ℤ) ≤ v / 10 ^ 9 := by
      rw [le_div_iff₀ (by norm_num)]
      norm_num at hr ⊢
      linarith
    have hv : (0 : ℚ) < v / 10 ^ 9 := lt_of_lt_of_le (by norm_num) hq
    have h2 := Number.le_round (m := 180 * 2 ^ 45 + 1) (k := -45) (by norm_num) (by norm_num)
      (by omega) hv hq
    refine Number.lt_of_lt_of_le ?_ h2
    norm_num

/-- Rounding does not blur the limit of 180 s. -/
theorem checkTooOld_iff (currentTime timeStamp : UInt64) :
    checkTooOld currentTime timeStamp = true ↔ 180 * 10 ^ 9 < (currentTime - timeStamp).toNat := by
  unfold checkTooOld
  constructor
  · intro h
    by_cases hd : (currentTime - timeStamp).toNat ≤ 180 * 10 ^ 9
    · rw [Number.not_lt_of_le (seconds_le hd)] at h
      cases h
    · omega
  · intro hd
    exact lt_seconds hd

theorem length_checkedSafeties (c : Safeties) : c.checkedSafeties.length = c.entries.length := by
  have h := OrdMap.insertAll_perm c.entries [] c.nodup (fun _ _ h => by cases h)
  rw [List.append_nil] at h
  exact h.length_eq

theorem mem_checkedSafeties (c : Safeties) (e : StdString × SafetyInfo) :
    e ∈ c.checkedSafeties ↔ e ∈ c.entries := by
  have h := OrdMap.insertAll_perm c.entries [] c.nodup (fun _ _ h => by cases h)
  rw [List.append_nil] at h
  exact h.mem_iff

@[simp] theorem length_isSafes (numpy : Numpy) (c : Safeties) (k : Check) :
    (isSafes numpy c k).length = c.entries.length := by
  rw [isSafes, List.length_mapIdx, length_checkedSafeties]

@[simp] theorem length_bits (l : List Bool) : (bits l).length = l.length := List.length_map _

/-- The byte that sums up the bits is their number exactly when all of at most
255 are set. -/
theorem sum_bits_iff (l : List Bool) :
    (bits l).sum.toNat = (bits l).length ↔ l.length < 256 ∧ ∀ b ∈ l, b = true := by
  have hsum : (bits l).sum.toNat = l.count true % 256 := by
    induction l with
    | nil => rfl
    | cons b l ih =>
      simp only [bits, List.map_cons, List.sum_cons, UInt8.toNat_add] at ih ⊢
      rw [ih]
      cases b with
      | false => simp
      | true => simp; omega
  have hle : l.count true ≤ l.length := List.count_le_length
  rw [hsum, length_bits]
  constructor
  · intro h
    have hlt : l.length < 256 := by omega
    have hall : l.count true = l.length := by omega
    exact ⟨hlt, fun b hb => (List.count_eq_length.mp hall b hb).symm⟩
  · intro h
    have hall : l.count true = l.length := List.count_eq_length.mpr fun b hb => (h.2 b hb).symm
    omega

/-! ## Runs of the monitor -/

/-- The layout of the `is_safe` stream. -/
def isSafeLayout (c : Safeties) : Layout := ⟨.int8, [UInt64.ofNat c.entries.length], 20⟩

/-- A check as a call of the stream's writer. -/
def Check.call (numpy : Numpy) (c : Safeties) (k : Check) : Call :=
  .submitData (Mem.ofList (bits (isSafes numpy c k))) k.submitted

theorem toNat_length (c : Safeties) :
    (UInt64.ofNat c.entries.length).toNat = c.entries.length := by
  have := c.small
  rw [UInt64.toNat_ofNat']
  exact Nat.mod_eq_of_lt (by omega)

theorem bytesPerFrame_isSafe (c : Safeties) : (isSafeLayout c).bytesPerFrame = c.entries.length := by
  show ([UInt64.ofNat c.entries.length].map UInt64.toNat).prod * 1 = _
  rw [List.map_singleton, List.prod_singleton, toNat_length, Nat.mul_one]

theorem sized_isSafe (c : Safeties) : (isSafeLayout c).Sized := by
  refine ⟨show 1 ≤ 20 by decide, fun _ _ => ?_⟩
  have h := c.small
  rw [Layout.bytesNeeded, bytesPerFrame_isSafe]
  show 912 + c.entries.length * 20 < 2 ^ 64
  omega

/-- Submissions keep the layout of the log. -/
theorem replay_checks (numpy : Numpy) (c : Safeties) (checks : List Check) (a : StreamLog)
    (h : a.layout = isSafeLayout c) :
    (a.replay (checks.map (Check.call numpy c))).layout = isSafeLayout c ∧
      a.Sized (checks.map (Check.call numpy c)) := by
  induction checks generalizing a with
  | nil => exact ⟨h, trivial⟩
  | cons k checks ih =>
    obtain ⟨h1, h2⟩ := ih (a.exec (k.call numpy c)) h
    refine ⟨h1, ?_, h2⟩
    intro l hl
    cases hl

theorem mirrors_monitor (numpy : Numpy) {c : Safeties} {s₀ : DataStream} (h : makeIsSafeStream c = .ok s₀)
    (checks : List Check) : Mirrors (monitor numpy c s₀ checks)
      ((StreamLog.created (isSafeLayout c)).replay (checks.map (Check.call numpy c))) := by
  have hm := mirrors_run (checks.map (Check.call numpy c)) (mirrors_create (sized_isSafe c) h)
    (replay_checks numpy c checks _ rfl).2
  rw [DataStream.run, List.foldl_map] at hm
  exact hm

/-- Before the first check the stream has no frame. -/
theorem latest_monitor_nil {c : Safeties} {s₀ : DataStream} (h : makeIsSafeStream c = .ok s₀) :
    ∃ msg, s₀.getLatestFrame = .error msg := by
  have h0 : s₀.lastId = 0 := (mirrors_create (sized_isSafe c) h).lastId
  unfold DataStream.getLatestFrame
  rw [if_pos h0]
  exact ⟨_, rfl⟩

/-- The newest frame is the vector that was submitted last. -/
theorem latest_submitBits {c : Safeties} {s : DataStream} {a : StreamLog} (hm : Mirrors s a)
    (hlay : a.layout = isSafeLayout c) {v : List Bool} (hv : v.length = c.entries.length) (t : UInt64) :
    ∃ frame, (s.submitData (Mem.ofList (bits v)) t).getLatestFrame = .frame frame ∧
      frame.timeStamp = t ∧
      asArrayUInt8 frame (s.submitData (Mem.ofList (bits v)) t).buffer = bits v := by
  have hm' := mirrors_submitData hm (Mem.ofList (bits v)) t
  obtain ⟨id, hlatest, hb⟩ := latest_bytes hm (Mem.ofList (bits v)) t
  generalize s.submitData (Mem.ofList (bits v)) t = s' at hm' hlatest hb ⊢
  refine ⟨_, hlatest, rfl, ?_⟩
  have hd : s'.dimensions = padDimensions [UInt64.ofNat c.entries.length] := by
    rw [hm'.layout.dimensions]
    show padDimensions a.layout.dimensions = _
    rw [hlay]; rfl
  rw [hlay, bytesPerFrame_isSafe] at hb
  show s'.buffer.read (s'.offset id) ((s'.dimensions 0).toNat * (s'.dimensions 1).toNat) = _
  rw [hd, show padDimensions [UInt64.ofNat c.entries.length] 0 = UInt64.ofNat c.entries.length from rfl,
    show padDimensions [UInt64.ofNat c.entries.length] 1 = 1 from rfl, toNat_length,
    UInt64.toNat_one, Nat.mul_one, hb, ← hv, ← length_bits, Mem.read_ofList]

/-- **One vector.** Over a fresh frame `IsSafe` is true exactly when there are
at most 255 entries and all of them are one. -/
theorem isSafe_submitBits {c : Safeties} {s : DataStream} {a : StreamLog} (hm : Mirrors s a)
    (hlay : a.layout = isSafeLayout c) {v : List Bool} (hv : v.length = c.entries.length)
    (t now : UInt64) :
    isSafe true (.ok (s.submitData (Mem.ofList (bits v)) t)) now = true ↔
      (now - t).toNat ≤ 180 * 10 ^ 9 ∧ c.entries.length < 256 ∧ ∀ b ∈ v, b = true := by
  obtain ⟨frame, hframe, hts, hdata⟩ := latest_submitBits hm hlay hv t
  have hsum := sum_bits_iff v
  rw [hv] at hsum
  unfold isSafe
  simp only [Bool.not_true, Bool.false_eq_true, if_false, hframe, hts, hdata]
  by_cases hold : checkTooOld now t = true
  · rw [if_pos hold]
    rw [checkTooOld_iff] at hold
    refine iff_of_false (by simp) fun h => ?_
    omega
  · rw [if_neg hold]
    rw [checkTooOld_iff] at hold
    by_cases hne : (bits v).sum.toNat = (bits v).length
    · rw [if_neg (not_not.mpr hne)]
      exact iff_of_true rfl ⟨by omega, hsum.mp hne⟩
    · rw [if_pos hne]
      exact iff_of_false (by simp) fun h => hne (hsum.mpr h.2)

/-- The log of the stream keeps its layout along the checks. -/
theorem layout_monitor (numpy : Numpy) (c : Safeties) (checks : List Check) :
    ((StreamLog.created (isSafeLayout c)).replay (checks.map (Check.call numpy c))).layout = isSafeLayout c :=
  (replay_checks numpy c checks (.created (isSafeLayout c)) rfl).1

/-- **One look.** A service that requires safety sees a safe testbed exactly
when there was a check, the newest is at most 180 s old and set every bit, and
there are at most 255 of them. -/
theorem isSafe_iff (numpy : Numpy) {c : Safeties} {s₀ : DataStream} (h : makeIsSafeStream c = .ok s₀)
    (checks : List Check) (now : UInt64) :
    isSafe true (.ok (monitor numpy c s₀ checks)) now = true ↔ ∃ earlier k, checks = earlier ++ [k] ∧
      (now - k.submitted).toNat ≤ 180 * 10 ^ 9 ∧ c.entries.length < 256 ∧
        ∀ b ∈ isSafes numpy c k, b = true := by
  rcases List.eq_nil_or_concat checks with rfl | ⟨earlier, k, rfl⟩
  · obtain ⟨msg, hmsg⟩ := latest_monitor_nil h
    simp [isSafe, monitor, hmsg]
  · have hone := isSafe_submitBits (mirrors_monitor numpy h earlier) (layout_monitor numpy c earlier)
      (length_isSafes numpy c k) k.submitted now
    have hs : monitor numpy c s₀ (earlier.concat k) =
        (monitor numpy c s₀ earlier).submitData (Mem.ofList (bits (isSafes numpy c k))) k.submitted := by
      simp only [monitor, List.concat_eq_append, List.foldl_append, List.foldl_cons, List.foldl_nil]
      rfl
    rw [hs, hone, List.concat_eq_append]
    constructor
    · intro hall
      exact ⟨earlier, k, rfl, hall⟩
    · intro ⟨earlier', k', he, hall⟩
      obtain ⟨-, hk⟩ := List.append_inj' he rfl
      cases hk
      exact hall

/-- **The sum of the bits.** A service that requires safety, looking at a
fresh vector of the monitor, tells whether all of its entries are one, exactly
when there are at most 255 or one of them is zero: more ones than that do not
fit the byte that sums them up. -/
theorem isSafe_tells_all_iff (numpy : Numpy) {c : Safeties} {s₀ : DataStream} (h : makeIsSafeStream c = .ok s₀)
    (earlier : List Check) (v : List Bool) (hv : v.length = c.entries.length) (submitted now : UInt64)
    (hfresh : (now - submitted).toNat ≤ 180 * 10 ^ 9) :
    (isSafe true (.ok ((monitor numpy c s₀ earlier).submitData (Mem.ofList (bits v)) submitted)) now = true ↔
        ∀ b ∈ v, b = true) ↔
      c.entries.length < 256 ∨ ∃ b ∈ v, b = false := by
  rw [isSafe_submitBits (mirrors_monitor numpy h earlier) (layout_monitor numpy c earlier) hv]
  have hzero : (∃ b ∈ v, b = false) ↔ ¬ ∀ b ∈ v, b = true := by simp
  rw [hzero]
  constructor
  · intro h
    by_cases hall : ∀ b ∈ v, b = true
    · exact .inl (h.mpr hall).2.1
    · exact .inr hall
  · intro h
    refine ⟨fun hs => hs.2.2, fun hall => ?_⟩
    rcases h with hlen | hno
    · exact ⟨hfresh, hlen, hall⟩
    · exact absurd hall hno

theorem getElem?_isSafes {numpy : Numpy} {c : Safeties} {k : Check} {i : Nat} {e : StdString × SafetyInfo}
    (h : c.checkedSafeties[i]? = some e) :
    (isSafes numpy c k)[i]? = some (verdict numpy k.currentTime e.2 (k.latest i)) := by
  unfold isSafes
  rw [List.getElem?_mapIdx, h]
  rfl

/-- **What a safe testbed means.** For every configuration: a bit of a check
is set only if its safety met its bounds, exactly where the safety is
decisive; and a service that requires safety sees a safe testbed only if
the newest check is at most 180 s old and set the bit of every configured
safety, each of which met its bounds where it is decisive. -/
theorem safe_only_if_met (numpy : Numpy) (c : Safeties) :
    (∀ k i e, c.checkedSafeties[i]? = some e →
      (((isSafes numpy c k)[i]? = some true → Met k.currentTime e.2 (k.latest i)) ↔
        Decisive numpy k.currentTime e.2 (k.latest i))) ∧
    (∀ s₀, makeIsSafeStream c = .ok s₀ → ∀ checks found now,
      (found = .ok (monitor numpy c s₀ checks) ∨ ∃ msg, found = .error msg) →
      isSafe true found now = true →
      ∃ earlier k, checks = earlier ++ [k] ∧
        (now.toNat : ℤ) - k.submitted.toNat ≤ 180 * 10 ^ 9 ∧
        ∀ e ∈ c.entries, ∃ i, c.checkedSafeties[i]? = some e ∧ (isSafes numpy c k)[i]? = some true ∧
          (Met k.currentTime e.2 (k.latest i) ↔ Decisive numpy k.currentTime e.2 (k.latest i))) := by
  have hbit : ∀ k i e, c.checkedSafeties[i]? = some e →
      (((isSafes numpy c k)[i]? = some true → Met k.currentTime e.2 (k.latest i)) ↔
        Decisive numpy k.currentTime e.2 (k.latest i)) := by
    intro k i e he
    rw [getElem?_isSafes he, Option.some.injEq]
    exact verdict_met_iff _ _ _ _
  refine ⟨hbit, fun s₀ hs₀ checks found now hfound hsafe => ?_⟩
  rcases hfound with rfl | ⟨msg, rfl⟩
  · obtain ⟨earlier, k, hk, hage, -, hall⟩ := (isSafe_iff numpy hs₀ checks now).mp hsafe
    refine ⟨earlier, k, hk, ?_, fun e he => ?_⟩
    · -- a frame from after `now` wraps to an age far beyond the limit
      rw [UInt64.toNat_sub] at hage
      have := now.toNat_lt
      have := k.submitted.toNat_lt
      omega
    · obtain ⟨i, hi⟩ := List.mem_iff_getElem?.mp ((mem_checkedSafeties c e).mpr he)
      have hset : (isSafes numpy c k)[i]? = some true := by
        rw [getElem?_isSafes hi, Option.some.injEq]
        exact hall _ (List.mem_of_getElem? (getElem?_isSafes hi))
      refine ⟨i, hi, hset, ?_⟩
      rw [← hbit k i e hi]
      exact ⟨fun hm _ => hm, fun h => h hset⟩
  · cases hsafe

/-! ## Numpy 2 -/

/-- A Python number takes the dtype of the element, except that a float and an integer
element meet as doubles; integers are compared as they are. -/
def numpy2Common : DataType → PyValue → Except String (Number → Number)
  | _, .none | _, .str _ => .error "TypeError: '<' not supported between these types"
  | .float32, v | .complex64, v =>
    if v.asDouble.isNone then .error "OverflowError: int too large to convert to float"
    else .ok fun x => Number.single.convert (Number.double.convert x)
  | .float64, v | .complex128, v =>
    if v.asDouble.isNone then .error "OverflowError: int too large to convert to float"
    else .ok Number.double.convert
  | _, .int _ => .ok id
  | _, .float _ => .ok Number.double.convert

theorem numpy2Common_cases {dtype : DataType} {v : PyValue} {f : Number → Number}
    (h : numpy2Common dtype v = .ok f) :
    f = id ∨ f = Number.double.convert ∨ f = fun x => Number.single.convert (Number.double.convert x) := by
  unfold numpy2Common at h
  split at h
  · cases h
  · cases h
  · split at h <;> cases h
    exact .inr (.inr rfl)
  · split at h <;> cases h
    exact .inr (.inr rfl)
  · split at h <;> cases h
    exact .inr (.inl rfl)
  · split at h <;> cases h
    exact .inr (.inl rfl)
  · cases h
    exact .inl rfl
  · cases h
    exact .inr (.inl rfl)

def numpy2 : Numpy where
  common := numpy2Common
  mono h a b hle := by
    rcases numpy2Common_cases h with rfl | rfl | rfl
    · exact hle
    · exact Number.Format.convert_mono hle
    · exact Number.Format.convert_mono (Number.Format.convert_mono hle)
  nan h a := by
    rcases numpy2Common_cases h with rfl | rfl | rfl
    · exact Iff.rfl
    · exact Number.Format.convert_eq_nan_iff
    · rw [Number.Format.convert_eq_nan_iff, Number.Format.convert_eq_nan_iff]

/-! ## A humidity sensor -/

/-- The first safety of the documentation's example. -/
def humidity : SafetyInfo where
  service_id := some (ascii "omega_dm")
  stream_name := some (ascii "humidity")
  safe_interval := some (.int 60)
  minimum_value := some (.int 1)
  maximum_value := some (.int 28)

/-- A frame of 10 s before the check at 100 s, with reading `x`. -/
def humidityReads (x : Number) : StdString → StdString → Except String Reading :=
  fun _ _ => .ok ⟨90000000000, .float64, .ok x⟩

theorem reads_humidity (x : Number) :
    Reads humidity (humidityReads x) ⟨90000000000, .float64, .ok x⟩ (.int 60) (.int 1) (.int 28) :=
  ⟨⟨_, _, rfl, rfl, rfl⟩, rfl, rfl, rfl⟩

theorem asDouble_int {n : ℕ} (h : n < 2 ^ 53) : (PyValue.int n).asDouble = some (.fin n) := by
  unfold PyValue.asDouble
  simp only [Int.cast_natCast]
  rw [Number.round_natCast h]

/-- Ten seconds before, in doubles as well. -/
theorem not_stale_humidity : ¬ StaleInDoubles 100000000000 90000000000 (.fin 60) := by
  have h2 := Number.round_natCast (n := 60000000000) (by norm_num)
  have h3 := Number.round_natCast (n := 100000000000) (by norm_num)
  have h4 := Number.round_natCast (n := 40000000000) (by norm_num)
  have hn : (100000000000 : UInt64).toNat = 100000000000 := rfl
  have ht : (90000000000 : UInt64).toNat = 90000000000 := rfl
  norm_num at h2 h3 h4
  unfold StaleInDoubles
  rw [hn, ht]
  norm_num [Number.fmul, Number.fsub, h2, h3, h4]

/-- A reading that is on the right side of both bounds, or compares with neither. -/
theorem not_rejected_humidity {x : Number} (h1 : Number.lt x (.fin 1) = false)
    (h2 : Number.lt (.fin 28) x = false) :
    ¬ Rejected numpy2 100000000000 ⟨90000000000, .float64, .ok x⟩ (.int 60) (.int 1) (.int 28) := by
  have hcommon : ∀ n : ℕ, n < 2 ^ 53 → numpy2.common .float64 (.int n) = .ok Number.double.convert := by
    intro n hn
    show (if (PyValue.int n).asDouble.isNone then _ else _) = _
    rw [asDouble_int hn]
    rfl
  rintro (hage | hlow | hhigh)
  · exact not_stale_humidity (hage _ (asDouble_int (n := 60) (by norm_num)))
  · have := (hlow.2 x (.fin 1) _ rfl rfl (hcommon 1 (by norm_num))).1
    rw [h1] at this
    cases this
  · have : Number.lt (.fin 28) x = true := (hhigh.2 x (.fin 28) _ rfl rfl (hcommon 28 (by norm_num))).1
    rw [h2] at this
    cases this

def humiditySafeties : Safeties := ⟨[(ascii "humidity_dm", humidity)], by decide, by decide⟩

/-- A check at 100 s that reads `x`, submitted a nanosecond later. -/
def humidityCheck (x : Number) : Check := ⟨100000000000, fun _ => humidityReads x, 100000000001⟩

theorem isSafes_humidity {x : Number} (h1 : Number.lt x (.fin 1) = false)
    (h2 : Number.lt (.fin 28) x = false) : isSafes numpy2 humiditySafeties (humidityCheck x) = [true] :=
  congrArg (fun b => [b]) (verdict_iff.mpr ⟨_, _, _, _, reads_humidity _, not_rejected_humidity h1 h2⟩)

/-- A reading of 20 makes the testbed safe, and it is within its bounds. -/
theorem safe_only_if_met_humidity : ∃ s₀, makeIsSafeStream humiditySafeties = .ok s₀ ∧
    isSafe true (.ok (monitor numpy2 humiditySafeties s₀ [humidityCheck (.fin 20)])) 101000000000 = true ∧
    Met 100000000000 humidity (humidityReads (.fin 20)) := by
  have hv : isSafes numpy2 humiditySafeties (humidityCheck (.fin 20)) = [true] :=
    isSafes_humidity (by norm_num) (by norm_num)
  refine ⟨_, rfl, (isSafe_iff numpy2 rfl _ _).mpr ⟨[], _, rfl, by decide, by decide, ?_⟩, ?_⟩
  · rw [hv]; simp
  · refine ((safe_only_if_met numpy2 humiditySafeties).1 (humidityCheck (.fin 20)) 0 _ rfl).mpr ?_
      (by rw [hv]; rfl)
    intro seen interval minimum maximum hr hb
    obtain ⟨rfl, rfl, rfl, rfl⟩ := (reads_humidity (.fin 20)).unique hr
    exfalso
    rcases hb with (hnan | ⟨q, hq, hlt, -⟩) | ⟨x, m, f, hx, hm, -, hn⟩ | ⟨x, m, f, hx, hm, -, hn⟩
    · cases hnan
    · cases hq
      have h1 : (90000000000 : UInt64).toNat = 90000000000 := rfl
      have h2 : (humidityCheck (.fin 20)).currentTime.toNat = 100000000000 := rfl
      rw [h1, h2] at hlt
      norm_num at hlt
    · cases hx
      cases hm
      rcases hn with hn | hn | ⟨hn, -⟩
      · cases hn
      · cases hn
      · norm_num at hn
    · cases hx
      cases hm
      rcases hn with hn | hn | ⟨hn, -⟩
      · cases hn
      · cases hn
      · norm_num [gt] at hn

/-- A sensor that reads nan sets its bit. -/
theorem nan_reading_is_safe : ¬ ∀ numpy currentTime info latest,
    verdict numpy currentTime info latest = true → Met currentTime info latest := by
  intro h
  have hv : verdict numpy2 100000000000 humidity (humidityReads .nan) = true :=
    verdict_iff.mpr ⟨_, _, _, _, reads_humidity _, not_rejected_humidity rfl rfl⟩
  obtain ⟨seen, interval, minimum, maximum, hr, -, hmin, -⟩ := h _ _ _ _ hv
  obtain ⟨rfl, rfl, rfl, rfl⟩ := (reads_humidity .nan).unique hr
  obtain ⟨x, m, hx, -, hle⟩ := hmin (by simp)
  cases hx
  simp at hle

/-! ## Many safeties -/

/-- As many entries as there are bytes. -/
def manyEntries : List (StdString × SafetyInfo) :=
  (List.range 256).map fun i => (⟨[UInt8.ofNat i]⟩, humidity)

theorem length_manyEntries : manyEntries.length = 256 := by
  rw [manyEntries, List.length_map, List.length_range]

theorem manyEntries_nodup : (OrdMap.keys manyEntries).Nodup := by
  rw [OrdMap.keys, manyEntries, List.map_map]
  refine List.Nodup.map_on ?_ List.nodup_range
  intro i hi j hj h
  simp only [Function.comp_apply, StdString.mk.injEq, List.cons.injEq, and_true] at h
  have := congrArg UInt8.toNat h
  simp only [List.mem_range, UInt8.toNat_ofNat'] at hi hj this
  omega

theorem manyEntries_small : manyEntries.length < 2 ^ 58 := by
  rw [length_manyEntries]
  omega

def manySafeties : Safeties := ⟨manyEntries, manyEntries_nodup, manyEntries_small⟩

theorem isSafe_tells_all_iff_humidity : ∃ s₀, makeIsSafeStream humiditySafeties = .ok s₀ ∧
    (isSafe true (.ok (s₀.submitData (Mem.ofList (bits [true])) 5)) 7 = true ↔
      ∀ b ∈ [true], b = true) := by
  obtain ⟨s₀, hs₀⟩ : ∃ s₀, makeIsSafeStream humiditySafeties = .ok s₀ := ⟨_, rfl⟩
  exact ⟨s₀, hs₀, (isSafe_tells_all_iff numpy2 hs₀ [] [true] rfl 5 7 (by decide)).mpr (.inl (by decide))⟩

/-- **The counterexample.** 256 ones add up to the byte zero: the testbed
counts as unsafe. -/
theorem all_ones_unsafe : ∃ s₀, makeIsSafeStream manySafeties = .ok s₀ ∧
    isSafe true (.ok (s₀.submitData (Mem.ofList (bits (List.replicate 256 true))) 5)) 7 = false ∧
    ¬ ∀ (c : Safeties) (s₀ : DataStream), makeIsSafeStream c = .ok s₀ → ∀ (earlier : List Check)
      (v : List Bool), v.length = c.entries.length → ∀ submitted now : UInt64,
        (now - submitted).toNat ≤ 180 * 10 ^ 9 →
        (isSafe true (.ok ((monitor numpy2 c s₀ earlier).submitData (Mem.ofList (bits v)) submitted)) now = true ↔
          ∀ b ∈ v, b = true) := by
  have hlen : manySafeties.entries.length = 256 := length_manyEntries
  obtain ⟨s₀, hs₀⟩ : ∃ s₀, makeIsSafeStream manySafeties = .ok s₀ := by
    unfold makeIsSafeStream
    rw [hlen]
    exact ⟨_, rfl⟩
  have hone := isSafe_submitBits (v := List.replicate 256 true) (mirrors_monitor numpy2 hs₀ [])
    (layout_monitor numpy2 manySafeties []) (by rw [hlen, List.length_replicate]) 5 7
  have hunsafe : isSafe true
      (.ok (s₀.submitData (Mem.ofList (bits (List.replicate 256 true))) 5)) 7 = false := by
    rw [Bool.eq_false_iff]
    intro ht
    have := (hone.mp ht).2.1
    omega
  refine ⟨s₀, hs₀, hunsafe, fun h => ?_⟩
  have ht := (h manySafeties s₀ hs₀ [] (List.replicate 256 true) (by rw [hlen, List.length_replicate]) 5 7
    (by decide)).mpr fun b hb => List.eq_of_mem_replicate hb
  rw [show monitor numpy2 manySafeties s₀ [] = s₀ from rfl, hunsafe] at ht
  cases ht

end Catkit2.L3
