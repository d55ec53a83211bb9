import Catkit2.Core.Aliases
import Catkit2.Core.Except
import Mathlib.Data.Int.Notation

/-!
# Named positions (catkit2/testbed/proxies: newport_xps.py, thorlabs_cube_motor_kinesis.py, flip_mount.py)

A position of a motor is a number or a name. The configuration says what a name
stands for, a number or a name again, and `resolve_position` calls itself until
it has a number. Nothing in it looks for circles: that it returns at all is the
doing of the interpreter, which raises `RecursionError` when too many calls are
open.

`frames` is how many more calls the recursion limit allows, and `getter` how
many of them the property `positions` takes for the time it runs, itself and what
it calls.

* `resolve_of_ends`, `resolve_of_unknown`, `resolve_of_circular`: what comes of
  each kind of chain.
* `resolve_position_iff`: a number is returned where the chain of names ends in
  it and frames are left for all of its names; otherwise an error is raised, and
  it is a `KeyError` for an unknown name that the frames suffice to reach.
* `resolve_position_of_small`: frames for all names of the table are enough.
* `thousand_names_raise`: a chain of a thousand names is too long for a thousand
  frames.
-/
namespace Catkit2.L5.NamedPositions

open Catkit2.Aliases

inductive Error where
  | keyError (key : String)
  | recursionError
  deriving DecidableEq, Repr

/-- The items of a dictionary. -/
abbrev Dict (β : Type) := List (String × β)

section Dict

variable {β : Type}

/-- `d.get(key)` -/
def Dict.get (d : Dict β) (key : String) : Option β := d.lookup key

/-- `d[key]` -/
def Dict.item (d : Dict β) (key : String) : Except Error β :=
  match d.get key with
  | some v => .ok v
  | none => .error (.keyError key)

/-- `d[key] = v` -/
def Dict.set (d : Dict β) (key : String) (v : β) : Dict β := (key, v) :: d.filter (·.1 ≠ key)

theorem Dict.mem_of_get {d : Dict β} {key : String} (h : d.get key ≠ none) : key ∈ d.map (·.1) := by
  obtain ⟨v, hv⟩ := Option.ne_none_iff_exists'.mp h
  obtain ⟨pre, post, rfl, -⟩ := List.lookup_eq_some_iff.mp hv
  simp

end Dict

variable {α : Type}

/-- What is asked for, or what a name stands for. -/
abbrev Position (α : Type) := Aliases.Entry String α

/-! ## The proxies -/

/-- A property that takes `getter` frames. -/
def property {β : Type} (getter : Nat) (value : Except Error β) (frames : Nat) : Except Error β :=
  if frames < getter then .error .recursionError else value

/-- `self.config[key]` -/
def configItem {β : Type} (key : String) : Option β → Except Error β
  | some v => .ok v
  | none => .error (.keyError key)

/-- A call, with the number of frames that are left. -/
def resolve (positions : Nat → Except Error (Dict (Position α))) : Nat → Position α → Except Error α
  | 0, _ => .error .recursionError
  | _ + 1, .value position => .ok position
  | frames + 1, .name position_name => do
    let positions' ← positions frames
    let position ← positions'.item position_name
    resolve positions frames position

/-- The part of the configuration that is read; `none` where there is no such key. -/
structure ThorlabsCubeMotorKinesisProxy (α : Type) where
  positions : Option (Dict (Position α))

/-- mirrors catkit2/testbed/proxies/thorlabs_cube_motor_kinesis.py:17-28 -/
def ThorlabsCubeMotorKinesisProxy.resolvePosition (proxy : ThorlabsCubeMotorKinesisProxy α) (getter : Nat) :
    Nat → Position α → Except Error α :=
  resolve (property getter (configItem "positions" proxy.positions))

structure FlipMountProxy (α : Type) where
  positions : Option (Dict (Position α))

/-- mirrors catkit2/testbed/proxies/flip_mount.py:22-34 -/
def FlipMountProxy.resolvePosition (proxy : FlipMountProxy α) (getter : Nat) : Nat → Position α → Except Error α :=
  resolve (property getter (configItem "positions" proxy.positions))

/-- `str.lower`: lower case stays as it is. -/
structure Lower where
  lower : String → String
  lower_lower : ∀ s, lower (lower s) = lower s

structure NewportXpsQ8Proxy (α : Type) where
  motors : Option (Dict (Dict (Position α)))

/-- `{key.lower(): value for key, value in items}` -/
def lowered {β : Type} (l : Lower) (items : Dict β) : Dict β :=
  items.foldl (fun d e => d.set (l.lower e.1) e.2) []

/-- mirrors catkit2/testbed/proxies/newport_xps.py:58-60 -/
def NewportXpsQ8Proxy.positions (proxy : NewportXpsQ8Proxy α) (l : Lower) (getter : Nat) :
    Nat → Except Error (Dict (Dict (Position α))) :=
  property getter do
    let motors ← configItem "motors" proxy.motors
    return lowered l motors

/-- mirrors catkit2/testbed/proxies/newport_xps.py:48-56 -/
def NewportXpsQ8Proxy.resolvePosition (proxy : NewportXpsQ8Proxy α) (l : Lower) (getter : Nat) :
    Nat → String → Position α → Except Error α
  | 0, _, _ => .error .recursionError
  | _ + 1, _, .value position => .ok position
  | frames + 1, motor_id, .name position_name => do
    let positions ← proxy.positions l getter frames
    let motor ← positions.item (l.lower motor_id)
    let position ← motor.item position_name
    proxy.resolvePosition l getter frames (l.lower motor_id) position

/-! ## What comes of a chain -/

/-- The frames that a chain of `k` names takes: one for each, and one for the
number or, at the last name, for the property. -/
def framesNeeded (getter : Nat) : Nat → Nat
  | 0 => 1
  | k + 1 => k + 1 + max 1 getter

section Resolve

variable {table : Dict (Position α)} {getter frames k : Nat} {position : Position α} {v : α}

/-- The lookup of one name. -/
theorem resolve_name {n : String} {e : Position α} (h : table.get n = some e) (hget : getter ≤ frames) :
    resolve (property getter (.ok table)) (frames + 1) (.name n) = resolve (property getter (.ok table)) frames e := by
  rw [resolve, property, if_neg (Nat.not_lt.mpr hget)]
  show (table.item n).bind _ = _
  rw [Dict.item, h]
  rfl

theorem resolve_of_lt {n : String} (hget : frames < getter) :
    resolve (property getter (.ok table)) (frames + 1) (.name n) = .error .recursionError := by
  rw [resolve, property, if_pos hget]
  rfl

theorem resolve_of_ends (h : Ends table.get position k v) (frames : Nat) :
    resolve (property getter (.ok table)) frames position =
      if framesNeeded getter k ≤ frames then .ok v else .error .recursionError := by
  induction h generalizing frames with
  | value v =>
    cases frames with
    | zero => rfl
    | succ frames => rw [if_pos (by rw [framesNeeded]; omega), resolve]
  | @name n e k v hn he ih =>
    cases frames with
    | zero => rw [if_neg (by rw [framesNeeded]; omega), resolve]
    | succ frames =>
      by_cases hget : getter ≤ frames
      · rw [resolve_name hn hget, ih]
        have hiff : framesNeeded getter k ≤ frames ↔ framesNeeded getter (k + 1) ≤ frames + 1 := by
          cases k <;> simp only [framesNeeded] <;> omega
        simp only [hiff]
      · rw [resolve_of_lt (Nat.lt_of_not_le hget), if_neg (by rw [framesNeeded]; omega)]

theorem resolve_of_unknown {m : String} (h : Unknown table.get position k m) (frames : Nat) :
    resolve (property getter (.ok table)) frames position =
      if k + 1 + getter ≤ frames then .error (.keyError m) else .error .recursionError := by
  induction h generalizing frames with
  | @here n hn =>
    cases frames with
    | zero => rw [if_neg (by omega), resolve]
    | succ frames =>
      by_cases hget : getter ≤ frames
      · rw [if_pos (by omega), resolve, property, if_neg (Nat.not_lt.mpr hget)]
        show (table.item n).bind _ = _
        rw [Dict.item, hn]
        rfl
      · rw [resolve_of_lt (Nat.lt_of_not_le hget), if_neg (by omega)]
  | @name n m e k hn he ih =>
    cases frames with
    | zero => rw [if_neg (by omega), resolve]
    | succ frames =>
      by_cases hget : getter ≤ frames
      · rw [resolve_name hn hget, ih]
        have hiff : k + 1 + getter ≤ frames ↔ k + 1 + 1 + getter ≤ frames + 1 := by omega
        simp only [hiff]
      · rw [resolve_of_lt (Nat.lt_of_not_le hget), if_neg (by omega)]

/-- A circle ends with the last frame. -/
theorem resolve_of_circular (h : Circular table.get position) :
    resolve (property getter (.ok table)) frames position = .error .recursionError := by
  induction frames generalizing position with
  | zero => rfl
  | succ frames ih =>
    cases position with
    | value v => exact h.elim
    | name n =>
      obtain ⟨m, hm, hc⟩ := h.next
      by_cases hget : getter ≤ frames
      · rw [resolve_name hm hget]
        exact ih hc
      · exact resolve_of_lt (Nat.lt_of_not_le hget)

end Resolve

/-! ## When a number is returned -/

/-- What a call with so many frames has to result in. -/
structure Outcome (table : Dict (Position α)) (getter frames : Nat) (position : Position α)
    (result : Except Error α) : Prop where
  ok_iff : ∀ v, result = .ok v ↔ ∃ k, Ends table.get position k v ∧ framesNeeded getter k ≤ frames
  keyError_iff : ∀ m, result = .error (.keyError m) ↔
    ∃ k, Unknown table.get position k m ∧ k + 1 + getter ≤ frames
  error_iff : (∃ e, result = .error e) ↔
    (∃ k m, Unknown table.get position k m) ∨ Circular table.get position ∨
      ∃ k v, Ends table.get position k v ∧ frames < framesNeeded getter k

section Outcome

variable {table : Dict (Position α)} {getter frames k : Nat} {position : Position α} {v : α} {m : String}

theorem Outcome.of_ends (h : Ends table.get position k v) :
    Outcome table getter frames position (if framesNeeded getter k ≤ frames then .ok v else .error .recursionError) := by
  refine ⟨fun w => ?_, fun m => ?_, ?_⟩
  · constructor
    · intro hok
      split at hok
      · cases hok
        exact ⟨k, h, ‹_›⟩
      · cases hok
    · rintro ⟨k', h', hframes⟩
      obtain ⟨rfl, rfl⟩ := h.unique h'
      exact if_pos hframes
  · constructor
    · intro herr
      split at herr <;> cases herr
    · rintro ⟨k', hunknown, -⟩
      exact absurd h hunknown.not_ends
  · constructor
    · rintro ⟨e, he⟩
      split at he
      · cases he
      · exact .inr (.inr ⟨k, v, h, Nat.lt_of_not_le ‹_›⟩)
    · rintro (⟨k', m, hunknown⟩ | hcircular | ⟨k', v', h', hframes⟩)
      · exact absurd h hunknown.not_ends
      · exact absurd h hcircular.not_ends
      · obtain ⟨rfl, rfl⟩ := h.unique h'
        exact ⟨_, if_neg (Nat.not_le.mpr hframes)⟩

theorem Outcome.of_unknown (h : Unknown table.get position k m) :
    Outcome table getter frames position
      (if k + 1 + getter ≤ frames then .error (.keyError m) else .error .recursionError) := by
  refine ⟨fun w => ?_, fun m' => ?_, ?_⟩
  · constructor
    · intro hok
      split at hok <;> cases hok
    · rintro ⟨k', hends, -⟩
      exact absurd hends h.not_ends
  · constructor
    · intro herr
      split at herr
      · cases herr
        exact ⟨k, h, ‹_›⟩
      · cases herr
    · rintro ⟨k', h', hframes⟩
      obtain ⟨rfl, rfl⟩ := h.unique h'
      exact if_pos hframes
  · refine iff_of_true ?_ (.inl ⟨k, m, h⟩)
    split <;> exact ⟨_, rfl⟩

theorem Outcome.of_circular (h : Circular table.get position) :
    Outcome table getter frames position (.error .recursionError) := by
  refine ⟨fun w => ?_, fun m => ?_, ?_⟩
  · refine iff_of_false (by rintro ⟨⟩) ?_
    rintro ⟨k, hends, -⟩
    exact h.not_ends hends
  · refine iff_of_false (by rintro ⟨⟩) ?_
    rintro ⟨k, hunknown, -⟩
    exact h.not_unknown hunknown
  · exact iff_of_true ⟨_, rfl⟩ (.inr (.inl h))

theorem outcome_resolve (table : Dict (Position α)) (getter frames : Nat) (position : Position α) :
    Outcome table getter frames position (resolve (property getter (.ok table)) frames position) := by
  have hnames : ∀ n, table.get n ≠ none → n ∈ table.map (·.1) := fun _ => Dict.mem_of_get
  rcases ends_or_unknown_or_circular hnames position with
    ⟨k, v, h⟩ | ⟨k, m, h⟩ | h
  · rw [resolve_of_ends h]
    exact .of_ends h
  · rw [resolve_of_unknown h]
    exact .of_unknown h
  · rw [resolve_of_circular h]
    exact .of_circular h

end Outcome

/-! ## The motors of a controller -/

theorem NewportXpsQ8Proxy.positions_eq (motors : Dict (Dict (Position α))) (l : Lower) (getter : Nat) :
    NewportXpsQ8Proxy.positions ⟨some motors⟩ l getter = property getter (.ok (lowered l motors)) := rfl

/-- Each call looks at the table of one motor, whatever the case of its letters. -/
theorem NewportXpsQ8Proxy.resolvePosition_eq {motors : Dict (Dict (Position α))} {l : Lower} {motor_id : String}
    {table : Dict (Position α)} (h : (lowered l motors).get (l.lower motor_id) = some table) (getter frames : Nat)
    (position : Position α) :
    NewportXpsQ8Proxy.resolvePosition ⟨some motors⟩ l getter frames motor_id position =
      resolve (property getter (.ok table)) frames position := by
  induction frames generalizing motor_id position with
  | zero => rfl
  | succ frames ih =>
    cases position with
    | value v => rfl
    | name n =>
      have hmotor : (lowered l motors).item (l.lower motor_id) = .ok table := by
        rw [Dict.item, h]
      rw [resolvePosition, resolve, positions_eq]
      by_cases hget : frames < getter
      · rw [property, property, if_pos hget, if_pos hget]
        rfl
      · rw [property, property, if_neg hget, if_neg hget]
        show ((lowered l motors).item (l.lower motor_id)).bind _ = (table.item n).bind _
        rw [hmotor]
        show (table.item n).bind _ = (table.item n).bind _
        congr 1
        funext position
        exact ih (by rw [l.lower_lower, h]) position

/-- **What a named position resolves to.** -/
theorem resolve_position_iff (getter frames : Nat) (position : Position α) :
    (∀ table, Outcome table getter frames position
      (ThorlabsCubeMotorKinesisProxy.resolvePosition ⟨some table⟩ getter frames position)) ∧
    ∀ (l : Lower) (motors : Dict (Dict (Position α))) (motor_id : String) (table : Dict (Position α)),
      (lowered l motors).get (l.lower motor_id) = some table →
        Outcome table getter frames position
          (NewportXpsQ8Proxy.resolvePosition ⟨some motors⟩ l getter frames motor_id position) := by
  constructor
  · intro table
    exact outcome_resolve table getter frames position
  · intro l motors motor_id table h
    rw [NewportXpsQ8Proxy.resolvePosition_eq h]
    exact outcome_resolve table getter frames position

/-- A chain of two names, with just the frames for it. -/
theorem resolve_position_iff_home :
    Outcome [("home", .name "zero"), ("zero", .value 0)] 1 3 (.name "home")
        (NewportXpsQ8Proxy.resolvePosition ⟨some [("m1", [("home", .name "zero"), ("zero", .value (0 : ℤ))])]⟩
          ⟨id, fun _ => rfl⟩ 1 3 "m1" (.name "home")) ∧
      NewportXpsQ8Proxy.resolvePosition ⟨some [("m1", [("home", .name "zero"), ("zero", .value (0 : ℤ))])]⟩
        ⟨id, fun _ => rfl⟩ 1 3 "m1" (.name "home") = .ok 0 :=
  ⟨(resolve_position_iff 1 3 (.name "home")).2 _ _ "m1" _ rfl, rfl⟩

theorem FlipMountProxy.outcome (table : Dict (Position α)) (getter frames : Nat) (position : Position α) :
    Outcome table getter frames position
      (FlipMountProxy.resolvePosition ⟨some table⟩ getter frames position) :=
  outcome_resolve table getter frames position

/-- Frames for all names of the table are frames for each chain. -/
theorem resolve_position_of_small {table : Dict (Position α)} {getter frames : Nat}
    (h : table.length + max 1 getter ≤ frames) (position : Position α) (v : α) :
    ThorlabsCubeMotorKinesisProxy.resolvePosition ⟨some table⟩ getter frames position = .ok v ↔
      ∃ k, Ends table.get position k v := by
  refine ((outcome_resolve table getter frames position).ok_iff v).trans ?_
  refine ⟨fun ⟨k, hends, _⟩ => ⟨k, hends⟩, ?_⟩
  rintro ⟨k, hends⟩
  have hk : k ≤ table.length := by
    have hle := hends.le_length (fun _ => Dict.mem_of_get)
    rwa [List.length_map] at hle
  refine ⟨k, hends, ?_⟩
  cases k with
  | zero => rw [framesNeeded]; omega
  | succ k => rw [framesNeeded]; omega

/-! ## A chain that is too long -/

def aliasName (i : Nat) : String := String.ofList (List.replicate (i + 1) 'p')

theorem aliasName_inj {i j : Nat} (h : aliasName i = aliasName j) : i = j := by
  have hlen := congrArg List.length (String.ofList_injective h)
  rw [List.length_replicate, List.length_replicate] at hlen
  exact Nat.succ.inj hlen

/-- Each name stands for the one before it, and the first for 25. -/
def aliases : Nat → Dict (Position ℤ)
  | 0 => [(aliasName 0, .value 25)]
  | n + 1 => (aliasName (n + 1), .name (aliasName n)) :: aliases n

/-- More names do not change the chain. -/
theorem aliases_get_succ {n i : Nat} (h : i ≤ n) :
    (aliases (n + 1)).get (aliasName i) = (aliases n).get (aliasName i) := by
  have hne : aliasName i ≠ aliasName (n + 1) := by
    intro heq
    have := aliasName_inj heq
    omega
  rw [aliases, Dict.get, List.lookup_cons, beq_eq_false_iff_ne.mpr hne]
  rfl

theorem aliases_ends {n i : Nat} (h : i ≤ n) : Ends (aliases n).get (.name (aliasName i)) (i + 1) 25 := by
  have hfirst : ∀ n, (aliases n).get (aliasName 0) = some (.value 25) := by
    intro n
    induction n with
    | zero => rfl
    | succ n ih => rw [aliases_get_succ (Nat.zero_le n), ih]
  have hsucc : ∀ n i, i < n → (aliases n).get (aliasName (i + 1)) = some (.name (aliasName i)) := by
    intro n i hi
    induction n with
    | zero => omega
    | succ n ih =>
      rcases Nat.lt_succ_iff_lt_or_eq.mp hi with hi | rfl
      · rw [aliases_get_succ hi, ih hi]
      · rw [aliases, Dict.get, List.lookup_cons, beq_self_eq_true]
  induction i with
  | zero => exact .name (hfirst n) (.value 25)
  | succ i ih => exact .name (hsucc n i h) (ih (by omega))

/-- The chain of a thousand names ends in 25, and a thousand frames are not
enough to see it. -/
theorem thousand_names_raise :
    Ends (aliases 999).get (.name (aliasName 999)) 1000 25 ∧
      ThorlabsCubeMotorKinesisProxy.resolvePosition ⟨some (aliases 999)⟩ 1 1000 (.name (aliasName 999)) =
        .error .recursionError := by
  have hends := aliases_ends (Nat.le_refl 999)
  have hlong : ¬ framesNeeded 1 1000 ≤ 1000 := by decide
  exact ⟨hends, (resolve_of_ends hends 1000).trans (if_neg hlong)⟩

end Catkit2.L5.NamedPositions
