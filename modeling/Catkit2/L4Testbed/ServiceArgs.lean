import Catkit2.Core.Except
import Catkit2.Core.Stoi
import Catkit2.L1Encoding.Tensor

/-!
# The arguments of a service (catkit_core/Service.cpp, ParseServiceArgs)

A service is started with its id, its port and the port of its testbed. The
scanner walks over the arguments behind the first and takes one of them or two
at each option. What it prints about the usage is left out.

The grammar says what an option is (`Form`) and how arguments split into options
(`Splits`), without a cursor.

* `scan_of_form`, `form_of_scan`: the scanner takes exactly the options.
* `parseFrom_of_splits`, `splits_of_parseFrom`: the loop assigns the options one
  after the other.
* `parseServiceArgs_iff`: what is accepted, and what is returned.
* `parseServiceArgs_startArgs`: what `Testbed.start_service` passes is read back.
-/
namespace Catkit2.L4.ServiceArgs

open Catkit2.L1 Catkit2.Stoi

/-! ## The scanner -/

inductive Thrown where
  | runtime_error (what : StdString)
  | stoi (e : Stoi.Exception)
  deriving DecidableEq

inductive ServiceOption where
  | id | port | testbed_port
  deriving DecidableEq

def missing : Thrown := .runtime_error (ascii "Did not supply all arguments.")

/-- `arg.rfind(start, 0) == 0` -/
def startsWith (arg : StdString) (start : String) : Bool := (ascii start).bytes.isPrefixOf arg.bytes

/-- `arg.substr(n)` -/
def substr (arg : StdString) (n : Nat) : StdString := ⟨arg.bytes.drop n⟩

/-- An option whose value is the next argument, if there is one. -/
def spaced (o : ServiceOption) : Option StdString → Except Thrown (ServiceOption × StdString × Nat)
  | some value => .ok (o, value, 2)
  | none => .error missing

/-- One turn of the loop, up to the assignment: the option, the text of its
value, and how far the cursor moves. `next` is `arguments[i + 1]`.
mirrors catkit_core/Service.cpp:572-660 -/
def scan (arg : StdString) (next : Option StdString) : Except Thrown (ServiceOption × StdString × Nat) :=
  if arg = ascii "--id" ∨ arg = ascii "-n" then spaced .id next
  else if startsWith arg "--id=" then .ok (.id, substr arg 5, 1)
  else if startsWith arg "-n=" then .ok (.id, substr arg 3, 1)
  else if arg = ascii "--port" ∨ arg = ascii "-p" then spaced .port next
  else if startsWith arg "--port=" then .ok (.port, substr arg 7, 1)
  else if startsWith arg "-p=" then .ok (.port, substr arg 3, 1)
  else if arg = ascii "--testbed_port" ∨ arg = ascii "-t" then spaced .testbed_port next
  else if startsWith arg "--testbed_port=" then .ok (.testbed_port, substr arg 15, 1)
  else if startsWith arg "-t=" then .ok (.testbed_port, substr arg 3, 1)
  else .error (.runtime_error ⟨(ascii "Invalid argument '").bytes ++ arg.bytes⟩)

/-! ## What an option is -/

def ServiceOption.names : ServiceOption → List String
  | .id => ["--id", "-n"]
  | .port => ["--port", "-p"]
  | .testbed_port => ["--testbed_port", "-t"]

/-- The arguments that give an option a value: its name and the value, or one
argument with both. -/
inductive Form (o : ServiceOption) : List StdString → StdString → Prop
  | spaced {name : String} (h : name ∈ o.names) (value : StdString) : Form o [ascii name, value] value
  | joined {name : String} (h : name ∈ o.names) (value : StdString) :
    Form o [⟨(ascii name).bytes ++ (ascii "=").bytes ++ value.bytes⟩] value

/-! ## The scanner takes the options -/

theorem startsWith_iff {arg : StdString} {start : String} :
    startsWith arg start = true ↔ ∃ rest : StdString, arg = ⟨(ascii start).bytes ++ rest.bytes⟩ := by
  rw [startsWith, List.isPrefixOf_iff_prefix]
  constructor
  · rintro ⟨rest, h⟩
    exact ⟨⟨rest⟩, by rw [h]⟩
  · rintro ⟨rest, rfl⟩
    exact ⟨rest.bytes, rfl⟩

theorem scan_of_form {o : ServiceOption} {ts : List StdString} {value : StdString} (h : Form o ts value) :
    ∃ arg more, ts = arg :: more ∧ ∀ rest, scan arg (more ++ rest).head? = .ok (o, value, ts.length) := by
  cases h with
  | @spaced name hname value =>
    refine ⟨_, _, rfl, fun rest => ?_⟩
    cases o <;> simp only [ServiceOption.names, List.mem_cons, List.not_mem_nil, or_false] at hname <;>
      rcases hname with rfl | rfl <;> rfl
  | @joined name hname value =>
    refine ⟨_, _, rfl, fun rest => ?_⟩
    cases o <;> simp only [ServiceOption.names, List.mem_cons, List.not_mem_nil, or_false] at hname <;>
      rcases hname with rfl | rfl <;> rfl

/-- An option and its value in one argument. -/
theorem form_of_joined {o : ServiceOption} (name start : String) (hname : name ∈ o.names)
    (hstart : (ascii start).bytes = (ascii name).bytes ++ (ascii "=").bytes) {arg : StdString}
    (harg : startsWith arg start = true) : Form o [arg] (substr arg (ascii start).bytes.length) := by
  obtain ⟨value, rfl⟩ := startsWith_iff.mp harg
  have hvalue : substr ⟨(ascii start).bytes ++ value.bytes⟩ (ascii start).bytes.length = value := by
    rw [substr, List.drop_left]
  rw [hvalue, hstart]
  exact .joined hname value

theorem form_of_spaced {o o' : ServiceOption} {arg value : StdString} {next : Option StdString} {n : Nat}
    (harg : ∃ name ∈ o.names, arg = ascii name) (h : spaced o next = .ok (o', value, n)) :
    n = 2 ∧ next = some value ∧ Form o' [arg, value] value := by
  obtain ⟨name, hname, rfl⟩ := harg
  cases next with
  | none => cases h
  | some v =>
    cases h
    exact ⟨rfl, rfl, .spaced hname value⟩

theorem name_of_or {o : ServiceOption} {arg : StdString} {long short : String} (hlong : long ∈ o.names)
    (hshort : short ∈ o.names) (h : arg = ascii long ∨ arg = ascii short) : ∃ name ∈ o.names, arg = ascii name := by
  rcases h with h | h
  · exact ⟨long, hlong, h⟩
  · exact ⟨short, hshort, h⟩

theorem form_of_scan {arg value : StdString} {next : Option StdString} {o : ServiceOption} {n : Nat}
    (h : scan arg next = .ok (o, value, n)) :
    (n = 1 ∧ Form o [arg] value) ∨ (n = 2 ∧ next = some value ∧ Form o [arg, value] value) := by
  have joined : ∀ {o'} (name start : String), name ∈ o'.names →
      (ascii start).bytes = (ascii name).bytes ++ (ascii "=").bytes → startsWith arg start = true →
        (Except.ok (o', substr arg (ascii start).bytes.length, 1) : Except Thrown _) = .ok (o, value, n) →
          n = 1 ∧ Form o [arg] value := by
    intro o' name start hname hstart harg h
    cases h
    exact ⟨rfl, form_of_joined name start hname hstart harg⟩
  unfold scan at h
  rcases ite_eq_iff.mp h with ⟨harg, h⟩ | ⟨-, h⟩
  · exact .inr (form_of_spaced (name_of_or (by decide) (by decide) harg) h)
  rcases ite_eq_iff.mp h with ⟨harg, h⟩ | ⟨-, h⟩
  · exact .inl (joined "--id" "--id=" (by decide) rfl harg h)
  rcases ite_eq_iff.mp h with ⟨harg, h⟩ | ⟨-, h⟩
  · exact .inl (joined "-n" "-n=" (by decide) rfl harg h)
  rcases ite_eq_iff.mp h with ⟨harg, h⟩ | ⟨-, h⟩
  · exact .inr (form_of_spaced (name_of_or (by decide) (by decide) harg) h)
  rcases ite_eq_iff.mp h with ⟨harg, h⟩ | ⟨-, h⟩
  · exact .inl (joined "--port" "--port=" (by decide) rfl harg h)
  rcases ite_eq_iff.mp h with ⟨harg, h⟩ | ⟨-, h⟩
  · exact .inl (joined "-p" "-p=" (by decide) rfl harg h)
  rcases ite_eq_iff.mp h with ⟨harg, h⟩ | ⟨-, h⟩
  · exact .inr (form_of_spaced (name_of_or (by decide) (by decide) harg) h)
  rcases ite_eq_iff.mp h with ⟨harg, h⟩ | ⟨-, h⟩
  · exact .inl (joined "--testbed_port" "--testbed_port=" (by decide) rfl harg h)
  rcases ite_eq_iff.mp h with ⟨harg, h⟩ | ⟨-, h⟩
  · exact .inl (joined "-t" "-t=" (by decide) rfl harg h)
  · cases h

/-- The cursor moves on. -/
theorem scan_advances {arg : StdString} {next : Option StdString} {o : ServiceOption} {value : StdString} {n : Nat}
    (h : scan arg next = .ok (o, value, n)) : 1 ≤ n := by
  rcases form_of_scan h with ⟨rfl, -⟩ | ⟨rfl, -, -⟩ <;> decide

/-! ## The loop -/

/-- The local variables; `none` as long as the option was not found. -/
structure Parsed where
  service_id : Option StdString
  service_port : Option Int32
  testbed_port : Option Int32

/-- `std::stoi(text)` -/
def portOf (text : StdString) : Except Thrown Int32 :=
  match stoi text.bytes with
  | .ok n => .ok n
  | .error e => .error (.stoi e)

def assign (s : Parsed) (option : ServiceOption × StdString) : Except Thrown Parsed :=
  match option with
  | (.id, value) => .ok { s with service_id := some value }
  | (.port, value) => do
    let n ← portOf value
    return { s with service_port := some n }
  | (.testbed_port, value) => do
    let n ← portOf value
    return { s with testbed_port := some n }

/-- The loop, from `i` on. -/
def parseFrom (arguments : List StdString) (i : Nat) (s : Parsed) : Except Thrown Parsed :=
  if hi : i < arguments.length then
    match hscan : scan arguments[i] arguments[i + 1]? with
    | .error e => .error e
    | .ok (o, value, n) =>
      match assign s (o, value) with
      | .error e => .error e
      | .ok s => parseFrom arguments (i + n) s
  else .ok s
termination_by arguments.length - i
decreasing_by
  have := scan_advances hscan
  omega

/-- mirrors catkit_core/Service.cpp:561-673 -/
def parseServiceArgs (arguments : List StdString) : Except Thrown (StdString × Int32 × Int32) := do
  let s ← parseFrom arguments 1 ⟨none, none, none⟩
  match s.service_id, s.service_port, s.testbed_port with
  | some service_id, some service_port, some testbed_port => return (service_id, service_port, testbed_port)
  | _, _, _ => throw missing

/-! ## The grammar -/

/-- The arguments split from left to right into options. -/
inductive Splits : List StdString → List (ServiceOption × StdString) → Prop
  | nil : Splits [] []
  | cons {o : ServiceOption} {ts rest : List StdString} {value : StdString}
    {options : List (ServiceOption × StdString)} (h : Form o ts value) (hrest : Splits rest options) :
    Splits (ts ++ rest) ((o, value) :: options)

/-- What the last occurrence of an option gives it. -/
def lastValue (o : ServiceOption) (options : List (ServiceOption × StdString)) : Option StdString :=
  ((options.filter (·.1 = o)).map (·.2)).getLast?

/-- `std::stoi` accepts the text of every port. -/
def PortsAccepted (options : List (ServiceOption × StdString)) : Prop :=
  ∀ e ∈ options, e.1 ≠ .id → ∃ n, stoi e.2.bytes = .ok n

/-! ## The loop assigns them one after the other -/

theorem parseFrom_cons {a rest : List StdString} {i : Nat} {arg : StdString} (h : a.drop i = arg :: rest) (s : Parsed) :
    parseFrom a i s = scan arg rest.head? >>= fun t => assign s (t.1, t.2.1) >>= parseFrom a (i + t.2.2) := by
  have hi : i < a.length := by
    by_contra hle
    rw [List.drop_eq_nil_of_le (Nat.le_of_not_lt hle)] at h
    cases h
  obtain ⟨harg, hrest⟩ := List.cons_eq_cons.mp ((List.drop_eq_getElem_cons hi).symm.trans h)
  have hnext : a[i + 1]? = rest.head? := by rw [← hrest, List.head?_drop]
  rw [parseFrom, dif_pos hi]
  subst harg
  rw [← hnext]
  cases scan a[i] a[i + 1]? with
  | error e => rfl
  | ok t =>
    obtain ⟨o, value, n⟩ := t
    show (match assign s (o, value) with | .error e => _ | .ok s => _) = assign s (o, value) >>= _
    cases assign s (o, value) with
    | error e => rfl
    | ok s => rfl

theorem parseFrom_nil {a : List StdString} {i : Nat} (h : a.drop i = []) (s : Parsed) : parseFrom a i s = .ok s := by
  rw [parseFrom, dif_neg (Nat.not_lt.mpr (List.drop_eq_nil_iff.mp h))]

/-- The loop looks at what is behind the cursor only. -/
theorem parseFrom_congr (n : Nat) {a b : List StdString} {i j : Nat} (hn : a.length - i ≤ n)
    (hdrop : a.drop i = b.drop j) (s : Parsed) : parseFrom a i s = parseFrom b j s := by
  induction n generalizing i j s with
  | zero =>
    have hnil : a.drop i = [] := List.drop_eq_nil_of_le (by omega)
    rw [parseFrom_nil hnil, parseFrom_nil (hdrop.symm.trans hnil)]
  | succ n ih =>
    cases h : a.drop i with
    | nil => rw [parseFrom_nil h, parseFrom_nil (hdrop.symm.trans h)]
    | cons arg rest =>
      rw [parseFrom_cons h, parseFrom_cons (hdrop.symm.trans h)]
      cases hscan : scan arg rest.head? with
      | error e => rfl
      | ok t =>
        obtain ⟨o, value, m⟩ := t
        have hm := scan_advances hscan
        have hnext : a.drop (i + m) = b.drop (j + m) := by rw [← List.drop_drop, hdrop, List.drop_drop]
        show (assign s (o, value) >>= parseFrom a (i + m)) = (assign s (o, value) >>= parseFrom b (j + m))
        cases assign s (o, value) with
        | error e => rfl
        | ok s => exact ih (by omega) hnext s

/-- Arguments that split into options are taken one option after the other. -/
theorem parseFrom_of_splits {ts : List StdString} {options : List (ServiceOption × StdString)}
    (h : Splits ts options) {a rest : List StdString} {i : Nat} (hdrop : a.drop i = ts ++ rest) (s : Parsed) :
    parseFrom a i s = options.foldlM assign s >>= parseFrom a (i + ts.length) := by
  induction h generalizing i s with
  | nil => rfl
  | @cons o ts ts' value options hform _ ih =>
    obtain ⟨arg, more, rfl, hscan⟩ := scan_of_form hform
    have hcons : a.drop i = arg :: (more ++ (ts' ++ rest)) := by rw [hdrop]; simp
    have hnext : a.drop (i + (arg :: more).length) = ts' ++ rest := by
      rw [← List.drop_drop, hdrop, List.append_assoc, List.drop_left]
    rw [parseFrom_cons hcons, hscan, List.foldlM_cons]
    show (assign s (o, value) >>= parseFrom a (i + (arg :: more).length)) = _
    cases assign s (o, value) with
    | error e => rfl
    | ok s =>
      rw [List.length_append, ← Nat.add_assoc]
      exact ih hnext s

/-- What is accepted splits into options. -/
theorem splits_of_parseFrom (n : Nat) {a : List StdString} {i : Nat} (hn : a.length - i ≤ n) {s s' : Parsed}
    (h : parseFrom a i s = .ok s') : ∃ options, Splits (a.drop i) options ∧ options.foldlM assign s = .ok s' := by
  induction n generalizing i s with
  | zero =>
    have hnil : a.drop i = [] := List.drop_eq_nil_of_le (by omega)
    rw [parseFrom_nil hnil] at h
    exact ⟨[], hnil ▸ .nil, h⟩
  | succ n ih =>
    cases hd : a.drop i with
    | nil =>
      rw [parseFrom_nil hd] at h
      exact ⟨[], .nil, h⟩
    | cons arg rest =>
      rw [parseFrom_cons hd] at h
      obtain ⟨⟨o, value, m⟩, hscan, h⟩ := bind_ok_iff.mp h
      obtain ⟨s₁, hassign, h⟩ := bind_ok_iff.mp h
      have hm := scan_advances hscan
      obtain ⟨options, hsplits, hfold⟩ := ih (i := i + m) (by omega) h
      have hfold' : ((o, value) :: options).foldlM assign s = .ok s' := by
        rw [List.foldlM_cons, hassign]
        exact hfold
      refine ⟨(o, value) :: options, ?_, hfold'⟩
      rw [← List.drop_drop, hd] at hsplits
      rcases form_of_scan hscan with ⟨rfl, hform⟩ | ⟨rfl, hnext, hform⟩
      · exact .cons hform hsplits
      · obtain ⟨rest', rfl⟩ : ∃ rest', rest = value :: rest' := by
          cases rest with
          | nil => cases hnext
          | cons v rest' =>
            cases hnext
            exact ⟨rest', rfl⟩
        exact .cons hform hsplits

/-! ## What the assignments leave -/

theorem lastValue_cons (o : ServiceOption) (e : ServiceOption × StdString) (options : List (ServiceOption × StdString)) :
    lastValue o (e :: options) = (lastValue o options).or (if e.1 = o then some e.2 else none) := by
  unfold lastValue
  by_cases he : e.1 = o
  · simp only [List.filter_cons, he, decide_true, ↓reduceIte, List.map_cons, List.getLast?_cons]
    cases ((options.filter (·.1 = o)).map (·.2)).getLast? <;> rfl
  · simp only [List.filter_cons, he, decide_false, Bool.false_eq_true, ↓reduceIte, Option.or_none]

theorem elim_or {α β : Type} (x y : Option α) (b : β) (f : α → β) : (x.or y).elim b f = x.elim (y.elim b f) f := by
  cases x <;> rfl

/-- The number that `std::stoi` reads. -/
def portIn (value : StdString) : Option Int32 := (stoi value.bytes).toOption

theorem portOf_ok_iff {value : StdString} {n : Int32} : portOf value = .ok n ↔ stoi value.bytes = .ok n := by
  unfold portOf
  cases stoi value.bytes with
  | error e => exact ⟨nofun, nofun⟩
  | ok m => simp

theorem portIn_of_ok {value : StdString} {n : Int32} (h : stoi value.bytes = .ok n) : portIn value = some n := by
  rw [portIn, h]
  rfl

theorem stoi_of_portIn {value : StdString} {n : Int32} (h : portIn value = some n) : stoi value.bytes = .ok n := by
  unfold portIn at h
  cases hs : stoi value.bytes with
  | error e => rw [hs] at h; cases h
  | ok m => rw [hs] at h; cases h; rfl

/-- Every variable has the value of the last occurrence of its option, or the one
it had. -/
structure Assigned (options : List (ServiceOption × StdString)) (s s' : Parsed) : Prop where
  accepted : PortsAccepted options
  id : s'.service_id = (lastValue .id options).elim s.service_id some
  port : s'.service_port = (lastValue .port options).elim s.service_port portIn
  testbed_port : s'.testbed_port = (lastValue .testbed_port options).elim s.testbed_port portIn

/-- One assignment. -/
theorem assign_ok {e : ServiceOption × StdString} {s s' : Parsed} (h : assign s e = .ok s') :
    (e.1 ≠ .id → ∃ n, stoi e.2.bytes = .ok n) ∧
      s'.service_id = (if e.1 = .id then some e.2 else none).elim s.service_id some ∧
      s'.service_port = (if e.1 = .port then some e.2 else none).elim s.service_port portIn ∧
      s'.testbed_port = (if e.1 = .testbed_port then some e.2 else none).elim s.testbed_port portIn := by
  obtain ⟨o, value⟩ := e
  cases o with
  | id =>
    cases h
    exact ⟨fun hne => absurd rfl hne, rfl, rfl, rfl⟩
  | port =>
    obtain ⟨n, hn, h⟩ := bind_ok_iff.mp h
    cases h
    have hn := portOf_ok_iff.mp hn
    exact ⟨fun _ => ⟨n, hn⟩, rfl, (portIn_of_ok hn).symm, rfl⟩
  | testbed_port =>
    obtain ⟨n, hn, h⟩ := bind_ok_iff.mp h
    cases h
    have hn := portOf_ok_iff.mp hn
    exact ⟨fun _ => ⟨n, hn⟩, rfl, rfl, (portIn_of_ok hn).symm⟩

theorem assigned_of_ok {options : List (ServiceOption × StdString)} {s s' : Parsed}
    (h : options.foldlM assign s = .ok s') : Assigned options s s' := by
  refine foldlM_ok (R := Assigned) (fun s => ⟨nofun, rfl, rfl, rfl⟩) (fun e l s s₁ s' h1 h2 => ?_) options h
  obtain ⟨he, hid, hport, htestbed⟩ := assign_ok h1
  refine ⟨List.forall_mem_cons.mpr ⟨he, h2.accepted⟩, ?_, ?_, ?_⟩
  · rw [lastValue_cons, elim_or, ← hid]
    exact h2.id
  · rw [lastValue_cons, elim_or, ← hport]
    exact h2.port
  · rw [lastValue_cons, elim_or, ← htestbed]
    exact h2.testbed_port

/-- Assignments raise only for a text that is no number. -/
theorem ok_of_portsAccepted {options : List (ServiceOption × StdString)} (h : PortsAccepted options) (s : Parsed) :
    ∃ s', options.foldlM assign s = .ok s' := by
  induction options generalizing s with
  | nil => exact ⟨s, rfl⟩
  | cons e options ih =>
    obtain ⟨he, hrest⟩ := List.forall_mem_cons.mp h
    obtain ⟨s₁, hs₁⟩ : ∃ s₁, assign s e = .ok s₁ := by
      obtain ⟨o, value⟩ := e
      cases o with
      | id => exact ⟨_, rfl⟩
      | port | testbed_port =>
        obtain ⟨n, hn⟩ := he nofun
        exact ⟨_, bind_ok_iff.mpr ⟨n, portOf_ok_iff.mpr hn, rfl⟩⟩
    obtain ⟨s', hs'⟩ := ih hrest s₁
    exact ⟨s', by rw [List.foldlM_cons, hs₁]; exact hs'⟩

/-! ## What is accepted -/

theorem parseServiceArgs_ok_iff {arguments : List StdString} {id : StdString} {port testbed_port : Int32} :
    parseServiceArgs arguments = .ok (id, port, testbed_port) ↔
      ∃ s, parseFrom arguments 1 ⟨none, none, none⟩ = .ok s ∧ s = ⟨some id, some port, some testbed_port⟩ := by
  unfold parseServiceArgs
  rw [bind_ok_iff]
  refine exists_congr fun s => and_congr_right fun _ => ?_
  obtain ⟨_ | id', _ | port', _ | testbed_port'⟩ := s
  all_goals constructor <;> intro h <;> cases h <;> rfl

/-- What the scanner accepts. -/
theorem parseFrom_ok_iff {arguments : List StdString} {s s' : Parsed} :
    parseFrom arguments 1 s = .ok s' ↔
      ∃ options, Splits arguments.tail options ∧ options.foldlM assign s = .ok s' := by
  rw [← List.drop_one]
  constructor
  · exact splits_of_parseFrom _ (Nat.le_refl _)
  · rintro ⟨options, hsplits, hfold⟩
    have hnil : arguments.drop (1 + (arguments.drop 1).length) = [] := List.drop_eq_nil_of_le (by simp; omega)
    rw [parseFrom_of_splits hsplits (List.append_nil _).symm, hfold]
    exact parseFrom_nil hnil s'

theorem elim_none_eq_some_iff {x : Option StdString} {n : Int32} :
    x.elim none portIn = some n ↔ ∃ value, x = some value ∧ stoi value.bytes = .ok n := by
  cases x with
  | none => exact ⟨nofun, nofun⟩
  | some v =>
    constructor
    · exact fun h => ⟨v, rfl, stoi_of_portIn h⟩
    · rintro ⟨value, hv, h⟩
      cases hv
      exact portIn_of_ok h

theorem elim_some (x : Option StdString) : x.elim none some = x := by
  cases x <;> rfl

/-- The arguments are options, the ports numbers, and the last values these. -/
def Gives (arguments : List StdString) (id : StdString) (port testbed_port : Int32) : Prop :=
  ∃ options, Splits arguments.tail options ∧ PortsAccepted options ∧ lastValue .id options = some id ∧
    (∃ value, lastValue .port options = some value ∧ stoi value.bytes = .ok port) ∧
    ∃ value, lastValue .testbed_port options = some value ∧ stoi value.bytes = .ok testbed_port

theorem gives_iff {arguments : List StdString} {id : StdString} {port testbed_port : Int32} :
    parseServiceArgs arguments = .ok (id, port, testbed_port) ↔ Gives arguments id port testbed_port := by
  rw [parseServiceArgs_ok_iff]
  constructor
  · rintro ⟨s, hs, rfl⟩
    obtain ⟨options, hsplits, hfold⟩ := parseFrom_ok_iff.mp hs
    obtain ⟨haccepted, hid, hport, htestbed⟩ := assigned_of_ok hfold
    refine ⟨options, hsplits, haccepted, ?_, elim_none_eq_some_iff.mp hport.symm,
      elim_none_eq_some_iff.mp htestbed.symm⟩
    rw [elim_some] at hid
    exact hid.symm
  · rintro ⟨options, hsplits, haccepted, hid, hport, htestbed⟩
    obtain ⟨s, hfold⟩ := ok_of_portsAccepted haccepted ⟨none, none, none⟩
    refine ⟨s, parseFrom_ok_iff.mpr ⟨options, hsplits, hfold⟩, ?_⟩
    obtain ⟨-, hid', hport', htestbed'⟩ := assigned_of_ok hfold
    rw [elim_some, hid] at hid'
    rw [elim_none_eq_some_iff.mpr hport] at hport'
    rw [elim_none_eq_some_iff.mpr htestbed] at htestbed'
    cases s
    cases hid'
    cases hport'
    cases htestbed'
    rfl

theorem exists_gives_iff {arguments : List StdString} :
    (∃ id port testbed_port, Gives arguments id port testbed_port) ↔
      ∃ options, Splits arguments.tail options ∧ PortsAccepted options ∧ ∀ o, ∃ value, lastValue o options = some value := by
  constructor
  · rintro ⟨id, port, testbed_port, options, hsplits, haccepted, hid, ⟨v, hv, -⟩, w, hw, -⟩
    refine ⟨options, hsplits, haccepted, fun o => ?_⟩
    cases o with
    | id => exact ⟨id, hid⟩
    | port => exact ⟨v, hv⟩
    | testbed_port => exact ⟨w, hw⟩
  · rintro ⟨options, hsplits, haccepted, hall⟩
    have hport : ∀ o, o ≠ .id → ∃ value n, lastValue o options = some value ∧ stoi value.bytes = .ok n := by
      intro o ho
      obtain ⟨value, hvalue⟩ := hall o
      obtain ⟨e, he, rfl⟩ := List.mem_map.mp (List.mem_of_getLast? hvalue)
      obtain ⟨hmem, heo⟩ := List.mem_filter.mp he
      obtain ⟨n, hn⟩ := haccepted e hmem (by rw [of_decide_eq_true heo]; exact ho)
      exact ⟨e.2, n, hvalue, hn⟩
    obtain ⟨id, hid⟩ := hall .id
    obtain ⟨v, port, hv, hp⟩ := hport .port nofun
    obtain ⟨w, testbed_port, hw, ht⟩ := hport .testbed_port nofun
    exact ⟨id, port, testbed_port, options, hsplits, haccepted, hid, ⟨v, hv, hp⟩, w, hw, ht⟩

theorem Splits.append {ts ts' : List StdString} {options options' : List (ServiceOption × StdString)}
    (h : Splits ts options) (h' : Splits ts' options') : Splits (ts ++ ts') (options ++ options') := by
  induction h with
  | nil => exact h'
  | cons hform _ ih =>
    rw [List.append_assoc]
    exact .cons hform ih

theorem Splits.single {o : ServiceOption} {ts : List StdString} {value : StdString} (h : Form o ts value) :
    Splits ts [(o, value)] := by
  have hs := Splits.cons h .nil
  rwa [List.append_nil] at hs

/-- Behind arguments that split into the same options the loop goes on alike. -/
theorem parseServiceArgs_congr {ts ts' : List StdString} {options : List (ServiceOption × StdString)}
    (h : Splits ts options) (h' : Splits ts' options) (program : StdString) (post : List StdString) :
    parseServiceArgs (program :: (ts ++ post)) = parseServiceArgs (program :: (ts' ++ post)) := by
  have hpost : ∀ l : List StdString, (program :: (l ++ post)).drop (1 + l.length) = post := by
    intro l
    rw [Nat.add_comm, List.drop_succ_cons, List.drop_left]
  have hloop : ∀ s, parseFrom (program :: (ts ++ post)) 1 s = parseFrom (program :: (ts' ++ post)) 1 s := by
    intro s
    rw [parseFrom_of_splits h rfl, parseFrom_of_splits h' rfl]
    cases options.foldlM assign s with
    | error e => rfl
    | ok s => exact parseFrom_congr _ (Nat.le_refl _) ((hpost ts).trans (hpost ts').symm) s
  rw [parseServiceArgs, parseServiceArgs, hloop]

/-- **The scanner is the grammar.** `ParseServiceArgs` returns what the last
occurrences of the three options give, if the arguments behind the first split
into options, all three occur and every port is a number; otherwise it raises. An
option may be given in any of its forms. -/
theorem parseServiceArgs_iff (arguments : List StdString) :
    (∀ id port testbed_port, parseServiceArgs arguments = .ok (id, port, testbed_port) ↔
      Gives arguments id port testbed_port) ∧
    ((∃ e, parseServiceArgs arguments = .error e) ↔ ¬ ∃ options, Splits arguments.tail options ∧
      PortsAccepted options ∧ ∀ o, ∃ value, lastValue o options = some value) ∧
    ∀ program pre options o ts ts' value post, Splits pre options → Form o ts value → Form o ts' value →
      parseServiceArgs (program :: (pre ++ ts ++ post)) = parseServiceArgs (program :: (pre ++ ts' ++ post)) := by
  refine ⟨fun id port testbed_port => gives_iff, ?_, ?_⟩
  · rw [← exists_gives_iff]
    cases hparse : parseServiceArgs arguments with
    | error e =>
      refine iff_of_true ⟨e, rfl⟩ ?_
      rintro ⟨id, port, testbed_port, h⟩
      cases hparse.symm.trans (gives_iff.mpr h)
    | ok r =>
      obtain ⟨id, port, testbed_port⟩ := r
      exact iff_of_false nofun (not_not.mpr ⟨id, port, testbed_port, gives_iff.mp hparse⟩)
  · intro program pre options o ts ts' value post hpre hts hts'
    exact parseServiceArgs_congr (hpre.append (.single hts)) (hpre.append (.single hts')) program post

/-! ## What the testbed passes -/

/-- mirrors catkit2/testbed/testbed.py:627-632 -/
def startArgs (service_id : StdString) (port testbed_port : Nat) : List StdString :=
  [ascii "--id", service_id, ascii "--port", ⟨str port⟩, ascii "--testbed_port", ⟨str testbed_port⟩]

/-- **A service reads what its testbed passed.** -/
theorem parseServiceArgs_startArgs (program service_id : StdString) {port testbed_port : Nat} (hport : port < 2 ^ 31)
    (htestbed : testbed_port < 2 ^ 31) : parseServiceArgs (program :: startArgs service_id port testbed_port) =
      .ok (service_id, Int32.ofNat port, Int32.ofNat testbed_port) := by
  refine gives_iff.mpr ⟨[(.id, service_id), (.port, ⟨str port⟩), (.testbed_port, ⟨str testbed_port⟩)], ?_, ?_, rfl,
    ⟨⟨str port⟩, rfl, stoi_str hport⟩, ⟨str testbed_port⟩, rfl, stoi_str htestbed⟩
  · have hid : Form .id [ascii "--id", service_id] service_id := .spaced (by decide) service_id
    have hp : Form .port [ascii "--port", ⟨str port⟩] ⟨str port⟩ := .spaced (by decide) _
    have ht : Form .testbed_port [ascii "--testbed_port", ⟨str testbed_port⟩] ⟨str testbed_port⟩ :=
      .spaced (by decide) _
    exact .cons hid (.cons hp (.single ht))
  · intro e he hne
    simp only [List.mem_cons, List.not_mem_nil, or_false] at he
    rcases he with rfl | rfl | rfl
    · exact absurd rfl hne
    · exact ⟨_, stoi_str hport⟩
    · exact ⟨_, stoi_str htestbed⟩

end Catkit2.L4.ServiceArgs
