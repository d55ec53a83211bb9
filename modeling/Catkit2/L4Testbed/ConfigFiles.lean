import Catkit2.Core.LastWrite
import Catkit2.L1Encoding.Tensor
import Catkit2.L4Testbed.DeepUpdate
import Mathlib.Data.List.Induction

/-!
# The configuration files (catkit2/config.py)

Each file is a section of the configuration, named after it; the files are
merged in order. A document is what the YAML loader makes of the text of a
file: objects of its own, of which an alias holds one at a second place. `None`
is `scalar none`, which is also what the loader makes of a text without any
document.

* `holds_readConfigFiles`: as long as the merges are apart, a setting of the
  configuration is what the last file that touches its path gives, an empty file
  giving its section `None`.
* `layered_iff`: an empty file gives nothing and changes nothing, as the files
  are read, exactly where there is none.
* `alwaysApart_of_unshared`: without aliases the merges are apart.
-/
namespace Catkit2.L4

open Catkit2.L1 Catkit2.ObjectHeap

/-! ## Reading -/

/-- A key of a YAML mapping: a string, or anything else that can be hashed. -/
inductive Key (τ : Type) where
  | str (s : StdString)
  | other (key : τ)
  deriving DecidableEq

abbrev ConfigHeap (τ β : Type) := Heap (Key τ) (Option β)

/-- A file with the document that its text holds. -/
structure ConfigFile (τ β : Type) where
  name : StdString
  heap : ConfigHeap τ β
  document : Obj (Option β)
  valid : Valid heap
  on : document.On heap.length

/-- `os.path.splitext(name)[0]`: the name up to its last dot, if anything but
dots comes before that one. -/
def splitextRoot (name : StdString) : StdString :=
  let root := ((name.bytes.reverse.dropWhile (· ≠ 46)).drop 1).reverse
  if root.all (· = 46) then name else ⟨root⟩

variable {τ β : Type}

namespace ConfigFile

/-- The objects of the document and `{section: document}`. -/
def objects (f : ConfigFile τ β) : ConfigHeap τ β :=
  f.heap ++ [.dict [(.str (splitextRoot f.name), f.document)]]

def config (f : ConfigFile τ β) : Obj (Option β) := .ref f.heap.length

end ConfigFile

/-- mirrors catkit2/config.py:33-42 -/
def readConfigFile (H : ConfigHeap τ β) (config_file : ConfigFile τ β) :
    ConfigHeap τ β × Obj (Option β) :=
  (load H config_file.objects, config_file.config.shift H.length)

variable [DecidableEq τ]

/-- mirrors catkit2/config.py:64-65 -/
def mergeFile (limit : Nat) (config : ConfigHeap τ β × Obj (Option β)) (config_file : ConfigFile τ β) :
    Option (ConfigHeap τ β × Obj (Option β)) :=
  let conf := readConfigFile config.1 config_file
  deepUpdate limit conf.1 config.2 conf.2

/-- mirrors catkit2/config.py:44-67 -/
def readConfigFiles (limit : Nat) (config_files : List (ConfigFile τ β)) :
    Option (ConfigHeap τ β × Obj (Option β)) :=
  config_files.foldlM (mergeFile limit) (newDict [])

/-! ## The files one after the other -/

section Objects

variable (f : ConfigFile τ β)

omit [DecidableEq τ] in
theorem getElem?_objects {a : Nat} (h : a < f.heap.length) : f.objects[a]? = f.heap[a]? :=
  List.getElem?_append_left h

theorem agree_objects : Agree f.heap f.objects f.document :=
  f.valid.agree f.on fun _ ha => getElem?_objects f ha

omit [DecidableEq τ] in
theorem items_config : items f.objects f.config = some [(.str (splitextRoot f.name), f.document)] := by
  rw [ConfigFile.config, items, ConfigFile.objects, List.getElem?_append_right (Nat.le_refl _),
    Nat.sub_self]
  rfl

omit [DecidableEq τ] in
theorem valid_objects : Valid f.objects := by
  intro c hc
  rcases List.mem_append.mp hc with hc | hc
  · exact (f.valid c hc).mono (by simp [ConfigFile.objects])
  · rw [List.mem_singleton.mp hc]
    refine ⟨fun x hx => ?_, List.nodup_singleton _⟩
    rw [List.mem_singleton.mp hx]
    exact f.on.mono (by simp [ConfigFile.objects])

/-- The dictionary of the section adds no second place. -/
theorem unshared_config (h : Unshared f.heap f.document) : Unshared f.objects f.config := by
  refine unshared_dict (items_config f) (fun k c hc => ?_) (fun k c hc a ha => ?_)
    fun k j _ _ hkj hc hd => ?_
  · rw [← (find_singleton.mp hc).2]
    exact (agree_objects f).unshared.mpr h
  · rw [← (find_singleton.mp hc).2, (agree_objects f).reaches] at ha
    exact Nat.ne_of_lt (f.valid.reaches_lt f.on ha)
  · exact absurd ((find_singleton.mp hc).1.symm.trans (find_singleton.mp hd).1) hkj

omit [DecidableEq τ] in
theorem on_config : f.config.On f.objects.length := by
  simp [ConfigFile.config, ConfigFile.objects, Obj.On]

end Objects

/-- The configuration is a dictionary on its heap. -/
structure Good (config : ConfigHeap τ β × Obj (Option β)) : Prop where
  valid : Valid config.1
  on : config.2.On config.1.length
  mapping : isMapping config.1 config.2

omit [DecidableEq τ] in
theorem good_new : Good (newDict ([] : ConfigHeap τ β)) where
  valid := valid_newDict fun _ hc => absurd hc List.not_mem_nil
  on := Nat.zero_lt_one
  mapping := rfl

section Merge

variable {config : ConfigHeap τ β × Obj (Option β)} {f : ConfigFile τ β}

theorem Good.agree_load (h : Good config) :
    Agree config.1 (readConfigFile config.1 f).1 config.2 :=
  h.valid.agree h.on fun _ ha => getElem?_load_of_lt _ _ ha

theorem nestedBelow_load {limit : Nat} (h : NestedBelow f.objects f.config limit) (H : ConfigHeap τ β) :
    NestedBelow (readConfigFile H f).1 (readConfigFile H f).2 limit := by
  intro path y hy hmap
  rw [readConfigFile, walk_load] at hy
  obtain ⟨z, hz, rfl⟩ := Option.map_eq_some_iff.mp hy
  rw [readConfigFile, isMapping_load] at hmap
  exact h path z hz hmap

/-- The objects of a file are its own. -/
theorem Good.separate_load (h : Good config) :
    Separate (readConfigFile config.1 f).1 config.2 (readConfigFile config.1 f).2 := by
  intro a ha hu
  have hlt := h.valid.reaches_lt h.on ((h.agree_load.reaches a).mp ha)
  have hle : config.1.length ≤ a := reaches_load config.1 f.objects (x := f.config) hu
  omega

/-- One file is merged. -/
theorem merged_mergeFile {limit : Nat} (h : Good config) (hdeep : NestedBelow f.objects f.config limit)
    (hapart : Apart (readConfigFile config.1 f).1 config.2 (readConfigFile config.1 f).2) :
    ∃ config', mergeFile limit config f = some config' ∧ Good config' ∧
      (∀ path, setting config'.1 config'.2 path =
        if touches f.objects f.config path then setting f.objects f.config path
        else setting config.1 config.2 path) ∧
      (Unshared config.1 config.2 → Unshared f.objects f.config → Unshared config'.1 config'.2) := by
  have hmap : isMapping (readConfigFile config.1 f).1 (readConfigFile config.1 f).2 := by
    rw [readConfigFile, isMapping_load]
    exact isMapping_eq_true.mpr ⟨_, items_config f⟩
  have hon : (readConfigFile config.1 f).2.On (readConfigFile config.1 f).1.length := by
    have hlt : f.heap.length < f.objects.length := on_config f
    change config.1.length + f.heap.length < (load config.1 f.objects).length
    simp only [load, List.length_append, List.length_map]
    omega
  obtain ⟨H', y, hrun, hmerged⟩ := merged_deepUpdate (valid_load h.valid (valid_objects f))
    (h.on.mono (by simp [load])) hon hmap hapart (nestedBelow_load hdeep config.1)
  refine ⟨(H', y), hrun, ⟨hmerged.valid, hmerged.on, hmerged.mapping⟩, fun path => ?_, fun hx hu => ?_⟩
  · rw [hmerged.setting, readConfigFile, touches_load, setting_load]
    rw [← h.agree_load (f := f).setting path]
    rfl
  · exact hmerged.unshared (h.agree_load.unshared.mpr hx) (unshared_load _ _ hu) h.separate_load

end Merge

/-- No merge changes a dictionary that is held elsewhere too. -/
def AlwaysApart (limit : Nat) (files : List (ConfigFile τ β)) : Prop :=
  ∀ pre f, pre ++ [f] <+: files → ∀ config, readConfigFiles limit pre = some config →
    Apart (readConfigFile config.1 f).1 config.2 (readConfigFile config.1 f).2

/-- The documents are not nested deeper than calls may go. -/
def AllNestedBelow (limit : Nat) (files : List (ConfigFile τ β)) : Prop :=
  ∀ f ∈ files, NestedBelow f.objects f.config limit

theorem readConfigFiles_concat (limit : Nat) (files : List (ConfigFile τ β)) (f : ConfigFile τ β) :
    readConfigFiles limit (files ++ [f]) =
      (readConfigFiles limit files).bind fun config => mergeFile limit config f := by
  simp only [readConfigFiles, List.foldlM_append, List.foldlM_cons, List.foldlM_nil]
  cases List.foldlM (mergeFile limit) (newDict []) files with
  | none => rfl
  | some config => exact Option.bind_fun_some (mergeFile limit config f)

theorem AlwaysApart.of_prefix {limit : Nat} {files pre : List (ConfigFile τ β)}
    (h : AlwaysApart limit files) (hpre : pre <+: files) : AlwaysApart limit pre :=
  fun p f hp => h p f (hp.trans hpre)

theorem AllNestedBelow.of_prefix {limit : Nat} {files pre : List (ConfigFile τ β)}
    (h : AllNestedBelow limit files) (hpre : pre <+: files) : AllNestedBelow limit pre :=
  fun f hf => h f (hpre.subset hf)

/-- A setting is what the last file that touches it gives, where an empty file
gives its section `None`. -/
theorem holds_readConfigFiles {limit : Nat} {files : List (ConfigFile τ β)}
    (hdeep : AllNestedBelow limit files) (hapart : AlwaysApart limit files) :
    ∃ config, readConfigFiles limit files = some config ∧ Good config ∧
      LastWrite.Holds (fun f => setting f.objects f.config) (fun f => touches f.objects f.config) files
        (setting config.1 config.2) := by
  induction files using List.reverseRecOn with
  | nil => exact ⟨newDict [], rfl, good_new, LastWrite.holds_nil setting_newDict⟩
  | append_singleton files f ih =>
    have hpre : files <+: files ++ [f] := List.prefix_append _ _
    obtain ⟨config, hrun, hgood, hholds⟩ := ih (hdeep.of_prefix hpre) (hapart.of_prefix hpre)
    obtain ⟨config', hmerge, hgood', hsetting, -⟩ := merged_mergeFile hgood (hdeep f (by simp))
      (hapart files f (List.prefix_refl _) config hrun)
    refine ⟨config', ?_, hgood', hholds.step hsetting⟩
    rw [readConfigFiles_concat, hrun, Option.bind_some, hmerge]

/-- Without aliases nothing is ever held twice. -/
theorem alwaysApart_of_unshared {limit : Nat} {files : List (ConfigFile τ β)}
    (hdeep : AllNestedBelow limit files) (h : ∀ f ∈ files, Unshared f.heap f.document) :
    AlwaysApart limit files ∧
      ∃ config, readConfigFiles limit files = some config ∧ Good config ∧ Unshared config.1 config.2 := by
  induction files using List.reverseRecOn with
  | nil =>
    refine ⟨fun pre f hpre => absurd (List.prefix_nil.mp hpre) (by simp), newDict [], rfl, good_new, ?_⟩
    exact unshared_newDict
  | append_singleton files f ih =>
    have hpre : files <+: files ++ [f] := List.prefix_append _ _
    obtain ⟨hapart, config, hrun, hgood, hunshared⟩ :=
      ih (hdeep.of_prefix hpre) fun g hg => h g (by simp [hg])
    have hlast : Apart (readConfigFile config.1 f).1 config.2 (readConfigFile config.1 f).2 :=
      apart_of_unshared (hgood.agree_load.unshared.mpr hunshared) hgood.separate_load
    obtain ⟨config', hmerge, hgood', -, hkept⟩ := merged_mergeFile hgood (hdeep f (by simp)) hlast
    refine ⟨fun pre g hg c hc => ?_, config', ?_, hgood',
      hkept hunshared (unshared_config f (h f (by simp)))⟩
    · rcases List.prefix_concat_iff.mp hg with heq | hg
      · obtain ⟨rfl, hgf⟩ := List.append_inj' heq rfl
        obtain rfl : g = f := by simpa using hgf
        obtain rfl : config = c := Option.some.inj (hrun.symm.trans hc)
        exact hlast
      · exact hapart pre g hg c hc
    · rw [readConfigFiles_concat, hrun, Option.bind_some, hmerge]

/-! ## Layers of settings -/

namespace ConfigFile

/-- A document that is empty, or only comments. -/
def IsEmpty (f : ConfigFile τ β) : Prop := f.document = .scalar none

/-- The file has something at the path, or replaces an ancestor by a value. -/
def Mentions (f : ConfigFile τ β) (path : List (Key τ)) : Prop :=
  ¬ f.IsEmpty ∧ touches f.objects f.config path

/-- The file sets the path. -/
def Gives (f : ConfigFile τ β) (path : List (Key τ))
    (value : List (Step (Key τ)) → Option (Shape (Key τ) (Option β))) : Prop :=
  ¬ f.IsEmpty ∧ setting f.objects f.config path = some value

end ConfigFile

/-- The last of the files that mention the path gives it the value. -/
def LastGiven (files : List (ConfigFile τ β)) (path : List (Key τ))
    (value : List (Step (Key τ)) → Option (Shape (Key τ) (Option β))) : Prop :=
  ∃ pre f post, files = pre ++ f :: post ∧ f.Gives path value ∧ ∀ g ∈ post, ¬ g.Mentions path

/-- The files are layers: they make a configuration whose settings are those
last given, and a file without any setting leaves it as it was. -/
structure Layered (limit : Nat) (files : List (ConfigFile τ β)) : Prop where
  settings : ∃ config, readConfigFiles limit files = some config ∧
    ∀ path v, setting config.1 config.2 path = some v ↔ LastGiven files path v
  empties : ∀ pre f, pre ++ [f] <+: files → f.IsEmpty → ∃ config config',
    readConfigFiles limit pre = some config ∧ readConfigFiles limit (pre ++ [f]) = some config' ∧
    value config'.1 config'.2 = value config.1 config.2

theorem lastGiven_iff {files : List (ConfigFile τ β)} (h : ∀ f ∈ files, ¬ f.IsEmpty)
    (path : List (Key τ)) (v : List (Step (Key τ)) → Option (Shape (Key τ) (Option β))) :
    LastGiven files path v ↔
      LastWrite.Last (fun f => setting f.objects f.config) (fun f => touches f.objects f.config) files
        path v := by
  constructor
  · rintro ⟨pre, f, post, rfl, hf, hpost⟩
    refine ⟨pre, f, post, rfl, touches_of_setting hf.2, hf.2, fun g hg => ?_⟩
    exact Bool.eq_false_iff.mpr fun ht => hpost g hg ⟨h g (by simp [hg]), ht⟩
  · rintro ⟨pre, f, post, rfl, -, hf, hpost⟩
    refine ⟨pre, f, post, rfl, ⟨h f (by simp), hf⟩, fun g hg hm => ?_⟩
    exact absurd hm.2 (Bool.eq_false_iff.mp (hpost g hg))

/-- An empty file puts `None` in the place of its section. -/
theorem setting_of_isEmpty {f : ConfigFile τ β} (h : f.IsEmpty) :
    ∃ v, setting f.objects f.config [.str (splitextRoot f.name)] = some v ∧ v [] = some (.scalar none) := by
  refine ⟨value f.objects f.document, ?_, ?_⟩
  · rw [setting_cons (items_config f), find, if_pos rfl, Option.bind_some, h]
    rfl
  · rw [h]
    rfl

theorem isEmpty_of_setting {f : ConfigFile τ β} {key : Key τ}
    {v : List (Step (Key τ)) → Option (Shape (Key τ) (Option β))}
    (h : setting f.objects f.config [key] = some v) (hv : v [] = some (.scalar none)) : f.IsEmpty := by
  rw [setting_cons (items_config f), find] at h
  split at h
  · rw [Option.bind_some] at h
    rw [← value_of_setting h] at hv
    unfold ConfigFile.IsEmpty
    cases hd : f.document with
    | scalar a =>
      rw [hd] at hv
      cases hv
      rfl
    | ref a =>
      rw [hd] at hv
      obtain ⟨c, -, hc⟩ := Option.map_eq_some_iff.mp hv
      cases c <;> cases hc
  · cases h

/-- **Configuration layers**: as long as no merge changes a dictionary held
elsewhere, the settings of the configuration are those that the files give last,
and a file without settings changes nothing, exactly where no file is empty. -/
theorem layered_iff (limit : Nat) (files : List (ConfigFile τ β)) (hdeep : AllNestedBelow limit files)
    (hapart : AlwaysApart limit files) : Layered limit files ↔ ∀ f ∈ files, ¬ f.IsEmpty := by
  constructor
  · intro h
    by_contra hempty
    classical
    obtain ⟨f, hfirst⟩ : ∃ f, files.find? (fun f => decide f.IsEmpty) = some f :=
      Option.isSome_iff_exists.mp (List.find?_isSome.mpr (by simpa using hempty))
    obtain ⟨hf, pre, post, hfiles, hnone⟩ := List.find?_eq_some_iff_append.mp hfirst
    replace hf := of_decide_eq_true hf
    have hpre : pre ++ [f] <+: files := ⟨post, by rw [hfiles, List.append_assoc, List.singleton_append]⟩
    obtain ⟨config, config', hrun, hrun', hsame⟩ := h.empties pre f hpre hf
    have hpre' : pre <+: files := (List.prefix_append pre [f]).trans hpre
    obtain ⟨_, h₁, -, hholds⟩ := holds_readConfigFiles (hdeep.of_prefix hpre') (hapart.of_prefix hpre')
    obtain ⟨_, h₂, -, hholds'⟩ := holds_readConfigFiles (hdeep.of_prefix hpre) (hapart.of_prefix hpre)
    cases hrun.symm.trans h₁
    cases hrun'.symm.trans h₂
    -- the section is `None` after the empty file
    obtain ⟨v, hv, hvnone⟩ := setting_of_isEmpty hf
    have hsection := (hholds' _ v).mpr ⟨pre, f, [], rfl, touches_of_setting hv, hv, by simp⟩
    have hvalue := value_of_setting hsection
    -- and was `None` before, which only an empty file gives
    rw [hsame, hvnone] at hvalue
    obtain ⟨w, hw, hwnone⟩ := setting_of_scalar hvalue
    obtain ⟨_, g, _, rfl, -, hg, -⟩ := (hholds _ w).mp hw
    simpa [isEmpty_of_setting hg hwnone] using hnone g (by simp)
  · intro h
    obtain ⟨config, hrun, -, hholds⟩ := holds_readConfigFiles hdeep hapart
    refine ⟨⟨config, hrun, fun path v => ?_⟩, fun pre f hpre hf => ?_⟩
    · rw [hholds path v, lastGiven_iff h]
    · exact absurd hf (h f (hpre.subset (by simp)))

/-- `services.yml` with one setting. -/
def oneSetting (key : String) (value : Nat) : ConfigFile Nat Nat where
  name := ascii "services.yml"
  heap := [.dict [(.str (ascii key), .scalar (some value))]]
  document := .ref 0
  valid c hc := by
    rw [List.mem_singleton.mp hc]
    exact ⟨by simp [Container.objects, Obj.On], by simp [Container.keys]⟩
  on := Nat.zero_lt_one

theorem unshared_oneSetting (key : String) (value : Nat) :
    Unshared (oneSetting key value).heap (oneSetting key value).document := by
  have hnone : ∀ k c a, find k [((.str (ascii key) : Key Nat), .scalar (some value))] = some c →
      ¬ Reaches (oneSetting key value).heap c a := by
    intro k c a hc
    rw [← (find_singleton.mp hc).2]
    exact not_reaches_scalar _ _ a
  exact unshared_dict rfl (fun k c hc p q a hp _ => absurd ⟨p, hp⟩ (hnone k c a hc))
    (fun k c hc a ha => absurd ha (hnone k c a hc)) fun k _ c _ _ hc _ a ha => absurd ha (hnone k c a hc)

theorem nestedBelow_oneSetting (key : String) (value : Nat) :
    NestedBelow (oneSetting key value).objects (oneSetting key value).config 2 := by
  intro path y hy hmap
  cases path with
  | nil => exact Nat.zero_lt_two
  | cons s path =>
    cases path with
    | nil => exact Nat.one_lt_two
    | cons k path =>
      rw [List.map_cons, walk_key (items_config _)] at hy
      obtain ⟨d, hd, hy⟩ := Option.bind_eq_some_iff.mp hy
      have hitems : items (oneSetting key value).objects (oneSetting key value).document =
          some [(.str (ascii key), .scalar (some value))] := rfl
      rw [← (find_singleton.mp hd).2, List.map_cons, walk_key hitems] at hy
      obtain ⟨c, hc, hy⟩ := Option.bind_eq_some_iff.mp hy
      rw [← (find_singleton.mp hc).2] at hy
      cases path with
      | nil =>
        cases hy
        cases hmap
      | cons k path => cases hy

/-- Two files of one section without aliases. -/
theorem layered_iff_twoSettings :
    Layered 2 [oneSetting "port" 80, oneSetting "host" 1] ↔
      ∀ f ∈ [oneSetting "port" 80, oneSetting "host" 1], ¬ f.IsEmpty := by
  have hdeep : AllNestedBelow 2 [oneSetting "port" 80, oneSetting "host" 1] := by
    intro f hf
    rcases List.mem_pair.mp hf with rfl | rfl
    · exact nestedBelow_oneSetting _ _
    · exact nestedBelow_oneSetting _ _
  refine layered_iff 2 _ hdeep (alwaysApart_of_unshared hdeep fun f hf => ?_).1
  rcases List.mem_pair.mp hf with rfl | rfl
  · exact unshared_oneSetting _ _
  · exact unshared_oneSetting _ _

/-! ## A section that is lost, and a setting that is shared -/

/-- `services.yml` in another directory, with nothing in it. -/
def nothing : ConfigFile Nat Nat where
  name := ascii "services.yml"
  heap := []
  document := .scalar none
  valid := by decide
  on := trivial

example : splitextRoot (ascii ".services") = ascii ".services" := by decide

/-- An empty file that is read later takes the whole section away. -/
theorem section_lost : ¬ ∀ files : List (ConfigFile Nat Nat), Layered 1000 files := by
  intro h
  obtain ⟨config, hrun, hsettings⟩ := (h [oneSetting "port" 80, nothing]).settings
  have hlost : (readConfigFiles 1000 [oneSetting "port" 80, nothing]).map (fun config =>
      (setting config.1 config.2 [.str (ascii "services"), .str (ascii "port")]).isSome) = some false := by
    decide
  rw [hrun, Option.map_some, Option.some.injEq] at hlost
  obtain ⟨v, hv⟩ : ∃ v, setting (oneSetting "port" 80).objects (oneSetting "port" 80).config
      [.str (ascii "services"), .str (ascii "port")] = some v := ⟨_, rfl⟩
  rw [(hsettings _ v).mpr ⟨[], oneSetting "port" 80, [nothing], rfl, ⟨?_, hv⟩, ?_⟩] at hlost
  · cases hlost
  · simp [ConfigFile.IsEmpty, oneSetting]
  · rintro g hg ⟨hne, -⟩
    rw [List.mem_singleton.mp hg] at hne
    exact hne rfl

/-- `services.yml` with a mapping `{port: port}` that `items` may hold as `ref 1`. -/
def services (items : List (Key Nat × Obj (Option Nat))) (port : Nat)
    (valid : Valid [.dict items, .dict [(.str (ascii "port"), .scalar (some port))]]) :
    ConfigFile Nat Nat where
  name := ascii "services.yml"
  heap := [.dict items, .dict [(.str (ascii "port"), .scalar (some port))]]
  document := .ref 0
  valid
  on := Nat.zero_lt_two

/-- `a: 1`, `b: 1`; then `a: &x {port: 80}`, `b: *x`; then `a: {port: 81}`. The
last file does not mention `b`, whose port becomes 81 too. -/
example : (readConfigFiles 1000
    [services [(.str (ascii "a"), .scalar (some 1)), (.str (ascii "b"), .scalar (some 1))] 0 (by decide),
      services [(.str (ascii "a"), .ref 1), (.str (ascii "b"), .ref 1)] 80 (by decide),
      services [(.str (ascii "a"), .ref 1)] 81 (by decide)]).map (fun config =>
        value config.1 config.2 ([ascii "services", ascii "b", ascii "port"].map fun k => .key (.str k))) =
    some (some (.scalar (some 81))) := by
  rfl

end Catkit2.L4
