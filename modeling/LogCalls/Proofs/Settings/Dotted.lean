/-
LogCalls/Proofs/Settings/Dotted.lean

Single settings.  A setting is written with a dotted key (`DottedKey`), and its
mapping brings one value to the end of one way through mappings (`Mapping.assign`).
Assigning is put-get at that way (`at?_assign_self`), leaves every way apart from it
alone (`at?_assign_of_apart`), and commutes with assigning at such a way but for the
order of keys (`alike_assign_assign`), whatever stands on the ways before: a value
that is no mapping gives way to one.

Main result: what a setting does to the settings it is merged over
(`merge_of_setting`).
-/
import LogCalls.Proofs.Settings.Merging
import LogCalls.Proofs.Text.Marks
import LogCalls.Proofs.Yaml.Raising
import LogCalls.Settings.Load

namespace LogCalls

/-- A text is the same key as itself alone. -/
theorem Key.agrees_text_iff {s : String} {k : Key} :
    (Key.text s).agrees k = true ↔ k = .text s := by
  rw [Key.agrees, beq_iff_eq]
  cases k with
  | real x =>
      unfold canonical
      dsimp only
      split <;> constructor <;> intro h <;> cases h
  | text t => exact ⟨Eq.symm, Eq.symm⟩
  | _ => constructor <;> intro h <;> cases h

/-- Values that are the same but for the order of keys. -/
inductive Value.Alike : Value → Value → Prop
  | refl (v : Value) : Alike v v
  | mapping {m n : Mapping} :
      (∀ k, (m.get? k).isSome = (n.get? k).isSome) →
      (∀ k v w, m.get? k = some v → n.get? k = some w → Alike v w) →
      Alike (.mapping m) (.mapping n)

/-! ### Assigning a value -/

namespace Mapping

open Settings Value

/-- The mapping with a value below a way of keys, of which the first is `k`. -/
def assign (m : Mapping) (k : String) (path : List String) (v : Value) : Mapping :=
  adopt m (.text k) (nested path v)

variable {m n : Mapping} {k l : String} {path : List String} {v : Value}

theorem get?_assign_self (m : Mapping) (k : String) (path : List String) (v : Value) :
    get? (assign m k path v) (.text k) = meet (get? m (.text k)) (nested path v) := by
  rw [assign, get?_adopt, if_pos (agrees_refl _)]

theorem get?_assign_of_ne {l : Key} (h : l ≠ .text k) (path : List String) (v : Value) :
    get? (assign m k path v) l = get? m l := by
  rw [assign, get?_adopt, if_neg fun hagrees => h (Key.agrees_text_iff.mp hagrees)]

theorem get?_assign_nil (hv : v.IsPlain) (m : Mapping) (k : String) :
    get? (assign m k [] v) (.text k) = some v := by
  rw [get?_assign_self, nested, meet_of_isPlain hv]

/-- A way that goes on leads into the mapping that the key has, or into a new one. -/
theorem get?_assign_cons (m : Mapping) (k l : String) (path : List String) (v : Value) :
    get? (assign m k (l :: path) v) (.text k) =
      some (.mapping (assign (inner m (.text k)) l path v)) := by
  rw [get?_assign_self, nested, meet, adoptAll_cons, adoptAll_nil, ← inner, ← assign]

/-- At the end of its way the assigned value stands. -/
theorem at?_assign_self (hv : v.IsPlain) (m : Mapping) (k : String) (path : List String) :
    Value.at? (.mapping (assign m k path v)) ((k :: path).map .text) = some v := by
  induction path generalizing m k with
  | nil =>
      show (get? (assign m k [] v) (.text k)).bind _ = _
      rw [get?_assign_nil hv]
      rfl
  | cons l path ih =>
      show (get? (assign m k (l :: path) v) (.text k)).bind _ = _
      rw [get?_assign_cons, Option.bind_some]
      exact ih _ l

/-- Below a key, a way that goes on finds what the mapping of the key has. -/
theorem at?_inner {q : List Key} (hq : q ≠ []) (m : Mapping) (k : Key) :
    Value.at? (.mapping (inner m k)) q = (get? m k).bind (Value.at? · q) := by
  obtain ⟨l, q, rfl⟩ := List.exists_cons_of_ne_nil hq
  rw [inner]
  rcases get? m k with _ | w
  · rfl
  · cases w <;> rfl

/-- A way apart from that of the assigned value leads where it led before. -/
theorem at?_assign_of_apart {q : List Key} (hq : ¬ q <+: (k :: path).map .text)
    (hpath : ¬ (k :: path).map .text <+: q) :
    Value.at? (.mapping (assign m k path v)) q = Value.at? (.mapping m) q := by
  induction path generalizing m k q with
  | nil =>
      rcases q with _ | ⟨l, q⟩
      · exact absurd List.nil_prefix hq
      have hl : l ≠ .text k := by
        rintro rfl
        exact hpath (by simp)
      show (get? (assign m k [] v) l).bind _ = (get? m l).bind _
      rw [get?_assign_of_ne hl]
  | cons l' path ih =>
      rcases q with _ | ⟨l, q⟩
      · exact absurd List.nil_prefix hq
      show (get? (assign m k (l' :: path) v) l).bind _ = (get? m l).bind _
      by_cases hl : l = .text k
      · subst hl
        rw [List.map_cons, List.cons_prefix_cons, not_and] at hq hpath
        have hq' := hq rfl
        have hne : q ≠ [] := by
          rintro rfl
          exact hq' List.nil_prefix
        rw [get?_assign_cons, Option.bind_some, ← at?_inner hne]
        exact ih hq' (hpath rfl)
      · rw [get?_assign_of_ne hl]

/-- What a key has after an assignment to it depends on what it had alone. -/
theorem get?_assign_congr (h : get? m (.text k) = get? n (.text k)) (path : List String)
    (v : Value) : get? (assign m k path v) (.text k) = get? (assign n k path v) (.text k) := by
  rw [get?_assign_self, get?_assign_self, h]

theorem alike_of_get?_eq (h : ∀ k, get? m k = get? n k) : Alike (.mapping m) (.mapping n) := by
  refine .mapping (fun k => by rw [h k]) fun k v w hv hw => ?_
  obtain rfl : v = w := Option.some.inj (hv.symm.trans ((h k).trans hw))
  exact .refl v

/-- Mappings that have alike mappings for one key and the same for every other. -/
theorem alike_of_key {m' n' : Mapping} (k : String) (hm : get? m (.text k) = some (.mapping m'))
    (hn : get? n (.text k) = some (.mapping n')) (hkey : Alike (.mapping m') (.mapping n'))
    (hother : ∀ l, l ≠ .text k → get? m l = get? n l) : Alike (.mapping m) (.mapping n) := by
  refine .mapping (fun l => ?_) fun l v w hv hw => ?_
  · by_cases hl : l = .text k
    · rw [hl, hm, hn]
      rfl
    · rw [hother l hl]
  · by_cases hl : l = .text k
    · rw [hl, hm] at hv
      rw [hl, hn] at hw
      rw [← Option.some.inj hv, ← Option.some.inj hw]
      exact hkey
    · rw [hother l hl] at hv
      rw [Option.some.inj (hv.symm.trans hw)]
      exact .refl w

/-- Assignments that start at different keys can be done in either order. -/
theorem get?_assign_assign (h : k ≠ l) (path path' : List String) (v w : Value) (x : Key) :
    get? (assign (assign m k path v) l path' w) x =
      get? (assign (assign m l path' w) k path v) x := by
  have hkl : Key.text k ≠ .text l := fun heq => h (Key.text.inj heq)
  by_cases hk : x = .text k
  · subst hk
    rw [get?_assign_of_ne hkl]
    exact get?_assign_congr (get?_assign_of_ne hkl _ _).symm path v
  by_cases hl : x = .text l
  · subst hl
    rw [get?_assign_of_ne hkl.symm]
    exact get?_assign_congr (get?_assign_of_ne hkl.symm _ _) path' w
  · rw [get?_assign_of_ne hl, get?_assign_of_ne hk, get?_assign_of_ne hk, get?_assign_of_ne hl]

/-- Assigning at two ways apart from each other can be done in either order, but for
the order of keys. -/
theorem alike_assign_assign {path' : List String} {w : Value}
    (h : ¬ k :: path <+: l :: path') (h' : ¬ l :: path' <+: k :: path) :
    Alike (.mapping (assign (assign m k path v) l path' w))
      (.mapping (assign (assign m l path' w) k path v)) := by
  by_cases hkl : k = l
  · subst hkl
    rw [List.cons_prefix_cons, not_and] at h h'
    -- the ways part further on, below the key that they share
    induction path generalizing m k path' with
    | nil => exact absurd List.nil_prefix (h rfl)
    | cons a path ih =>
        rcases path' with _ | ⟨b, path'⟩
        · exact absurd List.nil_prefix (h' rfl)
        have hinner : ∀ (m : Mapping) (a : String) (path : List String) (v : Value),
            inner (assign m k (a :: path) v) (.text k) = assign (inner m (.text k)) a path v := by
          intro m a path v
          rw [inner, get?_assign_cons]
          rfl
        refine alike_of_key k (get?_assign_cons _ _ _ _ _) (get?_assign_cons _ _ _ _ _) ?_ ?_
        · rw [hinner, hinner]
          by_cases hab : a = b
          · subst hab
            have hpath := h rfl
            have hpath' := h' rfl
            rw [List.cons_prefix_cons, not_and] at hpath hpath'
            exact ih (fun _ => hpath rfl) fun _ => hpath' rfl
          · exact alike_of_get?_eq (get?_assign_assign hab path path' v w)
        · intro x hx
          rw [get?_assign_of_ne hx, get?_assign_of_ne hx, get?_assign_of_ne hx,
            get?_assign_of_ne hx]
  · exact alike_of_get?_eq (get?_assign_assign hkl path path' v w)

/-- Merging the mapping of one value over a settled mapping assigns that value. -/
theorem merge_nested (hm : Settled (.mapping m)) (k : String) (path : List String) (v : Value)
    (ds : List (Option Mapping)) :
    merge (some m :: some [(.text k, nested path v)] :: ds) =
      ds.foldl (fun m d => adoptAll m (d.getD [])) (assign m k path v) := by
  rw [merge, List.foldl_cons, List.foldl_cons, Option.getD_some, Option.getD_some,
    hm.adoptAll_nil, adoptAll_cons, adoptAll_nil, assign]

end Mapping

/-- A spec of a settings file: the shipped one, or one without the mark of a setting. -/
def Spec.NamesFile : Spec → Prop
  | .shipped => True
  | .written s => '=' ∉ s.toList

namespace Settings

open Value

/-! ### Dotted keys -/

/-- A key in its parts.  None of them is empty, and none holds a mark that stands
between parts or behind the key. -/
structure DottedKey where
  first : String
  rest : List String
  proper : ∀ part ∈ first :: rest, part ≠ "" ∧ '.' ∉ part.toList ∧ '=' ∉ part.toList

namespace DottedKey

/-- The key as it is written. -/
def text (p : DottedKey) : Text := ['.'].intercalate ((p.first :: p.rest).map String.toList)

/-- The way through mappings that the key stands for. -/
def path (p : DottedKey) : List Key := (p.first :: p.rest).map .text

/-- The spec that gives the key a value. -/
def spec (p : DottedKey) (value : Text) : Spec := .written (String.ofList (p.text ++ '=' :: value))

theorem not_mem_text (p : DottedKey) : '=' ∉ p.text := by
  refine Text.not_mem_intercalate (by decide) fun piece hpiece => ?_
  obtain ⟨part, hpart, rfl⟩ := List.mem_map.mp hpiece
  exact (p.proper part hpart).2.2

theorem keyParts?_text (p : DottedKey) : keyParts? p.text = some (p.first :: p.rest) := by
  have hpieces : Text.splitAll '.' p.text = (p.first :: p.rest).map String.toList := by
    refine Text.splitAll_intercalate (by simp) fun piece hpiece => ?_
    obtain ⟨part, hpart, rfl⟩ := List.mem_map.mp hpiece
    exact (p.proper part hpart).2.1
  have hempty : [] ∉ (p.first :: p.rest).map String.toList := by
    intro hmem
    obtain ⟨part, hpart, hnil⟩ := List.mem_map.mp hmem
    exact (p.proper part hpart).1 (String.toList_inj.mp hnil)
  rw [keyParts?, hpieces, if_neg hempty, List.map_map]
  simp

/-- What has parts is the text of a key. -/
theorem exists_text_eq {key : Text} {parts : List String} (h : keyParts? key = some parts)
    (hkey : '=' ∉ key) : ∃ p : DottedKey, p.text = key := by
  unfold keyParts? at h
  dsimp only at h
  split at h
  · cases h
  next hempty =>
    have hproper : ∀ piece ∈ Text.splitAll '.' key, piece ≠ [] ∧ '.' ∉ piece ∧ '=' ∉ piece :=
      fun piece hpiece =>
        ⟨ne_of_mem_of_not_mem hpiece hempty, Text.not_mem_of_mem_splitAll hpiece,
          fun hmem => hkey (Text.mem_of_mem_splitAll hpiece hmem)⟩
    obtain ⟨first, rest, hsplit⟩ := List.exists_cons_of_ne_nil (Text.splitAll_ne_nil '.' key)
    rw [hsplit] at hproper
    refine ⟨⟨String.ofList first, rest.map String.ofList, ?_⟩, ?_⟩
    · rw [← List.map_cons, List.forall_mem_map]
      intro piece hpiece
      rw [String.toList_ofList]
      refine ⟨fun hnil => (hproper piece hpiece).1 ?_, (hproper piece hpiece).2⟩
      rw [← String.toList_ofList (l := piece), hnil]
      rfl
    · have htexts : ((first :: rest).map String.ofList).map String.toList = first :: rest := by
        simp
      calc ['.'].intercalate (((first :: rest).map String.ofList).map String.toList)
          = ['.'].intercalate (first :: rest) := by rw [htexts]
        _ = key := by rw [← hsplit, Text.intercalate_splitAll]

end DottedKey

variable {around : Surroundings}

/-- The settings of a spec with a dotted key. -/
theorem ofSpec_dotted (around : Surroundings) (p : DottedKey) (value : Text) :
    ofSpec around (p.spec value) =
      (writtenValue value).map fun v => [(.text p.first, nested p.rest v)] := by
  have hsplit : Text.splitAtFirst? '=' (String.ofList (p.text ++ '=' :: value)).toList =
      some (p.text, value) := by
    rw [String.toList_ofList]
    exact Text.splitAtFirst?_eq_some_iff.mpr ⟨rfl, p.not_mem_text⟩
  rw [DottedKey.spec, ofSpec, hsplit]
  dsimp only
  rw [ofPair, p.keyParts?_text]
  rcases writtenValue value with f | v <;> rfl

theorem ofSpec_spec (p : DottedKey) {value : Text} {v : Value} (hv : writtenValue value = .ok v) :
    ofSpec around (p.spec value) = .ok [(.text p.first, nested p.rest v)] := by
  rw [ofSpec_dotted, hv, map_ok]

theorem ofSpec_of_namesFile {spec : Spec} (h : spec.NamesFile) :
    ofSpec around spec = locate around spec >>= ofFile around := by
  cases spec with
  | shipped => rfl
  | written s => rw [ofSpec, Text.splitAtFirst?_eq_none_iff.mpr h]

/-- Every spec names a settings file, or gives a dotted key a value, or has a key with an
empty part. -/
theorem ofSpec_cases (around : Surroundings) (spec : Spec) :
    spec.NamesFile ∨ (∃ p value, spec = DottedKey.spec p value) ∨
      ∃ s, ofSpec around spec = .error (.emptyKeyPart s) := by
  cases spec with
  | shipped => exact .inl trivial
  | written s =>
      rcases hsplit : Text.splitAtFirst? '=' s.toList with _ | ⟨key, value⟩
      · exact .inl (Text.splitAtFirst?_eq_none_iff.mp hsplit)
      obtain ⟨htext, hkey⟩ := Text.splitAtFirst?_eq_some_iff.mp hsplit
      rcases hparts : keyParts? key with _ | parts
      · refine .inr (.inr ⟨s, ?_⟩)
        rw [ofSpec, hsplit]
        dsimp only
        rw [ofPair, hparts]
      · obtain ⟨p, hp⟩ := DottedKey.exists_text_eq hparts hkey
        refine .inr (.inl ⟨p, value, ?_⟩)
        rw [DottedKey.spec, hp, ← htext, String.ofList_toList]

/-- A written value was given. -/
theorem isUnset_of_writtenValue {t : Text} {v : Value} (h : writtenValue t = .ok v) :
    v.isUnset = false := by
  unfold writtenValue at h
  split at h
  · obtain rfl := Except.ok.inj h
    rfl
  · exact Yaml.isUnset_of_read h

/-- **A setting sets its own key and nothing else.**  A spec with a dotted key and a
value that is no mapping can be read.  Merged over any settings in which keys differ
and every option was given, the value stands at the way of the key, and each way that
neither leads to it nor goes on from it leads where it led before.  Of two such specs,
neither of whose keys leads to the other, each may come first: the settings are the
same but for the order of keys. -/
theorem merge_of_setting (around : Surroundings) {base : Mapping}
    (hbase : Settled (.mapping base)) (p : DottedKey) {value : Text} {v : Value}
    (hv : writtenValue value = .ok v) (hplain : v.entries? = none) :
    ∃ d, ofSpec around (p.spec value) = .ok d ∧
      Value.at? (.mapping (Mapping.merge [some base, some d])) p.path = some v ∧
      (∀ q, ¬ q <+: p.path → ¬ p.path <+: q →
        Value.at? (.mapping (Mapping.merge [some base, some d])) q =
          Value.at? (.mapping base) q) ∧
      ∀ (p' : DottedKey) (value' : Text) (v' : Value), writtenValue value' = .ok v' →
        ¬ p.path <+: p'.path → ¬ p'.path <+: p.path →
        ∃ d', ofSpec around (p'.spec value') = .ok d' ∧
          Alike (.mapping (Mapping.merge [some base, some d, some d']))
            (.mapping (Mapping.merge [some base, some d', some d])) := by
  have hgiven : v.IsPlain := ⟨hplain, isUnset_of_writtenValue hv⟩
  refine ⟨_, ofSpec_spec p hv, ?_, fun q hq hp => ?_, fun p' value' v' hv' hp hp' => ?_⟩
  · rw [Mapping.merge_nested hbase]
    exact Mapping.at?_assign_self hgiven base p.first p.rest
  · rw [Mapping.merge_nested hbase]
    exact Mapping.at?_assign_of_apart hq hp
  · refine ⟨_, ofSpec_spec p' hv', ?_⟩
    have happart : ∀ {a b : List String}, ¬ a.map Key.text <+: b.map Key.text → ¬ a <+: b :=
      fun h hab => h (hab.map _)
    rw [Mapping.merge_nested hbase, Mapping.merge_nested hbase]
    simp only [List.foldl_cons, List.foldl_nil, Option.getD_some, Mapping.adoptAll_cons,
      Mapping.adoptAll_nil]
    exact Mapping.alike_assign_assign (happart hp) (happart hp')

/-- Settings in which no mapping stands where a preferred severity would. -/
def cutSettings : Mapping :=
  [(.text "rewrite", .mapping [(.text "out", .whole 5)]),
    (.text "run", .mapping [(.text "workers", .whole 1)])]

/-- The key of the preferred severity. -/
def preferredKey : DottedKey := ⟨"rewrite", ["out", "preferred"], by decide⟩

/-- The key of the ending of copies. -/
def suffixKey : DottedKey := ⟨"run", ["suffix"], by decide⟩

/-- A written value of the sort of texts is the text that is read from it. -/
theorem writtenValue_eq_text {t : Text} {s : String}
    (h : (writtenValue t).map (fun v => (v.sort, readText v)) = .ok ("str", .ok s)) :
    writtenValue t = .ok (.text s) := by
  obtain ⟨v, hv, hpair⟩ := map_eq_ok_iff.mp h
  obtain ⟨hsort, hread⟩ := Prod.mk.inj hpair
  cases v with
  | text u => rw [hv, Except.ok.inj hread]
  | moment m =>
      rw [sort] at hsort
      split at hsort <;> simp at hsort
  | _ => simp [sort] at hsort

theorem merge_of_setting_preferred :
    ∃ d d', ofSpec ⟨.empty, none, "", ""⟩ (preferredKey.spec "info".toList) = .ok d ∧
      ofSpec ⟨.empty, none, "", ""⟩ (suffixKey.spec "bak".toList) = .ok d' ∧
      Value.at? (.mapping (Mapping.merge [some cutSettings, some d])) preferredKey.path =
        some (.text "info") ∧
      Value.at? (.mapping (Mapping.merge [some cutSettings, some d]))
        [.text "run", .text "workers"] = some (.whole 1) ∧
      Alike (.mapping (Mapping.merge [some cutSettings, some d, some d']))
        (.mapping (Mapping.merge [some cutSettings, some d', some d])) := by
  have hinfo : writtenValue "info".toList = .ok (.text "info") :=
    writtenValue_eq_text (by decide +kernel)
  have hbak : writtenValue "bak".toList = .ok (.text "bak") :=
    writtenValue_eq_text (by decide +kernel)
  have hsettled : Settled (.mapping cutSettings) := Mapping.settled_merge [some cutSettings]
  obtain ⟨d, hd, hvalue, hframe, hcomm⟩ :=
    merge_of_setting ⟨.empty, none, "", ""⟩ hsettled preferredKey hinfo rfl
  obtain ⟨d', hd', halike⟩ :=
    hcomm suffixKey _ _ hbak (by decide) (by decide)
  refine ⟨d, d', hd, hd', hvalue, ?_, halike⟩
  rw [hframe [.text "run", .text "workers"] (by decide) (by decide)]
  rfl

end Settings

end LogCalls
