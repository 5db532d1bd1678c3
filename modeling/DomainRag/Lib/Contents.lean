import DomainRag.Lib.DeepMerge

/-! # What stands at the paths of a tree

Two trees of dictionaries are the same if the same stands at every path of both, in whatever order
the keys came. Laying one tree over another is a function of what stands at their paths.
-/

namespace DomainRag

inductive View where
  | dict
  | other (v : Value)

def Value.view : Value → View
  | .dict _ => .dict
  | v => .other v

abbrev Contents := List String → Option View

def Value.contents (base : Option Value) : Contents := fun path => (look base path).map view

namespace Contents

def under (f : Contents) (k : String) : Contents := fun ks => f (k :: ks)

/-- What stands at a path after the second tree is laid over the first. -/
def merge (f g : Contents) : Contents
  | [] => (g []).or (f [])
  | k :: ks => match f [], g [] with
    | _, none => f (k :: ks)
    | some .dict, some .dict => merge (f.under k) (g.under k) ks
    | _, _ => g (k :: ks)

/-- What the first tree becomes if the dictionaries it shares with another are merged in place. -/
def absorb (f g : Contents) : Contents
  | [] => f []
  | k :: ks => match f [k], g [k] with
    | some .dict, some .dict => merge (f.under k) (g.under k) ks
    | _, _ => f (k :: ks)

/-- Whatever stands in the first tree stands at the same path of the second. -/
def Within (f g : Contents) : Prop := ∀ path x, f path = some x → g path = some x

/-- The same stands at each path at which something stands in both trees. -/
def Compatible (f g : Contents) : Prop := ∀ path x y, f path = some x → g path = some y → x = y

variable {f g : Contents}

theorem Compatible.symm (h : Compatible f g) : Compatible g f :=
  fun path x y hx hy => (h path y x hy hx).symm

theorem merge_absent (hg : g [] = none) : merge f g = f := by
  funext path
  cases path with
  | nil => rw [merge, hg, Option.none_or]
  | cons k ks => simp only [merge, hg]

theorem merge_dict (hf : f [] = some .dict) (hg : g [] = some .dict) (k : String) :
    (merge f g).under k = merge (f.under k) (g.under k) := by
  funext ks
  simp only [under, merge, hf, hg]

/-- A tree that is present replaces what is no dictionary, or replaces all if it is none itself. -/
theorem merge_other (hg : g [] ≠ none) (h : f [] = some .dict → g [] ≠ some .dict) :
    merge f g = g := by
  funext path
  cases path with
  | nil =>
    obtain ⟨y, hy⟩ := Option.ne_none_iff_exists'.mp hg
    rw [merge, hy, Option.some_or]
  | cons k ks =>
    rw [merge]
    split
    · rename_i hnone
      exact absurd hnone hg
    · rename_i hf' hg'
      exact absurd hg' (h hf')
    · rfl

/-- Trees with the same root are told apart under a key. -/
theorem eq_iff_under (hroot : f [] = g []) : f = g ↔ ∀ k, f.under k = g.under k := by
  refine ⟨fun h k => congrArg (fun f => under f k) h, fun h => ?_⟩
  funext path
  cases path with
  | nil => exact hroot
  | cons k ks => exact congrFun (h k) ks

section Assoc

variable {k : Contents}

/-- No path holds a dictionary in one tree and another value in the other. -/
def SameKind (f g : Contents) : Prop :=
  ∀ path x y, f path = some x → g path = some y → (x = .dict ↔ y = .dict)

theorem SameKind.under (h : SameKind f g) (key : String) : SameKind (f.under key) (g.under key) :=
  fun ks => h (key :: ks)

theorem SameKind.root (h : SameKind f g) (hf : f [] ≠ none) (hg : g [] ≠ none) :
    f [] = some .dict ↔ g [] = some .dict := by
  obtain ⟨x, hx⟩ := Option.ne_none_iff_exists'.mp hf
  obtain ⟨y, hy⟩ := Option.ne_none_iff_exists'.mp hg
  rw [hx, hy, Option.some.injEq, Option.some.injEq]
  exact h [] x y hx hy

theorem root_merge_ne_none (hg : g [] ≠ none) : (f.merge g) [] ≠ none := by
  obtain ⟨y, hy⟩ := Option.ne_none_iff_exists'.mp hg
  rw [merge, hy, Option.some_or]
  exact Option.some_ne_none y

/-- Where no dictionary meets another value, it does not matter which merge is made first. -/
theorem merge_assoc (hfg : SameKind f g) (hgk : SameKind g k) (hfk : SameKind f k) :
    (f.merge g).merge k = f.merge (g.merge k) := by
  funext path
  induction path generalizing f g k with
  | nil => simp only [merge, Option.or_assoc]
  | cons key ks ih =>
    by_cases hk : k [] = none
    · rw [merge_absent hk, merge_absent hk]
    by_cases hg : g [] = none
    · have hgk' : g.merge k = k := merge_other hk fun hdict => absurd (hdict.symm.trans hg) nofun
      rw [merge_absent hg, hgk']
    by_cases hf : f [] = none
    · have hfg' : f.merge g = g := merge_other hg fun hdict => absurd (hdict.symm.trans hf) nofun
      have hfgk : f.merge (g.merge k) = g.merge k :=
        merge_other (root_merge_ne_none hk) fun hdict => absurd (hdict.symm.trans hf) nofun
      rw [hfg', hfgk]
    by_cases hdict : k [] = some .dict
    · have hgdict : g [] = some .dict := (hgk.root hg hk).mpr hdict
      have hfdict : f [] = some .dict := (hfk.root hf hk).mpr hdict
      have hroot : (f.merge g) [] = some .dict := by rw [merge, hgdict, Option.some_or]
      have hroot' : (g.merge k) [] = some .dict := by rw [merge, hdict, Option.some_or]
      calc ((f.merge g).merge k) (key :: ks)
          = (((f.under key).merge (g.under key)).merge (k.under key)) ks := by
            rw [← merge_dict hfdict hgdict]
            exact congrFun (merge_dict hroot hdict key) ks
        _ = ((f.under key).merge ((g.under key).merge (k.under key))) ks :=
            ih (hfg.under key) (hgk.under key) (hfk.under key)
        _ = (f.merge (g.merge k)) (key :: ks) := by
            rw [← merge_dict hgdict hdict]
            exact (congrFun (merge_dict hfdict hroot' key) ks).symm
    · have hleft : (f.merge g).merge k = k := merge_other hk fun _ => hdict
      have hmiddle : g.merge k = k := merge_other hk fun _ => hdict
      have hright : f.merge k = k := merge_other hk fun _ => hdict
      rw [hleft, hmiddle, hright]

end Assoc

end Contents

namespace Value

/-- The tree that has a value at a path and nothing beside it. -/
def nest : List String → Value → Value
  | [], v => v
  | k :: ks, v => dict [(k, nest ks v)]

variable {base upper : Option Value}

/-- A path is cut off by a value on its way that is no dictionary. -/
theorem blocks_iff {v : Value} {path : List String} : blocks path v = true ↔
    ∃ front k back w, path = front ++ k :: back ∧ look (some v) front = some w ∧
      w.isDict = false := by
  induction path generalizing v with
  | nil =>
    refine ⟨nofun, ?_⟩
    rintro ⟨front, k, back, w, hpath, -⟩
    exact absurd hpath.symm (List.append_ne_nil_of_right_ne_nil front (List.cons_ne_nil k back))
  | cons key ks ih =>
    cases v with
    | dict kvs =>
      rw [blocks, Option.any_eq_true]
      constructor
      · rintro ⟨v, hv, hblocks⟩
        obtain ⟨front, k, back, w, rfl, hlook, hw⟩ := ih.mp hblocks
        refine ⟨key :: front, k, back, w, rfl, ?_, hw⟩
        rw [look, entriesOf, hv, hlook]
      · rintro ⟨front, k, back, w, hpath, hlook, hw⟩
        cases front with
        | nil =>
          cases hlook
          cases hw
        | cons key' front =>
          obtain ⟨rfl, rfl⟩ := List.cons.inj hpath
          rw [look, entriesOf] at hlook
          cases hv : kvs.lookup key with
          | none =>
            rw [hv, look_none] at hlook
            cases hlook
          | some v => exact ⟨v, rfl, ih.mpr ⟨front, k, back, w, rfl, hv ▸ hlook, hw⟩⟩
    | null | bool | int | float | str | list =>
      exact ⟨fun _ => ⟨[], key, ks, _, rfl, rfl, rfl⟩, fun _ => rfl⟩

theorem contents_none (path : List String) : contents none path = none := by
  rw [contents, look_none]
  rfl

theorem contents_root_eq_none_iff : contents base [] = none ↔ base = none := by
  rw [contents, look, Option.map_eq_none_iff]

theorem contents_root_eq_dict_iff : contents base [] = some .dict ↔ ∃ kvs, base = some (dict kvs) := by
  cases base with
  | none => exact ⟨nofun, nofun⟩
  | some v =>
    cases v with
    | dict kvs => exact ⟨fun _ => ⟨kvs, rfl⟩, fun _ => rfl⟩
    | null | bool | int | float | str | list => exact ⟨nofun, nofun⟩

theorem exists_of_isDict {v : Value} (h : v.isDict = true) : ∃ kvs, v = dict kvs := by
  cases v with
  | dict kvs => exact ⟨kvs, rfl⟩
  | null | bool | int | float | str | list => cases h

theorem merge_none (base : Option Value) : (contents base).merge (contents none) = contents base :=
  Contents.merge_absent (contents_none [])

theorem merge_some {v : Value} (h : contents base [] = some .dict → v.isDict = false) :
    (contents base).merge (contents (some v)) = contents (some v) := by
  refine Contents.merge_other (Option.some_ne_none _) fun hbase hdict => ?_
  obtain ⟨kvs, hkvs⟩ := contents_root_eq_dict_iff.mp hdict
  cases hkvs
  cases h hbase

/-- What an override makes of a value is its contents over those of the value. -/
theorem contents_overlay (h : ∀ w, upper = some w → Distinct w) :
    contents (overlay base upper) = Contents.merge (contents base) (contents upper) := by
  funext path
  induction path generalizing base upper with
  | nil =>
    cases upper with
    | none => rfl
    | some w =>
      cases w with
      | dict kvs =>
        obtain ⟨kws, -, heq⟩ | heq := deepMerge_dict base kvs
        · rw [overlay, heq]
          rfl
        · rw [overlay, heq]
          rfl
      | null | bool | int | float | str | list =>
        simp only [overlay, deepMerge, Contents.merge, contents, look, Option.map_some,
          Option.some_or]
  | cons k ks ih =>
    by_cases hboth : contents base [] = some .dict ∧ contents upper [] = some .dict
    · have hunder := Contents.merge_dict hboth.1 hboth.2 k
      obtain ⟨kws, rfl⟩ := contents_root_eq_dict_iff.mp hboth.2
      have hdistinct := h _ rfl
      calc contents (overlay base (some (dict kws))) (k :: ks)
          = contents (overlay ((entriesOf base).lookup k) (kws.lookup k)) ks := by
            rw [overlay, contents, look, lookup_deepMerge hdistinct.nodup]
            rfl
        _ = Contents.merge (contents ((entriesOf base).lookup k)) (contents (kws.lookup k)) ks :=
            ih fun w hw => hdistinct.lookup hw
        _ = Contents.merge (contents base) (contents (some (dict kws))) (k :: ks) :=
            (congrFun hunder ks).symm
    · cases hupper : upper with
      | none => rw [overlay, Contents.merge_absent rfl]
      | some w =>
        have hreplace : overlay base (some w) = some w := by
          cases w with
          | dict kws =>
            obtain ⟨kvs, rfl, -⟩ | heq := deepMerge_dict base kws
            · exact absurd ⟨rfl, congrFun (congrArg contents hupper) []⟩ hboth
            · rw [overlay, heq]
          | null | bool | int | float | str | list => simp only [overlay, deepMerge]
        rw [hreplace, Contents.merge_other]
        · exact fun hnone => absurd (contents_root_eq_none_iff.mp hnone) (Option.some_ne_none w)
        · exact fun hbase hdict => hboth ⟨hbase, hupper ▸ hdict⟩

theorem contents_other {k : String} (h : contents base [] ≠ some .dict) (ks : List String) :
    contents base (k :: ks) = none := by
  cases base with
  | none => exact contents_none _
  | some v =>
    cases v with
    | dict kvs => exact absurd rfl h
    | null | bool | int | float | str | list => exact contents_none ks

/-- What stands in the upper tree stands in the merged one. -/
theorem merge_of_contents (f : Contents) {path : List String} {x : View}
    (hx : contents upper path = some x) : f.merge (contents upper) path = some x := by
  induction path generalizing f upper with
  | nil => rw [Contents.merge, hx, Option.some_or]
  | cons k ks ih =>
    have hupper : contents upper [] = some .dict := by
      by_contra hne
      rw [contents_other hne] at hx
      cases hx
    by_cases hbase : f [] = some .dict
    · have hunder : contents ((entriesOf upper).lookup k) ks = some x := hx
      exact (congrFun (Contents.merge_dict hbase hupper k) ks).trans (ih (f.under k) hunder)
    · rw [Contents.merge_other (hupper ▸ Option.some_ne_none _) fun hdict => absurd hdict hbase, hx]

/-- What stands at a path after a merge: what the upper tree has there, nothing if it cuts the path
off, and else what stood there before. -/
theorem merge_apply (base upper : Option Value) (path : List String) :
    (contents base).merge (contents upper) path =
      (contents upper path).or (if upper.any (blocks path) then none else contents base path) := by
  induction path generalizing base upper with
  | nil =>
    have hopen : upper.any (blocks []) = false := by cases upper <;> rfl
    rw [Contents.merge, hopen, if_neg Bool.false_ne_true]
  | cons k ks ih =>
    cases upper with
    | none =>
      rw [merge_none, contents_none, Option.none_or]
      rfl
    | some w =>
      cases w with
      | dict kws =>
        by_cases hbase : contents base [] = some .dict
        · exact (congrFun (Contents.merge_dict hbase rfl k) ks).trans
            (ih ((entriesOf base).lookup k) (kws.lookup k))
        · rw [merge_some fun hdict => absurd hdict hbase, contents_other hbase, ite_self,
            Option.or_none]
      | null | bool | int | float | str | list =>
        rw [merge_some fun _ => rfl]
        exact (Option.or_none).symm

/-- Where a tree cuts a path off, a tree it is compatible with has nothing. -/
theorem contents_eq_none_of_blocks {v : Value} {path : List String}
    (h : (contents (some v)).Compatible (contents upper)) (hblocks : blocks path v = true) :
    contents upper path = none := by
  induction path generalizing v upper with
  | nil => cases hblocks
  | cons k ks ih =>
    by_cases hupper : contents upper [] = some .dict
    · cases v with
      | dict kvs =>
        obtain ⟨kws, rfl⟩ := contents_root_eq_dict_iff.mp hupper
        rw [blocks] at hblocks
        cases hv : kvs.lookup k with
        | none =>
          rw [hv] at hblocks
          cases hblocks
        | some v =>
          rw [hv] at hblocks
          have hunder : (contents (some v)).Compatible (contents (kws.lookup k)) := by
            intro path x y hx hy
            rw [← hv] at hx
            exact h (k :: path) x y hx hy
          exact ih hunder hblocks
      | null | bool | int | float | str | list => cases h [] _ _ rfl hupper
    · exact contents_other hupper ks

/-- A tree laid over another adds nothing if the other has all that it has. -/
theorem merge_eq_left_iff (base upper : Option Value) :
    (contents base).merge (contents upper) = contents base ↔
      (contents upper).Within (contents base) := by
  constructor
  · intro h path x hx
    have hpath := congrFun h path
    rw [merge_apply, hx, Option.some_or] at hpath
    exact hpath.symm
  · intro h
    funext path
    rw [merge_apply]
    cases hx : contents upper path with
    | some x => exact (h path x hx).symm
    | none =>
      rw [Option.none_or]
      split
      · rename_i hblocks
        obtain ⟨v, rfl, hblocks⟩ := (Option.any_eq_true _ upper).mp hblocks
        have hcompatible : (contents (some v)).Compatible (contents base) :=
          fun path x y hx hy => Option.some.inj ((h path x hx).symm.trans hy)
        exact (contents_eq_none_of_blocks hcompatible hblocks).symm
      · rfl

/-- A tree laid over another leaves nothing of it if it writes at each path of the other, or cuts it
off. -/
theorem merge_eq_right_iff (base : Option Value) (v : Value) :
    (contents base).merge (contents (some v)) = contents (some v) ↔
      ∀ path, contents base path ≠ none → reaches path v = true := by
  have hwritten : ∀ path, (look (some v) path).isSome = (contents (some v) path).isSome :=
    fun path => Option.isSome_map.symm
  constructor
  · intro h path hbase
    have hpath := congrFun h path
    rw [merge_apply, Option.any_some] at hpath
    rw [reaches, hwritten]
    cases hblocks : blocks path v with
    | true => rfl
    | false =>
      rw [hblocks, if_neg Bool.false_ne_true] at hpath
      rw [← hpath, Option.isSome_or, Option.isSome_iff_ne_none.mpr hbase, Bool.or_true,
        Bool.or_true]
  · intro h
    funext path
    rw [merge_apply, Option.any_some]
    cases hx : contents (some v) path with
    | some x => rfl
    | none =>
      rw [Option.none_or]
      split
      · rfl
      · rename_i hblocks
        by_contra hbase
        have hreaches := h path hbase
        rw [reaches, hwritten, hx, Bool.eq_false_iff.mpr hblocks] at hreaches
        cases hreaches

/-- Compatible trees can be laid over a third in either order. -/
theorem merge_comm (base : Option Value) {v w : Value} (hv : Distinct v) (hw : Distinct w)
    (h : (contents (some v)).Compatible (contents (some w))) :
    ((contents base).merge (contents (some v))).merge (contents (some w)) =
      ((contents base).merge (contents (some w))).merge (contents (some v)) := by
  have hoverlay : ∀ u, Distinct u → (contents base).merge (contents (some u)) =
      contents (overlay base (some u)) :=
    fun u hu => (contents_overlay fun w hw => Option.some.inj hw ▸ hu).symm
  funext path
  rw [hoverlay v hv, hoverlay w hw, merge_apply, merge_apply, ← hoverlay v hv, ← hoverlay w hw,
    merge_apply, merge_apply]
  simp only [Option.any_some]
  cases hx : contents (some v) path with
  | none =>
    cases hy : contents (some w) path with
    | none =>
      simp only [Option.none_or]
      by_cases hblocks : blocks path v = true
      · simp only [hblocks, if_true, ite_self]
      · simp only [hblocks, if_false, Bool.false_eq_true]
    | some y =>
      have hopen : blocks path v ≠ true := fun hblocks =>
        Option.some_ne_none y (hy.symm.trans (contents_eq_none_of_blocks h hblocks))
      simp only [hopen, if_false, Option.none_or, Option.some_or, Bool.false_eq_true]
  | some x =>
    cases hy : contents (some w) path with
    | none =>
      have hopen : blocks path w ≠ true := fun hblocks =>
        Option.some_ne_none x (hx.symm.trans (contents_eq_none_of_blocks h.symm hblocks))
      simp only [hopen, if_false, Option.none_or, Option.some_or, Bool.false_eq_true]
    | some y => rw [h path x y hx hy, Option.some_or, Option.some_or]

theorem none_merge (upper : Option Value) :
    (contents none).merge (contents upper) = contents upper := by
  cases upper with
  | none => exact merge_none none
  | some w => exact merge_some nofun

theorem merge_dict_under (base : Option Value) (kws : List (String × Value)) (k : String) :
    ((contents base).merge (contents (some (dict kws)))).under k =
      (contents ((entriesOf base).lookup k)).merge (contents (kws.lookup k)) := by
  by_cases hbase : contents base [] = some .dict
  · exact Contents.merge_dict hbase rfl k
  · have hentries : entriesOf base = [] := by
      unfold entriesOf
      split
      · exact absurd rfl hbase
      · rfl
    rw [merge_some fun hdict => absurd hdict hbase, hentries, List.lookup_nil, none_merge]
    rfl

/-- An empty dictionary adds nothing to a dictionary. -/
theorem merge_empty (kvs : List (String × Value)) :
    (contents (some (dict kvs))).merge (contents (some (dict []))) = contents (some (dict kvs)) := by
  funext path
  cases path with
  | nil => rfl
  | cons k ks =>
    refine (congrFun (merge_dict_under (some (dict kvs)) [] k) ks).trans ?_
    exact congrFun (merge_none (kvs.lookup k)) ks

theorem empty_merge (kvs : List (String × Value)) :
    (contents (some (dict []))).merge (contents (some (dict kvs))) = contents (some (dict kvs)) := by
  funext path
  cases path with
  | nil => rfl
  | cons k ks =>
    refine (congrFun (merge_dict_under (some (dict [])) kvs k) ks).trans ?_
    exact congrFun (none_merge (kvs.lookup k)) ks

theorem distinct_nest {v : Value} (h : Distinct v) (ps : List String) : Distinct (nest ps v) := by
  induction ps with
  | nil => exact h
  | cons p ps ih => exact distinct_single p ih

/-- A write at a path lays the tree over that has the value there. -/
theorem contents_setAt {v : Value} (hv : Distinct v) (base : Option Value) (ps : List String) :
    contents (some (setAt base ps v)) = (contents base).merge (contents (some (nest ps v))) := by
  induction ps generalizing base with
  | nil => exact contents_overlay fun w hw => Option.some.inj hw ▸ hv
  | cons p ps ih =>
    funext path
    cases path with
    | nil => rfl
    | cons k ks =>
      refine Eq.trans ?_ (congrFun (merge_dict_under base [(p, nest ps v)] k) ks).symm
      change contents ((Value.setKey p _ _).lookup k) ks = _
      rw [lookup_setKey]
      by_cases hk : k = p
      · rw [if_pos hk, hk, List.lookup_cons_self, ih]
      · rw [if_neg hk, lookup_cons_ne hk, List.lookup_nil, merge_none]

/-- Pairwise compatible trees can be laid over a tree in any order. -/
theorem contents_foldl_perm {ts us : List Value} (hperm : ts.Perm us) (base : Option Value)
    (hdistinct : ∀ t ∈ ts, Distinct t)
    (hcompat : ∀ t ∈ ts, ∀ u ∈ ts, (contents (some t)).Compatible (contents (some u))) :
    ts.foldl (fun f t => f.merge (contents (some t))) (contents base) =
      us.foldl (fun f t => f.merge (contents (some t))) (contents base) := by
  have hoverlay : ∀ t ∈ ts, ∀ base, (contents base).merge (contents (some t)) =
      contents (overlay base (some t)) :=
    fun t ht base => (contents_overlay fun w hw => Option.some.inj hw ▸ hdistinct t ht).symm
  induction hperm generalizing base with
  | nil => rfl
  | cons t _ ih =>
    rw [List.foldl_cons, List.foldl_cons, hoverlay t List.mem_cons_self]
    exact ih _ (fun t' ht' => hdistinct t' (List.mem_cons_of_mem t ht'))
      (fun t' ht' u hu => hcompat t' (List.mem_cons_of_mem t ht') u (List.mem_cons_of_mem t hu))
      (fun t' ht' => hoverlay t' (List.mem_cons_of_mem t ht'))
  | swap t u ts =>
    simp only [List.foldl_cons]
    rw [merge_comm base (hdistinct u List.mem_cons_self)
      (hdistinct t (List.mem_cons_of_mem u List.mem_cons_self))
      (hcompat u List.mem_cons_self t (List.mem_cons_of_mem u List.mem_cons_self))]
  | @trans ts ts' us hfirst _ ih₁ ih₂ =>
    have hmem : ∀ t ∈ ts', t ∈ ts := fun t ht => hfirst.mem_iff.mpr ht
    exact (ih₁ base hdistinct hcompat hoverlay).trans
      (ih₂ base (fun t ht => hdistinct t (hmem t ht))
        (fun t ht u hu => hcompat t (hmem t ht) u (hmem u hu))
        (fun t ht => hoverlay t (hmem t ht)))

end Value

end DomainRag
