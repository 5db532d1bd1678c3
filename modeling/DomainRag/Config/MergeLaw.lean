import DomainRag.Evaluation.Independence
import DomainRag.Lib.CopyMerge

/-! # The merges of configuration trees

Three functions merge configuration trees. The one of the tenant configuration makes new
dictionaries, the others write into the tree that they are given. All of them compute one tree,
which is a function of what stands at the paths of the two.
-/

namespace DomainRag.Config

open Value (look)

/-- A tree as YAML and JSON give it: no dictionary has a key twice. -/
structure ConfigTree where
  value : Value
  distinct : value.Distinct

namespace ConfigTree

def merge (base override : ConfigTree) : ConfigTree where
  value := Value.deepMerge (some base.value) override.value
  distinct := override.distinct.deepMerge fun _ hb => Option.some.inj hb ▸ base.distinct

def at? (t : ConfigTree) (path : List String) : Option Value := look (some t.value) path

def contents (t : ConfigTree) : Contents := Value.contents (some t.value)

/-- Trees are the same in whatever order the keys of their dictionaries came. -/
def Same (t u : ConfigTree) : Prop := t.contents = u.contents

/-- No path holds a dictionary in one tree and another value in the other. -/
def NoConflict (t u : ConfigTree) : Prop :=
  ∀ path v w, t.at? path = some v → u.at? path = some w → v.isDict = w.isDict

theorem contents_merge (base override : ConfigTree) :
    (base.merge override).contents = base.contents.merge override.contents :=
  @Value.contents_overlay (some base.value) (some override.value)
    fun _ hw => Option.some.inj hw ▸ override.distinct

/-- What stands at the paths of a merged tree. -/
structure PathLaw (base override merged : ConfigTree) : Prop where
  replaced : ∀ path w, override.at? path = some w →
    (w.isDict = true → ∀ v, base.at? path = some v → v.isDict = false) →
      merged.at? path = some w
  combined : ∀ path v w, base.at? path = some v → override.at? path = some w → v.isDict = true →
    w.isDict = true → merged.at? path = some (Value.deepMerge (some v) w)
  cut : ∀ front k back w, override.at? front = some w → w.isDict = false →
    merged.at? (front ++ k :: back) = none
  kept : ∀ path, override.at? path = none →
    (∀ front k back w, path = front ++ k :: back → override.at? front = some w →
      w.isDict = true) → merged.at? path = base.at? path

section PathLaw

variable {base override : ConfigTree} {path : List String} {v w : Value}

theorem contents_eq_none_iff {t : ConfigTree} : t.contents path = none ↔ t.at? path = none :=
  Option.map_eq_none_iff

theorem at?_eq_none_of_blocks (hblocks : Value.blocks path override.value = true) :
    override.at? path = none := by
  have hcompatible : override.contents.Compatible override.contents :=
    fun path x y hx hy => Option.some.inj (hx.symm.trans hy)
  exact contents_eq_none_iff.mp (Value.contents_eq_none_of_blocks hcompatible hblocks)

theorem blocks_eq_false_of_at? (hw : override.at? path = some w) :
    Value.blocks path override.value = false := by
  by_contra hblocks
  rw [at?_eq_none_of_blocks (eq_true_of_ne_false hblocks)] at hw
  cases hw

theorem at?_merge (hopen : Value.blocks path override.value = false) :
    (base.merge override).at? path = Value.overlay (base.at? path) (override.at? path) :=
  Value.look_deepMerge override.distinct hopen

theorem deepMerge_of_isDict_eq_false {b : Option Value}
    (h : w.isDict = true → ∀ v, b = some v → v.isDict = false) : Value.deepMerge b w = w := by
  cases w with
  | dict kvs =>
    obtain ⟨kws, rfl, -⟩ | heq := Value.deepMerge_dict b kvs
    · cases h rfl _ rfl
    · exact heq
  | null | bool | int | float | str | list => simp only [Value.deepMerge]

theorem merge_pathLaw (base override : ConfigTree) :
    PathLaw base override (base.merge override) where
  replaced path w hw h := by
    rw [at?_merge (blocks_eq_false_of_at? hw), hw, Value.overlay, deepMerge_of_isDict_eq_false h]
  combined path v w hv hw _ _ := by
    rw [at?_merge (blocks_eq_false_of_at? hw), hv, hw, Value.overlay]
  cut front k back w hw hother := by
    have hblocks : Value.blocks (front ++ k :: back) override.value = true :=
      Value.blocks_iff.mpr ⟨front, k, back, w, rfl, hw, hother⟩
    rw [← contents_eq_none_iff, contents_merge, contents, contents, Value.merge_apply,
      Option.any_some, if_pos hblocks, Option.or_none]
    exact contents_eq_none_iff.mpr (at?_eq_none_of_blocks hblocks)
  kept path hw h := by
    have hopen : Value.blocks path override.value = false := by
      by_contra hblocks
      obtain ⟨front, k, back, w, hpath, hlook, hother⟩ :=
        Value.blocks_iff.mp (eq_true_of_ne_false hblocks)
      cases hother.symm.trans (h front k back w hpath hlook)
    rw [at?_merge hopen, hw, Value.overlay]

end PathLaw

theorem merge_idempotent (base override : ConfigTree) :
    ((base.merge override).merge override).Same (base.merge override) := by
  have hwithin : override.contents.Within (base.merge override).contents := by
    intro path x hx
    rw [contents_merge]
    exact Value.merge_of_contents base.contents hx
  rw [Same, contents_merge]
  exact (Value.merge_eq_left_iff _ _).mpr hwithin

theorem NoConflict.sameKind {t u : ConfigTree} (h : t.NoConflict u) :
    t.contents.SameKind u.contents := by
  have hview : ∀ v : Value, v.view = .dict ↔ v.isDict = true := by
    intro v
    cases v with
    | dict kvs => exact ⟨fun _ => rfl, fun _ => rfl⟩
    | null | bool | int | float | str | list => exact ⟨nofun, nofun⟩
  intro path x y hx hy
  obtain ⟨v, hv, rfl⟩ := Option.map_eq_some_iff.mp hx
  obtain ⟨w, hw, rfl⟩ := Option.map_eq_some_iff.mp hy
  rw [hview, hview, h path v w hv hw]

theorem merge_assoc {t u w : ConfigTree} (htu : t.NoConflict u) (huw : u.NoConflict w)
    (htw : t.NoConflict w) : ((t.merge u).merge w).Same (t.merge (u.merge w)) := by
  rw [Same, contents_merge, contents_merge, contents_merge, contents_merge]
  exact Contents.merge_assoc htu.sameKind huw.sameKind htw.sameKind

end ConfigTree

section Heap

/-- The tree stands in the heap at a slot, on dictionaries of its own. -/
structure Holds (h : Heap) (s : Slot) (t : ConfigTree) : Prop where
  contents : h.contents (some s) = t.contents
  unshared : h.Unshared s
  bounded : h.Bounded s

/-- A tree can be put into every heap, apart from all that is there. -/
theorem holds_store (t : ConfigTree) (h : Heap) :
    Holds (h.store t.value).2 (h.store t.value).1 t ∧
      ∀ s, h.Bounded s → (h.store t.value).2.Apart s (h.store t.value).1 := by
  obtain ⟨hgrown, hstored⟩ := Heap.store_spec t.distinct h
  refine ⟨⟨hstored.contents, hstored.unshared _ rfl, fun a ha => (hstored.fresh _ rfl a ha).2⟩, ?_⟩
  intro s hs a ha ha'
  rw [(hgrown.agree hs).inside_iff] at ha
  exact absurd (hs a ha) (Nat.not_lt.mpr (hstored.fresh _ rfl a ha').1)

/-- The merge of the tenant configuration. Nested dictionaries are no deeper than there are
dictionaries. -/
def deepMerge (base override : Slot) (h : Heap) : Except Exc (Slot × Heap) :=
  h.copyMerge (h.next + 1) base override

/-- The merge of the preload at startup, in place. -/
def deepMergeInto (base override : Nat) (h : Heap) : Except Exc Heap :=
  h.deepMerge h.next base override

variable {h : Heap} {base override : ConfigTree}

theorem deepMerge_spec {s t : Slot} (hbase : Holds h s base) (hoverride : Holds h t override) :
    ∃ u h', deepMerge s t h = .ok (u, h') ∧ h'.contents (some u) = (base.merge override).contents ∧
      ∀ a, a < h.next → h'.cell a = h.cell a := by
  have hshallow : h.Shallow (h.next + 1) t := by
    intro path a hpath
    have hlt := Heap.shallow_of_unshared hoverride.unshared hoverride.bounded path a hpath
    exact Nat.lt_succ_of_lt hlt
  obtain ⟨u, h', hrun, hcopied⟩ :=
    Heap.copyMerge_spec hbase.bounded hoverride.bounded hshallow
  refine ⟨u, h', hrun, ?_, hcopied.grown.frame⟩
  rw [hcopied.contents, hbase.contents, hoverride.contents, ConfigTree.contents_merge]

theorem Holds.tree {a : Nat} (hbase : Holds h (.ref a) base) : h.Tree a :=
  ⟨hbase.unshared, hbase.bounded⟩

theorem deepMergeInto_spec {a b : Nat} (hbase : Holds h (.ref a) base)
    (hoverride : Holds h (.ref b) override) (hapart : h.Apart (.ref a) (.ref b)) :
    ∃ h', deepMergeInto a b h = .ok h' ∧
      h'.contents (some (.ref a)) = (base.merge override).contents := by
  obtain ⟨h', n, hrun, hm, hmerged⟩ := Heap.deepMerge_next hbase.tree hoverride.tree hapart
  refine ⟨h', hrun, ?_⟩
  rw [hmerged.contents hm, hbase.contents, hoverride.contents, ConfigTree.contents_merge]

/-- The runner merges two overrides into a new dictionary, in place. -/
theorem runnerMerge_spec {a b : Nat} (hbase : Holds h (.ref a) base)
    (hoverride : Holds h (.ref b) override) (hapart : h.Apart (.ref a) (.ref b)) :
    ∃ out h', Evaluation.merge (some a) (some b) h = .ok (out, h') ∧
      h'.contents (some (.ref out)) = (base.merge override).contents := by
  obtain ⟨kvs, hkvs⟩ : ∃ kvs, override.value = .dict kvs := by
    obtain ⟨kvs, hkvs⟩ := Value.contents_root_eq_dict_iff.mp
      (congrFun hoverride.contents []).symm
    exact ⟨kvs, Option.some.inj hkvs⟩
  have hcontents : h.contents (some (.ref b)) = Value.contents (some (.dict kvs)) := by
    rw [hoverride.contents, ConfigTree.contents, hkvs]
  let case : Evaluation.StoredCase :=
    { case := ⟨.null, .null, .null, [], [], [], false, .null, [], kvs, []⟩, configOverride := b }
  have hready : Evaluation.Ready h a [case] := by
    refine ⟨hbase.tree, ?_, List.pairwise_singleton _ _⟩
    intro c hc
    rw [List.mem_singleton.mp hc]
    exact ⟨hoverride.tree, hcontents, hapart⟩
  obtain ⟨out, h', hrun, hafter⟩ := Evaluation.merge_spec hready (.inl rfl)
  refine ⟨out, h', hrun, ?_⟩
  rw [hafter.contents, ← hcontents, hbase.contents, hoverride.contents, ConfigTree.contents_merge]

end Heap

/-- Where both trees have a dictionary, the merged tree has neither of the two. -/
theorem merged_dict_is_not_the_override :
    ¬ ∀ (base override : ConfigTree) (path : List String) (w : Value),
      override.at? path = some w → (base.merge override).at? path = some w := by
  intro h
  have hsingle : ∀ k v, (Value.dict [("chunk", .dict [(k, .int v)])]).Distinct :=
    fun k v => Value.distinct_single "chunk" (Value.distinct_single k (.other rfl))
  have hmerged := h ⟨_, hsingle "size" 500⟩ ⟨_, hsingle "overlap" 50⟩ ["chunk"] _ rfl
  simp only [ConfigTree.at?, ConfigTree.merge, look, Value.entriesOf, Value.deepMerge,
    Value.mergeEntries, List.lookup_cons_self, Value.setKey, if_true, Option.some.injEq,
    Value.dict.injEq] at hmerged
  cases congrArg List.length hmerged

theorem deepMerge_law :
    (∀ base override : ConfigTree, ConfigTree.PathLaw base override (base.merge override)) ∧
    (∀ (base override : ConfigTree) (h : Heap) (s t : Slot), Holds h s base → Holds h t override →
      ∃ u h', deepMerge s t h = .ok (u, h') ∧
        h'.contents (some u) = (base.merge override).contents ∧
        ∀ a, a < h.next → h'.cell a = h.cell a) ∧
    (∀ base override : ConfigTree,
      ((base.merge override).merge override).Same (base.merge override)) ∧
    (∀ t u w : ConfigTree, t.NoConflict u → u.NoConflict w → t.NoConflict w →
      ((t.merge u).merge w).Same (t.merge (u.merge w))) ∧
    (∀ (base override : ConfigTree) (h : Heap) (a b : Nat), Holds h (.ref a) base →
      Holds h (.ref b) override → h.Apart (.ref a) (.ref b) →
        (∃ h', deepMergeInto a b h = .ok h' ∧
          h'.contents (some (.ref a)) = (base.merge override).contents) ∧
        (∃ h', Evaluation.deepMerge a b h = .ok h' ∧
          h'.contents (some (.ref a)) = (base.merge override).contents) ∧
        ∃ out h', Evaluation.merge (some a) (some b) h = .ok (out, h') ∧
          h'.contents (some (.ref out)) = (base.merge override).contents) := by
  refine ⟨ConfigTree.merge_pathLaw, ?_, ConfigTree.merge_idempotent, ?_, ?_⟩
  · intro base override h s t hbase hoverride
    exact deepMerge_spec hbase hoverride
  · intro t u w htu huw htw
    exact ConfigTree.merge_assoc htu huw htw
  · intro base override h a b hbase hoverride hapart
    exact ⟨deepMergeInto_spec hbase hoverride hapart, deepMergeInto_spec hbase hoverride hapart,
      runnerMerge_spec hbase hoverride hapart⟩

end DomainRag.Config
