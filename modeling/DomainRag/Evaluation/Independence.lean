import DomainRag.Evaluation.Runner

/-! # What a case leaves to the next

Merging a case's override writes into the dictionaries that the override of the run holds, and they
stay so for the cases that follow.
-/

namespace DomainRag.Evaluation

open Heap

/-- What a case makes of the configuration of its tenant: the override of the run as it was passed
is merged, then the one of the case. -/
def ownConfig (override : List (String × Value)) (case : EvalCase)
    (config : List (String × Value)) : Value :=
  Value.deepMerge (some (Value.deepMerge (some (.dict config)) (.dict override)))
    (.dict case.configOverride)

def alone (baseLoader : ConfigLoader) (graph : Graph) (override : List (String × Value))
    (case : EvalCase) : Except Exc Value :=
  graph case ((baseLoader case.domainId).map fun config =>
    Value.contents (some (ownConfig override case config)))

/-- Whichever cases of the dataset are run in whatever order, each gets the result that it gets
alone, and the override of the run is what it was. -/
def Independent (baseLoader : ConfigLoader) (override : List (String × Value))
    (dataset : List EvalCase) : Prop :=
  ∀ (graph : Graph) (cases : List EvalCase), cases.Subperm dataset →
    execute baseLoader graph override cases =
      (cases.mapM (alone baseLoader graph override), Value.contents (some (.dict override)))

section Step

/-- The run's override and the overrides of the cases to come are trees that have nothing in
common. -/
structure Ready (h : Heap) (extra : Nat) (cases : List StoredCase) : Prop where
  override : h.Tree extra
  stored : ∀ c ∈ cases, h.Tree c.configOverride ∧
    h.contents (some (.ref c.configOverride)) =
      Value.contents (some (.dict c.case.configOverride)) ∧
    h.Apart (.ref extra) (.ref c.configOverride)
  separate : cases.Pairwise fun c c' => h.Apart (.ref c.configOverride) (.ref c'.configOverride)

variable {h h' : Heap} {extra out : Nat} {case : StoredCase} {cases : List StoredCase}

theorem Tree.agree {a : Nat} (ht : h.Tree a) (hagree : Agree h h' (.ref a))
    (hnext : h.next ≤ h'.next) : h'.Tree a where
  unshared := hagree.unshared ht.unshared
  bounded x hx := Nat.lt_of_lt_of_le (ht.bounded x (hagree.inside_iff.mp hx)) hnext

theorem Ready.grown (hr : Ready h extra cases) (hg : Grown h h') : Ready h' extra cases := by
  have hextra : Agree h h' (.ref extra) := hg.agree hr.override.bounded
  have hcase : ∀ c ∈ cases, Agree h h' (.ref c.configOverride) :=
    fun c hc => hg.agree (hr.stored c hc).1.bounded
  refine ⟨Tree.agree hr.override hextra hg.next, fun c hc => ?_, ?_⟩
  · obtain ⟨htree, hcontents, hapart⟩ := hr.stored c hc
    refine ⟨Tree.agree htree (hcase c hc) hg.next, (hcase c hc).contents.trans hcontents, ?_⟩
    intro a ha ha'
    exact hapart a (hextra.inside_iff.mp ha) ((hcase c hc).inside_iff.mp ha')
  · refine hr.separate.imp_of_mem fun hc hc' hapart a ha ha' => ?_
    exact hapart a ((hcase _ hc).inside_iff.mp ha) ((hcase _ hc').inside_iff.mp ha')

/-- The new dictionary gets what the override of the run has under its keys. -/
theorem deepMergeIf_new (hextra : h.Tree extra) {x : Option Nat}
    (hx : x = some extra ∨ x = none ∧ (h.cell extra).entries = []) :
    ∃ h', deepMergeIf h.next x (h.push .empty) = .ok h' ∧ h'.next = h.next + 1 ∧ Grown h h' ∧
      ∀ k, (h'.cell h.next).get? k = (h.cell extra).get? k := by
  have hlt : extra < h.next := hextra.bounded extra (inside_self h extra)
  have hcell : (h.push .empty).cell extra = h.cell extra := cell_push_of_ne (Nat.ne_of_lt hlt)
  have hkeep : (h.cell extra).entries = [] →
      ∀ k, ((h.push .empty).cell h.next).get? k = (h.cell extra).get? k := by
    intro hempty k
    rw [cell_push_self, Dict.get?_empty, eq_comm, Dict.get?_eq_none_iff, Dict.keys, hempty]
    exact List.not_mem_nil
  obtain rfl | ⟨rfl, hempty⟩ := hx
  · by_cases hempty : (h.cell extra).entries = []
    · refine ⟨h.push .empty, ?_, rfl, grown_push h .empty, hkeep hempty⟩
      rw [deepMergeIf, hcell, if_pos hempty]
    · have hagree : Agree h (h.push .empty) (.ref extra) :=
        (grown_push h .empty).agree hextra.bounded
      have hapart : (h.push .empty).Apart (.ref h.next) (.ref extra) := by
        intro a ha ha'
        rw [eq_of_inside_push h ha, hagree.inside_iff] at ha'
        exact Nat.lt_irrefl _ (hextra.bounded _ ha')
      obtain ⟨h', n, hrun, hm, h₁⟩ := deepMerge_next (tree_push h)
        (Tree.agree hextra hagree (Nat.le_succ _)) hapart
      have hnone : ∀ k c d, ¬ Meet (h.push .empty) h.next ((h.push .empty).cell extra).entries
          k c d := by
        intro k c d hmeet
        have hget := hmeet.1
        rw [cell_push_self] at hget
        cases hget
      refine ⟨h', ?_, h₁.next, ⟨?_, ?_⟩, ?_⟩
      · rw [deepMergeIf, hcell, if_neg hempty]
        exact hrun
      · rw [h₁.next]
        exact Nat.le_succ _
      · intro a ha
        rw [h₁.frame a (Nat.ne_of_lt ha) fun k c d hmeet => absurd hmeet (hnone k c d)]
        exact cell_push_of_ne (Nat.ne_of_lt ha)
      · intro k
        rw [← hcell]
        cases hs : ((h.push .empty).cell extra).get? k with
        | none =>
          rw [h₁.kept k (Dict.get?_eq_none_iff.mp hs), cell_push_self]
          rfl
        | some s => exact h₁.replaced k s (Dict.get?_eq_some_iff.mp hs) (hnone k)
  · exact ⟨h.push .empty, rfl, rfl, grown_push h .empty, hkeep hempty⟩

/-- A merge into a dictionary with the same keys as the run's override. -/
theorem Ready.merged (hr : Ready h extra (case :: cases)) (hne : out ≠ extra)
    (hcell : ∀ k, (h.cell out).get? k = (h.cell extra).get? k) (hout : out < h.next)
    (hapart : ∀ c ∈ case :: cases, ¬ h.Inside (.ref c.configOverride) out) {n : Nat}
    (hm : Mergeable n h out (h.cell case.configOverride).entries)
    (h₁ : Merged h out (h.cell case.configOverride).entries h') :
    h'.Tree out ∧ h'.cell extra = h.cell extra ∧ Ready h' extra cases := by
  obtain ⟨hcase, -, hcaseApart⟩ := hr.stored case List.mem_cons_self
  -- What stands under a key belongs to the run's override or to the case.
  have howned : ∀ k a, Owned h out (h.cell case.configOverride).entries k a →
      a ≠ extra ∧ (h.Inside (.ref extra) a ∨ h.Inside (.ref case.configOverride) a) := by
    rintro k a (⟨s, hs, ha⟩ | ⟨s, hs, ha⟩)
    · rw [hcell] at hs
      refine ⟨?_, .inl (ha.child hs)⟩
      rintro rfl
      exact hr.override.unshared.not_inside_child hs ha
    · have hs' : (h.cell case.configOverride).get? k = some s := Dict.get?_eq_some_iff.mpr hs
      refine ⟨?_, .inr (ha.child hs')⟩
      rintro rfl
      exact hcaseApart a (inside_self h a) (ha.child hs')
  have hlt : ∀ a, h.Inside (.ref extra) a ∨ h.Inside (.ref case.configOverride) a → a < h.next :=
    fun a ha => ha.elim (hr.override.bounded a) (hcase.bounded a)
  have hextra : h'.cell extra = h.cell extra := by
    refine h₁.frame extra (Ne.symm hne) fun k c d hmeet hc => ?_
    exact (howned k extra (.inl ⟨_, hmeet.1, hc⟩)).1 rfl
  have hinside : ∀ a, h'.Inside (.ref extra) a →
      h.Inside (.ref extra) a ∨ h.Inside (.ref case.configOverride) a := by
    intro a ha
    obtain rfl | ⟨k, s, hs, ha⟩ := inside_ref_iff.mp ha
    · exact .inl (inside_self h a)
    · rw [hextra, ← hcell] at hs
      exact (howned k a ((h₁.old hm hs).2 a ha)).2
  have hrest : ∀ c ∈ cases, Agree h h' (.ref c.configOverride) := by
    intro c hc
    have hc' : c ∈ case :: cases := List.mem_cons_of_mem case hc
    refine agree_of_cell fun a ha => h₁.frame a ?_ ?_
    · rintro rfl
      exact hapart c hc' ha
    · intro k b d hmeet hb
      have hs := hmeet.1
      rw [hcell] at hs
      exact (hr.stored c hc').2.2 a (hb.child hs) ha
  refine ⟨⟨h₁.unshared hm, ?_⟩, hextra, ⟨?_, ?_⟩, fun c hc => ?_, ?_⟩
  · intro a ha
    rw [h₁.next]
    obtain rfl | ⟨k, s, hs, ha⟩ := inside_ref_iff.mp ha
    · exact hout
    · exact hlt a (howned k a ((h₁.new hm hs).2 a ha)).2
  · refine h₁.unshared_holder hm (fun k hown => (howned k extra hown).1 rfl) fun k s hs => ?_
    rw [hextra, ← hcell] at hs
    exact .inl hs
  · intro a ha
    rw [h₁.next]
    exact hlt a (hinside a ha)
  · obtain ⟨htree, hcontents, happ⟩ := hr.stored c (List.mem_cons_of_mem case hc)
    have hagree := hrest c hc
    refine ⟨Tree.agree htree hagree (Nat.le_of_eq h₁.next.symm), hagree.contents.trans hcontents,
      fun a ha ha' => ?_⟩
    rw [hagree.inside_iff] at ha'
    obtain ha | ha := hinside a ha
    · exact happ a ha ha'
    · exact (List.pairwise_cons.mp hr.separate).1 c hc a ha ha'
  · refine (List.pairwise_cons.mp hr.separate).2.imp_of_mem fun hc hc' hap a ha ha' => ?_
    exact hap a ((hrest _ hc).inside_iff.mp ha) ((hrest _ hc').inside_iff.mp ha')

/-- An empty override leaves everything as a merge without entries does. -/
theorem deepMergeIf_next {upper : Nat} (hout : h.Tree out) (hupper : h.Tree upper)
    (hapart : h.Apart (.ref out) (.ref upper)) :
    ∃ h' n, deepMergeIf out (some upper) h = .ok h' ∧
      Mergeable n h out (h.cell upper).entries ∧ Merged h out (h.cell upper).entries h' := by
  by_cases hempty : (h.cell upper).entries = []
  · refine ⟨h, 0, ?_, ?_, ?_⟩
    · rw [deepMergeIf, if_pos hempty]
    · rw [hempty]
      exact ⟨hout.unshared, List.nodup_nil, nofun, nofun⟩
    · rw [hempty]
      exact .nil h out
  · obtain ⟨h', n, hrun, hm, hmerged⟩ := deepMerge_next hout hupper hapart
    refine ⟨h', n, ?_, hm, hmerged⟩
    rw [deepMergeIf, if_neg hempty]
    exact hrun

/-- What `merge` leaves behind: the merged override, and what became of the one of the run. -/
structure AfterMerge (h : Heap) (x : Option Nat) (extra : Nat) (case : StoredCase)
    (cases : List StoredCase) (out : Nat) (h' : Heap) : Prop where
  tree : h'.Tree out
  contents : h'.contents (some (.ref out)) = (h.contents (some (.ref extra))).merge
    (Value.contents (some (.dict case.case.configOverride)))
  absorbed : h'.contents (some (.ref extra)) = (h.contents (some (.ref extra))).absorb
    (Value.contents (some (.dict case.case.configOverride)))
  passed : x = some extra ∨ x = none ∧ (h'.cell extra).entries = []
  ready : Ready h' extra cases

theorem merge_spec (hr : Ready h extra (case :: cases)) {x : Option Nat}
    (hx : x = some extra ∨ x = none ∧ (h.cell extra).entries = []) :
    ∃ out h', merge x (some case.configOverride) h = .ok (out, h') ∧
      AfterMerge h x extra case cases out h' := by
  obtain ⟨h₁, hrun₁, hnext, hg, hcell⟩ := deepMergeIf_new hr.override hx
  have hlt : ∀ a, a < h.next → a ≠ h.next := fun a ha => Nat.ne_of_lt ha
  have hextra : extra < h.next := hr.override.bounded extra (inside_self h extra)
  have hr₁ := hr.grown hg
  have hcell₁ : ∀ k, (h₁.cell h.next).get? k = (h₁.cell extra).get? k := by
    intro k
    rw [hcell, hg.frame extra hextra]
  have hagree : Agree h h₁ (.ref extra) := hg.agree hr.override.bounded
  have hfresh : ¬ h₁.Inside (.ref extra) h.next := by
    rw [hagree.inside_iff]
    exact fun ha => Nat.lt_irrefl _ (hr.override.bounded _ ha)
  have hapart : ∀ c ∈ case :: cases, ¬ h₁.Inside (.ref c.configOverride) h.next := by
    intro c hc
    rw [(hg.agree (hr.stored c hc).1.bounded).inside_iff]
    exact fun ha => Nat.lt_irrefl _ ((hr.stored c hc).1.bounded _ ha)
  obtain ⟨hcase, hcontents, hcaseApart⟩ := hr₁.stored case List.mem_cons_self
  have htwin := contents_twin hcell₁
  have hout : h₁.Tree h.next := by
    refine ⟨unshared_twin hcell₁ hr₁.override.unshared hfresh, fun a ha => ?_⟩
    obtain rfl | ha := inside_twin hcell₁ ha
    · rw [hnext]
      exact Nat.lt_succ_self _
    · exact hr₁.override.bounded a ha
  have houtApart : h₁.Apart (.ref h.next) (.ref case.configOverride) := by
    intro a ha ha'
    obtain rfl | ha := inside_twin hcell₁ ha
    · exact hapart case List.mem_cons_self ha'
    · exact hcaseApart a ha ha'
  obtain ⟨h₂, n, hrun₂, hm, hmerged⟩ := deepMergeIf_next hout hcase houtApart
  obtain ⟨htree, hkept, hready⟩ := hr₁.merged (Ne.symm (hlt extra hextra)) hcell₁
    (hout.bounded _ (inside_self _ _)) hapart hm hmerged
  refine ⟨h.next, h₂, ?_, htree, ?_, ?_, ?_, hready⟩
  · simp only [merge, hrun₁, hrun₂, bind, Except.bind, pure, Except.pure]
  · rw [hmerged.contents hm, htwin, hcontents, hagree.contents]
  · rw [hmerged.absorbed hm fun k => by rw [hkept, hcell₁], htwin, hcontents, hagree.contents]
  · rw [hkept, hg.frame extra hextra]
    exact hx

variable {baseLoader : ConfigLoader} {graph : Graph}

theorem Tree.of_stored {v : Value} {a : Nat} (hs : Stored h (some v) (some (.ref a)) h') :
    h'.Tree a :=
  ⟨hs.unshared _ rfl, fun x hx => (hs.fresh _ rfl x hx).2⟩

theorem patchedConfig_spec {tid : Value} (hout : h.Tree out)
    (hloader : ∀ config, baseLoader tid = .ok config → (Value.dict config).Distinct) :
    ∃ h', patchedConfig baseLoader out tid h = ((baseLoader tid).map fun config =>
      (Value.contents (some (.dict config))).merge (h.contents (some (.ref out))), h') ∧
        Grown h h' := by
  rw [patchedConfig]
  cases hconfig : baseLoader tid with
  | error e => exact ⟨h, rfl, .refl h⟩
  | ok config =>
    obtain ⟨hg, hstored⟩ := storeDict_spec (hloader config hconfig) h
    have hagree := hg.agree hout.bounded
    have hfresh := hstored.fresh _ rfl
    have hapart : (storeDict config h).2.Apart (.ref (storeDict config h).1) (.ref out) := by
      intro a ha ha'
      rw [hagree.inside_iff] at ha'
      exact absurd (hout.bounded a ha') (Nat.not_lt.mpr (hfresh a ha).1)
    obtain ⟨h', n, hrun, hm, hmerged⟩ := deepMerge_next (Tree.of_stored hstored)
      (Tree.agree hout hagree hg.next) hapart
    refine ⟨h', ?_, Nat.le_trans hg.next (Nat.le_of_eq hmerged.next.symm), fun a ha => ?_⟩
    · simp only [deepMerge, hrun, hmerged.contents hm, hstored.contents, hagree.contents]
      rfl
    · have hold : ∀ b, (storeDict config h).2.Inside (.ref (storeDict config h).1) b → a ≠ b :=
        fun b hb => Nat.ne_of_lt (Nat.lt_of_lt_of_le ha (hfresh b hb).1)
      rw [hmerged.frame a (hold _ (inside_self _ _)) fun k c d hmeet hc =>
        hold a (hc.child hmeet.1) rfl]
      exact hg.frame a ha

/-- What a case comes to see when its override is merged into the one of the run as it stands. -/
def seen (f : Contents) (case : EvalCase) (config : List (String × Value)) : Contents :=
  (Value.contents (some (.dict config))).merge
    (f.merge (Value.contents (some (.dict case.configOverride))))

theorem runOne_spec (hr : Ready h extra (case :: cases)) {x : Option Nat}
    (hx : x = some extra ∨ x = none ∧ (h.cell extra).entries = [])
    (hloader : ∀ tid config, baseLoader tid = .ok config → (Value.dict config).Distinct) :
    ∃ h', runOne baseLoader graph x case h = (graph case.case ((baseLoader case.case.domainId).map
        (seen (h.contents (some (.ref extra))) case.case)), h') ∧
      h'.contents (some (.ref extra)) = (h.contents (some (.ref extra))).absorb
        (Value.contents (some (.dict case.case.configOverride))) ∧
      (x = some extra ∨ x = none ∧ (h'.cell extra).entries = []) ∧ Ready h' extra cases := by
  obtain ⟨out, h₁, hmerge, hafter⟩ := merge_spec hr hx
  obtain ⟨h', hpatched, hg⟩ := @patchedConfig_spec h₁ out baseLoader case.case.domainId hafter.tree
    (hloader _)
  have hextra := hafter.ready.override
  refine ⟨h', ?_, ?_, ?_, hafter.ready.grown hg⟩
  · simp only [runOne, hmerge, hpatched, hafter.contents]
    rfl
  · rw [(hg.agree hextra.bounded).contents, hafter.absorbed]
  · rw [hg.frame extra (hextra.bounded extra (inside_self _ _))]
    exact hafter.passed

end Step

section Whole

variable {baseLoader : ConfigLoader} {graph : Graph} {override : List (String × Value)}

/-- If no case writes into the override of the run and each sees what it would see alone, the run
is a run of each case alone. -/
theorem run_spec {cases : List StoredCase} {h : Heap} {extra : Nat} (hr : Ready h extra cases)
    {x : Option Nat} (hx : x = some extra ∨ x = none ∧ (h.cell extra).entries = [])
    (hloader : ∀ tid config, baseLoader tid = .ok config → (Value.dict config).Distinct)
    (hcontents : h.contents (some (.ref extra)) = Value.contents (some (.dict override)))
    (habsorb : ∀ c ∈ cases, (Value.contents (some (.dict override))).absorb
      (Value.contents (some (.dict c.case.configOverride))) =
        Value.contents (some (.dict override)))
    (hseen : ∀ c ∈ cases, ∀ config, baseLoader c.case.domainId = .ok config →
      seen (Value.contents (some (.dict override))) c.case config =
        Value.contents (some (ownConfig override c.case config))) :
    (run baseLoader graph x cases h).1 =
        (cases.map StoredCase.case).mapM (alone baseLoader graph override) ∧
      (run baseLoader graph x cases h).2.contents (some (.ref extra)) =
        Value.contents (some (.dict override)) := by
  induction cases generalizing h with
  | nil => exact ⟨rfl, hcontents⟩
  | cons case cases ih =>
    obtain ⟨h', hrun, hafter, hx', hr'⟩ := @runOne_spec h extra case cases baseLoader graph hr x hx
      hloader
    rw [hcontents, habsorb case List.mem_cons_self] at hafter
    have halone : graph case.case ((baseLoader case.case.domainId).map
        (seen (h.contents (some (.ref extra))) case.case)) =
          alone baseLoader graph override case.case := by
      rw [alone, hcontents]
      cases hconfig : baseLoader case.case.domainId with
      | error e => rfl
      | ok config =>
        rw [Except.map, Except.map, hseen case List.mem_cons_self config hconfig]
    obtain ⟨hrest, hextra⟩ := ih hr' hx' hafter
      (fun c hc => habsorb c (List.mem_cons_of_mem case hc))
      (fun c hc => hseen c (List.mem_cons_of_mem case hc))
    rw [halone] at hrun
    rw [run, hrun, List.map_cons, List.mapM_cons]
    cases halone' : alone baseLoader graph override case.case with
    | error e => exact ⟨rfl, hafter⟩
    | ok result =>
      simp only [bind, Except.bind]
      cases hrun' : run baseLoader graph x cases h' with
      | mk results h'' =>
        rw [hrun'] at hrest hextra
        rw [← hrest]
        cases results with
        | error e => exact ⟨rfl, hextra⟩
        | ok results => exact ⟨rfl, hextra⟩

theorem storeCases_spec {dataset : List EvalCase}
    (hdataset : ∀ c ∈ dataset, (Value.dict c.configOverride).Distinct) (h : Heap) :
    Grown h (storeCases dataset h).2 ∧
      (storeCases dataset h).1.map StoredCase.case = dataset ∧
      (∀ c ∈ (storeCases dataset h).1, Stored h (some (.dict c.case.configOverride))
        (some (.ref c.configOverride)) (storeCases dataset h).2) ∧
      (storeCases dataset h).1.Pairwise fun c c' =>
        (storeCases dataset h).2.Apart (.ref c.configOverride) (.ref c'.configOverride) := by
  induction dataset generalizing h with
  | nil => exact ⟨.refl h, rfl, nofun, .nil⟩
  | cons case dataset ih =>
    obtain ⟨hg, hstored⟩ := storeDict_spec (hdataset case List.mem_cons_self) h
    obtain ⟨hg', hmap, hrest, hpairwise⟩ :=
      ih (fun c hc => hdataset c (List.mem_cons_of_mem case hc)) (storeDict case.configOverride h).2
    have hhead := hstored.grown hg'
    refine ⟨hg.trans hg', congrArg (case :: ·) hmap, ?_, List.pairwise_cons.mpr ⟨?_, hpairwise⟩⟩
    · intro c hc
      obtain rfl | hc := List.mem_cons.mp hc
      · exact hhead
      · exact (hrest c hc).mono hg
    · intro c hc a ha ha'
      have hagree := hg'.agree fun a ha => (hstored.fresh _ rfl a ha).2
      have ha := hagree.inside_iff.mp ha
      exact absurd (hstored.fresh _ rfl a ha).2 (Nat.not_lt.mpr ((hrest c hc).fresh _ rfl a ha').1)

/-- Before the first case. -/
theorem ready_of_stored {dataset : List EvalCase} (hoverride : (Value.dict override).Distinct)
    (hdataset : ∀ c ∈ dataset, (Value.dict c.configOverride).Distinct) :
    Ready (storeCases dataset (Heap.empty.storeDict override).2).2
        (Heap.empty.storeDict override).1
        (storeCases dataset (Heap.empty.storeDict override).2).1 ∧
      (storeCases dataset (Heap.empty.storeDict override).2).2.contents
        (some (.ref (Heap.empty.storeDict override).1)) = Value.contents (some (.dict override)) ∧
      (override = [] → ((storeCases dataset (Heap.empty.storeDict override).2).2.cell
        (Heap.empty.storeDict override).1).entries = []) := by
  obtain ⟨-, hextra⟩ := storeDict_spec hoverride Heap.empty
  obtain ⟨hg, -, hcases, hpairwise⟩ := storeCases_spec hdataset (Heap.empty.storeDict override).2
  have hagree := hg.agree fun a ha => (hextra.fresh _ rfl a ha).2
  refine ⟨⟨Tree.of_stored (hextra.grown hg), fun c hc => ?_, hpairwise⟩,
    hagree.contents.trans hextra.contents, ?_⟩
  · have hstored := hcases c hc
    refine ⟨Tree.of_stored hstored, hstored.contents, fun a ha ha' => ?_⟩
    rw [hagree.inside_iff] at ha
    exact absurd (hextra.fresh _ rfl a ha).2 (Nat.not_lt.mpr (hstored.fresh _ rfl a ha').1)
  · rintro rfl
    rw [hg.frame _ (hextra.fresh _ rfl _ (inside_self _ _)).2]
    rfl

end Whole

section Contents

variable {base upper case : Option Value}

/-- What a case adds to the dictionary of the run it adds to the merged one, which is nothing. -/
theorem merge_absorbed {e v : List (String × Value)}
    (hdistinct : ∀ w, some (Value.dict e) = some w → w.Distinct)
    (hwithin : (Value.contents (some (.dict v))).Within (Value.contents (some (.dict e)))) :
    (Value.contents base).merge ((Value.contents (some (.dict e))).merge
        (Value.contents (some (.dict v)))) =
      ((Value.contents base).merge (Value.contents (some (.dict e)))).merge
        (Value.contents (some (.dict v))) := by
  have hoverlay : (Value.contents base).merge (Value.contents (some (.dict e))) =
      Value.contents (Value.overlay base (some (.dict e))) :=
    (Value.contents_overlay hdistinct).symm
  have hmerged : (Value.contents (some (.dict v))).Within
      (Value.contents (Value.overlay base (some (.dict e)))) := by
    intro path x hx
    rw [← hoverlay]
    exact Value.merge_of_contents _ (hwithin path x hx)
  rw [(Value.merge_eq_left_iff _ _).mpr hwithin, hoverlay,
    (Value.merge_eq_left_iff _ _).mpr hmerged]

/-- A dictionary of a case over what is none is the only thing that a merge in two ways may tell
apart, once the case adds nothing to a dictionary of the run. -/
theorem merge_assoc_iff (hdistinct : ∀ w, upper = some w → w.Distinct)
    (hwithin : ∀ e v, upper = some (.dict e) → case = some (.dict v) →
      (Value.contents case).Within (Value.contents upper)) :
    (Value.contents base).merge ((Value.contents upper).merge (Value.contents case)) =
        ((Value.contents base).merge (Value.contents upper)).merge (Value.contents case) ↔
      ∀ b v w, base = some (.dict b) → case = some (.dict v) → upper = some w → w.isDict = false →
        (Value.contents base).merge (Value.contents case) = Value.contents case := by
  cases case with
  | none =>
    rw [Value.merge_none, Contents.merge_absent (Value.contents_none [])]
    exact ⟨fun _ _ _ _ _ hv => (nomatch hv), fun _ => rfl⟩
  | some c =>
    cases upper with
    | none =>
      have hnone : Value.contents none [] = some .dict → c.isDict = false :=
        fun hroot => absurd ((Value.contents_none []).symm.trans hroot) nofun
      rw [Value.merge_none, Value.merge_some hnone]
      exact ⟨fun _ _ _ _ _ _ hw => (nomatch hw), fun _ => rfl⟩
    | some u =>
      cases hc : c.isDict with
      | false =>
        have hother : ∀ f : Contents,
            f.merge (Value.contents (some c)) = Value.contents (some c) := by
          intro f
          refine Contents.merge_other (Option.some_ne_none _) fun _ hdict => ?_
          obtain ⟨v, hv⟩ := Value.contents_root_eq_dict_iff.mp hdict
          cases hv
          cases hc
        simp only [hother]
        exact ⟨fun _ _ _ _ _ _ _ _ => trivial, fun _ => trivial⟩
      | true =>
        obtain ⟨v, rfl⟩ := Value.exists_of_isDict hc
        cases hu : u.isDict with
        | true =>
          obtain ⟨e, rfl⟩ := Value.exists_of_isDict hu
          rw [merge_absorbed hdistinct (hwithin e v rfl rfl)]
          refine ⟨fun _ b v w _ _ hw hother => ?_, fun _ => rfl⟩
          cases hw
          cases hother
        | false =>
          have hroot : Value.contents (some u) [] = some .dict → (Value.dict v).isDict = false := by
            intro hdict
            obtain ⟨e, he⟩ := Value.contents_root_eq_dict_iff.mp hdict
            cases he
            cases hu
          rw [Value.merge_some hroot, Value.merge_some fun _ => hu, Value.merge_some hroot]
          constructor
          · exact fun h _ _ _ _ _ _ _ => h
          · intro h
            by_cases hbase : Value.contents base [] = some .dict
            · obtain ⟨b, rfl⟩ := Value.contents_root_eq_dict_iff.mp hbase
              exact h b v u rfl rfl rfl hu
            · exact Value.merge_some fun hdict => absurd hdict hbase

end Contents

/-- Where the override of the run and that of the case both hold a dictionary, the case's holds
nothing that is not in the run's. Where it has a dictionary in the place of what is none in the
override of the run, this dictionary writes at every path of the tenant's own, or cuts it off. -/
structure Harmless (baseLoader : ConfigLoader) (override : List (String × Value))
    (case : EvalCase) : Prop where
  within : ∀ k e v, override.lookup k = some (.dict e) →
    case.configOverride.lookup k = some (.dict v) →
      (Value.contents (some (.dict v))).Within (Value.contents (some (.dict e)))
  covers : ∀ config, baseLoader case.domainId = .ok config → ∀ k b v w,
    config.lookup k = some (.dict b) → case.configOverride.lookup k = some (.dict v) →
      override.lookup k = some w → w.isDict = false →
        ∀ path, Value.contents (some (.dict b)) path ≠ none → Value.reaches path (.dict v) = true

section Exact

variable {baseLoader : ConfigLoader} {graph : Graph} {override config : List (String × Value)}
  {case : EvalCase} {dataset : List EvalCase}

theorem absorb_eq_iff : (Value.contents (some (.dict override))).absorb
      (Value.contents (some (.dict case.configOverride))) = Value.contents (some (.dict override)) ↔
    ∀ k e v, override.lookup k = some (.dict e) → case.configOverride.lookup k = some (.dict v) →
      (Value.contents (some (.dict v))).Within (Value.contents (some (.dict e))) := by
  have hunder : ∀ kvs k, (Value.contents (some (.dict kvs))).under k =
      Value.contents (kvs.lookup k) := fun kvs k => rfl
  constructor
  · intro h k e v he hv
    rw [← Value.merge_eq_left_iff]
    funext ks
    have hroot : Value.contents (some (.dict override)) [k] = some .dict ∧
        Value.contents (some (.dict case.configOverride)) [k] = some .dict :=
      ⟨congrArg (Value.contents · []) he, congrArg (Value.contents · []) hv⟩
    have hpath := congrFun h (k :: ks)
    simp only [Contents.absorb, hroot, hunder, he, hv] at hpath
    exact hpath.trans (congrArg (Value.contents · ks) he)
  · intro h
    funext path
    cases path with
    | nil => rfl
    | cons k ks =>
      rw [Contents.absorb]
      split
      · rename_i he hv
        obtain ⟨e, he⟩ : ∃ e, override.lookup k = some (.dict e) :=
          Value.contents_root_eq_dict_iff.mp he
        obtain ⟨v, hv⟩ : ∃ v, case.configOverride.lookup k = some (.dict v) :=
          Value.contents_root_eq_dict_iff.mp hv
        rw [hunder, hunder, he, hv, (Value.merge_eq_left_iff _ _).mpr (h k e v he hv)]
        exact (congrArg (Value.contents · ks) he).symm
      · rfl

theorem contents_ownConfig (hoverride : (Value.dict override).Distinct)
    (hcase : (Value.dict case.configOverride).Distinct) :
    Value.contents (some (ownConfig override case config)) =
      ((Value.contents (some (.dict config))).merge (Value.contents (some (.dict override)))).merge
        (Value.contents (some (.dict case.configOverride))) := by
  have hinner : Value.contents (some (Value.deepMerge (some (.dict config)) (.dict override))) =
      (Value.contents (some (.dict config))).merge (Value.contents (some (.dict override))) :=
    Value.contents_overlay fun w hw => Option.some.inj hw ▸ hoverride
  rw [← hinner]
  exact Value.contents_overlay fun w hw => Option.some.inj hw ▸ hcase

theorem seen_under (override config : List (String × Value)) (case : EvalCase) (k : String) :
    (seen (Value.contents (some (.dict override))) case config).under k =
      (Value.contents (config.lookup k)).merge ((Value.contents (override.lookup k)).merge
        (Value.contents (case.configOverride.lookup k))) := by
  rw [seen, Contents.merge_dict rfl rfl, Contents.merge_dict rfl rfl]
  rfl

theorem ownConfig_under (hoverride : (Value.dict override).Distinct)
    (hcase : (Value.dict case.configOverride).Distinct) (k : String) :
    (Value.contents (some (ownConfig override case config))).under k =
      ((Value.contents (config.lookup k)).merge (Value.contents (override.lookup k))).merge
        (Value.contents (case.configOverride.lookup k)) := by
  rw [contents_ownConfig hoverride hcase, Contents.merge_dict rfl rfl, Contents.merge_dict rfl rfl]
  rfl

/-- What a case sees in a run and what it sees alone, key by key. -/
theorem seen_eq_iff (hoverride : (Value.dict override).Distinct)
    (hcase : (Value.dict case.configOverride).Distinct)
    (hwithin : ∀ k e v, override.lookup k = some (.dict e) →
      case.configOverride.lookup k = some (.dict v) →
        (Value.contents (some (.dict v))).Within (Value.contents (some (.dict e)))) :
    seen (Value.contents (some (.dict override))) case config =
        Value.contents (some (ownConfig override case config)) ↔
      ∀ k b v w, config.lookup k = some (.dict b) →
        case.configOverride.lookup k = some (.dict v) → override.lookup k = some w →
          w.isDict = false → ∀ path, Value.contents (some (.dict b)) path ≠ none →
            Value.reaches path (.dict v) = true := by
  have hroot : seen (Value.contents (some (.dict override))) case config [] =
      Value.contents (some (ownConfig override case config)) [] := by
    rw [contents_ownConfig hoverride hcase]
    rfl
  rw [Contents.eq_iff_under hroot]
  refine forall_congr' fun k => ?_
  have hstored : ∀ e v, override.lookup k = some (.dict e) →
      case.configOverride.lookup k = some (.dict v) →
      (Value.contents (case.configOverride.lookup k)).Within
        (Value.contents (override.lookup k)) := by
    intro e v he hv
    rw [he, hv]
    exact hwithin k e v he hv
  rw [seen_under, ownConfig_under hoverride hcase,
    merge_assoc_iff (fun w hw => hoverride.lookup hw) hstored]
  constructor
  · intro h b v w hb hv hw hother
    have hright := h b v w hb hv hw hother
    rw [hb, hv] at hright
    exact (Value.merge_eq_right_iff _ _).mp hright
  · intro h b v w hb hv hw hother
    rw [hb, hv]
    exact (Value.merge_eq_right_iff _ _).mpr (h b v w hb hv hw hother)

theorem execute_eq (dataset : List EvalCase) : execute baseLoader graph override dataset =
    let extra := (Heap.empty.storeDict override).1
    let started := storeCases dataset (Heap.empty.storeDict override).2
    let ended := run baseLoader graph (if override = [] then none else some extra) started.1
      started.2
    (ended.1, ended.2.contents (some (.ref extra))) := rfl

theorem passed_of_empty {h : Heap} {extra : Nat}
    (hempty : override = [] → (h.cell extra).entries = []) :
    (if override = [] then none else some extra) = some extra ∨
      (if override = [] then none else some extra) = none ∧ (h.cell extra).entries = [] := by
  by_cases hnil : override = []
  · rw [if_pos hnil]
    exact .inr ⟨rfl, hempty hnil⟩
  · rw [if_neg hnil]
    exact .inl rfl

theorem run_singleton (x : Option Nat) (case : StoredCase) (h : Heap) :
    run baseLoader graph x [case] h = ((runOne baseLoader graph x case h).1.map fun result =>
      [result], (runOne baseLoader graph x case h).2) := by
  rw [run]
  split
  · rename_i heq
    rw [heq]
    rfl
  · rename_i heq
    rw [heq]
    rfl

/-- A dataset of one case. -/
theorem execute_singleton (hoverride : (Value.dict override).Distinct)
    (hcase : (Value.dict case.configOverride).Distinct)
    (hloader : ∀ tid config, baseLoader tid = .ok config → (Value.dict config).Distinct) :
    execute baseLoader graph override [case] =
      ((graph case ((baseLoader case.domainId).map
          (seen (Value.contents (some (.dict override))) case))).map fun result => [result],
        (Value.contents (some (.dict override))).absorb
          (Value.contents (some (.dict case.configOverride)))) := by
  obtain ⟨hr, hcontents, hempty⟩ :=
    @ready_of_stored override [case] hoverride (List.forall_mem_singleton.mpr hcase)
  obtain ⟨h', hrun, hafter, -, -⟩ := @runOne_spec _ _ _ _ baseLoader graph hr _
    (passed_of_empty hempty) hloader
  rw [hcontents] at hrun hafter
  have hruns : run baseLoader graph
      (if override = [] then none else some (Heap.empty.storeDict override).1)
      (storeCases [case] (Heap.empty.storeDict override).2).1
      (storeCases [case] (Heap.empty.storeDict override).2).2 =
      ((graph case ((baseLoader case.domainId).map
        (seen (Value.contents (some (.dict override))) case))).map fun result => [result], h') :=
    (run_singleton _ _ _).trans
      (congrArg (fun r => (r.1.map fun result => [result], r.2)) hrun)
  rw [execute_eq]
  simp only [hruns]
  rw [hafter]

/-- The cases of a dataset are independent of each other exactly if none of them adds to what the
run's override holds, nor keeps what it takes from the tenant. -/
theorem independent_iff (hoverride : (Value.dict override).Distinct)
    (hdataset : ∀ c ∈ dataset, (Value.dict c.configOverride).Distinct)
    (hloader : ∀ tid config, baseLoader tid = .ok config → (Value.dict config).Distinct) :
    Independent baseLoader override dataset ↔ ∀ c ∈ dataset, Harmless baseLoader override c := by
  constructor
  · intro h c hc
    have hsingle := fun graph : Graph =>
      (execute_singleton hoverride (hdataset c hc) hloader).symm.trans
        (h graph [c] (List.singleton_subperm_iff.mpr hc))
    have hwithin := absorb_eq_iff.mp (congrArg Prod.snd (hsingle fun _ _ => .ok .null))
    refine ⟨hwithin, fun config hconfig => ?_⟩
    refine (seen_eq_iff hoverride (hdataset c hc) hwithin).mp ?_
    -- A graph that tells whether it sees what the case would see alone.
    classical
    have hresult := congrArg Prod.fst (hsingle fun _ loaded => loaded.map fun f =>
      .bool (f = Value.contents (some (ownConfig override c config))))
    rw [List.mapM_cons, List.mapM_nil, alone, hconfig] at hresult
    have hbool := (List.cons.inj (Except.ok.inj hresult)).1
    simpa using hbool
  · intro h graph cases hcases
    have hmem : ∀ c ∈ cases, c ∈ dataset := hcases.subset
    have hcases' := fun c hc => hdataset c (hmem c hc)
    obtain ⟨hr, hcontents, hempty⟩ := ready_of_stored hoverride hcases'
    obtain ⟨-, hmap, -, -⟩ := storeCases_spec hcases' (Heap.empty.storeDict override).2
    have hstored : ∀ c ∈ (storeCases cases (Heap.empty.storeDict override).2).1,
        c.case ∈ cases := by
      intro c hc
      rw [← hmap]
      exact List.mem_map_of_mem hc
    obtain ⟨hresults, hafter⟩ := run_spec hr (passed_of_empty hempty) hloader hcontents
      (fun c hc => absorb_eq_iff.mpr (h c.case (hmem _ (hstored c hc))).within)
      (fun c hc config hconfig => (seen_eq_iff hoverride (hcases' _ (hstored c hc))
        (h c.case (hmem _ (hstored c hc))).within).mpr
          ((h c.case (hmem _ (hstored c hc))).covers config hconfig))
    rw [execute_eq]
    rw [hmap] at hresults
    exact Prod.ext (hresults) hafter

end Exact

def caseWith (name : String) (configOverride : List (String × Value)) : EvalCase where
  caseId := .str name
  question := .str "?"
  domainId := .str "hr"
  expectedChunkIds := []
  mustIncludeKeywords := []
  mustNotIncludeKeywords := []
  expectedFallback := false
  uiMode := .str "chat_structured"
  userContext := []
  configOverride := configOverride
  metadata := []

/-- A graph that tells whether its configuration has a number of results. -/
def readsTopK : Graph := fun _ loaded =>
  loaded.map fun f => .bool (f ["retrieval", "top_k", "fused"]).isSome

def rewriteOff : List (String × Value) :=
  [("retrieval", .dict [("query_rewriting", .dict [("enable", .bool false)])])]

def fewResults : List (String × Value) :=
  [("retrieval", .dict [("top_k", .dict [("fused", .int 3)])])]

def noConfig : ConfigLoader := fun _ => .ok []

theorem distinct_rewriteOff : (Value.dict rewriteOff).Distinct :=
  Value.distinct_single _ (Value.distinct_single _ (Value.distinct_single _ (.other rfl)))

theorem distinct_noConfig (tid : Value) (config : List (String × Value))
    (h : noConfig tid = .ok config) : (Value.dict config).Distinct := by
  cases h
  exact Value.distinct_empty

theorem cases_beside_are_independent :
    Independent noConfig rewriteOff
      [caseWith "rewrite" rewriteOff,
        caseWith "judge" [("judge", .dict [("enable", .bool true)])]] := by
  have hjudge : (Value.dict [("judge", .dict [("enable", .bool true)])]).Distinct :=
    Value.distinct_single _ (Value.distinct_single _ (.other rfl))
  refine (independent_iff distinct_rewriteOff ?_ distinct_noConfig).mpr ?_
  · exact List.forall_mem_cons.mpr ⟨distinct_rewriteOff, List.forall_mem_singleton.mpr hjudge⟩
  · refine List.forall_mem_cons.mpr ⟨⟨?_, ?_⟩, List.forall_mem_singleton.mpr ⟨?_, ?_⟩⟩
    · intro k e v he hv
      rw [show (caseWith "rewrite" rewriteOff).configOverride = rewriteOff from rfl, he] at hv
      cases hv
      exact fun _ _ hx => hx
    · rintro _ ⟨⟩ _ _ _ _ ⟨⟩
    · intro k e v he hv
      obtain ⟨rfl, -⟩ := Prod.mk.inj (List.mem_singleton.mp (Value.mem_of_lookup he))
      have hkey : "retrieval" = "judge" :=
        congrArg Prod.fst (List.mem_singleton.mp (Value.mem_of_lookup hv))
      exact absurd hkey (by decide)
    · rintro _ ⟨⟩ _ _ _ _ ⟨⟩

theorem override_leaks_into_next_case :
    ¬ Independent noConfig rewriteOff [caseWith "top" fewResults, caseWith "plain" []] ∧
      (execute noConfig readsTopK rewriteOff [caseWith "top" fewResults, caseWith "plain" []]).1 =
        .ok [.bool true, .bool true] ∧
      alone noConfig readsTopK rewriteOff (caseWith "plain" []) = .ok (.bool false) := by
  refine ⟨fun h => ?_, by rfl, by rfl⟩
  have hextra := congrFun (congrArg Prod.snd (h readsTopK _ (List.Subperm.refl _)))
    ["retrieval", "top_k", "fused"]
  cases congrArg Option.isSome hextra

end DomainRag.Evaluation
