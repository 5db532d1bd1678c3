import Mathlib.Algebra.BigOperators.Group.List.Basic
import Mathlib.Data.List.Basic
import DomainRag.Chat.Assessment

/-! # How many questions are set

The configuration bounds the number of questions of one answer. The generated ones are cut off at the
bound; the ones with figures come in addition to them, or are bounded by five when no others are
asked for.
-/

namespace DomainRag.Chat

/-- No call is answered with more items than it asks for. -/
structure AssessmentServices.Bounded (services : AssessmentServices) : Prop where
  texts : ∀ generate, services.generate = some generate → ∀ i criteria items,
    generate i criteria = .ok items → items.length ≤ criteria.count.toNat
  figures : ∀ figureReuse, services.figureReuse = some figureReuse → ∀ i criteria res,
    figureReuse i criteria = .ok res → res.items.length ≤ criteria.count.toNat

section Lengths

theorem length_sliceTo {A : Type} {xs : List A} {n : Int} (h : 0 ≤ n) :
    ((sliceTo xs n).length : Int) = min n xs.length := by
  rw [sliceTo, if_pos h, List.length_take]
  omega

variable {text : TextOps} {generate : Nat → GenerateCriteria → Except Exc (List GeneratedItem)}

/-- What the batches of a plan ask for together. -/
def asked (plan : List PlanEntry) : Nat := (plan.map fun e => e.count.toNat).sum

theorem asked_textBatches (plan : List PlanEntry) : asked (textBatches plan) = asked plan := by
  induction plan with
  | nil => rfl
  | cons e plan ih =>
    have hbatches : textBatches (e :: plan) = textBatches [e] ++ textBatches plan := by
      simp [textBatches]
    have hone : asked (textBatches [e]) = e.count.toNat := by
      have hsplit := Nat.div_add_mod e.count.toNat 5
      rw [asked, textBatches]
      simp only [List.flatMap_cons, List.flatMap_nil, List.append_nil, List.map_append,
        List.map_replicate, List.sum_append, List.sum_replicate]
      split
      · simp
        omega
      · simp
        omega
    rw [hbatches]
    rw [asked] at ih hone ⊢
    rw [List.map_append, List.sum_append, ih, hone]
    rfl

def answered (text : TextOps) (generate : Nat → GenerateCriteria → Except Exc (List GeneratedItem))
    (call : GenerateCriteria × Nat) : List AssessmentItem :=
  match generate call.2 call.1 with
  | .error _ => []
  | .ok items => items.map fun it => itemToDict text it none

theorem length_answered_le (text : TextOps) (h : ∀ i criteria items, generate i criteria = .ok items →
      items.length ≤ criteria.count.toNat) (plan : List PlanEntry) (i : Nat) :
    (((plan.map fun e => GenerateCriteria.mk e.subject e.difficulty e.count).zipIdx i).flatMap
      (answered text generate)).length ≤ asked plan := by
  induction plan generalizing i with
  | nil => exact Nat.le_refl 0
  | cons e plan ih =>
    have hfirst : (answered text generate (⟨e.subject, e.difficulty, e.count⟩, i)).length ≤
        e.count.toNat := by
      rw [answered]
      split
      · exact Nat.zero_le _
      · rename_i items hitems
        have hle := h _ _ _ hitems
        simp only [List.length_map] at hle ⊢
        omega
    rw [List.map_cons, List.zipIdx_cons, List.flatMap_cons, List.length_append, asked, List.map_cons,
      List.sum_cons]
    exact Nat.add_le_add hfirst (ih (i + 1))

theorem length_collectTextItems {plan : List PlanEntry} {maxTotal : Int} (h : 0 ≤ maxTotal) :
    ((collectTextItems text generate plan maxTotal).2.length : Int) = min maxTotal
      ((((textBatches plan).map fun e => GenerateCriteria.mk e.subject e.difficulty e.count).zipIdx.flatMap
        (answered text generate)).length) :=
  length_sliceTo h

theorem length_collectTextItems_le (text : TextOps) (plan : List PlanEntry) (hbounded :
      ∀ i criteria items, generate i criteria = .ok items → items.length ≤ criteria.count.toNat)
    {maxTotal : Int} (h : 0 ≤ maxTotal) :
    ((collectTextItems text generate plan maxTotal).2.length : Int) ≤ min maxTotal (asked plan) := by
  have hle := length_answered_le text hbounded (textBatches plan) 0
  rw [asked_textBatches] at hle
  rw [length_collectTextItems h]
  omega

/-- A generator that answers with as many items as it is asked for. -/
def fullText (item : GeneratedItem) (_ : Nat) (criteria : GenerateCriteria) :
    Except Exc (List GeneratedItem) :=
  .ok (List.replicate criteria.count.toNat item)

theorem length_answered_fullText (item : GeneratedItem) (plan : List PlanEntry) (i : Nat) :
    (((plan.map fun e => GenerateCriteria.mk e.subject e.difficulty e.count).zipIdx i).flatMap
      (answered text (fullText item))).length = asked plan := by
  induction plan generalizing i with
  | nil => rfl
  | cons e plan ih =>
    rw [List.map_cons, List.zipIdx_cons, List.flatMap_cons, List.length_append, asked, List.map_cons,
      List.sum_cons, ih (i + 1), answered, fullText]
    simp only [List.length_map, List.length_replicate]
    rfl

theorem length_collectTextItems_fullText (text : TextOps) (item : GeneratedItem)
    (plan : List PlanEntry) {maxTotal : Int} (h : 0 ≤ maxTotal) :
    ((collectTextItems text (fullText item) plan maxTotal).2.length : Int) =
      min maxTotal (asked plan) := by
  rw [length_collectTextItems h, length_answered_fullText, asked_textBatches]

end Lengths

section Figures

variable {text : TextOps} {figureReuse : Nat → FigureReuseCriteria → Except Exc FigureReuseResult}
  {domainId difficulty : String} {count : Int}

theorem length_figurePass_le (text : TextOps) (domainId difficulty : String) (hbounded :
      ∀ i criteria res, figureReuse i criteria = .ok res → res.items.length ≤ criteria.count.toNat)
    (tries : List String) {st : FigureState}
    (h : (st.items.length : Int) ≤ count) :
    ((figurePass text figureReuse domainId count difficulty tries st).items.length : Int) ≤ count := by
  induction tries generalizing st with
  | nil => exact h
  | cons subj tries ih =>
    rw [figurePass]
    split
    · exact h
    · simp only
      split
      · exact ih h
      · rename_i res hres
        split
        · exact h
        · refine ih ?_
          have hle := hbounded _ _ _ hres
          simp only [List.length_append, List.length_map] at hle ⊢
          omega

theorem length_collectFigureItems_le (text : TextOps) (domainId difficulty : String) (hbounded :
      ∀ i criteria res, figureReuse i criteria = .ok res → res.items.length ≤ criteria.count.toNat)
    (h : 0 ≤ count) (tries : List String) :
    ((collectFigureItems text figureReuse domainId count difficulty tries).items.length : Int) ≤
      count := by
  rw [collectFigureItems]
  split
  · exact h
  · have hfirst : ((figurePass text figureReuse domainId count difficulty (tries.take 8)
        {}).items.length : Int) ≤ count :=
      length_figurePass_le text domainId difficulty hbounded (tries.take 8) h
    simp only
    split
    · exact hfirst
    · exact length_figurePass_le _ _ _ hbounded _ hfirst

theorem collectFigureItems_nil :
    (collectFigureItems text figureReuse domainId count difficulty []).items = [] := by
  rw [collectFigureItems]
  split <;> rfl

/-- A generator of figure questions that answers with as many items as it is asked for. -/
def fullFigures (item : GeneratedItem) (_ : Nat) (criteria : FigureReuseCriteria) :
    Except Exc FigureReuseResult :=
  .ok ⟨List.replicate criteria.count.toNat item, false, 0⟩

theorem figurePass_of_le (tries : List String) {st : FigureState}
    (h : count ≤ (st.items.length : Int)) :
    figurePass text figureReuse domainId count difficulty tries st = st := by
  cases tries with
  | nil => rfl
  | cons subj tries => rw [figurePass, if_pos h]

theorem length_collectFigureItems_fullFigures (text : TextOps) (domainId difficulty : String)
    (item : GeneratedItem) (h : 0 < count) {tries : List String} (htries : tries ≠ []) :
    ((collectFigureItems text (fullFigures item) domainId count difficulty tries).items.length : Int) =
      count := by
  obtain ⟨subj, tries, rfl⟩ := List.exists_cons_of_ne_nil htries
  have hnot : ¬ count ≤ ((({} : FigureState).items.length : Nat) : Int) := by simpa using h
  have hfirst : ((figurePass text (fullFigures item) domainId count difficulty ((subj :: tries).take 8)
      {}).items.length : Int) = count ∧ (figurePass text (fullFigures item) domainId count difficulty
        ((subj :: tries).take 8) {}).vlmUnavailable = false := by
    rw [List.take_succ_cons, figurePass, if_neg hnot]
    simp only [fullFigures, Bool.false_eq_true, if_false]
    rw [figurePass_of_le]
    · simp
      omega
    · simp
  rw [collectFigureItems, if_neg (by omega)]
  simp only [hfirst.2, Bool.false_or]
  have hsome : (figurePass text (fullFigures item) domainId count difficulty ((subj :: tries).take 8)
      {}).items.isEmpty = false := by
    rw [List.isEmpty_eq_false_iff]
    intro hnil
    rw [hnil] at hfirst
    simp at hfirst
    omega
  rw [hsome]
  exact hfirst.1

end Figures

section Branches

variable (text : TextOps) (domainId question : String) (subjects : List String)

/-- How many questions the figure branch tries to set. -/
def figureBranchCount : Int :=
  max 1 (min (((text.figureCounts question).head?.map fun n => (n : Int)).getD 1) 5)

variable {text domainId question subjects}

theorem items_figureReuseBranch
    (figureReuse : Nat → FigureReuseCriteria → Except Exc FigureReuseResult) :
    (figureReuseBranch text domainId question subjects figureReuse).2.items =
      (collectFigureItems text figureReuse domainId (figureBranchCount text question)
        (difficultyFromQ question) (tryList text question subjects)).items := by
  rw [figureReuseBranch]
  split
  · rename_i hnil
    exact (List.isEmpty_iff.mp hnil).symm
  · rfl

theorem items_compoundAssessmentBranch
    (generate : Nat → GenerateCriteria → Except Exc (List GeneratedItem))
    (figureReuse : Nat → FigureReuseCriteria → Except Exc FigureReuseResult)
    (total figureCount : Int) (defaults : AssessmentDefaults) :
    (compoundAssessmentBranch text domainId question subjects generate figureReuse total figureCount
        defaults).2.items =
      (compoundTextItems text question subjects generate (max 0 (total - figureCount)) defaults).2 ++
        (collectFigureItems text figureReuse domainId figureCount (difficultyFromQ question)
          (tryList text question subjects)).items := by
  rw [compoundAssessmentBranch]
  split
  · rename_i hnil
    exact (List.isEmpty_iff.mp hnil).symm
  · rfl

theorem tryList_nil : tryList text question [] = [] := rfl

theorem tryList_ne_nil (text : TextOps) (question : String) (h : subjects ≠ []) :
    tryList text question subjects ≠ [] := by
  rw [tryList]
  split
  · exact h
  · rename_i hnamed
    exact fun hnil => hnamed (List.isEmpty_iff.mpr hnil)

theorem planAssessment_nil (defaults : AssessmentDefaults) (countOverride : Option Int) :
    planAssessment text question [] defaults countOverride = [] := rfl

end Branches

/-- The questions that may be set for a text: those that the plan asks for and those with figures, or
those of the figure branch alone. -/
def Fits (text : TextOps) (defaults : AssessmentDefaults) (subjects : List String)
    (question : String) : Prop :=
  let (total, figureCount) := parseAssessmentCounts text question defaults
  if 0 < figureCount ∧ figureCount < total then
    asked (planAssessment text question subjects defaults (some (max 0 (total - figureCount)))) +
      figureCount ≤ defaults.maxTotal
  else figureBranchCount text question ≤ defaults.maxTotal

/-- However the generators answer, no more questions are set than the configuration allows. -/
def Capped (text : TextOps) (summary : Option (String → Except Exc (List (String × Int))))
    (figures : Bool) (cfg : AssessmentSection) (domainId question : String) : Prop :=
  ∀ services : AssessmentServices, services.analyticsSummary = summary →
    services.figureReuse.isSome = figures → services.Bounded →
    ((assessment text services cfg domainId question).2.items.length : Int) ≤
      (assessmentDefaults cfg).maxTotal

section Bound

variable {text : TextOps} {domainId question : String} {subjects : List String}
  {defaults : AssessmentDefaults} {services : AssessmentServices} {cfg : AssessmentSection}
  {generate : Nat → GenerateCriteria → Except Exc (List GeneratedItem)}
  {figureReuse : Nat → FigureReuseCriteria → Except Exc FigureReuseResult}

theorem length_compoundTextItems_le (text : TextOps) (question : String) (subjects : List String)
    (textCount : Int) (hbounded : ∀ i criteria items,
      generate i criteria = .ok items → items.length ≤ criteria.count.toNat)
    (h : 0 ≤ defaults.maxTotal) :
    ((compoundTextItems text question subjects generate textCount defaults).2.length : Int) ≤
      asked (planAssessment text question subjects defaults (some textCount)) := by
  rw [compoundTextItems]
  split
  · exact Int.natCast_nonneg _
  · have hle := length_collectTextItems_le text
      (planAssessment text question subjects defaults (some textCount)) hbounded h
    omega

/-- What a branch with figures sets at most. -/
theorem length_figureBranches_le (hbounded : services.Bounded)
    (hgenerate : services.generate = some generate)
    (hfigures : services.figureReuse = some figureReuse) (h : 1 ≤ defaults.maxTotal)
    (hfits : subjects = [] ∨ Fits text defaults subjects question) :
    (((let (total, figureCount) := parseAssessmentCounts text question defaults
      if 0 < figureCount ∧ figureCount < total then
        compoundAssessmentBranch text domainId question subjects generate figureReuse total
          figureCount defaults
      else figureReuseBranch text domainId question subjects figureReuse).2.items.length : Nat) : Int)
      ≤ defaults.maxTotal := by
  obtain ⟨htexts, hfigs⟩ := hbounded
  have htexts := htexts generate hgenerate
  have hfigs := hfigs figureReuse hfigures
  rw [Fits] at hfits
  generalize parseAssessmentCounts text question defaults = counts at hfits ⊢
  obtain ⟨total, figureCount⟩ := counts
  simp only at hfits ⊢
  split
  · rename_i hcompound
    rw [if_pos hcompound] at hfits
    rw [items_compoundAssessmentBranch, List.length_append]
    have htotal : 0 ≤ defaults.maxTotal := by omega
    have hle := length_compoundTextItems_le text question subjects (max 0 (total - figureCount)) htexts
      htotal
    have hle' := length_collectFigureItems_le text domainId (difficultyFromQ question) hfigs
      hcompound.1.le (tryList text question subjects)
    obtain rfl | hfits := hfits
    · rw [planAssessment_nil, asked] at hle
      rw [tryList_nil, collectFigureItems_nil]
      simp only [List.map_nil, List.sum_nil, List.length_nil] at hle ⊢
      omega
    · push_cast
      omega
  · rename_i hcompound
    rw [if_neg hcompound] at hfits
    rw [items_figureReuseBranch]
    have hcount : 0 ≤ figureBranchCount text question := by
      rw [figureBranchCount]
      omega
    have hle := length_collectFigureItems_le text domainId (difficultyFromQ question) hfigs hcount
      (tryList text question subjects)
    obtain rfl | hfits := hfits
    · rw [tryList_nil, collectFigureItems_nil]
      simp only [List.length_nil]
      omega
    · omega

/-- The generators that answer as they are asked set all of it. -/
theorem length_figureBranches_full (domainId : String) (item : GeneratedItem) (h : 1 ≤ defaults.maxTotal)
    (hsubjects : subjects ≠ []) (hle :
      (((let (total, figureCount) := parseAssessmentCounts text question defaults
        if 0 < figureCount ∧ figureCount < total then
          compoundAssessmentBranch text domainId question subjects (fullText item) (fullFigures item)
            total figureCount defaults
        else figureReuseBranch text domainId question subjects
          (fullFigures item)).2.items.length : Nat) : Int) ≤ defaults.maxTotal) :
    Fits text defaults subjects question := by
  rw [Fits]
  generalize parseAssessmentCounts text question defaults = counts at hle ⊢
  obtain ⟨total, figureCount⟩ := counts
  simp only at hle ⊢
  split
  · rename_i hcompound
    rw [if_pos hcompound, items_compoundAssessmentBranch, List.length_append] at hle
    have hfigures := length_collectFigureItems_fullFigures text domainId (difficultyFromQ question)
      item hcompound.1 (tryList_ne_nil text question hsubjects)
    have hpositive : ¬ max 0 (total - figureCount) ≤ 0 := by omega
    rw [compoundTextItems, if_neg hpositive] at hle
    have htotal : 0 ≤ defaults.maxTotal := by omega
    have htexts := length_collectTextItems_fullText text item
      (planAssessment text question subjects defaults (some (max 0 (total - figureCount)))) htotal
    push_cast at hle
    omega
  · rename_i hcompound
    have hcount : 0 < figureBranchCount text question := by
      rw [figureBranchCount]
      omega
    have hfigures := length_collectFigureItems_fullFigures text domainId (difficultyFromQ question)
      item hcount (tryList_ne_nil text question hsubjects)
    rw [if_neg hcompound, items_figureReuseBranch, hfigures] at hle
    exact hle

/-- Without figures, what is set is cut off at the bound. -/
theorem length_plain_le (plan : List PlanEntry) (h : 1 ≤ defaults.maxTotal) :
    ((collectTextItems text generate plan defaults.maxTotal).2.length : Int) ≤ defaults.maxTotal := by
  rw [length_collectTextItems (by omega)]
  exact Int.min_le_left _ _

theorem bounded_full (item : GeneratedItem)
    (summary : Option (String → Except Exc (List (String × Int)))) :
    AssessmentServices.Bounded ⟨some (fullText item), summary, some (fullFigures item)⟩ where
  texts := by
    rintro _ ⟨⟩ i criteria _ ⟨⟩
    rw [List.length_replicate]
  figures := by
    rintro _ ⟨⟩ i criteria _ ⟨⟩
    rw [List.length_replicate]

def bankSubjects (summary : Option (String → Except Exc (List (String × Int)))) (domainId : String) :
    List String :=
  availableSubjects ⟨none, summary, none⟩ domainId

theorem availableSubjects_eq {summary : Option (String → Except Exc (List (String × Int)))}
    (h : services.analyticsSummary = summary) :
    availableSubjects services domainId = bankSubjects summary domainId := by
  rw [bankSubjects, availableSubjects, availableSubjects, h]

end Bound

/-- The host's text functions on texts without capitals, with the numbers that a text asks for. -/
def numbered (counts : List (Nat × Nat)) : TextOps where
  lower := id
  strip := id
  splitLines s := [s]
  quote := id
  counts _ := counts
  figureCounts _ := counts.map Prod.snd
  labelled _ := false

def databaseOnly : Option (String → Except Exc (List (String × Int))) :=
  some fun _ => .ok [("database", 40)]

def anyItem : GeneratedItem := ⟨some "database", none, none, "q", [], "1", none, none⟩

end DomainRag.Chat
