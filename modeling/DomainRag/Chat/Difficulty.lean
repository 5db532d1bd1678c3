import DomainRag.Chat.Assessment

/-! # The difficulty of a request

A request for questions with and without figures is read twice: once for the questions that are
written, once for the figures and for the plan that is shown. Both readings look for syllables of the
difficulty words in the question, and the first knows two more.
-/

namespace DomainRag.Chat

section Words

/-- The words that ask for hard questions, of more than one syllable. -/
def hardWords : List String := ["어려운", "어렵게", "hard"]

def easyWords : List String := ["쉬운", "쉽게", "easy"]

def difficultyWords : List String := hardWords ++ easyWords ++ ["상", "하"]

/-- The text has the word, and no character of a word before or behind it. -/
def HasWord (wordChar : Char → Bool) (text word : String) : Prop :=
  ∃ pre post, text.toList = pre ++ word.toList ++ post ∧
    (∀ c ∈ pre.getLast?, wordChar c = false) ∧ ∀ c ∈ post.head?, wordChar c = false

variable {q : String}

theorem planDifficulty_eq (q : String) : planDifficulty q =
    if containsAny q hardWords ∨ contains q "상" then "hard"
    else if containsAny q easyWords ∨ contains q "하" then "easy" else "medium" := by
  have hhard : containsAny q ["어려운", "어렵게", "상", "hard"] =
      (containsAny q hardWords || contains q "상") := by
    simp only [containsAny, hardWords, List.any_cons, List.any_nil, Bool.or_false, Bool.or_assoc]
    rw [Bool.or_comm (contains q "상")]
  have heasy : containsAny q ["쉬운", "쉽게", "하", "easy"] =
      (containsAny q easyWords || contains q "하") := by
    simp only [containsAny, easyWords, List.any_cons, List.any_nil, Bool.or_false, Bool.or_assoc]
    rw [Bool.or_comm (contains q "하")]
  simp only [planDifficulty, hhard, heasy, Bool.or_eq_true]

theorem difficultyFromQ_eq (q : String) : difficultyFromQ q =
    if containsAny q hardWords then "hard"
    else if containsAny q easyWords then "easy" else "medium" := rfl

/-- Both readings agree unless one of the two syllables decides the first. -/
theorem planDifficulty_eq_difficultyFromQ_iff : planDifficulty q = difficultyFromQ q ↔
    containsAny q hardWords ∨
      contains q "상" = false ∧ (containsAny q easyWords ∨ contains q "하" = false) := by
  rw [planDifficulty_eq, difficultyFromQ_eq]
  cases containsAny q hardWords <;> cases contains q "상" <;> cases containsAny q easyWords <;>
    cases contains q "하" <;> simp

theorem planDifficulty_eq_medium_iff : planDifficulty q = "medium" ↔
    (containsAny q hardWords = false ∧ contains q "상" = false) ∧
      containsAny q easyWords = false ∧ contains q "하" = false := by
  rw [planDifficulty_eq]
  cases containsAny q hardWords <;> cases contains q "상" <;> cases containsAny q easyWords <;>
    cases contains q "하" <;> simp

end Words

section Requests

def GeneratorCall.difficulty : GeneratorCall → String
  | .text criteria => criteria.difficulty
  | .figure criteria => criteria.difficulty

def GeneratorCall.isFigure : GeneratorCall → Bool
  | .text _ => false
  | .figure _ => true

variable (text : TextOps) {subjects : List String} {question domainId difficulty : String}
  {generate : Nat → GenerateCriteria → Except Exc (List GeneratedItem)}
  {figureReuse : Nat → FigureReuseCriteria → Except Exc FigureReuseResult}

theorem mem_planAssessment {defaults : AssessmentDefaults} {count : Option Int} {e : PlanEntry}
    (h : e ∈ planAssessment text question subjects defaults count) :
    e.difficulty = planDifficulty question := by
  obtain ⟨s, -, rfl⟩ := List.mem_map.mp h
  rfl

theorem mem_textBatches {plan : List PlanEntry} {e : PlanEntry} (h : e ∈ textBatches plan) :
    ∃ p ∈ plan, e.difficulty = p.difficulty := by
  obtain ⟨p, hp, he⟩ := List.mem_flatMap.mp h
  refine ⟨p, hp, ?_⟩
  obtain he | he := List.mem_append.mp he
  · rw [(List.mem_replicate.mp he).2]
  · split at he
    · cases he
    · rw [List.mem_singleton.mp he]

theorem mem_compoundTextItems {textCount : Int} {defaults : AssessmentDefaults} {call : GeneratorCall}
    (h : call ∈ (compoundTextItems text question subjects generate textCount defaults).1) :
    call.isFigure = false ∧ call.difficulty = planDifficulty question := by
  rw [compoundTextItems] at h
  split at h
  · cases h
  · obtain ⟨criteria, hcriteria, rfl⟩ := List.mem_map.mp h
    obtain ⟨e, he, rfl⟩ := List.mem_map.mp hcriteria
    obtain ⟨p, hp, hdifficulty⟩ := mem_textBatches he
    exact ⟨rfl, hdifficulty.trans (mem_planAssessment text hp)⟩

theorem mem_calls_figurePass {count : Int} {tries : List String} {st : FigureState}
    {call : GeneratorCall}
    (h : call ∈ (figurePass text figureReuse domainId count difficulty tries st).calls) :
    call ∈ st.calls ∨ call.isFigure = true ∧ call.difficulty = difficulty := by
  induction tries generalizing st with
  | nil => exact .inl h
  | cons subj rest ih =>
    have hcalled : ∀ criteria : FigureReuseCriteria, criteria.difficulty = difficulty →
        call ∈ st.calls ++ [.figure criteria] →
        call ∈ st.calls ∨ call.isFigure = true ∧ call.difficulty = difficulty := by
      intro criteria hcriteria hmem
      obtain hmem | hmem := List.mem_append.mp hmem
      · exact .inl hmem
      · rw [List.mem_singleton.mp hmem]
        exact .inr ⟨rfl, hcriteria⟩
    rw [figurePass] at h
    split at h
    · exact .inl h
    · dsimp only at h
      split at h
      · exact (ih h).elim (hcalled _ rfl) .inr
      · split at h
        · exact hcalled _ rfl h
        · exact (ih h).elim (hcalled _ rfl) .inr

theorem mem_calls_collectFigureItems {count : Int} {tries : List String} {call : GeneratorCall}
    (h : call ∈ (collectFigureItems text figureReuse domainId count difficulty tries).calls) :
    call.isFigure = true ∧ call.difficulty = difficulty := by
  rw [collectFigureItems] at h
  split at h
  · cases h
  · dsimp only at h
    split at h
    · exact (mem_calls_figurePass text h).resolve_left List.not_mem_nil
    · obtain h | h := mem_calls_figurePass text h
      · exact (mem_calls_figurePass text h).resolve_left List.not_mem_nil
      · exact h

/-- The texts of a compound request get the difficulty of the first reading, its figures and its plan
that of the second. -/
theorem compound_difficulties {total figureCount : Int} {defaults : AssessmentDefaults} :
    (∀ call ∈ (compoundAssessmentBranch text domainId question subjects generate figureReuse total
      figureCount defaults).1, call.difficulty =
        if call.isFigure then difficultyFromQ question else planDifficulty question) ∧
    ∀ e ∈ (compoundAssessmentBranch text domainId question subjects generate figureReuse total
      figureCount defaults).2.plan, e.difficulty = difficultyFromQ question := by
  have hcalls : ∀ call ∈ (compoundTextItems text question subjects generate
        (max 0 (total - figureCount)) defaults).1 ++
      (collectFigureItems text figureReuse domainId figureCount (difficultyFromQ question)
        (tryList text question subjects)).calls, call.difficulty =
          if call.isFigure then difficultyFromQ question else planDifficulty question := by
    intro call hcall
    obtain hcall | hcall := List.mem_append.mp hcall
    · obtain ⟨hkind, hdifficulty⟩ := mem_compoundTextItems text hcall
      rw [hkind, hdifficulty]
      rfl
    · obtain ⟨hkind, hdifficulty⟩ := mem_calls_collectFigureItems text hcall
      rw [hkind, hdifficulty, if_pos rfl]
  rw [compoundAssessmentBranch]
  dsimp only
  split
  · exact ⟨hcalls, List.forall_mem_nil _⟩
  · refine ⟨hcalls, fun e he => ?_⟩
    obtain ⟨item, -, rfl⟩ := List.mem_map.mp he
    rfl

/-- Whatever the two generators answer to a compound request, its texts, its figures and its plan have
one difficulty. -/
def OneDifficulty (text : TextOps) (question : String) : Prop :=
  ∀ domainId subjects generate figureReuse total figureCount defaults, ∃ d,
    (∀ call ∈ (compoundAssessmentBranch text domainId question subjects generate figureReuse total
      figureCount defaults).1, call.difficulty = d) ∧
    ∀ e ∈ (compoundAssessmentBranch text domainId question subjects generate figureReuse total
      figureCount defaults).2.plan, e.difficulty = d

theorem namedSubjects_singleton (question s : String) :
    namedSubjects text question [s] = [] ∨ namedSubjects text question [s] = [s] := by
  simp only [namedSubjects, List.filter_cons, List.filter_nil]
  split
  · exact .inr rfl
  · exact .inl rfl

/-- With one subject in the bank a plan has one entry. -/
theorem planAssessment_singleton (question s : String) :
    planAssessment text question [s] ⟨3, 20, 6⟩ (some 1) =
      [{ subject := some s, count := 1, difficulty := planDifficulty question }] := by
  simp only [planAssessment]
  obtain hnamed | hnamed := namedSubjects_singleton text question s <;>
    cases containsAny question allSubjectsHints <;> rw [hnamed] <;> rfl

theorem tryList_singleton (question s : String) : tryList text question [s] = [s] := by
  rw [tryList]
  obtain hnamed | hnamed := namedSubjects_singleton text question s <;> rw [hnamed] <;> rfl

/-- The calls of a request for one question of each kind, if the figure service fails. -/
theorem calls_pair (domainId question s : String)
    (generate : Nat → GenerateCriteria → Except Exc (List GeneratedItem)) :
    (compoundAssessmentBranch text domainId question [s] generate (fun _ _ => .error ⟨"", ""⟩) 2 1
      ⟨3, 20, 6⟩).1 =
      [.text ⟨some s, planDifficulty question, 1⟩, .figure ⟨s, difficultyFromQ question, 1⟩,
        .figure ⟨s, difficultyFromQ question, 1⟩] := by
  have htexts : (compoundTextItems text question [s] generate 1 ⟨3, 20, 6⟩).1 =
      [.text ⟨some s, planDifficulty question, 1⟩] := by
    rw [compoundTextItems, if_neg (by decide), planAssessment_singleton]
    simp [collectTextItems, textBatches]
  have hfigures : (collectFigureItems text (fun _ _ => .error ⟨"", ""⟩) domainId 1
      (difficultyFromQ question) [s]).calls =
      [.figure ⟨s, difficultyFromQ question, 1⟩, .figure ⟨s, difficultyFromQ question, 1⟩] := rfl
  rw [compoundAssessmentBranch]
  dsimp only
  rw [tryList_singleton, hfigures, show max (0 : Int) (2 - 1) = 1 from rfl, htexts]
  split <;> rfl

theorem oneDifficulty_iff :
    OneDifficulty text question ↔ planDifficulty question = difficultyFromQ question := by
  constructor
  · intro h
    obtain ⟨d, hcalls, -⟩ := h "" ["database"] (fun _ _ => .ok []) (fun _ _ => .error ⟨"", ""⟩) 2 1
      ⟨3, 20, 6⟩
    rw [calls_pair] at hcalls
    simp only [List.forall_mem_cons] at hcalls
    exact hcalls.1.trans hcalls.2.1.symm
  · intro heq domainId subjects generate figureReuse total figureCount defaults
    obtain ⟨hcalls, hplan⟩ := @compound_difficulties text subjects question domainId generate
      figureReuse total figureCount defaults
    refine ⟨difficultyFromQ question, fun call hcall => ?_, hplan⟩
    rw [hcalls call hcall, heq]
    split <;> rfl

/-- A request is understood: it has one difficulty, which is medium if no word asks for another. -/
def Understood (text : TextOps) (wordChar : Char → Bool) (question : String) : Prop :=
  OneDifficulty text question ∧
    ((∀ w ∈ difficultyWords, ¬ HasWord wordChar question w) → planDifficulty question = "medium")

end Requests

end DomainRag.Chat
