import DomainRag.Assessment.Conservation

/-! # When a paper can be parsed

Whatever a paper looks like, an answer that the parser gives is the choice at its place. It gives no
result at all if a number is too long to be read, if a choice has a text before the first question,
or if a question has four choices and its answer is at none of their places.
-/

namespace DomainRag.Assessment

/-- The pages of the questions. A page with a negative index is among them. -/
def questionPages (pageTexts : List String) (ansIdx : Int) : List String :=
  (pageTexts.zipIdx.filter fun e => (e.2 : Int) ≠ ansIdx).map Prod.fst

/-- The page of the answer key, by default the last one. -/
def keyPage (pageTexts : List String) (answerPageIndex : Option Int) : Int :=
  answerPageIndex.getD (pageTexts.length - 1)

def PageInRange (pageTexts : List String) (answerPageIndex : Option Int) : Prop :=
  ∀ i, answerPageIndex = some i → -pageTexts.length ≤ i ∧ i < pageTexts.length

def AnswerAmongChoices (item : ParsedExamItem) : Prop :=
  ∀ v, item.answerValue = some v → ∃ i, item.answerIndex = some i ∧ item.choices[i]? = some v

/-- The parser returns a result, and every answer of it is the choice at its place. -/
def ParsesSafely (parser : ExamPaperParser) (pageTexts : List String)
    (answerPageIndex : Option Int) : Prop :=
  ∃ result, parser.parse pageTexts answerPageIndex = .ok result ∧
    ∀ item ∈ result.items, AnswerAmongChoices item

/-- The numbers and lines of a paper can be read, and no answer of a question with four choices has
four smaller glyphs in the key. -/
structure WellFormed (lines : List String) (answerPage : String) : Prop where
  key : ReadableKey answerPage
  readable : ReadableLines lines
  answers : AnswersInRange lines (keyPlace? answerPage)

variable {parser : ExamPaperParser} {pageTexts : List String} {answerPageIndex : Option Int}
  {key : Dict Nat Nat} {raw : RawItem} {item : ParsedExamItem}

theorem exists_pyGet {A : Type} {xs : List A} {i : Int} (hle : -xs.length ≤ i) (hlt : i < xs.length) :
    ∃ x, pyGet xs i = .ok x := by
  have hbound : (if i < 0 then i + xs.length else i).toNat < xs.length := by
    split <;> omega
  have hneg : ¬ (i + xs.length < 0) := by omega
  rw [pyGet, List.getElem?_eq_getElem hbound]
  exact ⟨_, if_neg hneg⟩

theorem PageInRange.exists_answerPage (h : PageInRange pageTexts answerPageIndex)
    (hpages : pageTexts ≠ []) :
    ∃ answerPage, pyGet pageTexts (keyPage pageTexts answerPageIndex) = .ok answerPage := by
  have hlength := List.length_pos_iff.mpr hpages
  cases hindex : answerPageIndex with
  | none =>
    apply exists_pyGet
    · rw [keyPage, Option.getD_none]
      omega
    · rw [keyPage, Option.getD_none]
      omega
  | some i =>
    obtain ⟨hle, hlt⟩ := h i hindex
    exact exists_pyGet hle hlt

theorem answerAmongChoices_of_assemble (h : parser.assemble key raw = .ok item) :
    AnswerAmongChoices item := by
  intro v hv
  have hassembles := assembles_of_ok h
  obtain ⟨value, hvalue, h⟩ := Except.bind_eq_ok_iff.mp h
  cases h
  cases hi : key.get? raw.number with
  | none =>
    rw [hi] at hvalue
    cases hvalue
    cases hv
  | some i =>
    rw [hi, answerValueOf] at hvalue
    split at hvalue
    · rename_i hfour
      obtain ⟨w, hw, hvw⟩ := hassembles.value (RawItem.nonempty_iff.mp hfour) i hi
      refine ⟨i, rfl, ?_⟩
      rw [hassembles.choices, hw, ← hvw, hv]
    · cases hvalue
      cases hv

theorem returns_parseAnswerKey_iff {answerPage : String} :
    Returns (parseAnswerKey answerPage) ↔ ReadableKey answerPage := by
  constructor
  · rintro ⟨⟨answers, places⟩, h⟩
    exact (parseAnswerKey_eq_ok_iff.mp h).1
  · intro h
    exact ⟨_, parseAnswerKey_eq_ok_iff.mpr ⟨h, rfl, rfl⟩⟩

theorem paper_eq_ok_iff {ansIdx : Int} {raws : List RawItem} {answers : Dict Nat Char}
    {places : Dict Char Nat} : parser.paper pageTexts ansIdx = .ok (raws, answers, places) ↔
      ∃ answerPage, pyGet pageTexts ansIdx = .ok answerPage ∧
        parseAnswerKey answerPage = .ok (answers, places) ∧
        readLines (parser.cleanLines (questionPages pageTexts ansIdx)) = .ok raws := by
  rw [ExamPaperParser.paper, Except.bind_eq_ok_iff]
  refine exists_congr fun answerPage => and_congr_right fun _ => ?_
  constructor
  · intro h
    obtain ⟨⟨answers', places'⟩, hkey, h⟩ := Except.bind_eq_ok_iff.mp h
    obtain ⟨raws', hraws, h⟩ := Except.bind_eq_ok_iff.mp h
    cases h
    exact ⟨hkey, hraws⟩
  · rintro ⟨hkey, hraws⟩
    exact Except.bind_eq_ok_iff.mpr ⟨_, hkey, Except.bind_eq_ok_iff.mpr ⟨raws, hraws, rfl⟩⟩

/-- A paper is parsed exactly if it is well formed. -/
theorem returns_parse_iff {answerPage : String} (hpages : pageTexts ≠ [])
    (hpage : pyGet pageTexts (keyPage pageTexts answerPageIndex) = .ok answerPage) :
    Returns (parser.parse pageTexts answerPageIndex) ↔ WellFormed
      (parser.cleanLines (questionPages pageTexts (keyPage pageTexts answerPageIndex)))
      answerPage := by
  have hlines : ∀ ln ∈ parser.cleanLines
      (questionPages pageTexts (keyPage pageTexts answerPageIndex)), ln ≠ "" :=
    fun ln => ExamPaperParser.ne_of_mem_cleanLines
  have hplaces : ∀ {answers places}, parseAnswerKey answerPage = .ok (answers, places) →
      (answersIdx answers places).get? = keyPlace? answerPage :=
    fun hkey => funext (get?_answersIdx hkey)
  rw [ExamPaperParser.parse, if_neg hpages, ← keyPage]
  constructor
  · intro hreturns
    obtain ⟨⟨raws, answers, places⟩, hpaper, hreturns⟩ := returns_bind_iff.mp hreturns
    obtain ⟨page, hpage', hkey, hraws⟩ := paper_eq_ok_iff.mp hpaper
    cases hpage.symm.trans hpage'
    obtain ⟨items, hitems, -⟩ := returns_bind_iff.mp hreturns
    constructor
    · exact returns_parseAnswerKey_iff.mp ⟨_, hkey⟩
    · exact (returns_readLines_iff hlines).mp ⟨raws, hraws⟩
    · rw [← hplaces hkey]
      exact (returns_mapM_assemble_iff hlines hraws).mp ⟨items, hitems⟩
  · rintro ⟨hkey, hreadable, hanswers⟩
    obtain ⟨⟨answers, places⟩, hkey⟩ := returns_parseAnswerKey_iff.mpr hkey
    obtain ⟨raws, hraws⟩ := (returns_readLines_iff hlines).mpr hreadable
    have hpaper := paper_eq_ok_iff.mpr ⟨answerPage, hpage, hkey, hraws⟩
    rw [← hplaces hkey] at hanswers
    obtain ⟨items, hitems⟩ := (returns_mapM_assemble_iff hlines hraws).mpr hanswers
    exact returns_bind_iff.mpr ⟨_, hpaper, returns_bind_iff.mpr ⟨items, hitems, returns_ok _⟩⟩

theorem answerAmongChoices_of_parse {result : ExamParseResult}
    (h : parser.parse pageTexts answerPageIndex = .ok result) :
    ∀ item ∈ result.items, AnswerAmongChoices item := by
  rw [ExamPaperParser.parse] at h
  split at h
  · cases h
    exact List.forall_mem_nil _
  · obtain ⟨⟨raws, answers, places⟩, -, h⟩ := Except.bind_eq_ok_iff.mp h
    obtain ⟨items, hitems, h⟩ := Except.bind_eq_ok_iff.mp h
    cases h
    intro item hitem
    obtain ⟨raw, -, hassemble⟩ := exists_of_mem_mapM hitems hitem
    exact answerAmongChoices_of_assemble hassemble

/-- The parser is safe for a page in range exactly if the paper with that page as its key is well
formed. -/
theorem parse_safe_iff (h : PageInRange pageTexts answerPageIndex) :
    ParsesSafely parser pageTexts answerPageIndex ↔
      ∀ answerPage, pyGet pageTexts (keyPage pageTexts answerPageIndex) = .ok answerPage →
        WellFormed
          (parser.cleanLines (questionPages pageTexts (keyPage pageTexts answerPageIndex)))
          answerPage := by
  have hsafe : ParsesSafely parser pageTexts answerPageIndex ↔
      Returns (parser.parse pageTexts answerPageIndex) := by
    constructor
    · rintro ⟨result, hresult, -⟩
      exact ⟨result, hresult⟩
    · rintro ⟨result, hresult⟩
      exact ⟨result, hresult, answerAmongChoices_of_parse hresult⟩
  rw [hsafe]
  by_cases hpages : pageTexts = []
  · subst hpages
    have hnone : ∀ i answerPage, pyGet ([] : List String) i ≠ .ok answerPage := nofun
    exact ⟨fun _ answerPage hpage => absurd hpage (hnone _ _), fun _ => ⟨{}, rfl⟩⟩
  · obtain ⟨answerPage, hpage⟩ := h.exists_answerPage hpages
    rw [returns_parse_iff hpages hpage]
    constructor
    · intro hformed page hpage'
      cases hpage.symm.trans hpage'
      exact hformed
    · exact fun hall => hall answerPage hpage

theorem parse_safe_one : ParsesSafely {} (onePage ++ ["1\n②"]) none := by
  have hrange : PageInRange (onePage ++ ["1\n②"]) none := nofun
  refine (parse_safe_iff hrange).mpr ?_
  intro answerPage hpage
  obtain rfl : "1\n②" = answerPage := Except.ok.inj hpage
  have hlines : ExamPaperParser.cleanLines {} (questionPages (onePage ++ ["1\n②"])
      (keyPage (onePage ++ ["1\n②"]) none)) = oneQuestion := cleanLines_onePage
  have hkey : LaidOut "1\n②" [⟨[1], [1], by decide, rfl⟩] := ⟨by decide +kernel, by decide⟩
  rw [hlines]
  constructor
  · unfold ReadableKey OverlongNumber
    decide +kernel
  · rw [readableLines_iff markersFollow_oneQuestion]
    decide +kernel
  · intro n _ _ k hk
    obtain ⟨g, hg, rfl⟩ := Option.map_eq_some_iff.mp hk
    obtain ⟨p, hp, rfl⟩ := (hkey.get?_keyAnswers n g).mp hg
    obtain ⟨rfl, rfl⟩ := Prod.mk.inj (List.mem_singleton.mp hp)
    decide +kernel

/-- A choice before the first question keeps the parser from returning a result. -/
theorem early_choice_raises : ¬ ∀ (parser : ExamPaperParser) pageTexts answerPageIndex,
    PageInRange pageTexts answerPageIndex → ParsesSafely parser pageTexts answerPageIndex := by
  intro h
  obtain ⟨result, hresult, -⟩ := h {} ["① 가", "1\n①"] none nofun
  have hnone : (ExamPaperParser.parse {} ["① 가", "1\n①"] none).toOption.isNone = true := by
    decide +kernel
  rw [hresult] at hnone
  cases hnone

end DomainRag.Assessment
