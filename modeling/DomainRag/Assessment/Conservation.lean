import DomainRag.Assessment.Ledger
import DomainRag.Assessment.Answerable

/-! # No line of a paper is lost

The questions of a paper are numbered from one and hold every line from the first of them on exactly
once. Only two things keep the parser from returning them: a number that is too long to be read, and
a question with four choices whose answer is at none of their places.
-/

namespace DomainRag.Assessment

open Storage (strip)

section Items

/-- The questions of some pages, with the places of their answers. -/
def ExamPaperParser.parseQuestions (parser : ExamPaperParser) (questionPages : List String)
    (answersIdx : Dict Nat Nat) : Except Exc (List ParsedExamItem) := do
  let raws ← parser.rawItems questionPages
  raws.mapM (parser.assemble answersIdx)

def choiceText (lines : List String) (n : Nat) (i : Fin 4) : String :=
  strip (String.join (textsFor lines n (.choice i)))

/-- An item is the question `n` of some lines: it has the label of the last header above its line,
and its fields are the texts of the lines that belong to them, in their order. -/
structure ItemOf (lines : List String) (n : Nat) (item : ParsedExamItem) : Prop where
  number : item.number = n
  label : ∃ front, OpensBehind lines n front ∧
    item.subjectLabel = (headerAbove front).elim .null .str
  question : item.questionText = strip (String.join (textsFor lines n .question))
  choices : item.choices = List.ofFn (choiceText lines n)

/-- The text of a line without its number or its marker. -/
inductive TextOf (ln : String) : String → Prop
  | whole : TextOf ln ln
  | behindNumber {digits : List Char} {text : String}
    (h : numbered? ln.toList = some (digits, text)) : TextOf ln text
  | behindMarker {c : Char} {cs : List Char} (h : ln.toList = c :: cs)
    (hmarker : (circled? c).isSome) : TextOf ln (lstrip cs)

/-- A line is a header, or it contributes its text to one of the items, or it comes before the first
question. -/
def Contributes (items : List ParsedExamItem) (ln : String) : Option Piece → Prop
  | none => (subjectHeader? ln.toList).isSome
  | some p => TextOf ln p.text ∧ (p.number = 0 ∨ ∃ item ∈ items, item.number = p.number)

/-- The items are numbered from one, and every line has exactly one entry in the ledger that they
are made of. -/
structure Conserves (lines : List String) (items : List ParsedExamItem) : Prop where
  numbered : ∀ i item, items[i]? = some item → ItemOf lines (i + 1) item
  covered : List.Forall₂ (Contributes items) lines (ledger {} lines)

/-- No choice comes before the first question. -/
def MarkersFollow (lines : List String) : Prop :=
  ∀ front ln back, lines = front ++ ln :: back → (cursorAfter front).number = 0 →
    ∀ i text, lineKind 0 ln ≠ .marked i text

/-- A question with four choices has no answer or one of these. -/
def AnswersInRange (lines : List String) (place? : Nat → Option Nat) : Prop :=
  ∀ n, 0 < n → (∀ i, choiceText lines n i ≠ "") → ∀ k, place? n = some k → k < 4

end Items

section Proof

variable {parser : ExamPaperParser} {lines : List String} {ln text : String} {n : Nat}
  {key : Dict Nat Nat} {raw : RawItem} {raws : List RawItem} {item : ParsedExamItem}

def LineKind.text? : LineKind → Option String
  | .opening text => some text
  | .marked _ text => some text
  | _ => none

/-- The kind of a line tells its text behind the number or the marker. -/
theorem textOf_lineKind (h : (lineKind n ln).text? = some text) : TextOf ln text := by
  have hmarker : (markerKind ln).text? = some text → TextOf ln text := by
    intro h
    unfold markerKind at h
    split at h
    · cases h
    · rename_i c cs hcs
      split at h
      · rename_i i hi
        cases h
        exact .behindMarker hcs (hi ▸ rfl)
      · cases h
  unfold lineKind at h
  split at h
  · cases h
  · split at h
    · rename_i hnumbered
      split at h
      · cases h
        exact .behindNumber hnumbered
      · exact hmarker h
    · exact hmarker h

theorem Cursor.textOf_piece? {c : Cursor} {p : Piece} (h : c.piece? ln = some p) :
    TextOf ln p.text := by
  rw [Cursor.piece?] at h
  split at h
  · cases h
  · rename_i hkind
    cases h
    exact textOf_lineKind (n := c.number) (by rw [hkind]; rfl)
  · rename_i hkind
    cases h
    exact textOf_lineKind (n := c.number) (by rw [hkind]; rfl)
  · cases h
    exact .whole

theorem Cursor.isSome_header {c : Cursor} (h : c.piece? ln = none) :
    (subjectHeader? ln.toList).isSome := by
  rw [← header?_lineKind c.number]
  rw [Cursor.piece?] at h
  split at h
  · rename_i hkind
    rw [hkind]
    rfl
  all_goals cases h

/-- The entries of a ledger belong to the questions that the lines open. -/
theorem forall₂_ledger (c : Cursor) (lines : List String) :
    List.Forall₂ (fun ln p? => match p? with
      | none => (subjectHeader? ln.toList).isSome = true
      | some p => TextOf ln p.text ∧ p.number ≤ (lines.foldl Cursor.next c).number)
      lines (ledger c lines) := by
  induction lines generalizing c with
  | nil => exact .nil
  | cons ln lines ih =>
    refine .cons ?_ (ih (c.next ln))
    cases hp : c.piece? ln with
    | none => exact Cursor.isSome_header hp
    | some p =>
      refine ⟨Cursor.textOf_piece? hp, ?_⟩
      have hnext : p.number = (c.next ln).number := by rw [Cursor.next, hp]
      rw [hnext]
      exact (c.next ln).le_foldl lines

theorem RawOf.texts_eq (h : RawOf lines n raw) : raw.texts = List.ofFn (choiceText lines n) := by
  refine congrArg List.ofFn (funext fun i => ?_)
  rw [choiceText, ← h.texts (.choice i), RawItem.pieces]

theorem RawOf.texts_ne_iff (h : RawOf lines n raw) :
    (∀ c ∈ raw.texts, c ≠ "") ↔ ∀ i, choiceText lines n i ≠ "" := by
  rw [h.texts_eq]
  exact List.forall_mem_ofFn_iff (P := fun c => c ≠ "")

theorem number_label_of_assemble (h : parser.assemble key raw = .ok item) :
    item.number = raw.number ∧ item.subjectLabel = raw.subjectNo.elim .null .str := by
  obtain ⟨answerValue, -, h⟩ := Except.bind_eq_ok_iff.mp h
  cases h
  exact ⟨rfl, rfl⟩

theorem RawOf.itemOf (hraw : RawOf lines n raw) (h : parser.assemble key raw = .ok item) :
    ItemOf lines n item := by
  obtain ⟨hnumber, hlabel⟩ := number_label_of_assemble h
  have hassembles := assembles_of_ok h
  constructor
  · rw [hnumber, hraw.number]
  · obtain ⟨front, hfront, hsubject⟩ := hraw.label
    exact ⟨front, hfront, by rw [hlabel, hsubject]⟩
  · rw [hassembles.text, RawItem.questionText, ← hraw.texts .question]
    rfl
  · rw [hassembles.choices, hraw.texts_eq]

/-- The questions of a paper are assembled unless one has its answer at none of its four choices. -/
theorem returns_mapM_assemble_iff (hlines : ∀ ln ∈ lines, ln ≠ "")
    (hraws : readLines lines = .ok raws) :
    Returns (raws.mapM (parser.assemble key)) ↔ AnswersInRange lines key.get? := by
  obtain ⟨hcount, hraw⟩ := rawOf_readLines hlines hraws
  simp only [returns_mapM_iff, returns_assemble_iff]
  constructor
  · intro h n hn htexts k hk
    obtain hlt | hge := Nat.lt_or_ge (n - 1) raws.length
    · have hrawOf := hraw _ _ (List.getElem?_eq_getElem hlt)
      rw [Nat.sub_add_cancel hn] at hrawOf
      refine h _ (List.getElem_mem hlt) (hrawOf.texts_ne_iff.mpr htexts) k ?_
      rw [hrawOf.number, hk]
    · have hbeyond : (cursorAfter lines).number < n := by omega
      have hnil := textsFor_of_lt hbeyond (.choice 0)
      refine absurd ?_ (htexts 0)
      rw [choiceText, hnil]
      decide
  · intro h raw hmem htexts k hk
    obtain ⟨i, hi⟩ := List.mem_iff_getElem?.mp hmem
    have hrawOf := hraw i raw hi
    refine h (i + 1) (Nat.succ_pos i) (hrawOf.texts_ne_iff.mp htexts) k ?_
    rw [← hrawOf.number, hk]

theorem conserves_of_mapM {items : List ParsedExamItem} (hlines : ∀ ln ∈ lines, ln ≠ "")
    (hraws : readLines lines = .ok raws)
    (hitems : raws.mapM (parser.assemble key) = .ok items) : Conserves lines items := by
  obtain ⟨hcount, hraw⟩ := rawOf_readLines hlines hraws
  have hforall := mapM_eq_ok_iff.mp hitems
  have hitem : ∀ i item, items[i]? = some item → ItemOf lines (i + 1) item := by
    intro i item hi
    obtain ⟨raw, hraw', hassemble⟩ := getElem?_of_forall₂_right hforall hi
    exact (hraw i raw hraw').itemOf hassemble
  refine ⟨hitem, (forall₂_ledger {} lines).imp fun ln p? h => ?_⟩
  cases p? with
  | none => exact h
  | some p =>
    refine ⟨h.1, ?_⟩
    obtain hzero | hpos := Nat.eq_zero_or_pos p.number
    · exact .inl hzero
    · have hlt : p.number - 1 < items.length := by
        have hle := h.2
        have hlength := hforall.length_eq
        rw [← cursorAfter] at hle
        omega
      refine .inr ⟨_, List.getElem_mem hlt, ?_⟩
      rw [(hitem _ _ (List.getElem?_eq_getElem hlt)).number, Nat.sub_add_cancel hpos]

theorem readableLines_iff (h : MarkersFollow lines) :
    ReadableLines lines ↔ ∀ ln ∈ lines, ¬ OverlongLine ln := by
  constructor
  · intro hreadable ln hln
    obtain ⟨front, back, heq⟩ := List.append_of_mem hln
    exact (hreadable front ln back heq).1
  · intro hshort front ln back heq
    refine ⟨hshort ln (heq ▸ List.mem_append_right front List.mem_cons_self), ?_⟩
    intro i text hkind hzero
    exact absurd (hzero ▸ hkind) (h front ln back heq hzero i text)

theorem ExamPaperParser.ne_of_mem_cleanLines {pages : List String}
    (h : ln ∈ parser.cleanLines pages) : ln ≠ "" := by
  rintro rfl
  obtain ⟨-, hand⟩ := List.mem_filter.mp h
  have hstrip : strip "" = "" := by decide
  simp [hstrip] at hand

/-- The parser conserves the lines of a paper in which no choice comes before the first question,
exactly if it can read the numbers of the lines and no answer is out of range. -/
theorem parseQuestions_conserves_iff {questionPages : List String}
    (hmarkers : MarkersFollow (parser.cleanLines questionPages)) :
    (∃ items, parser.parseQuestions questionPages key = .ok items ∧
      Conserves (parser.cleanLines questionPages) items) ↔
    (∀ ln ∈ parser.cleanLines questionPages, ¬ OverlongLine ln) ∧
      AnswersInRange (parser.cleanLines questionPages) key.get? := by
  have hlines : ∀ ln ∈ parser.cleanLines questionPages, ln ≠ "" :=
    fun ln => ExamPaperParser.ne_of_mem_cleanLines
  rw [← readableLines_iff hmarkers, ← returns_readLines_iff hlines,
    ExamPaperParser.parseQuestions, rawItems_eq]
  constructor
  · rintro ⟨items, hitems, -⟩
    obtain ⟨raws, hraws, hitems⟩ := Except.bind_eq_ok_iff.mp hitems
    exact ⟨⟨raws, hraws⟩, (returns_mapM_assemble_iff hlines hraws).mp ⟨items, hitems⟩⟩
  · rintro ⟨⟨raws, hraws⟩, hrange⟩
    obtain ⟨items, hitems⟩ := (returns_mapM_assemble_iff hlines hraws).mpr hrange
    exact ⟨items, Except.bind_eq_ok_iff.mpr ⟨raws, hraws, hitems⟩,
      conserves_of_mapM hlines hraws hitems⟩

/-- In a paper that starts with its first question every choice belongs to a question. -/
theorem markersFollow_of_opening (h : lineKind 0 ln = .opening text) :
    MarkersFollow (ln :: lines) := by
  intro front l back heq hzero i text' hkind
  cases front with
  | nil =>
    cases heq
    cases h.symm.trans hkind
  | cons l' front =>
    cases heq
    have hle := (Cursor.next {} ln).le_foldl front
    have hone : (Cursor.next {} ln).number = 1 := by
      rw [Cursor.next, Cursor.piece?, h]
    rw [cursorAfter, List.foldl_cons] at hzero
    omega

end Proof

section Runs

def onePage : List String := ["1. 첫 번째 문제는 무엇인가?\n① 가\n② 나\n2022. 다\n③ 라\n④ 마"]

def oneQuestion : List String :=
  ["1. 첫 번째 문제는 무엇인가?", "① 가", "② 나", "2022. 다", "③ 라", "④ 마"]

theorem cleanLines_onePage : ExamPaperParser.cleanLines {} onePage = oneQuestion := by
  decide +kernel

theorem markersFollow_oneQuestion : MarkersFollow oneQuestion := by
  have hkind : lineKind 0 "1. 첫 번째 문제는 무엇인가?" = .opening "첫 번째 문제는 무엇인가?" := by
    decide +kernel
  exact markersFollow_of_opening hkind

theorem parseQuestions_conserves_one : ∃ items,
    ExamPaperParser.parseQuestions {} onePage (.ofList [(1, 2)]) = .ok items ∧
      Conserves (ExamPaperParser.cleanLines {} onePage) items := by
  refine (parseQuestions_conserves_iff ?_).mpr ⟨?_, ?_⟩
  · rw [cleanLines_onePage]
    exact markersFollow_oneQuestion
  · rw [cleanLines_onePage]
    decide +kernel
  · intro n _ _ k hk
    have hmem := (Dict.get?_ofList_iff (by decide)).mp hk
    obtain ⟨-, rfl⟩ := Prod.mk.inj (List.mem_singleton.mp hmem)
    decide

/-- A question with four choices whose answer is a fifth glyph keeps the parser from returning any
question. -/
theorem fifth_place_raises : ¬ ∀ (parser : ExamPaperParser) questionPages answersIdx,
    MarkersFollow (parser.cleanLines questionPages) →
      ∃ items, parser.parseQuestions questionPages answersIdx = .ok items ∧
        Conserves (parser.cleanLines questionPages) items := by
  intro h
  obtain ⟨items, hitems, -⟩ := h {} onePage (.ofList [(1, 4)])
    (by rw [cleanLines_onePage]; exact markersFollow_oneQuestion)
  have hnone : (ExamPaperParser.parseQuestions {} onePage (.ofList [(1, 4)])).toOption.isNone =
      true := by
    rw [ExamPaperParser.parseQuestions, rawItems_eq, cleanLines_onePage]
    decide +kernel
  rw [hitems] at hnone
  cases hnone

end Runs

end DomainRag.Assessment
