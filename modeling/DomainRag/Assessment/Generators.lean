import DomainRag.Assessment.Validator

/-! # What the generators of items share

A generator writes a new item from references in the bank. The bank has the items of all domains,
each under its domain and its id.
-/

namespace DomainRag.Assessment

open Storage (strip)

/-- A letter of the English alphabet or a Hangul syllable. -/
def plainLetter (c : Char) : Bool := c.isAlpha || isHangul c

/-- What is used of Python's texts: `str.lower`, which lowers plain letters where they stand, and
`repr`. -/
structure TextLibrary where
  lower : String → String
  repr : Value → String
  lower_infix : ∀ (s : String) (t : List Char), (∀ c ∈ t, plainLetter c = true) → t <:+: s.toList →
    t.map Char.toLower <:+: (lower s).toList

theorem toLower_infix (s : String) (t : List Char) (_ : ∀ c ∈ t, plainLetter c = true)
    (h : t <:+: s.toList) :
    t.map Char.toLower <:+: (String.ofList (s.toList.map Char.toLower)).toList := by
  rw [String.toList_ofList]
  exact h.map Char.toLower

def contains (text needle : String) : Bool := decide (needle.toList <:+: text.toList)

/-- The term is in the text, in any letter case. -/
def Mentions (text term : String) : Prop := term.toList <:+: text.toList.map Char.toLower

instance (text term : String) : Decidable (Mentions text term) :=
  inferInstanceAs (Decidable (_ <:+: _))

namespace TextLibrary

variable (text : TextLibrary)

/-- The conversion `str(v)`. -/
def str : Value → String
  | .str s => s
  | .null => "None"
  | .bool b => if b then "True" else "False"
  | .int n => toString n
  | .float q => if q = 0 then "0.0" else text.repr (.float q)
  | .list [] => "[]"
  | .dict [] => "\x7b\x7d"
  | v => text.repr v

def normPredictedDifficulty (value : Value) : Option String :=
  let s := text.lower (strip (text.str value))
  if !value.truthy then none
  else if s ∈ ["상", "high", "hard", "어려움", "어렵"] then some "상"
  else if s ∈ ["하", "low", "easy", "쉬움", "쉬"] then some "하"
  else if s ∈ ["중", "medium", "mid", "보통"] then some "중"
  else none

end TextLibrary

/-- An item of the bank. -/
structure ItemRecord where
  itemId : String
  domainId : String
  subject : Option String := none
  chapter : Option String := none
  difficulty : Option String := none
  questionType : Option String := none
  questionText : String := ""
  choices : List Value := []
  answer : String := ""
  explanation : Option String := none
  tags : List Value := []
  qualityStatus : String := "draft"
  qualityScore : Option Score := none
  validatorResults : Dict ValidatorName ValidatorSummary := .empty
  source : Option String := none
  referenceItemIds : List String := []
  assets : List (Option (Dict String Value)) := []
  figureDependent : Bool := false
  predictedDifficulty : Option String := none

section Texts

theorem plainLetter_of_toLower {c : Char} (h : plainLetter c.toLower = true) :
    plainLetter c = true := by
  by_cases hupper : c.isUpper = true
  · have halpha : c.isAlpha = (c.isUpper || c.isLower) := rfl
    simp [plainLetter, halpha, hupper]
  · have hlower : c.toLower = c := dif_neg fun hrange => hupper (decide_eq_true hrange)
    rwa [hlower] at h

/-- Lowering a text shows the terms of plain letters that it mentions. -/
theorem TextLibrary.contains_lower (text : TextLibrary) {s term : String}
    (hterm : ∀ c ∈ term.toList, plainLetter c = true) (h : Mentions s term) :
    contains (text.lower s) term = true := by
  obtain ⟨before, after, happend⟩ := h
  obtain ⟨front, _, hsplit, hfront, -⟩ := List.map_eq_append_iff.mp happend.symm
  obtain ⟨_, t, rfl, -, ht⟩ := List.map_eq_append_iff.mp hfront
  have hletters : ∀ c ∈ t, plainLetter c = true := by
    intro c hc
    refine plainLetter_of_toLower (hterm _ ?_)
    rw [← ht]
    exact List.mem_map_of_mem hc
  have hinfix := text.lower_infix s t hletters ⟨_, _, hsplit.symm⟩
  rw [ht] at hinfix
  exact decide_eq_true hinfix

/-- The texts of the values that count as empty. -/
theorem TextLibrary.str_of_falsy (text : TextLibrary) {v : Value} (h : v.truthy = false) :
    text.str v ∈ ["", "None", "False", "0", "0.0", "[]", "\x7b\x7d"] := by
  cases v with
  | null => simp [str]
  | bool b => simp_all [str, Value.truthy]
  | int n =>
    have hn : n = 0 := by simpa [Value.truthy] using h
    subst hn
    have hzero : text.str (.int 0) = "0" := rfl
    simp [hzero]
  | float q => simp_all [str, Value.truthy]
  | str s => simp_all [str, Value.truthy]
  | list vs =>
    cases vs with
    | nil => simp [str]
    | cons v vs => cases h
  | dict kvs =>
    cases kvs with
    | nil => simp [str]
    | cons e kvs => cases h

theorem Mentions.mono {s s' term : String} (h : Mentions s term) (hs : s.toList <:+: s'.toList) :
    Mentions s' term :=
  List.IsInfix.trans h (hs.map Char.toLower)

/-- A list that loses nothing by `dedup` has no repetitions. -/
theorem le_length_dedup_iff {A : Type} [DecidableEq A] {xs : List A} :
    xs.length ≤ xs.dedup.length ↔ xs.Nodup := by
  rw [← List.dedup_eq_self]
  constructor
  · exact (List.dedup_sublist xs).eq_of_length_le
  · intro h
    rw [h]

theorem infix_intercalate {sep s : String} {ss : List String} (h : s ∈ ss) :
    s.toList <:+: (sep.intercalate ss).toList := by
  rw [String.toList_intercalate, List.intercalate]
  apply List.infix_of_mem_flatten
  induction ss with
  | nil => cases h
  | cons s' ss ih =>
    cases ss with
    | nil =>
      cases List.mem_singleton.mp h
      exact List.mem_singleton_self _
    | cons s'' ss =>
      rw [List.map_cons, List.map_cons, List.intersperse_cons_cons]
      rcases List.mem_cons.mp h with rfl | hmem
      · exact List.mem_cons_self
      · exact List.mem_cons_of_mem _ (List.mem_cons_of_mem _ (ih hmem))

end Texts

structure ExtractCriteria where
  subject : Option String := none
  chapter : Option String := none
  qualityStatus : List String := ["approved"]

structure ItemRows where
  records : Dict (String × String) ItemRecord

namespace ItemRows

variable (rows : ItemRows)

def upsert (record : ItemRecord) : ItemRows :=
  ⟨rows.records.set (record.domainId, record.itemId) record⟩

def listCandidatesForExtract (domainId : String) (criteria : ExtractCriteria) (limit : Nat) :
    List ItemRecord :=
  ((rows.records.entries.filter fun e =>
    e.1.1 = domainId ∧
    (criteria.subject.isNone ∨ e.2.subject = criteria.subject) ∧
    (criteria.chapter.isNone ∨ e.2.chapter = criteria.chapter) ∧
    (criteria.qualityStatus = [] ∨ e.2.qualityStatus ∈ criteria.qualityStatus)).map
      Prod.snd).take limit

end ItemRows

end DomainRag.Assessment
