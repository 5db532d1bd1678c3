import Mathlib.Data.List.Pairwise
import DomainRag.Assessment.Answerable

/-! # A bank of questions over imports and reviews

An import recognizes a question by its text and its choices, and names it by a prefix and its
number. The two need not agree: a question that is not in the bank is written in the place of the
item that has its name.
-/

namespace DomainRag.Assessment

open Program Storage

/-- The items of all domains, each under its domain and its id. -/
structure ItemRepository where
  records : Dict (String × String) AssessmentItemRecord

namespace ItemRepository

variable (repo : ItemRepository)

def get (domainId itemId : String) : Option AssessmentItemRecord :=
  repo.records.get? (domainId, itemId)

def upsert (record : AssessmentItemRecord) : ItemRepository :=
  ⟨repo.records.set (record.domainId, record.itemId) record⟩

def listActiveDedupPairs (domainId : String) : List (String × List Value) :=
  (repo.records.entries.filter fun e =>
    e.1.1 = domainId ∧ e.2.qualityStatus ≠ "retired").map fun e => (e.2.questionText, e.2.choices)

def updateQuality (domainId itemId : String) (qualityStatus : Option String) : ItemRepository :=
  match repo.get domainId itemId with
  | none => repo
  | some r => ⟨repo.records.set (domainId, itemId)
      { r with qualityStatus := qualityStatus.getD r.qualityStatus }⟩

/-- `selects` tells which ids the filters of the request match. -/
def bulkApprove (domainId : String) (selects : String → Bool) : ItemRepository :=
  ⟨repo.records.mapValues fun key r =>
    if key.1 = domainId ∧ (r.qualityStatus = "draft" ∨ r.qualityStatus = "reviewed") ∧
      selects key.2 then { r with qualityStatus := "approved" } else r⟩

end ItemRepository

structure ItemBank (W : Type) where
  world : W
  items : ItemRepository

abbrev StoreFigure (W : Type) :=
  (domainId itemId : String) → ExtractedFigure → Program Exc W AssetRecord

def bankBacking {W : Type} (storeFigure : StoreFigure W) : Backing W ItemRepository where
  listActiveDedupPairs repo domainId := .ok (repo.listActiveDedupPairs domainId)
  upsert repo record := .ok (repo.upsert record)
  storeFigure := storeFigure

/-- What happens to the bank: an import, with what the extractor and the storage answer during it,
or an edit of a reviewer. -/
inductive BankOp (W : Type) where
  | importPdf (extractor : ItemExtractor) (furnitureMinPages : Nat) (storeFigure : StoreFigure W)
      (call : ImportCall) (pdf : ExtractedPdf)
  | updateQuality (domainId itemId : String) (qualityStatus : Option String)
  | bulkApprove (domainId : String) (selects : String → Bool)

/-- The item is in use, and its text is long enough to be recognized. -/
structure Recognizable (r : AssessmentItemRecord) : Prop where
  active : r.qualityStatus ≠ "retired"
  long : 10 ≤ r.questionText.length

/-- What an import must not change of an item. -/
structure SameItem (r r' : AssessmentItemRecord) : Prop where
  questionText : r'.questionText = r.questionText
  choices : r'.choices = r.choices
  answer : r'.answer = r.answer
  qualityStatus : r'.qualityStatus = r.qualityStatus

theorem SameItem.refl (r : AssessmentItemRecord) : SameItem r r := ⟨rfl, rfl, rfl, rfl⟩

section Steps

variable {W : Type} (rules : TextRules) (sha256 : Bytes → String)

def importService (extractor : ItemExtractor) (furnitureMinPages : Nat) :
    AssessmentImportService :=
  ⟨extractor, rules, sha256, furnitureMinPages⟩

def recordKey (r : AssessmentItemRecord) : String := dedupKey rules r.questionText r.choices

/-- No two recognizable items of a domain have the same key. -/
def ItemRepository.Distinct (repo : ItemRepository) : Prop :=
  ∀ domainId id id' r r', repo.get domainId id = some r → repo.get domainId id' = some r' →
    Recognizable r → Recognizable r' → recordKey rules r = recordKey rules r' → id = id'

/-- The questions of a paper that are not recognized. -/
def newQuestions (repo : ItemRepository) (extractor : ItemExtractor) (call : ImportCall)
    (pdf : ExtractedPdf) : List ParsedExamItem :=
  match extractor.extract pdf.pageTexts (some (answerPage call pdf)) with
  | .ok parsed => fresh (ParsedExamItem.dedupKey? · rules)
      ((repo.listActiveDedupPairs call.domainId).map fun pair => dedupKey rules pair.1 pair.2)
      parsed.items
  | .error _ => []

namespace BankOp

def after (b : ItemBank W) : BankOp W → ItemBank W
  | .importPdf extractor furnitureMinPages storeFigure call pdf =>
    let s := ((importService rules sha256 extractor furnitureMinPages).importPdf
      (bankBacking storeFigure) call pdf).final ⟨b.world, b.items, []⟩
    ⟨s.world, s.rows⟩
  | .updateQuality domainId itemId qualityStatus =>
    { b with items := b.items.updateQuality domainId itemId qualityStatus }
  | .bulkApprove domainId selects => { b with items := b.items.bulkApprove domainId selects }

/-- An import leaves every item that was there as it was. -/
def Keeps (b : ItemBank W) : BankOp W → Prop
  | .importPdf extractor furnitureMinPages storeFigure call pdf =>
    ∀ domainId id r, b.items.get domainId id = some r →
      ∃ r', (after rules sha256 b
        (.importPdf extractor furnitureMinPages storeFigure call pdf)).items.get domainId id =
          some r' ∧ SameItem r r'
  | .updateQuality _ _ _ | .bulkApprove _ _ => True

/-- The operation destroys no item and leaves no item twice. -/
structure Safe (b : ItemBank W) (op : BankOp W) : Prop where
  keeps : op.Keeps rules sha256 b
  distinct : (op.after rules sha256 b).items.Distinct rules

/-- A new question does not take the name of an item that differs from it, and a retired item is
not taken back into use while another one has its key. -/
def Harmless (b : ItemBank W) : BankOp W → Prop
  | .importPdf extractor _ _ call pdf =>
    ∀ item ∈ newQuestions rules b.items extractor call pdf,
      ∀ r, b.items.get call.domainId (call.itemIdPrefix ++ pad3 item.number) = some r →
        SameItem r (AssessmentImportService.recordOf call item [] [])
  | .updateQuality domainId itemId qualityStatus =>
    ∀ r, b.items.get domainId itemId = some r → r.qualityStatus = "retired" →
      Recognizable { r with qualityStatus := qualityStatus.getD r.qualityStatus } →
        ∀ id' r', b.items.get domainId id' = some r' → Recognizable r' →
          recordKey rules r ≠ recordKey rules r'
  | .bulkApprove _ _ => True

end BankOp

end Steps

section Fresh

variable {A : Type} {key? : A → Option String} {seenKeys : List String} {as : List A}

theorem notMem_of_fresh {a : A} (h : a ∈ fresh key? seenKeys as) {key : String}
    (hkey : key? a = some key) : key ∉ seenKeys := by
  induction as generalizing seenKeys with
  | nil => cases h
  | cons b rest ih =>
    rw [fresh] at h
    split at h
    · rename_i hnone
      obtain rfl | h := List.mem_cons.mp h
      · cases hkey.symm.trans hnone
      · exact ih h
    · rename_i k hk
      split at h
      · exact ih h
      · rename_i hnot
        obtain rfl | h := List.mem_cons.mp h
        · cases hkey.symm.trans hk
          exact hnot
        · exact fun hmem => ih h (List.mem_cons_of_mem k hmem)

/-- No two entries that are kept have the same key. -/
theorem pairwise_fresh : (fresh key? seenKeys as).Pairwise
    fun a b => ∀ key, key? a = some key → key? b ≠ some key := by
  induction as generalizing seenKeys with
  | nil => exact .nil
  | cons b rest ih =>
    rw [fresh]
    split
    · rename_i hnone
      refine List.pairwise_cons.mpr ⟨fun a _ key hkey => ?_, ih⟩
      cases hkey.symm.trans hnone
    · rename_i k hk
      split
      · exact ih
      · refine List.pairwise_cons.mpr ⟨fun a ha key hkey hsame => ?_, ih⟩
        cases hkey.symm.trans hk
        exact notMem_of_fresh ha hsame List.mem_cons_self

end Fresh

section Stripped

variable {rules : TextRules} {repo : ItemRepository} {extractor : ItemExtractor}
  {call : ImportCall} {pdf : ExtractedPdf} {item : ParsedExamItem}

/-- Both extractors strip the texts of their questions. -/
theorem stripped_of_extract {pageTexts : List String} {ansIdx : Int} {parsed : ExamParseResult}
    (h : extractor.extract pageTexts (some ansIdx) = .ok parsed) (hitem : item ∈ parsed.items) :
    strip item.questionText = item.questionText := by
  cases extractor with
  | ruleBased parser =>
    obtain hnil | ⟨raws, key, -, hitems⟩ := ExamPaperParser.reads_of_parse h
    · exact absurd (hnil ▸ hitem) List.not_mem_nil
    · obtain ⟨raw, -, hassembles⟩ := exists_of_mem_forall₂ hitems.flip hitem
      rw [hassembles.text]
      exact strip_strip _
  | llm x =>
    rw [ItemExtractor.extract] at h
    split at h
    · rename_i result calls hrun
      cases h
      refine (forall_extract (P := fun item => strip item.questionText = item.questionText)
        (fun entry item hentry => ?_) fun sourceIsHangul key item hold => ?_).of_ok hrun item hitem
      · obtain ⟨-, text, -, htext, -⟩ := (itemOf_ok hentry).2 item rfl
        rw [htext]
        exact strip_strip text
      · rw [LlmItemExtractor.withAnswer]
        split
        · split <;> exact hold
        · exact hold
    · cases h

theorem stripped_of_new (h : item ∈ newQuestions rules repo extractor call pdf) :
    strip item.questionText = item.questionText := by
  rw [newQuestions] at h
  split at h
  · rename_i parsed hparsed
    exact stripped_of_extract hparsed (mem_of_fresh h)
  · cases h

/-- A new question that is long enough has a key. -/
theorem dedupKey?_of_long (h : item ∈ newQuestions rules repo extractor call pdf)
    (hlong : 10 ≤ item.questionText.length) : item.dedupKey? rules =
      some (dedupKey rules item.questionText (item.choices.map .str)) := by
  rw [ParsedExamItem.dedupKey?, Assessment.dedupKey?, stripped_of_new h, if_pos hlong]

end Stripped

section Imported

variable {W : Type} {service : AssessmentImportService} {storeFigure : StoreFigure W}
  {call : ImportCall} {pdf : ExtractedPdf}

abbrev upsertAll (repo : ItemRepository) (new : List (ParsedExamItem × AssessmentItemRecord)) :
    ItemRepository :=
  new.foldl (fun repo e => repo.upsert e.2) repo

/-- The rows have changed by the questions that were stored. -/
def Tracks (s s' : ImportState W ItemRepository) : Prop :=
  ∃ new, s'.stored = s.stored ++ new ∧ s'.rows = upsertAll s.rows new

instance : Std.Refl (Tracks (W := W)) := ⟨fun s => ⟨[], (List.append_nil s.stored).symm, rfl⟩⟩

instance : IsTrans (ImportState W ItemRepository) Tracks := by
  refine ⟨?_⟩
  rintro s s' s'' ⟨new, hstored, hrows⟩ ⟨new', hstored', hrows'⟩
  refine ⟨new ++ new', ?_, ?_⟩
  · rw [hstored', hstored, List.append_assoc]
  · rw [hrows', hrows, upsertAll, upsertAll, upsertAll, List.foldl_append]

theorem follows_onWorld {A : Type} (x : Program Exc W A) :
    Follows Tracks (onWorld x : ImportTask W ItemRepository A) := by
  intro s
  have hsame : ∀ world, Tracks s { s with world := world } :=
    fun _ => ⟨[], (List.append_nil s.stored).symm, rfl⟩
  unfold Ensures onWorld
  cases x s.world with
  | ok a world => exact hsame world
  | error e world => exact hsame world

theorem follows_storeItem (ansIdx : Int) (result : ImportResult) (item : ParsedExamItem) :
    Follows Tracks (service.storeItem (bankBacking storeFigure) call pdf ansIdx result item) := by
  refine .bind (.mapM (fun _ => follows_onWorld _) _) fun assets s => ?_
  rw [ensures_bind, ensures_get, ensures_bind, ensures_ofExcept]
  refine ⟨?_, nofun⟩
  rintro _ ⟨⟩
  rw [ensures_bind, ensures_set]
  exact ⟨[_], rfl, rfl⟩

theorem follows_importPdf :
    Follows Tracks (service.importPdf (bankBacking storeFigure) call pdf) := by
  refine .bind (follows_ofExcept _) fun parsed s => ?_
  rw [ensures_bind, ensures_get]
  refine Follows.bind (follows_ofExcept _) (fun pairs => .bind ?_ fun _ => follows_pure _) s
  refine .foldlM (fun acc item => ?_) _ _
  rw [AssessmentImportService.importItem]
  split
  · exact .bind (follows_storeItem _ _ _) fun _ => follows_pure _
  · split
    · exact follows_pure _
    · exact .bind (follows_storeItem _ _ _) fun _ => follows_pure _

variable {rules : TextRules} {sha256 : Bytes → String} {extractor : ItemExtractor}
  {furnitureMinPages : Nat} {b : ItemBank W}

/-- An import writes records of new questions, from the first one on. -/
theorem exists_imported (rules : TextRules) (sha256 : Bytes → String) (b : ItemBank W)
    (extractor : ItemExtractor) (furnitureMinPages : Nat) (storeFigure : StoreFigure W)
    (call : ImportCall) (pdf : ExtractedPdf) :
    ∃ new, ((BankOp.importPdf extractor furnitureMinPages storeFigure call pdf).after rules sha256
        b).items = upsertAll b.items new ∧
      new.map Prod.fst <+: newQuestions rules b.items extractor call pdf ∧
      ∀ e ∈ new, RecordOf call e.1 e.2 := by
  let service := importService rules sha256 extractor furnitureMinPages
  let s₀ : ImportState W ItemRepository := ⟨b.world, b.items, []⟩
  obtain ⟨new, hnew, hrows⟩ : Tracks s₀ ((service.importPdf (bankBacking storeFigure) call
      pdf).final s₀) := Ensures.final (follows_importPdf s₀)
  refine ⟨new, hrows, ?_⟩
  have hpairs : (bankBacking storeFigure).listActiveDedupPairs s₀.rows call.domainId =
      .ok (b.items.listActiveDedupPairs call.domainId) := rfl
  rw [newQuestions]
  cases hparsed : extractor.extract pdf.pageTexts (some (answerPage call pdf)) with
  | ok parsed =>
    have hok : service.itemExtractor.extract pdf.pageTexts (some (answerPage call pdf)) =
        .ok parsed := hparsed
    obtain ⟨new', hnew', hpre, hrecords⟩ := stored_of_ok hpairs hok
    obtain rfl : new = new' := List.append_cancel_left (hnew.symm.trans hnew')
    exact ⟨hpre, hrecords⟩
  | error e =>
    have hnone : ((service.importPdf (bankBacking storeFigure) call pdf).final s₀).stored = [] :=
      stored_of_error hparsed
    obtain rfl : new = [] := List.append_eq_nil_iff.mp (hnew.symm.trans hnone) |>.2
    exact ⟨List.nil_prefix, List.forall_mem_nil _⟩

end Imported

section Lookup

variable {repo : ItemRepository} {domainId id : String} {r : AssessmentItemRecord}

theorem get_upsert (repo : ItemRepository) (record : AssessmentItemRecord) (domainId id : String) :
    (repo.upsert record).get domainId id =
      if domainId = record.domainId ∧ id = record.itemId then some record
      else repo.get domainId id := by
  simp only [ItemRepository.get, ItemRepository.upsert, Dict.get?_set, Prod.mk.injEq]

/-- An item is one of those written last, or it was there before. -/
theorem get_upsertAll {new : List (ParsedExamItem × AssessmentItemRecord)}
    (h : (upsertAll repo new).get domainId id = some r) :
    (∃ e ∈ new, e.2 = r ∧ r.domainId = domainId ∧ r.itemId = id) ∨
      repo.get domainId id = some r := by
  induction new generalizing repo with
  | nil => exact .inr h
  | cons e new ih =>
    obtain ⟨e', he', hr⟩ | hold := ih h
    · exact .inl ⟨e', List.mem_cons_of_mem e he', hr⟩
    · rw [get_upsert] at hold
      split at hold
      · rename_i hkey
        cases hold
        exact .inl ⟨e, List.mem_cons_self, rfl, hkey.1.symm, hkey.2.symm⟩
      · exact .inr hold

theorem isSome_get_upsertAll (new : List (ParsedExamItem × AssessmentItemRecord))
    (h : (repo.get domainId id).isSome) : ((upsertAll repo new).get domainId id).isSome := by
  induction new generalizing repo with
  | nil => exact h
  | cons e new ih =>
    refine ih ?_
    rw [get_upsert]
    split
    · rfl
    · exact h

theorem mem_dedupPairs (h : repo.get domainId id = some r) (hactive : r.qualityStatus ≠ "retired") :
    (r.questionText, r.choices) ∈ repo.listActiveDedupPairs domainId :=
  List.mem_map.mpr ⟨((domainId, id), r), List.mem_filter.mpr
    ⟨Dict.get?_eq_some_iff.mp h, decide_eq_true ⟨rfl, hactive⟩⟩, rfl⟩

end Lookup

section Distinct

variable {W : Type} {rules : TextRules} {sha256 : Bytes → String} {b : ItemBank W}
  {repo repo' : ItemRepository} {extractor : ItemExtractor} {furnitureMinPages : Nat}
  {storeFigure : StoreFigure W} {call : ImportCall} {pdf : ExtractedPdf}

theorem keeps_import
    (h : (BankOp.importPdf extractor furnitureMinPages storeFigure call pdf).Harmless rules b) :
    (BankOp.importPdf extractor furnitureMinPages storeFigure call pdf).Keeps rules sha256 b := by
  obtain ⟨new, hitems, hpre, hrecords⟩ := exists_imported rules sha256 b extractor
    furnitureMinPages storeFigure call pdf
  intro domainId id r hr
  obtain ⟨r', hr'⟩ := Option.isSome_iff_exists.mp
    (isSome_get_upsertAll new (Option.isSome_iff_exists.mpr ⟨r, hr⟩))
  refine ⟨r', (congrArg (·.get domainId id) hitems).trans hr', ?_⟩
  obtain ⟨e, he, rfl, rfl, rfl⟩ | hold := get_upsertAll hr'
  · have hitem := hpre.subset (List.mem_map_of_mem (f := Prod.fst) he)
    obtain ⟨figs, assets, hrecord⟩ := hrecords e he
    rw [hrecord] at hr ⊢
    obtain ⟨htext, hchoices, hanswer, hstatus⟩ := h e.1 hitem r hr
    exact ⟨htext, hchoices, hanswer, hstatus⟩
  · cases hr.symm.trans hold
    exact .refl r

/-- What an import writes is in use if its call says so. -/
theorem not_retired_of_import {domainId id : String} {r : AssessmentItemRecord}
    (hstatus : call.defaultQualityStatus ≠ "retired")
    (h : ((BankOp.importPdf extractor furnitureMinPages storeFigure call pdf).after rules sha256
      b).items.get domainId id = some r) :
    r.qualityStatus ≠ "retired" ∨ b.items.get domainId id = some r := by
  obtain ⟨new, hitems, -, hrecords⟩ := exists_imported rules sha256 b extractor
    furnitureMinPages storeFigure call pdf
  rw [hitems] at h
  refine (get_upsertAll h).imp_left ?_
  rintro ⟨e, he, rfl, -, -⟩
  obtain ⟨figs, assets, hrecord⟩ := hrecords e he
  rw [hrecord]
  change e.1.qualityStatus call ≠ "retired"
  rw [ParsedExamItem.qualityStatus]
  split
  · decide
  · exact hstatus

/-- A recognizable item that an import writes has a key of its own. -/
theorem key_of_imported {new : List (ParsedExamItem × AssessmentItemRecord)}
    (hpre : new.map Prod.fst <+: newQuestions rules repo extractor call pdf)
    (hrecords : ∀ e ∈ new, RecordOf call e.1 e.2)
    {e : ParsedExamItem × AssessmentItemRecord} (he : e ∈ new) (hr : Recognizable e.2) :
    e.1.dedupKey? rules = some (recordKey rules e.2) := by
  obtain ⟨figs, assets, hrecord⟩ := hrecords e he
  have hlong := hr.long
  rw [hrecord] at hlong
  have hkey := dedupKey?_of_long (hpre.subset (List.mem_map_of_mem (f := Prod.fst) he)) hlong
  rw [hkey, hrecord]
  rfl

theorem key_ne_of_new {item : ParsedExamItem} {key id : String} {r : AssessmentItemRecord}
    (h : item ∈ newQuestions rules repo extractor call pdf)
    (hkey : item.dedupKey? rules = some key) (hr : repo.get call.domainId id = some r)
    (hactive : r.qualityStatus ≠ "retired") : key ≠ recordKey rules r := by
  intro hsame
  have hseen : key ∈ (repo.listActiveDedupPairs call.domainId).map fun pair =>
      dedupKey rules pair.1 pair.2 := by
    rw [hsame]
    exact List.mem_map.mpr ⟨_, mem_dedupPairs hr hactive, rfl⟩
  rw [newQuestions] at h
  split at h
  · exact notMem_of_fresh h hkey hseen
  · cases h

theorem pairwise_newQuestions : (newQuestions rules repo extractor call pdf).Pairwise
    fun a b => ∀ key, a.dedupKey? rules = some key → b.dedupKey? rules ≠ some key := by
  rw [newQuestions]
  split
  · exact pairwise_fresh
  · exact .nil

theorem domainId_of_recordOf {item : ParsedExamItem} {r : AssessmentItemRecord}
    (h : RecordOf call item r) : r.domainId = call.domainId := by
  obtain ⟨figs, assets, rfl⟩ := h
  rfl

theorem distinct_upsertAll {new : List (ParsedExamItem × AssessmentItemRecord)}
    (hrepo : repo.Distinct rules)
    (hpre : new.map Prod.fst <+: newQuestions rules repo extractor call pdf)
    (hrecords : ∀ e ∈ new, RecordOf call e.1 e.2) : (upsertAll repo new).Distinct rules := by
  have hmem : ∀ e ∈ new, e.1 ∈ newQuestions rules repo extractor call pdf :=
    fun e he => hpre.subset (List.mem_map_of_mem he)
  have hold : ∀ e ∈ new, Recognizable e.2 → ∀ id r, repo.get e.2.domainId id = some r →
      Recognizable r → recordKey rules e.2 ≠ recordKey rules r := by
    intro e he hrec id r hr hrec'
    rw [domainId_of_recordOf (hrecords e he)] at hr
    exact key_ne_of_new (hmem e he) (key_of_imported hpre hrecords he hrec) hr hrec'.active
  have hpair : new.Pairwise fun e e' => ∀ key, e.1.dedupKey? rules = some key →
      e'.1.dedupKey? rules ≠ some key :=
    List.pairwise_map.mp (pairwise_newQuestions.sublist hpre.sublist)
  have hsymm : Std.Symm fun e e' : ParsedExamItem × AssessmentItemRecord =>
      ∀ key, e.1.dedupKey? rules = some key → e'.1.dedupKey? rules ≠ some key :=
    ⟨fun e e' h key hkey hkey' => h key hkey' hkey⟩
  intro domainId id id' r r' hr hr' hrec hrec' hkey
  obtain ⟨e, he, rfl, rfl, rfl⟩ | hr := get_upsertAll hr
  · obtain ⟨e', he', rfl, -, rfl⟩ | hr' := get_upsertAll hr'
    · by_cases hsame : e = e'
      · rw [hsame]
      · refine absurd ?_ (hpair.forall he he' hsame _
          (key_of_imported hpre hrecords he hrec))
        rw [hkey]
        exact key_of_imported hpre hrecords he' hrec'
    · exact absurd hkey (hold e he hrec id' r' hr' hrec')
  · obtain ⟨e', he', rfl, rfl, rfl⟩ | hr' := get_upsertAll hr'
    · exact absurd hkey.symm (hold e' he' hrec' id r hr hrec)
    · exact hrepo domainId id id' r r' hr hr' hrec hrec' hkey

/-- Items that stay apart when every recognizable one was so before, with the same text. -/
theorem ItemRepository.Distinct.of_rel (h : repo.Distinct rules)
    (hrel : ∀ domainId id r', repo'.get domainId id = some r' → Recognizable r' →
      ∃ r, repo.get domainId id = some r ∧ Recognizable r ∧
        recordKey rules r = recordKey rules r') : repo'.Distinct rules := by
  intro domainId id id' r r' hr hr' hrec hrec' hkey
  obtain ⟨r₁, hr₁, hrec₁, hkey₁⟩ := hrel domainId id r hr hrec
  obtain ⟨r₂, hr₂, hrec₂, hkey₂⟩ := hrel domainId id' r' hr' hrec'
  exact h domainId id id' r₁ r₂ hr₁ hr₂ hrec₁ hrec₂ (hkey₁.trans (hkey.trans hkey₂.symm))

theorem distinct_bulkApprove (h : repo.Distinct rules) (domainId : String)
    (selects : String → Bool) : (repo.bulkApprove domainId selects).Distinct rules := by
  refine h.of_rel fun d id r' hr' hrec => ?_
  rw [ItemRepository.get, ItemRepository.bulkApprove, Dict.get?_mapValues] at hr'
  obtain ⟨r, hr, rfl⟩ := Option.map_eq_some_iff.mp hr'
  refine ⟨r, hr, ?_⟩
  split at hrec
  · rename_i hmatches
    rw [if_pos hmatches]
    refine ⟨⟨?_, hrec.long⟩, rfl⟩
    obtain hdraft | hreviewed := hmatches.2.1
    · rw [hdraft]
      decide
    · rw [hreviewed]
      decide
  · rename_i hmatches
    rw [if_neg hmatches]
    exact ⟨hrec, rfl⟩

theorem distinct_updateQuality {domainId itemId : String} {qualityStatus : Option String}
    (h : b.items.Distinct rules)
    (hharmless : (BankOp.updateQuality (W := W) domainId itemId qualityStatus).Harmless rules b) :
    (b.items.updateQuality domainId itemId qualityStatus).Distinct rules := by
  rw [ItemRepository.updateQuality]
  cases hitem : b.items.get domainId itemId with
  | none => exact h
  | some old =>
    dsimp only
    have hget : ∀ d id, ItemRepository.get ⟨b.items.records.set (domainId, itemId)
        { old with qualityStatus := qualityStatus.getD old.qualityStatus }⟩ d id =
          if d = domainId ∧ id = itemId then
            some { old with qualityStatus := qualityStatus.getD old.qualityStatus }
          else b.items.get d id := by
      intro d id
      simp only [ItemRepository.get, Dict.get?_set, Prod.mk.injEq]
    by_cases hretired : old.qualityStatus = "retired"
    · have hapart := hharmless old hitem hretired
      intro d id id' r r' hr hr' hrec hrec' hkey
      rw [hget] at hr hr'
      split at hr
      · rename_i heq
        obtain ⟨rfl, rfl⟩ := heq
        cases hr
        split at hr'
        · rename_i heq'
          exact heq'.2.symm
        · exact absurd hkey (hapart hrec id' r' hr' hrec')
      · split at hr'
        · rename_i heq'
          obtain ⟨rfl, rfl⟩ := heq'
          cases hr'
          exact absurd hkey.symm (hapart hrec' id r hr hrec)
        · exact h d id id' r r' hr hr' hrec hrec' hkey
    · refine h.of_rel fun d id r' hr' hrec => ?_
      rw [hget] at hr'
      split at hr'
      · rename_i heq
        obtain ⟨rfl, rfl⟩ := heq
        cases hr'
        exact ⟨old, hitem, ⟨hretired, hrec.long⟩, rfl⟩
      · exact ⟨r', hr', hrec, rfl⟩

theorem safe_of_harmless {op : BankOp W} (sha256 : Bytes → String) (h : b.items.Distinct rules)
    (hharmless : op.Harmless rules b) : op.Safe rules sha256 b := by
  cases op with
  | importPdf extractor furnitureMinPages storeFigure call pdf =>
    refine ⟨keeps_import hharmless, ?_⟩
    obtain ⟨new, hitems, hpre, hrecords⟩ := exists_imported rules sha256 b extractor
      furnitureMinPages storeFigure call pdf
    rw [hitems]
    exact distinct_upsertAll h hpre hrecords
  | updateQuality domainId itemId qualityStatus =>
    exact ⟨trivial, distinct_updateQuality h hharmless⟩
  | bulkApprove domainId selects => exact ⟨trivial, distinct_bulkApprove h domainId selects⟩

/-- Along every run of imports and reviews whose steps are harmless, no import changes an item that
was there before, and no two items in use have the same key. -/
theorem safe_along_harmless_runs (rules : TextRules) (sha256 : Bytes → String)
    (ops : List (BankOp W)) (b : ItemBank W) (h : b.items.Distinct rules)
    (hharmless : Along (BankOp.after rules sha256) (fun b op => op.Harmless rules b) ops b) :
    Along (BankOp.after rules sha256) (fun b op => op.Safe rules sha256 b) ops b := by
  refine hharmless.of_invariant (I := fun b => b.items.Distinct rules) h ?_
  intro op _ b hb hop
  have hsafe := safe_of_harmless sha256 hb hop
  exact ⟨hsafe.distinct, hsafe⟩

/-- An import under names that the bank does not have is harmless. -/
theorem harmless_of_free (h : ((newQuestions rules b.items extractor call pdf).all fun item =>
    (b.items.get call.domainId (call.itemIdPrefix ++ pad3 item.number)).isNone) = true) :
    (BankOp.importPdf extractor furnitureMinPages storeFigure call pdf).Harmless rules b := by
  intro item hitem r hr
  have hnone := List.all_eq_true.mp h item hitem
  rw [hr] at hnone
  cases hnone

end Distinct

section Papers

def plainRules : TextRules := ⟨id, fun _ => ""⟩

def plainSha (_ : Bytes) : String := ""

def emptyBank : ItemBank Unit := ⟨(), ⟨.empty⟩⟩

/-- A paper with one question. -/
def paperOf (question : String) : ExtractedPdf where
  pageTexts := [question ++ "\n① 가\n② 나\n③ 다\n④ 라", "1\n①"]
  figures := []

def importing (itemIdPrefix question : String) : BankOp Unit :=
  .importPdf (.ruleBased {}) 2 (accepting []).storeFigure
    { domainId := "hr", itemIdPrefix := itemIdPrefix } (paperOf question)

/-- A retired question comes back under another name. -/
def reviewedRun : List (BankOp Unit) :=
  [importing "w-" "1. 옳은 것은 무엇인가?", .updateQuality "hr" "w-001" (some "retired"),
    importing "x-" "1. 옳은 것은 무엇인가?"]

theorem safe_along_reviewed_run : Along (BankOp.after plainRules plainSha)
    (fun b op => op.Safe plainRules plainSha b) reviewedRun emptyBank := by
  refine safe_along_harmless_runs plainRules plainSha reviewedRun emptyBank nofun
    ⟨?_, ?_, ?_, trivial⟩
  · intro item _ r hr
    cases hr
  · intro r hr hretired
    obtain hactive | hold := not_retired_of_import (by decide) hr
    · exact absurd hretired hactive
    · cases hold
  · exact harmless_of_free (by decide +kernel)

/-- The bank after the approval of a first import. -/
def approvedBank : ItemBank Unit :=
  [importing "w-" "1. 옳은 것은 무엇인가?",
    .updateQuality "hr" "w-001" (some "approved")].foldl (BankOp.after plainRules plainSha) emptyBank

/-- A second paper under the same prefix puts its first question in the place of an approved one. -/
theorem reimport_replaces_approved : ¬ Along (BankOp.after plainRules plainSha)
    (fun b op => op.Safe plainRules plainSha b)
    [importing "w-" "1. 옳은 것은 무엇인가?", .updateQuality "hr" "w-001" (some "approved"),
      importing "w-" "1. 틀린 것은 무엇인가?"] emptyBank := by
  rintro ⟨-, -, ⟨hkeeps, -⟩, -⟩
  obtain ⟨r, hr, happroved⟩ := (Option.any_eq_true (fun r => r.qualityStatus = "approved")
    (approvedBank.items.get "hr" "w-001")).mp (by decide +kernel)
  obtain ⟨r', hr', hsame⟩ := hkeeps "hr" "w-001" r hr
  have hreplaced : (BankOp.after plainRules plainSha approvedBank
      (importing "w-" "1. 틀린 것은 무엇인가?")).items.get "hr" "w-001" = some r' := hr'
  have hdraft : ((BankOp.after plainRules plainSha approvedBank
      (importing "w-" "1. 틀린 것은 무엇인가?")).items.get "hr" "w-001").all
        (fun r => r.qualityStatus = "draft") = true := by
    decide +kernel
  rw [hreplaced, Option.all_some, decide_eq_true_eq, hsame.qualityStatus,
    of_decide_eq_true happroved] at hdraft
  exact absurd hdraft (by decide)

end Papers

end DomainRag.Assessment
