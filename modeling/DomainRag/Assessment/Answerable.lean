import DomainRag.Assessment.Import

/-! # Approved questions can be answered

An import with automatic approval approves a question with an answer in the key and four choices.
The language model drops empty choices. The parser fills up missing ones with empty texts, so that
every question of a paper has four.
-/

namespace DomainRag.Assessment

open Program
open Storage (strip)

section Fresh

variable {A B : Type} {key? : A → Option String}

/-- The entries that a loop keeps which skips each entry whose key it has seen. -/
def fresh (key? : A → Option String) : (seenKeys : List String) → List A → List A
  | _, [] => []
  | seenKeys, a :: rest => match key? a with
    | none => a :: fresh key? seenKeys rest
    | some key =>
      if key ∈ seenKeys then fresh key? seenKeys rest
      else a :: fresh key? (key :: seenKeys) rest

theorem mem_of_fresh {seenKeys : List String} {as : List A} {a : A}
    (h : a ∈ fresh key? seenKeys as) : a ∈ as := by
  induction as generalizing seenKeys with
  | nil => cases h
  | cons b rest ih =>
    rw [fresh] at h
    split at h
    · obtain rfl | h := List.mem_cons.mp h
      · exact List.mem_cons_self
      · exact List.mem_cons_of_mem b (ih h)
    · split at h
      · exact List.mem_cons_of_mem b (ih h)
      · obtain rfl | h := List.mem_cons.mp h
        · exact List.mem_cons_self
        · exact List.mem_cons_of_mem b (ih h)

/-- Entries with the same keys are kept at the same places. -/
theorem forall₂_fresh {key?' : B → Option String} {r : A → B → Prop} {as : List A} {bs : List B}
    (hkey : ∀ a b, r a b → key? a = key?' b) (h : List.Forall₂ r as bs) (seenKeys : List String) :
    List.Forall₂ r (fresh key? seenKeys as) (fresh key?' seenKeys bs) := by
  induction h generalizing seenKeys with
  | nil => exact .nil
  | @cons a b as bs hab _ ih =>
    rw [fresh, fresh, ← hkey a b hab]
    split
    · exact .cons hab (ih seenKeys)
    · split
      · exact ih seenKeys
      · exact .cons hab (ih _)

end Fresh

section Stored

variable {W R : Type} {service : AssessmentImportService} {backing : Backing W R}
  {call : ImportCall} {pdf : ExtractedPdf} {ansIdx : Int}

/-- The record is that of the question, with some figures. -/
def RecordOf (call : ImportCall) (item : ParsedExamItem) (record : AssessmentItemRecord) : Prop :=
  ∃ figs assets, record = AssessmentImportService.recordOf call item figs assets

/-- A program has stored the given questions, or, if it raised, the first of them. -/
def Stores (call : ImportCall) (items : List ParsedExamItem) {A : Type} (x : ImportTask W R A) :
    Prop :=
  ∀ s, Ensures x s
    (fun _ s' => ∃ new, s'.stored = s.stored ++ new ∧ new.map Prod.fst = items ∧
      ∀ e ∈ new, RecordOf call e.1 e.2)
    (fun _ s' => ∃ new, s'.stored = s.stored ++ new ∧ new.map Prod.fst <+: items ∧
      ∀ e ∈ new, RecordOf call e.1 e.2)

theorem stores_of_stored_eq {A : Type} {x : ImportTask W R A}
    (h : ∀ s, Ensures x s (fun _ s' => s'.stored = s.stored) fun _ s' => s'.stored = s.stored) :
    Stores call [] x := by
  intro s
  refine (h s).mono ?_ ?_
  · exact fun _ s' hs' => ⟨[], hs'.trans (List.append_nil _).symm, rfl, List.forall_mem_nil _⟩
  · exact fun _ s' hs' => ⟨[], hs'.trans (List.append_nil _).symm, List.nil_prefix, List.forall_mem_nil _⟩

theorem stores_pure {A : Type} (a : A) : Stores call [] (pure a : ImportTask W R A) :=
  stores_of_stored_eq fun _ => rfl

theorem Stores.bind {A B : Type} {x : ImportTask W R A} {f : A → ImportTask W R B}
    {items items' : List ParsedExamItem} (hx : Stores call items x)
    (hf : ∀ a, Stores call items' (f a)) : Stores call (items ++ items') (x >>= f) := by
  intro s
  refine ensures_bind.mpr ((hx s).mono ?_ ?_)
  · rintro a s₁ ⟨new, hnew, hitems, hrecords⟩
    have hall : ∀ new', (∀ e ∈ new', RecordOf call e.1 e.2) →
        ∀ e ∈ new ++ new', RecordOf call e.1 e.2 := by
      intro new' hrecords' e he
      obtain he | he := List.mem_append.mp he
      · exact hrecords e he
      · exact hrecords' e he
    refine (hf a s₁).mono ?_ ?_
    · rintro b s₂ ⟨new', hnew', hitems', hrecords'⟩
      refine ⟨new ++ new', ?_, ?_, hall new' hrecords'⟩
      · rw [hnew', hnew, List.append_assoc]
      · rw [List.map_append, hitems, hitems']
    · rintro e s₂ ⟨new', hnew', hprefix, hrecords'⟩
      refine ⟨new ++ new', ?_, ?_, hall new' hrecords'⟩
      · rw [hnew', hnew, List.append_assoc]
      · rw [List.map_append, hitems]
        exact (List.prefix_append_right_inj items).mpr hprefix
  · rintro e s₁ ⟨new, hnew, hprefix, hrecords⟩
    exact ⟨new, hnew, hprefix.trans (List.prefix_append items items'), hrecords⟩

theorem stores_onWorld {A : Type} (x : Program Exc W A) :
    Stores call [] (onWorld x : ImportTask W R A) := by
  refine stores_of_stored_eq fun s => ?_
  unfold Ensures onWorld
  cases x s.world <;> rfl

theorem stores_mapM {A B : Type} {f : A → ImportTask W R B} (h : ∀ a, Stores call [] (f a))
    (as : List A) : Stores call [] (as.mapM f) := by
  induction as with
  | nil => exact stores_pure []
  | cons a as ih =>
    rw [List.mapM_cons]
    exact (h a).bind fun _ => ih.bind fun _ => stores_pure _

theorem stores_storeItem (result : ImportResult) (item : ParsedExamItem) :
    Stores call [item] (service.storeItem backing call pdf ansIdx result item) := by
  rw [AssessmentImportService.storeItem]
  refine (stores_mapM (fun _ => stores_onWorld _) _).bind fun assets => ?_
  intro s
  rw [ensures_bind, ensures_get, ensures_bind, ensures_ofExcept]
  constructor
  · intro rows _
    rw [ensures_bind, ensures_set]
    refine ⟨[_], rfl, rfl, ?_⟩
    intro e he
    rw [List.mem_singleton.mp he]
    exact ⟨_, assets, rfl⟩
  · intro e _
    exact ⟨[], (List.append_nil _).symm, List.nil_prefix, List.forall_mem_nil _⟩

/-- The loop stores the questions that it has not seen, in their order. -/
theorem stores_importItems (items : List ParsedExamItem) (seenKeys : List String)
    (result : ImportResult) :
    Stores call (fresh (ParsedExamItem.dedupKey? · service.rules) seenKeys items)
      (items.foldlM (fun (acc : List String × ImportResult) item =>
        service.importItem backing call pdf ansIdx acc.1 acc.2 item) (seenKeys, result)) := by
  induction items generalizing seenKeys result with
  | nil => exact stores_pure _
  | cons item items ih =>
    rw [List.foldlM_cons, AssessmentImportService.importItem, fresh]
    cases item.dedupKey? service.rules with
    | none =>
      simp only [bind_assoc, pure_bind]
      exact (stores_storeItem result item).bind fun result' => ih seenKeys result'
    | some key =>
      by_cases hseen : key ∈ seenKeys
      · simp only [hseen, if_true, pure_bind]
        exact ih seenKeys _
      · simp only [hseen, if_false, bind_assoc, pure_bind]
        exact (stores_storeItem result item).bind fun result' => ih (key :: seenKeys) result'

end Stored

section Runs

variable {service : AssessmentImportService} {call : ImportCall} {pdf : ExtractedPdf}
  {pairs : List (String × List Value)}

/-- The page of the answer key. -/
def answerPage (call : ImportCall) (pdf : ExtractedPdf) : Int :=
  call.answerPageIndex.getD (pdf.pageTexts.length - 1)

def seenKeys (service : AssessmentImportService) (pairs : List (String × List Value)) :
    List String :=
  pairs.map fun pair => dedupKey service.rules pair.1 pair.2

/-- The questions of a paper that are neither stored already nor repeat an earlier one. -/
def AssessmentImportService.freshItems (service : AssessmentImportService)
    (pairs : List (String × List Value)) (items : List ParsedExamItem) : List ParsedExamItem :=
  fresh (ParsedExamItem.dedupKey? · service.rules) (seenKeys service pairs) items

/-- A stored question has four choices with a text and the one at its answer index as its answer. -/
def Answerable (item : ParsedExamItem) (record : AssessmentItemRecord) : Prop :=
  ∃ choices : List String, record.choices = choices.map .str ∧ choices.length = 4 ∧
    (∀ c ∈ choices, c ≠ "") ∧ record.answer ≠ "" ∧
    ∃ i, item.answerIndex = some i ∧ choices[i]? = some record.answer

def ImportCall.approving (call : ImportCall) : ImportCall := { call with autoApprove := true }

/-- Whatever the repository and the storage do, every question that an import with automatic
approval stores as approved can be answered. -/
def ApprovedAnswerable (service : AssessmentImportService) (call : ImportCall) (pdf : ExtractedPdf)
    (pairs : List (String × List Value)) : Prop :=
  ∀ (W R : Type) (backing : Backing W R) (world : W) (rows : R),
    backing.listActiveDedupPairs rows call.domainId = .ok pairs →
    ∀ e ∈ ((service.importPdf backing call.approving pdf).final ⟨world, rows, []⟩).stored,
      e.2.qualityStatus = "approved" → Answerable e.1 e.2

/-- The question would be approved only with an answer among its choices. -/
def ParsedExamItem.Sound (item : ParsedExamItem) (call : ImportCall) : Prop :=
  item.qualityStatus call.approving = "approved" →
    item.choices.length = 4 ∧ (∀ c ∈ item.choices, c ≠ "") ∧ item.answerValue.getD "" ≠ "" ∧
      ∃ i, item.answerIndex = some i ∧ item.choices[i]? = some (item.answerValue.getD "")

theorem answerable_iff {item : ParsedExamItem} {record : AssessmentItemRecord}
    (h : RecordOf call.approving item record) :
    (record.qualityStatus = "approved" → Answerable item record) ↔ item.Sound call := by
  obtain ⟨figs, assets, rfl⟩ := h
  refine imp_congr_right fun _ => ?_
  constructor
  · rintro ⟨choices, hchoices, hanswerable⟩
    have heq : item.choices = choices := List.map_injective_iff.mpr (fun a b h => by
      cases h
      rfl) hchoices
    exact heq ▸ hanswerable
  · exact fun h => ⟨item.choices, rfl, h⟩

/-- A repository that accepts everything. -/
def accepting (pairs : List (String × List Value)) : Backing Unit Unit where
  listActiveDedupPairs _ _ := .ok pairs
  upsert _ _ := .ok ()
  storeFigure _ _ fig := pure {
    assetId := "", kind := "image", storageKey := "", contentHash := ""
    sourcePage := .int fig.pageNumber, bbox := fig.bbox, vlmDescription := .null }

theorem ensures_importPdf {W R : Type} {backing : Backing W R} {s : ImportState W R}
    {parsed : ExamParseResult} (hpairs : backing.listActiveDedupPairs s.rows call.domainId = .ok pairs)
    (hparsed : service.itemExtractor.extract pdf.pageTexts (some (answerPage call pdf)) =
      .ok parsed) :
    Ensures (service.importPdf backing call pdf) s
      (fun _ s' => ∃ new, s'.stored = s.stored ++ new ∧
        new.map Prod.fst = service.freshItems pairs parsed.items ∧
        ∀ e ∈ new, RecordOf call e.1 e.2)
      (fun _ s' => ∃ new, s'.stored = s.stored ++ new ∧
        new.map Prod.fst <+: service.freshItems pairs parsed.items ∧
        ∀ e ∈ new, RecordOf call e.1 e.2) := by
  rw [AssessmentImportService.importPdf, ensures_bind, ensures_ofExcept]
  refine ⟨?_, fun e he => absurd (hparsed.symm.trans he) nofun⟩
  intro result hresult
  cases hparsed.symm.trans hresult
  rw [ensures_bind, ensures_get, ensures_bind, ensures_ofExcept, hpairs]
  refine ⟨?_, nofun⟩
  rintro _ ⟨⟩
  rw [ensures_bind]
  exact stores_importItems parsed.items (seenKeys service pairs) _ s

/-- Nothing is stored if the paper cannot be read. -/
theorem stored_of_error {W R : Type} {backing : Backing W R} {s : ImportState W R} {e : Exc}
    (herror : service.itemExtractor.extract pdf.pageTexts (some (answerPage call pdf)) =
      .error e) : ((service.importPdf backing call pdf).final s).stored = s.stored := by
  refine Ensures.final (P := fun s' : ImportState W R => s'.stored = s.stored) ?_
  rw [AssessmentImportService.importPdf, ensures_bind, ensures_ofExcept]
  exact ⟨fun a ha => absurd (herror.symm.trans ha) nofun, fun _ _ => rfl⟩

theorem stored_of_ok {W R : Type} {backing : Backing W R} {s : ImportState W R}
    {parsed : ExamParseResult} (hpairs : backing.listActiveDedupPairs s.rows call.domainId = .ok pairs)
    (hparsed : service.itemExtractor.extract pdf.pageTexts (some (answerPage call pdf)) =
      .ok parsed) :
    ∃ new, ((service.importPdf backing call pdf).final s).stored = s.stored ++ new ∧
      new.map Prod.fst <+: service.freshItems pairs parsed.items ∧
      ∀ e ∈ new, RecordOf call e.1 e.2 := by
  refine Ensures.final (P := fun s' : ImportState W R => ∃ new, s'.stored = s.stored ++ new ∧
    new.map Prod.fst <+: service.freshItems pairs parsed.items ∧ ∀ e ∈ new, RecordOf call e.1 e.2) ?_
  refine (ensures_importPdf hpairs hparsed).mono ?_ fun _ s' h => h
  rintro _ s' ⟨new, hnew, hitems, hrecords⟩
  exact ⟨new, hnew, hitems ▸ List.prefix_rfl, hrecords⟩

theorem accepting_returns (item : ParsedExamItem) (ansIdx : Int) (result : ImportResult) :
    Raises (fun _ => False) (service.storeItem (accepting pairs) call pdf ansIdx result item) := by
  refine (raises_mapM (fun fig => ?_) _).bind fun assets => raises_get.bind fun s => ?_
  · exact fun s => trivial
  · exact (raises_ofExcept nofun).bind fun _ => (raises_set _).bind fun _ => raises_pure _

/-- With a repository that accepts everything all fresh questions are stored. -/
theorem accepting_stores {parsed : ExamParseResult}
    (hparsed : service.itemExtractor.extract pdf.pageTexts (some (answerPage call pdf)) =
      .ok parsed) :
    ∃ new, ((service.importPdf (accepting pairs) call pdf).final ⟨(), (), []⟩).stored = new ∧
      new.map Prod.fst = service.freshItems pairs parsed.items ∧
      ∀ e ∈ new, RecordOf call e.1 e.2 := by
  have hreturns : Raises (fun _ => False) (service.importPdf (accepting pairs) call pdf) := by
    refine (raises_ofExcept ?_).bind fun _ => raises_get.bind fun _ =>
      (raises_ofExcept nofun).bind fun _ => (raises_foldlM (fun acc item => ?_) _ _).bind fun _ =>
      raises_pure _
    · exact fun e he => absurd (hparsed.symm.trans he) nofun
    · rw [AssessmentImportService.importItem]
      split
      · exact (accepting_returns item _ _).bind fun _ => raises_pure _
      · split
        · exact raises_pure _
        · exact (accepting_returns item _ _).bind fun _ => raises_pure _
  obtain ⟨result, hresult⟩ := (hreturns ⟨(), (), []⟩).exists_result
  have hpairs : (accepting pairs).listActiveDedupPairs () call.domainId = .ok pairs := rfl
  exact (ensures_importPdf (s := ⟨(), (), []⟩) hpairs hparsed).of_result? hresult

/-- Approved questions can be answered exactly if every fresh question of the paper that would be
approved can. -/
theorem approvedAnswerable_iff_sound : ApprovedAnswerable service call pdf pairs ↔
    ∀ parsed, service.itemExtractor.extract pdf.pageTexts (some (answerPage call pdf)) =
      .ok parsed → ∀ item ∈ service.freshItems pairs parsed.items, item.Sound call := by
  constructor
  · intro h parsed hparsed item hitem
    obtain ⟨new, hnew, hitems, hrecords⟩ :=
      @accepting_stores service call.approving pdf pairs parsed hparsed
    rw [← hitems] at hitem
    obtain ⟨e, he, rfl⟩ := List.mem_map.mp hitem
    exact (answerable_iff (hrecords e he)).mp
      (h Unit Unit (accepting pairs) () () rfl e (hnew ▸ he))
  · intro h W R backing world rows hpairs e he
    cases hparsed : service.itemExtractor.extract pdf.pageTexts (some (answerPage call pdf)) with
    | error error =>
      have hnothing := @stored_of_error service call.approving pdf W R backing ⟨world, rows, []⟩
        error hparsed
      rw [hnothing] at he
      cases he
    | ok parsed =>
      obtain ⟨new, hnew, hprefix, hrecords⟩ := @stored_of_ok service call.approving pdf pairs W R
        backing ⟨world, rows, []⟩ parsed hpairs hparsed
      rw [hnew] at he
      refine (answerable_iff (hrecords e he)).mpr (h parsed hparsed e.1 ?_)
      exact hprefix.subset (List.mem_map_of_mem he)

end Runs

section Parsed

variable {parser : ExamPaperParser} {key : Dict Nat Nat} {raw : RawItem} {item : ParsedExamItem}
  {call : ImportCall}

theorem RawItem.length_texts (raw : RawItem) : raw.texts.length = 4 := List.length_ofFn

theorem RawItem.nonempty_iff : raw.nonempty.length = 4 ↔ ∀ c ∈ raw.texts, c ≠ "" := by
  rw [← raw.length_texts, RawItem.nonempty, List.length_filter_eq_length_iff]
  simp only [ne_eq, decide_not, Bool.not_eq_true', decide_eq_false_iff_not]

theorem RawItem.nonempty_eq (h : raw.nonempty.length = 4) : raw.nonempty = raw.texts := by
  refine List.filter_eq_self.mpr fun c hc => ?_
  exact decide_eq_true (RawItem.nonempty_iff.mp h c hc)

/-- What the parser makes of a question. -/
structure Assembles (key : Dict Nat Nat) (raw : RawItem) (item : ParsedExamItem) : Prop where
  text : item.questionText = raw.questionText
  choices : item.choices = raw.texts
  index : item.answerIndex = key.get? raw.number
  value : (∀ c ∈ raw.texts, c ≠ "") → ∀ i, key.get? raw.number = some i →
    ∃ v, raw.texts[i]? = some v ∧ item.answerValue = some v
  drift : "language_drift" ∉ item.flags

theorem pyGet_natCast {A : Type} (xs : List A) (i : Nat) :
    pyGet xs i = xs[i]?.elim (.error indexError) .ok := by
  have hneg : ¬ ((i : Int) < 0) := by omega
  have hsum : ¬ ((i : Int) + xs.length < 0) := by omega
  simp only [pyGet, hneg, hsum, if_false, Int.toNat_natCast]
  cases xs[i]? <;> rfl

theorem choices_flag_ne (n : Nat) : "choices=" ++ toString n ≠ "language_drift" := by
  intro h
  have hhead := congrArg (fun s : String => s.toList.head?) h
  simp at hhead

theorem assembles_of_ok (h : parser.assemble key raw = .ok item) : Assembles key raw item := by
  rw [ExamPaperParser.assemble] at h
  obtain ⟨answerValue, hvalue, h⟩ := Except.bind_eq_ok_iff.mp h
  cases h
  refine ⟨rfl, ?_, rfl, ?_, ?_⟩
  · dsimp only
    split
    · rename_i hfour
      exact RawItem.nonempty_eq hfour
    · rfl
  · intro hnonempty i hi
    have hfour := RawItem.nonempty_iff.mpr hnonempty
    rw [hi, answerValueOf, if_pos hfour, RawItem.nonempty_eq hfour, pyGet_natCast] at hvalue
    cases hget : raw.texts[i]? with
    | none =>
      rw [hget] at hvalue
      cases hvalue
    | some v =>
      rw [hget] at hvalue
      cases hvalue
      exact ⟨v, rfl, rfl⟩
  · simp only [List.mem_append, not_or]
    refine ⟨⟨⟨⟨?_, ?_⟩, ?_⟩, ?_⟩, ?_⟩
    · split
      · exact fun hmem => choices_flag_ne _ (List.mem_singleton.mp hmem).symm
      · exact List.not_mem_nil
    all_goals
      split
      · decide
      · exact List.not_mem_nil

/-- A question of the parser raises only if all its choices are there and its answer is none of
them. -/
theorem exists_assembled (h : (∀ c ∈ raw.texts, c ≠ "") → ∀ i, key.get? raw.number = some i →
    i < 4) : ∃ item, parser.assemble key raw = .ok item := by
  have hvalue : ∃ v, answerValueOf raw.nonempty (key.get? raw.number) = .ok v := by
    cases hi : key.get? raw.number with
    | none => exact ⟨none, rfl⟩
    | some i =>
      by_cases hfour : raw.nonempty.length = 4
      · have hlt : i < raw.nonempty.length := hfour ▸ h (RawItem.nonempty_iff.mp hfour) i hi
        refine ⟨some raw.nonempty[i], ?_⟩
        simp only [answerValueOf, hfour, if_true, pyGet_natCast, List.getElem?_eq_getElem hlt]
        rfl
      · refine ⟨none, ?_⟩
        rw [answerValueOf, if_neg hfour]
  obtain ⟨v, hv⟩ := hvalue
  exact ⟨_, Except.bind_eq_ok_iff.mpr ⟨v, hv, rfl⟩⟩

theorem returns_assemble_iff : Returns (parser.assemble key raw) ↔
    ((∀ c ∈ raw.texts, c ≠ "") → ∀ i, key.get? raw.number = some i → i < 4) := by
  refine ⟨?_, exists_assembled⟩
  rintro ⟨item, hitem⟩ hnonempty i hi
  obtain ⟨v, hv, -⟩ := (assembles_of_ok hitem).value hnonempty i hi
  exact raw.length_texts ▸ (List.getElem?_eq_some_iff.mp hv).1

theorem approved_iff : item.qualityStatus call.approving = "approved" ↔
    item.answerVerified = true ∧ "language_drift" ∉ item.flags ∨
      call.defaultQualityStatus = "approved" := by
  rw [ParsedExamItem.qualityStatus]
  change (if (true && item.answerVerified && decide ("language_drift" ∉ item.flags)) = true then
    "approved" else call.defaultQualityStatus) = "approved" ↔ _
  simp only [Bool.true_and, Bool.and_eq_true, decide_eq_true_eq]
  split
  · rename_i h
    exact ⟨fun _ => .inl h, fun _ => rfl⟩
  · rename_i h
    exact ⟨.inr, fun hor => hor.resolve_left h⟩

/-- A question of the parser has four choices in any case. -/
theorem Assembles.sound_iff (h : Assembles key raw item) : item.Sound call ↔
    ((key.get? raw.number).isSome ∨ call.defaultQualityStatus = "approved" →
      (key.get? raw.number).isSome ∧ ∀ c ∈ raw.texts, c ≠ "") := by
  have hverified : item.answerVerified = (key.get? raw.number).isSome := by
    rw [ParsedExamItem.answerVerified, h.index, h.choices, raw.length_texts]
    exact Bool.and_true _
  rw [ParsedExamItem.Sound, approved_iff, hverified, h.choices, h.index]
  simp only [h.drift, not_false_eq_true, and_true]
  refine imp_congr_right fun _ => ?_
  constructor
  · rintro ⟨-, hnonempty, -, i, hi, -⟩
    exact ⟨hi ▸ rfl, hnonempty⟩
  · rintro ⟨hsome, hnonempty⟩
    obtain ⟨i, hi⟩ := Option.isSome_iff_exists.mp hsome
    obtain ⟨v, hv, hvalue⟩ := h.value hnonempty i hi
    rw [hvalue, Option.getD_some]
    exact ⟨raw.length_texts, hnonempty, hnonempty v (List.mem_of_getElem? hv), i, hi, hv⟩

end Parsed

section Extracted

variable {x : LlmItemExtractor} {item : ParsedExamItem} {call : ImportCall}

/-- What the language model's extractor makes of an entry: no choice is empty, and an answer is one
of four choices. -/
structure Extracted (item : ParsedExamItem) : Prop where
  choices : ∀ c ∈ item.choices, c ≠ ""
  answer : ∀ i, item.answerIndex = some i → item.choices.length = 4 ∧
    ∃ v, item.choices[i]? = some v ∧ item.answerValue = some v

/-- An entry is read as an item if its number is one, without its empty choices. -/
theorem itemOf_ok {entry : Value} {read : Option ParsedExamItem} (h : x.itemOf entry = .ok read) :
    (∃ number, entry.getD "number" .null = .ok number ∧
      read.map (·.number) = LlmItemExtractor.intValue? number) ∧
    ∀ item, read = some item → ∃ (texts : List String) (text : String),
      item.choices = texts.filter (fun c => c ≠ "") ∧ item.questionText = strip text ∧
        item.answerIndex = none := by
  rw [LlmItemExtractor.itemOf] at h
  obtain ⟨number, hnumber, h⟩ := Except.bind_eq_ok_iff.mp h
  split at h
  · rename_i hnone
    cases h
    refine ⟨⟨number, hnumber, hnone.symm⟩, ?_⟩
    rintro _ ⟨⟩
  · rename_i num hsome
    obtain ⟨given, -, h⟩ := Except.bind_eq_ok_iff.mp h
    obtain ⟨choices, -, h⟩ := Except.bind_eq_ok_iff.mp h
    obtain ⟨subj, -, h⟩ := Except.bind_eq_ok_iff.mp h
    obtain ⟨enum, -, h⟩ := Except.bind_eq_ok_iff.mp h
    obtain ⟨text, -, h⟩ := Except.bind_eq_ok_iff.mp h
    cases h
    refine ⟨⟨number, hnumber, hsome.symm⟩, ?_⟩
    rintro _ ⟨⟩
    exact ⟨_, _, rfl, rfl, rfl⟩

theorem extracted_itemOf {entry : Value} (h : x.itemOf entry = .ok (some item)) :
    Extracted item := by
  obtain ⟨texts, -, hchoices, -, hanswer⟩ := (itemOf_ok h).2 item rfl
  refine ⟨fun c hc => ?_, fun i hi => absurd (hanswer.symm.trans hi) nofun⟩
  rw [hchoices] at hc
  exact of_decide_eq_true (List.mem_filter.mp hc).2

theorem Extracted.withAnswer (h : Extracted item) (sourceIsHangul : Bool) (key : Dict Int Nat) :
    Extracted (LlmItemExtractor.withAnswer sourceIsHangul key item) := by
  rw [LlmItemExtractor.withAnswer]
  split
  · split
    · rename_i ai _ hfour
      refine ⟨h.choices, ?_⟩
      rintro _ ⟨⟩
      have hlt : ai < item.choices.length := hfour.1 ▸ hfour.2
      exact ⟨hfour.1, item.choices[ai], List.getElem?_eq_getElem hlt,
        List.getElem?_eq_getElem hlt⟩
    · exact ⟨h.choices, h.answer⟩
  · exact ⟨h.choices, h.answer⟩

theorem forall_addChunk {P : ParsedExamItem → Prop} {items : Dict Int ParsedExamItem}
    (chunk : String) (calls : Nat)
    (hitem : ∀ entry item, x.itemOf entry = .ok (some item) → P item)
    (h : ∀ n item, items.get? n = some item → P item) :
    Ensures (x.addChunk items chunk) calls
      (fun items' _ => ∀ n item, items'.get? n = some item → P item)
      fun _ _ => True := by
  rw [LlmItemExtractor.addChunk, ensures_bind]
  refine (ensures_true _ calls).mono (fun parsed calls' _ => ?_) fun _ _ _ => trivial
  rw [ensures_ofExcept]
  refine ⟨fun items' hitems' => ?_, fun _ _ => trivial⟩
  obtain ⟨given, -, hitems'⟩ := Except.bind_eq_ok_iff.mp hitems'
  obtain ⟨entries, -, hitems'⟩ := Except.bind_eq_ok_iff.mp hitems'
  obtain ⟨found, hfound, hitems'⟩ := Except.bind_eq_ok_iff.mp hitems'
  cases hitems'
  refine Dict.forall_get?_update h fun e he => ?_
  obtain ⟨item, hmem, rfl⟩ := List.mem_map.mp he
  obtain ⟨_, hmem, rfl⟩ := List.mem_filterMap.mp hmem
  obtain ⟨entry, -, hentry⟩ := exists_of_mem_mapM hfound hmem
  exact hitem entry _ hentry

/-- A property of the questions that the model describes, which their answers keep, holds of all
questions that are extracted. -/
theorem forall_extract {P : ParsedExamItem → Prop} {pageTexts : List String}
    {answerPageIndex : Option Int} {calls : Nat}
    (hitem : ∀ entry item, x.itemOf entry = .ok (some item) → P item)
    (hanswer : ∀ sourceIsHangul key item, P item →
      P (LlmItemExtractor.withAnswer sourceIsHangul key item)) :
    Ensures (x.extract pageTexts answerPageIndex) calls
      (fun result _ => ∀ item ∈ result.items, P item) fun _ _ => True := by
  rw [LlmItemExtractor.extract]
  split
  · exact nofun
  · have hempty : ∀ n item, (Dict.empty : Dict Int ParsedExamItem).get? n = some item →
        P item := nofun
    rw [ensures_bind]
    refine (ensures_foldlM (I := fun (items : Dict Int ParsedExamItem) _ =>
      ∀ n item, items.get? n = some item → P item) hempty
      fun chunk _ items calls h => forall_addChunk chunk calls hitem h).mono ?_ fun _ _ h => h
    intro itemsByNum calls' hitems
    rw [ensures_bind]
    refine (ensures_true _ calls').mono (fun llmKey _ _ => ?_) fun _ _ _ => trivial
    intro item hitem
    obtain ⟨old, hold, rfl⟩ := List.mem_map.mp ((List.mem_insertionSort _).mp hitem)
    obtain ⟨e, he, rfl⟩ := List.mem_map.mp hold
    exact hanswer _ _ _ (hitems e.1 e.2 (Dict.get?_eq_some_iff.mpr he))

theorem extracted_extract {pageTexts : List String} {answerPageIndex : Option Int} {calls : Nat} :
    Ensures (x.extract pageTexts answerPageIndex) calls
      (fun result _ => ∀ item ∈ result.items, Extracted item) fun _ _ => True :=
  forall_extract (fun _ _ => extracted_itemOf) fun sourceIsHangul key _ h =>
    h.withAnswer sourceIsHangul key

/-- A question of the language model's extractor is approved with an answer, unless all questions
are to be approved. -/
theorem Extracted.sound_iff (h : Extracted item) : item.Sound call ↔
    (call.defaultQualityStatus = "approved" → item.answerIndex.isSome) := by
  rw [ParsedExamItem.Sound, approved_iff, ParsedExamItem.answerVerified, Bool.and_eq_true]
  constructor
  · intro hsound hdefault
    obtain ⟨-, -, -, i, hi, -⟩ := hsound (.inr hdefault)
    exact hi ▸ rfl
  · intro hanswered happroved
    have hsome : item.answerIndex.isSome := happroved.elim (fun hgate => hgate.1.1) hanswered
    obtain ⟨i, hi⟩ := Option.isSome_iff_exists.mp hsome
    obtain ⟨hfour, v, hv, hvalue⟩ := h.answer i hi
    rw [hvalue, Option.getD_some]
    exact ⟨hfour, h.choices, h.choices v (List.mem_of_getElem? hv), i, hi, hv⟩

end Extracted

section Complete

variable {service : AssessmentImportService} {call : ImportCall} {pdf : ExtractedPdf}
  {pairs : List (String × List Value)}

/-- The paper can be read: these are its questions and the places of their answers. -/
structure ExamPaperParser.Reads (parser : ExamPaperParser) (pageTexts : List String) (ansIdx : Int)
    (raws : List RawItem) (key : Dict Nat Nat) : Prop where
  paper : ∃ glyphs places, parser.paper pageTexts ansIdx = .ok (raws, glyphs, places) ∧
    key = answersIdx glyphs places
  inRange : ∀ raw ∈ raws, (∀ c ∈ raw.texts, c ≠ "") → ∀ i, key.get? raw.number = some i → i < 4

def RawItem.dedupKey? (rules : TextRules) (raw : RawItem) : Option String :=
  Assessment.dedupKey? rules raw.questionText (raw.texts.map .str)

/-- Every fresh question of a paper with an answer in the key has all its choices. If all questions
are to be approved, then every fresh question has an answer as well. -/
def AssessmentImportService.Complete (service : AssessmentImportService) (call : ImportCall)
    (pdf : ExtractedPdf) (pairs : List (String × List Value)) : Prop :=
  match service.itemExtractor with
  | .ruleBased parser => ∀ raws key, parser.Reads pdf.pageTexts (answerPage call pdf) raws key →
      ∀ raw ∈ fresh (RawItem.dedupKey? service.rules) (seenKeys service pairs) raws,
        (key.get? raw.number).isSome ∨ call.defaultQualityStatus = "approved" →
          (key.get? raw.number).isSome ∧ ∀ c ∈ raw.texts, c ≠ ""
  | .llm x => call.defaultQualityStatus = "approved" →
      ∀ parsed, (ItemExtractor.llm x).extract pdf.pageTexts (some (answerPage call pdf)) =
        .ok parsed → ∀ item ∈ service.freshItems pairs parsed.items, item.answerIndex.isSome

theorem ExamPaperParser.Reads.parse {parser : ExamPaperParser} {pageTexts : List String}
    {ansIdx : Int} {raws : List RawItem} {key : Dict Nat Nat}
    (h : parser.Reads pageTexts ansIdx raws key) :
    ∃ parsed, parser.parse pageTexts (some ansIdx) = .ok parsed ∧
      List.Forall₂ (Assembles key) raws parsed.items := by
  obtain ⟨glyphs, places, hpaper, rfl⟩ := h.paper
  have hreturns : ∀ raw ∈ raws, Returns (parser.assemble (answersIdx glyphs places) raw) :=
    fun raw hraw => exists_assembled (h.inRange raw hraw)
  obtain ⟨items, hitems⟩ := returns_mapM_iff.mpr hreturns
  have hpages : pageTexts ≠ [] := by
    rintro rfl
    cases hpaper
  have hforall : List.Forall₂ (Assembles (answersIdx glyphs places)) raws items :=
    (mapM_eq_ok_iff.mp hitems).imp fun _ _ => assembles_of_ok
  refine ⟨⟨items, items.length, (answersIdx glyphs places).entries.length,
    places.mapValues fun _ i => i + 1⟩, ?_, hforall⟩
  rw [ExamPaperParser.parse, if_neg hpages]
  exact Except.bind_eq_ok_iff.mpr
    ⟨_, hpaper, Except.bind_eq_ok_iff.mpr ⟨items, hitems, rfl⟩⟩

theorem ExamPaperParser.reads_of_parse {parser : ExamPaperParser} {pageTexts : List String}
    {ansIdx : Int} {parsed : ExamParseResult}
    (h : parser.parse pageTexts (some ansIdx) = .ok parsed) :
    parsed.items = [] ∨ ∃ raws key, parser.Reads pageTexts ansIdx raws key ∧
      List.Forall₂ (Assembles key) raws parsed.items := by
  rw [ExamPaperParser.parse] at h
  split at h
  · cases h
    exact .inl rfl
  · obtain ⟨⟨raws, glyphs, places⟩, hpaper, h⟩ := Except.bind_eq_ok_iff.mp h
    obtain ⟨items, hitems, h⟩ := Except.bind_eq_ok_iff.mp h
    cases h
    have hforall := mapM_eq_ok_iff.mp hitems
    refine .inr ⟨raws, _, ⟨⟨glyphs, places, hpaper, rfl⟩, ?_⟩,
      hforall.imp fun _ _ => assembles_of_ok⟩
    exact fun raw hraw => returns_assemble_iff.mp (returns_mapM_iff.mp ⟨items, hitems⟩ raw hraw)

/-- Every approved question of an import can be answered exactly if the paper is complete. -/
theorem approvedAnswerable_iff :
    ApprovedAnswerable service call pdf pairs ↔ service.Complete call pdf pairs := by
  rw [approvedAnswerable_iff_sound, AssessmentImportService.Complete]
  have hkey : ∀ key raw item, Assembles key raw item →
      RawItem.dedupKey? service.rules raw = item.dedupKey? service.rules := by
    intro key raw item h
    rw [RawItem.dedupKey?, ParsedExamItem.dedupKey?, h.text, h.choices]
  split
  · rename_i parser hextractor
    rw [hextractor]
    constructor
    · intro h raws key hreads raw hraw
      obtain ⟨parsed, hparsed, hitems⟩ := hreads.parse
      have hfresh := forall₂_fresh (hkey key) hitems (seenKeys service pairs)
      obtain ⟨item, hitem, hassembles⟩ := exists_of_mem_forall₂ hfresh hraw
      exact hassembles.sound_iff.mp (h parsed hparsed item hitem)
    · intro h parsed hparsed item hitem
      obtain hnil | ⟨raws, key, hreads, hitems⟩ := ExamPaperParser.reads_of_parse hparsed
      · exact absurd (hnil ▸ mem_of_fresh hitem) List.not_mem_nil
      · have hfresh := forall₂_fresh (hkey key) hitems (seenKeys service pairs)
        obtain ⟨raw, hraw, hassembles⟩ := exists_of_mem_forall₂ hfresh.flip hitem
        exact hassembles.sound_iff.mpr (h raws key hreads raw hraw)
  · rename_i x hextractor
    rw [hextractor]
    have hextracted : ∀ parsed, (ItemExtractor.llm x).extract pdf.pageTexts
        (some (answerPage call pdf)) = .ok parsed → ∀ item ∈ parsed.items, Extracted item := by
      intro parsed hparsed
      rw [ItemExtractor.extract] at hparsed
      split at hparsed
      · rename_i result calls hrun
        cases hparsed
        exact extracted_extract.of_ok hrun
      · cases hparsed
    constructor
    · intro h hdefault parsed hparsed item hitem
      exact (hextracted parsed hparsed item (mem_of_fresh hitem)).sound_iff.mp
        (h parsed hparsed item hitem) hdefault
    · intro h parsed hparsed item hitem
      exact (hextracted parsed hparsed item (mem_of_fresh hitem)).sound_iff.mpr
        fun hdefault => h hdefault parsed hparsed item hitem

def ruleBasedImport : AssessmentImportService where
  itemExtractor := .ruleBased {}
  rules := ⟨id, fun _ => ""⟩
  sha256 _ := ""

/-- A paper whose only question has lost its fourth choice. -/
def incompletePaper : ExtractedPdf where
  pageTexts := ["1. 다음 중 옳은 것은 무엇인가?\n① 가\n② 나\n③ 다", "1\n①"]
  figures := []

/-- The question is approved with an empty choice and without an answer. -/
theorem incomplete_question_approved :
    ¬ ApprovedAnswerable ruleBasedImport { domainId := "hr", itemIdPrefix := "w-" }
      incompletePaper [] := by
  intro h
  have hstored : (((ruleBasedImport.importPdf (accepting [])
      (ImportCall.approving { domainId := "hr", itemIdPrefix := "w-" }) incompletePaper).final
      ⟨(), (), []⟩).stored.any fun e =>
        e.2.qualityStatus = "approved" && e.2.answer = "") = true := by decide +kernel
  obtain ⟨e, he, hand⟩ := List.any_eq_true.mp hstored
  rw [Bool.and_eq_true, decide_eq_true_eq, decide_eq_true_eq] at hand
  obtain ⟨-, -, -, -, hanswer, -⟩ := h Unit Unit (accepting []) () () rfl e he hand.1
  exact hanswer hand.2

end Complete

end DomainRag.Assessment
