import DomainRag.Assessment.Answerable
import DomainRag.Assessment.Grid
import DomainRag.Lib.Shape

/-! # What the language model may reply

The extractor asks the model for the questions of every chunk and then for the answers of the last
page, each up to twice, and reads whatever JSON comes back. It checks that a number is one, but not
that a reply is an object with a list of objects.
-/

namespace DomainRag.Assessment

open Program
open Storage (strip)

namespace LlmItemExtractor

variable {x : LlmItemExtractor} {prompt : String} {call call' : Nat}

section Calls

/-- What one call of the model gives, or nothing if it failed or showed no JSON. -/
def attempt (x : LlmItemExtractor) (prompt : String) (call : Nat) : Except Exc Value :=
  match x.generate call prompt with
  | .error _ => .ok .null
  | .ok raw => x.parseJson raw

/-- The reply to a prompt in the calls from number `call` on, and the number of the call after it. -/
def reply (x : LlmItemExtractor) (prompt : String) (call : Nat) : Except Exc (Value × Nat) := do
  match ← x.attempt prompt call with
  | .null => return (← x.attempt prompt (call + 1), call + 2)
  | v => return (v, call + 1)

theorem attempts_succ (prompt : String) (tries call : Nat) :
    x.attempts prompt (tries + 1) call = match x.attempt prompt call with
      | .error e => .error e (call + 1)
      | .ok .null => x.attempts prompt tries (call + 1)
      | .ok v => .ok v (call + 1) := by
  rw [attempts, attempt, get_bind_apply]
  cases x.generate call prompt with
  | error e => rfl
  | ok raw =>
    have hset : ∀ f : PUnit → LlmTask Value, (set (call + 1) >>= f) call = f ⟨⟩ (call + 1) :=
      fun _ => rfl
    rw [hset]
    dsimp only
    cases x.parseJson raw with
    | error e => rfl
    | ok v => cases v <;> rfl

theorem attempts_one (prompt : String) (call : Nat) :
    x.attempts prompt 1 call = match x.attempt prompt call with
      | .error e => .error e (call + 1)
      | .ok v => .ok v (call + 1) := by
  rw [attempts_succ]
  cases x.attempt prompt call with
  | error e => rfl
  | ok v => cases v <;> rfl

theorem generateJson_eq_ok_iff {v : Value} : x.generateJson prompt call = .ok v call' ↔
    ∃ w, x.reply prompt call = .ok (w, call') ∧ w.orElse (.dict []) = v := by
  have hattempts : ∀ w,
      x.attempts prompt 2 call = .ok w call' ↔ x.reply prompt call = .ok (w, call') := by
    intro w
    rw [attempts_succ, reply]
    cases x.attempt prompt call with
    | error e => simp [bind, Except.bind]
    | ok v =>
      cases v with
      | null =>
        dsimp only
        rw [attempts_one]
        cases x.attempt prompt (call + 1) with
        | error e => simp [bind, Except.bind]
        | ok v => simp [bind, Except.bind, pure, Except.pure]
      | _ => simp [bind, Except.bind, pure, Except.pure]
  rw [generateJson, Program.bind_eq_ok_iff]
  constructor
  · rintro ⟨w, t, hw, hv⟩
    cases hv
    exact ⟨w, (hattempts w).mp hw, rfl⟩
  · rintro ⟨w, hw, rfl⟩
    exact ⟨w, call', (hattempts w).mpr hw, rfl⟩

end Calls

section Entries

theorem returns_subjectOf_iff {subj : Value} : Returns (subjectOf subj) ↔ subj.Hashable := by
  cases subj <;> simp [Returns, subjectOf, Value.Hashable, Value.intKey?]

/-- An entry that the extractor can read: an object. If its number is one, then what it calls choices
can be gone through, and its subject is neither a list nor an object. -/
def QuestionEntry (entry : Value) : Prop :=
  entry.isDict = true ∧ ((intValue? (entry.field "number" .null)).isSome →
    (entry.field "choices" .null).Loops ∧ (entry.field "subject" .null).Hashable)

theorem returns_itemOf_iff {entry : Value} : Returns (x.itemOf entry) ↔ QuestionEntry entry := by
  rw [itemOf, Value.returns_getD_bind_iff, QuestionEntry]
  refine and_congr_right fun hentry => ?_
  cases intValue? (entry.field "number" .null) with
  | none => exact iff_of_true (returns_pure none) (by simp)
  | some n =>
    rw [Value.returns_getD_bind_iff, returns_bind_iff, Option.isSome_some, forall_prop_of_true rfl,
      Value.loops_iff]
    constructor
    · rintro ⟨-, choices, hchoices, h⟩
      obtain ⟨-, h⟩ := Value.returns_getD_bind_iff.mp h
      obtain ⟨subject, hsubject, -⟩ := returns_bind_iff.mp h
      exact ⟨⟨choices, hchoices⟩, returns_subjectOf_iff.mp ⟨subject, hsubject⟩⟩
    · rintro ⟨⟨choices, hchoices⟩, hsubject⟩
      obtain ⟨subject, hsubject⟩ := returns_subjectOf_iff.mpr hsubject
      refine ⟨hentry, choices, hchoices, Value.returns_getD_bind_iff.mpr ⟨hentry, ?_⟩⟩
      refine returns_bind_iff.mpr ⟨subject, hsubject, ?_⟩
      exact Value.returns_getD_bind_iff.mpr ⟨hentry, returns_pure _⟩

theorem returns_answerOf_iff {entry : Value} :
    Returns (x.answerOf entry) ↔ entry.isDict = true := by
  rw [answerOf, Value.returns_getD_bind_iff, Value.returns_getD_bind_iff]
  exact ⟨fun h => h.1, fun h => ⟨h, h, returns_pure _⟩⟩

/-- The number of the question that an entry describes. -/
def entryNumber? (entry : Value) : Option Int := intValue? (entry.field "number" .null)

theorem number_of_itemOf {entry : Value} {item : Option ParsedExamItem}
    (h : x.itemOf entry = .ok item) : item.map (·.number) = entryNumber? entry := by
  obtain ⟨⟨number, hnumber, hread⟩, -⟩ := itemOf_ok h
  rw [entryNumber?, (Value.getD_eq_ok_iff.mp hnumber).2, hread]

end Entries

section Chunks

/-- A reply with questions that the extractor can read. A reply that is empty counts as an object. -/
def QuestionReply (w : Value) : Prop := (w.orElse (.dict [])).ListAt "items" QuestionEntry

def AnswerReply (w : Value) : Prop :=
  (w.orElse (.dict [])).ListAt "answers" fun entry => entry.isDict = true

/-- The numbers of the questions in a reply. -/
def numbersIn (w : Value) : List Int :=
  ((w.orElse (.dict [])).elementsAt "items").filterMap entryNumber?

/-- The questions in a reply. -/
def newItems (x : LlmItemExtractor) (parsed : Value) : Except Exc (List (Int × ParsedExamItem)) := do
  let entries ← (← parsed.getD "items" (.list [])).iter
  let items ← entries.mapM x.itemOf
  return (items.filterMap id).map fun item => (item.number, item)

theorem returns_newItems_iff {w : Value} :
    Returns (x.newItems (w.orElse (.dict []))) ↔ QuestionReply w :=
  (Value.returns_loop_iff fun _ => returns_pure _).trans
    (Value.ListAt.congr fun _ => returns_itemOf_iff)

theorem numbers_of_itemOf {entries : List Value} {items : List (Option ParsedExamItem)}
    (h : List.Forall₂ (fun entry item => x.itemOf entry = .ok item) entries items) :
    (items.filterMap id).map (·.number) = entries.filterMap entryNumber? := by
  induction h with
  | nil => rfl
  | @cons entry item _ _ hitem _ ih =>
    have hnumber := number_of_itemOf hitem
    cases item with
    | none => simpa [List.filterMap_cons, ← hnumber] using ih
    | some item => simpa [List.filterMap_cons, ← hnumber] using ih

theorem keys_newItems {w : Value} {news : List (Int × ParsedExamItem)}
    (h : x.newItems (w.orElse (.dict [])) = .ok news) : news.map Prod.fst = numbersIn w := by
  obtain ⟨given, hgiven, h⟩ := Except.bind_eq_ok_iff.mp h
  obtain ⟨entries, hentries, h⟩ := Except.bind_eq_ok_iff.mp h
  obtain ⟨items, hitems, h⟩ := Except.bind_eq_ok_iff.mp h
  cases h
  have helements : (w.orElse (.dict [])).elementsAt "items" = entries := by
    rw [Value.elementsAt, (Value.getD_eq_ok_iff.mp hgiven).2, hentries]
    rfl
  rw [numbersIn, helements, List.map_map]
  exact numbers_of_itemOf (mapM_eq_ok_iff.mp hitems)

theorem exists_itemOf {parsed : Value} {news : List (Int × ParsedExamItem)}
    (h : x.newItems parsed = .ok news) :
    ∀ e ∈ news, e.2.number = e.1 ∧ ∃ entry, x.itemOf entry = .ok (some e.2) := by
  obtain ⟨given, -, h⟩ := Except.bind_eq_ok_iff.mp h
  obtain ⟨entries, -, h⟩ := Except.bind_eq_ok_iff.mp h
  obtain ⟨items, hitems, h⟩ := Except.bind_eq_ok_iff.mp h
  cases h
  intro e he
  obtain ⟨item, hmem, rfl⟩ := List.mem_map.mp he
  obtain ⟨_, hmem, rfl⟩ := List.mem_filterMap.mp hmem
  obtain ⟨entry, -, hentry⟩ := exists_of_mem_mapM hitems hmem
  exact ⟨rfl, entry, hentry⟩

theorem addChunk_eq_ok_iff {items items' : Dict Int ParsedExamItem} {chunk : String} :
    x.addChunk items chunk call = .ok items' call' ↔
      ∃ w news, x.reply (questionPrompt chunk) call = .ok (w, call') ∧
        x.newItems (w.orElse (.dict [])) = .ok news ∧ items' = items.update news := by
  rw [addChunk, Program.bind_eq_ok_iff]
  constructor
  · rintro ⟨parsed, t, hparsed, h⟩
    obtain ⟨w, hw, rfl⟩ := generateJson_eq_ok_iff.mp hparsed
    obtain ⟨hitems, rfl⟩ := ofExcept_eq_ok_iff.mp h
    obtain ⟨given, hgiven, hitems⟩ := Except.bind_eq_ok_iff.mp hitems
    obtain ⟨entries, hentries, hitems⟩ := Except.bind_eq_ok_iff.mp hitems
    obtain ⟨found, hfound, hitems⟩ := Except.bind_eq_ok_iff.mp hitems
    cases hitems
    refine ⟨w, _, hw, ?_, rfl⟩
    exact Except.bind_eq_ok_iff.mpr ⟨given, hgiven, Except.bind_eq_ok_iff.mpr
      ⟨entries, hentries, Except.bind_eq_ok_iff.mpr ⟨found, hfound, rfl⟩⟩⟩
  · rintro ⟨w, news, hw, hnews, rfl⟩
    obtain ⟨given, hgiven, h⟩ := Except.bind_eq_ok_iff.mp hnews
    obtain ⟨entries, hentries, h⟩ := Except.bind_eq_ok_iff.mp h
    obtain ⟨found, hfound, h⟩ := Except.bind_eq_ok_iff.mp h
    cases h
    refine ⟨_, call', generateJson_eq_ok_iff.mpr ⟨w, hw, rfl⟩, ofExcept_eq_ok_iff.mpr ⟨?_, rfl⟩⟩
    exact Except.bind_eq_ok_iff.mpr ⟨given, hgiven, Except.bind_eq_ok_iff.mpr
      ⟨entries, hentries, Except.bind_eq_ok_iff.mpr ⟨found, hfound, rfl⟩⟩⟩

/-- The replies to several prompts, one after the other. -/
def replies (x : LlmItemExtractor) : (prompts : List String) → (call : Nat) →
    Except Exc (List Value × Nat)
  | [], call => .ok ([], call)
  | prompt :: prompts, call => do
    let (w, call) ← x.reply prompt call
    let (ws, call) ← x.replies prompts call
    return (w :: ws, call)

theorem replies_cons_eq_ok_iff {prompts : List String} {ws : List Value} :
    x.replies (prompt :: prompts) call = .ok (ws, call') ↔
      ∃ w ws' mid, x.reply prompt call = .ok (w, mid) ∧
        x.replies prompts mid = .ok (ws', call') ∧ w :: ws' = ws := by
  rw [replies, Except.bind_eq_ok_iff]
  constructor
  · rintro ⟨⟨w, mid⟩, hw, h⟩
    obtain ⟨⟨ws', last⟩, hws, h⟩ := Except.bind_eq_ok_iff.mp h
    cases h
    exact ⟨w, ws', mid, hw, hws, rfl⟩
  · rintro ⟨w, ws', mid, hw, hws, rfl⟩
    exact ⟨(w, mid), hw, Except.bind_eq_ok_iff.mpr ⟨(ws', call'), hws, rfl⟩⟩

/-- What the loop over the chunks has read is what the replies to them hold. -/
theorem foldlM_addChunk_eq_ok_iff {chunks : List String} {items items' : Dict Int ParsedExamItem} :
    chunks.foldlM x.addChunk items call = .ok items' call' ↔
      ∃ ws news, x.replies (chunks.map questionPrompt) call = .ok (ws, call') ∧
        ws.mapM (fun w => x.newItems (w.orElse (.dict []))) = .ok news ∧
        items' = items.update news.flatten := by
  induction chunks generalizing items call with
  | nil =>
    constructor
    · rintro ⟨⟩
      exact ⟨[], [], rfl, rfl, rfl⟩
    · rintro ⟨ws, news, hws, hnews, rfl⟩
      cases hws
      cases hnews
      rfl
  | cons chunk chunks ih =>
    rw [List.foldlM_cons, Program.bind_eq_ok_iff]
    constructor
    · rintro ⟨mid, t, hstep, hrest⟩
      obtain ⟨w, new, hw, hnew, rfl⟩ := addChunk_eq_ok_iff.mp hstep
      obtain ⟨ws, news, hws, hnews, rfl⟩ := ih.mp hrest
      refine ⟨w :: ws, new :: news, replies_cons_eq_ok_iff.mpr ⟨w, ws, t, hw, hws, rfl⟩, ?_, ?_⟩
      · exact mapM_eq_ok_iff.mpr (.cons hnew (mapM_eq_ok_iff.mp hnews))
      · rw [List.flatten_cons, Dict.update_append]
    · rintro ⟨ws, news, hws, hnews, rfl⟩
      obtain ⟨w, ws', mid, hw, hrest, rfl⟩ := replies_cons_eq_ok_iff.mp hws
      obtain ⟨new, news', hnew, hnews', rfl⟩ :=
        List.forall₂_cons_left_iff.mp (mapM_eq_ok_iff.mp hnews)
      refine ⟨_, mid, addChunk_eq_ok_iff.mpr ⟨w, new, hw, hnew, rfl⟩, ih.mpr ?_⟩
      refine ⟨ws', news', hrest, mapM_eq_ok_iff.mpr hnews', ?_⟩
      rw [List.flatten_cons, Dict.update_append]

end Chunks

section Answers

variable {pageTexts : List String} {page : String} {count : Nat} {key : Dict Int Nat}

/-- The answers in a reply. -/
def newAnswers (x : LlmItemExtractor) (parsed : Value) : Except Exc (Dict Int Nat) := do
  let entries ← (← parsed.getD "answers" (.list [])).iter
  let answers ← entries.mapM x.answerOf
  return .ofList (answers.filterMap id)

theorem returns_newAnswers_iff {w : Value} :
    Returns (x.newAnswers (w.orElse (.dict []))) ↔ AnswerReply w :=
  (Value.returns_loop_iff fun _ => returns_pure _).trans
    (Value.ListAt.congr fun _ => returns_answerOf_iff)

/-- The model is asked for the answers if there is a text to read them from. -/
theorem halts_extractAnswerKey_iff : Halts (x.extractAnswerKey page) call ↔
    strip page = "" ∨
      ∃ w call', x.reply (answerPrompt page) call = .ok (w, call') ∧ AnswerReply w := by
  rw [extractAnswerKey]
  split
  · rename_i hblank
    exact ⟨fun _ => .inl hblank, fun _ => ⟨.empty, call, rfl⟩⟩
  · rename_i hpage
    rw [halts_bind_iff]
    constructor
    · rintro ⟨parsed, t, hparsed, answers, t', h⟩
      obtain ⟨w, hw, rfl⟩ := generateJson_eq_ok_iff.mp hparsed
      exact .inr ⟨w, t, hw, returns_newAnswers_iff.mp ⟨answers, (ofExcept_eq_ok_iff.mp h).1⟩⟩
    · rintro (hblank | ⟨w, t, hw, hreply⟩)
      · exact absurd hblank hpage
      · obtain ⟨answers, hanswers⟩ := (returns_newAnswers_iff (x := x)).mpr hreply
        exact ⟨_, t, generateJson_eq_ok_iff.mpr ⟨w, hw, rfl⟩, answers, t,
          ofExcept_eq_ok_iff.mpr ⟨hanswers, rfl⟩⟩

/-- The answers of the grid go before those of the model. -/
theorem get?_answerKey (h : x.answerKey pageTexts page count call = .ok key call') {n : Int} {i : Nat}
    (hi : (parseTransposedAnswerGrid pageTexts).get? n = some i) : key.get? n = some i := by
  rw [answerKey] at h
  split at h
  · cases h
    exact hi
  · obtain ⟨llmKey, t, -, hkey⟩ := Program.bind_eq_ok_iff.mp h
    cases hkey
    rw [Dict.get?_update, hi]
    rfl

theorem halts_answerKey_iff : Halts (x.answerKey pageTexts page count) call ↔
    (count ≠ 0 ∧ 4 * count ≤ 5 * (parseTransposedAnswerGrid pageTexts).entries.length) ∨
      Halts (x.extractAnswerKey page) call := by
  rw [answerKey]
  split
  · rename_i hgrid
    exact ⟨fun _ => .inl hgrid, fun _ => ⟨_, call, rfl⟩⟩
  · rename_i hgrid
    rw [halts_bind_iff]
    constructor
    · rintro ⟨llmKey, t, hkey, -⟩
      exact .inr ⟨llmKey, t, hkey⟩
    · rintro (h | ⟨llmKey, t, hkey⟩)
      · exact absurd h hgrid
      · exact ⟨llmKey, t, hkey, _, t, rfl⟩

end Answers

section Extract

variable {pageTexts : List String} {answerPageIndex : Option Int} {result : ExamParseResult}

/-- The index of the page with the answers: the last one, if none is given. -/
def answerIndex (pageTexts : List String) (answerPageIndex : Option Int) : Int :=
  answerPageIndex.getD (pageTexts.length - 1)

/-- The text of the other pages. -/
def questionText (pageTexts : List String) (answerPageIndex : Option Int) : String :=
  joinLines ((pageTexts.zipIdx.filter fun e =>
    (e.2 : Int) ≠ answerIndex pageTexts answerPageIndex).map Prod.fst)

def answerPage (pageTexts : List String) (answerPageIndex : Option Int) : String :=
  let ansIdx := answerIndex pageTexts answerPageIndex
  if 0 ≤ ansIdx then (pageTexts[ansIdx.toNat]?).getD "" else ""

/-- The replies to the chunks of a paper. -/
def questionReplies (x : LlmItemExtractor) (pageTexts : List String) (answerPageIndex : Option Int)
    (call : Nat) : Except Exc (List Value × Nat) :=
  x.replies ((x.chunks (questionText pageTexts answerPageIndex)).map questionPrompt) call

/-- The grid has answers for four fifths of the questions in the replies. -/
def GridSuffices (pageTexts : List String) (ws : List Value) : Prop :=
  let count := (ws.flatMap numbersIn).dedup.length
  count ≠ 0 ∧ 4 * count ≤ 5 * (parseTransposedAnswerGrid pageTexts).entries.length

/-- The replies of the model have the shape that the extractor expects: those to the chunks and, where
it is asked for them, that with the answers. -/
def WellShaped (x : LlmItemExtractor) (pageTexts : List String) (answerPageIndex : Option Int)
    (call : Nat) : Prop :=
  pageTexts = [] ∨ ∃ ws call', x.questionReplies pageTexts answerPageIndex call = .ok (ws, call') ∧
    (∀ w ∈ ws, QuestionReply w) ∧
    (GridSuffices pageTexts ws ∨ strip (answerPage pageTexts answerPageIndex) = "" ∨
      ∃ w call'', x.reply (answerPrompt (answerPage pageTexts answerPageIndex)) call' =
        .ok (w, call'') ∧ AnswerReply w)

def sourceIsHangul (text : String) : Bool :=
  20 ≤ (scriptCounts text).1 && (scriptCounts text).2 < (scriptCounts text).1

/-- The questions in the order of their numbers, with the answers of a key. -/
def answered (sourceIsHangul : Bool) (items : Dict Int ParsedExamItem) (key : Dict Int Nat) :
    List ParsedExamItem :=
  (items.values.map (withAnswer sourceIsHangul key)).insertionSort fun a b => a.number ≤ b.number

theorem extract_eq (hpages : pageTexts ≠ []) :
    x.extract pageTexts answerPageIndex = (do
      let items ← (x.chunks (questionText pageTexts answerPageIndex)).foldlM x.addChunk .empty
      let key ← x.answerKey pageTexts (answerPage pageTexts answerPageIndex) items.entries.length
      let found := answered (sourceIsHangul (questionText pageTexts answerPageIndex)) items key
      return { items := found, parsedCount := found.length, answerKeyCount := key.entries.length }) := by
  rw [extract, if_neg hpages]
  rfl

/-- The questions that were read are those of the replies. -/
theorem exists_replies {items : Dict Int ParsedExamItem} {chunks : List String}
    (h : chunks.foldlM x.addChunk .empty call = .ok items call') :
    ∃ ws, x.replies (chunks.map questionPrompt) call = .ok (ws, call') ∧
      (∀ w ∈ ws, QuestionReply w) ∧ items.entries.length = (ws.flatMap numbersIn).dedup.length ∧
      ∀ n item, items.get? n = some item →
        item.number = n ∧ ∃ entry, x.itemOf entry = .ok (some item) := by
  obtain ⟨ws, news, hws, hnews, rfl⟩ := foldlM_addChunk_eq_ok_iff.mp h
  have hforall := mapM_eq_ok_iff.mp hnews
  refine ⟨ws, hws, ?_, ?_, ?_⟩
  · intro w hw
    exact returns_newItems_iff.mp (returns_mapM_iff.mp ⟨news, hnews⟩ w hw)
  · rw [← Dict.ofList, Dict.length_ofList, List.map_flatten]
    congr 2
    clear hws hnews h
    induction hforall with
    | nil => rfl
    | cons hnew _ ih =>
      rw [List.map_cons, List.flatten_cons, keys_newItems hnew, ih, List.flatMap_cons]
  · intro n item hitem
    refine Dict.forall_entry_update (d := .empty) (P := fun n (item : ParsedExamItem) =>
      item.number = n ∧ ∃ entry, x.itemOf entry = .ok (some item)) (by rintro _ _ ⟨⟩)
      (fun e he => ?_) n item hitem
    obtain ⟨new, hnew, he⟩ := List.mem_flatten.mp he
    obtain ⟨w, -, hw⟩ := exists_of_mem_forall₂ hforall.flip hnew
    exact exists_itemOf hw e he

theorem halts_extract_iff :
    Halts (x.extract pageTexts answerPageIndex) call ↔
      x.WellShaped pageTexts answerPageIndex call := by
  rw [WellShaped]
  by_cases hpages : pageTexts = []
  · refine ⟨fun _ => .inl hpages, fun _ => ⟨{}, call, ?_⟩⟩
    rw [extract, if_pos hpages]
    rfl
  · rw [or_iff_right hpages, extract_eq hpages, halts_bind_iff]
    constructor
    · rintro ⟨items, mid, hitems, hkey⟩
      obtain ⟨ws, hws, hshaped, hcount, -⟩ := exists_replies hitems
      obtain ⟨key, t, hkey, -⟩ := halts_bind_iff.mp hkey
      rw [hcount] at hkey
      refine ⟨ws, mid, hws, hshaped, ?_⟩
      exact (halts_answerKey_iff.mp ⟨key, t, hkey⟩).imp id halts_extractAnswerKey_iff.mp
    · rintro ⟨ws, mid, hws, hshaped, hkey⟩
      obtain ⟨news, hnews⟩ := returns_mapM_iff.mpr fun w hw =>
        (returns_newItems_iff (x := x)).mpr (hshaped w hw)
      have hitems : (x.chunks (questionText pageTexts answerPageIndex)).foldlM x.addChunk .empty call =
          .ok (Dict.ofList news.flatten) mid :=
        foldlM_addChunk_eq_ok_iff.mpr ⟨ws, news, hws, hnews, rfl⟩
      refine ⟨_, mid, hitems, halts_bind_iff.mpr ?_⟩
      obtain ⟨ws', hws', -, hcount, -⟩ := exists_replies hitems
      cases hws.symm.trans hws'
      obtain ⟨key, t, hkey⟩ := halts_answerKey_iff.mpr
        (hkey.imp id (halts_extractAnswerKey_iff (x := x)).mpr)
      rw [hcount]
      exact ⟨key, t, hkey, _, t, rfl⟩

theorem mem_answered_iff {items : Dict Int ParsedExamItem} {key : Dict Int Nat} {hangul : Bool}
    {item : ParsedExamItem} : item ∈ answered hangul items key ↔
      ∃ n old, items.get? n = some old ∧ withAnswer hangul key old = item := by
  rw [answered, List.mem_insertionSort, List.mem_map]
  constructor
  · rintro ⟨old, hold, rfl⟩
    obtain ⟨n, hn⟩ := Dict.mem_values_iff.mp hold
    exact ⟨n, old, hn, rfl⟩
  · rintro ⟨n, old, hn, rfl⟩
    exact ⟨old, Dict.mem_values_iff.mpr ⟨n, hn⟩, rfl⟩

@[simp] theorem number_withAnswer (hangul : Bool) (key : Dict Int Nat) (item : ParsedExamItem) :
    (withAnswer hangul key item).number = item.number := by
  rw [withAnswer]
  split
  · split <;> rfl
  · rfl

/-- The questions have the keys of the dictionary as their numbers, each once. -/
theorem pairwise_answered {items : Dict Int ParsedExamItem} (key : Dict Int Nat) (hangul : Bool)
    (h : ∀ n item, items.get? n = some item → item.number = n) :
    ((answered hangul items key).map (·.number)).Pairwise (· < ·) := by
  have hsorted : (answered hangul items key).Pairwise fun a b => a.number ≤ b.number :=
    List.pairwise_insertionSort (r := fun a b : ParsedExamItem => a.number ≤ b.number) _
  have hnumbers : (items.values.map (withAnswer hangul key)).map (·.number) = items.keys := by
    rw [Dict.values, Dict.keys, List.map_map, List.map_map]
    refine List.map_congr_left fun e he => ?_
    exact (number_withAnswer hangul key e.2).trans (h e.1 e.2 (Dict.get?_eq_some_iff.mpr he))
  have hnodup : ((answered hangul items key).map (·.number)).Nodup := by
    rw [answered, ((List.perm_insertionSort _ _).map _).nodup_iff, hnumbers]
    exact items.nodup
  refine ((List.pairwise_map.mpr hsorted).and hnodup).imp ?_
  rintro a b ⟨hle, hne⟩
  exact lt_of_le_of_ne hle hne

theorem answerIndex_of_itemOf {entry : Value} {item : ParsedExamItem}
    (h : x.itemOf entry = .ok (some item)) : item.answerIndex = none := by
  obtain ⟨-, -, -, -, hanswer⟩ := (itemOf_ok h).2 item rfl
  exact hanswer

theorem answerIndex_withAnswer {hangul : Bool} {key : Dict Int Nat} {item : ParsedExamItem} {i : Nat}
    (hitem : item.answerIndex = none) (hi : key.get? item.number = some i) (hlt : i < 4) :
    (withAnswer hangul key item).answerIndex =
      if (withAnswer hangul key item).choices.length = 4 then some i else none := by
  rw [withAnswer, hi]
  dsimp only
  split
  · rename_i hfour
    exact (if_pos hfour.1).symm
  · rename_i hfour
    rw [if_neg fun h => hfour ⟨h, hlt⟩]
    exact hitem

end Extract

end LlmItemExtractor

section Choices

/-- An answer of the grid is one of four choices. -/
theorem lt_four_of_gridToken? {line : String} {idx : Nat} (h : gridToken? line = some (.ans idx)) :
    idx < 4 := by
  rw [gridToken?] at h
  split at h
  · cases h
  · obtain ⟨i, hi, hidx⟩ := Option.map_eq_some_iff.mp h
    cases hidx
    have hall : ∀ v ∈ labelToIdx.values, v < 4 := by decide +kernel
    exact hall _ (Dict.mem_values_iff.mpr ⟨_, hi⟩)

theorem lt_four_of_gridBlock? {n length : Nat} {tokens : List GridToken} {answers : List (Nat × Nat)}
    (h : gridBlock? n length tokens = some answers)
    (htokens : ∀ idx, GridToken.ans idx ∈ tokens → idx < 4) : ∀ e ∈ answers, e.2 < 4 := by
  obtain ⟨-, -, -, vals, hvals, rfl⟩ := gridBlock?_eq_some_iff.mp h
  intro e he
  have hmem : some e.2 ∈ vals.map some := List.mem_map_of_mem (List.of_mem_zip he).2
  rw [← hvals] at hmem
  obtain ⟨token, htoken, hanswer⟩ := List.mem_map.mp hmem
  cases token with
  | num m => exact (answer?_num_eq_some_iff.mp hanswer).2
  | ans idx =>
    obtain rfl : idx = e.2 := by simpa [GridToken.answer?] using hanswer
    exact htokens _ (List.mem_of_mem_drop (List.mem_of_mem_take htoken))

theorem lt_four_of_readGrid (out : Dict Int Nat) (skip : Nat) (tokens : List GridToken)
    (htokens : ∀ idx, GridToken.ans idx ∈ tokens → idx < 4)
    (hout : ∀ n i, out.get? n = some i → i < 4) :
    ∀ n i, (readGrid out skip tokens).get? n = some i → i < 4 := by
  fun_induction readGrid out skip tokens with
  | case1 => exact hout
  | case2 out skip token tokens ih =>
    exact ih (fun idx hidx => htokens idx (List.mem_cons_of_mem _ hidx)) hout
  | case3 out idx tokens ih =>
    exact ih (fun idx hidx => htokens idx (List.mem_cons_of_mem _ hidx)) hout
  | case4 out n tokens length answers hanswers ih =>
    refine ih (fun idx hidx => htokens idx (List.mem_cons_of_mem _ hidx)) fun n i hi => ?_
    refine Dict.forall_get?_update (P := (· < 4)) hout (fun e he => ?_) n i hi
    obtain ⟨answer, hanswer, rfl⟩ := List.mem_map.mp he
    exact lt_four_of_gridBlock? hanswers htokens answer hanswer
  | case5 out n tokens length hnone ih =>
    exact ih (fun idx hidx => htokens idx (List.mem_cons_of_mem _ hidx)) hout

theorem lt_four_of_grid {pageTexts : List String} {n : Int} {i : Nat}
    (h : (parseTransposedAnswerGrid pageTexts).get? n = some i) : i < 4 := by
  refine lt_four_of_readGrid .empty 0 _ (fun idx hidx => ?_) nofun n i h
  obtain ⟨text, -, hmem⟩ := List.mem_flatMap.mp hidx
  obtain ⟨line, -, hline⟩ := List.mem_filterMap.mp hmem
  exact lt_four_of_gridToken? hline

end Choices

section Promise

variable {x : LlmItemExtractor} {pageTexts : List String} {answerPageIndex : Option Int} {call : Nat}
  {result : ExamParseResult}

/-- The questions come in the order of their distinct numbers, an answer is one of four choices, and
the grid's answer is taken where it has one. -/
structure InOrder (pageTexts : List String) (result : ExamParseResult) : Prop where
  sorted : (result.items.map (·.number)).Pairwise (· < ·)
  answer : ∀ item ∈ result.items, ∀ i, item.answerIndex = some i →
    item.choices.length = 4 ∧ (∀ c ∈ item.choices, c ≠ "") ∧
      ∃ v, item.choices[i]? = some v ∧ item.answerValue = some v
  grid : ∀ item ∈ result.items, ∀ i,
    (parseTransposedAnswerGrid pageTexts).get? item.number = some i →
      item.answerIndex = if item.choices.length = 4 then some i else none

/-- Whatever the model replies, the questions that the extractor returns keep its promise. -/
theorem inOrder_of_extract {call' : Nat}
    (h : x.extract pageTexts answerPageIndex call = .ok result call') : InOrder pageTexts result := by
  by_cases hpages : pageTexts = []
  · rw [LlmItemExtractor.extract, if_pos hpages] at h
    cases h
    exact ⟨.nil, List.forall_mem_nil _, List.forall_mem_nil _⟩
  · have hextracted := (extracted_extract (x := x)).of_ok h
    rw [LlmItemExtractor.extract_eq hpages] at h
    obtain ⟨items, mid, hitems, h⟩ := Program.bind_eq_ok_iff.mp h
    obtain ⟨key, t, hkey, h⟩ := Program.bind_eq_ok_iff.mp h
    cases h
    obtain ⟨-, -, -, -, hentries⟩ := LlmItemExtractor.exists_replies hitems
    refine ⟨?_, ?_, ?_⟩
    · exact LlmItemExtractor.pairwise_answered key _ fun n item hn => (hentries n item hn).1
    · intro item hitem i hi
      obtain ⟨hfour, hvalue⟩ := (hextracted item hitem).answer i hi
      exact ⟨hfour, (hextracted item hitem).choices, hvalue⟩
    · intro item hitem i hi
      obtain ⟨n, old, hold, rfl⟩ := LlmItemExtractor.mem_answered_iff.mp hitem
      obtain ⟨-, entry, hentry⟩ := hentries n old hold
      rw [LlmItemExtractor.number_withAnswer] at hi
      exact LlmItemExtractor.answerIndex_withAnswer (LlmItemExtractor.answerIndex_of_itemOf hentry)
        (LlmItemExtractor.get?_answerKey hkey hi) (lt_four_of_grid hi)

/-- The extractor returns its questions exactly if the replies of the model have the shape that it
expects. -/
theorem extracts_iff : (∃ result call', x.extract pageTexts answerPageIndex call = .ok result call' ∧
    InOrder pageTexts result) ↔ x.WellShaped pageTexts answerPageIndex call := by
  rw [← LlmItemExtractor.halts_extract_iff]
  constructor
  · rintro ⟨result, call', h, -⟩
    exact ⟨result, call', h⟩
  · rintro ⟨result, call', h⟩
    exact ⟨result, call', h, inOrder_of_extract h⟩

/-- A model that replies with a list instead of an object. -/
def listing : LlmItemExtractor where
  generate _ _ := .ok "[1]"
  loads _ := .ok (.list [.int 1])
  repr _ := ""

/-- The extractor asks the list for its items and raises. -/
theorem list_reply_raises : ¬ ∀ x pageTexts answerPageIndex call,
    ∃ result call', LlmItemExtractor.extract x pageTexts answerPageIndex call = .ok result call' ∧
      InOrder pageTexts result := by
  intro h
  obtain ⟨result, call', hresult, -⟩ := h listing ["1. 옳은 것은?", "1\n①"] none 0
  have hnone : ((listing.extract ["1. 옳은 것은?", "1\n①"] none).result? 0).isNone = true := by
    decide +kernel
  rw [Program.result?, hresult] at hnone
  cases hnone

end Promise

end DomainRag.Assessment
