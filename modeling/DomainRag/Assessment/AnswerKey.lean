import DomainRag.Lib.Places
import DomainRag.Assessment.ExamParser
import Mathlib.Data.List.SplitBy

/-! # What an answer key says

A block of a key ends where a number follows a glyph. Within a block the numbers and the glyphs
belong together in their order. The place of an answer is that of its glyph among the glyphs of the
key, which is the choice that was meant only if no smaller circled digit is missing in the key.
-/

namespace DomainRag.Assessment

open Storage (strip)

section Tokens

/-- The number that a text of digits stands for. -/
def decimal (digits : List Char) : Nat :=
  digits.foldl (fun n c => 10 * n + (digit? c).getD 0) 0

theorem intOf_eq_ok_iff {digits : List Char} {n : Nat} :
    intOf digits = .ok n ↔ digits.length ≤ 4300 ∧ decimal digits = n := by
  rw [intOf]
  split
  · rename_i hlong
    exact ⟨nofun, fun h => absurd hlong (by omega)⟩
  · rename_i hshort
    rw [Except.ok.injEq]
    exact ⟨fun h => ⟨by omega, h⟩, fun h => h.2⟩

/-- What a line of a key shows, however long its number is. -/
def shown? (line : String) : Option KeyToken :=
  match (strip line).toList with
  | [] => none
  | c :: cs =>
    if (c :: cs).all isDigit then some (.num (decimal (c :: cs)))
    else if cs = [] ∧ 128 ≤ c.toNat then some (.ans c)
    else none

/-- A number with more digits than an integer is read from. -/
def OverlongNumber (line : String) : Prop :=
  (strip line).toList.all isDigit = true ∧ 4300 < (strip line).toList.length

theorem keyToken?_eq_ok_iff {line : String} {token : Option KeyToken} :
    keyToken? line = .ok token ↔ ¬ OverlongNumber line ∧ shown? line = token := by
  rw [keyToken?, shown?, OverlongNumber]
  generalize (strip line).toList = text
  cases text with
  | nil => simp
  | cons c cs =>
    dsimp only
    split
    · rename_i hdigits
      have hmap : (intOf (c :: cs)).map (fun n => some (KeyToken.num n)) = .ok token ↔
          ∃ n, intOf (c :: cs) = .ok n ∧ some (.num n) = token := Except.map_eq_ok_iff
      rw [hmap, not_and, not_lt, forall_prop_of_true hdigits]
      simp only [intOf_eq_ok_iff]
      constructor
      · rintro ⟨_, ⟨hshort, rfl⟩, htoken⟩
        exact ⟨hshort, htoken⟩
      · rintro ⟨hshort, htoken⟩
        exact ⟨_, ⟨hshort, rfl⟩, htoken⟩
    · rename_i hdigits
      have hshort : ¬ ((c :: cs).all isDigit = true ∧ 4300 < (c :: cs).length) :=
        fun h => hdigits h.1
      split <;> simp only [hshort, not_false_eq_true, true_and, Except.ok.injEq]

def keyTokens (answerPage : String) : List KeyToken := (splitLines answerPage).filterMap shown?

theorem mapM_keyToken?_iff {lines : List String} {tokens : List (Option KeyToken)} :
    lines.mapM keyToken? = .ok tokens ↔
      (∀ line ∈ lines, ¬ OverlongNumber line) ∧ lines.map shown? = tokens := by
  rw [mapM_eq_ok_iff]
  constructor
  · intro h
    induction h with
    | nil => simp
    | cons hline _ ih =>
      obtain ⟨hshort, htoken⟩ := keyToken?_eq_ok_iff.mp hline
      exact ⟨List.forall_mem_cons.mpr ⟨hshort, ih.1⟩, by rw [List.map_cons, htoken, ih.2]⟩
  · rintro ⟨hshort, rfl⟩
    rw [List.forall₂_map_right_iff, List.forall₂_same]
    exact fun line hline => keyToken?_eq_ok_iff.mpr ⟨hshort line hline, rfl⟩

end Tokens

section Blocks

def KeyToken.num? : KeyToken → Option Nat
  | .num n => some n
  | .ans _ => none

def KeyToken.glyph? : KeyToken → Option Char
  | .num _ => none
  | .ans glyph => some glyph

/-- A number that follows a glyph starts a block. -/
def KeyToken.sameBlock (a b : KeyToken) : Bool := !(a.glyph?.isSome && b.num?.isSome)

def blockPairs (block : List KeyToken) : List (Nat × Char) :=
  (block.filterMap KeyToken.num?).zip (block.filterMap KeyToken.glyph?)

/-- The numbers of a key with the glyphs that belong to them. -/
def keyPairs (tokens : List KeyToken) : List (Nat × Char) :=
  (tokens.splitBy KeyToken.sameBlock).flatMap blockPairs

/-- The tokens of a block: first its numbers, then its glyphs. -/
def blockOf (numbers : List Nat) (glyphs : List Char) : List KeyToken :=
  numbers.map .num ++ glyphs.map .ans

variable {numbers : List Nat} {glyphs : List Char}

theorem blockPairs_blockOf (numbers : List Nat) (glyphs : List Char) :
    blockPairs (blockOf numbers glyphs) = numbers.zip glyphs := by
  simp [blockPairs, blockOf, List.filterMap_append, List.filterMap_map, Function.comp_def,
    KeyToken.num?, KeyToken.glyph?]

theorem isChain_blockOf (numbers : List Nat) (glyphs : List Char) :
    (blockOf numbers glyphs).IsChain fun a b => KeyToken.sameBlock a b = true := by
  rw [blockOf, List.isChain_append]
  refine ⟨?_, ?_, ?_⟩
  · rw [List.isChain_map]
    exact (List.pairwise_of_forall fun _ _ => rfl).isChain
  · rw [List.isChain_map]
    exact (List.pairwise_of_forall fun _ _ => rfl).isChain
  · intro a ha b hb
    obtain ⟨n, -, rfl⟩ := List.mem_map.mp (List.mem_of_mem_getLast? ha)
    rfl

theorem keyPairs_blockOf (numbers : List Nat) (glyphs : List Char) :
    keyPairs (blockOf numbers glyphs) = numbers.zip glyphs := by
  by_cases hnil : blockOf numbers glyphs = []
  · rw [← blockPairs_blockOf, hnil]
    rfl
  · rw [keyPairs, List.splitBy_of_isChain hnil (isChain_blockOf numbers glyphs),
      List.flatMap_singleton, blockPairs_blockOf]

/-- A number behind a block with glyphs closes the block. -/
theorem keyPairs_append (hglyphs : glyphs ≠ []) (n : Nat) (tokens : List KeyToken) :
    keyPairs (blockOf numbers glyphs ++ .num n :: tokens) =
      numbers.zip glyphs ++ keyPairs (.num n :: tokens) := by
  have hlast : ∀ a ∈ (blockOf numbers glyphs).getLast?, KeyToken.sameBlock a (.num n) = false := by
    intro a ha
    have hmap : glyphs.map KeyToken.ans ≠ [] := by simpa using hglyphs
    rw [blockOf, List.getLast?_append_of_ne_nil _ hmap] at ha
    obtain ⟨g, -, rfl⟩ := List.mem_map.mp (List.mem_of_mem_getLast? ha)
    rfl
  rw [keyPairs, List.splitBy_append_cons tokens hlast, List.flatMap_append, ← keyPairs, ← keyPairs,
    keyPairs_blockOf]

/-- The loop over the tokens stores the pairs of each block when the next one starts. -/
theorem closed_foldl (tokens : List KeyToken) (r : KeyReading) :
    (tokens.foldl KeyReading.token r).closed =
      r.answers.update (keyPairs (blockOf r.bufNums r.bufAns ++ tokens)) := by
  induction tokens generalizing r with
  | nil => rw [List.append_nil, keyPairs_blockOf, List.foldl_nil, KeyReading.closed]
  | cons token tokens ih =>
    rw [List.foldl_cons, ih]
    cases token with
    | num n =>
      rw [KeyReading.token]
      split
      · rename_i hnil
        simp [hnil, blockOf]
      · -- the block that the buffers hold ends here
        rename_i hglyphs
        have hblock : blockOf [n] [] ++ tokens = .num n :: tokens := rfl
        rw [keyPairs_append hglyphs, Dict.update_append, ← KeyReading.closed, hblock]
    | ans glyph => simp [KeyReading.token, blockOf]

end Blocks

section Answers

/-- The answers of a page. Of the glyphs for one number the last one counts. -/
def keyAnswers (answerPage : String) : Dict Nat Char := .ofList (keyPairs (keyTokens answerPage))

/-- Every line of a page can be read. -/
def ReadableKey (answerPage : String) : Prop :=
  ∀ line ∈ splitLines answerPage, ¬ OverlongNumber line

/-- The place that a question's answer gets: the number of smaller glyphs in the key. -/
def keyPlace? (answerPage : String) (n : Nat) : Option Nat :=
  ((keyAnswers answerPage).get? n).map (placeIn (keyAnswers answerPage).values)

theorem parseAnswerKey_eq_ok_iff {answerPage : String} {answers : Dict Nat Char}
    {places : Dict Char Nat} : parseAnswerKey answerPage = .ok (answers, places) ↔
      ReadableKey answerPage ∧ keyAnswers answerPage = answers ∧
        Dict.ofList (ordered answers.values).zipIdx = places := by
  have hanswers : ∀ tokens, (splitLines answerPage).map shown? = tokens →
      ((tokens.filterMap id).foldl KeyReading.token {}).closed = keyAnswers answerPage := by
    rintro _ rfl
    rw [closed_foldl, List.filterMap_map, Function.id_comp, ← keyTokens, keyAnswers, Dict.ofList,
      blockOf, List.map_nil, List.map_nil, List.append_nil, List.nil_append]
  rw [parseAnswerKey, Except.bind_eq_ok_iff]
  constructor
  · rintro ⟨tokens, htokens, h⟩
    obtain ⟨hreadable, hmap⟩ := mapM_keyToken?_iff.mp htokens
    cases h
    exact ⟨hreadable, (hanswers tokens hmap).symm, rfl⟩
  · rintro ⟨hreadable, rfl, rfl⟩
    refine ⟨_, mapM_keyToken?_iff.mpr ⟨hreadable, rfl⟩, ?_⟩
    dsimp only [pure, Except.pure]
    rw [hanswers _ rfl, ← ordered]

theorem get?_answersIdx {answerPage : String} {answers : Dict Nat Char} {places : Dict Char Nat}
    (h : parseAnswerKey answerPage = .ok (answers, places)) (n : Nat) :
    (answersIdx answers places).get? n = keyPlace? answerPage n := by
  obtain ⟨-, rfl, rfl⟩ := parseAnswerKey_eq_ok_iff.mp h
  rw [answersIdx, Dict.get?_mapValues, keyPlace?]
  cases hg : (keyAnswers answerPage).get? n with
  | none => rw [Option.map_none, Option.map_none]
  | some g =>
    have hmem : g ∈ (keyAnswers answerPage).values :=
      List.mem_map_of_mem (f := Prod.snd) (Dict.get?_eq_some_iff.mp hg)
    rw [Option.map_some, Option.map_some, get?_places hmem, Option.getD_some]

end Answers

section Table

def circledDigit : Fin 4 → Char
  | 0 => '①'
  | 1 => '②'
  | 2 => '③'
  | 3 => '④'

theorem strictMono_circledDigit : StrictMono circledDigit := by decide

/-- A block of an answer table: the numbers of its questions, and which circled digits answer them. -/
structure KeyBlock where
  numbers : List Nat
  digits : List (Fin 4)
  nonempty : numbers ≠ []
  paired : digits.length = numbers.length

def KeyBlock.tokens (b : KeyBlock) : List KeyToken := blockOf b.numbers (b.digits.map circledDigit)

/-- The questions of an answer table with the circled digits that answer them. -/
def tableEntries (blocks : List KeyBlock) : List (Nat × Fin 4) :=
  blocks.flatMap fun b => b.numbers.zip b.digits

/-- The lines of a page that show a number or a glyph are those of an answer table. -/
structure LaidOut (answerPage : String) (blocks : List KeyBlock) : Prop where
  tokens : keyTokens answerPage = blocks.flatMap KeyBlock.tokens
  distinct : (blocks.flatMap KeyBlock.numbers).Nodup

/-- The parser assigns to each question of a table exactly its circled digit, and its answer is at
the place of that digit. -/
def ReadsTable (answerPage : String) (blocks : List KeyBlock) : Prop :=
  ∃ answers places, parseAnswerKey answerPage = .ok (answers, places) ∧
    (∀ n g, answers.get? n = some g ↔ ∃ p, (n, p) ∈ tableEntries blocks ∧ g = circledDigit p) ∧
    ∀ n p, (n, p) ∈ tableEntries blocks → (answersIdx answers places).get? n = some p.val

theorem KeyBlock.exists_tokens_eq (b : KeyBlock) : ∃ n rest, b.tokens = .num n :: rest := by
  obtain ⟨n, numbers, hnumbers⟩ := List.exists_cons_of_ne_nil b.nonempty
  rw [KeyBlock.tokens, hnumbers]
  exact ⟨n, _, rfl⟩

/-- The blocks of a table are read as they are. -/
theorem keyPairs_table (blocks : List KeyBlock) :
    keyPairs (blocks.flatMap KeyBlock.tokens) =
      (tableEntries blocks).map (Prod.map id circledDigit) := by
  induction blocks with
  | nil => rfl
  | cons b blocks ih =>
    rw [List.flatMap_cons, tableEntries, List.flatMap_cons, List.map_append, ← tableEntries, ← ih]
    have hzip : (b.numbers.zip b.digits).map (Prod.map id circledDigit) =
        b.numbers.zip (b.digits.map circledDigit) := by rw [List.zip_map_right]
    rw [hzip]
    cases blocks with
    | nil =>
      rw [List.flatMap_nil, List.append_nil, KeyBlock.tokens, keyPairs_blockOf]
      exact (List.append_nil _).symm
    | cons b' blocks =>
      obtain ⟨n, rest, htokens⟩ := b'.exists_tokens_eq
      have hdigits : b.digits.map circledDigit ≠ [] := by
        intro hnil
        have hlength := congrArg List.length hnil
        rw [List.length_map, b.paired] at hlength
        exact b.nonempty (List.eq_nil_of_length_eq_zero hlength)
      rw [List.flatMap_cons, htokens, List.cons_append]
      exact keyPairs_append hdigits n _

theorem map_fst_tableEntries (blocks : List KeyBlock) :
    (tableEntries blocks).map Prod.fst = blocks.flatMap KeyBlock.numbers := by
  rw [tableEntries, List.map_flatMap]
  congr 1
  funext b
  exact List.map_fst_zip b.paired.ge

section Read

variable {answerPage : String} {blocks : List KeyBlock}

/-- The page assigns to each number exactly its circled digit. -/
theorem LaidOut.get?_keyAnswers (h : LaidOut answerPage blocks) (n : Nat) (g : Char) :
    (keyAnswers answerPage).get? n = some g ↔
      ∃ p, (n, p) ∈ tableEntries blocks ∧ g = circledDigit p := by
  rw [keyAnswers, h.tokens, keyPairs_table, Dict.get?_ofList_iff]
  · simp only [List.mem_map, Prod.exists, Prod.map, Prod.mk.injEq, id_eq]
    constructor
    · rintro ⟨_, p, hp, rfl, rfl⟩
      exact ⟨p, hp, rfl⟩
    · rintro ⟨p, hp, rfl⟩
      exact ⟨n, p, hp, rfl, rfl⟩
  · rw [List.map_map, show Prod.fst ∘ Prod.map id circledDigit = Prod.fst from rfl,
      map_fst_tableEntries]
    exact h.distinct

/-- An answer gets its own place if every smaller circled digit is in the table. -/
theorem LaidOut.keyPlace?_eq_iff (h : LaidOut answerPage blocks) {n : Nat} {p : Fin 4}
    (hp : (n, p) ∈ tableEntries blocks) : keyPlace? answerPage n = some p.val ↔
      ∀ q < p, q ∈ (tableEntries blocks).map Prod.snd := by
  have hvalues : placeIn (keyAnswers answerPage).values =
      placeIn (((tableEntries blocks).map Prod.snd).map circledDigit) := by
    refine placeIn_congr fun g => ?_
    rw [Dict.mem_values_iff]
    simp only [h.get?_keyAnswers, List.mem_map, Prod.exists]
    constructor
    · rintro ⟨m, q, hq, rfl⟩
      exact ⟨q, ⟨m, q, hq, rfl⟩, rfl⟩
    · rintro ⟨_, ⟨m, q, hq, rfl⟩, rfl⟩
      exact ⟨m, q, hq, rfl⟩
  rw [keyPlace?, (h.get?_keyAnswers n _).mpr ⟨p, hp, rfl⟩, hvalues, Option.map_some,
    Option.some.injEq, placeIn_map_eq_iff strictMono_circledDigit]

/-- A table is read exactly if its numbers can be read and every circled digit that is smaller than
one in the table is in the table too. -/
theorem parseAnswerKey_reads_iff (h : LaidOut answerPage blocks) :
    ReadsTable answerPage blocks ↔ ReadableKey answerPage ∧
      ∀ e ∈ tableEntries blocks, ∀ q < e.2, q ∈ (tableEntries blocks).map Prod.snd := by
  constructor
  · rintro ⟨answers, places, hparsed, -, hplaces⟩
    refine ⟨(parseAnswerKey_eq_ok_iff.mp hparsed).1, fun e he => ?_⟩
    rw [← h.keyPlace?_eq_iff he, ← get?_answersIdx hparsed]
    exact hplaces e.1 e.2 he
  · rintro ⟨hreadable, hsmaller⟩
    have hparsed := parseAnswerKey_eq_ok_iff.mpr ⟨hreadable, rfl, rfl⟩
    refine ⟨_, _, hparsed, h.get?_keyAnswers, fun n p hp => ?_⟩
    rw [get?_answersIdx hparsed, h.keyPlace?_eq_iff hp]
    exact hsmaller (n, p) hp

end Read

theorem parseAnswerKey_reads_two : ReadsTable "1\n2\n②\n①" [⟨[1, 2], [1, 0], by decide, rfl⟩] := by
  refine (parseAnswerKey_reads_iff ⟨by decide +kernel, by decide⟩).mpr ⟨?_, by decide⟩
  unfold ReadableKey OverlongNumber
  decide +kernel

/-- The only answer of a table is its second choice, and the parser takes the first one. -/
theorem single_answer_moves :
    ¬ ∀ answerPage blocks, LaidOut answerPage blocks → ReadsTable answerPage blocks := by
  intro h
  obtain ⟨answers, places, hparsed, -, hplaces⟩ :=
    h "1\n②" [⟨[1], [1], by decide, rfl⟩] ⟨by decide +kernel, by decide⟩
  have hfirst : (answersIdx answers places).get? 1 = some 0 := by
    rw [get?_answersIdx hparsed]
    decide +kernel
  exact absurd (hfirst.symm.trans (hplaces 1 1 (by decide))) (by decide)

end Table

end DomainRag.Assessment
