import DomainRag.Assessment.ItemExtractor

/-! # Chunks of a question paper

The text of a paper goes to the language model in chunks. A chunk ends where a question starts, if
it has enough questions or gets too long.
-/

namespace DomainRag.Assessment

section Lines

variable {lines lines' : List String}

theorem joinLines_splitLines (text : String) : joinLines (splitLines text) = text := by
  rw [← String.toList_inj, joinLines, String.toList_intercalate]
  simp only [splitLines, List.map_map, Function.comp_def, String.toList_ofList, List.map_id']
  exact List.intercalate_splitOn '\n'

theorem splitLines_joinLines (hne : lines ≠ []) (h : ∀ ln ∈ lines, '\n' ∉ ln.toList) :
    splitLines (joinLines lines) = lines := by
  rw [splitLines, joinLines, String.toList_intercalate]
  have hsplit : (List.intercalate "\n".toList (lines.map String.toList)).splitOn '\n' =
      lines.map String.toList :=
    List.splitOn_intercalate '\n' (List.forall_mem_map.mpr h) (by simpa using hne)
  simp only [hsplit, List.map_map, Function.comp_def, String.ofList_toList, List.map_id']

theorem splitLines_ne_nil (text : String) : splitLines text ≠ [] := by
  rw [splitLines, ne_eq, List.map_eq_nil_iff]
  exact List.splitOn_ne_nil '\n' _

theorem not_mem_of_mem_splitOn {sep : Char} {text part : List Char} (h : part ∈ text.splitOn sep) :
    sep ∉ part := by
  induction text generalizing part with
  | nil =>
    rw [List.splitOn_nil, List.mem_singleton] at h
    rw [h]
    exact List.not_mem_nil
  | cons c text ih =>
    rw [List.splitOn_cons_eq_if_modifyHead] at h
    split at h
    · obtain rfl | h := List.mem_cons.mp h
      · exact List.not_mem_nil
      · exact ih h
    · rename_i hc
      obtain ⟨first, rest, hsplit⟩ := List.exists_cons_of_ne_nil (List.splitOn_ne_nil sep text)
      rw [hsplit] at h ih
      obtain rfl | h := List.mem_cons.mp h
      · have hfirst := ih List.mem_cons_self
        rw [List.mem_cons, not_or]
        exact ⟨fun heq => hc (by simp [heq]), hfirst⟩
      · exact ih (List.mem_cons_of_mem first h)

theorem newline_not_mem {text ln : String} (h : ln ∈ splitLines text) : '\n' ∉ ln.toList := by
  obtain ⟨cs, hcs, rfl⟩ := List.mem_map.mp h
  rw [String.toList_ofList]
  exact not_mem_of_mem_splitOn hcs

/-- The lines of several texts are joined to the joined texts. -/
theorem joinLines_map_joinLines {groups : List (List String)} (h : ∀ g ∈ groups, g ≠ []) :
    joinLines (groups.map joinLines) = joinLines groups.flatten := by
  induction groups with
  | nil => rfl
  | cons g groups ih =>
    obtain ⟨hg, hgroups⟩ := List.forall_mem_cons.mp h
    cases groups with
    | nil => simp [joinLines]
    | cons g' groups =>
      have hflatten : (g' :: groups).flatten ≠ [] := by
        have hg' := (List.forall_mem_cons.mp hgroups).1
        simp [hg']
      rw [List.map_cons, List.flatten_cons, joinLines, String.intercalate_cons_of_ne_nil (by simp),
        ← joinLines, ih hgroups]
      exact (String.intercalate_append_of_ne_nil hg hflatten).symm

theorem length_joinLines (lines : List String) (h : lines ≠ []) :
    (joinLines lines).length + 1 = (lines.map fun ln => ln.length + 1).sum := by
  induction lines with
  | nil => exact absurd rfl h
  | cons ln lines ih =>
    cases lines with
    | nil => simp [joinLines]
    | cons ln' lines =>
      have hrest := ih (List.cons_ne_nil _ _)
      rw [joinLines, String.intercalate_cons_cons, ← joinLines, List.map_cons, List.sum_cons, ← hrest]
      simp only [String.length_append]
      have hnewline : "\n".length = 1 := rfl
      omega

end Lines

section Chunks

namespace LlmItemExtractor

variable {x : LlmItemExtractor} {chunk read : List String} {ln : String} {s : Chunking}

/-- A chunk has no more questions than allowed and, up to the first line of its last question, no
more characters. -/
structure Fits (x : LlmItemExtractor) (chunk : List String) : Prop where
  few : (chunk.countP startsQuestion : Int) ≤ x.maxQ
  short : ∀ pre q post, chunk = pre ++ q :: post → startsQuestion q = true → pre ≠ [] →
    ((joinLines (pre ++ [q])).length : Int) ≤ x.maxChars

theorem fits_singleton (h : 1 ≤ x.maxQ) (ln : String) : x.Fits [ln] where
  few := by
    have hle := List.countP_le_length (p := startsQuestion) (l := [ln])
    rw [List.length_singleton] at hle
    omega
  short := by
    intro pre q post hchunk _ hpre
    obtain ⟨ln', pre, rfl⟩ := List.exists_cons_of_ne_nil hpre
    simp at hchunk

theorem Fits.concat (h : x.Fits chunk) (hq : startsQuestion ln = true →
    (chunk.countP startsQuestion : Int) < x.maxQ ∧
      (((chunk.map fun ln => ln.length + 1).sum + ln.length : Nat) : Int) ≤ x.maxChars) :
    x.Fits (chunk ++ [ln]) where
  few := by
    rw [List.countP_append, List.countP_singleton]
    have hfew := h.few
    split
    · rename_i hln
      have hlt := (hq hln).1
      omega
    · simpa using hfew
  short := by
    intro pre q post hchunk hstart hpre
    obtain rfl | ⟨post, ln', rfl⟩ := List.eq_nil_or_concat post
    · obtain ⟨rfl, hln⟩ := List.append_inj' hchunk rfl
      cases hln
      have hlength := length_joinLines (chunk ++ [ln]) (by simp)
      rw [List.map_append, List.sum_append, List.map_singleton, List.sum_singleton] at hlength
      have hshort := (hq hstart).2
      omega
    · rw [List.concat_eq_append, ← List.cons_append, ← List.append_assoc] at hchunk
      exact h.short pre q post (List.append_inj' hchunk rfl).1 hstart hpre

/-- What the loop over the lines of a text knows of the chunks that it has closed, and of the one
that it fills. -/
structure Reading (x : LlmItemExtractor) (read : List String) (s : Chunking)
    (closed : List (List String)) : Prop where
  chunks_eq : s.chunks = closed.map joinLines
  lines_eq : closed.flatten ++ s.cur = read
  nonempty : ∀ chunk ∈ closed, chunk ≠ []
  starts : ∀ chunk ∈ (closed ++ [s.cur]).tail, ∃ q rest, chunk = q :: rest ∧ startsQuestion q = true
  fits : ∀ chunk ∈ closed ++ [s.cur], x.Fits chunk
  size_eq : s.size = (s.cur.map fun ln => ln.length + 1).sum
  qcount_eq : s.qcount = s.cur.countP startsQuestion

theorem reading_nil (h : 1 ≤ x.maxQ) : Reading x [] {} [] where
  chunks_eq := rfl
  lines_eq := rfl
  nonempty := List.forall_mem_nil _
  starts := List.forall_mem_nil _
  fits := by
    rw [List.nil_append, List.forall_mem_singleton]
    refine ⟨?_, ?_⟩
    · have hzero : ([] : List String).countP startsQuestion = 0 := rfl
      rw [hzero]
      omega
    · intro pre q post hnil
      simp at hnil
  size_eq := rfl
  qcount_eq := rfl

theorem cur_chunkLine (s : Chunking) (ln : String) : (x.chunkLine s ln).cur ≠ [] := by
  rw [chunkLine]
  simp

/-- A line that starts a question closes a chunk that is full. -/
theorem Reading.close {closed : List (List String)} (h : Reading x read s closed) (hq : 1 ≤ x.maxQ)
    (hln : startsQuestion ln = true) (hcur : s.cur ≠ []) :
    Reading x (read ++ [ln])
      { chunks := s.chunks ++ [joinLines s.cur], cur := [ln], size := ln.length + 1, qcount := 1 }
      (closed ++ [s.cur]) where
  chunks_eq := by rw [h.chunks_eq, List.map_append, List.map_singleton]
  lines_eq := by rw [List.flatten_concat, h.lines_eq]
  nonempty := List.forall_mem_append.mpr ⟨h.nonempty, List.forall_mem_singleton.mpr hcur⟩
  starts := by
    rw [List.tail_append_of_ne_nil (by simp)]
    exact List.forall_mem_append.mpr
      ⟨h.starts, List.forall_mem_singleton.mpr ⟨ln, [], rfl, hln⟩⟩
  fits := List.forall_mem_append.mpr ⟨h.fits, List.forall_mem_singleton.mpr (fits_singleton hq ln)⟩
  size_eq := by simp
  qcount_eq := by simp [hln]

theorem Reading.extend {closed : List (List String)} (h : Reading x read s closed) (hq : 1 ≤ x.maxQ)
    (hroom : startsQuestion ln = true → s.cur ≠ [] →
      (s.qcount : Int) < x.maxQ ∧ ((s.size + ln.length : Nat) : Int) ≤ x.maxChars) :
    Reading x (read ++ [ln])
      { s with
        cur := s.cur ++ [ln]
        size := s.size + (ln.length + 1)
        qcount := if startsQuestion ln then s.qcount + 1 else s.qcount } closed where
  chunks_eq := h.chunks_eq
  lines_eq := by rw [← List.append_assoc, h.lines_eq]
  nonempty := h.nonempty
  starts := by
    have hstarts := h.starts
    cases closed with
    | nil => exact List.forall_mem_nil _
    | cons first closed =>
      rw [List.cons_append, List.tail_cons, List.forall_mem_append] at hstarts ⊢
      obtain ⟨q, rest, hcur, hstart⟩ := hstarts.2 s.cur List.mem_cons_self
      refine ⟨hstarts.1, List.forall_mem_singleton.mpr ⟨q, rest ++ [ln], ?_, hstart⟩⟩
      rw [hcur, List.cons_append]
  fits := by
    obtain ⟨hclosed, hlast⟩ := List.forall_mem_append.mp h.fits
    refine List.forall_mem_append.mpr ⟨hclosed, List.forall_mem_singleton.mpr ?_⟩
    by_cases hcur : s.cur = []
    · rw [hcur]
      exact fits_singleton hq ln
    · refine (hlast s.cur List.mem_cons_self).concat fun hln => ?_
      rw [← h.qcount_eq, ← h.size_eq]
      exact hroom hln hcur
  size_eq := by simp [h.size_eq]
  qcount_eq := by
    rw [h.qcount_eq, List.countP_append, List.countP_singleton]
    split <;> simp

theorem Reading.step {closed : List (List String)} (h : Reading x read s closed) (hq : 1 ≤ x.maxQ)
    (ln : String) : ∃ closed', Reading x (read ++ [ln]) (x.chunkLine s ln) closed' := by
  rw [chunkLine]
  split
  · rename_i hfull
    refine ⟨closed ++ [s.cur], ?_⟩
    simpa [hfull.1] using h.close hq hfull.1 hfull.2.1
  · rename_i hroom
    refine ⟨closed, h.extend hq fun hln hcur => ?_⟩
    have hlimits := fun hor => hroom ⟨hln, hcur, hor⟩
    rw [imp_false, not_or] at hlimits
    omega

theorem Reading.run {closed : List (List String)} (h : Reading x read s closed) (hq : 1 ≤ x.maxQ)
    (lines : List String) :
    ∃ closed', Reading x (read ++ lines) (lines.foldl x.chunkLine s) closed' := by
  induction lines generalizing read s closed with
  | nil => exact ⟨closed, by rwa [List.append_nil]⟩
  | cons ln lines ih =>
    obtain ⟨closed', hstep⟩ := h.step hq ln
    obtain ⟨closed'', hrun⟩ := ih hstep
    rw [List.append_assoc] at hrun
    exact ⟨closed'', hrun⟩

theorem cur_foldl_chunkLine {lines : List String} (hne : lines ≠ []) (s : Chunking) :
    (lines.foldl x.chunkLine s).cur ≠ [] := by
  obtain rfl | ⟨lines, ln, rfl⟩ := List.eq_nil_or_concat lines
  · exact absurd rfl hne
  · rw [List.concat_eq_append, List.foldl_concat]
    exact cur_chunkLine _ ln

/-- The text is cut into runs of its lines, and every run but the first begins with a question. -/
theorem exists_chunks (hq : 1 ≤ x.maxQ) (text : String) :
    ∃ chunks : List (List String), x.chunks text = chunks.map joinLines ∧
      chunks.flatten = splitLines text ∧ (∀ chunk ∈ chunks, chunk ≠ []) ∧
      (∀ chunk ∈ chunks.tail, ∃ q rest, chunk = q :: rest ∧ startsQuestion q = true) ∧
      ∀ chunk ∈ chunks, x.Fits chunk := by
  obtain ⟨closed, h⟩ := (reading_nil hq).run hq (splitLines text)
  have hcur := cur_foldl_chunkLine (x := x) (splitLines_ne_nil text) {}
  rw [List.nil_append] at h
  rw [chunks]
  generalize (splitLines text).foldl x.chunkLine {} = s at h hcur
  refine ⟨closed ++ [s.cur], ?_, ?_, ?_, h.starts, h.fits⟩
  · simp [hcur, h.chunks_eq]
  · rw [List.flatten_concat, h.lines_eq]
  · exact List.forall_mem_append.mpr ⟨h.nonempty, List.forall_mem_singleton.mpr hcur⟩

/-- Up to the first line of its last question a chunk fits; it has a last question. -/
def ExceedsInLastQuestion (x : LlmItemExtractor) (chunk : String) : Prop :=
  ∃ pre q post, splitLines chunk = pre ++ q :: post ∧ startsQuestion q = true ∧
    (∀ ln ∈ post, startsQuestion ln = false) ∧
    (pre = [] ∨ ((joinLines (pre ++ [q])).length : Int) ≤ x.maxChars)

/-- The chunks of a text are its lines again, cut at questions and within the two limits. What may be
longer than a chunk should be is its last question, and what satisfies `long`. -/
structure SplitsAtQuestions (x : LlmItemExtractor) (text : String) (long : String → Prop) : Prop where
  lossless : joinLines (x.chunks text) = text
  starts : ∀ chunk ∈ (x.chunks text).tail,
    ∃ q rest, splitLines chunk = q :: rest ∧ startsQuestion q = true
  few : ∀ chunk ∈ x.chunks text, ((splitLines chunk).countP startsQuestion : Int) ≤ x.maxQ
  exceeds : ∀ chunk ∈ x.chunks text, x.maxChars < (chunk.length : Int) →
    x.ExceedsInLastQuestion chunk ∨ long chunk

/-- A chunk without a question. -/
def Preamble (chunk : String) : Prop := ∀ ln ∈ splitLines chunk, startsQuestion ln = false

theorem Fits.exceeds (h : x.Fits chunk) (hlines : splitLines (joinLines chunk) = chunk) :
    x.ExceedsInLastQuestion (joinLines chunk) ∨ Preamble (joinLines chunk) := by
  rw [ExceedsInLastQuestion, Preamble, hlines]
  by_cases hnone : ∀ ln ∈ chunk, startsQuestion ln = false
  · exact .inr hnone
  · left
    -- the last of the lines that start a question
    have hmem : ∃ q ∈ chunk.reverse, startsQuestion q = true := by simpa using hnone
    obtain ⟨q, hfind⟩ := Option.isSome_iff_exists.mp (List.find?_isSome.mpr hmem)
    obtain ⟨hstart, post, pre, hchunk, hpost⟩ := List.find?_eq_some_iff_append.mp hfind
    have hsplit : chunk = pre.reverse ++ q :: post.reverse := by
      rw [← chunk.reverse_reverse, hchunk]
      simp
    refine ⟨pre.reverse, q, post.reverse, hsplit, hstart, by simpa using hpost, ?_⟩
    exact or_iff_not_imp_left.mpr fun hpre => h.short _ _ _ hsplit hstart hpre

/-- A chunk is too long only within its last question, or if it has none. -/
theorem chunks_splitsAtQuestions (hq : 1 ≤ x.maxQ) (text : String) :
    x.SplitsAtQuestions text Preamble := by
  obtain ⟨chunks, hchunks, hflatten, hnonempty, hstarts, hfits⟩ := exists_chunks (x := x) hq text
  have hlines : ∀ chunk ∈ chunks, splitLines (joinLines chunk) = chunk := by
    intro chunk hchunk
    refine splitLines_joinLines (hnonempty chunk hchunk) fun ln hln => ?_
    exact newline_not_mem (hflatten ▸ List.mem_flatten_of_mem hchunk hln)
  refine ⟨?_, ?_, ?_, ?_⟩
  · rw [hchunks, joinLines_map_joinLines hnonempty, hflatten, joinLines_splitLines]
  · rw [hchunks, ← List.map_tail, List.forall_mem_map]
    intro chunk hchunk
    rw [hlines chunk (List.mem_of_mem_tail hchunk)]
    exact hstarts chunk hchunk
  · rw [hchunks, List.forall_mem_map]
    intro chunk hchunk
    rw [hlines chunk hchunk]
    exact (hfits chunk hchunk).few
  · rw [hchunks, List.forall_mem_map]
    exact fun chunk hchunk _ => (hfits chunk hchunk).exceeds (hlines chunk hchunk)

/-- An extractor whose model never answers, with chunks of at most `maxChars` characters. -/
def silent (maxChars : Int) : LlmItemExtractor where
  generate _ _ := .error ⟨"TimeoutError", ""⟩
  loads _ := .ok .null
  repr _ := ""
  maxChars := maxChars

theorem chunks_splitsAtQuestions_silent :
    (silent 8).SplitsAtQuestions "정보처리\n1. 가\n2. 나" Preamble :=
  chunks_splitsAtQuestions (by decide) _

/-- A text without a question is one chunk, however long it is. -/
theorem preamble_exceeds :
    ¬ ∀ x : LlmItemExtractor, 1 ≤ x.maxQ → ∀ text, x.SplitsAtQuestions text fun _ => False := by
  intro h
  have hchunks : (silent 3).chunks "정보처리" = ["정보처리"] := by decide +kernel
  have hlines : splitLines "정보처리" = ["정보처리"] := by decide +kernel
  obtain ⟨pre, q, post, hsplit, hstart, -⟩ | hlong := (h (silent 3) (by decide) "정보처리").exceeds
    "정보처리" (by rw [hchunks]; exact List.mem_cons_self) (by decide)
  · have hq : q ∈ ["정보처리"] := by
      rw [← hlines, hsplit]
      simp
    rw [List.mem_singleton.mp hq] at hstart
    exact absurd hstart (by decide +kernel)
  · exact hlong

end LlmItemExtractor

end Chunks

end DomainRag.Assessment
