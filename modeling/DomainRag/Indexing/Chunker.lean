import DomainRag.Indexing.Service
import DomainRag.Lib.Join
import DomainRag.Lib.Windows
import DomainRag.Retrieval.Service

/-! # The chunker with a fixed window

Each page is cut into windows of tokens that overlap. The chunks are numbered through all pages, and
a chunk knows where its text stands in the tokens of its page, joined with single spaces.
-/

namespace DomainRag.Indexing

open Retrieval (split isSpace)

/-- A window is never empty and goes on after its overlap. -/
structure InMemoryChunker where
  maxTokens : Nat
  overlapTokens : Nat
  overlap_lt : overlapTokens < maxTokens

/-- The constructor moves its arguments into their bounds. -/
def InMemoryChunker.init (maxTokens overlapTokens : Int) : InMemoryChunker where
  maxTokens := (max 1 maxTokens).toNat
  overlapTokens := (max 0 (min overlapTokens (maxTokens - 1))).toNat
  overlap_lt := by omega

structure Chunking where
  chunks : List Chunk := []
  chunkIndex : Nat := 0

namespace InMemoryChunker

variable (chunker : InMemoryChunker) (docId docVersion parserVersion : String)

def chunkId (chunkIndex : Nat) : String :=
  s!"{docId}:{docVersion}:{parserVersion}:chunk:{chunkIndex}"

def windowLoop (page : ParsedPage) (tokens : List String) : List Nat → Chunking → Chunking
  | [], s => s
  | start :: starts, s =>
    let window := (tokens.drop start).take chunker.maxTokens
    if window = [] then s else
      let content := " ".intercalate window
      let startChar := ((tokens.take start).map fun t => t.length + 1).sum
      let chunk : Chunk :=
        { chunkId := chunkId docId docVersion parserVersion s.chunkIndex
          chunkIndex := s.chunkIndex
          content
          pageNumber := .int page.pageNumber
          sectionTitle := page.sectionTitle.elim .null .str
          headingPath := (page.headingPath.getD []).map .str
          startChar
          endChar := startChar + content.length
          tokenCount := window.length }
      let s : Chunking := { chunks := s.chunks ++ [chunk], chunkIndex := s.chunkIndex + 1 }
      if tokens.length ≤ start + chunker.maxTokens then s else windowLoop page tokens starts s

def chunkPage (s : Chunking) (page : ParsedPage) : Chunking :=
  let tokens := split page.text
  if tokens = [] then s else
    let step := max 1 (chunker.maxTokens - chunker.overlapTokens)
    chunker.windowLoop docId docVersion parserVersion page tokens
      (Windows.starts tokens.length step) s

def chunk (pages : List ParsedPage) : List Chunk :=
  (pages.foldl (chunker.chunkPage docId docVersion parserVersion) {}).chunks

end InMemoryChunker

section Numbered

open Windows

variable (chunker : InMemoryChunker) (docId docVersion parserVersion : String)

def rangeChunk (page : ParsedPage) (r : Nat × Nat) (i : Nat) : Chunk :=
  let tokens := split page.text
  let content := " ".intercalate (slice tokens r)
  let startChar := ((tokens.take r.1).map fun t => t.length + 1).sum
  { chunkId := InMemoryChunker.chunkId docId docVersion parserVersion i
    chunkIndex := i
    content
    pageNumber := .int page.pageNumber
    sectionTitle := page.sectionTitle.elim .null .str
    headingPath := (page.headingPath.getD []).map .str
    startChar
    endChar := startChar + content.length
    tokenCount := (slice tokens r).length }

def rangeChunks (page : ParsedPage) (i : Nat) (rs : List (Nat × Nat)) : List Chunk :=
  (rs.zipIdx i).map fun e => rangeChunk docId docVersion parserVersion page e.1 e.2

def InMemoryChunker.pageRanges (tokens : List String) : List (Nat × Nat) :=
  ranges chunker.maxTokens tokens.length
    (starts tokens.length (chunker.maxTokens - chunker.overlapTokens))

theorem slice_window (tokens : List String) (start size : Nat) :
    slice tokens (start, min (start + size) tokens.length) = (tokens.drop start).take size := by
  rw [slice, List.drop_take, List.take_eq_take_iff, List.length_drop]
  omega

theorem windowLoop_eq (page : ParsedPage) (is : List Nat)
    (h : ∀ i ∈ is, i < (split page.text).length) (s : Chunking) :
    chunker.windowLoop docId docVersion parserVersion page (split page.text) is s =
      let rs := ranges chunker.maxTokens (split page.text).length is
      { chunks := s.chunks ++ rangeChunks docId docVersion parserVersion page s.chunkIndex rs
        chunkIndex := s.chunkIndex + rs.length } := by
  induction is generalizing s with
  | nil => simp [InMemoryChunker.windowLoop, ranges, rangeChunks]
  | cons start rest ih =>
    rw [List.forall_mem_cons] at h
    have hmax := chunker.overlap_lt
    have hwindow : (List.drop start (split page.text)).take chunker.maxTokens ≠ [] := by
      rw [← List.length_pos_iff, List.length_take, List.length_drop]
      omega
    rw [InMemoryChunker.windowLoop, if_neg hwindow, ranges]
    split
    · simp [rangeChunks, rangeChunk, slice_window]
    · rw [ih h.2]
      simp [rangeChunks, rangeChunk, slice_window, Nat.add_assoc, Nat.add_comm 1]

theorem InMemoryChunker.pageRanges_nil : chunker.pageRanges [] = [] := by
  have hstep : chunker.maxTokens - chunker.overlapTokens - 1 <
    chunker.maxTokens - chunker.overlapTokens := by
    have hmax := chunker.overlap_lt
    omega
  simp [pageRanges, starts, Nat.div_eq_of_lt hstep, ranges]

theorem chunkPage_eq (s : Chunking) (page : ParsedPage) :
    chunker.chunkPage docId docVersion parserVersion s page =
      let rs := chunker.pageRanges (split page.text)
      { chunks := s.chunks ++ rangeChunks docId docVersion parserVersion page s.chunkIndex rs
        chunkIndex := s.chunkIndex + rs.length } := by
  have hmax := chunker.overlap_lt
  have hstep : max 1 (chunker.maxTokens - chunker.overlapTokens) =
    chunker.maxTokens - chunker.overlapTokens := by omega
  rw [InMemoryChunker.chunkPage]
  split
  · next hempty => simp [hempty, chunker.pageRanges_nil, rangeChunks]
  · rw [hstep]
    apply windowLoop_eq
    intro i hi
    exact lt_of_mem_starts (by omega) hi

/-- The chunks page by page, numbered from `i` on. -/
def pageGroups : Nat → List ParsedPage → List (List Chunk)
  | _, [] => []
  | i, page :: pages =>
    let rs := chunker.pageRanges (split page.text)
    rangeChunks docId docVersion parserVersion page i rs :: pageGroups (i + rs.length) pages

theorem chunks_foldl_chunkPage (pages : List ParsedPage) (s : Chunking) :
    (pages.foldl (chunker.chunkPage docId docVersion parserVersion) s).chunks =
      s.chunks ++
        (pageGroups chunker docId docVersion parserVersion s.chunkIndex pages).flatten := by
  induction pages generalizing s with
  | nil => simp [pageGroups]
  | cons page pages ih =>
    rw [List.foldl_cons, ih, chunkPage_eq]
    simp [pageGroups]

theorem chunk_eq_flatten (pages : List ParsedPage) :
    chunker.chunk docId docVersion parserVersion pages =
      (pageGroups chunker docId docVersion parserVersion 0 pages).flatten := by
  simp [InMemoryChunker.chunk, chunks_foldl_chunkPage]

theorem length_rangeChunks (page : ParsedPage) (i : Nat) (rs : List (Nat × Nat)) :
    (rangeChunks docId docVersion parserVersion page i rs).length = rs.length := by
  simp [rangeChunks]

theorem map_chunkIndex_rangeChunks (page : ParsedPage) (i : Nat) (rs : List (Nat × Nat)) :
    (rangeChunks docId docVersion parserVersion page i rs).map Chunk.chunkIndex =
      List.range' i rs.length := by
  rw [← List.zipIdx_map_snd, rangeChunks, List.map_map]
  rfl

theorem map_chunkIndex_pageGroups (i : Nat) (pages : List ParsedPage) :
    let chunks := (pageGroups chunker docId docVersion parserVersion i pages).flatten
    chunks.map Chunk.chunkIndex = List.range' i chunks.length := by
  induction pages generalizing i with
  | nil => simp [pageGroups]
  | cons page pages ih =>
    simp only [pageGroups, List.flatten_cons, List.map_append, List.length_append,
      map_chunkIndex_rangeChunks, length_rangeChunks, ih, List.range'_append_1]

theorem chunkId_of_mem_pageGroups {i : Nat} {pages : List ParsedPage} {c : Chunk}
    (h : c ∈ (pageGroups chunker docId docVersion parserVersion i pages).flatten) :
    c.chunkId = InMemoryChunker.chunkId docId docVersion parserVersion c.chunkIndex := by
  induction pages generalizing i with
  | nil => simp [pageGroups] at h
  | cons page pages ih =>
    rw [pageGroups, List.flatten_cons, List.mem_append] at h
    rcases h with h | h
    · rw [rangeChunks, List.mem_map] at h
      obtain ⟨e, -, rfl⟩ := h
      rfl
    · exact ih h

theorem chunkId_injective :
    Function.Injective (InMemoryChunker.chunkId docId docVersion parserVersion) := by
  intro i j h
  have hdigits : Nat.toDigits 10 i = Nat.toDigits 10 j := by
    have hlist := congrArg String.toList h
    simpa [InMemoryChunker.chunkId, toString, Nat.toList_repr] using hlist
  rw [← Nat.ofDigitChars_ten_toDigits (n := i), hdigits, Nat.ofDigitChars_ten_toDigits]

end Numbered

section Covered

open Windows

/-- The chunk is the range `r` of the tokens of its page. -/
structure ChunkOf (page : ParsedPage) (r : Nat × Nat) (c : Chunk) : Prop where
  tokens : split c.content = slice (split page.text) r
  tokenCount : c.tokenCount = r.2 - r.1
  content : c.content.toList =
    slice (" ".intercalate (split page.text)).toList (c.startChar, c.endChar)
  pageNumber : c.pageNumber = .int page.pageNumber
  sectionTitle : c.sectionTitle = page.sectionTitle.elim .null .str
  headingPath : c.headingPath = (page.headingPath.getD []).map .str

/-- The chunks of a page are ranges that cover its tokens, and their tokens without the overlaps
are those of the page. A page without tokens has no chunks. -/
def PageCovered (chunker : InMemoryChunker) (page : ParsedPage) (group : List Chunk) : Prop :=
  ∃ rs : List (Nat × Nat),
    (if split page.text = [] then rs = []
      else Covers chunker.maxTokens chunker.overlapTokens 0 (split page.text).length rs) ∧
    List.Forall₂ (ChunkOf page) rs group ∧
    stitch chunker.overlapTokens (group.map fun c => split c.content) = split page.text

theorem token_of_mem_split {s w : String} (h : w ∈ split s) :
    w ≠ "" ∧ ∀ c ∈ w.toList, isSpace c = false := by
  rw [split, List.mem_map] at h
  obtain ⟨cs, hcs, rfl⟩ := h
  rw [List.mem_filter] at hcs
  constructor
  · simpa using hcs.2
  · intro c hc
    rw [String.toList_ofList] at hc
    exact Join.eq_false_of_mem_splitOnP isSpace hcs.1 hc

theorem split_intercalate {ws : List String}
    (h : ∀ w ∈ ws, w ≠ "" ∧ ∀ c ∈ w.toList, isSpace c = false) :
    split (" ".intercalate ws) = ws := by
  rcases eq_or_ne ws [] with rfl | hne
  · decide
  have hparts : ([' '].intercalate (ws.map String.toList)).splitOnP isSpace =
      ws.map String.toList := by
    apply Join.splitOnP_intercalate ' ' isSpace (by decide)
    · simpa using fun w hw => (h w hw).2
    · simpa using hne
  have hkept : (ws.map String.toList).filter (fun w => !w.isEmpty) = ws.map String.toList := by
    rw [List.filter_eq_self]
    simpa using fun w hw => (h w hw).1
  rw [split, String.toList_intercalate]
  change (([' '].intercalate (ws.map String.toList)).splitOnP isSpace |>.filter _).map _ = ws
  rw [hparts, hkept, List.map_map]
  simp [Function.comp_def]

variable (docId docVersion parserVersion : String)

/-- The text of a range stands in the joined tokens, after what the tokens before it take. -/
theorem intercalate_slice {tokens : List String} {r : Nat × Nat} (hne : r.1 < tokens.length) :
    let start := ((tokens.take r.1).map fun t => t.length + 1).sum
    let content := " ".intercalate (slice tokens r)
    content.toList = slice (" ".intercalate tokens).toList (start, start + content.length) := by
  intro start content
  have hcontent : content.toList =
      [' '].intercalate (((tokens.map String.toList).drop r.1).take (r.2 - r.1)) := by
    simp [content, slice, String.toList_intercalate, List.drop_take]
  have hdrop : (" ".intercalate tokens).toList.drop start =
      [' '].intercalate ((tokens.map String.toList).drop r.1) := by
    rw [← Join.drop_intercalate ' ' (by simpa using hne)]
    simp [start, String.toList_intercalate, ← List.map_take, Function.comp_def,
      String.length_toList]
  have hprefix := Join.intercalate_take_prefix ' ' ((tokens.map String.toList).drop r.1)
    (r.2 - r.1)
  rw [← hcontent, ← hdrop, List.prefix_iff_eq_take] at hprefix
  rw [slice, List.drop_take, Nat.add_sub_cancel_left]
  exact hprefix

theorem chunkOf_rangeChunk {page : ParsedPage} {r : Nat × Nat} (i : Nat)
    (hne : r.1 < r.2) (hle : r.2 ≤ (split page.text).length) :
    ChunkOf page r (rangeChunk docId docVersion parserVersion page r i) where
  tokens := by
    apply split_intercalate
    intro w hw
    exact token_of_mem_split (List.mem_of_mem_take (List.mem_of_mem_drop hw))
  tokenCount := length_slice (split page.text) hle
  content := intercalate_slice (hne.trans_le hle)
  pageNumber := rfl
  sectionTitle := rfl
  headingPath := rfl

theorem forall₂_rangeChunks {page : ParsedPage} (i : Nat) {rs : List (Nat × Nat)}
    (h : ∀ r ∈ rs, r.1 < r.2 ∧ r.2 ≤ (split page.text).length) :
    List.Forall₂ (ChunkOf page) rs (rangeChunks docId docVersion parserVersion page i rs) := by
  induction rs generalizing i with
  | nil => exact .nil
  | cons r rs ih =>
    rw [List.forall_mem_cons] at h
    exact .cons (chunkOf_rangeChunk docId docVersion parserVersion i h.1.1 h.1.2) (ih (i + 1) h.2)

theorem map_split_of_forall₂ {page : ParsedPage} {rs : List (Nat × Nat)} {group : List Chunk}
    (h : List.Forall₂ (ChunkOf page) rs group) :
    (group.map fun c => split c.content) = rs.map (slice (split page.text)) := by
  induction h with
  | nil => rfl
  | cons hc _ ih => rw [List.map_cons, List.map_cons, hc.tokens, ih]

theorem InMemoryChunker.covers_pageRanges (chunker : InMemoryChunker) {tokens : List String}
    (h : tokens ≠ []) :
    Covers chunker.maxTokens chunker.overlapTokens 0 tokens.length
      (chunker.pageRanges tokens) := by
  have hmax := chunker.overlap_lt
  have hoverlap : chunker.maxTokens - (chunker.maxTokens - chunker.overlapTokens) =
    chunker.overlapTokens := by omega
  have hstep : 0 < chunker.maxTokens - chunker.overlapTokens := by omega
  have hsize : chunker.maxTokens - chunker.overlapTokens ≤ chunker.maxTokens := Nat.sub_le _ _
  have hcovers := covers_starts hstep hsize (List.length_pos_iff.mpr h)
  rwa [hoverlap] at hcovers

theorem pageCovered_rangeChunks (chunker : InMemoryChunker) (page : ParsedPage) (i : Nat) :
    PageCovered chunker page (rangeChunks docId docVersion parserVersion page i
      (chunker.pageRanges (split page.text))) := by
  refine ⟨chunker.pageRanges (split page.text), ?_⟩
  split
  · next hempty =>
    rw [hempty, chunker.pageRanges_nil]
    exact ⟨rfl, .nil, rfl⟩
  · next hne =>
    have hcovers := chunker.covers_pageRanges hne
    have hchunks := forall₂_rangeChunks docId docVersion parserVersion i
      fun r hr => ⟨(hcovers.inside r hr).1, (hcovers.inside r hr).2.2⟩
    refine ⟨hcovers, hchunks, ?_⟩
    rw [map_split_of_forall₂ hchunks, hcovers.stitch_map_slice]
    simp [slice]

theorem forall₂_pageGroups (chunker : InMemoryChunker) (i : Nat) (pages : List ParsedPage) :
    List.Forall₂ (PageCovered chunker) pages
      (pageGroups chunker docId docVersion parserVersion i pages) := by
  induction pages generalizing i with
  | nil => exact .nil
  | cons page pages ih =>
    exact .cons (pageCovered_rangeChunks docId docVersion parserVersion chunker page i) (ih _)

theorem InMemoryChunker.nodup_chunkIds (chunker : InMemoryChunker) (pages : List ParsedPage) :
    ((chunker.chunk docId docVersion parserVersion pages).map Chunk.chunkId).Nodup := by
  have hindex := map_chunkIndex_pageGroups chunker docId docVersion parserVersion 0 pages
  have hids : (chunker.chunk docId docVersion parserVersion pages).map Chunk.chunkId =
      ((chunker.chunk docId docVersion parserVersion pages).map Chunk.chunkIndex).map
        (chunkId docId docVersion parserVersion) := by
    rw [List.map_map]
    apply List.map_congr_left
    intro c hc
    rw [chunk_eq_flatten] at hc
    exact chunkId_of_mem_pageGroups chunker docId docVersion parserVersion hc
  rw [hids, chunk_eq_flatten, hindex]
  exact (List.nodup_range').map (chunkId_injective docId docVersion parserVersion)

/-- The chunks of a document are numbered from zero, have distinct ids, and cover its pages one
after the other. -/
theorem chunk_covers (chunker : InMemoryChunker) (docId docVersion parserVersion : String)
    (pages : List ParsedPage) :
    let chunks := chunker.chunk docId docVersion parserVersion pages
    chunks.map Chunk.chunkIndex = List.range chunks.length ∧
    (chunks.map Chunk.chunkId).Nodup ∧
    ∃ groups : List (List Chunk), chunks = groups.flatten ∧
      List.Forall₂ (PageCovered chunker) pages groups := by
  refine ⟨?_, chunker.nodup_chunkIds docId docVersion parserVersion pages, ?_⟩
  · rw [chunk_eq_flatten, map_chunkIndex_pageGroups, List.range_eq_range']
  · exact ⟨_, chunk_eq_flatten chunker docId docVersion parserVersion pages,
      forall₂_pageGroups docId docVersion parserVersion chunker 0 pages⟩

example : ((InMemoryChunker.init 3 1).chunk "d" "v1" "p1"
    [{ pageNumber := 1, text := "a b  c d e" }]).map Chunk.content = ["a b c", "c d e"] := by
  decide +kernel

end Covered

end DomainRag.Indexing
