import DomainRag.Assessment.ItemExtractor

/-! # Transposed answer grids

A grid lists the numbers of some questions, one a line, and then as many answers. An answer may be
printed as a bare digit, which looks like a number of a question: if it continues the numbers before
it, the block is not read as it stands.
-/

namespace DomainRag.Assessment

section Scan

variable {out : Dict Int Nat} {tokens : List GridToken}

theorem mapM_eq_some_iff {A B : Type} {f : A → Option B} {xs : List A} {ys : List B} :
    xs.mapM f = some ys ↔ xs.map f = ys.map some := by
  induction xs generalizing ys with
  | nil => cases ys <;> simp
  | cons x xs ih =>
    simp only [List.mapM_cons, Option.bind_eq_bind, Option.bind_eq_some_iff, Option.pure_def,
      Option.some.injEq, ih]
    constructor
    · rintro ⟨y, hy, zs, hzs, rfl⟩
      simp [hy, hzs]
    · intro h
      cases ys with
      | nil => simp at h
      | cons y ys =>
        simp only [List.map_cons, List.cons.injEq] at h
        exact ⟨y, h.1, ys, h.2, rfl⟩

theorem gridBlock?_eq_some_iff {n length : Nat} {answers : List (Nat × Nat)} :
    gridBlock? n length tokens = some answers ↔
      3 ≤ length ∧ 2 * length ≤ tokens.length ∧ n ≤ 100 ∧
        ∃ vals, ((tokens.drop length).take length).map GridToken.answer? = vals.map some ∧
          (List.range' n length).zip vals = answers := by
  have hlength : ((tokens.drop length).take length).length = min length (tokens.length - length) := by
    rw [List.length_take, List.length_drop]
  rw [gridBlock?]
  simp only [hlength]
  split
  · rename_i hblock
    simp only [Option.map_eq_some_iff, mapM_eq_some_iff]
    constructor
    · exact fun h => ⟨hblock.1, by omega, hblock.2.2, h⟩
    · exact fun h => h.2.2.2
  · rename_i hblock
    refine ⟨nofun, ?_⟩
    rintro ⟨hthree, hlong, hfirst, -⟩
    exact absurd ⟨hthree, Nat.min_eq_left (by omega), hfirst⟩ hblock

theorem length_of_gridBlock? {n length : Nat} {answers : List (Nat × Nat)}
    (h : gridBlock? n length tokens = some answers) : answers.length = length := by
  obtain ⟨-, hlong, -, vals, hvals, rfl⟩ := gridBlock?_eq_some_iff.mp h
  have hlength := congrArg List.length hvals
  simp only [List.length_map, List.length_take, List.length_drop] at hlength
  simp only [List.length_zip, List.length_range']
  omega

/-- Every token that a block takes as an answer shows one. -/
theorem answer?_of_gridBlock? {n length i : Nat} {answers : List (Nat × Nat)} {token : GridToken}
    (h : gridBlock? n length tokens = some answers) (hle : length ≤ i) (hlt : i < 2 * length)
    (htoken : tokens[i]? = some token) : ∃ idx, token.answer? = some idx := by
  obtain ⟨-, -, -, vals, hvals, -⟩ := gridBlock?_eq_some_iff.mp h
  have hplace : ((tokens.drop length).take length)[i - length]? = some token := by
    rw [List.getElem?_take, if_pos (by omega), List.getElem?_drop,
      show length + (i - length) = i by omega, htoken]
  have hanswer := congrArg (fun l => l[i - length]?) hvals
  simp only [List.getElem?_map, hplace, Option.map_some] at hanswer
  obtain ⟨idx, -, hidx⟩ := Option.map_eq_some_iff.mp hanswer.symm
  exact ⟨idx, hidx.symm⟩

/-- What the scan goes on with when it has read a block. -/
def blockRead (out : Dict Int Nat) (answers : List (Nat × Nat)) : Dict Int Nat :=
  out.update (answers.map fun e => ((e.1 : Int), e.2))

theorem readGrid_skip (out : Dict Int Nat) (skip : Nat) (tokens : List GridToken) :
    readGrid out skip tokens = readGrid out 0 (tokens.drop skip) := by
  induction tokens generalizing skip with
  | nil => cases skip <;> rfl
  | cons token tokens ih =>
    cases skip with
    | zero => rfl
    | succ skip => exact ih skip

theorem readGrid_of_some {n : Nat} {answers : List (Nat × Nat)}
    (h : gridBlock? n (ascending n tokens + 1) (.num n :: tokens) = some answers) :
    readGrid out 0 (.num n :: tokens) =
      readGrid (blockRead out answers) 0
        ((GridToken.num n :: tokens).drop (2 * (ascending n tokens + 1))) := by
  rw [readGrid, h]
  exact readGrid_skip _ _ _

/-- Two tokens are needed for each answer of the grid. -/
theorem length_readGrid_le (out : Dict Int Nat) (skip : Nat) (tokens : List GridToken) :
    2 * (readGrid out skip tokens).entries.length ≤
      2 * out.entries.length + (tokens.length - skip) := by
  fun_induction readGrid out skip tokens with
  | case1 => omega
  | case2 out skip token tokens ih =>
    rw [List.length_cons]
    omega
  | case3 out idx tokens ih =>
    rw [List.length_cons]
    omega
  | case4 out n tokens length answers hanswers ih =>
    have hlength := length_of_gridBlock? hanswers
    have hupdate := out.length_update_le (answers.map fun e => ((e.1 : Int), e.2))
    obtain ⟨hthree, hlong, -⟩ := gridBlock?_eq_some_iff.mp hanswers
    rw [List.length_map] at hupdate
    rw [List.length_cons] at hlong ⊢
    omega
  | case5 out n tokens length hnone ih =>
    rw [List.length_cons]
    omega

/-- The scan finds an answer for every second token. -/
def Full (out : Dict Int Nat) (tokens : List GridToken) : Prop :=
  2 * out.entries.length + tokens.length ≤ 2 * (readGrid out 0 tokens).entries.length

/-- A full scan passes over no token: it starts with a block, and goes on behind it. -/
theorem Full.exists_block (h : Full out tokens) (htokens : tokens ≠ []) :
    ∃ n rest answers, tokens = .num n :: rest ∧
      gridBlock? n (ascending n rest + 1) tokens = some answers ∧
      Full (blockRead out answers) (tokens.drop (2 * (ascending n rest + 1))) := by
  have hpass : ∀ token rest, tokens = token :: rest → readGrid out 0 tokens ≠ readGrid out 0 rest := by
    rintro token rest rfl heq
    have hle := length_readGrid_le out 0 rest
    rw [Full, heq, List.length_cons] at h
    omega
  match tokens with
  | [] => exact absurd rfl htokens
  | .ans idx :: rest => exact absurd rfl (hpass (.ans idx) rest rfl)
  | .num n :: rest =>
    cases hblock : gridBlock? n (ascending n rest + 1) (.num n :: rest) with
    | none =>
      have hnone : readGrid out 0 (.num n :: rest) = readGrid out 0 rest := by rw [readGrid, hblock]
      exact absurd hnone (hpass _ _ rfl)
    | some answers =>
      refine ⟨n, rest, answers, rfl, hblock, ?_⟩
      have hlength := length_of_gridBlock? hblock
      have hupdate := out.length_update_le (answers.map fun e => ((e.1 : Int), e.2))
      obtain ⟨-, hlong, -⟩ := gridBlock?_eq_some_iff.mp hblock
      rw [List.length_map] at hupdate
      rw [Full, readGrid_of_some hblock] at h
      rw [Full, List.length_drop]
      rw [blockRead] at h ⊢
      omega

end Scan

section Blocks

/-- An answer of a grid: which of the four choices it is, and whether it is printed as a digit. -/
structure GridAnswer where
  idx : Fin 4
  bare : Bool

def GridAnswer.token (a : GridAnswer) : GridToken :=
  if a.bare then .num (a.idx.val + 1) else .ans a.idx.val

/-- A block of a grid: the questions from number `first` on, and their answers. -/
structure GridBlock where
  first : Nat
  answers : List GridAnswer
  three_le : 3 ≤ answers.length
  first_le : first ≤ 100

namespace GridBlock

def numbers (b : GridBlock) : List Nat := List.range' b.first b.answers.length

def tokens (b : GridBlock) : List GridToken :=
  b.numbers.map .num ++ b.answers.map GridAnswer.token

def entries (b : GridBlock) : List (Nat × Nat) := b.numbers.zip (b.answers.map (·.idx.val))

/-- The first answer is printed as the digit that comes after the last number of the block. -/
def Continues (b : GridBlock) : Prop :=
  ∃ a, b.answers.head? = some a ∧ a.bare = true ∧ a.idx.val + 1 = b.first + b.answers.length

end GridBlock

variable {b : GridBlock} {rest : List GridToken}

@[simp] theorem GridAnswer.answer?_token (a : GridAnswer) : a.token.answer? = some a.idx.val := by
  rw [GridAnswer.token]
  split
  · have := a.idx.isLt
    rw [GridToken.answer?, if_pos (by omega), Nat.add_sub_cancel]
  · rfl

theorem GridAnswer.token_eq_num_iff {a : GridAnswer} {n : Nat} :
    a.token = .num n ↔ a.bare = true ∧ a.idx.val + 1 = n := by
  rw [GridAnswer.token]
  split <;> simp_all

theorem ascending_eq_zero_iff {n : Nat} :
    ascending n rest = 0 ↔ rest.head? ≠ some (.num (n + 1)) := by
  match rest with
  | [] => simp [ascending]
  | .ans idx :: rest => simp [ascending]
  | .num m :: rest =>
    rw [ascending]
    split
    · rename_i hm
      simp [hm]
    · rename_i hm
      simpa using hm

/-- The run of numbers goes through the numbers of a block. -/
theorem ascending_numbers (n k : Nat) (rest : List GridToken) :
    ascending n ((List.range' (n + 1) k).map .num ++ rest) = k + ascending (n + k) rest := by
  induction k generalizing n with
  | zero => simp
  | succ k ih =>
    rw [List.range'_succ, List.map_cons, List.cons_append, ascending, if_pos rfl, ih,
      show n + 1 + k = n + (k + 1) by omega]
    omega

namespace GridBlock

@[simp] theorem length_numbers (b : GridBlock) : b.numbers.length = b.answers.length :=
  List.length_range'

@[simp] theorem length_entries (b : GridBlock) : b.entries.length = b.answers.length := by
  simp [entries]

@[simp] theorem length_tokens (b : GridBlock) : b.tokens.length = 2 * b.answers.length := by
  simp [tokens]
  omega

theorem mem_numbers_iff {n : Nat} :
    n ∈ b.numbers ↔ b.first ≤ n ∧ n < b.first + b.answers.length := by
  rw [numbers, List.mem_range'_1]

theorem map_fst_entries (b : GridBlock) : b.entries.map Prod.fst = b.numbers :=
  List.map_fst_zip (by simp)

/-- The tokens behind the first number of a block. -/
theorem tokens_append (b : GridBlock) (rest : List GridToken) :
    b.tokens ++ rest = .num b.first :: ((List.range' (b.first + 1) (b.answers.length - 1)).map .num ++
      (b.answers.map GridAnswer.token ++ rest)) := by
  obtain ⟨k, hk⟩ := Nat.exists_eq_add_of_le' b.three_le
  rw [tokens, numbers, List.append_assoc, hk, List.range'_succ]
  rfl

theorem run_eq (b : GridBlock) (rest : List GridToken) :
    ascending b.first ((List.range' (b.first + 1) (b.answers.length - 1)).map .num ++
        (b.answers.map GridAnswer.token ++ rest)) + 1 =
      b.answers.length + ascending (b.first + b.answers.length - 1)
        (b.answers.map GridAnswer.token ++ rest) := by
  have hthree := b.three_le
  rw [ascending_numbers,
    show b.first + (b.answers.length - 1) = b.first + b.answers.length - 1 by omega]
  omega

theorem continues_iff (rest : List GridToken) : b.Continues ↔
    ascending (b.first + b.answers.length - 1)
    (b.answers.map GridAnswer.token ++ rest) ≠ 0 := by
  have hthree := b.three_le
  obtain ⟨a, as, has⟩ := List.exists_cons_of_length_pos (show 0 < b.answers.length by omega)
  rw [ne_eq, ascending_eq_zero_iff, not_not, Nat.sub_add_cancel (by omega), Continues, has]
  simp [GridAnswer.token_eq_num_iff]

/-- A block is read as it stands if its first answer does not continue its numbers. -/
theorem readGrid_append (hb : ¬ b.Continues) (out : Dict Int Nat) (rest : List GridToken) :
    readGrid out 0 (b.tokens ++ rest) = readGrid (blockRead out b.entries) 0 rest := by
  have hthree := b.three_le
  have hzero := of_not_not (mt (continues_iff rest).mpr hb)
  have hrun := b.run_eq rest
  simp only [hzero, Nat.add_zero] at hrun
  have hblock : gridBlock? b.first b.answers.length (b.tokens ++ rest) = some b.entries := by
    refine gridBlock?_eq_some_iff.mpr ⟨hthree, ?_, b.first_le, b.answers.map (·.idx.val), ?_, rfl⟩
    · simp
    · have hdrop : (b.tokens ++ rest).drop b.answers.length =
          b.answers.map GridAnswer.token ++ rest := by
        rw [tokens, List.append_assoc]
        exact List.drop_left' (by simp)
      rw [hdrop, List.take_left' (by simp)]
      simp
  rw [tokens_append] at hblock ⊢
  rw [readGrid_of_some (by rw [hrun, hblock]), hrun, ← tokens_append]
  rw [List.drop_left' b.length_tokens]

end GridBlock

/-- The answers that are printed in the blocks of a grid. -/
def gridEntries (blocks : List GridBlock) : List (Nat × Nat) := blocks.flatMap GridBlock.entries

variable {blocks : List GridBlock}

theorem map_fst_gridEntries (blocks : List GridBlock) :
    (gridEntries blocks).map Prod.fst = blocks.flatMap GridBlock.numbers := by
  rw [gridEntries, List.map_flatMap]
  exact congrArg (blocks.flatMap ·) (funext GridBlock.map_fst_entries)

theorem length_flatMap_tokens (blocks : List GridBlock) :
    (blocks.flatMap GridBlock.tokens).length = 2 * (blocks.flatMap GridBlock.numbers).length := by
  induction blocks with
  | nil => rfl
  | cons b blocks ih =>
    simp only [List.flatMap_cons, List.length_append, ih, GridBlock.length_tokens,
      GridBlock.length_numbers]
    omega

theorem readGrid_blocks (h : ∀ b ∈ blocks, ¬ b.Continues) (out : Dict Int Nat) :
    readGrid out 0 (blocks.flatMap GridBlock.tokens) = blockRead out (gridEntries blocks) := by
  induction blocks generalizing out with
  | nil => rfl
  | cons b blocks ih =>
    obtain ⟨hb, hblocks⟩ := List.forall_mem_cons.mp h
    rw [List.flatMap_cons, b.readGrid_append hb, ih hblocks]
    simp only [gridEntries, blockRead, List.flatMap_cons, List.map_append, Dict.update_append]

/-- A run of numbers ends in the answers behind it, as they are at most four. -/
theorem ascending_answers_le (n : Nat) {answers : List GridAnswer} (hne : answers ≠ [])
    (hlong : 4 < n + answers.length) (rest : List GridToken) :
    n + ascending n (answers.map GridAnswer.token ++ rest) ≤ max 4 n := by
  induction answers generalizing n with
  | nil => exact absurd rfl hne
  | cons a as ih =>
    have ha := a.idx.isLt
    rw [List.length_cons] at hlong
    by_cases htoken : a.token = .num (n + 1)
    · obtain ⟨-, hidx⟩ := GridAnswer.token_eq_num_iff.mp htoken
      have has : as ≠ [] := List.ne_nil_of_length_pos (by omega)
      have hrest := ih (n + 1) has (by omega)
      rw [List.map_cons, List.cons_append, htoken, ascending, if_pos rfl]
      omega
    · have hzero : ascending n ((a :: as).map GridAnswer.token ++ rest) = 0 := by
        rw [ascending_eq_zero_iff]
        simpa using htoken
      omega

theorem GridBlock.getElem?_tokens (b : GridBlock) (rest : List GridToken) {i : Nat}
    (hi : i < b.answers.length) : (b.tokens ++ rest)[i]? = some (.num (b.first + i)) := by
  rw [tokens, List.append_assoc, List.getElem?_append_left (by simpa using hi), numbers]
  simp [hi]

theorem exists_cons_of_pos_length (blocks : List GridBlock)
    (h : 0 < (blocks.flatMap GridBlock.tokens).length) :
    ∃ b blocks', blocks = b :: blocks' := by
  refine List.exists_cons_of_ne_nil ?_
  rintro rfl
  exact absurd h (by decide)

theorem answer?_num_eq_some_iff {n idx : Nat} :
    (GridToken.num n).answer? = some idx ↔ n = idx + 1 ∧ idx < 4 := by
  rw [GridToken.answer?]
  split
  · rw [Option.some.injEq]
    omega
  · refine ⟨nofun, fun h => ?_⟩
    omega

/-- Behind a block whose first answer continues its numbers, a full scan needs the questions `3` and
`4` as answers. -/
theorem GridBlock.Continues.next (hb : b.Continues) {out : Dict Int Nat}
    (hdistinct : ((b :: blocks).flatMap GridBlock.numbers).Nodup)
    (hfull : Full out ((b :: blocks).flatMap GridBlock.tokens)) :
    ∃ b' blocks' out', blocks = b' :: blocks' ∧ b'.first = 3 ∧
      Full out' ((b'.tokens ++ blocks'.flatMap GridBlock.tokens).drop 2) := by
  have hthree := b.three_le
  obtain ⟨a, -, -, hlast⟩ := id hb
  have ha := a.idx.isLt
  rw [List.flatMap_cons] at hfull hdistinct
  have hne : b.tokens ++ blocks.flatMap GridBlock.tokens ≠ [] := by
    rw [tokens_append]
    nofun
  obtain ⟨n, rest, answers, htokens, hblock, hnext⟩ := hfull.exists_block hne
  rw [tokens_append] at htokens
  cases htokens
  rw [run_eq] at hblock hnext
  -- the run takes in the first answer, and perhaps one more
  have hlong := (continues_iff (blocks.flatMap GridBlock.tokens)).mp hb
  have hshort := ascending_answers_le (b.first + b.answers.length - 1)
    (List.ne_nil_of_length_pos (show 0 < b.answers.length by omega)) (by omega)
    (blocks.flatMap GridBlock.tokens)
  generalize ascending (b.first + b.answers.length - 1)
    (b.answers.map GridAnswer.token ++ blocks.flatMap GridBlock.tokens) = more at *
  obtain ⟨-, hlength, -⟩ := gridBlock?_eq_some_iff.mp hblock
  rw [List.length_append, length_tokens] at hlength
  obtain ⟨b', blocks', rfl⟩ := exists_cons_of_pos_length blocks (by omega)
  have hthree' := b'.three_le
  rw [List.flatMap_cons] at hlength hblock hnext hdistinct
  have htoken : ∀ i < b'.answers.length, (b.tokens ++ (b'.tokens ++
      blocks'.flatMap GridBlock.tokens))[2 * b.answers.length + i]? = some (.num (b'.first + i)) := by
    intro i hi
    rw [← b.length_tokens, List.getElem?_append_right (Nat.le_add_right _ _), Nat.add_sub_cancel_left]
    exact b'.getElem?_tokens _ hi
  have hanswer : ∀ i < b'.answers.length, 2 * b.answers.length + i < 2 * (b.answers.length + more) →
      1 ≤ b'.first + i ∧ b'.first + i ≤ 4 := by
    intro i hi hlt
    obtain ⟨idx, hidx⟩ := answer?_of_gridBlock? hblock (by omega) hlt (htoken i hi)
    have := answer?_num_eq_some_iff.mp hidx
    omega
  have hdisjoint : ∀ n ∈ b.numbers, n ∉ b'.numbers := by
    intro n hn hn'
    exact List.disjoint_of_nodup_append hdistinct hn (List.mem_append_left _ hn')
  simp only [mem_numbers_iff] at hdisjoint
  have hzero := hanswer 0 (by omega) (by omega)
  have hone := hanswer 1 (by omega) (by omega)
  have hfirst := hdisjoint b'.first
  have hsecond := hdisjoint (b'.first + 1)
  have hthird := hanswer 2 (by omega)
  refine ⟨b', blocks', blockRead out answers, rfl, by omega, ?_⟩
  have hskip : 2 * (b.answers.length + more) = b.tokens.length + 2 := by
    rw [length_tokens]
    omega
  rw [hskip, ← List.drop_drop, List.drop_left] at hnext
  exact hnext

theorem exists_cons_of_ascending {n : Nat} (h : 1 ≤ ascending n rest) :
    ∃ rest', rest = .num (n + 1) :: rest' := by
  rw [← List.head?_eq_some_iff]
  by_contra hne
  have hzero := ascending_eq_zero_iff.mpr hne
  omega

theorem two_le_ascending {n : Nat} (h : 2 ≤ ascending n rest) :
    ∃ rest', rest = .num (n + 1) :: .num (n + 2) :: rest' := by
  obtain ⟨rest, rfl⟩ := exists_cons_of_ascending (show 1 ≤ ascending n rest by omega)
  rw [ascending, if_pos rfl] at h
  obtain ⟨rest, rfl⟩ := exists_cons_of_ascending (show 1 ≤ ascending (n + 1) rest by omega)
  exact ⟨rest, rfl⟩

/-- A block that starts with `3`, from its third number on. -/
theorem GridBlock.drop_two_tokens {k : Nat} (hb : b.first = 3) (hk : b.answers.length = k + 3)
    (rest : List GridToken) : (b.tokens ++ rest).drop 2 =
      .num 5 :: ((List.range' 6 k).map .num ++ (b.answers.map GridAnswer.token ++ rest)) := by
  rw [tokens, numbers, List.append_assoc, hk, hb, List.range'_succ, List.range'_succ,
    List.range'_succ]
  rfl

/-- The last two answers are left over when as many answers as numbers are read from there on. -/
theorem GridBlock.drop_last_answers {k : Nat} (hk : b.answers.length = k + 3)
    (rest : List GridToken) : ∃ a a' : GridAnswer,
      ((b.tokens ++ rest).drop 2).drop (2 * (k + 1)) = a.token :: a'.token :: rest := by
  obtain ⟨a, a', hlast⟩ : ∃ a a', b.answers.drop (k + 1) = [a, a'] := by
    rw [← List.length_eq_two, List.length_drop]
    omega
  have hskip : 2 + 2 * (k + 1) = b.answers.length + (k + 1) := by omega
  refine ⟨a, a', ?_⟩
  rw [List.drop_drop, hskip, ← List.drop_drop, tokens, List.append_assoc,
    List.drop_left' (by simp), List.drop_append_of_le_length (by simp; omega), ← List.map_drop,
    hlast]
  rfl

/-- The scan of a block from its third number on leaves two answers over, which start no block. -/
theorem GridBlock.not_full_drop (b : GridBlock) (hb : b.first = 3)
    (hdistinct : ((b :: blocks).flatMap GridBlock.numbers).Nodup) (out : Dict Int Nat) :
    ¬ Full out ((b.tokens ++ blocks.flatMap GridBlock.tokens).drop 2) := by
  intro hfull
  have hthree := b.three_le
  obtain ⟨k, hk⟩ := Nat.exists_eq_add_of_le' hthree
  have hdrop := drop_two_tokens hb hk (blocks.flatMap GridBlock.tokens)
  have hzero : ascending (5 + k)
      (b.answers.map GridAnswer.token ++ blocks.flatMap GridBlock.tokens) = 0 := by
    have hle := ascending_answers_le (5 + k)
      (List.ne_nil_of_length_pos (show 0 < b.answers.length by omega)) (by omega)
      (blocks.flatMap GridBlock.tokens)
    omega
  obtain ⟨n, rest, answers, htokens, hblock, hnext⟩ :=
    hfull.exists_block (by rw [hdrop]; exact List.cons_ne_nil _ _)
  rw [hdrop] at htokens
  cases htokens
  rw [ascending_numbers, hzero] at hblock hnext
  obtain ⟨hlong, -⟩ := gridBlock?_eq_some_iff.mp hblock
  obtain ⟨a, a', hleft⟩ := drop_last_answers hk (blocks.flatMap GridBlock.tokens)
  rw [Nat.add_zero, hleft] at hnext
  obtain ⟨n, rest, answers', htokens, hblock, -⟩ := hnext.exists_block (List.cons_ne_nil _ _)
  obtain ⟨ha, hrest⟩ := List.cons.inj htokens
  obtain ⟨hthree', -⟩ := gridBlock?_eq_some_iff.mp hblock
  obtain ⟨rest', hrun⟩ := two_le_ascending (show 2 ≤ ascending n rest by omega)
  obtain ⟨ha', htokens⟩ := List.cons.inj (hrest.trans hrun)
  have hpos := (GridAnswer.token_eq_num_iff.mp ha).2
  have hle := (GridAnswer.token_eq_num_iff.mp ha').2
  have hlt := a'.idx.isLt
  obtain ⟨b', blocks', rfl⟩ := exists_cons_of_pos_length blocks (by rw [htokens]; simp)
  rw [List.flatMap_cons, tokens_append] at htokens
  obtain ⟨hfirst, -⟩ := List.cons.inj htokens
  have hnext : b'.first = n + 2 := by injection hfirst
  -- its number is one of the block's
  rw [List.flatMap_cons, List.flatMap_cons] at hdistinct
  refine List.disjoint_of_nodup_append hdistinct (a := b'.first) ?_ (List.mem_append_left _ ?_)
  · rw [mem_numbers_iff]
    omega
  · have := b'.three_le
    rw [mem_numbers_iff]
    omega

theorem not_continues_of_full (out : Dict Int Nat)
    (hdistinct : (blocks.flatMap GridBlock.numbers).Nodup)
    (hfull : Full out (blocks.flatMap GridBlock.tokens)) : ∀ b ∈ blocks, ¬ b.Continues := by
  induction blocks generalizing out with
  | nil => exact List.forall_mem_nil _
  | cons b blocks ih =>
    have hb : ¬ b.Continues := by
      intro hb
      obtain ⟨b', blocks', out', rfl, hfirst, hfull'⟩ := hb.next hdistinct hfull
      rw [List.flatMap_cons] at hdistinct
      exact b'.not_full_drop hfirst (List.nodup_append.mp hdistinct).2.1 out' hfull'
    rw [List.flatMap_cons] at hdistinct hfull
    refine List.forall_mem_cons.mpr ⟨hb, ih (blockRead out b.entries) ?_ ?_⟩
    · exact (List.nodup_append.mp hdistinct).2.1
    · have hupdate := out.length_update_le (b.entries.map fun e => ((e.1 : Int), e.2))
      rw [List.length_map, GridBlock.length_entries] at hupdate
      rw [Full, b.readGrid_append hb, List.length_append, GridBlock.length_tokens] at hfull
      rw [Full]
      rw [blockRead] at hfull ⊢
      omega

/-- The lines of the pages that show a number or a label are those of a grid. -/
structure GridLaidOut (pageTexts : List String) (blocks : List GridBlock) : Prop where
  tokens : (pageTexts.flatMap fun text => (splitLines text).filterMap gridToken?) =
    blocks.flatMap GridBlock.tokens
  distinct : (blocks.flatMap GridBlock.numbers).Nodup

/-- The parser returns exactly the questions of a grid with their answers. -/
def ReadsGrid (pageTexts : List String) (blocks : List GridBlock) : Prop :=
  ∀ (n : Int) (idx : Nat), (parseTransposedAnswerGrid pageTexts).get? n = some idx ↔
    ∃ e ∈ gridEntries blocks, n = e.1 ∧ idx = e.2

variable {pageTexts : List String}

/-- A grid is read exactly if no block has its first answer printed as the digit that continues its
numbers. -/
theorem readsGrid_iff (h : GridLaidOut pageTexts blocks) :
    ReadsGrid pageTexts blocks ↔ ∀ b ∈ blocks, ¬ b.Continues := by
  have hkeys : ((gridEntries blocks).map fun e => ((e.1 : Int), e.2)).map Prod.fst =
      (blocks.flatMap GridBlock.numbers).map Nat.cast := by
    rw [← map_fst_gridEntries, List.map_map, List.map_map]
    rfl
  have hnodup : ((blocks.flatMap GridBlock.numbers).map (Nat.cast : Nat → Int)).Nodup :=
    h.distinct.map Nat.cast_injective
  rw [ReadsGrid, parseTransposedAnswerGrid, h.tokens]
  constructor
  · intro hreads
    refine not_continues_of_full .empty h.distinct ?_
    have hsubset : (blocks.flatMap GridBlock.numbers).map Nat.cast ⊆
        (readGrid .empty 0 (blocks.flatMap GridBlock.tokens)).keys := by
      rw [← map_fst_gridEntries]
      intro n hn
      obtain ⟨_, hm, rfl⟩ := List.mem_map.mp hn
      obtain ⟨e, he, rfl⟩ := List.mem_map.mp hm
      rw [← Dict.get?_isSome_iff, (hreads e.1 e.2).mpr ⟨e, he, rfl, rfl⟩]
      rfl
    have hle := (hnodup.subperm hsubset).length_le
    rw [List.length_map, Dict.keys, List.length_map] at hle
    rw [Full, length_flatMap_tokens]
    exact Nat.mul_le_mul_left 2 hle |>.trans' (by simp [Dict.empty])
  · intro hblocks n idx
    rw [readGrid_blocks hblocks, blockRead, ← Dict.ofList, Dict.get?_ofList_iff (hkeys ▸ hnodup)]
    simp only [List.mem_map, Prod.mk.injEq]
    constructor
    · rintro ⟨e, he, rfl, rfl⟩
      exact ⟨e, he, rfl, rfl⟩
    · rintro ⟨e, he, rfl, rfl⟩
      exact ⟨e, he, rfl, rfl⟩

theorem readsGrid_bare_digits : ReadsGrid ["1\n2\n3\n정답", "2\n①\n4"]
    [⟨1, [⟨1, true⟩, ⟨0, false⟩, ⟨3, true⟩], by decide, by decide⟩] := by
  refine (readsGrid_iff ⟨by decide +kernel, by decide⟩).mpr ?_
  rw [List.forall_mem_singleton]
  rintro ⟨a, ha, -, hidx⟩
  cases ha
  exact absurd hidx (by decide)

/-- The answer 4 of the first question is read as a number, and the fourth question gets the answer 4
instead of its own. -/
theorem continuing_answer_shifts :
    ¬ ∀ pageTexts blocks, GridLaidOut pageTexts blocks → ReadsGrid pageTexts blocks := by
  intro h
  have hreads := h ["1\n2\n3\n4\n1\n2\n4\n5\n6\n1\n1\n1"]
    [⟨1, [⟨3, true⟩, ⟨0, true⟩, ⟨1, true⟩], by decide, by decide⟩,
      ⟨4, [⟨0, true⟩, ⟨0, true⟩, ⟨0, true⟩], by decide, by decide⟩] ⟨by decide +kernel, by decide⟩
  have hfourth := (hreads 4 0).mpr ⟨(4, 0), by decide, rfl, rfl⟩
  have hread : (parseTransposedAnswerGrid ["1\n2\n3\n4\n1\n2\n4\n5\n6\n1\n1\n1"]).get? 4 = some 3 := by
    decide +kernel
  exact absurd (hread.symm.trans hfourth) (by decide)

end Blocks

end DomainRag.Assessment
