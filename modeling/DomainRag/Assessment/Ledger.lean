import DomainRag.Assessment.AnswerKey
import Mathlib.Data.List.ReduceOption

/-! # Where the lines of a paper belong

A ledger gives every line of a paper to a field of a question. The questions that the parser reads
hold, field by field, what the ledger gives them.
-/

namespace DomainRag.Assessment

section Ledger

inductive LineKind where
  | header (no : String)
  | opening (text : String)
  | marked (i : Fin 4) (text : String)
  | continued
  deriving DecidableEq

def markerKind (ln : String) : LineKind :=
  match ln.toList with
  | [] => .continued
  | c :: cs => match circled? c with
    | some i => .marked i (lstrip cs)
    | none => .continued

def LineKind.header? : LineKind → Option String
  | .header no => some no
  | _ => none

/-- What a line is after the line of the question with a number, with its text behind the number or
the marker. -/
def lineKind (number : Nat) (ln : String) : LineKind :=
  match subjectHeader? ln.toList with
  | some no => .header no
  | none => match numbered? ln.toList with
    | some (digits, text) =>
      if decimal digits = number + 1 then .opening text else markerKind ln
    | none => markerKind ln

theorem header?_lineKind (number : Nat) (ln : String) :
    (lineKind number ln).header? = subjectHeader? ln.toList := by
  have hmarker : (markerKind ln).header? = none := by
    unfold markerKind
    split
    · rfl
    · split <;> rfl
  unfold lineKind
  split
  · rename_i hheader
    exact hheader.symm
  · rename_i hheader
    rw [hheader]
    split
    · split
      · rfl
      · exact hmarker
    · exact hmarker

/-- The text of a line, with the number of the question and the field that it belongs to. Lines
before the first question have the number zero. -/
structure Piece where
  number : Nat
  field : Field
  text : String

/-- The question and the field of the last line. -/
structure Cursor where
  number : Nat := 0
  field : Field := .question

namespace Cursor

variable (c : Cursor)

def piece? (ln : String) : Option Piece :=
  match lineKind c.number ln with
  | .header _ => none
  | .opening text => some ⟨c.number + 1, .question, text⟩
  | .marked i text => some ⟨c.number, .choice i, text⟩
  | .continued => some ⟨c.number, c.field, ln⟩

def next (ln : String) : Cursor :=
  match c.piece? ln with
  | none => c
  | some p => ⟨p.number, p.field⟩

end Cursor

def cursorAfter (lines : List String) : Cursor := lines.foldl Cursor.next {}

/-- The pieces of all lines, one after the other. A header has none. -/
def ledger : Cursor → List String → List (Option Piece)
  | _, [] => []
  | c, ln :: lines => c.piece? ln :: ledger (c.next ln) lines

/-- What the lines of a paper give to a field of a question. -/
def textsFor (lines : List String) (n : Nat) (field : Field) : List String :=
  ((ledger {} lines).reduceOption.filter fun p => p.number = n ∧ p.field = field).map Piece.text

def headerAbove (lines : List String) : Option String :=
  (lines.filterMap fun ln => subjectHeader? ln.toList).getLast?

theorem ledger_append (c : Cursor) (lines : List String) (ln : String) :
    ledger c (lines ++ [ln]) = ledger c lines ++ [(lines.foldl Cursor.next c).piece? ln] := by
  induction lines generalizing c with
  | nil => rfl
  | cons l lines ih => rw [List.cons_append, ledger, ih, ledger, List.cons_append, List.foldl_cons]

theorem cursorAfter_append (lines : List String) (ln : String) :
    cursorAfter (lines ++ [ln]) = (cursorAfter lines).next ln := by
  rw [cursorAfter, List.foldl_append, List.foldl_cons, List.foldl_nil, ← cursorAfter]

def Piece.textsFor (p : Piece) (n : Nat) (field : Field) : List String :=
  if p.number = n ∧ p.field = field then [p.text] else []

theorem textsFor_append (lines : List String) (ln : String) (n : Nat) (field : Field) :
    textsFor (lines ++ [ln]) n field =
      textsFor lines n field ++ ((cursorAfter lines).piece? ln).elim [] (·.textsFor n field) := by
  rw [textsFor, ledger_append, ← cursorAfter, List.reduceOption_append, List.filter_append,
    List.map_append, ← textsFor]
  congr 1
  cases (cursorAfter lines).piece? ln with
  | none => rfl
  | some p =>
    rw [Option.elim_some, Piece.textsFor]
    split
    · rename_i h
      simp [h]
    · rename_i h
      simp [h]

theorem Cursor.le_next (c : Cursor) (ln : String) : c.number ≤ (c.next ln).number := by
  rw [Cursor.next, Cursor.piece?]
  cases lineKind c.number ln <;> simp

theorem Cursor.le_foldl (c : Cursor) (lines : List String) :
    c.number ≤ (lines.foldl Cursor.next c).number := by
  induction lines generalizing c with
  | nil => exact le_rfl
  | cons ln lines ih => exact (c.le_next ln).trans (ih (c.next ln))

/-- Nothing belongs to the questions that have not been opened yet. -/
theorem textsFor_of_lt {lines : List String} {n : Nat} (h : (cursorAfter lines).number < n)
    (field : Field) : textsFor lines n field = [] := by
  induction lines using List.reverseRecOn with
  | nil => rfl
  | append_singleton lines ln ih =>
    rw [cursorAfter_append] at h
    have hle := (cursorAfter lines).le_next ln
    rw [textsFor_append, ih (by omega), List.nil_append]
    rw [Cursor.next] at h
    cases hp : (cursorAfter lines).piece? ln with
    | none => rfl
    | some p =>
      rw [hp] at h
      exact if_neg fun hand => absurd hand.1 (by simpa using h.ne)

theorem headerAbove_append (lines : List String) (ln : String) :
    headerAbove (lines ++ [ln]) = (subjectHeader? ln.toList).or (headerAbove lines) := by
  rw [headerAbove, List.filterMap_append, List.getLast?_append]
  cases h : subjectHeader? ln.toList <;> simp [headerAbove, h]

end Ledger

section Lines

/-- A line that starts with a number of more digits than an integer is read from. -/
def OverlongLine (ln : String) : Prop :=
  ∃ digits text, numbered? ln.toList = some (digits, text) ∧ 4300 < digits.length

instance (ln : String) : Decidable (OverlongLine ln) :=
  match hnumbered : numbered? ln.toList with
  | none => isFalse fun h => absurd h (by simp [OverlongLine, hnumbered])
  | some (digits, text) => decidable_of_iff (4300 < digits.length) (by simp [OverlongLine, hnumbered])

theorem numbered?_of_header {ln : List Char} {no : String} (h : subjectHeader? ln = some no) :
    numbered? ln = none := by
  unfold subjectHeader? at h
  split at h
  · rw [numbered?, if_pos]
    rfl
  · cases h

/-- What a reading makes of a line of a kind. -/
def Reading.take (r : Reading) (ln : String) : LineKind → Except Exc Reading
  | .header no => .ok { r with curSubj := some no }
  | .opening text => .ok (r.openQuestion text)
  | .marked i text =>
    if text = "" then .ok { r with state := some (.choice i) }
    else if r.cur.isNone then .error (.typeError "'NoneType' object is not subscriptable")
    else .ok ({ r with state := some (.choice i) }.push text)
  | .continued => .ok (r.push ln)

variable {r r' : Reading} {ln : String} {number : Nat}

theorem markedLine_eq (hln : ln ≠ "") : r.markedLine ln = r.take ln (markerKind ln) := by
  rw [Reading.markedLine, markerKind]
  cases hcs : ln.toList with
  | nil => exact absurd (String.toList_eq_nil_iff.mp hcs) hln
  | cons c cs =>
    dsimp only
    cases circled? c <;> rfl

theorem line_eq_ok_iff (hln : ln ≠ "") (hexpected : r.expected = number + 1) :
    r.line ln = .ok r' ↔ ¬ OverlongLine ln ∧ r.take ln (lineKind number ln) = .ok r' := by
  rw [Reading.line, lineKind, OverlongLine]
  cases hheader : subjectHeader? ln.toList with
  | some no => simp [numbered?_of_header hheader, Reading.take]
  | none =>
    cases hnumbered : numbered? ln.toList with
    | none => simp [markedLine_eq hln]
    | some entry =>
      obtain ⟨digits, text⟩ := entry
      have hshort : (¬ ∃ digits' text', some (digits, text) = some (digits', text') ∧
          4300 < digits'.length) ↔ digits.length ≤ 4300 := by simp
      have htake : r.take ln (if decimal digits = number + 1 then .opening text else markerKind ln) =
          if decimal digits = number + 1 then .ok (r.openQuestion text)
          else r.take ln (markerKind ln) := apply_ite (r.take ln) _ _ _
      dsimp only
      rw [hshort, htake, Except.bind_eq_ok_iff]
      simp only [intOf_eq_ok_iff, markedLine_eq hln, hexpected]
      constructor
      · rintro ⟨_, ⟨hle, rfl⟩, h⟩
        exact ⟨hle, h⟩
      · rintro ⟨hle, h⟩
        exact ⟨_, ⟨hle, rfl⟩, h⟩

end Lines

section Follows

/-- The pieces of a field of a question, as they were read. -/
def RawItem.pieces (raw : RawItem) : Field → List String
  | .question => raw.q
  | .choice i => raw.choices i

theorem RawItem.pieces_push (raw : RawItem) (s : String) (field field' : Field) :
    (raw.push s field).pieces field' = raw.pieces field' ++ if field = field' then [s] else [] := by
  cases field <;> cases field' <;> simp [RawItem.push, RawItem.pieces, eq_comm]

/-- The line of question `n` comes directly behind the given lines. -/
def OpensBehind (lines : List String) (n : Nat) (front : List String) : Prop :=
  ∃ ln back text, lines = front ++ ln :: back ∧
    lineKind (cursorAfter front).number ln = .opening text ∧ (cursorAfter front).number + 1 = n

/-- A question holds what the ledger gives to it. -/
structure RawOf (lines : List String) (n : Nat) (raw : RawItem) : Prop where
  number : raw.number = n
  label : ∃ front, OpensBehind lines n front ∧ raw.subjectNo = headerAbove front
  texts : ∀ field, String.join (raw.pieces field) = String.join (textsFor lines n field)

/-- The questions that have been read, with the current one. -/
def Reading.items (r : Reading) : List RawItem := r.rawItems ++ r.cur.toList

/-- A reading has read the questions of some lines, and the last of them is the current one. -/
structure Follows (lines : List String) (r : Reading) : Prop where
  expected : r.expected = (cursorAfter lines).number + 1
  subject : r.curSubj = headerAbove lines
  count : r.items.length = (cursorAfter lines).number
  items : ∀ i raw, r.items[i]? = some raw → RawOf lines (i + 1) raw
  unset : r.cur = none → r.rawItems = []
  state : r.cur.isSome → r.state = some (cursorAfter lines).field

theorem follows_nil : Follows [] {} where
  expected := rfl
  subject := rfl
  count := rfl
  items _ _ h := absurd h (by simp [Reading.items])
  unset _ := rfl
  state h := absurd h (by simp)

variable {lines : List String} {ln text : String} {n : Nat} {field : Field} {raw raw' : RawItem}
  {r r' : Reading}

theorem OpensBehind.append {front : List String} (h : OpensBehind lines n front) (ln : String) :
    OpensBehind (lines ++ [ln]) n front := by
  obtain ⟨l, back, text, rfl, hopening⟩ := h
  exact ⟨l, back ++ [ln], text, by simp, hopening⟩

/-- A line of another question changes nothing. -/
theorem RawOf.append_other (h : RawOf lines n raw)
    (hother : ∀ p, (cursorAfter lines).piece? ln = some p → p.number ≠ n) :
    RawOf (lines ++ [ln]) n raw where
  number := h.number
  label := by
    obtain ⟨front, hfront, hlabel⟩ := h.label
    exact ⟨front, hfront.append ln, hlabel⟩
  texts field := by
    rw [h.texts, textsFor_append]
    cases hp : (cursorAfter lines).piece? ln with
    | none => simp
    | some p => simp [Piece.textsFor, hother p hp]

/-- A line of a question adds its text to one field. -/
theorem RawOf.append_piece (h : RawOf lines n raw)
    (hp : (cursorAfter lines).piece? ln = some ⟨n, field, text⟩) (hnumber : raw'.number = raw.number)
    (hsubject : raw'.subjectNo = raw.subjectNo)
    (hpieces : ∀ field', String.join (raw'.pieces field') =
      String.join (raw.pieces field' ++ if field = field' then [text] else [])) :
    RawOf (lines ++ [ln]) n raw' where
  number := hnumber.trans h.number
  label := by
    obtain ⟨front, hfront, hlabel⟩ := h.label
    exact ⟨front, hfront.append ln, hsubject.trans hlabel⟩
  texts field' := by
    rw [hpieces, textsFor_append, hp, String.join_append, String.join_append, h.texts]
    simp [Piece.textsFor]

theorem RawOf.append_push (h : RawOf lines n raw)
    (hp : (cursorAfter lines).piece? ln = some ⟨n, field, text⟩) :
    RawOf (lines ++ [ln]) n (raw.push text field) := by
  refine h.append_piece hp ?_ ?_ fun field' => ?_
  · cases field <;> rfl
  · cases field <;> rfl
  · rw [RawItem.pieces_push]

/-- The line of a question is its first one. -/
theorem RawOf.opened (hkind : lineKind (cursorAfter lines).number ln = .opening text) :
    RawOf (lines ++ [ln]) ((cursorAfter lines).number + 1) {
      number := (cursorAfter lines).number + 1
      subjectNo := headerAbove lines
      q := if text = "" then [] else [text]
      choices := fun _ => [] } where
  number := rfl
  label := ⟨lines, ⟨ln, [], text, rfl, hkind, rfl⟩, rfl⟩
  texts field := by
    have hp : (cursorAfter lines).piece? ln =
        some ⟨(cursorAfter lines).number + 1, .question, text⟩ := by rw [Cursor.piece?, hkind]
    rw [textsFor_append, textsFor_of_lt (Nat.lt_succ_self _), hp]
    cases field with
    | question =>
      by_cases hempty : text = "" <;> simp [Piece.textsFor, RawItem.pieces, hempty]
    | choice i => simp [Piece.textsFor, RawItem.pieces]

theorem headerAbove_of_kind {kind : LineKind}
    (hkind : lineKind (cursorAfter lines).number ln = kind) :
    headerAbove (lines ++ [ln]) = kind.header?.or (headerAbove lines) := by
  rw [headerAbove_append, ← header?_lineKind (cursorAfter lines).number, hkind]

theorem Follows.header {no : String} (h : Follows lines r)
    (hkind : lineKind (cursorAfter lines).number ln = .header no) :
    Follows (lines ++ [ln]) { r with curSubj := some no } := by
  have hp : (cursorAfter lines).piece? ln = none := by rw [Cursor.piece?, hkind]
  have hnext : cursorAfter (lines ++ [ln]) = cursorAfter lines := by
    rw [cursorAfter_append, Cursor.next, hp]
  constructor
  · rw [hnext]
    exact h.expected
  · rw [headerAbove_of_kind hkind]
    rfl
  · rw [hnext]
    exact h.count
  · intro i raw hi
    exact (h.items i raw hi).append_other fun p hp' => absurd (hp.symm.trans hp') nofun
  · exact h.unset
  · rw [hnext]
    exact h.state

theorem Follows.opening (h : Follows lines r)
    (hkind : lineKind (cursorAfter lines).number ln = .opening text) :
    Follows (lines ++ [ln]) (r.openQuestion text) := by
  have hp : (cursorAfter lines).piece? ln =
      some ⟨(cursorAfter lines).number + 1, .question, text⟩ := by rw [Cursor.piece?, hkind]
  have hnext : cursorAfter (lines ++ [ln]) = ⟨(cursorAfter lines).number + 1, .question⟩ := by
    rw [cursorAfter_append, Cursor.next, hp]
  have hitems : (r.openQuestion text).items = r.items ++ (r.openQuestion text).cur.toList := rfl
  constructor
  · rw [hnext, Reading.openQuestion, h.expected]
  · rw [headerAbove_of_kind hkind]
    exact h.subject
  · rw [hnext, hitems, List.length_append, h.count]
    rfl
  · intro i raw hi
    rw [hitems] at hi
    obtain ⟨hi, hlt⟩ | ⟨hlast, rfl⟩ := getElem?_concat_eq_some hi
    · refine (h.items i raw hi).append_other fun p hp' => ?_
      cases hp.symm.trans hp'
      have hcount := h.count
      dsimp only
      omega
    · rw [hlast, h.count, h.expected, h.subject]
      exact RawOf.opened hkind
  · exact nofun
  · rw [hnext]
    exact fun _ => rfl

/-- A line of the current question changes only that question. -/
theorem Follows.extend {f : RawItem → RawItem} (h : Follows lines r)
    (hkind : (lineKind (cursorAfter lines).number ln).header? = none)
    (hp : (cursorAfter lines).piece? ln = some ⟨(cursorAfter lines).number, field, text⟩)
    (hf : ∀ raw, RawOf lines (cursorAfter lines).number raw →
      RawOf (lines ++ [ln]) (cursorAfter lines).number (f raw))
    (hrest : r'.rawItems = r.rawItems ∧ r'.expected = r.expected ∧ r'.curSubj = r.curSubj)
    (hcur : r'.cur = r.cur.map f) (hstate : r.cur.isSome → r'.state = some field) :
    Follows (lines ++ [ln]) r' := by
  have hnext : cursorAfter (lines ++ [ln]) = ⟨(cursorAfter lines).number, field⟩ := by
    rw [cursorAfter_append, Cursor.next, hp]
  obtain ⟨hraws, hexpected, hsubject⟩ := hrest
  have hcount := h.count
  constructor
  · rw [hnext, hexpected, h.expected]
  · rw [headerAbove_of_kind rfl, hkind, hsubject, h.subject, Option.none_or]
  · rw [hnext, ← hcount, Reading.items, Reading.items, hraws, hcur]
    cases r.cur <;> simp
  · intro i raw hi
    rw [Reading.items, hraws, hcur] at hi
    cases hitem : r.cur with
    | none => simp [hitem, h.unset hitem] at hi
    | some item =>
      rw [Reading.items, hitem, List.length_append, Option.toList_some, List.length_singleton]
        at hcount
      rw [hitem, Option.map_some, Option.toList_some] at hi
      obtain ⟨hi, hlt⟩ | ⟨hlast, rfl⟩ := getElem?_concat_eq_some hi
      · -- a finished question, whose number is smaller than that of the current one
        refine (h.items i raw ?_).append_other fun p hp' => ?_
        · rw [Reading.items, List.getElem?_append_left hlt, hi]
        · cases hp.symm.trans hp'
          dsimp only
          omega
      · rw [hlast, hcount]
        refine hf item (hcount ▸ h.items _ item ?_)
        rw [Reading.items, hitem, List.getElem?_append_right le_rfl, Nat.sub_self]
        rfl
  · intro hnone
    rw [hcur, Option.map_eq_none_iff] at hnone
    rw [hraws, h.unset hnone]
  · intro hsome
    rw [hcur, Option.isSome_map] at hsome
    rw [hnext, hstate hsome]

/-- What a line does to a reading is what the ledger says. -/
theorem Follows.take (h : Follows lines r)
    (htake : r.take ln (lineKind (cursorAfter lines).number ln) = .ok r') :
    Follows (lines ++ [ln]) r' := by
  cases hkind : lineKind (cursorAfter lines).number ln with
  | header no =>
    rw [hkind] at htake
    cases htake
    exact h.header hkind
  | opening text =>
    rw [hkind] at htake
    cases htake
    exact h.opening hkind
  | marked i text =>
    have hheader : (lineKind (cursorAfter lines).number ln).header? = none := by rw [hkind]; rfl
    have hp : (cursorAfter lines).piece? ln = some ⟨(cursorAfter lines).number, .choice i, text⟩ :=
      by rw [Cursor.piece?, hkind]
    rw [hkind, Reading.take] at htake
    split at htake
    · -- a marker alone on its line adds the empty text to its choice
      rename_i hempty
      cases htake
      refine h.extend (f := id) hheader hp ?_ ⟨rfl, rfl, rfl⟩
        (congrFun Option.map_id r.cur).symm fun _ => rfl
      refine fun raw hraw => hraw.append_piece hp rfl rfl fun field' => ?_
      split <;> simp [hempty]
    · split at htake
      · cases htake
      · cases htake
        exact h.extend hheader hp (fun raw hraw => hraw.append_push hp) ⟨rfl, rfl, rfl⟩ rfl
          fun _ => rfl
  | continued =>
    have hheader : (lineKind (cursorAfter lines).number ln).header? = none := by rw [hkind]; rfl
    have hp : (cursorAfter lines).piece? ln =
        some ⟨(cursorAfter lines).number, (cursorAfter lines).field, ln⟩ := by
      rw [Cursor.piece?, hkind]
    rw [hkind] at htake
    cases htake
    refine h.extend hheader hp (fun raw hraw => hraw.append_push hp) ?_ ?_ ?_
    · unfold Reading.push
      split <;> exact ⟨rfl, rfl, rfl⟩
    · -- before the first question there is nothing to add to, whatever the state
      cases hcur : r.cur with
      | none =>
        unfold Reading.push
        split <;> simp [hcur]
      | some item =>
        have hstate := h.state (by rw [hcur]; rfl)
        simp [Reading.push, hstate, hcur]
    · intro hsome
      have hstate := h.state hsome
      simp [Reading.push, hstate]

end Follows

section Run

/-- The loop over the lines of a paper. -/
def readLines (lines : List String) : Except Exc (List RawItem) := do
  let r ← lines.foldlM Reading.line {}
  return r.rawItems ++ r.cur.toList

theorem rawItems_eq (parser : ExamPaperParser) (questionPages : List String) :
    parser.rawItems questionPages = readLines (parser.cleanLines questionPages) := rfl

/-- A line can be read behind others: its number is short enough, and a choice with a text belongs
to a question. -/
def Readable (front : List String) (ln : String) : Prop :=
  ¬ OverlongLine ln ∧ ∀ i text, lineKind (cursorAfter front).number ln = .marked i text →
    (cursorAfter front).number = 0 → text = ""

variable {lines done : List String} {ln : String} {r r' : Reading}

theorem Follows.returns_line_iff (h : Follows lines r) (hln : ln ≠ "") :
    Returns (r.line ln) ↔ Readable lines ln := by
  have hnone : r.cur.isNone = true ↔ (cursorAfter lines).number = 0 := by
    rw [← h.count, Reading.items, List.length_eq_zero_iff, List.append_eq_nil_iff]
    cases hcur : r.cur with
    | none => simp [h.unset hcur]
    | some item => simp
  have htake : Returns (r.take ln (lineKind (cursorAfter lines).number ln)) ↔
      ∀ i text, lineKind (cursorAfter lines).number ln = .marked i text →
        (cursorAfter lines).number = 0 → text = "" := by
    cases hkind : lineKind (cursorAfter lines).number ln with
    | header no => simp [Reading.take, returns_ok]
    | opening text => simp [Reading.take, returns_ok]
    | continued => simp [Reading.take, returns_ok]
    | marked i text =>
      simp only [LineKind.marked.injEq, ← hnone]
      rw [Reading.take]
      split
      · rename_i hempty
        simp [returns_ok, hempty]
      · rename_i htext
        split
        · rename_i hcur
          simp [Returns, hcur, htext]
        · rename_i hcur
          simp [returns_ok, hcur]
  rw [Readable, ← htake]
  constructor
  · rintro ⟨r', hr'⟩
    obtain ⟨hshort, hr'⟩ := (line_eq_ok_iff hln h.expected).mp hr'
    exact ⟨hshort, r', hr'⟩
  · rintro ⟨hshort, r', hr'⟩
    exact ⟨r', (line_eq_ok_iff hln h.expected).mpr ⟨hshort, hr'⟩⟩

theorem Follows.line (h : Follows lines r) (hln : ln ≠ "") (hr' : r.line ln = .ok r') :
    Follows (lines ++ [ln]) r' :=
  h.take ((line_eq_ok_iff hln h.expected).mp hr').2

theorem Follows.foldlM (h : Follows done r) (hlines : ∀ ln ∈ lines, ln ≠ "")
    (hr' : lines.foldlM Reading.line r = .ok r') : Follows (done ++ lines) r' := by
  induction lines generalizing done r with
  | nil =>
    cases hr'
    rwa [List.append_nil]
  | cons ln lines ih =>
    obtain ⟨hln, hlines⟩ := List.forall_mem_cons.mp hlines
    rw [List.foldlM_cons] at hr'
    obtain ⟨r₁, hr₁, hr'⟩ := Except.bind_eq_ok_iff.mp hr'
    have hfollows := ih (h.line hln hr₁) hlines hr'
    rwa [List.append_assoc, List.singleton_append] at hfollows

theorem Follows.returns_foldlM_iff (h : Follows done r) (hlines : ∀ ln ∈ lines, ln ≠ "") :
    Returns (lines.foldlM Reading.line r) ↔
      ∀ front ln back, lines = front ++ ln :: back → Readable (done ++ front) ln := by
  induction lines generalizing done r with
  | nil => exact ⟨fun _ front ln back heq => absurd heq (by simp), fun _ => returns_ok r⟩
  | cons ln lines ih =>
    obtain ⟨hln, hlines⟩ := List.forall_mem_cons.mp hlines
    rw [List.foldlM_cons, returns_bind_iff]
    constructor
    · rintro ⟨r₁, hr₁, hreturns⟩ front l back heq
      cases front with
      | nil =>
        cases heq
        rw [List.append_nil]
        exact (h.returns_line_iff hln).mp ⟨r₁, hr₁⟩
      | cons l' front =>
        cases heq
        have hreadable := (ih (h.line hln hr₁) hlines).mp hreturns front l back rfl
        rwa [List.append_assoc, List.singleton_append] at hreadable
    · intro hreadable
      have hfirst := hreadable [] ln lines rfl
      rw [List.append_nil] at hfirst
      obtain ⟨r₁, hr₁⟩ := (h.returns_line_iff hln).mpr hfirst
      refine ⟨r₁, hr₁, (ih (h.line hln hr₁) hlines).mpr fun front l back heq => ?_⟩
      rw [List.append_assoc, List.singleton_append]
      exact hreadable (ln :: front) l back (congrArg (ln :: ·) heq)

/-- All lines of a paper can be read. -/
def ReadableLines (lines : List String) : Prop :=
  ∀ front ln back, lines = front ++ ln :: back → Readable front ln

theorem returns_readLines_iff (hlines : ∀ ln ∈ lines, ln ≠ "") :
    Returns (readLines lines) ↔ ReadableLines lines := by
  rw [readLines, returns_bind_iff]
  refine Iff.trans ⟨?_, ?_⟩ (follows_nil.returns_foldlM_iff hlines)
  · rintro ⟨r, hr, -⟩
    exact ⟨r, hr⟩
  · rintro ⟨r, hr⟩
    exact ⟨r, hr, returns_ok _⟩

/-- The questions of a paper are numbered in their order and hold what the ledger gives to them. -/
theorem rawOf_readLines {raws : List RawItem} (hlines : ∀ ln ∈ lines, ln ≠ "")
    (h : readLines lines = .ok raws) : raws.length = (cursorAfter lines).number ∧
      ∀ i raw, raws[i]? = some raw → RawOf lines (i + 1) raw := by
  obtain ⟨r, hr, h⟩ := Except.bind_eq_ok_iff.mp h
  cases h
  have hfollows := follows_nil.foldlM hlines hr
  rw [List.nil_append] at hfollows
  exact ⟨hfollows.count, hfollows.items⟩

end Run

end DomainRag.Assessment
