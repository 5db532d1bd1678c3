import DomainRag.Lib.Parts

/-! # The regex PII detector

A rule's compiled pattern is known only through `finditer`: nonempty spans of the text,
from left to right and not overlapping. Spans of different rules may nest or overlap.
Substituting in descending start order moves what stands right of a replacement, so a span that
contains an earlier one is replaced in the wrong length. The output is right as long as each
replacement still reaches what is left of its finding, and nothing outside all findings.
-/

namespace DomainRag.Pii

structure Pattern where
  finditer : String → List (Nat × Nat)
  inside : ∀ text, ∀ m ∈ finditer text, m.1 < m.2 ∧ m.2 ≤ text.toList.length
  ordered : ∀ text, (finditer text).Pairwise fun a b => a.2 ≤ b.1

structure PIIRule where
  category : String
  severity : String
  pattern : Pattern
  maskTemplate : String

structure PIIFinding where
  category : String
  severity : String
  position : Nat × Nat
  matchedText : String
  maskedForm : String
  deriving DecidableEq, Repr

def slice (text : String) (a b : Nat) : String := String.ofList ((text.toList.take b).drop a)

def scan (rules : List PIIRule) (text : String) : List PIIFinding :=
  rules.flatMap fun rule => (rule.pattern.finditer text).map fun m =>
    { category := rule.category
      severity := rule.severity
      position := m
      matchedText := slice text m.1 m.2
      maskedForm := rule.maskTemplate }

def ByStartDesc (f g : PIIFinding) : Prop := g.position.1 ≤ f.position.1

instance : DecidableRel ByStartDesc := fun f g =>
  inferInstanceAs (Decidable (g.position.1 ≤ f.position.1))

def mask (rules : List PIIRule) (text : String) : String × List PIIFinding :=
  let findings := scan rules text
  let masked := (findings.insertionSort ByStartDesc).foldl
    (fun masked f => masked.take f.position.1 ++ f.maskedForm.toList ++ masked.drop f.position.2)
    text.toList
  (String.ofList masked, findings)

def PIIFinding.edit (f : PIIFinding) : Splice.Edit Char :=
  ⟨f.position.1, f.position.2, f.maskedForm.toList⟩

def edits (rules : List PIIRule) (text : String) : List (Splice.Edit Char) :=
  (scan rules text).map PIIFinding.edit

theorem mask_toList (rules : List PIIRule) (text : String) :
    (mask rules text).1.toList =
      Splice.applyAll text.toList (Splice.descending (edits rules text)) := by
  rw [edits, Splice.descending, ← List.map_insertionSort ByStartDesc Splice.Later PIIFinding.edit
    (scan rules text) fun _ _ _ _ => Iff.rfl, Splice.applyAll, List.foldl_map]
  simp only [mask, String.toList_ofList]
  rfl

theorem mem_scan {rules : List PIIRule} {text : String} {f : PIIFinding}
    (h : f ∈ scan rules text) : ∃ rule ∈ rules, f.position ∈ rule.pattern.finditer text ∧
      f.maskedForm = rule.maskTemplate := by
  obtain ⟨rule, hrule, hf⟩ := List.mem_flatMap.mp h
  obtain ⟨m, hm, rfl⟩ := List.mem_map.mp hf
  exact ⟨rule, hrule, hm, rfl⟩

theorem edits_inside (rules : List PIIRule) (text : String) :
    ∀ e ∈ edits rules text, e.start < e.stop ∧ e.stop ≤ text.toList.length := by
  intro e he
  obtain ⟨f, hf, rfl⟩ := List.mem_map.mp he
  obtain ⟨rule, -, hpos, -⟩ := mem_scan hf
  exact rule.pattern.inside text f.position hpos

/-- Where each character of the masked text comes from. -/
def maskOrigins (rules : List PIIRule) (text : String) : List Splice.Origin :=
  Splice.origins text.toList.length (edits rules text)

def maskRender (rules : List PIIRule) (text : String) : Splice.Origin → Char :=
  Splice.render text.toList (edits rules text)

/-- The masked text keeps exactly the characters outside all findings, once and in order,
and puts whole mask templates, and nothing else, in the place of the findings. -/
structure MaskSound (rules : List PIIRule) (text : String) : Prop where
  output : (mask rules text).1.toList = (maskOrigins rules text).map (maskRender rules text)
  redacts : Splice.Redacts text.toList.length (edits rules text) (maskOrigins rules text)

/-- The masked text keeps exactly the characters outside all findings, once and in order, and
every other character of it comes from a mask template. -/
structure MaskKeeps (rules : List PIIRule) (text : String) : Prop where
  output : (mask rules text).1.toList = (maskOrigins rules text).map (maskRender rules text)
  keeps : Splice.Keeps text.toList.length (edits rules text) (maskOrigins rules text)

theorem mask_output (rules : List PIIRule) (text : String) :
    (mask rules text).1.toList = (maskOrigins rules text).map (maskRender rules text) := by
  rw [mask_toList, maskOrigins, maskRender, Splice.map_render_origins]

/-- Masking keeps what it has to keep exactly when the replacements reach the characters inside the
findings and no others, and is sound exactly when they leave no template in part besides. -/
theorem maskSound_iff (rules : List PIIRule) (text : String) :
    (MaskKeeps rules text ↔ Splice.Spares text.toList.length (edits rules text)) ∧
      (MaskSound rules text ↔ Splice.Spares text.toList.length (edits rules text) ∧
        Splice.WholeOrGone (edits rules text)) := by
  have hinside := edits_inside rules text
  constructor
  · rw [← Splice.keeps_iff hinside]
    exact ⟨fun h => h.keeps, fun h => ⟨mask_output rules text, h⟩⟩
  · rw [← Splice.redacts_iff hinside]
    exact ⟨fun h => h.redacts, fun h => ⟨mask_output rules text, h⟩⟩

/-- Two findings with one span, the first of them with a template of the span's length: the second
replacement takes the whole of the first. -/
example : let es : List (Splice.Edit Char) :=
      [⟨0, 14, "******-*******".toList⟩, ⟨0, 14, "***-****-******".toList⟩]
    Splice.Spares 14 es ∧ Splice.WholeOrGone es := by decide +kernel

/-- A pattern that finds the given spans in one text and nothing elsewhere. -/
def Pattern.only (text : String) (ms : List (Nat × Nat))
    (hinside : ∀ m ∈ ms, m.1 < m.2 ∧ m.2 ≤ text.toList.length)
    (hordered : ms.Pairwise fun a b => a.2 ≤ b.1) : Pattern where
  finditer t := if t = text then ms else []
  inside t m hm := by
    split at hm
    · rename_i ht
      exact ht ▸ hinside m hm
    · cases hm
  ordered t := by
    split
    · exact hordered
    · exact List.Pairwise.nil

/-- A pattern that finds one span in one text and nothing elsewhere. -/
def Pattern.once (text : String) (i j : Nat) (h : i < j ∧ j ≤ text.toList.length) : Pattern :=
  .only text [(i, j)] (List.forall_mem_singleton.mpr h) (List.pairwise_singleton _ _)

def mailWithPhone : String := "user.01012345678@example.com"

def mailRules : List PIIRule :=
  [ { category := "phone", severity := "medium", maskTemplate := "010-****-****",
      pattern := .once mailWithPhone 5 16 (by decide) },
    { category := "email", severity := "low", maskTemplate := "***@***",
      pattern := .once mailWithPhone 0 28 (by decide) },
    { category := "account_number", severity := "high", maskTemplate := "***-****-******",
      pattern := .once mailWithPhone 5 16 (by decide) } ]

/-- The three findings overlap, and the end of the e-mail address stays readable. -/
theorem mailWithPhone_leaks : (mask mailRules mailWithPhone).1 = "***@***le.com" ∧
    ¬ MaskKeeps mailRules mailWithPhone ∧ ¬ MaskSound mailRules mailWithPhone := by
  have hlost : ¬ Splice.Keeps mailWithPhone.toList.length (edits mailRules mailWithPhone)
      (maskOrigins mailRules mailWithPhone) := by
    rw [Splice.Keeps]
    decide +kernel
  exact ⟨by decide +kernel, fun h => hlost h.keeps, fun h => hlost h.redacts.keeps⟩

end DomainRag.Pii
