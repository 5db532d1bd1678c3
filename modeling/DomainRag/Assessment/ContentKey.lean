import DomainRag.Assessment.Import
import DomainRag.Lib.Join
import Mathlib.Data.String.Basic

/-! # What the deduplication key identifies

The key of a question is its normalized text, joined with its normalized choices in order. The
separator is no character that the normalization leaves, and an empty choice is dropped, so the key
determines the text and the multiset of the choices.
-/

namespace DomainRag.Assessment

section Normalized

variable (rules : TextRules)

/-- The normalized choices that the key keeps. -/
def keptChoices (choices : List Value) : List String :=
  (choices.map fun c => normText rules (c.text rules.repr)).filter fun p => p ≠ ""

def choiceSet (choices : List Value) : Multiset String := ↑(keptChoices rules choices)

theorem toList_normText (s : String) :
    (normText rules s).toList = (rules.fold s).toList.filter isWordChar := by
  simp [normText]

theorem separator_notMem_normText (s : String) : '|' ∉ (normText rules s).toList := by
  rw [toList_normText, List.mem_filter]
  rintro ⟨-, hword⟩
  exact absurd hword (by decide)

theorem kept_of_mem_keptChoices {choices : List Value} {part : String}
    (h : part ∈ keptChoices rules choices) : '|' ∉ part.toList ∧ part.toList ≠ [] := by
  rw [keptChoices, List.mem_filter, List.mem_map] at h
  obtain ⟨⟨c, -, rfl⟩, hne⟩ := h
  constructor
  · exact separator_notMem_normText rules _
  · simpa using hne

theorem choiceSet_eq_iff {choices choices' : List Value} :
    choiceSet rules choices = choiceSet rules choices' ↔
      (keptChoices rules choices).Perm (keptChoices rules choices') :=
  Multiset.coe_eq_coe

theorem choiceSet_eq_of_perm {choices choices' : List Value} (h : choices.Perm choices') :
    choiceSet rules choices = choiceSet rules choices' :=
  (choiceSet_eq_iff rules).mpr ((h.map _).filter _)

end Normalized

section Key

variable (rules : TextRules)

def sortedChoices (choices : List Value) : List String :=
  (keptChoices rules choices).insertionSort (· ≤ ·)

theorem toList_dedupKey (questionText : String) (choices : List Value) :
    (dedupKey rules questionText choices).toList =
      Join.joined '|' (normText rules questionText).toList
        ((sortedChoices rules choices).map String.toList) := by
  simp [dedupKey, sortedChoices, keptChoices, Join.joined, String.toList_intercalate]

theorem sortedChoices_eq_iff {choices choices' : List Value} :
    sortedChoices rules choices = sortedChoices rules choices' ↔
      choiceSet rules choices = choiceSet rules choices' := by
  rw [choiceSet_eq_iff]
  exact Join.insertionSort_eq_iff_perm

theorem parts_of_sortedChoices {choices : List Value} {part : List Char}
    (h : part ∈ (sortedChoices rules choices).map String.toList) : '|' ∉ part ∧ part ≠ [] := by
  rw [List.mem_map] at h
  obtain ⟨text, hmem, rfl⟩ := h
  rw [sortedChoices, List.mem_insertionSort] at hmem
  exact kept_of_mem_keptChoices rules hmem

theorem dedupKey_eq_iff {q q' : String} {choices choices' : List Value} :
    dedupKey rules q choices = dedupKey rules q' choices' ↔
      normText rules q = normText rules q' ∧ choiceSet rules choices = choiceSet rules choices' := by
  rw [← String.toList_inj, toList_dedupKey, toList_dedupKey,
    Join.joined_eq_iff '|' (separator_notMem_normText rules q) (separator_notMem_normText rules q')
      (fun _ => parts_of_sortedChoices rules) (fun _ => parts_of_sortedChoices rules),
    String.toList_inj, ← sortedChoices_eq_iff]
  have hinj : Function.Injective String.toList := fun _ _ => String.toList_inj.mp
  exact and_congr_right fun _ => (List.map_injective_iff.mpr hinj).eq_iff

/-- The key is the identity of the content: it determines the normalized text and the multiset of
the choices that are not empty, is the same in any order of the choices, and no text can hold its
separator. -/
theorem dedupKey_identifies (rules : TextRules) (q : String) (choices : List Value) :
    (∀ q' choices', dedupKey rules q choices = dedupKey rules q' choices' ↔
      normText rules q = normText rules q' ∧
        choiceSet rules choices = choiceSet rules choices') ∧
    (∀ choices', choices.Perm choices' → dedupKey rules q choices = dedupKey rules q choices') ∧
    ∀ s, '|' ∉ (normText rules s).toList := by
  refine ⟨fun q' choices' => dedupKey_eq_iff rules, ?_, separator_notMem_normText rules⟩
  intro choices' h
  exact (dedupKey_eq_iff rules).mpr ⟨rfl, choiceSet_eq_of_perm rules h⟩

end Key

end DomainRag.Assessment
