import Mathlib.Data.List.Pairwise
import Mathlib.Order.Interval.Set.Basic
import Mathlib.Order.Monotone.Basic

/-! # Tables that are partitioned by ranges

The ranges of a table do not overlap, so that a key has at most one place. Where every range reaches
from one point of a rising sequence to the next, none is ever refused, and a key has a place exactly
if its stretch of the sequence was attached.
-/

namespace DomainRag

variable {N T : Type}

/-- A partition holds the keys from the lower bound on and below the upper one. -/
structure RangePartition (N T : Type) where
  name : N
  lower : T
  upper : T
  deriving DecidableEq

variable [LinearOrder T]

namespace RangePartition

def Covers (p : RangePartition N T) (key : T) : Prop := p.lower ≤ key ∧ key < p.upper

instance (p : RangePartition N T) (key : T) : Decidable (p.Covers key) :=
  inferInstanceAs (Decidable (_ ∧ _))

def Apart (p q : RangePartition N T) : Prop := p.upper ≤ q.lower ∨ q.upper ≤ p.lower

instance (p q : RangePartition N T) : Decidable (p.Apart q) := inferInstanceAs (Decidable (_ ∨ _))

theorem Apart.symm {p q : RangePartition N T} (h : p.Apart q) : q.Apart p := Or.symm h

theorem Apart.not_covers {p q : RangePartition N T} (h : p.Apart q) {key : T}
    (hp : p.Covers key) : ¬ q.Covers key := by
  intro hq
  obtain h | h := h
  · exact absurd (lt_of_lt_of_le hp.2 (h.trans hq.1)) (lt_irrefl key)
  · exact absurd (lt_of_lt_of_le hq.2 (h.trans hp.1)) (lt_irrefl key)

end RangePartition

structure RangePartitions (N T : Type) [LinearOrder T] where
  parts : List (RangePartition N T)
  apart : parts.Pairwise RangePartition.Apart
  names : (parts.map RangePartition.name).Nodup

inductive AttachError where
  | emptyRange
  | overlap
  deriving DecidableEq

namespace RangePartitions

variable [DecidableEq N]

/-- Creates a partition, unless there is one of that name. -/
def attach (t : RangePartitions N T) (p : RangePartition N T) :
    Except AttachError (RangePartitions N T) :=
  if hname : p.name ∈ t.parts.map RangePartition.name then .ok t
  else if p.upper ≤ p.lower then .error .emptyRange
  else if hapart : ∀ q ∈ t.parts, p.Apart q then
    .ok ⟨p :: t.parts, List.pairwise_cons.mpr ⟨hapart, t.apart⟩,
      List.nodup_cons.mpr ⟨hname, t.names⟩⟩
  else .error .overlap

/-- The partition of a row that is inserted. -/
def route? (t : RangePartitions N T) (key : T) : Option (RangePartition N T) :=
  t.parts.find? fun p => p.Covers key

variable {t t' : RangePartitions N T} {p q : RangePartition N T} {key : T}

theorem eq_of_covers (t : RangePartitions N T) (hp : p ∈ t.parts) (hq : q ∈ t.parts)
    (hcovers : p.Covers key) (hcovers' : q.Covers key) : p = q := by
  by_contra hne
  have hsymm : Std.Symm (RangePartition.Apart (N := N) (T := T)) := ⟨fun _ _ => .symm⟩
  exact (t.apart.forall hp hq hne).not_covers hcovers hcovers'

theorem route?_eq_some_iff : t.route? key = some p ↔ p ∈ t.parts ∧ p.Covers key := by
  constructor
  · intro h
    exact ⟨List.mem_of_find?_eq_some h, by simpa using List.find?_some h⟩
  · rintro ⟨hp, hcovers⟩
    obtain ⟨q, hq⟩ := Option.isSome_iff_exists.mp
      (List.find?_isSome.mpr ⟨p, hp, decide_eq_true hcovers⟩ : (t.route? key).isSome)
    have hcovers' : q.Covers key := by simpa using List.find?_some hq
    rw [t.eq_of_covers hp (List.mem_of_find?_eq_some hq) hcovers hcovers']
    exact hq

section Grid

variable {I : Type} {bound : Nat → T} {index : I → Nat} {name : I → N}

/-- The partition of an element, from its point of the sequence to the next. -/
def cell (bound : Nat → T) (index : I → Nat) (name : I → N) (i : I) : RangePartition N T :=
  ⟨name i, bound (index i), bound (index i + 1)⟩

omit [DecidableEq N] in
theorem cell_apart (hbound : StrictMono bound) {i j : I} (h : index i ≠ index j) :
    (cell bound index name i).Apart (cell bound index name j) := by
  obtain hlt | hlt := Nat.lt_or_gt_of_ne h
  · exact .inl (hbound.monotone hlt)
  · exact .inr (hbound.monotone hlt)

theorem attach_cell (hbound : StrictMono bound) (hindex : Function.Injective index)
    (hname : Function.Injective name)
    (hcells : ∀ p ∈ t.parts, ∃ j, p = cell bound index name j) (i : I) :
    ∃ t', t.attach (cell bound index name i) = .ok t' ∧
      ∀ p, p ∈ t'.parts ↔ p = cell bound index name i ∨ p ∈ t.parts := by
  rw [attach]
  split
  · rename_i hnamed
    obtain ⟨p, hp, heq⟩ := List.mem_map.mp hnamed
    obtain ⟨j, rfl⟩ := hcells p hp
    obtain rfl := hname heq
    refine ⟨t, rfl, fun q => ⟨.inr, ?_⟩⟩
    rintro (rfl | hq)
    · exact hp
    · exact hq
  · rename_i hnew
    have hrange : ¬ (cell bound index name i).upper ≤ (cell bound index name i).lower :=
      not_le.mpr (hbound (Nat.lt_succ_self _))
    have hapart : ∀ q ∈ t.parts, (cell bound index name i).Apart q := by
      intro q hq
      obtain ⟨j, rfl⟩ := hcells q hq
      apply cell_apart hbound
      intro heq
      obtain rfl := hindex heq
      exact hnew (List.mem_map_of_mem hq)
    rw [if_neg hrange, dif_pos hapart]
    exact ⟨_, rfl, fun q => List.mem_cons⟩

end Grid

end RangePartitions

end DomainRag
