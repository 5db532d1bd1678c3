import Mathlib.Data.List.Lex
import Mathlib.Data.Nat.Notation
import Mathlib.Data.String.Basic
import Mathlib.Tactic.NormNum

/-! # ISO dates

The texts `YYYY-MM-DD` of two dates stand in the order of the dates themselves.
-/

namespace DomainRag

structure Date where
  year : Nat
  month : Nat
  day : Nat
  year_lt : year < 10000
  month_lt : month < 100
  day_lt : day < 100
  deriving DecidableEq

namespace Date

def Before (a b : Date) : Prop :=
  a.year < b.year ∨ a.year = b.year ∧ (a.month < b.month ∨ a.month = b.month ∧ a.day < b.day)

instance : DecidableRel Before := fun a b =>
  inferInstanceAs (Decidable (a.year < b.year ∨
    a.year = b.year ∧ (a.month < b.month ∨ a.month = b.month ∧ a.day < b.day)))

def digits : Nat → Nat → List Char
  | 0, _ => []
  | w + 1, n => Nat.digitChar (n / 10 ^ w % 10) :: digits w n

def isoformat (d : Date) : String :=
  String.ofList (digits 4 d.year ++ '-' :: (digits 2 d.month ++ '-' :: digits 2 d.day))

theorem length_digits (w n : Nat) : (digits w n).length = w := by
  induction w with
  | zero => rfl
  | succ w ih => rw [digits, List.length_cons, ih]

theorem digitChar_lt_iff {a b : Nat} (ha : a < 10) (hb : b < 10) :
    Nat.digitChar a < Nat.digitChar b ↔ a < b := by
  have h : ∀ a b : Fin 10, Nat.digitChar a < Nat.digitChar b ↔ a < b := by decide
  exact h ⟨a, ha⟩ ⟨b, hb⟩

theorem digitChar_eq_iff {a b : Nat} (ha : a < 10) (hb : b < 10) :
    Nat.digitChar a = Nat.digitChar b ↔ a = b := by
  have h : ∀ a b : Fin 10, Nat.digitChar a = Nat.digitChar b ↔ a = b := by decide
  rw [h ⟨a, ha⟩ ⟨b, hb⟩, Fin.mk.injEq]

theorem lex_add_lt_iff {m q q' r r' : Nat} (hr : r < m) (hr' : r' < m) :
    r + m * q < r' + m * q' ↔ q < q' ∨ q = q' ∧ r < r' := by
  obtain hlt | rfl | hgt := lt_trichotomy q q'
  · have hstep : m * q + m ≤ m * q' := by
      rw [← Nat.mul_succ]
      exact Nat.mul_le_mul_left m hlt
    exact ⟨fun _ => .inl hlt, fun _ => by omega⟩
  · simp only [lt_self_iff_false, true_and, false_or, Nat.add_lt_add_iff_right]
  · have hstep : m * q' + m ≤ m * q := by
      rw [← Nat.mul_succ]
      exact Nat.mul_le_mul_left m hgt
    constructor
    · intro h
      omega
    · rintro (h | ⟨h, -⟩) <;> omega

theorem digits_lt_iff (w a b : Nat) : digits w a < digits w b ↔ a % 10 ^ w < b % 10 ^ w := by
  induction w with
  | zero => simp only [digits, lt_self_iff_false, pow_zero, Nat.mod_one]
  | succ w ih =>
    have hpos : 0 < 10 ^ w := Nat.pow_pos (by decide)
    have ha : a / 10 ^ w % 10 < 10 := Nat.mod_lt _ (by decide)
    have hb : b / 10 ^ w % 10 < 10 := Nat.mod_lt _ (by decide)
    rw [digits, digits, List.cons_lt_cons_iff, digitChar_lt_iff ha hb, digitChar_eq_iff ha hb, ih,
      Nat.mod_pow_succ, Nat.mod_pow_succ,
      lex_add_lt_iff (Nat.mod_lt _ hpos) (Nat.mod_lt _ hpos)]

theorem digits_eq_iff (w a b : Nat) : digits w a = digits w b ↔ a % 10 ^ w = b % 10 ^ w := by
  have hab := digits_lt_iff w a b
  have hba := digits_lt_iff w b a
  constructor
  · intro h
    rw [h] at hab hba
    have hnot := mt hab.mpr (lt_irrefl (digits w b))
    have hnot' := mt hba.mpr (lt_irrefl (digits w b))
    exact le_antisymm (not_lt.mp hnot') (not_lt.mp hnot)
  · intro h
    have h1 : ¬ digits w a < digits w b := by rw [hab]; omega
    have h2 : ¬ digits w b < digits w a := by rw [hba]; omega
    exact le_antisymm (not_lt.mp h2) (not_lt.mp h1)

theorem append_lt_append_iff {xs ys us vs : List Char} (h : xs.length = ys.length) :
    xs ++ us < ys ++ vs ↔ xs < ys ∨ xs = ys ∧ us < vs := by
  induction xs generalizing ys with
  | nil =>
    rw [List.length_nil, eq_comm, List.length_eq_zero_iff] at h
    simp only [h, List.nil_append, lt_self_iff_false, true_and, false_or]
  | cons x xs ih =>
    cases ys with
    | nil => cases h
    | cons y ys =>
      simp only [List.cons_append, List.cons_lt_cons_iff, ih (Nat.succ.inj h), List.cons.injEq,
        and_or_left, and_assoc, or_assoc]

theorem isoformat_lt_iff (a b : Date) : a.isoformat < b.isoformat ↔ a.Before b := by
  have hlen : ∀ w m n, (digits w m).length = (digits w n).length := fun w m n => by
    rw [length_digits, length_digits]
  have hyear : ∀ d : Date, d.year % 10 ^ 4 = d.year := fun d => Nat.mod_eq_of_lt d.year_lt
  have hmonth : ∀ d : Date, d.month % 10 ^ 2 = d.month := fun d => Nat.mod_eq_of_lt d.month_lt
  have hday : ∀ d : Date, d.day % 10 ^ 2 = d.day := fun d => Nat.mod_eq_of_lt d.day_lt
  rw [isoformat, isoformat, String.lt_iff_toList_lt, String.toList_ofList, String.toList_ofList,
    append_lt_append_iff (hlen 4 _ _), List.cons_lt_cons_iff, append_lt_append_iff (hlen 2 _ _),
    List.cons_lt_cons_iff, digits_lt_iff, digits_lt_iff, digits_lt_iff, digits_eq_iff,
    digits_eq_iff]
  simp only [hyear, hmonth, hday, lt_self_iff_false, true_and, false_or, Before]

end Date

end DomainRag
