import Mathlib.Algebra.GroupWithZero.Nat
import Mathlib.Data.List.Sort

/-! # Joining parts with a separator

A text is joined from a head and from parts in their canonical order. It tells its head and its
parts apart when none of them holds the separator and no part is empty. Some of the parts, joined,
are a slice of all of them joined.
-/

namespace Join

variable {α : Type*}

section Order

variable [LinearOrder α] {xs ys : List α}

theorem insertionSort_eq_iff_perm :
    xs.insertionSort (· ≤ ·) = ys.insertionSort (· ≤ ·) ↔ xs.Perm ys := by
  have hx := List.perm_insertionSort (· ≤ ·) xs
  have hy := List.perm_insertionSort (· ≤ ·) ys
  constructor
  · intro h
    exact hx.symm.trans (h ▸ hy)
  · intro h
    apply List.Perm.eq_of_pairwise' (r := (· ≤ ·))
    · exact List.pairwise_insertionSort (· ≤ ·) xs
    · exact List.pairwise_insertionSort (· ≤ ·) ys
    · exact (hx.trans h).trans hy.symm

end Order

variable (sep : α)

def joined (head : List α) (parts : List (List α)) : List α :=
  head ++ sep :: [sep].intercalate parts

/-- The fields that a joined text splits into. No parts at all leave one empty field. -/
def fields (head : List α) : List (List α) → List (List α)
  | [] => [head, []]
  | part :: parts => head :: part :: parts

theorem joined_eq_intercalate (head : List α) (parts : List (List α)) :
    joined sep head parts = [sep].intercalate (fields head parts) := by
  cases parts with
  | nil => simp [joined, fields]
  | cons part parts => simp [joined, fields, List.intercalate_cons_cons]

theorem fields_inj {head head' : List α} {parts parts' : List (List α)} (hne : [] ∉ parts)
    (hne' : [] ∉ parts') (h : fields head parts = fields head' parts') :
    head = head' ∧ parts = parts' := by
  cases parts with
  | nil =>
    cases parts' with
    | nil => simp_all [fields]
    | cons part' parts' =>
      have hpart : [] = part' := by simp_all [fields]
      exact absurd (by simp [hpart]) hne'
  | cons part parts =>
    cases parts' with
    | nil =>
      have hpart : part = [] := by simp_all [fields]
      exact absurd (by simp [hpart]) hne
    | cons part' parts' => simp_all [fields]

section Injective

variable [DecidableEq α]

theorem splitOn_joined {head : List α} {parts : List (List α)} (hhead : sep ∉ head)
    (hparts : ∀ part ∈ parts, sep ∉ part) :
    (joined sep head parts).splitOn sep = fields head parts := by
  rw [joined_eq_intercalate]
  apply List.splitOn_intercalate
  · cases parts with
    | nil => simp [fields, hhead]
    | cons part parts =>
      simp only [fields, List.forall_mem_cons]
      exact ⟨hhead, List.forall_mem_cons.mp hparts⟩
  · cases parts <;> simp [fields]

theorem joined_eq_iff {head head' : List α} {parts parts' : List (List α)} (hhead : sep ∉ head)
    (hhead' : sep ∉ head') (hparts : ∀ part ∈ parts, sep ∉ part ∧ part ≠ [])
    (hparts' : ∀ part ∈ parts', sep ∉ part ∧ part ≠ []) :
    joined sep head parts = joined sep head' parts' ↔ head = head' ∧ parts = parts' := by
  constructor
  · intro h
    have hfields : fields head parts = fields head' parts' := by
      rw [← splitOn_joined sep hhead fun part hpart => (hparts part hpart).1, h,
        splitOn_joined sep hhead' fun part hpart => (hparts' part hpart).1]
    exact fields_inj (fun hmem => (hparts [] hmem).2 rfl) (fun hmem => (hparts' [] hmem).2 rfl)
      hfields
  · rintro ⟨rfl, rfl⟩
    rfl

end Injective

section Slices

variable (xs : List (List α)) (n : Nat)

theorem intercalate_take_prefix : [sep].intercalate (xs.take n) <+: [sep].intercalate xs := by
  induction xs generalizing n with
  | nil => simp
  | cons x xs ih =>
    cases n with
    | zero => simp
    | succ n =>
      cases xs with
      | nil => simp
      | cons y ys =>
        cases n with
        | zero => simp [List.intercalate_cons_cons]
        | succ n =>
          rw [List.take_succ_cons, List.take_succ_cons, List.intercalate_cons_cons,
            List.intercalate_cons_cons, List.prefix_append_right_inj]
          exact ih (n + 1)

/-- Each part that is left out takes its separator with it. -/
theorem drop_intercalate {xs : List (List α)} {n : Nat} (h : n < xs.length) :
    ([sep].intercalate xs).drop ((xs.take n).map fun x => x.length + 1).sum =
      [sep].intercalate (xs.drop n) := by
  induction n generalizing xs with
  | zero => simp
  | succ n ih =>
    obtain _ | ⟨x, _ | ⟨y, ys⟩⟩ := xs
    · simp at h
    · simp at h
    · have hlen : n < (y :: ys).length := by simpa using h
      have hhead : (x ++ [sep] ++ [sep].intercalate (y :: ys)).drop (x.length + 1) =
          [sep].intercalate (y :: ys) := List.drop_left' (by simp)
      rw [List.intercalate_cons_cons, List.take_succ_cons, List.map_cons, List.sum_cons,
        List.drop_succ_cons, ← ih hlen, ← List.drop_drop, hhead]

end Slices

section Split

variable (p : α → Bool)

theorem eq_false_of_mem_splitOnP {xs ws : List α} {x : α} (hw : ws ∈ xs.splitOnP p)
    (hx : x ∈ ws) : p x = false := by
  induction xs generalizing ws with
  | nil => simp_all
  | cons y ys ih =>
    rw [List.splitOnP_cons_eq_if_modifyHead] at hw
    split at hw
    · rcases List.mem_cons.mp hw with rfl | hw
      · simp at hx
      · exact ih hw hx
    · next hy =>
      obtain ⟨v, vs, hvs⟩ := List.exists_cons_of_ne_nil (List.splitOnP_ne_nil p ys)
      rw [hvs, List.modifyHead_cons, List.mem_cons] at hw
      rw [hvs] at ih
      rcases hw with rfl | hw
      · rcases List.mem_cons.mp hx with rfl | hx
        · simpa using hy
        · exact ih List.mem_cons_self hx
      · exact ih (List.mem_cons_of_mem v hw) hx

theorem splitOnP_intercalate {xs : List (List α)} (hsep : p sep = true)
    (hxs : ∀ x ∈ xs, ∀ c ∈ x, p c = false) (hne : xs ≠ []) :
    ([sep].intercalate xs).splitOnP p = xs := by
  induction xs with
  | nil => exact absurd rfl hne
  | cons x xs ih =>
    rw [List.forall_mem_cons] at hxs
    cases xs with
    | nil => simpa using List.splitOnP_eq_singleton hxs.1
    | cons y ys =>
      rw [List.intercalate_cons_cons, List.append_assoc, List.singleton_append,
        List.splitOnP_append_cons_of_forall_mem hxs.1 sep hsep, ih hxs.2 (List.cons_ne_nil y ys)]

end Split

end Join
