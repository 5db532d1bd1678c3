import Mathlib.Data.List.Pairwise
import Mathlib.Data.Option.Basic

/-! # Tables with row security

Every row of a table has an owner. A session of an ordinary role sees and writes the rows of the
owner that is set in it; a privileged session sees all of them. A unique constraint looks at all
rows, whoever sees them.
-/

/-- The role of a session, and the owner that is set in it. -/
structure Session where
  bypass : Bool := false
  setting : Option String := none
  deriving DecidableEq, Repr

/-- The session in which an owner is set. -/
def Session.of (s : Session) (owner : String) : Session := { s with setting := some owner }

/-- A table: the owner of a row, and the pairs of rows that a constraint excludes. -/
structure SecuredTable (R : Type) where
  owner : R → String
  clash : R → R → Bool
  clash_symm : ∀ r r', clash r r' = clash r' r

namespace SecuredTable

inductive Refusal where
  | policy
  | unique
  deriving DecidableEq, Repr

variable {R : Type} (t : SecuredTable R) (s : Session)

def sees (row : R) : Bool := s.bypass || s.setting = some (t.owner row)

def select (p : R → Bool) (rows : List R) : List R := rows.filter fun row => t.sees s row && p row

def insert (row : R) (rows : List R) : Except Refusal (List R) :=
  if t.sees s row = false then .error .policy
  else if rows.any (t.clash row) then .error .unique
  else .ok (rows ++ [row])

def Consistent (rows : List R) : Prop := rows.Pairwise fun r r' => t.clash r r' = false

instance (rows : List R) : Decidable (t.Consistent rows) :=
  inferInstanceAs (Decidable (rows.Pairwise _))

def changed (p : R → Bool) (f : R → R) (rows : List R) : List R :=
  rows.map fun row => if t.sees s row && p row then f row else row

/-- An update is refused that moves a row out of sight, or that breaks the constraint. -/
def update (p : R → Bool) (f : R → R) (rows : List R) : Except Refusal (List R) :=
  if rows.any fun row => t.sees s row && p row && !t.sees s (f row) then .error .policy
  else if t.Consistent (t.changed s p f rows) then .ok (t.changed s p f rows)
  else .error .unique

/-- An update that looks for the owner first, before one is set. -/
def updateFound (p : R → Bool) (f : R → R) (rows : List R) : Except Refusal (List R) :=
  match t.select s p rows with
  | [] => .ok rows
  | row :: _ => t.update (s.of (t.owner row)) p f rows

variable {t s} {rows rows' : List R} {row : R} {p : R → Bool} {f : R → R}

theorem sees_of (s : Session) (row : R) : t.sees (s.of (t.owner row)) row = true := by
  simp [sees, Session.of]

theorem insert_eq_ok_iff : t.insert s row rows = .ok rows' ↔
    t.sees s row = true ∧ (∀ r ∈ rows, t.clash r row = false) ∧ rows' = rows ++ [row] := by
  rw [insert]
  by_cases hsees : t.sees s row = true
  · rw [if_neg (by rw [hsees]; decide)]
    by_cases hclash : rows.any (t.clash row) = true
    · rw [if_pos hclash]
      obtain ⟨r, hr, hrow⟩ := List.any_eq_true.mp hclash
      constructor
      · intro h
        cases h
      · rintro ⟨-, hfree, -⟩
        have hnot := hfree r hr
        rw [t.clash_symm, hrow] at hnot
        cases hnot
    · rw [if_neg hclash, Except.ok.injEq]
      have hfree : ∀ r ∈ rows, t.clash r row = false := by
        intro r hr
        rw [t.clash_symm, Bool.eq_false_iff]
        exact fun hrow => hclash (List.any_eq_true.mpr ⟨r, hr, hrow⟩)
      exact ⟨fun h => ⟨hsees, hfree, h.symm⟩, fun h => h.2.2.symm⟩
  · rw [if_pos (Bool.eq_false_iff.mpr hsees)]
    constructor
    · intro h
      cases h
    · exact fun h => absurd h.1 hsees

theorem insert_eq_unique_iff (hsees : t.sees s row = true) :
    t.insert s row rows = .error .unique ↔ ∃ r ∈ rows, t.clash r row = true := by
  rw [insert, if_neg (by rw [hsees]; decide)]
  by_cases hclash : rows.any (t.clash row) = true
  · obtain ⟨r, hr, hrow⟩ := List.any_eq_true.mp hclash
    rw [if_pos hclash]
    exact ⟨fun _ => ⟨r, hr, (t.clash_symm r row).trans hrow⟩, fun _ => rfl⟩
  · rw [if_neg hclash]
    constructor
    · intro h
      cases h
    · rintro ⟨r, hr, hrow⟩
      exact absurd (List.any_eq_true.mpr ⟨r, hr, (t.clash_symm row r).trans hrow⟩) hclash

theorem Consistent.insert (h : t.Consistent rows) (hinsert : t.insert s row rows = .ok rows') :
    t.Consistent rows' := by
  obtain ⟨-, hfree, rfl⟩ := insert_eq_ok_iff.mp hinsert
  rw [Consistent, List.pairwise_append]
  refine ⟨h, List.pairwise_singleton _ _, fun r hr r' hr' => ?_⟩
  rw [List.mem_singleton.mp hr']
  exact hfree r hr

theorem Consistent.eq_of_clash {row' : R} (h : t.Consistent rows) (hrow : row ∈ rows)
    (hrow' : row' ∈ rows) (hclash : t.clash row row' = true) : row = row' := by
  have hsymm : Std.Symm fun r r' => t.clash r r' = false :=
    ⟨fun r r' hrr => (t.clash_symm r' r).trans hrr⟩
  by_contra hne
  rw [List.Pairwise.forall h hrow hrow' hne] at hclash
  cases hclash

theorem consistent_of_update (h : t.update s p f rows = .ok rows') :
    t.Consistent rows' ∧ rows' = t.changed s p f rows := by
  rw [update] at h
  split at h
  · cases h
  · split at h
    · rename_i hconsistent
      cases h
      exact ⟨hconsistent, rfl⟩
    · cases h

theorem consistent_updateFound (h : t.Consistent rows)
    (hupdate : t.updateFound s p f rows = .ok rows') : t.Consistent rows' := by
  rw [updateFound] at hupdate
  split at hupdate
  · cases hupdate
    exact h
  · exact (consistent_of_update hupdate).1

section Privileged

theorem sees_of_bypass (h : s.bypass = true) (row : R) : t.sees s row = true := by
  rw [sees, h, Bool.true_or]

theorem select_of_bypass (h : s.bypass = true) (p : R → Bool) (rows : List R) :
    t.select s p rows = rows.filter p := by
  apply List.filter_congr
  intro row _
  rw [sees_of_bypass h, Bool.true_and]

theorem update_of_bypass (h : s.bypass = true) (p : R → Bool) (f : R → R) (rows : List R) :
    t.update s p f rows =
      if t.Consistent (rows.map fun row => if p row then f row else row) then
        .ok (rows.map fun row => if p row then f row else row)
      else .error .unique := by
  have hchanged : t.changed s p f rows = rows.map fun row => if p row then f row else row := by
    apply List.map_congr_left
    intro row _
    rw [sees_of_bypass h, Bool.true_and]
  rw [update, if_neg, hchanged]
  intro hany
  obtain ⟨row, -, hrow⟩ := List.any_eq_true.mp hany
  rw [sees_of_bypass h (f row), Bool.not_true, Bool.and_false] at hrow
  cases hrow

end Privileged

section Blind

variable (t s) in
/-- A session to which no row of the table is shown. -/
def Blind (rows : List R) : Prop := ∀ row ∈ rows, t.sees s row = false

theorem select_of_blind (h : t.Blind s rows) (p : R → Bool) : t.select s p rows = [] := by
  apply List.filter_eq_nil_iff.mpr
  intro row hrow
  rw [h row hrow, Bool.false_and]
  exact Bool.false_ne_true

theorem updateFound_of_blind (h : t.Blind s rows) (p : R → Bool) (f : R → R) :
    t.updateFound s p f rows = .ok rows := by
  rw [updateFound, select_of_blind h]

/-- No owner is set between two transactions, so that an ordinary role is shown no row. -/
theorem blind_of_idle (hrole : s.bypass = false) (hidle : s.setting.getD "" = "")
    (hnamed : ∀ row ∈ rows, t.owner row ≠ "") : t.Blind s rows := by
  intro row hrow
  rw [sees, hrole, Bool.false_or, decide_eq_false_iff_not]
  intro hset
  rw [hset] at hidle
  exact hnamed row hrow hidle

end Blind

section Changes

/-- What a transaction asks of the table. A row is inserted with its owner set. -/
inductive Change (R : Type) where
  | read
  | insert (row : R)
  | updateFound (p : R → Bool) (f : R → R)

variable (t s) in
/-- The table after a transaction; one that is refused is rolled back. -/
def apply (rows : List R) : Change R → List R
  | .read => rows
  | .insert row => (t.insert (s.of (t.owner row)) row rows).toOption.getD rows
  | .updateFound p f => (t.updateFound s p f rows).toOption.getD rows

variable (t s) in
def applyAll (rows : List R) (changes : List (Change R)) : List R :=
  changes.foldl (t.apply s) rows

theorem consistent_apply (change : Change R) (h : t.Consistent rows) :
    t.Consistent (t.apply s rows change) := by
  cases change with
  | read => exact h
  | insert row =>
    rw [apply]
    cases hinsert : t.insert (s.of (t.owner row)) row rows with
    | error why => exact h
    | ok rows' => exact h.insert hinsert
  | updateFound p f =>
    rw [apply]
    cases hupdate : t.updateFound s p f rows with
    | error why => exact h
    | ok rows' => exact consistent_updateFound h hupdate

theorem consistent_applyAll (changes : List (Change R)) (h : t.Consistent rows) :
    t.Consistent (t.applyAll s rows changes) := by
  induction changes generalizing rows with
  | nil => exact h
  | cons change changes ih => exact ih (consistent_apply change h)

theorem apply_of_blind (h : t.Blind s rows) (change : Change R) :
    t.apply s rows change = rows ∨
      ∃ row, change = .insert row ∧ t.apply s rows change = rows ++ [row] := by
  cases change with
  | read => exact Or.inl rfl
  | insert row =>
    rw [apply]
    cases hinsert : t.insert (s.of (t.owner row)) row rows with
    | error why => exact Or.inl rfl
    | ok rows' =>
      obtain ⟨-, -, rfl⟩ := insert_eq_ok_iff.mp hinsert
      exact Or.inr ⟨row, rfl, rfl⟩
  | updateFound p f =>
    rw [apply, updateFound_of_blind h]
    exact Or.inl rfl

/-- Under an ordinary role a table whose updates look for the owner first is only appended to. -/
theorem applyAll_of_ordinary (hrole : s.bypass = false) (hidle : s.setting.getD "" = "")
    (changes : List (Change R)) (hnamed : ∀ row ∈ rows, t.owner row ≠ "")
    (hinserts : ∀ row, .insert row ∈ changes → t.owner row ≠ "") :
    ∃ added, t.applyAll s rows changes = rows ++ added ∧
      ∀ row ∈ added, .insert row ∈ changes := by
  induction changes generalizing rows with
  | nil => exact ⟨[], (List.append_nil rows).symm, nofun⟩
  | cons change changes ih =>
    rw [applyAll, List.foldl_cons]
    have hrest : ∀ row, .insert row ∈ changes → t.owner row ≠ "" := fun row hrow =>
      hinserts row (List.mem_cons_of_mem _ hrow)
    rcases apply_of_blind (blind_of_idle hrole hidle hnamed) change with heq | ⟨row, rfl, heq⟩
    · rw [heq]
      obtain ⟨added, hrun, hadded⟩ := ih hnamed hrest
      exact ⟨added, hrun, fun row hrow => List.mem_cons_of_mem _ (hadded row hrow)⟩
    · rw [heq]
      have hnamed' : ∀ r ∈ rows ++ [row], t.owner r ≠ "" := by
        rw [List.forall_mem_append]
        exact ⟨hnamed, List.forall_mem_singleton.mpr (hinserts row List.mem_cons_self)⟩
      obtain ⟨added, hrun, hadded⟩ := ih hnamed' hrest
      refine ⟨row :: added, ?_, List.forall_mem_cons.mpr ⟨List.mem_cons_self, fun r hr =>
        List.mem_cons_of_mem _ (hadded r hr)⟩⟩
      exact hrun.trans (by rw [List.append_assoc, List.singleton_append])

end Changes

end SecuredTable
