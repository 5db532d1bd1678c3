import DomainRag.Lib.DeepMerge
import DomainRag.Lib.Except

/-! # The shape of dynamic values

What a program may do with a value that it did not make: ask it for a field, which needs a
dictionary, and go through its elements, which needs a text or a container.
-/

namespace DomainRag.Value

variable {v w d : Value} {k : String}

def entries : Value → List (String × Value)
  | dict kvs => kvs
  | _ => []

def Loops (v : Value) : Prop := v.truthy = true → ∃ vs, v.iter = .ok vs

def Hashable (v : Value) : Prop := ∃ key, v.intKey? = .ok key

theorem loops_iff {v : Value} : v.Loops ↔ Returns (v.orElse (.list [])).iter := by
  rw [Loops, orElse]
  cases v.truthy with
  | false => exact ⟨fun _ => returns_ok [], fun _ => nofun⟩
  | true => exact ⟨fun h => h rfl, fun h _ => h⟩

/-- A number, which a truth value is not. -/
def number? : Value → Option Rat
  | int n => some n
  | float q => some q
  | _ => none

/-- The value of a dictionary at a key. -/
def field (v : Value) (k : String) (d : Value) : Value := (v.entries.lookup k).getD d

theorem getD_eq_ok_iff : v.getD k d = .ok w ↔ v.isDict = true ∧ v.field k d = w := by
  cases v <;> simp [getD, get, bind, Except.bind, pure, Except.pure, isDict, field, entries]

theorem getD_of_isDict (h : v.isDict = true) (k : String) (d : Value) :
    v.getD k d = .ok (v.field k d) :=
  getD_eq_ok_iff.mpr ⟨h, rfl⟩

/-- A program that asks a dictionary for a field returns if what it does with the field does. -/
theorem returns_getD_bind_iff {A : Type} {f : Value → Except Exc A} :
    Returns (v.getD k d >>= f) ↔ v.isDict = true ∧ Returns (f (v.field k d)) := by
  rw [returns_bind_iff]
  simp only [getD_eq_ok_iff]
  constructor
  · rintro ⟨_, ⟨hv, rfl⟩, hf⟩
    exact ⟨hv, hf⟩
  · exact fun h => ⟨_, ⟨h.1, rfl⟩, h.2⟩

/-- The dictionary has a list of values at the key, each with a property. An absent list counts as
an empty one, and so do an empty text and an empty dictionary. -/
def ListAt (v : Value) (k : String) (P : Value → Prop) : Prop :=
  v.isDict = true ∧ ∃ vs, (v.field k (.list [])).iter = .ok vs ∧ ∀ w ∈ vs, P w

/-- The values that a program finds in the list at a key. -/
def elementsAt (v : Value) (k : String) : List Value :=
  (v.field k (.list [])).iter.toOption.getD []

theorem ListAt.congr {P Q : Value → Prop} (h : ∀ w, P w ↔ Q w) : v.ListAt k P ↔ v.ListAt k Q := by
  simp only [ListAt, h]

theorem returns_loop_iff {A B : Type} {f : Value → Except Exc A} {g : List A → Except Exc B}
    (hg : ∀ as, Returns (g as)) :
    Returns (v.getD k (.list []) >>= fun given => given.iter >>= fun vs => vs.mapM f >>= g) ↔
      v.ListAt k fun w => Returns (f w) := by
  rw [returns_getD_bind_iff, returns_bind_iff, ListAt]
  refine and_congr_right fun _ => exists_congr fun vs => and_congr_right fun _ => ?_
  rw [returns_bind_iff, ← returns_mapM_iff]
  exact ⟨fun ⟨as, has, _⟩ => ⟨as, has⟩, fun ⟨as, has⟩ => ⟨as, has, hg as⟩⟩

end DomainRag.Value
