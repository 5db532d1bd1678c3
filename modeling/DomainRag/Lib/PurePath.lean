import Mathlib.Data.List.DropRight
import Mathlib.Data.List.Basic

/-! # Path names

A path name is a root and a list of parts. Empty parts and single dots are dropped when a text is
read, and double dots are kept. A text with a root of its own replaces what it is joined to.
-/

namespace DomainRag

@[irreducible] def splitSlash (s : String) : List String := (s.toList.splitOn '/').map String.ofList

@[irreducible] def basename (s : String) : String := String.ofList (s.toList.rtakeWhile (· ≠ '/'))

@[irreducible] def slashed (s : String) : String :=
  String.ofList (s.toList.map fun c => if c = '\\' then '/' else c)

structure PurePath where
  root : String
  parts : List String
  deriving DecidableEq

namespace PurePath

/-- Two leading slashes are a root of their own, three or more are one. -/
@[irreducible] def rootOf (s : String) : String :=
  match s.toList with
  | '/' :: '/' :: '/' :: _ => "/"
  | '/' :: '/' :: _ => "//"
  | '/' :: _ => "/"
  | _ => ""

def ofString (s : String) : PurePath :=
  ⟨rootOf s, (splitSlash s).filter fun part => part ≠ "" ∧ part ≠ "."⟩

def append (p q : PurePath) : PurePath :=
  if q.root = "" then ⟨p.root, p.parts ++ q.parts⟩ else q

def join (p : PurePath) (s : String) : PurePath := p.append (ofString s)

def parent (p : PurePath) : PurePath := ⟨p.root, p.parts.dropLast⟩

def str (p : PurePath) : String :=
  if p.root = "" ∧ p.parts = [] then "." else p.root ++ "/".intercalate p.parts

end PurePath

/-- A text that is one part of a path and names an entry of its own. -/
structure PlainName (s : String) : Prop where
  ne_empty : s ≠ ""
  noSlash : '/' ∉ s.toList
  ne_dot : s ≠ "."
  ne_dotDot : s ≠ ".."

instance (s : String) : Decidable (PlainName s) :=
  decidable_of_iff (s ≠ "" ∧ '/' ∉ s.toList ∧ s ≠ "." ∧ s ≠ "..")
    ⟨fun ⟨h₁, h₂, h₃, h₄⟩ => ⟨h₁, h₂, h₃, h₄⟩, fun h => ⟨h.1, h.2, h.3, h.4⟩⟩

section Parts

variable {s : String}

theorem splitSlash_of_noSlash (h : '/' ∉ s.toList) : splitSlash s = [s] := by
  rw [splitSlash, List.splitOn_eq_singleton h, List.map_singleton, String.ofList_toList]

theorem noSlash_basename (s : String) : '/' ∉ (basename s).toList := by
  rw [basename, String.toList_ofList]
  intro h
  exact absurd (List.mem_rtakeWhile_imp h) (by decide)

theorem basename_of_noSlash (h : '/' ∉ s.toList) : basename s = s := by
  have hall : s.toList.rtakeWhile (· ≠ '/') = s.toList := by
    rw [List.rtakeWhile_eq_self_iff]
    intro c hc
    exact decide_eq_true fun heq => h (heq ▸ hc)
  rw [basename, hall, String.ofList_toList]

/-- The text of a path ends with its last part. -/
theorem PurePath.str_suffix (root : String) (parts : List String) (part : String) :
    part.toList <:+ (PurePath.mk root (parts ++ [part])).str.toList := by
  have hjoined : part.toList <:+ ("/".intercalate (parts ++ [part])).toList := by
    induction parts with
    | nil => simp
    | cons p parts ih =>
      rw [List.cons_append, String.intercalate_cons_of_ne_nil (by simp), String.toList_append]
      exact ih.trans (List.suffix_append _ _)
  have hne : ¬ (root = "" ∧ parts ++ [part] = []) := by simp
  rw [str, if_neg hne, String.toList_append]
  exact hjoined.trans (List.suffix_append _ _)

theorem PurePath.rootOf_of_noSlash (h : '/' ∉ s.toList) : rootOf s = "" := by
  unfold rootOf
  split
  · rename_i heq
    rw [heq] at h
    exact absurd List.mem_cons_self h
  · rename_i heq
    rw [heq] at h
    exact absurd List.mem_cons_self h
  · rename_i heq
    rw [heq] at h
    exact absurd List.mem_cons_self h
  · rfl

theorem PlainName.ofString (h : PlainName s) : PurePath.ofString s = ⟨"", [s]⟩ := by
  rw [PurePath.ofString, PurePath.rootOf_of_noSlash h.noSlash, splitSlash_of_noSlash h.noSlash,
    List.filter_singleton, decide_eq_true (And.intro h.ne_empty h.ne_dot), cond_true]

theorem PlainName.join (h : PlainName s) (p : PurePath) : p.join s = ⟨p.root, p.parts ++ [s]⟩ := by
  rw [PurePath.join, h.ofString, PurePath.append, if_pos rfl]

theorem PurePath.join_empty (p : PurePath) : p.join "" = p := by
  have hroot : rootOf "" = "" := rootOf_of_noSlash (by simp)
  have hparts : splitSlash "" = [""] := splitSlash_of_noSlash (by simp)
  rw [join, append, ofString, hroot, if_pos rfl, hparts]
  simp

/-- A text without a slash that is not empty is one part, unless it is a dot. -/
theorem PurePath.join_of_noSlash (p : PurePath) (hslash : '/' ∉ s.toList) (hne : s ≠ "") :
    p.join s = if s = "." then p else ⟨p.root, p.parts ++ [s]⟩ := by
  rw [join, append, ofString, rootOf_of_noSlash hslash, if_pos rfl, splitSlash_of_noSlash hslash,
    List.filter_singleton]
  by_cases hdot : s = "."
  · simp only [hdot, ne_eq, not_true_eq_false, and_false, decide_false, cond_false,
      List.append_nil, if_true]
  · simp only [hdot, hne, ne_eq, not_false_eq_true, and_self, decide_true, cond_true, if_false]

end Parts

end DomainRag
