import DomainRag.Lib.Fusion
import DomainRag.Lib.Rect
import DomainRag.Lib.While

/-! # Merging the boxes of figures

The extractor merges boxes that overlap or are near each other. It takes the boxes one after the
other and merges into each all that are near to it, again while it grows. A box that grows may come
near to one that was put aside before, so all of this is repeated until nothing is merged.

The loops are written for elements that have boxes, so that the same loops run on boxes and on boxes
with the members that were merged into them.
-/

namespace DomainRag.Assessment.FigureBoxes

section Loops

variable {A : Type} (near : A → A → Bool) (union : A → A → A)

/-- The variables of `while merged`. -/
structure Current (A : Type) where
  cur : A
  boxes : List A
  merged : Bool
  changed : Bool

/-- The variables of `while boxes`. -/
structure Round (A : Type) where
  boxes : List A
  out : List A
  changed : Bool

/-- The variables of `while changed`. -/
structure Rounds (A : Type) where
  boxes : List A
  changed : Bool

/-- The body of `for b in boxes`, where `boxes` is the list `rest` of those that were kept. -/
def visit (v : Current A) (b : A) : Current A :=
  if near v.cur b then { v with cur := union v.cur b, merged := true, changed := true }
  else { v with boxes := v.boxes ++ [b] }

def pass (v : Current A) : Current A :=
  v.boxes.foldl (visit near union) { v with boxes := [], merged := false }

def whileMerged (fuel : Nat) : Current A → Option (Current A) :=
  While.loop Current.merged (fun v => some (pass near union v)) fuel

def popCurrent (fuel : Nat) (r : Round A) : Option (Round A) :=
  match r.boxes.getLast? with
  | none => some r
  | some cur => do
    let v ← whileMerged near union fuel ⟨cur, r.boxes.dropLast, true, r.changed⟩
    return ⟨v.boxes, r.out ++ [v.cur], v.changed⟩

def whileBoxes (fuel : Nat) : Round A → Option (Round A) :=
  While.loop (fun r => !r.boxes.isEmpty) (popCurrent near union fuel) fuel

def nextRound (fuel : Nat) (rs : Rounds A) : Option (Rounds A) := do
  let r ← whileBoxes near union fuel ⟨rs.boxes, [], false⟩
  return ⟨r.out, r.changed⟩

def whileChanged (fuel : Nat) : Rounds A → Option (Rounds A) :=
  While.loop Rounds.changed (nextRound near union fuel) fuel

def mergeAll (fuel : Nat) (boxes : List A) : Option (List A) := do
  let rs ← whileChanged near union fuel ⟨boxes, true⟩
  return rs.boxes

end Loops

section Boxes

variable {α : Type} [AddCommGroup α] [LinearOrder α]

def hasSize (r : Rect α) : Bool := 0 < r.width && 0 < r.height

def near (mergeGap : α) (cur b : Rect α) : Bool := (cur.inflate mergeGap).intersects b

def merge (mergeGap : α) (fuel : Nat) (rects : List (Rect α)) : Option (List (Rect α)) :=
  mergeAll (near mergeGap) Rect.union fuel (rects.filter hasSize)

/-- A box with the boxes that were merged into it. -/
structure Cluster (α : Type) where
  rect : Rect α
  members : List (Rect α)

def Cluster.single (r : Rect α) : Cluster α := ⟨r, [r]⟩

def Cluster.near (mergeGap : α) (c c' : Cluster α) : Bool :=
  FigureBoxes.near mergeGap c.rect c'.rect

def Cluster.union (c c' : Cluster α) : Cluster α := ⟨c.rect.union c'.rect, c.members ++ c'.members⟩

/-- The same run with the members of the boxes. -/
def mergeClusters (mergeGap : α) (fuel : Nat) (rects : List (Rect α)) :
    Option (List (Cluster α)) :=
  mergeAll (Cluster.near mergeGap) Cluster.union fuel ((rects.filter hasSize).map .single)

end Boxes

end DomainRag.Assessment.FigureBoxes
