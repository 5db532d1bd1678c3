import DomainRag.Lib.Except
import DomainRag.Lib.Value

/-! # The vector store

One collection of points for each domain. A point is replaced by its id, its payload is merged,
and it goes only when its id is named.
-/

namespace DomainRag.Store

structure Point where
  id : String
  dense : List Rat
  sparse : Dict Nat Rat
  payload : Dict String Value

def Point.mergePayload (p : Point) (payload : Dict String Value) : Point :=
  { p with payload := p.payload.update payload.entries }

theorem Point.mergePayload_mergePayload (p : Point) (payload : Dict String Value) :
    (p.mergePayload payload).mergePayload payload = p.mergePayload payload := by
  rw [mergePayload, mergePayload, Dict.update_update]

structure Collection where
  denseDim : Nat
  withSparse : Bool
  points : Dict String Point

structure VectorStore where
  collections : Dict String Collection

namespace VectorStore

def coll (vs : VectorStore) (domainId : String) : Except Exc Collection :=
  match vs.collections.get? domainId with
  | some c => .ok c
  | none => .error ⟨"KeyError", s!"'collection chunks_{domainId} does not exist'"⟩

def createCollection (vs : VectorStore) (domainId : String) (denseDim : Nat)
    (withSparse : Bool) : Except Exc VectorStore :=
  if domainId ∈ vs.collections.keys then
    .error ⟨"ValueError", s!"collection chunks_{domainId} already exists"⟩
  else .ok ⟨vs.collections.set domainId ⟨denseDim, withSparse, .empty⟩⟩

def setPoints (vs : VectorStore) (domainId : String) (c : Collection)
    (points : Dict String Point) : VectorStore :=
  ⟨vs.collections.set domainId { c with points := points }⟩

def upsertChunks (vs : VectorStore) (domainId : String) (points : List Point) :
    Except Exc VectorStore := do
  let c ← vs.coll domainId
  return vs.setPoints domainId c (points.foldl (fun ps p => ps.set p.id p) c.points)

def mergeAt (payload : Dict String Value) (ps : Dict String Point) (cid : String) :
    Dict String Point :=
  match ps.get? cid with
  | some p => ps.set cid (p.mergePayload payload)
  | none => ps

def setPayload (vs : VectorStore) (domainId : String) (chunkIds : List String)
    (payload : Dict String Value) : Except Exc VectorStore := do
  let c ← vs.coll domainId
  return vs.setPoints domainId c (chunkIds.foldl (mergeAt payload) c.points)

def deletePoints (vs : VectorStore) (domainId : String) (chunkIds : List String) :
    VectorStore :=
  match vs.collections.get? domainId with
  | none => vs
  | some c => vs.setPoints domainId c (chunkIds.foldl Dict.erase c.points)

def deleteCollection (vs : VectorStore) (domainId : String) : VectorStore :=
  ⟨vs.collections.erase domainId⟩

def point? (vs : VectorStore) (domainId id : String) : Option Point :=
  (vs.collections.get? domainId).bind fun c => c.points.get? id

theorem point?_setPoints (vs : VectorStore) (domainId : String) (c : Collection)
    (points : Dict String Point) (d id : String) :
    (vs.setPoints domainId c points).point? d id =
      if d = domainId then points.get? id else vs.point? d id := by
  rw [point?, setPoints, Dict.get?_set]
  split <;> rfl

theorem coll_eq_ok_iff {vs : VectorStore} {domainId : String} {c : Collection} :
    vs.coll domainId = .ok c ↔ vs.collections.get? domainId = some c := by
  unfold coll
  split <;> simp_all

theorem point?_of_get? {vs : VectorStore} {domainId : String} {c : Collection}
    (h : vs.collections.get? domainId = some c) (id : String) :
    vs.point? domainId id = c.points.get? id := by
  rw [point?, h]
  rfl

theorem point?_createCollection {vs vs' : VectorStore} {domainId : String} {denseDim : Nat}
    {withSparse : Bool} (h : vs.createCollection domainId denseDim withSparse = .ok vs')
    (d id : String) : vs'.point? d id = vs.point? d id := by
  rw [createCollection] at h
  split at h
  · cases h
  · rename_i habsent
    cases h
    rw [point?, point?, Dict.get?_set]
    split
    · rename_i hd
      rw [hd, Dict.get?_eq_none_iff.mpr habsent]
      rfl
    · rfl

theorem get?_foldl_set (points : List Point) (ps : Dict String Point) (id : String) :
    (points.foldl (fun ps p => ps.set p.id p) ps).get? id =
      (points.reverse.find? fun p => p.id = id).or (ps.get? id) := by
  induction points generalizing ps with
  | nil => rfl
  | cons p points ih =>
    rw [List.foldl_cons, ih, Dict.get?_set, List.reverse_cons, List.find?_append]
    cases points.reverse.find? fun p => p.id = id with
    | some q => rfl
    | none =>
      by_cases h : id = p.id
      · simp [h]
      · simp [h, Ne.symm h]

theorem point?_upsertChunks {vs vs' : VectorStore} {domainId : String} {points : List Point}
    (h : vs.upsertChunks domainId points = .ok vs') (d id : String) :
    vs'.point? d id = if d = domainId then
      (points.reverse.find? fun p => p.id = id).or (vs.point? d id) else vs.point? d id := by
  obtain ⟨c, hc, h⟩ := Except.bind_eq_ok_iff.mp h
  cases h
  rw [point?_setPoints, get?_foldl_set]
  split
  · rename_i hd
    rw [hd, point?_of_get? (coll_eq_ok_iff.mp hc)]
  · rfl

theorem get?_mergeAt (payload : Dict String Value) (ps : Dict String Point) (cid id : String) :
    (mergeAt payload ps cid).get? id =
      if id = cid then (ps.get? id).map (·.mergePayload payload) else ps.get? id := by
  rw [mergeAt]
  by_cases hid : id = cid
  · rw [if_pos hid, hid]
    cases hp : ps.get? cid with
    | none => exact hp
    | some p =>
      simp only [Dict.get?_set, if_true, Option.map_some]
  · rw [if_neg hid]
    cases ps.get? cid with
    | none => rfl
    | some p => exact (Dict.get?_set ps cid id _).trans (if_neg hid)

theorem get?_foldl_mergeAt (payload : Dict String Value) (ids : List String)
    (ps : Dict String Point) (id : String) :
    (ids.foldl (mergeAt payload) ps).get? id =
      if id ∈ ids then (ps.get? id).map (·.mergePayload payload) else ps.get? id := by
  induction ids generalizing ps with
  | nil => rfl
  | cons cid ids ih =>
    rw [List.foldl_cons, ih, get?_mergeAt]
    by_cases hcid : id = cid
    · by_cases hid : id ∈ ids
      · rw [if_pos hid, if_pos hcid, if_pos (List.mem_cons_of_mem cid hid), Option.map_map]
        congr 1
        funext p
        exact p.mergePayload_mergePayload payload
      · rw [if_neg hid, if_pos hcid, if_pos (List.mem_cons.mpr (.inl hcid))]
    · simp only [List.mem_cons, hcid, false_or, if_false]

theorem point?_setPayload {vs vs' : VectorStore} {domainId : String} {ids : List String}
    {payload : Dict String Value} (h : vs.setPayload domainId ids payload = .ok vs')
    (d id : String) :
    vs'.point? d id = if d = domainId ∧ id ∈ ids then
      (vs.point? d id).map (·.mergePayload payload) else vs.point? d id := by
  obtain ⟨c, hc, h⟩ := Except.bind_eq_ok_iff.mp h
  cases h
  rw [point?_setPoints, get?_foldl_mergeAt]
  by_cases hd : d = domainId
  · rw [if_pos hd, hd, point?_of_get? (coll_eq_ok_iff.mp hc)]
    simp only [true_and]
  · rw [if_neg hd, if_neg fun hand => hd hand.1]

theorem get?_foldl_erase (ids : List String) (ps : Dict String Point) (id : String) :
    (ids.foldl Dict.erase ps).get? id = if id ∈ ids then none else ps.get? id := by
  induction ids generalizing ps with
  | nil => rfl
  | cons cid ids ih =>
    rw [List.foldl_cons, ih, Dict.get?_erase]
    by_cases hid : id ∈ ids
    · rw [if_pos hid, if_pos (List.mem_cons_of_mem cid hid)]
    · simp only [hid, if_false, List.mem_cons, or_false]

theorem point?_deletePoints (vs : VectorStore) (domainId : String) (ids : List String)
    (d id : String) :
    (vs.deletePoints domainId ids).point? d id =
      if d = domainId ∧ id ∈ ids then none else vs.point? d id := by
  rw [deletePoints]
  by_cases hd : d = domainId
  · cases hc : vs.collections.get? domainId with
    | none =>
      rw [hd, point?, hc]
      exact (ite_self none).symm
    | some c =>
      simp only [point?_setPoints, get?_foldl_erase, hd, true_and, if_true, point?_of_get? hc]
  · rw [if_neg fun hand => hd hand.1]
    split
    · rfl
    · rw [point?_setPoints, if_neg hd]

theorem point?_deleteCollection (vs : VectorStore) (domainId d id : String) :
    (vs.deleteCollection domainId).point? d id = if d = domainId then none else vs.point? d id := by
  rw [deleteCollection, point?, Dict.get?_erase]
  split <;> rfl

def WellKeyed (vs : VectorStore) : Prop := ∀ d id p, vs.point? d id = some p → p.id = id

end VectorStore

inductive VectorOp where
  | createCollection (domainId : String) (denseDim : Nat) (withSparse : Bool)
  | upsertChunks (domainId : String) (points : List Point)
  | setPayload (domainId : String) (chunkIds : List String) (payload : Dict String Value)
  | deleteCollection (domainId : String)
  | deletePoints (domainId : String) (chunkIds : List String)

namespace VectorOp

def after (vs : VectorStore) : VectorOp → VectorStore
  | .createCollection domainId denseDim withSparse =>
    (vs.createCollection domainId denseDim withSparse).toOption.getD vs
  | .upsertChunks domainId points => (vs.upsertChunks domainId points).toOption.getD vs
  | .setPayload domainId chunkIds payload =>
    (vs.setPayload domainId chunkIds payload).toOption.getD vs
  | .deleteCollection domainId => vs.deleteCollection domainId
  | .deletePoints domainId chunkIds => vs.deletePoints domainId chunkIds

/-- The store that a sequence of operations leaves, from an empty one. -/
def reached (ops : List VectorOp) : VectorStore := ops.foldl after ⟨.empty⟩

end VectorOp

namespace VectorStore

variable {vs : VectorStore}

theorem wellKeyed_of_except {r : Except Exc VectorStore} (h : vs.WellKeyed)
    (hr : ∀ vs', r = .ok vs' → vs'.WellKeyed) : (r.toOption.getD vs).WellKeyed := by
  cases r with
  | error e => exact h
  | ok vs' => exact hr vs' rfl

theorem WellKeyed.after (h : vs.WellKeyed) (op : VectorOp) : (op.after vs).WellKeyed := by
  cases op with
  | createCollection domainId denseDim withSparse =>
    refine wellKeyed_of_except h ?_
    intro vs' hvs' d id p hp
    rw [point?_createCollection hvs'] at hp
    exact h d id p hp
  | upsertChunks domainId points =>
    refine wellKeyed_of_except h ?_
    intro vs' hvs' d id p hp
    rw [point?_upsertChunks hvs'] at hp
    split at hp
    · obtain hfind | ⟨-, hold⟩ := Option.or_eq_some_iff.mp hp
      · simpa using List.find?_some hfind
      · exact h d id p hold
    · exact h d id p hp
  | setPayload domainId chunkIds payload =>
    refine wellKeyed_of_except h ?_
    intro vs' hvs' d id p hp
    rw [point?_setPayload hvs'] at hp
    split at hp
    · obtain ⟨q, hq, rfl⟩ := Option.map_eq_some_iff.mp hp
      exact h d id q hq
    · exact h d id p hp
  | deleteCollection domainId =>
    intro d id p hp
    rw [VectorOp.after, point?_deleteCollection] at hp
    split at hp
    · cases hp
    · exact h d id p hp
  | deletePoints domainId chunkIds =>
    intro d id p hp
    rw [VectorOp.after, point?_deletePoints] at hp
    split at hp
    · cases hp
    · exact h d id p hp

theorem wellKeyed_reached (ops : List VectorOp) : (VectorOp.reached ops).WellKeyed := by
  have hrun : ∀ vs : VectorStore, vs.WellKeyed → (ops.foldl VectorOp.after vs).WellKeyed := by
    induction ops with
    | nil => exact fun vs h => h
    | cons op ops ih => exact fun vs h => ih (op.after vs) (h.after op)
  exact hrun ⟨.empty⟩ fun d id p hp => by cases hp

end VectorStore

end DomainRag.Store
