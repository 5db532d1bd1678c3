import DomainRag.Lib.Except
import DomainRag.Lib.IsoDate
import DomainRag.Lib.Value

/-! # The access-control filter

`build_qdrant_acl_filter` writes a user's rights as a tree of conditions, and the in-memory
vector store evaluates such trees on point payloads. Comparing values of different types raises.
-/

namespace DomainRag.Acl

abbrev Payload := Dict String Value

def field (payload : Payload) (key : String) : Value := (payload.get? key).getD .null

structure Range where
  lte : Option Value := none
  gte : Option Value := none
  lt : Option Value := none
  gt : Option Value := none

/-- Conditions of a filter; `any` is a condition without a key or without a test. -/
inductive Condition where
  | must (cs : List Condition)
  | should (cs : List Condition)
  | isNull (key : String)
  | matchValue (key : String) (value : Value)
  | matchAny (key : String) (allowed : List Value)
  | range (key : String) (bounds : Range)
  | any

structure Filter where
  must : List Condition
  mustNot : List Condition

/-- One bound of a range: the value must not compare to it as `excluded` says. -/
def withinBound (sign : String) (excluded : Ordering → Bool) (actual : Value) :
    Option Value → Except Exc Bool
  | none => .ok true
  | some bound => do return !excluded (← actual.compare sign bound)

def inRange (actual : Value) (bounds : Range) : Except Exc Bool :=
  match actual with
  | .null => .ok false
  | actual =>
    lazyAnd (withinBound ">" (· == .gt) actual bounds.lte)
      (lazyAnd (withinBound "<" (· == .lt) actual bounds.gte)
        (lazyAnd (withinBound ">=" (· != .lt) actual bounds.lt)
          (withinBound "<=" (· != .gt) actual bounds.gt)))

def matchesAny (actual : Value) (allowed : List Value) : Bool :=
  match actual with
  | .list vs => vs.any fun a => a.mem allowed
  | actual => actual.mem allowed

def isNone : Value → Bool
  | .null => true
  | _ => false

mutual

def conditionMatch (payload : Payload) : Condition → Except Exc Bool
  | .must cs => allMatch payload cs
  | .should cs => anyMatch payload cs
  | .isNull key => .ok (key = "" || isNone (field payload key))
  | .matchValue key value => .ok ((field payload key).eq value)
  | .matchAny key allowed => .ok (matchesAny (field payload key) allowed)
  | .range key bounds => inRange (field payload key) bounds
  | .any => .ok true

def allMatch (payload : Payload) : List Condition → Except Exc Bool
  | [] => .ok true
  | c :: cs => lazyAnd (conditionMatch payload c) (allMatch payload cs)

def anyMatch (payload : Payload) : List Condition → Except Exc Bool
  | [] => .ok false
  | c :: cs => lazyOr (conditionMatch payload c) (anyMatch payload cs)

end

def payloadMatch (payload : Payload) (filter : Option Filter) : Except Exc Bool :=
  match filter with
  | none => .ok true
  | some filter =>
    lazyAnd (allMatch payload filter.must) do return !(← anyMatch payload filter.mustNot)

/-- The security levels in their cumulative order; `secret` is another name of `restricted`. -/
def securityRank : List (String × Nat) :=
  [("public", 0), ("internal", 1), ("confidential", 2), ("restricted", 3), ("secret", 3)]

def clearanceRank (clearance : String) : Nat := (securityRank.lookup clearance).getD 1

def allowedLevels (clearance : String) : List String :=
  (securityRank.filter fun e => e.2 ≤ clearanceRank clearance).map Prod.fst

structure User where
  userId : String
  clearance : String
  department : Option String
  domainGroups : List String

def startsWithAny (heads : List String) (s : String) : Bool :=
  heads.any fun head => head.toList.isPrefixOf s.toList

def groupTerm (g : String) : String :=
  if startsWithAny ["user:", "group:", "dept:"] g then g else "group:" ++ g

def departmentTerms (department : Option String) : List String :=
  if department.getD "" = "" then [] else ["dept:" ++ department.getD ""]

/-- The identifiers of a user that an access list may name. -/
def userAclTerms (user : User) : List String :=
  (("user:" ++ user.userId) :: departmentTerms user.department ++
    user.domainGroups.map groupTerm).eraseDups

def nullOr (key : String) (bounds : Range) : Condition :=
  .should [.isNull key, .range key bounds]

def buildQdrantAclFilter (user : User) (today : Option Date) (excludeArchived : Bool) : Filter where
  must :=
    [ .matchValue "approval_status" (.str "approved"),
      .matchAny "security_level" ((allowedLevels user.clearance).map Value.str),
      .matchAny "acl" ((userAclTerms user).map Value.str) ] ++
    match today with
    | none => []
    | some today =>
      [ nullOr "valid_from" { lte := some (.str today.isoformat) },
        nullOr "valid_until" { gte := some (.str today.isoformat) } ]
  mustNot := if excludeArchived then [.matchValue "archived" (.bool true)] else []

end DomainRag.Acl
