import DomainRag.Documents.Agreement
import DomainRag.Documents.Postgres
import DomainRag.InputSchema.Validator

/-! # Validity over metadata updates

The check of an update reads the columns, the stored metadata, the patch and the patch's metadata
as four layers, each over the one before it. The update writes columns and replaces the stored
metadata as a whole. A key at which the two differ may leave an invalid document behind.
-/

namespace DomainRag.Documents

open Store Indexing Program InputSchema

/-- The metadata service with its schemas, what the database refuses, the error of its
`set_payload` call, if it raises, and of its audit. -/
structure Deployment where
  schemas : InputSchemaService
  refuses : DocumentField → Value → Option Exc
  setPayloadFault : Option Exc := none
  audit : Except Exc Unit := .ok ()

def IsSchemaError (e : Exc) : Prop := e.typeName = "InputSchemaValidationError"

def entriesOf : Value → List (String × Value)
  | .dict kvs => kvs
  | _ => []

def columns (record : DocumentRecord) (acl : List Value) : Dict String Value := .ofList
  [("title", record (.shared .title)),
   ("security_level", record (.shared .securityLevel)),
   ("owner", record .owner),
   ("acl", .list acl),
   ("tags", record (.shared .tags)),
   ("valid_from", record (.shared .validFrom)),
   ("valid_until", record (.shared .validUntil)),
   ("department", record (.shared .department)),
   ("doc_type", record (.shared .docType)),
   ("input_type", record .inputType)]

/-- What a stored document has at a key: an entry of its metadata hides the column. -/
def visibleAt (record : DocumentRecord) (acl : List Value) (k : String) : Option Value :=
  ((Dict.ofList (entriesOf (record .metadata))).get? k).or ((columns record acl).get? k)

/-- What the check of a patch reads at a key. -/
def checkedAt (existing : DocumentRecord) (acl : List Value) (patch : Dict String Value)
    (k : String) : Option Value :=
  ((Dict.ofList (entriesOf ((patch.get? "metadata").getD .null))).get? k).or
    (((patch.filterKeys fun k => k ≠ "metadata").get? k).or (visibleAt existing acl k))

def inputTypeOf (record : DocumentRecord) (entry : Option Value) : Value :=
  (entry.getD .null).orElse (record .inputType)

def aclOf (rows : List ChunkRecord) : Except Exc (List Value) :=
  match rows with
  | [] => .ok []
  | row :: _ => (row.attrs .acl).iter

namespace Deployment

variable (d : Deployment)

def service : DocumentMetadataService where
  validate := d.schemas.validate
  setPayloadFault := d.setPayloadFault
  audit := d.audit

def update (doc : DocKey) (patch : Dict String Value) : StoreTask (Option MetadataUpdateResult) :=
  d.service.updateOn (postgres d.refuses) doc patch

/-- The stored document passes the check of an empty patch. -/
def valid (s : Stores) (doc : DocKey) : Bool :=
  match (s.documents.get doc).map (rowToDoc doc) with
  | some (.ok record) =>
    (d.service.check doc record (s.chunks.listByDoc doc none) .empty).isOk
  | _ => false

/-- The database and the audit raise errors of their own only. -/
structure OwnErrors : Prop where
  refuses : ∀ f v e, d.refuses f v = some e → ¬ IsSchemaError e
  audit : ∀ e, d.audit = .error e → ¬ IsSchemaError e

/-- An update that returns a result leaves a valid document, and one that raises a schema error
leaves everything as it was. -/
def Meets (s : Stores) (doc : DocKey) (patch : Dict String Value) : Prop :=
  Ensures (d.update doc patch) s (fun r s' => r.isSome → d.valid s' doc = true)
    fun e s' => IsSchemaError e → s' = s

/-- The patch passes the check, the database takes it, and the row can be read afterwards:
`existing` is the record before the update, `record` the one after it. -/
structure Accepted (s : Stores) (doc : DocKey) (patch : Dict String Value)
    (existing record : DocumentRecord) (acl : List Value) : Prop where
  rows : ∃ row, s.documents.get doc = some row ∧ rowToDoc doc row = .ok existing ∧
    rowToDoc doc (setColumns patch row) = .ok record
  acl : aclOf (s.chunks.listByDoc doc none) = .ok acl
  checked : d.service.check doc existing (s.chunks.listByDoc doc none) patch = .ok ()
  taken : refusal d.refuses patch = none
  audited : d.audit = .ok ()

/-- The schema of the input type, if one is set, accepts every entry of a document. -/
def Conforms (doc : DocKey) (record : DocumentRecord) (entry : String → Option Value) : Prop :=
  let inputType := inputTypeOf record (entry "input_type")
  inputType.truthy = true →
    ∃ schema, d.schemas.getSchema doc.domainId inputType = .ok (some schema) ∧
      ∀ k, Accepts d.schemas.lib schema k (entry k)

/-- At each key the schema of the remaining input type accepts what stays there, unless this is
just what was checked. -/
def Kept (doc : DocKey) (patch : Dict String Value) (existing record : DocumentRecord)
    (acl : List Value) : Prop :=
  let inputType := inputTypeOf record (visibleAt record acl "input_type")
  inputType.truthy = true →
    ∃ schema, d.schemas.getSchema doc.domainId inputType = .ok (some schema) ∧
      ∀ k, inputType = inputTypeOf existing (checkedAt existing acl patch "input_type") ∧
          visibleAt record acl k = checkedAt existing acl patch k ∨
        Accepts d.schemas.lib schema k (visibleAt record acl k)

end Deployment

section Layers

variable {existing record : DocumentRecord} {acl : List Value} {patch : Dict String Value}
  {doc : DocKey} {row : DocumentRecord}

theorem rowToDoc_shape (h : rowToDoc doc row = .ok record) :
    (∃ tags, record (.shared .tags) = .list tags) ∧
      ∃ metadata, record .metadata = .dict metadata := by
  obtain ⟨tags, -, h⟩ := Except.bind_eq_ok_iff.mp h
  obtain ⟨metadata, -, h⟩ := Except.bind_eq_ok_iff.mp h
  cases h
  exact ⟨⟨tags, rfl⟩, metadata, rfl⟩

def baseLayers (existing : DocumentRecord) (acl : List Value) (patch : Dict String Value) :
    Dict String Value :=
  ((columns existing acl).update (entriesOf (existing .metadata))).update
    (patch.filterKeys fun k => k ≠ "metadata").entries

theorem get?_baseLayers (k : String) : (baseLayers existing acl patch).get? k =
    ((patch.filterKeys fun k => k ≠ "metadata").get? k).or (visibleAt existing acl k) := by
  rw [baseLayers, Dict.get?_update, Dict.get?_update_list, visibleAt]

theorem mergeForValidation_eq (h : rowToDoc doc row = .ok existing) (patch : Dict String Value)
    (acl : List Value) :
    mergeForValidation existing patch acl = .ok (match (patch.get? "metadata").getD .null with
      | .dict kvs => (baseLayers existing acl patch).update kvs
      | _ => baseLayers existing acl patch) := by
  obtain ⟨⟨tags, htags⟩, metadata, hmetadata⟩ := rowToDoc_shape h
  have hiter : ((existing (.shared .tags)).orElse (.list [])).iter = .ok tags := by
    rw [htags]
    cases tags <;> rfl
  rw [mergeForValidation, hiter, baseLayers, columns, hmetadata, htags]
  cases metadata <;> rfl

theorem mergeForValidation_spec (h : rowToDoc doc row = .ok existing) (patch : Dict String Value)
    (acl : List Value) :
    ∃ merged, mergeForValidation existing patch acl = .ok merged ∧
      ∀ k, merged.get? k = checkedAt existing acl patch k := by
  refine ⟨_, mergeForValidation_eq h patch acl, fun k => ?_⟩
  rw [checkedAt, ← get?_baseLayers]
  split
  · rename_i kvs hkvs
    rw [hkvs, Dict.get?_update_list, entriesOf]
  · rename_i hno
    have hentries : entriesOf ((patch.get? "metadata").getD .null) = [] := by
      cases hv : (patch.get? "metadata").getD .null with
      | dict kvs => exact absurd hv (hno kvs)
      | _ => rfl
    rw [hentries]
    rfl

theorem checkedAt_empty : checkedAt existing acl .empty = visibleAt existing acl := rfl

end Layers

section Check

variable {d : Deployment} {doc : DocKey} {row existing : DocumentRecord} {rows : List ChunkRecord}
  {patch : Dict String Value}

theorem check_eq_ok_iff (h : rowToDoc doc row = .ok existing) :
    d.service.check doc existing rows patch = .ok () ↔
      ∃ acl, aclOf rows = .ok acl ∧ d.Conforms doc existing (checkedAt existing acl patch) := by
  have hcheck : d.service.check doc existing rows patch = (do
      let acl ← aclOf rows
      let merged ← mergeForValidation existing patch acl
      let inputType := ((merged.get? "input_type").getD .null).orElse (existing .inputType)
      if inputType.truthy then d.schemas.validate doc.domainId inputType merged else .ok ()) := by
    cases rows <;> rfl
  rw [hcheck, Except.bind_eq_ok_iff]
  refine exists_congr fun acl => and_congr_right fun _ => ?_
  obtain ⟨merged, hmerged, hget⟩ := mergeForValidation_spec h patch acl
  rw [hmerged, Except.bind_eq_ok_iff]
  simp only [Except.ok.injEq, exists_eq_left', hget]
  rw [Deployment.Conforms, inputTypeOf]
  split
  · rename_i htruthy
    rw [InputSchemaService.validate_eq_ok_iff htruthy]
    simp only [htruthy, hget, true_implies]
  · rename_i htruthy
    exact ⟨fun _ ht => absurd ht htruthy, fun _ => rfl⟩

theorem isOk_iff {x : Except Exc Unit} : x.isOk = true ↔ x = .ok () := by
  cases x with
  | error e => exact ⟨nofun, nofun⟩
  | ok u => exact ⟨fun _ => rfl, fun _ => rfl⟩

/-- The document after an update: the record that is read and the first row's list. -/
structure Landed (s : Stores) (doc : DocKey) (record : DocumentRecord) (acl : List Value) :
    Prop where
  document : ∃ row, s.documents.get doc = some row ∧ rowToDoc doc row = .ok record
  acl : aclOf (s.chunks.listByDoc doc none) = .ok acl

theorem Landed.valid_iff {s : Stores} {record : DocumentRecord} {acl : List Value}
    (h : Landed s doc record acl) :
    d.valid s doc = true ↔ d.Conforms doc record (visibleAt record acl) := by
  obtain ⟨row, hrow, hrecord⟩ := h.document
  have hvalid : d.valid s doc = true ↔
      d.service.check doc record (s.chunks.listByDoc doc none) .empty = .ok () := by
    rw [Deployment.valid, hrow, Option.map_some, hrecord]
    exact isOk_iff
  rw [hvalid, check_eq_ok_iff hrecord]
  simp only [h.acl, Except.ok.injEq, exists_eq_left', checkedAt_empty]

namespace Deployment.Accepted

variable {s : Stores} {record : DocumentRecord} {acl : List Value}

theorem conforms (h : d.Accepted s doc patch existing record acl) :
    d.Conforms doc existing (checkedAt existing acl patch) := by
  obtain ⟨row, -, hexisting, -⟩ := h.rows
  obtain ⟨acl', hacl', hconforms⟩ := (check_eq_ok_iff hexisting).mp h.checked
  cases h.acl.symm.trans hacl'
  exact hconforms

theorem kept_iff (h : d.Accepted s doc patch existing record acl) :
    d.Kept doc patch existing record acl ↔ d.Conforms doc record (visibleAt record acl) := by
  constructor
  · intro hkept htruthy
    obtain ⟨schema, hschema, hkeys⟩ := hkept htruthy
    refine ⟨schema, hschema, fun k => ?_⟩
    obtain ⟨htype, hsame⟩ | haccepts := hkeys k
    · rw [htype] at htruthy hschema
      obtain ⟨schema', hschema', hchecked⟩ := h.conforms htruthy
      cases hschema.symm.trans hschema'
      rw [hsame]
      exact hchecked k
    · exact haccepts
  · intro hconforms htruthy
    obtain ⟨schema, hschema, hkeys⟩ := hconforms htruthy
    exact ⟨schema, hschema, fun k => .inr (hkeys k)⟩

theorem unique {existing' record' : DocumentRecord} {acl' : List Value}
    (h : d.Accepted s doc patch existing record acl)
    (h' : d.Accepted s doc patch existing' record' acl') :
    existing' = existing ∧ record' = record ∧ acl' = acl := by
  obtain ⟨row, hrow, hexisting, hrecord⟩ := h.rows
  obtain ⟨row', hrow', hexisting', hrecord'⟩ := h'.rows
  cases hrow.symm.trans hrow'
  exact ⟨Except.ok.inj (hexisting'.symm.trans hexisting),
    Except.ok.inj (hrecord'.symm.trans hrecord), Except.ok.inj (h'.acl.symm.trans h.acl)⟩

end Deployment.Accepted

end Check

section Errors

theorem not_isSchemaError {e : Exc} (h : e.typeName = "TypeError" ∨ e.typeName = "ValueError") :
    ¬ IsSchemaError e := by
  intro hschema
  rw [IsSchemaError] at hschema
  rw [hschema] at h
  revert h
  decide

theorem throws_iter (v : Value) : Throws (fun e => ¬ IsSchemaError e) v.iter := by
  cases v with
  | str _ | list _ | dict _ => exact throws_ok _
  | null | bool _ | int _ | float _ => exact throws_error (not_isSchemaError (.inl rfl))

theorem throws_toEntry (i : Nat) (v : Value) :
    Throws (fun e => ¬ IsSchemaError e) (toEntry i v) := by
  unfold toEntry
  split
  · exact throws_error (not_isSchemaError (.inl rfl))
  · exact throws_ok _
  · exact throws_error (not_isSchemaError (.inl rfl))
  · exact throws_error (not_isSchemaError (.inl rfl))
  · exact throws_ok _
  · exact throws_error (not_isSchemaError (.inr rfl))

theorem throws_toDict (v : Value) : Throws (fun e => ¬ IsSchemaError e) (toDict v) := by
  unfold toDict
  split
  · exact throws_ok _
  · refine (throws_iter _).bind fun vs => ?_
    exact (throws_mapM (fun e : Value × Nat => throws_toEntry e.2 e.1) _).bind fun _ => throws_ok _

theorem throws_rowToDoc (doc : DocKey) (row : DocumentRecord) :
    Throws (fun e => ¬ IsSchemaError e) (rowToDoc doc row) :=
  (throws_iter _).bind fun _ => (throws_toDict _).bind fun _ => throws_ok _

theorem not_isSchemaError_of_refusal {d : Deployment} (herrors : d.OwnErrors)
    {patch : Dict String Value} {e : Exc} (h : refusal d.refuses patch = some e) :
    ¬ IsSchemaError e := by
  obtain ⟨f, -, hf⟩ := List.exists_of_findSome?_eq_some h
  obtain ⟨v, -, hv⟩ := Option.bind_eq_some_iff.mp hf
  exact herrors.refuses f v e hv

end Errors

section Update

variable {d : Deployment} {doc : DocKey} {row : DocumentRecord} {patch : Dict String Value}
  {s : Stores}

theorem ensures_readDoc {Q : Option DocumentRecord → Stores → Prop} {R : Exc → Stores → Prop}
    (hrow : s.documents.get doc = some row) :
    Ensures (readDoc doc) s Q R ↔ (∀ record, rowToDoc doc row = .ok record → Q (some record) s) ∧
      ∀ e, rowToDoc doc row = .error e → R e s := by
  rw [readDoc, ensures_bind, ensures_get, hrow, ensures_bind, ensures_ofExcept]
  exact Iff.rfl

/-- The columns of a patch reach the row before the record is read; an error comes from the
database or from this reading. -/
theorem ensures_updatePartial (herrors : d.OwnErrors) (hrow : s.documents.get doc = some row) :
    Ensures ((postgres d.refuses).updatePartial doc patch) s
      (fun r s' => ∃ record, r = some record ∧ rowToDoc doc (setColumns patch row) = .ok record ∧
        s'.documents.get doc = some (setColumns patch row) ∧ s'.chunks = s.chunks ∧
        refusal d.refuses patch = none)
      fun e _ => ¬ IsSchemaError e ∧
        (refusal d.refuses patch = none → ∃ e', rowToDoc doc (setColumns patch row) = .error e') := by
  refine ensures_ite.mpr ⟨fun hnone => ?_, fun _ => ?_⟩
  · have hcolumn : ∀ f ∈ partialColumns, patch.get? f.name = none := fun f hf =>
      Option.isNone_iff_eq_none.mp (List.all_eq_true.mp hnone f hf)
    have hsame : setColumns patch row = row := by
      funext f
      rw [setColumns]
      split
      · rename_i hf
        rw [hcolumn f hf]
        rfl
      · rfl
    have htaken : refusal d.refuses patch = none := by
      rw [refusal, List.findSome?_eq_none_iff]
      intro f hf
      rw [hcolumn f hf]
      rfl
    rw [hsame, ensures_readDoc hrow]
    exact ⟨fun record h => ⟨record, rfl, h, hrow, rfl, htaken⟩,
      fun e h => ⟨throws_rowToDoc doc row e h, fun _ => ⟨e, h⟩⟩⟩
  · refine ensures_failing.mpr ⟨fun e he => ?_, fun htaken => ?_⟩
    · refine ⟨not_isSchemaError_of_refusal herrors he, fun hnone => ?_⟩
      rw [he] at hnone
      cases hnone
    · rw [ensures_bind, ensures_get, hrow, ensures_bind, ensures_set, ensures_bind,
        ensures_ofExcept]
      have hstored : (s.documents.upsert doc (setColumns patch row)).get doc =
          some (setColumns patch row) := by
        rw [DocumentRepository.get, DocumentRepository.upsert, Dict.get?_set, if_pos rfl]
      exact ⟨fun record h => ⟨record, rfl, h, hstored, rfl, htaken⟩,
        fun e h => ⟨throws_rowToDoc doc _ e h, fun _ => ⟨e, h⟩⟩⟩

theorem aclOf_eq {rows rows' : List ChunkRecord}
    (h : rows'.map (·.attrs .acl) = rows.map (·.attrs .acl)) : aclOf rows' = aclOf rows := by
  cases rows with
  | nil => rw [List.map_eq_nil_iff.mp h]
  | cons row rows =>
    obtain ⟨row', rows', rfl, hacl, -⟩ := List.map_eq_cons_iff.mp h
    exact congrArg Value.iter hacl

theorem aclOf_updateMetadata (chunks : ChunkRepository) (ids : List String)
    (patch : Dict String Value) :
    aclOf ((chunks.updateMetadata doc.domainId ids
      (patch.filterKeys fun k => k ∈ chunkSyncKeys)).listByDoc doc none) =
        aclOf (chunks.listByDoc doc none) := by
  refine aclOf_eq (ChunkRepository.attr_listByDoc_updateMetadata ?_ chunks doc.domainId ids doc none)
  rw [← Dict.get?_eq_none_iff, Dict.get?_filterKeys]
  exact if_neg (by decide)

theorem ensures_update_accepted (herrors : d.OwnErrors) :
    Ensures (d.update doc patch) s
      (fun r s' => (r.isSome = true ∧ ∃ existing record acl,
          d.Accepted s doc patch existing record acl ∧ Landed s' doc record acl) ∨
        r = none ∧ s.documents.get doc = none)
      fun e s' => (IsSchemaError e → s' = s) ∧
        ∀ existing record acl, ¬ d.Accepted s doc patch existing record acl := by
  rw [Deployment.update, DocumentMetadataService.updateOn, ensures_bind]
  cases hrow : s.documents.get doc with
  | none =>
    change Ensures (readDoc doc) s _ _
    rw [readDoc, ensures_bind, ensures_get, hrow]
    exact .inr ⟨rfl, rfl⟩
  | some row =>
    refine (ensures_readDoc hrow).mpr ⟨fun existing hexisting => ?_, fun e he => ?_⟩
    · rw [ensures_bind, ensures_get, ensures_bind, ensures_ofExcept]
      refine ⟨fun _ hcheck => ?_, fun e he => ⟨fun _ => rfl, ?_⟩⟩
      · rw [ensures_bind]
        refine (ensures_updatePartial herrors hrow).mono ?_ ?_
        · rintro _ s₁ ⟨record, rfl, hrecord, hstored, hchunks, htaken⟩
          rw [ensures_bind, ensures_get, ensures_bind]
          refine ensures_syncChunks.mono ?_ fun _ _ hfalse => hfalse.elim
          intro _ s₂ hsynced
          rw [ensures_bind, ensures_ofExcept]
          refine ⟨fun _ haudit => .inl ?_, fun e he => ⟨?_, ?_⟩⟩
          · obtain ⟨acl, hacl, -⟩ := (check_eq_ok_iff hexisting).mp hcheck
            refine ⟨rfl, existing, record, acl, ⟨⟨row, hrow, hexisting, hrecord⟩, hacl, hcheck, htaken,
              haudit⟩, ⟨setColumns patch row, ?_, hrecord⟩, ?_⟩
            · rw [hsynced.documents, hstored]
            · rw [hsynced.chunks, hchunks, aclOf_updateMetadata, hacl]
          · exact fun hschema => absurd hschema (herrors.audit e he)
          · intro _ _ _ haccepted
            cases he.symm.trans haccepted.audited
        · rintro e s₁ ⟨hschema, hcause⟩
          refine ⟨fun h => absurd h hschema, fun existing' record acl haccepted => ?_⟩
          obtain ⟨e', he'⟩ := hcause haccepted.taken
          obtain ⟨row', hrow', -, hrecord⟩ := haccepted.rows
          cases hrow.symm.trans hrow'
          cases he'.symm.trans hrecord
      · intro existing' record acl haccepted
        obtain ⟨row', hrow', hexisting', -⟩ := haccepted.rows
        cases hrow.symm.trans hrow'
        cases hexisting.symm.trans hexisting'
        cases he.symm.trans haccepted.checked
    · refine ⟨fun _ => rfl, fun existing record acl haccepted => ?_⟩
      obtain ⟨row', hrow', hexisting, -⟩ := haccepted.rows
      cases hrow.symm.trans hrow'
      cases he.symm.trans hexisting

/-- A metadata update keeps its document valid exactly when the schema accepts whatever the write
leaves at the keys where it differs from what was checked. -/
theorem update_keeps_valid_iff (herrors : d.OwnErrors) :
    d.Meets s doc patch ↔ ∀ existing record acl, d.Accepted s doc patch existing record acl →
      d.Kept doc patch existing record acl := by
  constructor
  · intro hmeets existing record acl haccepted
    have hboth := Ensures.and hmeets (ensures_update_accepted herrors)
    rw [haccepted.kept_iff]
    cases hrun : d.update doc patch s with
    | error e s' => exact absurd haccepted ((hboth.of_error hrun).2.2 existing record acl)
    | ok r s' =>
      obtain ⟨hvalid, ⟨hsome, existing', record', acl', haccepted', hlanded⟩ | ⟨-, hnone⟩⟩ :=
        hboth.of_ok hrun
      · obtain ⟨rfl, rfl, rfl⟩ := haccepted.unique haccepted'
        exact hlanded.valid_iff.mp (hvalid hsome)
      · obtain ⟨row, hrow, -⟩ := haccepted.rows
        cases hnone.symm.trans hrow
  · intro hkept
    refine (ensures_update_accepted herrors).mono ?_ fun e s' h => h.1
    rintro r s' (⟨-, existing, record, acl, haccepted, hlanded⟩ | ⟨rfl, -⟩)
    · intro _
      exact hlanded.valid_iff.mpr (haccepted.kept_iff.mp (hkept existing record acl haccepted))
    · nofun

end Update

def policySchema : InputTypeSchema where
  required := ["title", "acl", "policy_id"]
  fields := .ofList
    [("policy_id", .dict [("type", .str "string"), ("required", .bool true)]),
     ("authority_rank", .dict [("type", .str "integer"), ("minimum", .int 0)])]

def policyDeployment : Deployment where
  schemas :=
    { load := fun _ => .ok (.ofList [("policy_document", policySchema)])
      lib :=
        { search := fun _ _ => .ok true
          date := fun _ => true
          datetime := fun _ => true
          repr := fun v => v.typeName } }
  refuses := fun _ _ => none

def policyKey : DocKey := ⟨"security", "DOC-M5", "v1"⟩

def policyRow : DocumentRecord
  | .shared .title => .str "policy"
  | .inputType => .str "policy_document"
  | .shared .tags => .list []
  | .metadata => .dict [("policy_id", .str "SEC-POL-300"), ("authority_rank", .int 50)]
  | _ => .null

def policyChunk : ChunkRecord where
  domainId := "security"
  chunkId := "DOC-M5_v1_p1_0000"
  docId := "DOC-M5"
  docVersion := "v1"
  parserVersion := "p1"
  chunkStrategy := "fixed"
  chunkIndex := 0
  content := "text"
  contentHash := "h"
  startChar := 0
  endChar := 4
  tokenCount := 1
  attrs
    | .acl => .list [.str "group:security"]
    | _ => .null

def policyStores : Stores where
  vectors := ⟨.empty⟩
  documents := ⟨.ofList [(policyKey, policyRow)]⟩
  chunks := ChunkRepository.replaceChunks ⟨.empty, .empty⟩ ⟨policyKey, "p1"⟩ [policyChunk]
  jobs := ⟨.empty⟩

theorem policyDeployment_ownErrors : policyDeployment.OwnErrors where
  refuses _ _ _ h := by cases h
  audit _ h := by cases h

/-- A new title is kept: its column has no metadata entry over it. -/
theorem update_keeps_valid_retitled :
    policyDeployment.OwnErrors ∧ policyDeployment.valid policyStores policyKey = true ∧
      ∃ existing record acl,
        policyDeployment.Accepted policyStores policyKey (.ofList [("title", .str "access policy")])
          existing record acl ∧
        policyDeployment.Kept policyKey (.ofList [("title", .str "access policy")])
          existing record acl := by
  have hmeets : policyDeployment.Meets policyStores policyKey
      (.ofList [("title", .str "access policy")]) := by
    have hreturns : ((policyDeployment.update policyKey
        (.ofList [("title", .str "access policy")])).result? policyStores).isSome = true := by
      decide +kernel
    obtain ⟨r, hr⟩ := Option.isSome_iff_exists.mp hreturns
    rw [Deployment.Meets, Ensures, eq_ok_of_result? hr]
    intro _
    decide +kernel
  have haccepted : policyDeployment.Accepted policyStores policyKey
      (.ofList [("title", .str "access policy")]) _ _ _ :=
    { rows := ⟨policyRow, rfl, rfl, rfl⟩
      acl := rfl
      checked := isOk_iff.mp (by decide +kernel)
      taken := rfl
      audited := rfl }
  exact ⟨policyDeployment_ownErrors, by decide +kernel, _, _, _, haccepted,
    (update_keeps_valid_iff policyDeployment_ownErrors).mp hmeets _ _ _ haccepted⟩

/-- A patch of one metadata field passes the check next to the stored fields, which it then
replaces: a required one is gone. -/
theorem metadata_patch_loses_required_field :
    policyDeployment.OwnErrors ∧ policyDeployment.valid policyStores policyKey = true ∧
      ¬ policyDeployment.Meets policyStores policyKey
        (.ofList [("metadata", .dict [("authority_rank", .int 70)])]) := by
  refine ⟨policyDeployment_ownErrors, by decide +kernel, fun hmeets => ?_⟩
  have hreturns : ((policyDeployment.update policyKey
      (.ofList [("metadata", .dict [("authority_rank", .int 70)])])).result? policyStores).any
        Option.isSome = true := by
    decide +kernel
  obtain ⟨r, hr, hsome⟩ := (Option.any_eq_true _ _).mp hreturns
  have hvalid := Ensures.of_result? hmeets hr hsome
  exact absurd hvalid (by decide +kernel)


end DomainRag.Documents
