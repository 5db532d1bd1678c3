import Mathlib.Data.List.Chain
import DomainRag.Lib.Except
import DomainRag.Lib.Program
import DomainRag.InputSchema.Editor

/-! # Versions that keep the input types

Every version should have the input types of the one before it. A put is checked against the version
that it reads, and the version that it replaces is the one that its client has named, so the check
counts only when the two are the same.
-/

namespace DomainRag.InputSchema

open InMemoryTenantInputSchemaRepository SchemaEditorService

variable (repr : Value → String)

def Extends (old new : Value) : Prop :=
  ∃ oldNames newNames, collectNames repr old = .ok oldNames ∧ collectNames repr new = .ok newNames ∧
    oldNames ⊆ newNames

/-- The rows are the versions 1, 2, …, only the last one may be active, and none loses an input
type. -/
structure WellVersioned (rows : List TenantInputSchemaRecord) : Prop where
  versions : rows.map (·.schemaVersion) = (List.range rows.length).map fun k : Nat => (k : Int) + 1
  superseded : ∀ row ∈ rows.dropLast, row.status ≠ "active"
  extended : rows.IsChain fun old new => Extends repr old.schemaYaml new.schemaYaml

/-- What holds along a run: the rows of every domain are well versioned in every state, and the
steps of a put that raises write nothing. -/
structure Compatible (ms : List (Move PutCall Nat)) : Prop where
  versioned : ∀ earlier, earlier <+: ms → ∀ domainId,
    WellVersioned repr (((puts repr).run ⟨{}, []⟩ earlier).shared.rows domainId)
  unchanged : ∀ pre i now post e, ms = pre ++ .advance i now :: post →
    ((puts repr).run ⟨{}, []⟩ ms).threads[i]? = some (.ended (.error e)) →
    ((puts repr).run ⟨{}, []⟩ (pre ++ [.advance i now])).shared =
      ((puts repr).run ⟨{}, []⟩ pre).shared

/-- An insert that passes the version check replaces the version that its put has read. -/
def ReplacesRead (p : Pool InMemoryTenantInputSchemaRepository Stage) : Move PutCall Nat → Prop
  | .start _ => True
  | .advance i _ =>
    match p.threads[i]? with
    | some (.inserting call current) =>
      (p.shared.getActive call.domainId).map (·.schemaVersion) = call.baseVersion →
        call.baseVersion = current
    | _ => True

section Rows

variable {repr} {repo : InMemoryTenantInputSchemaRepository} {domainId : String} {now : Nat}
  {init : List TenantInputSchemaRecord} {last row : TenantInputSchemaRecord}

theorem extends_of_removedInputTypes {old new : Value}
    (h : removedInputTypes repr old new = .ok []) : Extends repr old new := by
  obtain ⟨oldNames, hold, h⟩ := Except.bind_eq_ok_iff.mp h
  obtain ⟨newNames, hnew, h⟩ := Except.bind_eq_ok_iff.mp h
  refine ⟨oldNames, newNames, hold, hnew, ?_⟩
  intro name hname
  by_contra hgone
  have hremoved : name ∈ (oldNames.filter (· ∉ newNames)).dedup.insertionSort (· ≤ ·) := by
    rw [List.mem_insertionSort, List.mem_dedup, List.mem_filter]
    exact ⟨hname, decide_eq_true hgone⟩
  rw [Except.ok.inj h] at hremoved
  exact List.not_mem_nil hremoved

/-- The rows of a domain with its active version, which is the last one. -/
structure Maintained (repr : Value → String) (rows : List TenantInputSchemaRecord) : Prop
    extends WellVersioned repr rows where
  current : ∀ row, rows.getLast? = some row → row.status = "active"

theorem Maintained.nil : Maintained repr [] where
  versions := rfl
  superseded := List.forall_mem_nil _
  extended := .nil
  current := nofun

theorem Maintained.getActive_eq (h : Maintained repr (repo.rows domainId)) :
    repo.getActive domainId = (repo.rows domainId).getLast? := by
  rw [getActive]
  obtain hnil | ⟨init, last, hrows⟩ := List.eq_nil_or_concat' (repo.rows domainId)
  · rw [hnil]
    rfl
  · have hactive : last.status = "active" := h.current last (by rw [hrows, List.getLast?_concat])
    rw [hrows, List.reverse_concat, List.getLast?_concat, List.find?_cons_of_pos]
    exact decide_eq_true hactive

theorem version_last (h : WellVersioned repr (init ++ [last])) :
    last.schemaVersion = (init.length : Int) + 1 := by
  have hversions := h.versions
  rw [List.map_append, List.length_append, List.length_singleton, List.range_succ, List.map_append]
    at hversions
  obtain ⟨-, hlast⟩ := List.append_inj' hversions rfl
  exact List.singleton_inj.mp hlast

/-- The next version follows the last one, which is no longer active. -/
theorem Maintained.next {last' : TenantInputSchemaRecord}
    (h : Maintained repr (init ++ [last])) (hversion : last'.schemaVersion = last.schemaVersion)
    (hyaml : last'.schemaYaml = last.schemaYaml) (hdeprecated : last'.status ≠ "active")
    (hnext : row.schemaVersion = last.schemaVersion + 1) (hactive : row.status = "active")
    (hextends : Extends repr last.schemaYaml row.schemaYaml) :
    Maintained repr (init ++ [last'] ++ [row]) where
  versions := by
    have hlast := version_last h.toWellVersioned
    have hversions := h.versions
    simp only [List.map_append, List.map_cons, List.map_nil, List.length_append, List.length_cons,
      List.length_nil, Nat.zero_add] at hversions ⊢
    rw [hversion, hversions, hnext, hlast, List.range_succ (n := init.length + 1), List.map_append]
    rfl
  superseded := by
    intro r hr
    rw [List.dropLast_concat] at hr
    obtain hr | hr := List.mem_append.mp hr
    · exact h.superseded r (by rwa [List.dropLast_concat])
    · rwa [List.mem_singleton.mp hr]
  extended := by
    have hchain := h.extended
    rw [List.isChain_append] at hchain
    obtain ⟨hinit, -, hlink⟩ := hchain
    rw [List.append_assoc, List.isChain_append]
    refine ⟨hinit, List.isChain_pair.mpr (hyaml ▸ hextends), ?_⟩
    intro old hold new hnew
    cases Option.some.inj hnew
    rw [hyaml]
    exact hlink old hold last rfl
  current := by
    intro r hr
    rw [List.getLast?_concat] at hr
    rwa [← Option.some.inj hr]

theorem Maintained.first (hversion : row.schemaVersion = 1) (hactive : row.status = "active") :
    Maintained repr [row] where
  versions := by
    rw [List.map_singleton, hversion]
    rfl
  superseded := List.forall_mem_nil _
  extended := .singleton row
  current := by
    rintro _ ⟨⟩
    exact hactive

theorem rows_set (rows : List TenantInputSchemaRecord) (n : Nat) (domainId' : String) :
    (InMemoryTenantInputSchemaRepository.mk (repo.records.set domainId rows) n).rows domainId' =
      if domainId' = domainId then rows else repo.rows domainId' := by
  rw [InMemoryTenantInputSchemaRepository.rows, Dict.get?_set]
  split <;> rfl

/-- Two rows with the same version are the same row. -/
theorem WellVersioned.eq_of_version {rows : List TenantInputSchemaRecord}
    (h : WellVersioned repr rows) {row row' : TenantInputSchemaRecord} (hrow : row ∈ rows)
    (hrow' : row' ∈ rows) (heq : row.schemaVersion = row'.schemaVersion) : row = row' := by
  have hnodup : (rows.map (·.schemaVersion)).Nodup := by
    rw [h.versions]
    refine List.nodup_range.map ?_
    intro k k' hk
    have hcast : (k : Int) + 1 = k' + 1 := hk
    omega
  exact List.inj_on_of_nodup_map hnodup hrow hrow' heq

theorem mem_deprecateFirst (now : Nat) {rows : List TenantInputSchemaRecord} (hrow : row ∈ rows) :
    ∃ row' ∈ deprecateFirst now rows,
      row'.schemaVersion = row.schemaVersion ∧ row'.schemaYaml = row.schemaYaml := by
  induction rows with
  | nil => cases hrow
  | cons first rows ih =>
    rw [deprecateFirst]
    split
    · obtain rfl | hrow := List.mem_cons.mp hrow
      · exact ⟨_, List.mem_cons_self, rfl, rfl⟩
      · exact ⟨row, List.mem_cons_of_mem _ hrow, rfl, rfl⟩
    · obtain rfl | hrow := List.mem_cons.mp hrow
      · exact ⟨row, List.mem_cons_self, rfl, rfl⟩
      · obtain ⟨row', hrow', hsame⟩ := ih hrow
        exact ⟨row', List.mem_cons_of_mem _ hrow', hsame⟩

end Rows

section Inserts

variable {repr} {repo : InMemoryTenantInputSchemaRepository} {domainId : String} {now : Nat}
  {base : Option Int} {schemaYaml uiSchemaYaml : Value}

theorem insertNewActive_cases (repo : InMemoryTenantInputSchemaRepository) (domainId : String)
    (now : Nat) (base : Option Int) (schemaYaml uiSchemaYaml : Value) :
    (∃ e, repo.insertNewActive domainId now base schemaYaml uiSchemaYaml = (repo, .error e)) ∨
      (repo.getActive domainId).map (·.schemaVersion) = base ∧
        ∃ record, record = repo.newRecord domainId now base schemaYaml uiSchemaYaml ∧
          repo.insertNewActive domainId now base schemaYaml uiSchemaYaml =
            (⟨repo.records.set domainId
                ((deprecateFirst now (repo.rows domainId).reverse).reverse ++ [record]),
              repo.idCounter + 1⟩, .ok record) := by
  rw [insertNewActive]
  split
  · rename_i hbase
    refine .inr ⟨hbase, _, rfl, ?_⟩
    rw [← hbase]
  · exact .inl ⟨_, rfl⟩

/-- The rows stay where they are, apart from their status. -/
theorem mem_rows_insertNewActive {row : TenantInputSchemaRecord} {domainId' : String}
    (hrow : row ∈ repo.rows domainId') :
    ∃ row' ∈ (repo.insertNewActive domainId now base schemaYaml uiSchemaYaml).1.rows domainId',
      row'.schemaVersion = row.schemaVersion ∧ row'.schemaYaml = row.schemaYaml := by
  obtain ⟨e, hinsert⟩ | ⟨-, record, -, hinsert⟩ :=
    insertNewActive_cases repo domainId now base schemaYaml uiSchemaYaml
  · rw [hinsert]
    exact ⟨row, hrow, rfl, rfl⟩
  · rw [hinsert, rows_set]
    split
    · rename_i hdomain
      rw [hdomain, ← List.mem_reverse] at hrow
      obtain ⟨row', hrow', hsame⟩ := mem_deprecateFirst now hrow
      exact ⟨row', List.mem_append_left _ (List.mem_reverse.mpr hrow'), hsame⟩
    · exact ⟨row, hrow, rfl, rfl⟩

/-- An insert keeps the rows when its schema has the input types of the version that it
replaces. -/
theorem Maintained.insertNewActive (h : ∀ d, Maintained repr (repo.rows d))
    (hstored : schemaYaml.orElse (.dict []) = schemaYaml)
    (hextends : (repo.getActive domainId).map (·.schemaVersion) = base →
      ∀ row, repo.getActive domainId = some row → Extends repr row.schemaYaml schemaYaml)
    (domainId' : String) :
    Maintained repr
      ((repo.insertNewActive domainId now base schemaYaml uiSchemaYaml).1.rows domainId') := by
  obtain ⟨e, hinsert⟩ | ⟨hbase, record, hrecord, hinsert⟩ :=
    insertNewActive_cases repo domainId now base schemaYaml uiSchemaYaml
  · rw [hinsert]
    exact h domainId'
  · rw [hinsert, rows_set]
    split
    · have hactive := (h domainId).getActive_eq
      obtain hnil | ⟨init, last, hrows⟩ := List.eq_nil_or_concat' (repo.rows domainId)
      · rw [hnil] at hactive ⊢
        rw [hactive] at hbase
        refine Maintained.first ?_ (hrecord ▸ rfl)
        rw [hrecord, ← hbase]
        rfl
      · have hmaintained := h domainId
        rw [hrows] at hactive hmaintained ⊢
        rw [List.getLast?_concat] at hactive
        have hlast : last.status = "active" := hmaintained.current last List.getLast?_concat
        rw [List.reverse_concat, deprecateFirst, if_pos hlast, List.reverse_cons, List.reverse_reverse]
        refine hmaintained.next rfl rfl (show "deprecated" ≠ "active" by decide) ?_ (hrecord ▸ rfl) ?_
        · rw [hrecord, ← hbase, hactive]
          rfl
        · rw [hrecord]
          change Extends repr last.schemaYaml (schemaYaml.orElse (.dict []))
          rw [hstored]
          exact hextends hbase last hactive
    · exact h domainId'

end Inserts

section Runs

variable {repr}

/-- A put that is about to insert was checked against the version that it has read. -/
def Checked (repr : Value → String) (repo : InMemoryTenantInputSchemaRepository) : Stage → Prop
  | .inserting call current => validateStructure call.schemaYaml = [] ∧
      ∀ version, current = some version → ∃ row ∈ repo.rows call.domainId,
        row.schemaVersion = version ∧ Extends repr row.schemaYaml call.schemaYaml
  | _ => True

theorem orElse_of_validated {yaml : Value} (h : validateStructure yaml = []) :
    yaml.orElse (.dict []) = yaml := by
  cases yaml with
  | dict kvs => cases kvs <;> rfl
  | null | bool _ | int _ | float _ | str _ | list _ => cases h

theorem mem_rows_of_getActive {repo : InMemoryTenantInputSchemaRepository} {domainId : String}
    {row : TenantInputSchemaRecord} (h : repo.getActive domainId = some row) :
    row ∈ repo.rows domainId :=
  List.mem_reverse.mp (List.mem_of_find?_eq_some h)

theorem checked_read (repo : InMemoryTenantInputSchemaRepository) (call : PutCall) :
    Checked repr repo (read repr repo call) := by
  rw [SchemaEditorService.read]
  split
  · rename_i hvalid
    cases hactive : repo.getActive call.domainId with
    | none => exact ⟨hvalid, nofun⟩
    | some row =>
      rw [check]
      split
      · trivial
      · rename_i hremoved
        refine ⟨hvalid, ?_⟩
        rintro _ ⟨⟩
        exact ⟨row, mem_rows_of_getActive hactive, rfl, extends_of_removedInputTypes hremoved⟩
      · trivial
  · trivial

theorem Checked.of_rows {repo repo' : InMemoryTenantInputSchemaRepository} {l : Stage}
    (h : Checked repr repo l)
    (hrows : ∀ d, ∀ row ∈ repo.rows d, ∃ row' ∈ repo'.rows d,
      row'.schemaVersion = row.schemaVersion ∧ row'.schemaYaml = row.schemaYaml) :
    Checked repr repo' l := by
  cases l with
  | reading call => trivial
  | ended result => trivial
  | inserting call current =>
    refine ⟨h.1, ?_⟩
    intro version hversion
    obtain ⟨row, hrow, hsame, hextends⟩ := h.2 version hversion
    obtain ⟨row', hrow', hversion', hyaml⟩ := hrows call.domainId row hrow
    exact ⟨row', hrow', hversion'.trans hsame, hyaml ▸ hextends⟩

theorem mem_rows_step {repo : InMemoryTenantInputSchemaRepository} {l : Stage} (now : Nat)
    (d : String) (row : TenantInputSchemaRecord) (hrow : row ∈ repo.rows d) :
    ∃ row' ∈ (SchemaEditorService.step repr now repo l).1.rows d,
      row'.schemaVersion = row.schemaVersion ∧ row'.schemaYaml = row.schemaYaml := by
  cases l with
  | reading call => exact ⟨row, hrow, rfl, rfl⟩
  | ended result => exact ⟨row, hrow, rfl, rfl⟩
  | inserting call current => exact mem_rows_insertNewActive hrow

/-- The version that an insert replaces has no input type that the new schema lacks. -/
theorem extends_of_replacesRead {repo : InMemoryTenantInputSchemaRepository} {call : PutCall}
    {current : Option Int} (hrows : ∀ d, Maintained repr (repo.rows d))
    (hchecked : Checked repr repo (.inserting call current))
    (hread : (repo.getActive call.domainId).map (·.schemaVersion) = call.baseVersion →
      call.baseVersion = current)
    (hbase : (repo.getActive call.domainId).map (·.schemaVersion) = call.baseVersion)
    (row : TenantInputSchemaRecord) (hactive : repo.getActive call.domainId = some row) :
    Extends repr row.schemaYaml call.schemaYaml := by
  have hcurrent : current = some row.schemaVersion := by
    rw [← hread hbase, ← hbase, hactive]
    rfl
  obtain ⟨row', hrow', hversion, hextends⟩ := hchecked.2 _ hcurrent
  have hsame : row' = row := (hrows call.domainId).toWellVersioned.eq_of_version hrow'
    (mem_rows_of_getActive hactive) hversion
  exact hsame ▸ hextends

def Sound (repr : Value → String) (p : Pool InMemoryTenantInputSchemaRepository Stage) : Prop :=
  (∀ d, Maintained repr (p.shared.rows d)) ∧ p.Asserts (Checked repr)

theorem Sound.move {p : Pool InMemoryTenantInputSchemaRepository Stage} {m : Move PutCall Nat}
    (h : Sound repr p) (hm : ReplacesRead p m) :
    Sound repr ((puts repr).move p m) := by
  obtain ⟨hrows, hchecked⟩ := h
  constructor
  · refine Threads.shared_move (P := fun repo : InMemoryTenantInputSchemaRepository =>
      ∀ d, Maintained repr (repo.rows d)) hrows ?_
    rintro i now l rfl hl
    cases l with
    | reading call => exact hrows
    | ended result => exact hrows
    | inserting call current =>
      have hown : Checked repr p.shared (.inserting call current) :=
        hchecked _ (List.mem_of_getElem? hl)
      simp only [ReplacesRead, hl] at hm
      exact Maintained.insertNewActive hrows (orElse_of_validated hown.1)
        (extends_of_replacesRead hrows hown hm)
  · refine hchecked.move ?_ ?_ ?_
    · exact fun _ _ => trivial
    · intro i now l _ _ _
      cases l with
      | reading call => exact checked_read p.shared call
      | ended result => trivial
      | inserting call current => trivial
    · intro i now l _ _ _ l' _ hother
      exact hother.of_rows (mem_rows_step now)

/-- Only an insert that returns its row writes, and it is the last step of its put. -/
theorem shared_step_of_raised {p : Pool InMemoryTenantInputSchemaRepository Stage} {i now : Nat}
    {e : PutError} (post : List (Move PutCall Nat))
    (h : ((puts repr).run ((puts repr).move p (.advance i now)) post).threads[i]? =
      some (.ended (.error e))) :
    ((puts repr).move p (.advance i now)).shared = p.shared := by
  refine Threads.shared_move (P := fun repo => repo = p.shared) rfl ?_
  rintro _ _ l ⟨⟩ hl
  cases l with
  | reading call => rfl
  | ended result => rfl
  | inserting call current =>
    obtain ⟨e', hinsert⟩ | ⟨-, record, -, hinsert⟩ := insertNewActive_cases p.shared call.domainId now
      call.baseVersion call.schemaYaml call.uiSchemaYaml
    · change (p.shared.insertNewActive _ _ _ _ _).1 = p.shared
      rw [hinsert]
    · have hended : ((puts repr).move p (.advance i now)).threads[i]? =
          some (.ended (.ok ⟨record, current⟩)) := by
        rw [Threads.getElem?_move_advance now hl]
        change some (Stage.ended (Except.map _ (p.shared.insertNewActive _ _ _ _ _).2)) = _
        rw [hinsert]
        rfl
      rw [Threads.getElem?_run_of_fixed post (fun _ _ => rfl) hended] at h
      cases h

/-- In every run in which each insert replaces the version that its put has read, the rows are
well versioned, and a put that raises writes nothing. -/
theorem compatible_of_replacesRead (repr : Value → String) (ms : List (Move PutCall Nat))
    (h : Along (puts repr).move ReplacesRead ms ⟨{}, []⟩) : Compatible repr ms where
  versioned := by
    rintro earlier ⟨post, rfl⟩ domainId
    have hsound : Sound repr ((puts repr).run ⟨{}, []⟩ earlier) :=
      h.of_append.final ⟨fun _ => Maintained.nil, nofun⟩ fun m _ p hp hm => hp.move hm
    exact (hsound.1 domainId).toWellVersioned
  unchanged := by
    rintro pre i now post e rfl hraised
    rw [Threads.run_append] at hraised ⊢
    exact shared_step_of_raised post hraised

end Runs

def schemaOf (names : List String) : Value :=
  .dict [("input_types", .list (names.map fun name => .dict [("name", .str name)]))]

def putOf (baseVersion : Option Int) (names : List String) : PutCall where
  domainId := "hr"
  baseVersion := baseVersion
  schemaYaml := schemaOf names
  uiSchemaYaml := .null

theorem puts_in_turn : Compatible (fun _ => "") [.start (putOf none ["faq"]), .advance 0 1,
    .advance 0 2, .start (putOf (some 1) ["faq", "manual"]), .advance 1 3, .advance 1 4] := by
  refine compatible_of_replacesRead _ _ ⟨trivial, trivial, fun _ => rfl, trivial, trivial, ?_, trivial⟩
  exact fun _ => rfl

/-- The second put reads version 1, the third one inserts version 2, and the second one names
version 2. -/
def putPast : List (Move PutCall Nat) :=
  [.start (putOf none ["faq"]), .advance 0 1, .advance 0 2,
    .start (putOf (some 2) ["faq"]), .advance 1 3,
    .start (putOf (some 1) ["faq", "manual"]), .advance 2 4, .advance 2 5, .advance 1 6]

theorem put_drops_input_type : ¬ Compatible (fun _ => "") putPast := by
  intro h
  have hextended := (h.versioned putPast (List.prefix_refl _) "hr").extended
  have hlink : Extends (fun _ => "") (schemaOf ["faq", "manual"]) (schemaOf ["faq"]) :=
    List.isChain_iff_getElem.mp hextended 1 (by decide)
  obtain ⟨oldNames, newNames, hold, hnew, hsubset⟩ := hlink
  cases hold
  cases hnew
  exact absurd hsubset (by decide)

end DomainRag.InputSchema
