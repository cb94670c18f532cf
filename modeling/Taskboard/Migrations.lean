import Taskboard.Store

/-!
# Schema migrations

At its start a binary brings the database up to its own schema: it applies the migrations of its
registry that are not recorded yet, all in one transaction (`migrateRegistry`). With each it
records the oldest schema version whose binaries may still run on the database. A binary that
finds migrations it does not know goes on if they were all recorded as compatible with it, and
refuses to run otherwise.

What the statements do to the schema is left open: an `Engine` says it, for one run of a binary,
and may let any of them fail. Nothing that fails leaves a trace, except that the optimizer runs
after the commit.
-/

namespace Taskboard

variable {registry : MigrationRegistry} {platform : Platform} {σ : Type}

/-- `schemaMigration`. -/
structure SchemaMigration where
  version : Int
  name : String
  sqlite : List String
  postgres : List String
  deriving DecidableEq

/-- `appliedMigration`: a row of `schema_migrations`. -/
structure AppliedMigration where
  version : Int
  name : String
  checksum : String
  compatibleFrom : Int
  deriving DecidableEq

/-- `migrationRegistry`: the migrations of a binary, and the oldest schema version whose binaries
can read its newest schema. -/
structure MigrationRegistry where
  migrations : List SchemaMigration
  compatibleFrom : Int
  deriving DecidableEq

def MigrationRegistry.latest (registry : MigrationRegistry) : Int :=
  registry.migrations.length

/-- The database of a board, as far as migrations see it: its schema, whatever that is, and
`schema_migrations`. -/
structure SchemaDb (σ : Type) where
  schema : σ
  migrations : List AppliedMigration := []

/-- What does not change from one run to the next. -/
structure Platform where
  dialect : Dialect
  sha256 : String → String
  sha256_ne_empty (content : String) : sha256 content ≠ ""

/-- What the database does in one run of a binary. -/
structure Engine (σ : Type) where
  begin : Except String Unit
  hasApplicationSchema : σ → Except String Bool
  adoptLegacySchema : σ → Except String σ
  execute : String → σ → Except String σ
  ensureSQLiteColumn : String → String → String → σ → Except String σ
  validateCurrentSchema : σ → Except String Unit
  insert : AppliedMigration → Except String Unit
  backfill : σ → Except String σ
  validateSchema : σ → Except String Unit
  commit : Except String Unit
  optimize : Except String Unit

section Functions

/-- The entries of a registry from a position on, counted from 1. -/
def validateEntries : Int → List SchemaMigration → Except String Unit
  | _, [] => .ok ()
  | position, migration :: rest =>
      if migration.version ≠ position ∨ trimSpace migration.name = "" ∨ migration.sqlite = [] ∨
          migration.postgres = [] then
        .error s!"invalid schema migration registry entry at position {position}"
      else validateEntries (position + 1) rest

def validateDefinedMigrations (registry : MigrationRegistry) : Except String Unit :=
  if registry.latest = 0 ∨ registry.compatibleFrom < 1 ∨
      registry.latest < registry.compatibleFrom then
    .error (s!"compatible schema version {registry.compatibleFrom} is outside the migration " ++
      s!"registry 1..{registry.latest}")
  else validateEntries 1 registry.migrations

/-- `loadAppliedMigrations`. -/
def SchemaDb.loadAppliedMigrations (db : SchemaDb σ) : List AppliedMigration :=
  sortBy (fun a b => a.version < b.version) db.migrations

/-- The rows of `schema_migrations` from the one on that should have the version `expected`. -/
def validateSequenceFrom (newest supported : Int) : Int → List AppliedMigration → Except String Unit
  | _, [] => .ok ()
  | expected, migration :: rest =>
      if migration.version ≠ expected then
        .error (s!"schema migration history is non-contiguous: expected version {expected}, " ++
          s!"found {migration.version}")
      else if migration.version ≤ supported then
        validateSequenceFrom newest supported (expected + 1) rest
      else if migration.compatibleFrom < 1 ∨ supported < migration.compatibleFrom then
        .error (s!"database schema version {newest} is newer than supported version " ++
          s!"{supported}: migration {migration.version} {migration.name.quote} requires schema " ++
          s!"version {migration.compatibleFrom} or later")
      else validateSequenceFrom newest supported (expected + 1) rest

def validateMigrationSequence (applied : List AppliedMigration) (registry : MigrationRegistry) :
    Except String Unit :=
  validateSequenceFrom (applied.getLast?.elim 0 AppliedMigration.version) registry.latest 1 applied

def statementsFor (migration : SchemaMigration) : Dialect → List String
  | .postgres => migration.postgres
  | .sqlite => migration.sqlite

def Dialect.text : Dialect → String
  | .sqlite => "sqlite"
  | .postgres => "postgres"

/-- `migrationChecksum`. -/
def Platform.checksum (platform : Platform) (migration : SchemaMigration) : String :=
  let statements := "\n-- statement --\n".intercalate (statementsFor migration platform.dialect)
  platform.sha256
    s!"{migration.version}\n{migration.name}\n{platform.dialect.text}\n{statements}"

/-- `isReleasedBaselineChecksum`. -/
def isReleasedBaselineChecksum (record : AppliedMigration) (dialect : Dialect) : Bool :=
  record.version = 1 && record.name = "baseline" &&
    record.checksum = match dialect with
      | .sqlite => "9b02436acc5f77fc8f43d198e93ad0947bb5d8d0bc5c54dd32cb17e307fec79c"
      | .postgres => "8f97b6dc1bcb4e44d22eaec5d4303a971f0212fe47cd69fb19cfd5a0023eda58"

/-- The row that `recordMigration` inserts. -/
def Platform.record (platform : Platform) (registry : MigrationRegistry)
    (migration : SchemaMigration) : AppliedMigration where
  version := migration.version
  name := migration.name
  checksum := platform.checksum migration
  compatibleFrom := min migration.version registry.compatibleFrom

/-- `recordMigration`. -/
def recordMigration (platform : Platform) (engine : Engine σ) (registry : MigrationRegistry)
    (migration : SchemaMigration) (db : SchemaDb σ) : Except String (SchemaDb σ) :=
  let row := platform.record registry migration
  if db.migrations.any fun other => other.version = row.version then
    .error s!"record migration {migration.version} {migration.name}"
  else do
    engine.insert row
    pure { db with migrations := db.migrations ++ [row] }

/-- `executeStatements`. -/
def executeStatements (engine : Engine σ) : List String → σ → Except String σ
  | [], schema => pure schema
  | statement :: rest, schema => do
      let schema ← engine.execute statement schema
      executeStatements engine rest schema

/-- The schema of the first migration: one from before migrations were recorded is adopted. -/
def baselineSchema (platform : Platform) (engine : Engine σ) (migration : SchemaMigration)
    (schema : σ) : Except String σ := do
  let hasSchema ← engine.hasApplicationSchema schema
  if hasSchema then engine.adoptLegacySchema schema
  else executeStatements engine (statementsFor migration platform.dialect) schema

/-- The first migration, on a database that has none recorded. -/
def applyBaseline (platform : Platform) (engine : Engine σ) (registry : MigrationRegistry)
    (db : SchemaDb σ) : Except String (SchemaDb σ) :=
  match db.loadAppliedMigrations, registry.migrations with
  | [], migration :: _ => do
      let schema ← baselineSchema platform engine migration db.schema
      engine.validateCurrentSchema schema
      recordMigration platform engine registry migration { db with schema }
  | _, _ => pure db

/-- The loop over the recorded migrations that the binary knows. -/
def checkApplied (platform : Platform) (engine : Engine σ) :
    List (AppliedMigration × SchemaMigration) → SchemaDb σ → Except String (SchemaDb σ)
  | [], db => pure db
  | (record, migration) :: rest, db => do
      let expected := platform.checksum migration
      if record.checksum = "" ∧ record.version = 1 then
        let schema ← engine.adoptLegacySchema db.schema
        engine.validateCurrentSchema schema
        let migrations := db.migrations.map fun row =>
          if row.version = migration.version ∧ row.checksum = "" then
            { row with name := migration.name, checksum := expected }
          else row
        checkApplied platform engine rest { schema, migrations }
      else if record.name ≠ migration.name ∨
          (record.checksum ≠ expected ∧ !isReleasedBaselineChecksum record platform.dialect) then
        .error (s!"schema migration {record.version} metadata does not match the immutable " ++
          s!"{migration.name.quote} migration")
      else checkApplied platform engine rest db

/-- Migration 16 finds its column already there in some SQLite databases. -/
def ensureColumn (platform : Platform) (engine : Engine σ) (migration : SchemaMigration)
    (schema : σ) : Except String σ :=
  if migration.version = 16 ∧ platform.dialect = .sqlite then
    engine.ensureSQLiteColumn "tasks" "last_edited_by" "TEXT NOT NULL DEFAULT ''" schema
  else pure schema

/-- The loop over the migrations that are not recorded. -/
def applyPending (platform : Platform) (engine : Engine σ) (registry : MigrationRegistry) :
    List SchemaMigration → SchemaDb σ → Except String (SchemaDb σ)
  | [], db => pure db
  | migration :: rest, db => do
      let schema ← ensureColumn platform engine migration db.schema
      let schema ← executeStatements engine (statementsFor migration platform.dialect) schema
      let db ← recordMigration platform engine registry migration { db with schema }
      applyPending platform engine registry rest db

/-- The transaction of `migrateRegistry`. -/
def migrateTx (platform : Platform) (engine : Engine σ) (registry : MigrationRegistry)
    (db : SchemaDb σ) : Except String (SchemaDb σ) := do
  validateDefinedMigrations registry
  engine.begin
  validateMigrationSequence db.loadAppliedMigrations registry
  let db ← applyBaseline platform engine registry db
  let applied := db.loadAppliedMigrations
  let db ← checkApplied platform engine (applied.zip registry.migrations) db
  let db ← applyPending platform engine registry (registry.migrations.drop applied.length) db
  let schema ← engine.backfill db.schema
  engine.validateSchema schema
  engine.commit
  pure { db with schema }

/-- `migrateRegistry`: its answer, and the database after it. -/
def migrateRegistry (platform : Platform) (engine : Engine σ) (registry : MigrationRegistry)
    (db : SchemaDb σ) : Except String Unit × SchemaDb σ :=
  match migrateTx platform engine registry db with
  | .error e => (.error e, db)
  | .ok db => (if platform.dialect = .sqlite then engine.optimize else .ok (), db)

end Functions

/-- The row at position `i` of `schema_migrations` has the version `i + 1`. -/
def Sequential (rows : List AppliedMigration) : Prop :=
  ∀ (i : Nat) row, rows[i]? = some row → row.version = i + 1

/-- What holds of `schema_migrations` in a database that started without it. -/
structure Recorded (rows : List AppliedMigration) : Prop where
  sequential : Sequential rows
  sealed : ∀ row ∈ rows, row.checksum ≠ ""

section Validation

variable {rows : List AppliedMigration}

theorem validateEntries_ok {position : Int} {migrations : List SchemaMigration}
    (h : validateEntries position migrations = .ok ()) (i : Nat) (migration : SchemaMigration)
    (hi : migrations[i]? = some migration) : migration.version = position + i := by
  induction migrations generalizing position i with
  | nil => cases hi
  | cons first rest ih =>
      unfold validateEntries at h
      split at h
      · cases h
      · rename_i hvalid
        cases i with
        | zero =>
            cases hi
            by_contra hne
            exact hvalid (Or.inl fun hversion => hne (by omega))
        | succ i =>
            have hnext := ih h i hi
            omega

theorem validateDefinedMigrations_ok (h : validateDefinedMigrations registry = .ok ()):
    registry.migrations ≠ [] ∧ 1 ≤ registry.compatibleFrom ∧
      ∀ (i : Nat) migration, registry.migrations[i]? = some migration →
        migration.version = i + 1 := by
  unfold validateDefinedMigrations at h
  split at h
  · cases h
  · rename_i hrange
    simp only [not_or] at hrange
    refine ⟨?_, by omega, ?_⟩
    · intro hnil
      exact hrange.1 (by simp [MigrationRegistry.latest, hnil])
    · intro i migration hi
      have hversion := validateEntries_ok h i migration hi
      omega

/-- **What the check accepts**: rows in sequence, of which those beyond the supported version are
compatible with it. -/
theorem validateSequenceFrom_ok_iff {newest supported expected : Int}
    :
    validateSequenceFrom newest supported expected rows = .ok () ↔
      (∀ (i : Nat) row, rows[i]? = some row → row.version = expected + i) ∧
        ∀ row ∈ rows, supported < row.version →
          1 ≤ row.compatibleFrom ∧ row.compatibleFrom ≤ supported := by
  induction rows generalizing expected with
  | nil => simp [validateSequenceFrom]
  | cons first rest ih =>
      have hpositions : (∀ (i : Nat) row, (first :: rest)[i]? = some row →
          row.version = expected + i) ↔ first.version = expected ∧
            ∀ (i : Nat) row, rest[i]? = some row → row.version = expected + 1 + i := by
        constructor
        · intro h
          refine ⟨by simpa using h 0 first rfl, fun i row hi => ?_⟩
          have hnext := h (i + 1) row hi
          omega
        · rintro ⟨hfirst, hrest⟩ i row hi
          cases i with
          | zero =>
              cases hi
              omega
          | succ i =>
              have hnext := hrest i row hi
              omega
      unfold validateSequenceFrom
      rw [hpositions, List.forall_mem_cons]
      by_cases hversion : first.version = expected
      · rw [if_neg (not_not.mpr hversion)]
        by_cases hknown : first.version ≤ supported
        · rw [if_pos hknown, ih]
          have hskip : supported < first.version →
              1 ≤ first.compatibleFrom ∧ first.compatibleFrom ≤ supported := by omega
          exact and_congr (and_iff_right hversion).symm (and_iff_right hskip).symm
        · rw [if_neg hknown]
          by_cases hcompatible : first.compatibleFrom < 1 ∨ supported < first.compatibleFrom
          · rw [if_pos hcompatible]
            refine iff_of_false (fun h => nomatch h) ?_
            rintro ⟨-, hfirst, -⟩
            have := hfirst (by omega)
            omega
          · rw [if_neg hcompatible, ih]
            have hfirst : supported < first.version →
                1 ≤ first.compatibleFrom ∧ first.compatibleFrom ≤ supported := by omega
            exact and_congr (and_iff_right hversion).symm (and_iff_right hfirst).symm
      · rw [if_pos hversion]
        exact iff_of_false (fun h => nomatch h) fun h => hversion h.1.1

theorem Sequential.validate_iff (h : Sequential rows)
    (registry : MigrationRegistry) :
    validateMigrationSequence rows registry = .ok () ↔
      ∀ row ∈ rows, registry.latest < row.version →
        1 ≤ row.compatibleFrom ∧ row.compatibleFrom ≤ registry.latest := by
  unfold validateMigrationSequence
  rw [validateSequenceFrom_ok_iff]
  refine and_iff_right ?_
  intro i row hi
  have hversion := h i row hi
  omega

theorem Sequential.pairwise (h : Sequential rows) :
    rows.Pairwise fun a b => a.version < b.version := by
  rw [List.pairwise_iff_getElem]
  intro i j hi hj hij
  have hversion := h i _ (List.getElem?_eq_getElem hi)
  have hversion' := h j _ (List.getElem?_eq_getElem hj)
  omega

/-- Rows in sequence are loaded as they stand. -/
theorem Sequential.load {db : SchemaDb σ} (h : Sequential db.migrations) :
    db.loadAppliedMigrations = db.migrations := by
  unfold SchemaDb.loadAppliedMigrations sortBy
  apply List.Pairwise.insertionSort_eq
  refine h.pairwise.imp fun hlt => ?_
  simp only [decide_eq_false_iff_not]
  omega

end Validation

section Transaction

variable {engine : Engine σ} {db db' : SchemaDb σ}

theorem recordMigration_ok {migration : SchemaMigration}
    (h : recordMigration platform engine registry migration db = .ok db') :
    db' = { db with migrations := db.migrations ++ [platform.record registry migration] } := by
  unfold recordMigration at h
  dsimp only at h
  split at h
  · cases h
  · obtain ⟨_, -, h⟩ := Except.bind_ok_iff.mp h
    cases h
    rfl

/-- What the loop over the pending migrations records. -/
theorem applyPending_ok {pending : List SchemaMigration}
    (h : applyPending platform engine registry pending db = .ok db') :
    db'.migrations = db.migrations ++ pending.map (platform.record registry) ∧
      (pending = [] → db' = db) := by
  induction pending generalizing db with
  | nil =>
      cases h
      simp
  | cons migration rest ih =>
      unfold applyPending at h
      obtain ⟨_, -, h⟩ := Except.bind_ok_iff.mp h
      obtain ⟨_, -, h⟩ := Except.bind_ok_iff.mp h
      obtain ⟨_, hrecord, h⟩ := Except.bind_ok_iff.mp h
      obtain rfl := recordMigration_ok hrecord
      have hrest := (ih h).1
      exact ⟨by simpa using hrest, fun hnil => nomatch hnil⟩

/-- The first migration is recorded where there is none. -/
theorem applyBaseline_ok (hrows : Sequential db.migrations) (hregistry : registry.migrations ≠ [])
    (h : applyBaseline platform engine registry db = .ok db') :
    (db.migrations ≠ [] ∧ db' = db) ∨ ∃ migration rest, db.migrations = [] ∧
      registry.migrations = migration :: rest ∧
      db'.migrations = [platform.record registry migration] := by
  unfold applyBaseline at h
  rw [hrows.load] at h
  split at h
  · rename_i migration rest hnone hfirst
    obtain ⟨_, -, h⟩ := Except.bind_ok_iff.mp h
    obtain ⟨_, -, h⟩ := Except.bind_ok_iff.mp h
    refine Or.inr ⟨migration, rest, hnone, hfirst, ?_⟩
    rw [recordMigration_ok h, hnone]
    rfl
  · rename_i hother
    cases h
    refine Or.inl ⟨fun hnone => ?_, rfl⟩
    obtain ⟨migration, rest, hfirst⟩ := List.exists_cons_of_ne_nil hregistry
    exact hother migration rest hnone hfirst

/-- Checking sealed rows changes nothing. -/
theorem checkApplied_ok {known : List (AppliedMigration × SchemaMigration)}
    (hsealed : ∀ pair ∈ known, pair.1.checksum ≠ "")
    (h : checkApplied platform engine known db = .ok db') : db' = db := by
  induction known with
  | nil =>
      cases h
      rfl
  | cons pair rest ih =>
      obtain ⟨record, migration⟩ := pair
      obtain ⟨hrecord, hrest⟩ := List.forall_mem_cons.mp hsealed
      unfold checkApplied at h
      rw [if_neg fun hlegacy => hrecord hlegacy.1] at h
      split at h
      · cases h
      · exact ih hrest h

theorem Platform.record_sealed (platform : Platform) (registry : MigrationRegistry)
    (migration : SchemaMigration) : (platform.record registry migration).checksum ≠ "" :=
  platform.sha256_ne_empty _

/-- The rows that a binary with these migrations adds to `schema_migrations`. -/
def Platform.pending (platform : Platform) (registry : MigrationRegistry)
    (rows : List AppliedMigration) : List AppliedMigration :=
  (registry.migrations.drop rows.length).map (platform.record registry)

/-- Rows in sequence go on in sequence. -/
theorem Recorded.pending {rows : List AppliedMigration} (h : Recorded rows)
    (hregistry : validateDefinedMigrations registry = .ok ()) :
    Recorded (rows ++ platform.pending registry rows) := by
  obtain ⟨-, -, hversions⟩ := validateDefinedMigrations_ok hregistry
  constructor
  · intro i row hi
    by_cases hold : i < rows.length
    · rw [List.getElem?_append_left hold] at hi
      exact h.sequential i row hi
    · rw [List.getElem?_append_right (Nat.not_lt.mp hold), Platform.pending, List.getElem?_map,
        List.getElem?_drop, Option.map_eq_some_iff] at hi
      obtain ⟨migration, hmigration, rfl⟩ := hi
      have hversion := hversions _ migration hmigration
      have hrecord : (platform.record registry migration).version = migration.version := rfl
      omega
  · intro row hrow
    rcases List.mem_append.mp hrow with hold | hnew
    · exact h.sealed row hold
    · obtain ⟨migration, -, rfl⟩ := List.mem_map.mp hnew
      exact platform.record_sealed registry migration

/-- **What a committed migration does**: the registry and the recorded rows pass their checks, the
rows that are missing are added, and where none is missing, nothing is done but the backfill. -/
theorem migrateTx_ok (hrows : Recorded db.migrations)
    (h : migrateTx platform engine registry db = .ok db') :
    validateDefinedMigrations registry = .ok () ∧
      validateMigrationSequence db.migrations registry = .ok () ∧
      db'.migrations = db.migrations ++ platform.pending registry db.migrations ∧
      (registry.migrations.length ≤ db.migrations.length →
        engine.backfill db.schema = .ok db'.schema) := by
  obtain ⟨_, hregistry, h⟩ := Except.bind_ok_iff.mp h
  obtain ⟨_, -, h⟩ := Except.bind_ok_iff.mp h
  obtain ⟨_, hsequence, h⟩ := Except.bind_ok_iff.mp h
  obtain ⟨based, hbased, h⟩ := Except.bind_ok_iff.mp h
  obtain ⟨checked, hchecked, h⟩ := Except.bind_ok_iff.mp h
  obtain ⟨applied, happlied, h⟩ := Except.bind_ok_iff.mp h
  obtain ⟨schema, hbackfill, h⟩ := Except.bind_ok_iff.mp h
  obtain ⟨_, -, h⟩ := Except.bind_ok_iff.mp h
  obtain ⟨_, -, h⟩ := Except.bind_ok_iff.mp h
  cases h
  rw [hrows.sequential.load] at hsequence
  refine ⟨hregistry, hsequence, ?_⟩
  have hbasedRows : Recorded based.migrations ∧
      based.migrations ++ platform.pending registry based.migrations =
        db.migrations ++ platform.pending registry db.migrations ∧
      (registry.migrations.length ≤ db.migrations.length → based = db) := by
    rcases applyBaseline_ok hrows.sequential (validateDefinedMigrations_ok hregistry).1 hbased with
      ⟨-, rfl⟩ | ⟨migration, rest, hnone, hfirst, hfirstRow⟩
    · exact ⟨hrows, rfl, fun _ => rfl⟩
    · rw [hfirstRow, hnone, Platform.pending, Platform.pending, hfirst]
      refine ⟨⟨?_, ?_⟩, rfl, fun hnever => absurd hnever (by simp)⟩
      · intro i row hi
        have hversion := (validateDefinedMigrations_ok hregistry).2.2 0 migration (by simp [hfirst])
        cases i with
        | zero =>
            cases hi
            exact hversion
        | succ i => cases hi
      · intro row hrow
        rw [List.mem_singleton.mp hrow]
        exact platform.record_sealed registry migration
  obtain ⟨hrecorded, hsame, hskip⟩ := hbasedRows
  have hsealed : ∀ pair ∈ based.loadAppliedMigrations.zip registry.migrations,
      pair.1.checksum ≠ "" := by
    intro pair hpair
    rw [hrecorded.sequential.load] at hpair
    exact hrecorded.sealed _ (List.of_mem_zip hpair).1
  obtain rfl := checkApplied_ok hsealed hchecked
  rw [hrecorded.sequential.load] at happlied
  obtain ⟨hadded, hnothing⟩ := applyPending_ok happlied
  refine ⟨hadded.trans hsame, fun hahead => ?_⟩
  obtain rfl := hskip hahead
  rw [hnothing (List.drop_eq_nil_of_le hahead)] at hbackfill
  exact hbackfill

end Transaction

/-- Releases, the oldest first: each has the migrations of those before it and maybe more, and
none is compatible with older binaries than those before it. -/
structure ReleaseChain where
  releases : List MigrationRegistry
  ordered : releases.Pairwise fun older newer =>
    older.migrations <+: newer.migrations ∧ older.compatibleFrom ≤ newer.compatibleFrom
  valid : ∀ registry ∈ releases, validateDefinedMigrations registry = .ok ()

/-- One start of a binary of the chain. -/
structure MigrationRun (chain : ReleaseChain) (σ : Type) where
  registry : MigrationRegistry
  released : registry ∈ chain.releases
  engine : Engine σ

/-- The database after some starts. -/
def migrated {σ : Type} {chain : ReleaseChain} (platform : Platform) (start : SchemaDb σ)
    (history : List (MigrationRun chain σ)) : SchemaDb σ :=
  history.foldl (fun db run => (migrateRegistry platform run.engine run.registry db).2) start

/-- The release that recorded a migration: the row was not there before one of its starts, and
was there after it. -/
def AppliedBy {σ : Type} {chain : ReleaseChain} (platform : Platform) (start : SchemaDb σ)
    (history : List (MigrationRun chain σ)) (row : AppliedMigration)
    (registry : MigrationRegistry) : Prop :=
  ∃ before run after, history = before ++ run :: after ∧ run.registry = registry ∧
    row ∉ (migrated platform start before).migrations ∧
    row ∈ (migrated platform start (before ++ [run])).migrations

section Histories

variable {chain : ReleaseChain} {schema : σ} {history : List (MigrationRun chain σ)}
  {row : AppliedMigration}

theorem migrated_concat (start : SchemaDb σ) (history : List (MigrationRun chain σ))
    (run : MigrationRun chain σ) :
    migrated platform start (history ++ [run]) =
      (migrateRegistry platform run.engine run.registry (migrated platform start history)).2 := by
  simp [migrated]

/-- **One start** leaves the database as it is, or adds the missing rows. -/
theorem migrateRegistry_cases {db : SchemaDb σ} (hrows : Recorded db.migrations)
    (engine : Engine σ) (registry : MigrationRegistry) :
    (migrateRegistry platform engine registry db).2 = db ∨
      (migrateRegistry platform engine registry db).2.migrations =
          db.migrations ++ platform.pending registry db.migrations ∧
        validateDefinedMigrations registry = .ok () ∧
        (registry.migrations.length ≤ db.migrations.length →
          engine.backfill db.schema =
            .ok (migrateRegistry platform engine registry db).2.schema) := by
  unfold migrateRegistry
  cases htx : migrateTx platform engine registry db with
  | error e => exact Or.inl rfl
  | ok db' =>
      obtain ⟨hregistry, -, hadded, hbackfill⟩ := migrateTx_ok hrows htx
      exact Or.inr ⟨hadded, hregistry, hbackfill⟩

/-- **Whatever binaries are started**, the rows stay in sequence. -/
theorem recorded_migrated (history : List (MigrationRun chain σ)) :
    Recorded (migrated platform { schema } history).migrations := by
  induction history using List.reverseRecOn with
  | nil => exact ⟨fun _ _ hi => (nomatch hi), fun _ hrow => (nomatch hrow)⟩
  | append_singleton history run ih =>
      rw [migrated_concat]
      rcases migrateRegistry_cases ih run.engine run.registry with hsame | ⟨hadded, hregistry, -⟩
      · rw [hsame]
        exact ih
      · rw [hadded]
        exact ih.pending hregistry

/-- The release that recorded a row is in the row. -/
theorem AppliedBy.compatibleFrom (h : AppliedBy platform { schema } history row registry) :
    row.compatibleFrom = min row.version registry.compatibleFrom ∧
      1 ≤ registry.compatibleFrom := by
  obtain ⟨before, run, after, -, rfl, hbefore, hafter⟩ := h
  rw [migrated_concat] at hafter
  rcases migrateRegistry_cases (recorded_migrated before) run.engine run.registry with
    hsame | ⟨hadded, hregistry, -⟩
  · rw [hsame] at hafter
    exact absurd hafter hbefore
  · rw [hadded] at hafter
    obtain ⟨migration, -, rfl⟩ := List.mem_map.mp
      ((List.mem_append.mp hafter).resolve_left hbefore)
    exact ⟨rfl, (validateDefinedMigrations_ok hregistry).2.1⟩

/-- Every row was recorded by a release. -/
theorem exists_appliedBy (history : List (MigrationRun chain σ))
    (hrow : row ∈ (migrated platform { schema } history).migrations) :
    ∃ registry, AppliedBy platform { schema } history row registry := by
  induction history using List.reverseRecOn with
  | nil => cases hrow
  | append_singleton history run ih =>
      by_cases hold : row ∈ (migrated platform { schema } history).migrations
      · obtain ⟨registry, before, earlier, after, rfl, hrun⟩ := ih hold
        exact ⟨registry, before, earlier, after ++ [run], by simp, hrun⟩
      · exact ⟨run.registry, history, run, [], rfl, rfl, hold, hrow⟩

end Histories

/-- **Rollback compatibility is decided exactly.** After any history of starts, a binary is
accepted if and only if the migrations beyond its own were all applied by releases that are
compatible with it; and where there are such migrations, a start of it applies and records none,
so that the schema changes by the backfill alone. -/
theorem rollback_compatibility_is_exact {σ : Type} {chain : ReleaseChain} (platform : Platform)
    (schema : σ) (history : List (MigrationRun chain σ)) (binary : MigrationRun chain σ) :
    (∀ row ∈ (migrated platform { schema } history).migrations,
        ∃ registry, AppliedBy platform { schema } history row registry) ∧
      (validateMigrationSequence (migrated platform { schema } history).loadAppliedMigrations
            binary.registry = .ok () ↔
        ∀ row ∈ (migrated platform { schema } history).migrations,
          binary.registry.latest < row.version →
            ∀ registry, AppliedBy platform { schema } history row registry →
              registry.compatibleFrom ≤ binary.registry.latest) ∧
      ((∃ row ∈ (migrated platform { schema } history).migrations,
          binary.registry.latest < row.version) →
        (migrated platform { schema } (history ++ [binary])).migrations =
            (migrated platform { schema } history).migrations ∧
          ((migrated platform { schema } (history ++ [binary])).schema =
              (migrated platform { schema } history).schema ∨
            binary.engine.backfill (migrated platform { schema } history).schema =
              .ok (migrated platform { schema } (history ++ [binary])).schema)) := by
  have hrecorded : Recorded (migrated platform { schema } history).migrations :=
    recorded_migrated history
  refine ⟨fun row => exists_appliedBy history, ?_, ?_⟩
  · rw [hrecorded.sequential.load, hrecorded.sequential.validate_iff]
    refine forall₂_congr fun row hrow => imp_congr_right fun hnewer => ?_
    constructor
    · rintro ⟨-, hle⟩ registry happlied
      have hrow := happlied.compatibleFrom.1
      omega
    · intro hall
      obtain ⟨registry, happlied⟩ := exists_appliedBy history hrow
      obtain ⟨hvalue, hpos⟩ := happlied.compatibleFrom
      have hle := hall registry happlied
      have hversion : 1 ≤ row.version := by
        obtain ⟨i, hi⟩ := List.getElem?_of_mem hrow
        have := hrecorded.sequential i row hi
        omega
      omega
  · rintro ⟨row, hrow, hnewer⟩
    obtain ⟨i, hi⟩ := List.getElem?_of_mem hrow
    have hversion := hrecorded.sequential i row hi
    have hlt := (List.getElem?_eq_some_iff.mp hi).1
    have hahead : binary.registry.migrations.length ≤
        (migrated platform { schema } history).migrations.length := by
      unfold MigrationRegistry.latest at hnewer
      omega
    rw [migrated_concat]
    rcases migrateRegistry_cases hrecorded binary.engine binary.registry with
      hsame | ⟨hadded, -, hbackfill⟩
    · rw [hsame]
      exact ⟨rfl, Or.inl rfl⟩
    · rw [hadded, Platform.pending, List.drop_eq_nil_of_le hahead, List.map_nil, List.append_nil]
      exact ⟨rfl, Or.inr (hbackfill hahead)⟩

/-- A database in which nothing fails, and nothing is to be seen of the schema. -/
def Engine.smooth : Engine Unit where
  begin := .ok ()
  hasApplicationSchema _ := .ok false
  adoptLegacySchema _ := .ok ()
  execute _ _ := .ok ()
  ensureSQLiteColumn _ _ _ _ := .ok ()
  validateCurrentSchema _ := .ok ()
  insert _ := .ok ()
  backfill _ := .ok ()
  validateSchema _ := .ok ()
  commit := .ok ()
  optimize := .ok ()

def Platform.sample : Platform where
  dialect := .sqlite
  sha256 content := "sha256 " ++ content
  sha256_ne_empty content h := by
    have hchars := congrArg String.toList h
    simp at hchars

/-- A release with this many migrations. -/
def sampleRelease (latest compatibleFrom : Nat) : MigrationRegistry where
  migrations := (List.range latest).map fun i =>
    { version := i + 1, name := s!"step {i}", sqlite := ["SELECT 1"], postgres := ["SELECT 1"] }
  compatibleFrom := compatibleFrom

-- The release before the last one may run on the newest database, the one before it may not.
example :
    let db := (migrateRegistry .sample .smooth (sampleRelease 3 2) { schema := () }).2
    db.migrations.map (fun row => (row.version, row.compatibleFrom)) = [(1, 1), (2, 2), (3, 2)] ∧
      validateMigrationSequence db.loadAppliedMigrations (sampleRelease 2 1) = .ok () ∧
      validateMigrationSequence db.loadAppliedMigrations (sampleRelease 1 1) ≠ .ok () := by
  decide +kernel

end Taskboard
