import Mathlib.Data.List.Sort
import Mathlib.Data.String.Basic
import IdpForge.GoStrings
import IdpForge.LeaderLease

/-!
# Migrations

`Migrate` lists the applied migrations once and then applies the others in the order of their
names, each in a transaction that also inserts its name into `schema_migrations`. Any number of
calls run against one database, statement by statement in any order; a statement may fail, a
process may stop, and the answer to a commit may get lost.

A transaction takes effect at its commit or not at all. The primary key of `schema_migrations`
refuses a name that is there, at the insert or at the commit: a database that makes the second
of two inserts wait does no more than that. The files' statements do not touch the table.

## Main results

* `migrateInv_step`: what is committed is what comes first in the order of the names.
* `migrations_commit_once`: files are committed once and in order, they are those recorded, and
  all of them are when a call has returned without an error.
-/

open GoStrings TransitionSystem

namespace IdpForge

/-- An entry of the embedded directory. -/
structure MigrationFile where
  name : String
  isDir : Bool
  content : String
  deriving DecidableEq, Repr

/-- The embedded directory of a driver. No two of its entries have one name. -/
structure MigrationDir where
  entries : List MigrationFile
  nodup : (entries.map (·.name)).Nodup

/-- The list `names` of `Migrate`. -/
def MigrationDir.names (dir : MigrationDir) : List String :=
  ((dir.entries.filter fun e => !e.isDir && hasSuffix e.name ".sql").map (·.name)).insertionSort
    (· ≤ ·)

/-- `fs.ReadFile`. -/
def MigrationDir.readFile (dir : MigrationDir) (name : String) : Option String :=
  (dir.entries.find? fun e => e.name = name).map (·.content)

/-- `splitStatements`. -/
def splitStatements (sqlText : String) : List String := splitPair sqlText ';' '\n'

/-- The statements `applyMigration` executes. -/
def migrationStatements (sqlText : String) : List String :=
  (splitStatements sqlText).filter fun stmt => !isBlank stmt

/-- Where a call of `Migrate` stands, with the names it has listed as applied and those left in
its loop. In a transaction it also has the name of the file, the statements executed so far and
those left. -/
inductive MigrateStage where
  | ensuring
  | listing
  | looping (applied todo : List String)
  | executing (applied todo : List String) (name : String) (executed statements : List String)
  | committing (applied todo : List String) (name : String) (executed : List String)
  deriving DecidableEq, Repr

/-- The table `schema_migrations`, when there is one, the running calls, and two ghosts: the
transactions committed so far, each with its file and its statements, and the calls that
returned without an error. -/
structure MigrateState where
  schemaMigrations : Option (List String)
  calls : Nat → Option MigrateStage
  commits : List (String × List String)
  succeeded : List Nat

/-- A call begins, executes a statement, goes on with its loop or stops. -/
inductive MigrateAction where
  | migrate (id : Nat)
  | ensureMigrationsTable (id : Nat) (ending : StatementEnd)
  | appliedMigrations (id : Nat) (ok : Bool)
  | next (id : Nat) (ok : Bool)
  | exec (id : Nat) (ok : Bool)
  | insert (id : Nat) (ok : Bool)
  | commit (id : Nat) (ending : StatementEnd)
  | stop (id : Nat)
  deriving DecidableEq, Repr

/-- The call goes on, or returns. -/
def MigrateState.setCall (s : MigrateState) (id : Nat) (stage? : Option MigrateStage) :
    MigrateState :=
  { s with calls := Function.update s.calls id stage? }

/-- The names in `schema_migrations`. -/
def MigrateState.recorded (s : MigrateState) : List String := s.schemaMigrations.getD []

section Steps

variable (dir : MigrationDir) (s : MigrateState) (id : Nat)

/-- The beginning of a call. -/
def beginMigrate : Option MigrateState :=
  match s.calls id with
  | some _ => none
  | none => some (s.setCall id (some .ensuring))

/-- `ensureMigrationsTable`. -/
def ensureTableStep (ending : StatementEnd) : Option MigrateState :=
  match s.calls id with
  | some .ensuring =>
      let table := if ending.executes then some s.recorded else s.schemaMigrations
      let next := if ending = StatementEnd.done then some MigrateStage.listing else none
      some ({ s with schemaMigrations := table }.setCall id next)
  | _ => none

/-- `appliedMigrations`. -/
def appliedMigrationsStep (ok : Bool) : Option MigrateState :=
  match s.calls id with
  | some .listing =>
      some (s.setCall id (match ok, s.schemaMigrations with
        | true, some applied => some (.looping applied dir.names)
        | _, _ => none))
  | _ => none

/-- The head of the loop: a file that is listed as applied is skipped, for another one
`applyMigration` begins a transaction. -/
def nextMigrationStep (ok : Bool) : Option MigrateState :=
  match s.calls id with
  | some (.looping _ []) => some { s.setCall id none with succeeded := id :: s.succeeded }
  | some (.looping applied (name :: todo)) =>
      some (s.setCall id (if name ∈ applied then some (.looping applied todo)
        else match ok, dir.readFile name with
          | true, some content =>
              some (.executing applied todo name [] (migrationStatements content))
          | _, _ => none))
  | _ => none

/-- A statement of a file. An error rolls the transaction back. -/
def execStep (ok : Bool) : Option MigrateState :=
  match s.calls id with
  | some (.executing applied todo name executed (stmt :: statements)) =>
      some (s.setCall id
        (if ok then some (.executing applied todo name (executed ++ [stmt]) statements) else none))
  | _ => none

/-- The insert into `schema_migrations`. -/
def insertNameStep (ok : Bool) : Option MigrateState :=
  match s.calls id with
  | some (.executing applied todo name executed []) =>
      some (s.setCall id
        (if ok ∧ s.schemaMigrations.any (name ∉ ·) then
          some (.committing applied todo name executed)
        else none))
  | _ => none

/-- The commit of a transaction. -/
def commitStep (ending : StatementEnd) : Option MigrateState :=
  match s.calls id with
  | some (.committing applied todo name executed) =>
      some (if name ∈ s.recorded ∨ ending.executes = false then s.setCall id none
      else
        { s with
          schemaMigrations := some (s.recorded ++ [name])
          commits := s.commits ++ [(name, executed)] }.setCall id
            (if ending = StatementEnd.done then some (.looping applied todo) else none))
  | _ => none

end Steps

/-- The step function. -/
def migrateStep (dir : MigrationDir) (s : MigrateState) : MigrateAction → Option MigrateState
  | .migrate id => beginMigrate s id
  | .ensureMigrationsTable id ending => ensureTableStep s id ending
  | .appliedMigrations id ok => appliedMigrationsStep dir s id ok
  | .next id ok => nextMigrationStep dir s id ok
  | .exec id ok => execStep s id ok
  | .insert id ok => insertNameStep s id ok
  | .commit id ending => commitStep s id ending
  | .stop id => some (s.setCall id none)

/-- An empty database, and no call. -/
def MigrateState.start : MigrateState where
  schemaMigrations := none
  calls := fun _ => none
  commits := []
  succeeded := []

/-! ### The order of the names -/

/-- A first part of a list that has everything before a point and not what is at the point is
what is before it. -/
theorem eq_before_of_prefix {α : Type*} {l before after : List α}
    (hnodup : (before ++ after).Nodup) (hfirst : l <+: before ++ after) (hbefore : before ⊆ l)
    (hnext : ∀ x ∈ after.head?, x ∉ l) : l = before := by
  obtain ⟨rest, hrest⟩ := hfirst
  rcases List.append_eq_append_iff.mp hrest with ⟨more, rfl, -⟩ | ⟨more, rfl, rfl⟩
  · cases more with
    | nil => simp
    | cons x more =>
        rw [List.append_assoc, List.nodup_append] at hnodup
        exact absurd rfl (hnodup.2.2 x (hbefore (by simp)) x (by simp))
  · cases more with
    | nil => simp
    | cons x more => exact absurd (by simp) (hnext x (by simp))

/-- The names are in order. -/
theorem MigrationDir.names_sorted (dir : MigrationDir) : dir.names.Pairwise (· ≤ ·) :=
  List.pairwise_insertionSort _ _

/-- No name occurs twice. -/
theorem MigrationDir.names_nodup (dir : MigrationDir) : dir.names.Nodup := by
  rw [MigrationDir.names, (List.perm_insertionSort _ _).nodup_iff]
  exact dir.nodup.sublist (List.filter_sublist.map _)

/-! ### The invariant -/

/-- These are the statements of the file. -/
def MigrationDir.HasStatements (dir : MigrationDir) (name : String) (statements : List String) :
    Prop :=
  ∃ content, dir.readFile name = some content ∧ statements = migrationStatements content

/-- What a call has listed or passed in its loop is recorded, and the statements of its
transaction are those of its file. -/
def MigrateStage.Sound (dir : MigrationDir) (rows : List String) : MigrateStage → Prop
  | .ensuring => True
  | .listing => True
  | .looping applied todo =>
      applied ⊆ rows ∧ ∃ before, dir.names = before ++ todo ∧ before ⊆ rows
  | .executing applied todo name executed statements =>
      applied ⊆ rows ∧ (∃ before, dir.names = before ++ name :: todo ∧ before ⊆ rows) ∧
        dir.HasStatements name (executed ++ statements)
  | .committing applied todo name executed =>
      applied ⊆ rows ∧ (∃ before, dir.names = before ++ name :: todo ∧ before ⊆ rows) ∧
        dir.HasStatements name executed

/-- The invariant. The recorded names come first among all, they are the files committed, each
with its statements, and they are all names once a call has succeeded. -/
structure MigrateInv (dir : MigrationDir) (s : MigrateState) : Prop where
  inOrder : s.recorded <+: dir.names
  commits : s.commits.map (·.1) = s.recorded
  statements : ∀ c ∈ s.commits, dir.HasStatements c.1 c.2
  calls : ∀ id stage, s.calls id = some stage → stage.Sound dir s.recorded
  complete : s.succeeded ≠ [] → s.recorded = dir.names

section Invariant

variable {dir : MigrationDir} {s s' : MigrateState} {id : Nat}

/-- A call stays sound when more is recorded. -/
theorem MigrateStage.Sound.mono {stage : MigrateStage} {rows rows' : List String}
    (h : stage.Sound dir rows) (hrows : rows ⊆ rows') : stage.Sound dir rows' := by
  cases stage with
  | ensuring => trivial
  | listing => trivial
  | looping applied todo =>
      obtain ⟨happlied, before, hnames, hbefore⟩ := h
      exact ⟨List.Subset.trans happlied hrows, before, hnames, List.Subset.trans hbefore hrows⟩
  | executing applied todo name executed statements =>
      obtain ⟨happlied, ⟨before, hnames, hbefore⟩, hstatements⟩ := h
      exact ⟨List.Subset.trans happlied hrows, ⟨before, hnames, List.Subset.trans hbefore hrows⟩,
        hstatements⟩
  | committing applied todo name executed =>
      obtain ⟨happlied, ⟨before, hnames, hbefore⟩, hstatements⟩ := h
      exact ⟨List.Subset.trans happlied hrows, ⟨before, hnames, List.Subset.trans hbefore hrows⟩,
        hstatements⟩

/-- A call goes on soundly, or returns. -/
theorem MigrateInv.setCall (h : MigrateInv dir s) {stage? : Option MigrateStage}
    (hstage : ∀ stage, stage? = some stage → stage.Sound dir s.recorded) :
    MigrateInv dir (s.setCall id stage?) where
  inOrder := h.inOrder
  commits := h.commits
  statements := h.statements
  calls := fun id' stage hcall => by
    rcases PartialMap.update_eq_some_iff.mp hcall with ⟨-, hnew⟩ | ⟨-, hold⟩
    · exact hstage stage hnew
    · exact h.calls id' stage hold
  complete := h.complete

/-- A table with the rows that are recorded. -/
theorem MigrateInv.setTable (h : MigrateInv dir s) {table : Option (List String)}
    (hrows : table.getD [] = s.recorded) : MigrateInv dir { s with schemaMigrations := table } := by
  have hrecorded : ({ s with schemaMigrations := table } : MigrateState).recorded = s.recorded :=
    hrows
  refine ⟨?_, ?_, h.statements, ?_, ?_⟩ <;> rw [hrecorded]
  · exact h.inOrder
  · exact h.commits
  · exact h.calls
  · exact h.complete

/-- `ensureMigrationsTable` keeps the rows. -/
theorem MigrateInv.ensureTable (h : MigrateInv dir s) {ending : StatementEnd}
    (hstep : ensureTableStep s id ending = some s') : MigrateInv dir s' := by
  rw [ensureTableStep.eq_def] at hstep
  split at hstep
  · obtain rfl := Option.some.inj hstep
    have hrows : (if ending.executes then some s.recorded else s.schemaMigrations).getD [] =
        s.recorded := by
      split <;> rfl
    refine (h.setTable hrows).setCall fun stage hstage => ?_
    split at hstage
    · exact Option.some.inj hstage ▸ trivial
    · simp at hstage
  · simp at hstep

/-- The snapshot of `appliedMigrations` is recorded. -/
theorem MigrateInv.appliedMigrations (h : MigrateInv dir s) {ok : Bool}
    (hstep : appliedMigrationsStep dir s id ok = some s') : MigrateInv dir s' := by
  rw [appliedMigrationsStep.eq_def] at hstep
  split at hstep
  · obtain rfl := Option.some.inj hstep
    refine h.setCall fun stage hstage => ?_
    split at hstage
    · next applied hrows =>
        obtain rfl := Option.some.inj hstage
        rw [MigrateState.recorded, hrows]
        exact ⟨List.Subset.refl _, [], rfl, List.nil_subset _⟩
    · simp at hstage
  · simp at hstep

/-- The head of the loop: at its end everything is recorded. -/
theorem MigrateInv.next (h : MigrateInv dir s) {ok : Bool}
    (hstep : nextMigrationStep dir s id ok = some s') : MigrateInv dir s' := by
  rw [nextMigrationStep.eq_def] at hstep
  split at hstep
  · next applied hcall =>
      obtain rfl := Option.some.inj hstep
      obtain ⟨-, before, hnames, hbefore⟩ := h.calls id _ hcall
      have hall : s.recorded = before :=
        eq_before_of_prefix (hnames ▸ dir.names_nodup) (hnames ▸ h.inOrder) hbefore (by simp)
      have hleft : MigrateInv dir (s.setCall id none) := h.setCall fun stage hstage => by
        simp at hstage
      refine ⟨hleft.inOrder, hleft.commits, hleft.statements, hleft.calls, fun _ => ?_⟩
      rw [hnames, List.append_nil]
      exact hall
  · next applied name todo hcall =>
      obtain rfl := Option.some.inj hstep
      obtain ⟨happlied, before, hnames, hbefore⟩ := h.calls id _ hcall
      refine h.setCall fun stage hstage => ?_
      split at hstage
      · next hskip =>
          obtain rfl := Option.some.inj hstage
          refine ⟨happlied, before ++ [name], by simp [hnames], ?_⟩
          exact List.append_subset.mpr ⟨hbefore, by simpa using happlied hskip⟩
      · split at hstage
        · next content hread =>
            obtain rfl := Option.some.inj hstage
            exact ⟨happlied, ⟨before, hnames, hbefore⟩, content, hread, rfl⟩
        · simp at hstage
  · simp at hstep

/-- A statement of a file. -/
theorem MigrateInv.exec (h : MigrateInv dir s) {ok : Bool} (hstep : execStep s id ok = some s') :
    MigrateInv dir s' := by
  rw [execStep.eq_def] at hstep
  split at hstep
  · next applied todo name executed stmt statements hcall =>
      obtain rfl := Option.some.inj hstep
      obtain ⟨happlied, hbefore, hstatements⟩ := h.calls id _ hcall
      refine h.setCall fun stage hstage => ?_
      split at hstage
      · obtain rfl := Option.some.inj hstage
        refine ⟨happlied, hbefore, ?_⟩
        rwa [List.append_assoc, List.singleton_append]
      · simp at hstage
  · simp at hstep

/-- The insert into `schema_migrations`. -/
theorem MigrateInv.insert (h : MigrateInv dir s) {ok : Bool}
    (hstep : insertNameStep s id ok = some s') : MigrateInv dir s' := by
  rw [insertNameStep.eq_def] at hstep
  split at hstep
  · next applied todo name executed hcall =>
      obtain rfl := Option.some.inj hstep
      obtain ⟨happlied, hbefore, hstatements⟩ := h.calls id _ hcall
      refine h.setCall fun stage hstage => ?_
      split at hstage
      · obtain rfl := Option.some.inj hstage
        exact ⟨happlied, hbefore, by rwa [List.append_nil] at hstatements⟩
      · simp at hstage
  · simp at hstep

/-- **A commit takes the next file.** What is before a file in the order is recorded when its
transaction begins, and the primary key refuses its name a second time. -/
theorem MigrateInv.commit (h : MigrateInv dir s) {ending : StatementEnd}
    (hstep : commitStep s id ending = some s') : MigrateInv dir s' := by
  rw [commitStep.eq_def] at hstep
  split at hstep
  · next applied todo name executed hcall =>
      obtain rfl := Option.some.inj hstep
      obtain ⟨happlied, ⟨before, hnames, hbefore⟩, hstatements⟩ := h.calls id _ hcall
      split
      · exact h.setCall fun stage hstage => by simp at hstage
      · next htaken =>
          have hnew : name ∉ s.recorded := fun hmem => htaken (.inl hmem)
          have hrecorded : s.recorded = before :=
            eq_before_of_prefix (hnames ▸ dir.names_nodup) (hnames ▸ h.inOrder) hbefore
              (by simpa using hnew)
          have hmore : s.recorded ⊆ s.recorded ++ [name] := List.subset_append_left _ _
          have hcommitted : MigrateInv dir { s with
              schemaMigrations := some (s.recorded ++ [name])
              commits := s.commits ++ [(name, executed)] } := by
            refine ⟨?_, ?_, ?_, fun id' stage hcall' => (h.calls id' stage hcall').mono hmore,
              fun hsucceeded => ?_⟩
            · rw [hnames, hrecorded]
              exact ⟨todo, by simp [MigrateState.recorded]⟩
            · simpa [MigrateState.recorded] using h.commits
            · exact List.forall_mem_append.mpr ⟨h.statements, by simpa using hstatements⟩
            · refine absurd ?_ hnew
              rw [h.complete hsucceeded, hnames]
              simp
          refine hcommitted.setCall fun stage hstage => ?_
          split at hstage
          · obtain rfl := Option.some.inj hstage
            refine ⟨List.Subset.trans happlied hmore, before ++ [name], by simp [hnames], ?_⟩
            refine List.append_subset.mpr ⟨List.Subset.trans hbefore hmore, ?_⟩
            simp [MigrateState.recorded]
          · simp at hstage
  · simp at hstep

/-- **The step lemma.** -/
theorem migrateInv_step {a : MigrateAction} (h : MigrateInv dir s)
    (hstep : migrateStep dir s a = some s') : MigrateInv dir s' := by
  cases a with
  | migrate id =>
      rw [migrateStep, beginMigrate] at hstep
      split at hstep
      · simp at hstep
      · obtain rfl := Option.some.inj hstep
        exact h.setCall fun stage hstage => Option.some.inj hstage ▸ trivial
  | ensureMigrationsTable id ending => exact h.ensureTable hstep
  | appliedMigrations id ok => exact h.appliedMigrations hstep
  | next id ok => exact h.next hstep
  | exec id ok => exact h.exec hstep
  | insert id ok => exact h.insert hstep
  | commit id ending => exact h.commit hstep
  | stop id =>
      exact Option.some.inj hstep ▸ h.setCall fun stage hstage => by simp at hstage

/-- Nothing is recorded at first. -/
theorem migrateInv_start : MigrateInv dir .start where
  inOrder := List.nil_prefix
  commits := rfl
  statements := by simp [MigrateState.start]
  calls := by simp [MigrateState.start]
  complete := by simp [MigrateState.start]

end Invariant

/-- **Migrations commit once and in order.** In every run of any number of calls, no file is
committed twice, and each with the statements it has; the files committed come first in the
order of the names, they are those recorded, and all files are committed once a call has
returned without an error. -/
theorem migrations_commit_once (dir : MigrationDir) (as : List MigrateAction) (s : MigrateState)
    (hrun : run (migrateStep dir) .start as = some s) :
    (s.commits.map (·.1)).Nodup ∧ (∀ c ∈ s.commits, dir.HasStatements c.1 c.2) ∧
      dir.names.Pairwise (· ≤ ·) ∧ s.commits.map (·.1) <+: dir.names ∧
      s.commits.map (·.1) = s.recorded ∧
      (s.succeeded ≠ [] → s.commits.map (·.1) = dir.names) := by
  have hinv : MigrateInv dir s :=
    run_invariant (fun _ _ _ h hs => migrateInv_step h hs) migrateInv_start hrun
  rw [hinv.commits]
  exact ⟨dir.names_nodup.sublist hinv.inOrder.sublist, hinv.statements, dir.names_sorted,
    hinv.inOrder, rfl, hinv.complete⟩

/-- Two migrations and a file that is none. -/
def exampleMigrations : MigrationDir where
  entries := [⟨"0002_avatar.sql", false, "ALTER TABLE users ADD COLUMN avatar TEXT;\n"⟩,
    ⟨"0001_init.sql", false, "CREATE TABLE users (id TEXT);\n\nCREATE TABLE groups (id TEXT);\n"⟩,
    ⟨"notes.txt", false, "in order"⟩]
  nodup := by decide

/-- Two calls list nothing as applied. The second one is refused the file that the first one has
committed, and finds nothing left to do when it is started again. -/
def exampleMigrating : List MigrateAction :=
  [.migrate 0, .migrate 1, .ensureMigrationsTable 0 .done, .ensureMigrationsTable 1 .done,
    .appliedMigrations 0 true, .appliedMigrations 1 true,
    .next 0 true, .exec 0 true, .next 1 true, .exec 0 true, .exec 1 true, .insert 0 true,
    .commit 0 .done, .exec 1 true, .insert 1 true,
    .next 0 true, .exec 0 true, .insert 0 true, .commit 0 .done, .next 0 true,
    .migrate 1, .ensureMigrationsTable 1 .done, .appliedMigrations 1 true, .next 1 true,
    .next 1 true, .next 1 true]

/-- Both calls succeed in the end, with each file committed once. -/
theorem migrations_commit_once_example :
    ∃ s, run (migrateStep exampleMigrations) .start exampleMigrating = some s ∧
      s.succeeded = [1, 0] ∧
      s.commits.map (·.1) = exampleMigrations.names ∧
      (s.commits.map (·.1)).Nodup := by
  have hrun : (run (migrateStep exampleMigrations) .start exampleMigrating).map (·.succeeded) =
      some [1, 0] := by
    decide +kernel
  obtain ⟨s, hs, hsucceeded⟩ := Option.map_eq_some_iff.mp hrun
  obtain ⟨hnodup, -, -, -, -, hcomplete⟩ :=
    migrations_commit_once exampleMigrations exampleMigrating s hs
  exact ⟨s, hs, hsucceeded, hcomplete (by simp [hsucceeded]), hnodup⟩

end IdpForge
