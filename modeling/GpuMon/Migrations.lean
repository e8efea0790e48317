import GpuMon.Library.PyText
import GpuMon.Library.Redo
import GpuMon.Library.Regex
import GpuMon.Library.Runs

/-!
# Schema migrations

`run_migrations` applies the SQL files of a directory that the table `schema_migrations` does not
name yet, a file at a time and a statement at a time. A file is recorded after its last statement
and committed. A run may end at any point: a statement raises, or the process is stopped; what was
executed since the last commit is then undone up to some statement, since a database commits some
statements by itself.

* `statements_rendered`: the statements of a file are those that were written into it.
* `recorded_of_run`: whatever ends the runs, the files are recorded in the order of their names,
  each as a whole.
* `schema_of_run`: when the statements of a file may be repeated, runs that were cut off lead to
  the schema of one run that was not.
-/

namespace GpuMon.Migrations

open PyText Redo Runs

universe u

/-! ## The text of a file -/

/-- What `_statements` keeps of the pieces between semicolons. -/
def pieces (text : Text) : List Text :=
  ((splitOn ';' text).map strip).filter fun s => s ≠ []

/-- `ln.strip().startswith("--")`. -/
def isComment (line : Text) : Bool := startsWith (strip line) "--"

/-- `_statements`. -/
def statements (sql : Text) : List Text :=
  pieces (join ['\n'] ((splitlines sql).filter fun line => !isComment line))

/-- A comment line of a file, or a statement, which may have several lines. -/
inductive Item
  | comment (line : Text)
  | statement (first : List Text) (last : Text)

namespace Item

/-- The lines of an item; the semicolon of a statement ends its last line. -/
def lines : Item → List Text
  | .comment line => [line]
  | .statement first last => first ++ [last ++ [';']]

/-- The statement of an item. -/
def text? : Item → Option Text
  | .comment _ => none
  | .statement first last => some (join ['\n'] (first ++ [last]))

/-- The statement is not empty and has no semicolon of its own, none of its lines reads as a
comment, and there is no blank around it. -/
structure WellFormed (first : List Text) (last : Text) : Prop where
  line : ∀ l ∈ first ++ [last], IsLine l
  noComment : ∀ l ∈ first ++ [last ++ [';']], isComment l = false
  noSemicolon : ';' ∉ join ['\n'] (first ++ [last])
  trimmed : IsTrimmed (join ['\n'] (first ++ [last]))
  nonempty : join ['\n'] (first ++ [last]) ≠ []

def Ok : Item → Prop
  | .comment line => IsLine line ∧ isComment line = true
  | .statement first last => WellFormed first last

end Item

/-- A file that holds the items one after another. -/
def rendered (items : List Item) : Text :=
  (items.flatMap Item.lines).flatMap fun line => line ++ ['\n']

theorem pieces_nil : pieces [] = [] := by decide

theorem splitOn_append_cons {t : Text} (h : ';' ∉ t) (rest : Text) :
    splitOn ';' (t ++ ';' :: rest) = t :: splitOn ';' rest := by
  have hPlain : ∀ c ∈ t, (c == ';') = false := by
    intro c hc
    exact beq_false_of_ne fun heq => h (heq ▸ hc)
  exact List.splitOnP_append_cons_of_forall_mem hPlain ';' (by decide) rest

theorem pieces_append {t : Text} (hPlain : ';' ∉ t) (hTrimmed : IsTrimmed t) (hne : t ≠ [])
    (rest : Text) : pieces (t ++ ';' :: rest) = t :: pieces rest := by
  rw [pieces, splitOn_append_cons hPlain, List.map_cons, strip_eq_self hTrimmed,
    List.filter_cons_of_pos (by simpa using hne)]
  rfl

/-- A newline in front changes none of the pieces. -/
theorem pieces_newline (rest : Text) : pieces ('\n' :: rest) = pieces rest := by
  have hSplit : splitOn ';' ('\n' :: rest) =
      (splitOn ';' rest).modifyHead ('\n' :: ·) :=
    (List.splitOnP_cons_eq_if_modifyHead (p := (· == ';')) '\n' rest).trans (if_neg (by decide))
  rw [pieces, pieces, hSplit]
  cases splitOn ';' rest with
  | nil => rfl
  | cons a tail => rfl

theorem join_concat_append (front : List Text) (last tail : Text) :
    join ['\n'] (front ++ [last ++ tail]) = join ['\n'] (front ++ [last]) ++ tail := by
  cases front with
  | nil => simp [join, List.intercalate]
  | cons a front =>
    rw [join_concat _ _ (List.cons_ne_nil a front), join_concat _ _ (List.cons_ne_nil a front)]
    simp only [List.append_assoc]

theorem join_append {front back : List Text} (hFront : front ≠ []) (hBack : back ≠ []) :
    join ['\n'] (front ++ back) = join ['\n'] front ++ '\n' :: join ['\n'] back := by
  induction front with
  | nil => exact absurd rfl hFront
  | cons a front ih =>
    cases front with
    | nil =>
      obtain ⟨b, rest, rfl⟩ := List.exists_cons_of_ne_nil hBack
      rw [List.singleton_append, join_cons_cons]
      simp [join, List.intercalate]
    | cons c front =>
      rw [List.cons_append, List.cons_append, join_cons_cons, ← List.cons_append,
        ih (List.cons_ne_nil c front), join_cons_cons]
      simp

/-- The lines that are left of an item when the comments are dropped. -/
theorem kept_lines {item : Item} (h : item.Ok) :
    item.lines.filter (fun line => !isComment line) =
      match item with
      | .comment _ => []
      | .statement first last => first ++ [last ++ [';']] := by
  cases item with
  | comment line =>
    rw [Item.lines, List.filter_cons_of_neg (by simp [h.2])]
    rfl
  | statement first last =>
    exact List.filter_eq_self.mpr fun l hl => by rw [h.noComment l hl]; rfl

/-- The statements of a file are those that were written into it, whatever its comments say. -/
theorem statements_rendered {items : List Item} (hOk : ∀ item ∈ items, item.Ok) :
    statements (rendered items) = items.filterMap Item.text? := by
  have hLines : ∀ line ∈ items.flatMap Item.lines, IsLine line := by
    intro line hLine
    obtain ⟨item, hItem, hMem⟩ := List.mem_flatMap.mp hLine
    cases item with
    | comment text =>
      rw [List.mem_singleton.mp hMem]
      exact (hOk _ hItem).1
    | statement first last =>
      have hWell : Item.WellFormed first last := hOk _ hItem
      rcases List.mem_append.mp hMem with hFirst | hLast
      · exact hWell.line line (List.mem_append_left _ hFirst)
      · rw [List.mem_singleton.mp hLast]
        refine isLine_append (hWell.line last (List.mem_append_right _ List.mem_cons_self)) ?_
        exact isLine_cons (by decide) fun _ hc => absurd hc List.not_mem_nil
  rw [statements, rendered, splitlines_flatMap hLines]
  clear hLines
  induction items with
  | nil => exact pieces_nil
  | cons item items ih =>
    have hTail := ih fun i hi => hOk i (List.mem_cons_of_mem _ hi)
    have hItem := hOk item List.mem_cons_self
    rw [List.flatMap_cons, List.filter_append, kept_lines hItem]
    cases item with
    | comment line => exact hTail
    | statement first last =>
      have hWell : Item.WellFormed first last := hItem
      have hNext (rest : Text) : pieces (join ['\n'] (first ++ [last]) ++ ';' :: rest) =
          join ['\n'] (first ++ [last]) :: pieces rest :=
        pieces_append hWell.noSemicolon hWell.trimmed hWell.nonempty rest
      simp only [List.filterMap_cons, Item.text?]
      rw [← hTail]
      by_cases hRest : (items.flatMap Item.lines).filter (fun line => !isComment line) = []
      · rw [hRest, List.append_nil, join_concat_append, hNext]
        rfl
      · rw [join_append (by simp) hRest, join_concat_append, List.append_assoc,
          List.singleton_append, hNext, pieces_newline]

/-- A comment with a semicolon in it, and a statement of two lines. -/
theorem statements_rendered_index :
    statements (rendered [.comment "-- 015: hot polling; detail",
      .statement ["CREATE INDEX i"] "    ON t (c)"]) = ["CREATE INDEX i\n    ON t (c)"] := by
  refine statements_rendered fun item hItem => ?_
  rcases List.mem_cons.mp hItem with rfl | hItem
  · exact ⟨by decide, by decide⟩
  · rw [List.mem_singleton.mp hItem]
    exact ⟨by decide, by decide, by decide, by decide, by decide⟩

/-! ## The files -/

structure File where
  name : Text
  sql : Text
  deriving DecidableEq

/-- `_NAME_RE`. -/
def nameRe : Regex :=
  .all [.bol, .group 1 (.plus isDecimal), .lit "_", .star Regex.anyChar, .lit ".sql", .eol]

/-- `t.endswith(tail)`. -/
def endsWith (t tail : Text) : Bool := tail.isSuffixOf t

/-- `a <= b` on `str`. -/
def codeLe : Text → Text → Bool
  | [], _ => true
  | _ :: _, [] => false
  | a :: as, b :: bs => a.toNat < b.toNat || (a.toNat == b.toNat && codeLe as bs)

/-- What `os.listdir` finds in `MIGRATIONS_DIR`. -/
structure Directory where
  files : List File
  namesNodup : (files.map File.name).Nodup

/-- `files` of `run_migrations`. -/
def Directory.sorted (d : Directory) : List File :=
  (d.files.filter fun f =>
    endsWith f.name ".sql" && (nameRe.match? f.name).isSome).insertionSort fun a b =>
      codeLe a.name b.name = true

theorem Directory.sorted_nodup (d : Directory) : (d.sorted.map File.name).Nodup := by
  have hPerm := (List.perm_insertionSort (fun a b => codeLe a.name b.name = true)
    (d.files.filter fun f => endsWith f.name ".sql" && (nameRe.match? f.name).isSome)).map File.name
  exact hPerm.nodup_iff.mpr (d.namesNodup.sublist (List.filter_sublist.map _))

/-- Not for the other kind of database. -/
def applicable (isMysql : Bool) (name : Text) : Bool :=
  !(endsWith name ".mysql.sql" && !isMysql) && !(endsWith name ".sqlite.sql" && isMysql)

/-! ## Statements -/

/-- The database behind the connection: what a statement makes of the tables, or the text of its
error, which leaves them as they were. -/
structure Engine (σ : Type u) where
  isMysql : Bool
  exec : Text → σ → Except Text σ

def tolerated : List Text :=
  ["duplicate column", "already exists", "duplicate key name", "check that column/key exists",
    "no such column", "unknown column", "can't drop", "check that column exists"]

variable {σ : Type u}

/-- The statement as it is sent: the one word that only MySQL has is translated. -/
def Engine.translated (e : Engine σ) (stmt : Text) : Text :=
  if e.isMysql then stmt else replace "INSERT IGNORE INTO" "INSERT OR IGNORE INTO" stmt

/-- The body of the loop over the statements of a file; `none` when the error is raised. -/
def Engine.execute (e : Engine σ) (stmt : Text) (s : σ) : Option σ :=
  if strip stmt = [] then some s else
    match e.exec (e.translated stmt) s with
    | .ok s' => some s'
    | .error msg => if tolerated.any fun t => contains t (lower msg) then some s else none

/-- All statements of a file. -/
def Engine.apply (e : Engine σ) (f : File) (s : σ) : Option σ := runOps e.execute (statements f.sql) s

/-! ## Runs -/

/-- The tables, and the names in `schema_migrations`. -/
structure Content (σ : Type u) where
  schema : σ
  recorded : List Text

/-- Where `run_migrations` stands; `done` is what `_applied` answered when it began. -/
inductive Phase
  | idle
  | choosing (done : List Text) (files : List File)
  | executing (done : List Text) (file : File) (left : List Text) (files : List File)
  | inserted (done : List Text) (file : File) (files : List File)
  | returned
  deriving DecidableEq

/-- `db` is what the connection sees; `earlier` are the contents since the last commit, the last
one first. -/
structure World (σ : Type u) where
  db : Content σ
  earlier : List (Content σ)
  phase : Phase
  appliedNow : List Text

/-- `stop k` ends a run, by an error or from outside, and undoes the last `k` statements of the
open transaction. -/
inductive Action
  | start
  | next
  | stop (k : Nat)
  deriving DecidableEq

variable (e : Engine σ) (d : Directory)

def next (w : World σ) : Option (World σ) :=
  match w.phase with
  | .idle => none
  | .returned => none
  | .choosing _ [] => some { w with phase := .returned }
  | .choosing done (f :: fs) =>
    if f.name ∈ done then some { w with phase := .choosing done fs }
    else if !applicable e.isMysql f.name then some { w with phase := .choosing done fs }
    else some { w with phase := .executing done f (statements f.sql) fs }
  | .executing done f (stmt :: left) fs =>
    (e.execute stmt w.db.schema).map fun s =>
      { w with
        db := { w.db with schema := s }
        earlier := w.db :: w.earlier
        phase := .executing done f left fs }
  | .executing done f [] fs =>
    -- the name is unique in the table
    if f.name ∈ w.db.recorded then none
    else some { w with
      db := { w.db with recorded := w.db.recorded ++ [f.name] }
      earlier := w.db :: w.earlier
      phase := .inserted done f fs }
  | .inserted done f fs =>
    some { w with
      earlier := []
      phase := .choosing done fs
      appliedNow := w.appliedNow ++ [f.name] }

def Phase.running : Phase → Bool
  | .idle => false
  | .returned => false
  | _ => true

def step (w : World σ) : Action → Option (World σ)
  | .start =>
    if w.phase.running then none
    else some { w with phase := .choosing w.db.recorded d.sorted, appliedNow := [] }
  | .next => next e w
  | .stop k =>
    if w.phase.running then
      ((w.db :: w.earlier)[k]?).map fun c => { db := c, earlier := [], phase := .idle, appliedNow := [] }
    else none

/-- Nothing runs, and the database holds `c`. -/
def Resting (c : Content σ) (w : World σ) : Prop := w = ⟨c, [], .idle, []⟩

/-! ## What becomes of the database -/

/-- The files among these that are still to be applied. -/
def pendingOf (files : List File) (recorded : List Text) : List File :=
  files.filter fun f => applicable e.isMysql f.name && f.name ∉ recorded

/-- The files that are still to be applied. -/
def pending (recorded : List Text) : List File := pendingOf e d.sorted recorded

/-- The database goes on by some of the first statements of the next file, or by a whole file,
which is recorded. -/
inductive Progress : Content σ → Content σ → Prop
  | part {c : Content σ} {f : File} {fs : List File} {ran left : List Text} {s : σ} :
      pending e d c.recorded = f :: fs → statements f.sql = ran ++ left →
      runOps e.execute ran c.schema = some s → Progress c { c with schema := s }
  | whole {c : Content σ} {f : File} {fs : List File} {s : σ} :
      pending e d c.recorded = f :: fs → e.apply f c.schema = some s →
      Progress c { schema := s, recorded := c.recorded ++ [f.name] }

/-- `c'` is `c` after some of the first statements of `f`. -/
def PartOf (c : Content σ) (f : File) (c' : Content σ) : Prop :=
  c'.recorded = c.recorded ∧ ∃ ran left, statements f.sql = ran ++ left ∧
    runOps e.execute ran c.schema = some c'.schema

variable {e d}

theorem pendingOf_cons (f : File) (fs : List File) (recorded : List Text) :
    pendingOf e (f :: fs) recorded =
      if applicable e.isMysql f.name = true ∧ f.name ∉ recorded then f :: pendingOf e fs recorded
      else pendingOf e fs recorded := by
  simp only [pendingOf, List.filter_cons, Bool.and_eq_true, decide_eq_true_eq]

theorem pendingOf_append {fs : List File} {name : Text} (h : name ∉ fs.map File.name)
    (recorded : List Text) : pendingOf e fs (recorded ++ [name]) = pendingOf e fs recorded := by
  refine List.filter_congr fun f hf => ?_
  have hne : f.name ≠ name := fun heq => h (heq ▸ List.mem_map_of_mem hf)
  simp [hne]

theorem mem_pending {f : File} {recorded : List Text} :
    f ∈ pending e d recorded ↔
      f ∈ d.sorted ∧ applicable e.isMysql f.name = true ∧ f.name ∉ recorded := by
  simp [pending, pendingOf]

theorem pending_nodup (recorded : List Text) : ((pending e d recorded).map File.name).Nodup :=
  d.sorted_nodup.sublist (List.filter_sublist.map _)

/-- When the next file is recorded, the others are left. -/
theorem pending_record {recorded : List Text} {f : File} {fs : List File}
    (h : pending e d recorded = f :: fs) : pending e d (recorded ++ [f.name]) = fs := by
  have hSplit : pending e d (recorded ++ [f.name]) =
      (pending e d recorded).filter fun g => g.name ≠ f.name := by
    rw [pending, pending, pendingOf, pendingOf, List.filter_filter]
    refine List.filter_congr fun g _ => ?_
    simp only [List.mem_append, List.mem_singleton]
    by_cases hg : g.name = f.name <;> simp [hg]
  have hNodup := pending_nodup (e := e) (d := d) recorded
  rw [h, List.map_cons, List.nodup_cons] at hNodup
  rw [hSplit, h, List.filter_cons_of_neg (by simp)]
  refine List.filter_eq_self.mpr fun g hg => ?_
  have hne : g.name ≠ f.name := fun heq => hNodup.1 (heq ▸ List.mem_map_of_mem hg)
  simpa using hne

/-! ## The invariant of a run -/

open Relation

variable {c c' : Content σ} {w w' : World σ}

/-- What is known of the files that a run has still to look at: the names it read at the start
tell the same as the table. -/
structure Ahead (e : Engine σ) (done : List Text) (files : List File) (recorded : List Text) :
    Prop where
  known : ∀ f ∈ files, f.name ∈ done ↔ f.name ∈ recorded
  nodup : (files.map File.name).Nodup

/-- The run has opened `f` on the content `c`. -/
structure Opened (e : Engine σ) (d : Directory) (c₀ : Content σ) (done : List Text) (f : File)
    (fs : List File) (c : Content σ) : Prop where
  reached : ReflTransGen (Progress e d) c₀ c
  next : pending e d c.recorded = f :: pendingOf e fs c.recorded
  ahead : Ahead e done fs c.recorded
  notLater : f.name ∉ fs.map File.name

inductive Inv (e : Engine σ) (d : Directory) (c₀ : Content σ) : World σ → Prop
  | idle {db : Content σ} {applied : List Text} :
      ReflTransGen (Progress e d) c₀ db → Inv e d c₀ ⟨db, [], .idle, applied⟩
  | choosing {db : Content σ} {done : List Text} {files : List File} {applied : List Text} :
      ReflTransGen (Progress e d) c₀ db → pending e d db.recorded = pendingOf e files db.recorded →
      Ahead e done files db.recorded → Inv e d c₀ ⟨db, [], .choosing done files, applied⟩
  | executing {c db : Content σ} {earlier : List (Content σ)} {done ran left : List Text} {f : File}
      {fs : List File} {applied : List Text} :
      Opened e d c₀ done f fs c → statements f.sql = ran ++ left →
      runOps e.execute ran c.schema = some db.schema → db.recorded = c.recorded →
      (∀ c' ∈ earlier, PartOf (e := e) c f c') →
      Inv e d c₀ ⟨db, earlier, .executing done f left fs, applied⟩
  | inserted {c db : Content σ} {earlier : List (Content σ)} {done : List Text} {f : File}
      {fs : List File} {applied : List Text} :
      Opened e d c₀ done f fs c → e.apply f c.schema = some db.schema →
      db.recorded = c.recorded ++ [f.name] → (∀ c' ∈ earlier, PartOf (e := e) c f c') →
      Inv e d c₀ ⟨db, earlier, .inserted done f fs, applied⟩
  | returned {db : Content σ} {applied : List Text} :
      ReflTransGen (Progress e d) c₀ db → pending e d db.recorded = [] →
      Inv e d c₀ ⟨db, [], .returned, applied⟩

variable {c₀ : Content σ}

theorem Ahead.tail {done recorded : List Text} {f : File} {fs : List File}
    (h : Ahead e done (f :: fs) recorded) : Ahead e done fs recorded where
  known := fun g hg => h.known g (List.mem_cons_of_mem f hg)
  nodup := (List.nodup_cons.mp h.nodup).2

/-- A file that was recorded just now is not looked at again. -/
theorem Ahead.record {done recorded : List Text} {name : Text} {fs : List File}
    (h : Ahead e done fs recorded) (hName : name ∉ fs.map File.name) :
    Ahead e done fs (recorded ++ [name]) where
  known := by
    intro f hf
    have hne : f.name ≠ name := fun heq => hName (heq ▸ List.mem_map_of_mem hf)
    rw [h.known f hf, List.mem_append, List.mem_singleton, or_iff_left hne]
  nodup := h.nodup

theorem Opened.progress_part {done : List Text} {f : File} {fs : List File}
    (h : Opened e d c₀ done f fs c) (hPart : PartOf (e := e) c f c') :
    ReflTransGen (Progress e d) c₀ c' := by
  obtain ⟨hRecorded, ran, left, hSplit, hRun⟩ := hPart
  obtain ⟨schema, recorded⟩ := c'
  subst hRecorded
  exact h.reached.tail (Progress.part h.next hSplit hRun)

theorem Opened.progress_whole {done : List Text} {f : File} {fs : List File}
    (h : Opened e d c₀ done f fs c) (hApply : e.apply f c.schema = some c'.schema)
    (hRecorded : c'.recorded = c.recorded ++ [f.name]) : ReflTransGen (Progress e d) c₀ c' := by
  obtain ⟨schema, recorded⟩ := c'
  subst hRecorded
  exact h.reached.tail (Progress.whole h.next hApply)

/-- Whatever the database may fall back to is progress from where it began. -/
theorem Inv.reached (h : Inv e d c₀ w) :
    ∀ c ∈ w.db :: w.earlier, ReflTransGen (Progress e d) c₀ c := by
  intro c hc
  cases h with
  | idle hReached => exact List.mem_singleton.mp hc ▸ hReached
  | choosing hReached _ _ => exact List.mem_singleton.mp hc ▸ hReached
  | returned hReached _ => exact List.mem_singleton.mp hc ▸ hReached
  | @executing opened _ _ _ ran left _ _ _ hOpened hSplit hRun hRecorded hEarlier =>
    rcases List.mem_cons.mp hc with rfl | hc
    · exact hOpened.progress_part ⟨hRecorded, ran, left, hSplit, hRun⟩
    · exact hOpened.progress_part (hEarlier c hc)
  | inserted hOpened hApply hRecorded hEarlier =>
    rcases List.mem_cons.mp hc with rfl | hc
    · exact hOpened.progress_whole hApply hRecorded
    · exact hOpened.progress_part (hEarlier c hc)

theorem inv_choose {db : Content σ} {done : List Text} {f : File} {fs : List File}
    {applied : List Text} (hReached : ReflTransGen (Progress e d) c₀ db)
    (hPending : pending e d db.recorded = pendingOf e (f :: fs) db.recorded)
    (hAhead : Ahead e done (f :: fs) db.recorded)
    (h : next e ⟨db, [], .choosing done (f :: fs), applied⟩ = some w') : Inv e d c₀ w' := by
  have hKnown := hAhead.known f List.mem_cons_self
  dsimp only [next] at h
  rw [pendingOf_cons] at hPending
  split at h
  · rename_i hDone
    cases h
    rw [if_neg (fun hc => hc.2 (hKnown.mp hDone))] at hPending
    exact .choosing hReached hPending hAhead.tail
  · rename_i hDone
    split at h <;> cases h
    · rename_i hOther
      rw [if_neg (fun hc => by simp [hc.1] at hOther)] at hPending
      exact .choosing hReached hPending hAhead.tail
    · rename_i hApplicable
      have hBoth : applicable e.isMysql f.name = true ∧ f.name ∉ db.recorded :=
        ⟨by simpa using hApplicable, fun hc => hDone (hKnown.mpr hc)⟩
      rw [if_pos hBoth] at hPending
      exact .executing ⟨hReached, hPending, hAhead.tail, (List.nodup_cons.mp hAhead.nodup).1⟩
        (List.nil_append _).symm rfl rfl fun c' hc' => absurd hc' List.not_mem_nil

theorem inv_next (hInv : Inv e d c₀ w) (h : next e w = some w') : Inv e d c₀ w' := by
  cases hInv with
  | idle hReached => cases h
  | returned hReached hPending => cases h
  | @choosing db done files applied hReached hPending hAhead =>
    cases files with
    | nil =>
      cases h
      exact .returned hReached hPending
    | cons f fs => exact inv_choose hReached hPending hAhead h
  | @executing c db earlier done ran left f fs applied hOpened hSplit hRun hRecorded hEarlier =>
    have hParts : ∀ c' ∈ db :: earlier, PartOf (e := e) c f c' := by
      intro c' hc'
      rcases List.mem_cons.mp hc' with rfl | hc'
      · exact ⟨hRecorded, ran, left, hSplit, hRun⟩
      · exact hEarlier c' hc'
    cases left with
    | nil =>
      dsimp only [next] at h
      split at h <;> cases h
      rw [List.append_nil] at hSplit
      refine .inserted hOpened ?_ (congrArg (· ++ [f.name]) hRecorded) hParts
      rw [Engine.apply, hSplit]
      exact hRun
    | cons stmt left =>
      obtain ⟨s, hExecute, hEq⟩ := Option.map_eq_some_iff.mp h
      cases hEq
      have hSplit' : statements f.sql = (ran ++ [stmt]) ++ left := by
        rw [hSplit, List.append_assoc, List.singleton_append]
      exact .executing hOpened hSplit' (runOps_concat hRun hExecute) hRecorded hParts
  | @inserted c db earlier done f fs applied hOpened hApply hRecorded hEarlier =>
    cases h
    refine .choosing (hOpened.progress_whole hApply hRecorded) ?_ ?_
    · rw [hRecorded, pending_record hOpened.next, pendingOf_append hOpened.notLater]
    · rw [hRecorded]
      exact hOpened.ahead.record hOpened.notLater

theorem inv_step {a : Action} (hInv : Inv e d c₀ w) (h : step e d w a = some w') :
    Inv e d c₀ w' := by
  cases a with
  | next => exact inv_next hInv h
  | start =>
    dsimp only [step] at h
    split at h <;> cases h
    rename_i hRunning
    have hFresh (db : Content σ) : Ahead e db.recorded d.sorted db.recorded :=
      ⟨fun _ _ => Iff.rfl, d.sorted_nodup⟩
    cases hInv with
    | idle hReached => exact .choosing hReached rfl (hFresh _)
    | returned hReached hPending => exact .choosing hReached rfl (hFresh _)
    | choosing _ _ _ => exact absurd rfl hRunning
    | executing _ _ _ _ _ => exact absurd rfl hRunning
    | inserted _ _ _ _ => exact absurd rfl hRunning
  | stop k =>
    dsimp only [step] at h
    split at h
    · obtain ⟨c, hc, hEq⟩ := Option.map_eq_some_iff.mp h
      cases hEq
      exact .idle (hInv.reached c (List.mem_of_getElem? hc))
    · cases h

theorem inv_of_reach (h : Reach (step e d) (Resting c₀) Always w) : Inv e d c₀ w :=
  h.invariant (fun s hs => by rw [hs]; exact .idle ReflTransGen.refl)
    fun _ _ _ hInv _ hStep => inv_step hInv hStep

/-! ## The record -/

/-- The record grows by the names of the pending files, in their order. -/
theorem recorded_of_progress (h : ReflTransGen (Progress e d) c₀ c) :
    ∃ n, c.recorded = c₀.recorded ++ ((pending e d c₀.recorded).take n).map File.name ∧
      pending e d c.recorded = (pending e d c₀.recorded).drop n := by
  induction h with
  | refl => exact ⟨0, by simp, rfl⟩
  | tail _ hStep ih =>
    obtain ⟨n, hRecorded, hPending⟩ := ih
    cases hStep with
    | part _ _ _ => exact ⟨n, hRecorded, hPending⟩
    | @whole f fs s hNext _ =>
      have hDrop : (pending e d c₀.recorded).drop n = f :: fs := hPending ▸ hNext
      have hAt : (pending e d c₀.recorded)[n]? = some f := by
        rw [← List.head?_drop, hDrop]
        rfl
      refine ⟨n + 1, ?_, ?_⟩
      · rw [List.take_add_one, hAt, List.map_append, ← List.append_assoc, ← hRecorded]
        rfl
      · rw [pending_record hNext, ← List.drop_drop, hDrop]
        rfl

theorem mem_pending_of_progress (h : ReflTransGen (Progress e d) c₀ c) {f : File}
    (hf : f ∈ pending e d c.recorded) : f ∈ pending e d c₀.recorded := by
  obtain ⟨n, _, hPending⟩ := recorded_of_progress h
  rw [hPending] at hf
  exact List.mem_of_mem_drop hf

/-- Nothing more happens to a database that has every file. -/
theorem eq_of_progress (h : ReflTransGen (Progress e d) c₀ c) (hNone : pending e d c₀.recorded = []) :
    c = c₀ := by
  rcases h.cases_head with hEq | ⟨c₁, hStep, _⟩
  · exact hEq.symm
  · cases hStep with
    | part hNext _ _ => exact absurd (hNone.symm.trans hNext) (List.cons_ne_nil _ _).symm
    | whole hNext _ => exact absurd (hNone.symm.trans hNext) (List.cons_ne_nil _ _).symm

theorem pending_of_returned (hInv : Inv e d c₀ w) (h : w.phase = .returned) :
    pending e d w.db.recorded = [] := by
  cases hInv with
  | returned _ hPending => exact hPending
  | idle _ => cases h
  | choosing _ _ _ => cases h
  | executing _ _ _ _ _ => cases h
  | inserted _ _ _ _ => cases h

/-- Over any runs, ended anywhere: the database goes from file to file in the order of their names,
and a name is recorded together with every statement of its file. A run that returns has recorded
every file, and a later one changes nothing. -/
theorem recorded_of_run (h : Reach (step e d) (Resting c₀) Always w) :
    (∀ c ∈ w.db :: w.earlier, ReflTransGen (Progress e d) c₀ c) ∧
      (∃ n, w.db.recorded = c₀.recorded ++ ((pending e d c₀.recorded).take n).map File.name) ∧
      (w.phase = .returned →
        w.db.recorded = c₀.recorded ++ (pending e d c₀.recorded).map File.name) ∧
      (pending e d c₀.recorded = [] → w.db = c₀) := by
  have hInv := inv_of_reach h
  have hReached := hInv.reached w.db List.mem_cons_self
  obtain ⟨n, hRecorded, hPending⟩ := recorded_of_progress hReached
  refine ⟨hInv.reached, ⟨n, hRecorded⟩, fun hReturned => ?_, eq_of_progress hReached⟩
  have hAll : (pending e d c₀.recorded).length ≤ n :=
    List.drop_eq_nil_iff.mp (hPending.symm.trans (pending_of_returned hInv hReturned))
  rw [hRecorded, List.take_of_length_le hAll]

/-! ## Runs that are cut off -/

/-- The tables that one undisturbed run leaves. -/
def outcome (e : Engine σ) (d : Directory) (c : Content σ) : Option σ :=
  runOps e.apply (pending e d c.recorded) c.schema

/-- The statements of every file that is still to be applied may be repeated. -/
def Repeatable (e : Engine σ) (d : Directory) (c : Content σ) : Prop :=
  ∀ f ∈ pending e d c.recorded, ∃ holds, Lasting e.execute holds (statements f.sql)

theorem outcome_of_step (hRepeatable : Repeatable e d c) (h : Progress e d c c') :
    outcome e d c' = outcome e d c := by
  cases h with
  | @part f fs ran left s hNext hSplit hRun =>
    obtain ⟨holds, hLasting⟩ := hRepeatable f (hNext ▸ List.mem_cons_self)
    have hAgain : e.apply f s = e.apply f c.schema := by
      rw [Engine.apply, Engine.apply, hSplit]
      exact (hSplit ▸ hLasting).resume hRun
    rw [outcome, outcome, hNext, runOps_cons, runOps_cons, hAgain]
  | whole hNext hApply =>
    rw [outcome, outcome, hNext, pending_record hNext, runOps_cons, hApply, Option.bind_some]

theorem outcome_of_progress (hRepeatable : Repeatable e d c₀)
    (h : ReflTransGen (Progress e d) c₀ c) : outcome e d c = outcome e d c₀ := by
  induction h with
  | refl => rfl
  | tail hBefore hStep ih =>
    rw [← ih]
    exact outcome_of_step (fun f hf => hRepeatable f (mem_pending_of_progress hBefore hf)) hStep

/-- The steps that a run needs for the files it has not looked at. -/
def cost (files : List File) : Nat := (files.map fun f => (statements f.sql).length + 3).sum

/-- The steps that a run still needs. -/
def remaining (w : World σ) : Nat :=
  match w.phase with
  | .idle => 0
  | .returned => 0
  | .choosing _ files => cost files + 1
  | .executing _ _ left fs => left.length + 3 + cost fs
  | .inserted _ _ fs => cost fs + 2

@[simp] theorem cost_cons (f : File) (fs : List File) :
    cost (f :: fs) = (statements f.sql).length + 3 + cost fs := rfl

theorem remaining_next (h : next e w = some w') : remaining w' < remaining w := by
  obtain ⟨db, earlier, phase, applied⟩ := w
  match phase with
  | .idle => cases h
  | .returned => cases h
  | .choosing done [] =>
    cases h
    exact Nat.succ_pos _
  | .choosing done (f :: fs) =>
    dsimp only [next] at h
    split at h
    · cases h
      simp only [remaining, cost_cons]
      omega
    · split at h <;> cases h <;> simp only [remaining, cost_cons] <;> omega
  | .executing done f [] fs =>
    dsimp only [next] at h
    split at h <;> cases h
    simp only [remaining, List.length_nil]
    omega
  | .executing done f (stmt :: left) fs =>
    obtain ⟨s, _, hEq⟩ := Option.map_eq_some_iff.mp h
    cases hEq
    simp only [remaining, List.length_cons]
    omega
  | .inserted done f fs =>
    cases h
    simp only [remaining]
    omega

/-- The part of a run that has succeeded so far goes on. -/
theorem execute_isSome {ran left : List Text} {stmt : Text} {s t u : σ}
    (hAll : runOps e.execute (ran ++ stmt :: left) s = some u)
    (hRan : runOps e.execute ran s = some t) : ∃ t', e.execute stmt t = some t' := by
  rw [runOps_append, hRan, Option.bind_some, runOps_cons] at hAll
  obtain ⟨t', hStmt, _⟩ := Option.bind_eq_some_iff.mp hAll
  exact ⟨t', hStmt⟩

theorem next_isSome (hInv : Inv e d c₀ w)
    (hDue : ∀ c, ReflTransGen (Progress e d) c₀ c → ∃ s, outcome e d c = some s)
    (hRunning : w.phase.running = true) : ∃ w', next e w = some w' := by
  cases hInv with
  | idle _ => cases hRunning
  | returned _ _ => cases hRunning
  | @choosing db done files applied _ _ _ =>
    cases files with
    | nil => exact ⟨_, rfl⟩
    | cons f fs =>
      dsimp only [next]
      split
      · exact ⟨_, rfl⟩
      · split <;> exact ⟨_, rfl⟩
  | inserted _ _ _ _ => exact ⟨_, rfl⟩
  | @executing c db earlier done ran left f fs applied hOpened hSplit hRun hRecorded _ =>
    cases left with
    | nil =>
      have hMem : f ∈ pending e d c.recorded := hOpened.next ▸ List.mem_cons_self
      have hFree : f.name ∉ db.recorded := hRecorded ▸ (mem_pending.mp hMem).2.2
      exact ⟨_, if_neg hFree⟩
    | cons stmt left =>
      obtain ⟨s, hOutcome⟩ := hDue c hOpened.reached
      rw [outcome, hOpened.next, runOps_cons, Engine.apply, hSplit] at hOutcome
      obtain ⟨u, hAll, _⟩ := Option.bind_eq_some_iff.mp hOutcome
      obtain ⟨t, hStmt⟩ := execute_isSome hAll hRun
      exact ⟨_, congrArg (Option.map _) hStmt⟩

/-- Where statements may be repeated, runs that were stopped anywhere lead to the tables of one run
that was not: none of their statements raises, and a run that returns leaves these tables. -/
theorem schema_of_run {s : σ} (hRepeatable : Repeatable e d c₀) (hOnce : outcome e d c₀ = some s)
    (h : Reach (step e d) (Resting c₀) Always w) :
    (w.phase = .returned → w.db.schema = s) ∧
      (w.phase.running = true → ∃ w', next e w = some w' ∧ remaining w' < remaining w) := by
  have hInv := inv_of_reach h
  have hOutcome (c : Content σ) (hc : ReflTransGen (Progress e d) c₀ c) : outcome e d c = some s :=
    (outcome_of_progress hRepeatable hc).trans hOnce
  constructor
  · intro hReturned
    have hLast := hOutcome w.db (hInv.reached w.db List.mem_cons_self)
    rw [outcome, pending_of_returned hInv hReturned] at hLast
    exact Option.some.inj hLast
  · intro hRunning
    obtain ⟨w', hNext⟩ := next_isSome hInv (fun c hc => ⟨s, hOutcome c hc⟩) hRunning
    exact ⟨w', hNext, remaining_next hNext⟩

/-! ## Added columns -/

/-- The column that a statement `ALTER TABLE t ADD COLUMN c ...` adds. -/
def addedColumn (stmt : Text) : Option Text :=
  let words := splitOn ' ' stmt
  if words.take 2 = ["ALTER", "TABLE"] ∧ (words.drop 3).take 2 = ["ADD", "COLUMN"] then
    some (join ['.'] [words.getD 2 [], words.getD 5 []])
  else none

/-- A database that knows the columns of its tables and adds columns. -/
def columns : Engine (List Text) where
  isMysql := false
  exec := fun stmt s =>
    match addedColumn stmt with
    | none => .error "syntax error"
    | some column =>
      if column ∈ s then .error ("duplicate column name: " ++ column) else .ok (s ++ [column])

/-- A column that is there already is no error. -/
theorem execute_addedColumn {stmt column : Text} (hne : strip stmt ≠ [])
    (h : addedColumn (columns.translated stmt) = some column)
    (s : List Text) :
    columns.execute stmt s = some (if column ∈ s then s else s ++ [column]) := by
  have hTolerated : contains "duplicate column" (lower ("duplicate column name: " ++ column)) = true := by
    rw [contains_iff, lower, List.map_append]
    exact ⟨[], " name: ".toList ++ lower column, rfl⟩
  have hAny : (tolerated.any fun t => contains t (lower ("duplicate column name: " ++ column))) = true :=
    List.any_eq_true.mpr ⟨"duplicate column", by rw [tolerated]; exact List.mem_cons_self, hTolerated⟩
  have hExec : columns.exec (columns.translated stmt) s =
      if column ∈ s then .error ("duplicate column name: " ++ column) else .ok (s ++ [column]) := by
    generalize columns.translated stmt = sent at h ⊢
    dsimp only [columns]
    rw [h]
  rw [Engine.execute, if_neg hne, hExec]
  by_cases hMem : column ∈ s
  · rw [if_pos hMem, if_pos hMem]
    exact if_pos hAny
  · rw [if_neg hMem, if_neg hMem]

/-- Added columns may be added again. -/
theorem lasting_columns {stmts : List Text}
    (h : ∀ stmt ∈ stmts, strip stmt ≠ [] ∧ (addedColumn (columns.translated stmt)).isSome = true) :
    ∃ holds, Lasting columns.execute holds stmts := by
  have hEffect : ∀ stmt ∈ stmts, ∃ column, ∀ s,
      addedColumn (columns.translated stmt) = some column ∧
        columns.execute stmt s = some (if column ∈ s then s else s ++ [column]) := by
    intro stmt hStmt
    obtain ⟨hne, hSome⟩ := h stmt hStmt
    obtain ⟨column, hColumn⟩ := Option.isSome_iff_exists.mp hSome
    exact ⟨column, fun s => ⟨hColumn, execute_addedColumn hne hColumn s⟩⟩
  refine ⟨fun stmt s => ∀ column, addedColumn (columns.translated stmt) = some column → column ∈ s,
    ?_, ?_, ?_⟩
  · intro stmt hStmt s t hExecute column hColumn
    obtain ⟨added, hAdded⟩ := hEffect stmt hStmt
    obtain ⟨hSame, hRun⟩ := hAdded s
    cases Option.some.inj (hColumn.symm.trans hSame)
    cases Option.some.inj (hRun.symm.trans hExecute)
    split
    · assumption
    · exact List.mem_append_right _ List.mem_cons_self
  · intro stmt hStmt s hHolds
    obtain ⟨added, hAdded⟩ := hEffect stmt hStmt
    obtain ⟨hSame, hRun⟩ := hAdded s
    rw [hRun, if_pos (hHolds added hSame)]
  · intro stmt _ other hOther s t hHolds hExecute column hColumn
    obtain ⟨added, hAdded⟩ := hEffect other hOther
    cases Option.some.inj ((hAdded s).2.symm.trans hExecute)
    split
    · exact hHolds column hColumn
    · exact List.mem_append_left _ (hHolds column hColumn)

/-- A migration that adds two columns. -/
def cardTime : File where
  name := "016_card.sql"
  sql := "-- a; b
ALTER TABLE m ADD COLUMN s INTEGER;
ALTER TABLE h ADD COLUMN g FLOAT;
"

/-- A directory with this file and one for the other kind of database. -/
def twoFiles : Directory where
  files := [⟨"015_i.mysql.sql", "CREATE INDEX i ON t (c);"⟩, cardTime]
  namesNodup := by decide +kernel

theorem pending_twoFiles : pending columns twoFiles [] = [cardTime] := by decide +kernel

theorem repeatable_twoFiles : Repeatable columns twoFiles ⟨[], []⟩ := by
  intro f hf
  rw [pending_twoFiles] at hf
  cases List.mem_singleton.mp hf
  exact lasting_columns (by decide +kernel)

/-- The run is stopped after the first statement, which the database has kept, and started again. -/
def cutOnce : List Action :=
  [.start, .next, .next, .next, .stop 0, .start, .next, .next, .next, .next, .next, .next, .next]

theorem returned_cutOnce : ∃ w, Reach (step columns twoFiles) (Resting ⟨[], []⟩) Always w ∧
    w.phase = .returned :=
  Reach.exists_of_exec cutOnce (rfl : Resting ⟨[], []⟩ ⟨⟨[], []⟩, [], .idle, []⟩) (by decide +kernel)

theorem recorded_of_run_cutOnce :
    ∃ w : World (List Text), w.phase = .returned ∧ w.db.recorded = ["016_card.sql"] := by
  obtain ⟨w, hReach, hReturned⟩ := returned_cutOnce
  have hAll := (recorded_of_run hReach).2.2.1 hReturned
  rw [pending_twoFiles] at hAll
  exact ⟨w, hReturned, hAll⟩

theorem schema_of_run_cutOnce :
    ∃ w : World (List Text), w.phase = .returned ∧
      w.db.schema = ["m.s", "h.g"] := by
  obtain ⟨w, hReach, hReturned⟩ := returned_cutOnce
  exact ⟨w, hReturned, (schema_of_run repeatable_twoFiles (by decide +kernel) hReach).1 hReturned⟩

end GpuMon.Migrations
