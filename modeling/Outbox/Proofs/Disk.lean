import Outbox.Disk
import Outbox.Proofs.Lists

namespace Outbox

/-!
# Stores on a disk

What is on a disk while a store is open, and what opening it again finds:

* `Disk.Grows` — everything is still there, and directories are still directories; so paths lead
  to where they led (`follow_mono`).
* `Disk.CanMake`, `Disk.create_eq_ok` — what making a directory needs, and what it does.
* `Disk.createAll_eq_ok` — a directory that has been made is there.
* `Disk.Holds` — the files of a store, with the entries that are committed in them.
* `holds_of_openStore`, `Holds.save`, `Holds.reopen` — opening a store makes its files, a commit
  keeps them up, and opening the store again finds what was committed last.
-/

namespace Disk

variable {d d' : Disk} {p q dir place : Path} {names : List String} {n : Node}

/-! ### Nodes -/

/-- What is set is found at its place, where that is not the root; the rest stays. -/
theorem node?_set (d : Disk) (p q : Path) (n : Node) : (d.set p n).node? q =
    if q = [] ∨ q = ["/"] then some .directory else if q = p then some n else d.node? q := by
  unfold node? set
  split
  · rfl
  · by_cases hq : q = p
    · simp [hq]
    · have hqp : (q == p) = false := by simpa using hq
      rw [List.lookup_cons, hqp, if_neg hq, ← lookup_filter_ne d.nodes hq]

/-- Anything but a directory may be replaced. -/
theorem node?_set_self (h : d.node? p ≠ some .directory) : (d.set p n).node? p = some n := by
  have hroot : ¬(p = [] ∨ p = ["/"]) := fun hroot => h (by rw [node?, if_pos hroot])
  rw [node?_set, if_neg hroot, if_pos rfl]

/-- Everywhere else nothing has changed. -/
theorem node?_set_of_ne (h : q ≠ p) : (d.set p n).node? q = d.node? q := by
  rw [node?_set, if_neg h]
  split
  · next hroot => rw [node?, if_pos hroot]
  · rfl

/-- What is there stays there, and directories stay directories. -/
structure Grows (d d' : Disk) : Prop where
  isSome : ∀ {p : Path}, (d.node? p).isSome = true → (d'.node? p).isSome = true
  directory : ∀ {p : Path}, d.node? p = some .directory → d'.node? p = some .directory

/-- A disk grows to itself. -/
theorem Grows.refl (d : Disk) : Grows d d := ⟨id, id⟩

/-- What grows in two steps grows. -/
theorem Grows.trans {d'' : Disk} (h : Grows d d') (h' : Grows d' d'') : Grows d d'' :=
  ⟨fun hp => h'.isSome (h.isSome hp), fun hp => h'.directory (h.directory hp)⟩

/-- Setting anything where no directory is makes a disk grow. -/
theorem grows_set (h : d.node? p ≠ some .directory) (n : Node) : Grows d (d.set p n) := by
  refine ⟨fun {q} hq => ?_, fun {q} hq => ?_⟩
  · by_cases hqp : q = p
    · rw [node?_set]
      simp only [hqp, if_true]
      split <;> rfl
    · rwa [node?_set_of_ne hqp]
  · have hqp : q ≠ p := by
      rintro rfl
      exact h hq
    rwa [node?_set_of_ne hqp]

/-! ### Paths -/

/-- Where a name leads from a directory. -/
inductive Enters (d : Disk) (dir : Path) : String → Path → Prop
  | here : Enters d dir "." dir
  | up : Enters d dir ".." dir.dropLast
  | down {name : String} (plain : ¬(name = "." ∨ name = ".."))
      (short : ¬Path.maxNameSize < name.utf8ByteSize)
      (there : (d.node? (dir ++ [name])).isSome = true) : Enters d dir name (dir ++ [name])

/-- A path is followed by entering its first directory, and following the rest from there. -/
theorem follow_cons_iff {name : String} :
    d.follow dir (name :: names) = .ok place ↔
      d.node? dir = some .directory ∧
        ∃ next, Enters d dir name next ∧ d.follow next names = .ok place := by
  constructor
  · intro h
    unfold follow at h
    split at h
    · cases h
    · next hdir =>
      refine ⟨hdir, ?_⟩
      split at h
      · next hname => subst hname; exact ⟨_, .here, h⟩
      · next hname =>
        split at h
        · next hup => subst hup; exact ⟨_, .up, h⟩
        · next hup =>
          split at h
          · cases h
          · next hshort =>
            split at h
            · cases h
            · next hthere =>
              have hthere : (d.node? (dir ++ [name])).isSome = true := by
                rwa [Option.isNone_iff_eq_none, ← ne_eq, ← Option.isSome_iff_ne_none] at hthere
              exact ⟨_, .down (by simp [hname, hup]) hshort hthere, h⟩
    · cases h
  · rintro ⟨hdir, next, henters, h⟩
    unfold follow
    simp only [hdir]
    cases henters with
    | here => exact h
    | up => exact h
    | down plain short there =>
      obtain ⟨hdot, hdots⟩ := not_or.1 plain
      rw [if_neg hdot, if_neg hdots, if_neg short, Option.isNone_eq_false_iff.2 there]
      exact h

/-- A path is followed part by part. -/
theorem follow_append_iff {names' : List String} :
    d.follow dir (names ++ names') = .ok place ↔
      ∃ next, d.follow dir names = .ok next ∧ d.follow next names' = .ok place := by
  induction names generalizing dir with
  | nil => simp [follow]
  | cons name names ih =>
    simp only [List.cons_append, follow_cons_iff, ih]
    constructor
    · rintro ⟨hdir, next, henters, last, hlast, h⟩
      exact ⟨last, ⟨hdir, next, henters, hlast⟩, h⟩
    · rintro ⟨last, ⟨hdir, next, henters, hlast⟩, h⟩
      exact ⟨hdir, next, henters, last, hlast, h⟩

/-- On a disk that has grown, a path leads to where it led. -/
theorem follow_mono (h : Grows d d') (hf : d.follow dir names = .ok place) :
    d'.follow dir names = .ok place := by
  induction names generalizing dir with
  | nil => exact hf
  | cons name names ih =>
    obtain ⟨hdir, next, henters, hf⟩ := follow_cons_iff.1 hf
    refine follow_cons_iff.2 ⟨h.directory hdir, next, ?_, ih hf⟩
    cases henters with
    | here => exact .here
    | up => exact .up
    | down plain short there => exact .down plain short (h.isSome there)

/-- A path is that of a directory when it leads to one. -/
theorem isDirectory_iff :
    d.isDirectory p = true ↔ ∃ dir, d.follow [] p = .ok dir ∧ d.node? dir = some .directory := by
  unfold isDirectory lookup?
  cases d.follow [] p <;> simp

/-! ### Making directories -/

/-- A directory of a name that can be made in another one, at the end of a path. -/
structure CanMake (d : Disk) (p dir : Path) (name : String) : Prop where
  path : p = p.dropLast ++ [name]
  parent : d.follow [] p.dropLast = .ok dir
  directory : d.node? dir = some .directory
  plain : ¬(name = "." ∨ name = "..")
  short : ¬Path.maxNameSize < name.utf8ByteSize
  free : d.node? (dir ++ [name]) = none

/-- What making a directory has found, and what it has done. -/
theorem create_eq_ok (h : d.create p = .ok d') :
    ∃ dir name, d.CanMake p dir name ∧ d' = d.set (dir ++ [name]) .directory := by
  unfold create at h
  split at h
  · cases h
  rename_i name hlast
  cases hdir : d.follow [] p.dropLast with
  | error e =>
    rw [hdir] at h
    cases h
  | ok dir =>
    simp only [hdir, bind, Except.bind, pure, Except.pure, throw, throwThe,
      MonadExceptOf.throw] at h
    -- each check that does not hold ends with an error
    by_cases hnode : d.node? dir = some .directory
    case neg => simp [hnode] at h
    by_cases hplain : name = "." ∨ name = ".."
    case pos => simp [hnode, hplain] at h
    by_cases hshort : Path.maxNameSize < name.utf8ByteSize
    case pos => simp [hnode, hplain, hshort] at h
    by_cases hfree : (d.node? (dir ++ [name])).isSome = true
    case pos => simp [hnode, hplain, hshort, hfree] at h
    simp only [hnode, hplain, hshort, hfree, ne_eq, not_true_eq_false, if_false,
      Bool.false_eq_true, Except.ok.injEq] at h
    have hpath : p = p.dropLast ++ [name] := (List.dropLast_append_getLast? name hlast).symm
    exact ⟨dir, name, ⟨hpath, hdir, hnode, hplain, hshort, by simpa using hfree⟩, h.symm⟩

/-- What has been created is a directory. -/
theorem isDirectory_create (h : d.create p = .ok d') : d'.isDirectory p = true := by
  obtain ⟨dir, name, hmake, rfl⟩ := create_eq_ok h
  have hfree : d.node? (dir ++ [name]) ≠ some .directory := by simp [hmake.free]
  have hgrows : Grows d (d.set (dir ++ [name]) .directory) := grows_set hfree _
  have hthere : (d.set (dir ++ [name]) .directory).node? (dir ++ [name]) = some .directory :=
    node?_set_self hfree
  rw [isDirectory_iff]
  refine ⟨dir ++ [name], ?_, hthere⟩
  -- the path leads to the directory above, and from there to the new one
  rw [hmake.path]
  refine follow_append_iff.2 ⟨dir, follow_mono hgrows hmake.parent, ?_⟩
  have henters : Enters (d.set (dir ++ [name]) .directory) dir name (dir ++ [name]) :=
    .down hmake.plain hmake.short (by simp [hthere])
  exact follow_cons_iff.2 ⟨hgrows.directory hmake.directory, _, henters, rfl⟩

/-- A directory that is there is not made again. -/
theorem ensure_of_isDirectory (h : d.isDirectory p = true) : d.ensure p = (d, .ok ()) := by
  unfold ensure
  cases hc : d.create p with
  | error e => simp [h]
  | ok d' =>
    -- there would have to be nothing at the place that the path leads to
    obtain ⟨dir, name, hmake, rfl⟩ := create_eq_ok hc
    obtain ⟨place, hplace, -⟩ := isDirectory_iff.1 h
    rw [hmake.path, follow_append_iff] at hplace
    obtain ⟨next, hnext, hlast⟩ := hplace
    obtain rfl : dir = next := Except.ok.inj (hmake.parent.symm.trans hnext)
    obtain ⟨-, last, henters, -⟩ := follow_cons_iff.1 hlast
    have hplain := hmake.plain
    cases henters with
    | here | up => simp at hplain
    | down _ _ there => simp [hmake.free] at there

/-- What has been ensured is a directory. -/
theorem isDirectory_ensure (h : d.ensure p = (d', .ok ())) : d'.isDirectory p = true := by
  unfold ensure at h
  split at h
  · next d₁ hc =>
    cases h
    exact isDirectory_create hc
  · split at h
    · next hdir => cases h; exact hdir
    · cases h

/-- When all directories up to some depth have been created, the path leads to one. -/
theorem isDirectory_createUpTo {depth : Nat} (h : d.createUpTo p depth = (d', .ok ())) :
    d'.isDirectory p = true := by
  cases depth with
  | zero => cases h
  | succ depth =>
    unfold createUpTo at h
    split at h
    · next d₁ he => cases h; exact isDirectory_ensure he
    · split at h
      · split at h
        · exact isDirectory_ensure h
        · cases h
      · cases h

/-- A directory that has been made is there. -/
theorem createAll_eq_ok {path : String} (h : d.createAll path = (d', .ok ())) :
    path.toList.contains '\x00' = false ∧ d'.isDirectory (Path.ofString path) = true := by
  unfold createAll at h
  split at h
  · cases h
  · next hnul =>
    split at h
    · cases h
    · dsimp only at h
      split at h
      · next d₁ hc => cases h; exact ⟨by simpa using hnul, isDirectory_createUpTo hc⟩
      · cases h

/-- A directory that is there is not made again. -/
theorem createAll_of_isDirectory {path : String} (hnul : path.toList.contains '\x00' = false)
    (hsize : ¬Path.maxSize ≤ path.utf8ByteSize) (h : d.isDirectory (Path.ofString path) = true) :
    d.createAll path = (d, .ok ()) := by
  simp only [createAll, hnul, hsize, createUpTo, ensure_of_isDirectory h, if_false,
    Bool.false_eq_true]

/-! ### The files of a store -/

/-- Whether a store of a configuration can be opened where its files can be. -/
structure Admits (c : StoreConfig) : Prop where
  path : c.dataDir.toList.contains '\x00' = false
  pathSize : ¬Path.maxSize ≤ c.dataDir.utf8ByteSize + 1 + lockFileName.utf8ByteSize
  readers : c.maxReaders ≠ 0
  name : c.name.toList.contains '\x00' = false
  nameSize : ¬(c.name = "" ∨ Store.maxKeySize < c.name.utf8ByteSize)

variable {c : StoreConfig} {home : Home} {room size : Nat} {t : Table} {f g : DataFile}

/-- The files in the directory of a store that was opened with a size, where values have some
    room. -/
structure HasFiles (d : Disk) (dir : Path) (size room : Nat) (f : DataFile) : Prop where
  lock : ∃ n, d.node? (dir ++ [lockFileName]) = some n ∧ n ≠ .directory
  data : d.node? (dir ++ [dataFileName]) = some (.data f)
  room : room = if size = 0 then f.mapSize else size

/-- The files of a store, with the entries that are committed in them. -/
structure Holds (d : Disk) (c : StoreConfig) (home : Home) (room : Nat) (t : Table) : Prop where
  admits : Admits c
  database : home.database = c.name
  path : d.follow [] (Path.ofString c.dataDir) = .ok home.directory
  directory : d.node? home.directory = some .directory
  files : ∃ f, d.HasFiles home.directory c.mapSize.toNat room f ∧
    f.table? home.database = some t

/-- A data file is found by its place in the directory. -/
theorem dataFile?_eq_some (h : d.node? (dir ++ [dataFileName]) = some (.data f)) :
    d.dataFile? dir = some f := by
  unfold dataFile?
  rw [h]

/-- The table of a store is found in its data file. -/
theorem table?_eq (h : d.node? (home.directory ++ [dataFileName]) = some (.data f)) :
    d.table? home = f.table? home.database := by
  unfold table?
  rw [dataFile?_eq_some h]
  rfl

/-- The table that is set under a name is found there. -/
theorem table?_setTable (f : DataFile) (name : String) (t : Table) :
    (f.setTable name t).table? name = some t := by
  simp [DataFile.setTable, DataFile.table?]

/-- Saving a table writes the data file of its directory. -/
theorem HasFiles.save_eq (h : d.HasFiles home.directory size room f) (t : Table) :
    d.save home t =
      d.set (home.directory ++ [dataFileName]) (.data (f.setTable home.database t)) := by
  unfold save
  rw [dataFile?_eq_some h.data]

/-- A data file takes the place of whatever file there is under its name. -/
theorem hasFiles_set (hlock : ∃ n, d.node? (dir ++ [lockFileName]) = some n ∧ n ≠ .directory)
    (hfile : d.node? (dir ++ [dataFileName]) ≠ some .directory)
    (hroom : room = if size = 0 then g.mapSize else size) :
    Grows d (d.set (dir ++ [dataFileName]) (.data g)) ∧
      (d.set (dir ++ [dataFileName]) (.data g)).HasFiles dir size room g := by
  have hne : dir ++ [lockFileName] ≠ dir ++ [dataFileName] := by
    simp [lockFileName, dataFileName]
  exact ⟨grows_set hfile _, by rwa [node?_set_of_ne hne], node?_set_self hfile, hroom⟩

/-- A commit makes a table the committed entries. -/
theorem HasFiles.holds_save (hf : d.HasFiles home.directory c.mapSize.toNat room f)
    (admits : Admits c) (database : home.database = c.name)
    (hpath : d.follow [] (Path.ofString c.dataDir) = .ok home.directory)
    (hdir : d.node? home.directory = some .directory) (t : Table) :
    (d.save home t).Holds c home room t := by
  have hroom : room = if c.mapSize.toNat = 0
      then (f.setTable home.database t).mapSize else c.mapSize.toNat := hf.room
  rw [hf.save_eq]
  obtain ⟨hgrows, hfiles⟩ := hasFiles_set hf.lock (by simp [hf.data]) hroom
  exact ⟨admits, database, follow_mono hgrows hpath, hgrows.directory hdir, _, hfiles,
    table?_setTable f home.database t⟩

/-- A commit keeps the files up. -/
theorem Holds.save (h : d.Holds c home room t) (t' : Table) :
    (d.save home t').Holds c home room t' := by
  obtain ⟨f, hf, -⟩ := h.files
  exact hf.holds_save h.admits h.database h.path h.directory t'

/-! ### Opening a store -/

/-- The lock file is made unless it is there. -/
theorem grows_lock (hlock : d.node? p ≠ some .directory) :
    Grows d (if (d.node? p).isNone = true then d.write p [] else d) ∧
      ∃ n, (if (d.node? p).isNone = true then d.write p [] else d).node? p = some n ∧
        n ≠ .directory := by
  cases hp : d.node? p with
  | none => exact ⟨grows_set hlock _, _, node?_set_self hlock, by simp⟩
  | some n => exact ⟨.refl d, n, hp, fun hdir => hlock (hdir ▸ hp)⟩

/-- Where no size is asked for, a new file has the one that values are limited by. -/
theorem room_of_new (size : Nat) :
    (if size = 0 then DataFile.defaultMapSize else size) =
      if size = 0 then (⟨[], if size = 0 then DataFile.defaultMapSize else size⟩ : DataFile).mapSize
      else size := by
  split <;> rfl

/-- What opening the files of a store leaves on the disk. -/
theorem hasFiles_of_openFiles (h : d.openFiles dir size = (d', .ok room)) :
    Grows d d' ∧ ∃ f, d'.HasFiles dir size room f := by
  unfold openFiles at h
  dsimp only at h
  split at h
  · cases h
  · next hlock =>
    obtain ⟨hgrows, hlock'⟩ := grows_lock hlock
    generalize (if (d.node? (dir ++ [lockFileName])).isNone = true
      then d.write (dir ++ [lockFileName]) [] else d) = d₁ at h hgrows hlock'
    -- whatever stands at the place of the data file, a data file does so afterwards
    split at h
    · cases h
    · cases h
    · next f hdata =>
      cases h
      have hroom : (if size = 0 then f.mapSize else size) =
          if size = 0 then max f.mapSize size else size := by
        split
        · next hzero => rw [hzero, Nat.max_zero]
        · rfl
      obtain ⟨hgrows', hfiles⟩ := hasFiles_set (g := { f with mapSize := max f.mapSize size })
        hlock' (by simp [hdata]) hroom
      exact ⟨hgrows.trans hgrows', _, hfiles⟩
    · next hdata =>
      cases h
      obtain ⟨hgrows', hfiles⟩ := hasFiles_set hlock' (by simp [hdata]) (room_of_new size)
      exact ⟨hgrows.trans hgrows', _, hfiles⟩
    · next hdata =>
      cases h
      obtain ⟨hgrows', hfiles⟩ := hasFiles_set hlock' (by simp [hdata]) (room_of_new size)
      exact ⟨hgrows.trans hgrows', _, hfiles⟩

/-- The files of a store that are there can be opened again. -/
theorem HasFiles.openFiles (h : d.HasFiles dir size room f) :
    d.openFiles dir size =
      (d.set (dir ++ [dataFileName]) (.data { f with mapSize := max f.mapSize size }),
        .ok room) := by
  obtain ⟨n, hn, hnd⟩ := h.lock
  have hlock : (some n = some Node.directory) = False := by simpa using hnd
  simp only [Disk.openFiles, hn, hlock, if_false, Option.isNone_some, Bool.false_eq_true, h.data,
    h.room]

/-- What opening a store has found, and what it leaves on the disk. -/
theorem holds_of_openStore {s : Store} (h : d.openStore c = (d', .ok (home, s))) :
    d'.Holds c home s.mapSize s.table ∧ s = Store.ofTable s.table s.mapSize := by
  unfold openStore at h
  dsimp only at h
  split at h
  · cases h
  rename_i d₁ hcreate
  split at h
  · cases h
  rename_i hreaders
  split at h
  · cases h
  rename_i hpath
  split at h
  · cases h
  rename_i dir hfollow
  split at h
  · cases h
  rename_i d₂ room hopen
  split at h
  · cases h
  rename_i hname
  split at h
  · cases h
  rename_i hsize
  cases h
  obtain ⟨hnul, hisdir⟩ := createAll_eq_ok hcreate
  obtain ⟨place, hplace, hdir⟩ := isDirectory_iff.1 hisdir
  obtain rfl : place = dir := Except.ok.inj (hplace.symm.trans hfollow)
  obtain ⟨hgrows, f, hfiles⟩ := hasFiles_of_openFiles hopen
  have hadmits : Admits c := ⟨hnul, hpath, hreaders, by simpa using hname, hsize⟩
  have hfiles : d₂.HasFiles (⟨place, c.name⟩ : Home).directory c.mapSize.toNat room f := hfiles
  exact ⟨hfiles.holds_save hadmits rfl (follow_mono hgrows hfollow) (hgrows.directory hdir) _, rfl⟩

/-- A store whose files are there can be opened again, and has the entries that were committed
    last. -/
theorem Holds.reopen (h : d.Holds c home room t) :
    ∃ d', d.openStore c = (d', .ok (home, Store.ofTable t room)) := by
  obtain ⟨f, hf, htable⟩ := h.files
  obtain ⟨hnul, hsize, hreaders, hname, hnameSize⟩ := h.admits
  have hisdir : d.isDirectory (Path.ofString c.dataDir) = true :=
    isDirectory_iff.2 ⟨_, h.path, h.directory⟩
  have hcreate : d.createAll c.dataDir = (d, .ok ()) :=
    createAll_of_isDirectory hnul (by omega) hisdir
  have hhome : (⟨home.directory, c.name⟩ : Home) = home := by rw [← h.database]
  -- the file that has been opened again has the same tables
  have hdata := node?_set_self (d := d) (p := home.directory ++ [dataFileName])
    (n := .data { f with mapSize := max f.mapSize c.mapSize.toNat }) (by simp [hf.data])
  have htable' := (table?_eq hdata).trans htable
  unfold openStore
  simp only [hcreate, hreaders, hsize, h.path, hf.openFiles, hname, hnameSize, if_false,
    Bool.false_eq_true, hhome, htable', Option.getD_some]
  exact ⟨_, rfl⟩

end Disk

end Outbox
