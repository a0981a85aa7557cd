import TestConversion.Proofs.Files.Paths

/-!
# Changes of file systems

Writing a file and creating directories take nothing away from the directories that are there, so
a path that could be followed before can be followed after. Creating the same directories a second
time comes to the same end and changes nothing.

* `write_eq_ok`: what writing a file does, and when it can be done.
* `created_createDirectories`: only missing directories on the way are added.
* `createDirectories_again`, `createDirectories_fails_again`: a second time nothing changes.
-/

namespace TestConversion.Files

namespace FileSystem

/-! ## Keeping directories -/

/-- What was a directory is one still. -/
structure KeepsDirectories (fs fs' : FileSystem) : Prop where
  workingDirectory : fs'.workingDirectory = fs.workingDirectory
  directory : ∀ l, fs.at? l = some .directory → fs'.at? l = some .directory

namespace KeepsDirectories

variable {fs fs' fs'' : FileSystem}

theorem refl (fs : FileSystem) : KeepsDirectories fs fs := ⟨rfl, fun _ h => h⟩

theorem trans (h : KeepsDirectories fs fs') (h' : KeepsDirectories fs' fs'') :
    KeepsDirectories fs fs'' :=
  ⟨h'.workingDirectory.trans h.workingDirectory, fun l hl => h'.directory l (h.directory l hl)⟩

theorem step_eq_ok (h : KeepsDirectories fs fs') {l k : Location} {n : String}
    (hk : fs.step l n = .ok k) : fs'.step l n = .ok k := by
  have hl := at?_of_step hk
  rw [step_of_directory hl] at hk
  rw [step_of_directory (h.directory l hl), hk]

theorem foldlM_eq_ok (h : KeepsDirectories fs fs') {ps : List String} {l k : Location}
    (hk : ps.foldlM fs.step l = .ok k) : ps.foldlM fs'.step l = .ok k := by
  induction ps generalizing l with
  | nil => exact hk
  | cons p ps ih =>
    rw [List.foldlM_cons] at hk ⊢
    obtain ⟨m, hm, hrest⟩ := exists_of_bind_eq_ok hk
    rw [h.step_eq_ok hm]
    exact ih hrest

/-- A path that could be followed leads where it did. -/
theorem locate_eq_ok (h : KeepsDirectories fs fs') {path : String} {l : Location}
    (hl : fs.locate path = .ok l) : fs'.locate path = .ok l := by
  have hne : path ≠ "" := by
    rintro rfl
    cases hl
  have ho : fs'.origin path = fs.origin path := by rw [origin, origin, h.workingDirectory]
  rw [locate_of_ne hne] at hl ⊢
  rw [ho]
  exact h.foldlM_eq_ok hl

theorem isDirectory (h : KeepsDirectories fs fs') {path : String}
    (hp : fs.isDirectory path = true) : fs'.isDirectory path = true := by
  obtain ⟨l, hl, hd⟩ := isDirectory_iff.mp hp
  exact isDirectory_iff.mpr ⟨l, h.locate_eq_ok hl, h.directory l hd⟩

end KeepsDirectories

/-- A file that may not be opened is at the location. -/
def IsSealed (fs : FileSystem) (l : Location) : Prop :=
  ∃ content, fs.at? l = some (.file content) ∧ content.isSealed = true

theorem isSealed_iff {fs : FileSystem} {l : Location} {content : Content}
    (h : fs.at? l = some (.file content)) : fs.IsSealed l ↔ content.isSealed = true := by
  simp [IsSealed, h]

/-- Two file systems with the same directories and the same files that may not be opened, so that
the same paths can be written to. -/
structure SameAccess (fs fs' : FileSystem) : Prop where
  keeps : KeepsDirectories fs fs'
  kept : KeepsDirectories fs' fs
  sealed_iff : ∀ l, fs.IsSealed l ↔ fs'.IsSealed l

theorem SameAccess.refl (fs : FileSystem) : SameAccess fs fs :=
  ⟨.refl fs, .refl fs, fun _ => Iff.rfl⟩

theorem SameAccess.trans {fs fs' fs'' : FileSystem} (h : SameAccess fs fs')
    (h' : SameAccess fs' fs'') : SameAccess fs fs'' :=
  ⟨h.keeps.trans h'.keeps, h'.kept.trans h.kept,
    fun l => (h.sealed_iff l).trans (h'.sealed_iff l)⟩

theorem SameAccess.symm {fs fs' : FileSystem} (h : SameAccess fs fs') : SameAccess fs' fs :=
  ⟨h.kept, h.keeps, fun l => (h.sealed_iff l).symm⟩

variable {fs fs' : FileSystem}

theorem keepsDirectories_set {l : Location} (hl : fs.at? l = none) :
    KeepsDirectories fs (fs.set l .directory) := by
  refine ⟨rfl, fun k hk => ?_⟩
  rw [at?_set_of_ne]
  · exact hk
  · rintro rfl
    simp [hk] at hl

/-- A file in the place of neither a directory nor a sealed file leaves these as they are. -/
theorem sameAccess_set {l : Location} (hd : fs.at? l ≠ some .directory) (hs : ¬ fs.IsSealed l)
    (content : ByteArray) : SameAccess fs (fs.set l (.file content)) := by
  have hne : l ≠ [] := fun e => hd (by rw [e]; rfl)
  have hd' : ∀ k, fs.at? k = some .directory ↔
      (fs.set l (.file content)).at? k = some .directory := by
    intro k
    by_cases h : k = l
    · simp [h, at?_set fs _ hne, hd]
    · rw [at?_set_of_ne fs _ h]
  refine ⟨⟨rfl, fun k => (hd' k).mp⟩, ⟨rfl, fun k => (hd' k).mpr⟩, fun k => ?_⟩
  by_cases h : k = l
  · rw [h]
    refine iff_of_false hs ?_
    simp [IsSealed, at?_set fs _ hne]
  · rw [IsSealed, IsSealed, at?_set_of_ne fs _ h]

/-! ## Writing -/

theorem locateNew_eq_ok {path : String} {l : Location} :
    fs.locateNew path = .ok l ↔ fs.locate path = .ok l := by
  unfold locateNew
  split
  · rename_i h
    rw [h]
  · rename_i h
    rw [h]
    split
    · split <;> simp
    · simp

/-- Writing puts a file where the path leads, unless a directory or a sealed file is there. -/
theorem write_eq_ok {path : String} {content : ByteArray} :
    fs.write path content = .ok fs' ↔
      ∃ l, fs.locate path = .ok l ∧ fs.at? l ≠ some .directory ∧ ¬ fs.IsSealed l ∧
        fs' = fs.set l (.file content) := by
  constructor
  · intro h
    unfold write at h
    split at h
    · cases h
    rename_i l hl
    have hl := locateNew_eq_ok.mp hl
    split at h
    · cases h
    · rename_i old hold
      split at h
      · cases h
      · rename_i hs
        cases h
        exact ⟨l, hl, by simp [hold], mt (isSealed_iff hold).mp hs, rfl⟩
    · rename_i hnone
      cases h
      exact ⟨l, hl, by simp [hnone], by simp [IsSealed, hnone], rfl⟩
  · rintro ⟨l, hl, hd, hs, rfl⟩
    simp only [write, locateNew_eq_ok.mpr hl]
    cases hat : fs.at? l with
    | none => rfl
    | some e =>
      cases e with
      | directory => exact absurd hat hd
      | file old => exact if_neg (mt (isSealed_iff hat).mpr hs)

theorem read_eq_ok {path : String} {content : ByteArray} :
    fs.read path = .ok content ↔ ∃ l, fs.locate path = .ok l ∧ fs.at? l = some (.file content) := by
  constructor
  · intro h
    unfold read at h
    split at h
    · cases h
    · rename_i l hl
      split at h
      · rename_i old hold
        split at h
        · cases h
        · rename_i hs
          have hs : old.isSealed = false := by simpa using hs
          cases h
          exact ⟨l, hl, by rw [hold, ← hs]⟩
      · cases h
      · cases h
  · rintro ⟨l, hl, hc⟩
    simp [read, hl, hc]

theorem SameAccess.locate_iff (h : SameAccess fs fs') {path : String} {l : Location} :
    fs.locate path = .ok l ↔ fs'.locate path = .ok l :=
  ⟨h.keeps.locate_eq_ok, h.kept.locate_eq_ok⟩

/-- What can be written in one of two file systems can be written in the other. -/
theorem SameAccess.exists_write (h : SameAccess fs fs') {path : String}
    {content : ByteArray} (hw : ∃ s, fs.write path content = .ok s) (content' : ByteArray) :
    ∃ s, fs'.write path content' = .ok s := by
  obtain ⟨s, hs⟩ := hw
  obtain ⟨l, hl, hd, hsealed, -⟩ := write_eq_ok.mp hs
  have hd' : fs'.at? l ≠ some .directory := fun e => hd (h.kept.directory l e)
  have hsealed' : ¬ fs'.IsSealed l := mt (h.sealed_iff l).mpr hsealed
  exact ⟨_, write_eq_ok.mpr ⟨l, h.locate_iff.mp hl, hd', hsealed', rfl⟩⟩

/-! ## Creating directories -/

theorem createDirectory_eq_ok {path : String} :
    fs.createDirectory path = .ok fs' ↔
      ∃ l, fs.locate path = .ok l ∧ fs.at? l = none ∧ fs' = fs.set l .directory := by
  constructor
  · intro h
    unfold createDirectory at h
    split at h
    · cases h
    · rename_i l hl
      split at h
      · cases h
      · rename_i hn
        cases h
        exact ⟨l, hl, hn, rfl⟩
  · rintro ⟨l, hl, hn, rfl⟩
    simp [createDirectory, hl, hn]

/-- What creating directories of some paths changes: where nothing was, there can be one of them. -/
structure Created (paths : List String) (fs fs' : FileSystem) : Prop where
  keeps : KeepsDirectories fs fs'
  changed : ∀ l, fs'.at? l ≠ fs.at? l →
    fs.at? l = none ∧ fs'.at? l = some .directory ∧ ∃ p ∈ paths, fs'.locate p = .ok l

namespace Created

variable {fs'' : FileSystem} {paths : List String}

theorem refl (paths : List String) (fs : FileSystem) : Created paths fs fs :=
  ⟨.refl fs, fun _ h => absurd rfl h⟩

theorem mono {paths' : List String} (h : Created paths fs fs') (hp : ∀ p ∈ paths, p ∈ paths') :
    Created paths' fs fs' := by
  refine ⟨h.keeps, fun l hl => ?_⟩
  obtain ⟨h₀, h₁, p, hmem, hloc⟩ := h.changed l hl
  exact ⟨h₀, h₁, p, hp p hmem, hloc⟩

theorem trans (h : Created paths fs fs') (h' : Created paths fs' fs'') :
    Created paths fs fs'' := by
  refine ⟨h.keeps.trans h'.keeps, fun l hl => ?_⟩
  by_cases hfirst : fs'.at? l = fs.at? l
  · obtain ⟨h₀, h₁, hp⟩ := h'.changed l (by rwa [hfirst])
    exact ⟨hfirst ▸ h₀, h₁, hp⟩
  · obtain ⟨h₀, h₁, p, hmem, hloc⟩ := h.changed l hfirst
    exact ⟨h₀, h'.keeps.directory l h₁, p, hmem, h'.keeps.locate_eq_ok hloc⟩

theorem of_createDirectory {path : String} (h : fs.createDirectory path = .ok fs') :
    Created [path] fs fs' := by
  obtain ⟨l, hl, hn, rfl⟩ := createDirectory_eq_ok.mp h
  have hkeep := keepsDirectories_set hn
  refine ⟨hkeep, fun k hk => ?_⟩
  obtain rfl : k = l := by
    by_contra hne
    exact hk (at?_set_of_ne fs _ hne)
  have hne : k ≠ [] := by
    rintro rfl
    cases hn
  exact ⟨hn, at?_set fs _ hne, path, by simp, hkeep.locate_eq_ok hl⟩

end Created

theorem isDirectory_of_createDirectory {path : String} (h : fs.createDirectory path = .ok fs') :
    fs'.isDirectory path = true := by
  obtain ⟨l, hl, hn, rfl⟩ := createDirectory_eq_ok.mp h
  have hne : l ≠ [] := by
    rintro rfl
    cases hn
  exact isDirectory_iff.mpr ⟨l, (keepsDirectories_set hn).locate_eq_ok hl, at?_set fs _ hne⟩

/-- How the creation of a directory can go. -/
inductive CreationCase (fs : FileSystem) (path : String) (above : List String) :
    FileSystem × Option Fault → Prop where
  | there (h : fs.isDirectory path = true) : CreationCase fs path above (fs, none)
  | direct {fs' : FileSystem} (h : fs.createDirectory path = .ok fs') :
      CreationCase fs path above (fs', none)
  | refused {e : Fault} (hd : fs.isDirectory path = false)
      (h : fs.createDirectory path = .error e) (he : e ≠ .missing) :
      CreationCase fs path above (fs, some e)
  | noWay {fs' : FileSystem} {e : Fault} (h : fs.createAll above = (fs', some e)) :
      CreationCase fs path above (fs', some e)
  | onWay {fs' fs'' : FileSystem} (h : fs.createAll above = (fs', none))
      (h' : fs'.createDirectory path = .ok fs'') : CreationCase fs path above (fs'', none)
  | thereNow {fs' : FileSystem} (h : fs.createAll above = (fs', none))
      (h' : fs'.isDirectory path = true) : CreationCase fs path above (fs', none)
  | refusedNow {fs' : FileSystem} {e : Fault} (h : fs.createAll above = (fs', none))
      (hd : fs'.isDirectory path = false) (h' : fs'.createDirectory path = .error e) :
      CreationCase fs path above (fs', some e)

theorem creationCase (fs : FileSystem) (path : String) (above : List String) :
    CreationCase fs path above (fs.createAll (path :: above)) := by
  rw [createAll]
  by_cases hd : fs.isDirectory path = true
  · rw [if_pos hd]
    exact .there hd
  rw [if_neg hd]
  have hd : fs.isDirectory path = false := by simpa using hd
  cases h : fs.createDirectory path with
  | ok fs' => exact .direct h
  | error e =>
    by_cases he : e = .missing
    · subst he
      cases habove : fs.createAll above with
      | mk fs' fault =>
        cases fault with
        | some e => exact .noWay habove
        | none =>
          dsimp only
          cases h' : fs'.createDirectory path with
          | ok fs'' => exact .onWay habove h'
          | error e =>
            dsimp only
            split
            · rename_i hd'
              exact .thereNow habove hd'
            · rename_i hd'
              exact .refusedNow habove (by simpa using hd') h'
    · have : CreationCase fs path above (fs, some e) := .refused hd h he
      cases e <;> first | exact absurd rfl he | exact this

theorem created_createAll (fs : FileSystem) (paths : List String) :
    Created paths fs (fs.createAll paths).1 := by
  induction paths with
  | nil => exact .refl _ _
  | cons path above ih =>
    have hpath : ∀ p ∈ [path], p ∈ path :: above := by simp
    have habove : ∀ p ∈ above, p ∈ path :: above := by
      intro p hp
      exact List.mem_cons_of_mem _ hp
    cases hr : fs.createAll (path :: above) with
    | mk fs' fault =>
      have hcase := creationCase fs path above
      rw [hr] at hcase
      cases hcase with
      | there => exact .refl _ _
      | direct h => exact (Created.of_createDirectory h).mono hpath
      | refused => exact .refl _ _
      | noWay h => exact (h ▸ ih).mono habove
      | onWay h h' =>
        exact ((h ▸ ih).mono habove).trans ((Created.of_createDirectory h').mono hpath)
      | thereNow h => exact (h ▸ ih).mono habove
      | refusedNow h => exact (h ▸ ih).mono habove

theorem isDirectory_of_createAll {path : String} {above : List String}
    (hr : fs.createAll (path :: above) = (fs', none)) : fs'.isDirectory path = true := by
  have hcase := creationCase fs path above
  rw [hr] at hcase
  cases hcase with
  | there h => exact h
  | direct h => exact isDirectory_of_createDirectory h
  | onWay _ h' => exact isDirectory_of_createDirectory h'
  | thereNow _ h' => exact h'

theorem createAll_of_isDirectory {path : String} (h : fs.isDirectory path = true)
    (above : List String) : fs.createAll (path :: above) = (fs, none) := by
  simp [createAll, h]

/-- Directories that were created once need not be created again. -/
theorem createAll_again {paths : List String} (h : fs.createAll paths = (fs', none))
    {s : FileSystem} (hs : KeepsDirectories fs' s) : s.createAll paths = (s, none) := by
  cases paths with
  | nil => rfl
  | cons path above =>
    exact createAll_of_isDirectory (hs.isDirectory (isDirectory_of_createAll h)) above

/-- A directory that cannot be created is not, if nothing above it is created either. -/
theorem createAll_stays {path : String} {above : List String} (hd : fs.isDirectory path = false)
    (hn : ∀ fs', fs.createDirectory path ≠ .ok fs') (habove : (fs.createAll above).1 = fs) :
    ∃ e, fs.createAll (path :: above) = (fs, some e) := by
  cases hr : fs.createAll (path :: above) with
  | mk fs' fault =>
    have hcase := creationCase fs path above
    rw [hr] at hcase
    cases hcase with
    | there h => simp [hd] at h
    | direct h => exact absurd h (hn _)
    | refused => exact ⟨_, rfl⟩
    | noWay h =>
      obtain rfl : fs' = fs := by simpa [h] using habove
      exact ⟨_, rfl⟩
    | @onWay s _ h h' =>
      obtain rfl : s = fs := by simpa [h] using habove
      exact absurd h' (hn _)
    | thereNow h h' =>
      obtain rfl : fs' = fs := by simpa [h] using habove
      simp [h'] at hd
    | refusedNow h =>
      obtain rfl : fs' = fs := by simpa [h] using habove
      exact ⟨_, rfl⟩

/-- Where the way to a directory fails, it fails again at what was created before. -/
theorem createAll_fails_again {paths : List String} (hc : paths.IsChain LiesIn) {e : Fault}
    (hr : fs.createAll paths = (fs', some e)) : ∃ e', fs'.createAll paths = (fs', some e') := by
  induction paths generalizing fs' e with
  | nil => cases hr
  | cons path above ih =>
    obtain ⟨hhead, htail⟩ := List.isChain_cons.mp hc
    have hcase := creationCase fs path above
    rw [hr] at hcase
    cases hcase with
    | refused => exact ⟨e, hr⟩
    | noWay h =>
      obtain ⟨e', he'⟩ := ih htail h
      -- the first directory above is missing, so the path cannot be followed
      have hlost : ∀ l, fs'.locate path ≠ .ok l := by
        intro l hl
        cases above with
        | nil => cases he'
        | cons next rest =>
          have hnext : fs'.isDirectory next = true := hhead next rfl fs' l hl
          rw [createAll_of_isDirectory hnext] at he'
          cases he'
      refine createAll_stays ?_ ?_ (by rw [he'])
      · by_contra hd
        obtain ⟨l, hl, -⟩ := isDirectory_iff.mp (by simpa using hd)
        exact hlost l hl
      · intro s hs
        obtain ⟨l, hl, -⟩ := createDirectory_eq_ok.mp hs
        exact hlost l hl
    | refusedNow h hd hdir =>
      have hsame : fs'.createAll above = (fs', none) := createAll_again h (.refl fs')
      exact createAll_stays hd (by simp [hdir]) (by rw [hsame])

/-! ## Creating a directory with all above it -/

theorem created_createDirectories (fs : FileSystem) (path : String) :
    Created (ancestors (components path)) fs (fs.createDirectories path).1 :=
  created_createAll fs _

theorem createDirectories_again {path : String} (h : fs.createDirectories path = (fs', none))
    {s : FileSystem} (hs : KeepsDirectories fs' s) : s.createDirectories path = (s, none) :=
  createAll_again h hs

theorem createDirectories_fails_again {path : String} {e : Fault}
    (h : fs.createDirectories path = (fs', some e)) :
    ∃ e', fs'.createDirectories path = (fs', some e') :=
  createAll_fails_again (isChain_ancestors (proper_components path)) h

end FileSystem

end TestConversion.Files
