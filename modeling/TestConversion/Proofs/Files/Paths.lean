import Mathlib.Data.List.Chain
import Mathlib.Data.List.Induction
import TestConversion.Files.FileSystem

/-!
# Locations of paths

A name added to a path leads one step further than the path does. So the path of something can only
be followed if all above it are directories, and the last name of a path is the last one of its
location.

* `locate_join`: something in a directory is found from the location of the directory.
* `isDirectory_above`: what has a location lies in a directory.
* `getLast?_of_locate`: a location ends in the file name of its path.
-/

namespace TestConversion.Files

/-! ## Parts -/

theorem splitSlashFrom_append (part a b : List Char) :
    splitSlashFrom part (a ++ '/' :: b) = splitSlashFrom part a ++ splitSlash b := by
  induction a generalizing part with
  | nil => simp [splitSlashFrom, splitSlash]
  | cons c cs ih =>
    simp only [List.cons_append, splitSlashFrom]
    split
    · rw [ih, List.cons_append]
    · exact ih _

theorem splitSlash_append (a b : List Char) :
    splitSlash (a ++ '/' :: b) = splitSlash a ++ splitSlash b := splitSlashFrom_append [] a b

theorem splitSlashFrom_of_not_mem {cs : List Char} (h : '/' ∉ cs) (part : List Char) :
    splitSlashFrom part cs = [part.reverse ++ cs] := by
  induction cs generalizing part with
  | nil => simp [splitSlashFrom]
  | cons c cs ih =>
    have hc : c ≠ '/' := fun e => h (e ▸ List.mem_cons_self)
    have hcs : '/' ∉ cs := fun e => h (List.mem_cons_of_mem _ e)
    rw [splitSlashFrom, if_neg hc, ih hcs]
    simp

theorem splitSlash_of_not_mem {cs : List Char} (h : '/' ∉ cs) : splitSlash cs = [cs] :=
  splitSlashFrom_of_not_mem h []

theorem not_mem_of_mem_splitSlashFrom {part cs p : List Char} (hpart : '/' ∉ part)
    (h : p ∈ splitSlashFrom part cs) : '/' ∉ p := by
  induction cs generalizing part with
  | nil =>
    have : p = part.reverse := by simpa [splitSlashFrom] using h
    simpa [this] using hpart
  | cons c cs ih =>
    rw [splitSlashFrom] at h
    split at h
    · rcases List.mem_cons.mp h with rfl | h
      · simpa using hpart
      · exact ih List.not_mem_nil h
    · rename_i hc
      refine ih ?_ h
      intro hm
      rcases List.mem_cons.mp hm with e | hm
      · exact hc e.symm
      · exact hpart hm

/-- A part of a path has no slash in it. -/
theorem not_mem_of_mem_parts {path p : String} (h : p ∈ parts path) : '/' ∉ p.toList := by
  obtain ⟨cs, hcs, rfl⟩ := List.mem_map.mp h
  rw [String.toList_ofList]
  exact not_mem_of_mem_splitSlashFrom List.not_mem_nil hcs

theorem parts_slash {a n : String} (h : '/' ∉ n.toList) : parts (a ++ "/" ++ n) = parts a ++ [n] := by
  have : (a ++ "/" ++ n).toList = a.toList ++ '/' :: n.toList := by simp
  simp [parts, this, splitSlash_append, splitSlash_of_not_mem h]

theorem parts_of_not_mem {n : String} (h : '/' ∉ n.toList) : parts n = [n] := by
  simp [parts, splitSlash_of_not_mem h]

theorem isAbsolute_of_not_mem {n : String} (h : '/' ∉ n.toList) : isAbsolute n = false := by
  cases hn : n.toList with
  | nil => simp [isAbsolute, hn]
  | cons c cs =>
    have : c ≠ '/' := fun e => h (by simp [hn, e])
    simpa [isAbsolute, hn] using this

theorem isAbsolute_append {a : String} (h : a ≠ "") (b : String) :
    isAbsolute (a ++ b) = isAbsolute a := by
  have : a.toList ≠ [] := by simpa using h
  obtain ⟨c, cs, hc⟩ := List.exists_cons_of_ne_nil this
  simp [isAbsolute, hc]

/-! ## One step further -/

/-- A step after which there is a result had one to start from. -/
theorem exists_of_bind_eq_ok {α β : Type} {x : Except Fault α} {f : α → Except Fault β} {b : β}
    (h : x >>= f = .ok b) : ∃ a, x = .ok a ∧ f a = .ok b := by
  cases x with
  | error e => cases h
  | ok a => exact ⟨a, rfl, h⟩

namespace FileSystem

variable {fs : FileSystem}

theorem step_of_directory {l : Location} (h : fs.at? l = some .directory) (n : String) :
    fs.step l n =
      if n == "" || n == "." then .ok l else if n == ".." then .ok l.dropLast else .ok (l ++ [n]) := by
  simp [step, h]

theorem at?_of_step {l k : Location} {n : String} (h : fs.step l n = .ok k) :
    fs.at? l = some .directory := by
  unfold step at h
  split at h
  · assumption
  all_goals cases h

theorem step_of_silent {l : Location} (h : fs.at? l = some .directory) {n : String}
    (hn : n = "" ∨ n = ".") : fs.step l n = .ok l := by
  rcases hn with rfl | rfl <;> simp [step, h]

/-- A silent part changes nothing if a further part follows. -/
theorem step_bind_step {n : String} (hn : n = "" ∨ n = ".") (l : Location) (k : String) :
    (fs.step l n >>= fun l' => fs.step l' k) = fs.step l k := by
  cases h : fs.at? l with
  | none => simp [step, h, bind, Except.bind]
  | some e =>
    cases e with
    | file content => simp [step, h, bind, Except.bind]
    | directory => rw [step_of_silent h hn]; rfl

/-- Where a path starts. -/
def origin (fs : FileSystem) (path : String) : Location :=
  if isAbsolute path then [] else fs.workingDirectory

theorem locate_of_ne {path : String} (h : path ≠ "") :
    fs.locate path = (parts path).foldlM fs.step (fs.origin path) := by
  simp [locate, origin, h]

/-- A part after a slash is one more step, also if nothing stands before the slash. -/
theorem locate_append_slash (a : String) {n : String} (hn : '/' ∉ n.toList) :
    fs.locate (a ++ "/" ++ n) =
      (parts a).foldlM fs.step (fs.origin (a ++ "/")) >>= fun l => fs.step l n := by
  have hne : a ++ "/" ++ n ≠ "" := by simp
  have ho : fs.origin (a ++ "/" ++ n) = fs.origin (a ++ "/") := by
    rw [origin, isAbsolute_append (by simp), ← origin]
  rw [locate_of_ne hne, parts_slash hn, ho, List.foldlM_append]
  simp only [List.foldlM_cons, List.foldlM_nil, bind_pure]

theorem locate_slash {a n : String} (ha : a ≠ "") (hn : '/' ∉ n.toList) :
    fs.locate (a ++ "/" ++ n) = fs.locate a >>= fun l => fs.step l n := by
  have ho : fs.origin (a ++ "/") = fs.origin a := by rw [origin, isAbsolute_append ha, ← origin]
  rw [locate_append_slash a hn, ho, ← locate_of_ne ha]

end FileSystem

/-- What is joined to a directory stands behind one slash, which may be there already. -/
theorem join_cases {n : String} (hn : '/' ∉ n.toList) (directory : String) :
    (directory = "" ∧ join directory n = n) ∨
    (∃ a, directory = a ++ "/" ∧ join directory n = a ++ "/" ++ n) ∨
    (directory ≠ "" ∧ join directory n = directory ++ "/" ++ n) := by
  rw [join, isAbsolute_of_not_mem hn, if_neg Bool.false_ne_true]
  by_cases hd : directory = ""
  · subst hd
    exact .inl ⟨rfl, by simp⟩
  have hd' : (directory == "") = false := by simpa using hd
  by_cases hs : directory.toList.getLast? = some '/'
  · obtain ⟨cs, hcs⟩ := List.getLast?_eq_some_iff.mp hs
    have ha : directory = String.ofList cs ++ "/" := by
      rw [← String.toList_inj, hcs]
      simp
    exact .inr (.inl ⟨_, ha, by simp [hs, ← ha]⟩)
  · exact .inr (.inr ⟨hd, by simp only [hd', Bool.false_or, beq_iff_eq, hs, if_false]⟩)

/-- The path of a directory; the empty path means the working directory. -/
def directoryPath (path : String) : String := if path = "" then "." else path

namespace FileSystem

variable {fs : FileSystem}

theorem locate_name {n : String} (h : n ≠ "") (hn : '/' ∉ n.toList) :
    fs.locate n = fs.step fs.workingDirectory n := by
  simp [locate_of_ne h, parts_of_not_mem hn, origin, isAbsolute_of_not_mem hn]

/-- Where something in a directory is. -/
theorem locate_join {directory n : String} (h : n ≠ "") (hn : '/' ∉ n.toList) :
    fs.locate (join directory n) =
      fs.locate (directoryPath directory) >>= fun l => fs.step l n := by
  rcases join_cases hn directory with ⟨rfl, hjoin⟩ | ⟨a, rfl, hjoin⟩ | ⟨hd, hjoin⟩ <;> rw [hjoin]
  · have : fs.locate "." = fs.step fs.workingDirectory "." := locate_name (by decide) (by decide)
    rw [directoryPath, if_pos rfl, locate_name h hn, this, step_bind_step (.inr rfl)]
  · -- the slash is there already: the directory is a path with an empty name in it
    have hslash : fs.locate (a ++ "/") =
        (parts a).foldlM fs.step (fs.origin (a ++ "/")) >>= fun l => fs.step l "" := by
      simpa using @locate_append_slash fs a "" (by simp)
    rw [directoryPath, if_neg (by simp), locate_append_slash _ hn, hslash, bind_assoc]
    simp only [step_bind_step (.inl rfl)]
  · rw [directoryPath, if_neg hd]
    exact locate_slash hd hn

end FileSystem

/-! ## What lies above -/

/-- A component that takes one step. -/
def Component.IsPart (c : Component) : Prop := c.text ≠ "" ∧ '/' ∉ c.text.toList

/-- Only the first component can be the root. -/
structure Proper (cs : List Component) : Prop where
  head : ∀ c ∈ cs.head?, c = .root ∨ c.IsPart
  tail : ∀ c ∈ cs.tail, c.IsPart

theorem Component.ofPart?_eq_none {p : String} : ofPart? p = none ↔ p = "" ∨ p = "." := by
  simp [ofPart?]
  grind

theorem Component.ofPart?_eq_name {p s : String} :
    ofPart? p = some (.name s) ↔ p = s ∧ p ≠ "" ∧ p ≠ "." ∧ p ≠ ".." := by
  by_cases h₀ : p = ""
  · simp [ofPart?, h₀]
  by_cases h₁ : p = "."
  · simp [ofPart?, h₁]
  by_cases h₂ : p = ".."
  · simp [ofPart?, h₂]
  · simp [ofPart?, h₀, h₁, h₂]

theorem Component.isPart_of_ofPart? {path p : String} (hp : p ∈ parts path) {c : Component}
    (h : Component.ofPart? p = some c) : c.IsPart := by
  unfold Component.ofPart? at h
  split at h
  · cases h
  · rename_i hne
    simp only [Bool.or_eq_true, beq_iff_eq, not_or] at hne
    split at h <;> cases h
    · exact ⟨by decide, by decide⟩
    · exact ⟨hne.1, not_mem_of_mem_parts hp⟩

theorem proper_components (path : String) : Proper (components path) := by
  have hparts : ∀ c ∈ (parts path).filterMap Component.ofPart?, c.IsPart := by
    intro c hc
    obtain ⟨p, hp, h⟩ := List.mem_filterMap.mp hc
    exact Component.isPart_of_ofPart? hp h
  rw [components]
  split
  · exact ⟨by simp, hparts⟩
  split
  · exact ⟨by simp [Component.IsPart, Component.text], hparts⟩
  · exact ⟨fun c hc => .inr (hparts c (List.mem_of_mem_head? hc)),
      fun c hc => hparts c (List.mem_of_mem_tail hc)⟩

namespace Proper

variable {cs : List Component} {c : Component}

theorem of_concat (h : Proper (cs ++ [c])) : Proper cs := by
  cases cs with
  | nil => exact ⟨by simp, by simp⟩
  | cons d ds => exact ⟨h.head, fun e he => h.tail e (List.mem_append_left _ he)⟩

theorem isPart_of_mem (h : Proper cs) (hc : c ∈ cs) : c = .root ∨ c.IsPart := by
  cases cs with
  | nil => cases hc
  | cons d ds =>
    rcases List.mem_cons.mp hc with rfl | hc
    · exact h.head c rfl
    · exact .inr (h.tail c hc)

theorem isPart_last (h : Proper (cs ++ [c])) (hcs : cs ≠ []) : c.IsPart := by
  cases cs with
  | nil => exact absurd rfl hcs
  | cons d ds => exact h.tail c (List.mem_append_right _ List.mem_cons_self)

end Proper

theorem ofComponents_of_ne {cs : List Component} (h : cs ≠ [.root]) :
    ofComponents cs = "/".intercalate (cs.map Component.text) := by
  unfold ofComponents
  split
  · exact absurd rfl h
  · rfl

theorem ofComponents_concat {cs : List Component} (h : cs ≠ []) (c : Component) :
    ofComponents (cs ++ [c]) = "/".intercalate (cs.map Component.text) ++ "/" ++ c.text := by
  rw [ofComponents_of_ne (by cases cs <;> simp_all), List.map_append,
    String.intercalate_append_of_ne_nil (by simpa using h) (by simp)]
  simp

theorem ofComponents_ne_empty {cs : List Component} (h : Proper cs) (hcs : cs ≠ []) :
    ofComponents cs ≠ "" := by
  obtain ⟨ds, c, rfl⟩ := List.eq_nil_or_concat cs |>.resolve_left hcs
  rw [List.concat_eq_append] at h ⊢
  by_cases hds : ds = []
  · subst hds
    rcases h.head c (by simp) with rfl | hc
    · decide
    · rw [List.nil_append]
      rw [ofComponents_of_ne (fun e => hc.1 (by simp_all [Component.text]))]
      simpa using hc.1
  · rw [ofComponents_concat hds]
    simp

/-- A path that is followed only if another one leads to a directory. -/
def LiesIn (path above : String) : Prop :=
  ∀ (fs : FileSystem) (l : Location), fs.locate path = .ok l → fs.isDirectory above = true

theorem isDirectory_iff {fs : FileSystem} {path : String} :
    fs.isDirectory path = true ↔ ∃ l, fs.locate path = .ok l ∧ fs.at? l = some .directory := by
  constructor
  · intro h
    unfold FileSystem.isDirectory FileSystem.entry? at h
    cases hl : fs.locate path with
    | error e => simp [hl] at h
    | ok l =>
      rw [hl] at h
      dsimp only at h
      split at h
      · exact ⟨l, rfl, by assumption⟩
      · cases h
  · rintro ⟨l, hl, hd⟩
    simp [FileSystem.isDirectory, FileSystem.entry?, hl, hd]

theorem isFile_iff {fs : FileSystem} {path : String} :
    fs.isFile path = true ↔ ∃ l content, fs.locate path = .ok l ∧ fs.at? l = some (.file content) := by
  constructor
  · intro h
    unfold FileSystem.isFile FileSystem.entry? at h
    cases hl : fs.locate path with
    | error e => simp [hl] at h
    | ok l =>
      rw [hl] at h
      dsimp only at h
      split at h
      · rename_i content hc
        exact ⟨l, content, rfl, hc⟩
      · cases h
  · rintro ⟨l, content, hl, hc⟩
    simp [FileSystem.isFile, FileSystem.entry?, hl, hc]

theorem isDirectory_root (fs : FileSystem) : fs.isDirectory "/" = true := by
  have : fs.locate "/" = .ok [] := by
    rw [FileSystem.locate_of_ne (by decide)]
    rfl
  exact isDirectory_iff.mpr ⟨[], this, rfl⟩

theorem liesIn_concat {cs : List Component} {c : Component} (h : Proper (cs ++ [c]))
    (hcs : cs ≠ []) : LiesIn (ofComponents (cs ++ [c])) (ofComponents cs) := by
  intro fs l hl
  by_cases hroot : cs = [.root]
  · subst hroot
    exact isDirectory_root fs
  rw [ofComponents_concat hcs, ← ofComponents_of_ne hroot,
    FileSystem.locate_slash (ofComponents_ne_empty h.of_concat hcs) (h.isPart_last hcs).2] at hl
  obtain ⟨k, hk, hstep⟩ := exists_of_bind_eq_ok hl
  exact isDirectory_iff.mpr ⟨k, hk, FileSystem.at?_of_step hstep⟩

theorem ancestors_concat (cs : List Component) (c : Component) :
    ancestors (cs ++ [c]) = ofComponents (cs ++ [c]) :: ancestors cs := by
  simp only [ancestors, List.length_append, List.length_singleton, List.range_succ_eq_map,
    List.map_cons, List.map_map, Nat.sub_zero]
  congr 1
  · rw [List.take_of_length_le (by simp)]
  · refine List.map_congr_left fun n hn => ?_
    have hle : cs.length + 1 - (n + 1) ≤ cs.length := by omega
    simp only [Function.comp_apply, Nat.succ_eq_add_one]
    rw [List.take_append_of_le_length hle, Nat.add_sub_add_right]

/-- Each path of a list of paths lies in the next one. -/
theorem isChain_ancestors {cs : List Component} (h : Proper cs) :
    (ancestors cs).IsChain LiesIn := by
  induction cs using List.reverseRecOn with
  | nil => exact .nil
  | append_singleton cs c ih =>
    rw [ancestors_concat]
    refine List.isChain_cons.mpr ⟨?_, ih h.of_concat⟩
    intro above habove
    rcases List.eq_nil_or_concat cs with rfl | ⟨ds, d, rfl⟩
    · simp [ancestors] at habove
    · rw [List.concat_eq_append] at h habove ⊢
      rw [ancestors_concat] at habove
      obtain rfl : ofComponents (ds ++ [d]) = above := by simpa using habove
      exact liesIn_concat h (by simp)

/-! ## The last name -/

theorem getLast?_of_foldlM {fs : FileSystem} {ps : List String} {l₀ l : Location} {s : String}
    (h : ps.foldlM fs.step l₀ = .ok l)
    (hs : (ps.filterMap Component.ofPart?).getLast? = some (.name s)) : l.getLast? = some s := by
  induction ps using List.reverseRecOn generalizing l with
  | nil => simp at hs
  | append_singleton ps p ih =>
    rw [List.foldlM_append] at h
    obtain ⟨k, hk, hlast⟩ := exists_of_bind_eq_ok h
    have hstep : fs.step k p = .ok l := by
      simpa only [List.foldlM_cons, List.foldlM_nil, bind_pure] using hlast
    have hdir := FileSystem.at?_of_step hstep
    cases hp : Component.ofPart? p with
    | none =>
      -- a part without a meaning stays at the directory it is read in
      have hsilent : p = "" ∨ p = "." := Component.ofPart?_eq_none.mp hp
      have hkl : k = l := by
        rw [FileSystem.step_of_silent hdir hsilent] at hstep
        cases hstep
        rfl
      exact ih (hkl ▸ hk) (by simpa [hp] using hs)
    | some c =>
      obtain rfl : c = .name s := by simpa [hp] using hs
      obtain ⟨rfl, h₁, h₂, h₃⟩ := Component.ofPart?_eq_name.mp hp
      have : l = k ++ [p] := by
        rw [FileSystem.step_of_directory hdir] at hstep
        simp only [beq_iff_eq, Bool.or_eq_true, h₁, h₂, h₃, or_self, if_false] at hstep
        cases hstep
        rfl
      simp [this]

theorem getLast?_of_fileName? {path s : String} (h : fileName? path = some s) :
    (components path).getLast? = some (.name s) := by
  unfold fileName? at h
  split at h
  · rename_i hlast
    cases h
    exact hlast
  · cases h

/-- A file name has no slash in it. -/
theorem isPart_of_fileName? {path s : String} (h : fileName? path = some s) :
    (Component.name s).IsPart := by
  have hmem := List.mem_of_getLast? (getLast?_of_fileName? h)
  rcases (proper_components path).isPart_of_mem hmem with hroot | hpart
  · cases hroot
  · exact hpart

/-- The location of a path ends in its file name. -/
theorem getLast?_of_locate {fs : FileSystem} {path s : String} {l : Location}
    (h : fs.locate path = .ok l) (hs : fileName? path = some s) : l.getLast? = some s := by
  have hne : path ≠ "" := by
    rintro rfl
    cases h
  rw [FileSystem.locate_of_ne hne] at h
  refine getLast?_of_foldlM h ?_
  have hlast := getLast?_of_fileName? hs
  rw [components] at hlast
  grind

end TestConversion.Files
