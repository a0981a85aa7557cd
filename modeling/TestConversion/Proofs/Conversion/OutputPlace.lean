import TestConversion.Proofs.Conversion.OutputName

/-!
# Outputs stay where they belong

A name joined to a directory is one component behind those of the directory, however the directory
is written. The name of an output is such a name, whatever its source is called, so no output gets
out of the output directory.

* `components_join`: the components of something in a directory.
* `locate_join_iff`: where something in a directory is.
* `outputs_stay`: every output lies in the output directory itself.
-/

namespace TestConversion

namespace Files

theorem parts_ne_nil (path : String) : parts path ≠ [] := by
  simpa [parts, splitSlash] using splitSlashFrom_ne_nil [] path.toList

theorem parts_append_slash (a : String) : parts (a ++ "/") = parts a ++ [""] := by
  simpa using @parts_slash a "" (by simp)

theorem Component.ofPart?_empty : Component.ofPart? "" = none := rfl

theorem components_slash_name (a : String) {n : String} (hn : '/' ∉ n.toList) :
    components (a ++ "/" ++ n) = components (a ++ "/") ++ (Component.ofPart? n).toList := by
  simp only [components, parts_slash hn, parts_append_slash, isAbsolute_append (by simp : a ++ "/" ≠ ""),
    List.head?_append_of_ne_nil _ (parts_ne_nil a), List.filterMap_append, List.filterMap_cons,
    Component.ofPart?_empty, List.filterMap_nil, List.append_nil, List.append_assoc]
  cases Component.ofPart? n <;> rfl

/-- A slash at the end of a path means nothing. -/
theorem components_slash {a : String} (ha : a ≠ "") : components (a ++ "/") = components a := by
  simp only [components, parts_append_slash, isAbsolute_append ha,
    List.head?_append_of_ne_nil _ (parts_ne_nil a), List.filterMap_append, List.filterMap_cons,
    Component.ofPart?_empty, List.filterMap_nil, List.append_nil]

theorem IsName.ofPart? {n : String} (hn : IsName n) : Component.ofPart? n = some (.name n) :=
  Component.ofPart?_eq_name.mpr ⟨rfl, hn.ne_empty, hn.ne_here, hn.ne_up⟩

theorem components_name {n : String} (hn : IsName n) : components n = [.name n] := by
  simp [components, parts_of_not_mem hn.not_mem, isAbsolute_of_not_mem hn.not_mem, hn.ofPart?,
    hn.ne_here]

/-- A name joined to a directory is one component behind those of the directory. -/
theorem components_join {n : String} (hn : IsName n) (directory : String) :
    components (join directory n) = components directory ++ [.name n] := by
  rcases join_cases hn.not_mem directory with ⟨rfl, hjoin⟩ | ⟨a, rfl, hjoin⟩ | ⟨hd, hjoin⟩ <;>
    rw [hjoin]
  · exact components_name hn
  · rw [components_slash_name _ hn.not_mem, hn.ofPart?, Option.toList_some]
  · rw [components_slash_name _ hn.not_mem, components_slash hd, hn.ofPart?, Option.toList_some]

/-- Something in a directory is one name behind the place of the directory. -/
theorem locate_join_iff {n : String} (hn : IsName n) {fs : FileSystem} {directory : String}
    {l : Location} : fs.locate (join directory n) = .ok l ↔
      ∃ d, fs.locate (directoryPath directory) = .ok d ∧ fs.at? d = some .directory ∧
        l = d ++ [n] := by
  rw [FileSystem.locate_join hn.ne_empty hn.not_mem]
  constructor
  · intro h
    obtain ⟨d, hd, hstep⟩ := exists_of_bind_eq_ok h
    exact ⟨d, hd, FileSystem.at?_of_step hstep, FileSystem.step_eq_ok_of_isName hn hstep⟩
  · rintro ⟨d, hd, hdirectory, rfl⟩
    rw [hd]
    exact FileSystem.step_of_isName hn hdirectory

end Files

open Files

/-- Whatever a source is called, its output has the name of a single component that ends as the
tests of its language do. Joined to any output directory it lies in this directory itself, as a path
and as a place. -/
theorem outputs_stay (file : String) (language : Language) :
    IsName (outputName file language) ∧
    (∃ word, outputName file language = word ++ language.extension) ∧
    ∀ directory,
      components (join directory (outputName file language)) =
        components directory ++ [.name (outputName file language)] ∧
      fileName? (join directory (outputName file language)) = some (outputName file language) ∧
      ∀ (fs : FileSystem) (l : Location),
        fs.locate (join directory (outputName file language)) = .ok l ↔
          ∃ d, fs.locate (directoryPath directory) = .ok d ∧ fs.at? d = some .directory ∧
            l = d ++ [outputName file language] := by
  have hn := isName_outputName file language
  obtain ⟨word, -, hword⟩ := exists_outputName file language
  refine ⟨hn, ⟨word, hword⟩, fun directory => ⟨components_join hn directory, ?_, ?_⟩⟩
  · rw [fileName?, components_join hn, List.getLast?_concat]
  · exact fun fs l => locate_join_iff hn

end TestConversion
