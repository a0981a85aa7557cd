import TestConversion.Proofs.Json.Sequences
import TestConversion.Proofs.Report.Decoding

/-!
# The texts in a report

A report holds the texts of the metadata, of the paths and of the errors, and a change of these
texts is a change of the strings in its record.

* `withoutEscapes_record`, `withoutEscapes_recordBatch`: without escape sequences a JSON report is
  the report of what is left of the texts.
* `mapTexts_eq_self_iff`: metadata stay as they are exactly if each of their texts does.
-/

namespace TestConversion

/-! ## Texts of metadata -/

def Call.mapTexts (f : String → String) (c : Call) : Call :=
  ⟨f c.method, c.qualifier.map f, c.arguments.map f⟩

def Call.texts (c : Call) : List String := c.method :: (c.qualifier.toList ++ c.arguments)

def MethodSummary.mapTexts (f : String → String) (m : MethodSummary) : MethodSummary :=
  ⟨f m.name, m.annotations.map f, m.calls.map (Call.mapTexts f)⟩

def MethodSummary.texts (m : MethodSummary) : List String :=
  m.name :: (m.annotations ++ m.calls.flatMap Call.texts)

/-- The metadata with other texts. -/
def Metadata.mapTexts (f : String → String) (m : Metadata) : Metadata :=
  { fileName := f m.fileName
    className := f m.className
    imports := m.imports.map f
    automationImports := m.automationImports.map f
    usesTestFramework := m.usesTestFramework
    methods := m.methods.map (MethodSummary.mapTexts f) }

def Metadata.texts (m : Metadata) : List String :=
  m.fileName :: m.className ::
    (m.imports ++ (m.automationImports ++ m.methods.flatMap MethodSummary.texts))

/-- What is reported of a file, with other texts. -/
def ParsedFile.mapTexts (f : String → String) (file : ParsedFile) : ParsedFile :=
  ⟨f file.path, match file.result with
    | .ok m => .ok (m.mapTexts f)
    | .error e => .error (f e)⟩

def ParsedFile.texts (file : ParsedFile) : List String :=
  file.path :: match file.result with
    | .ok m => m.texts
    | .error e => [e]

section

variable {f : String → String}

theorem map_eq_self_iff {α : Type} {g : α → α} {xs : List α} :
    xs.map g = xs ↔ ∀ x ∈ xs, g x = x := by
  have h := List.map_inj_left (l := xs) (f := g) (g := id)
  rw [List.map_id] at h
  exact h

/-- Elements stay as they are if all their texts do. -/
theorem forall_mem_flatMap_iff {α : Type} {g : α → α} {texts : α → List String} {xs : List α}
    (h : ∀ x, g x = x ↔ ∀ s ∈ texts x, f s = s) :
    xs.map g = xs ↔ ∀ s ∈ xs.flatMap texts, f s = s := by
  rw [map_eq_self_iff]
  simp only [h, List.mem_flatMap, forall_exists_index, and_imp]
  exact ⟨fun hall s x hx hs => hall x hx s hs, fun hall x hx s hs => hall s x hx hs⟩

theorem Call.mapTexts_eq_self_iff (c : Call) : c.mapTexts f = c ↔ ∀ s ∈ c.texts, f s = s := by
  obtain ⟨method, qualifier, arguments⟩ := c
  have hqualifier : qualifier.map f = qualifier ↔ ∀ s ∈ qualifier.toList, f s = s := by
    cases qualifier <;> simp
  rw [mapTexts, texts, Call.mk.injEq, map_eq_self_iff, hqualifier, List.forall_mem_cons,
    List.forall_mem_append]

theorem MethodSummary.mapTexts_eq_self_iff (m : MethodSummary) :
    m.mapTexts f = m ↔ ∀ s ∈ m.texts, f s = s := by
  obtain ⟨name, annotations, calls⟩ := m
  rw [mapTexts, texts, MethodSummary.mk.injEq, map_eq_self_iff,
    forall_mem_flatMap_iff Call.mapTexts_eq_self_iff, List.forall_mem_cons, List.forall_mem_append]

/-- Metadata stay as they are exactly if each of their texts does. -/
theorem Metadata.mapTexts_eq_self_iff (m : Metadata) :
    m.mapTexts f = m ↔ ∀ s ∈ m.texts, f s = s := by
  obtain ⟨fileName, className, imports, automationImports, usesTestFramework, methods⟩ := m
  rw [mapTexts, texts, Metadata.mk.injEq, map_eq_self_iff, map_eq_self_iff,
    forall_mem_flatMap_iff MethodSummary.mapTexts_eq_self_iff, List.forall_mem_cons,
    List.forall_mem_cons, List.forall_mem_append, List.forall_mem_append]
  simp only [true_and]

theorem ParsedFile.mapTexts_eq_self_iff (file : ParsedFile) :
    file.mapTexts f = file ↔ ∀ s ∈ file.texts, f s = s := by
  obtain ⟨path, result⟩ := file
  cases result with
  | ok m =>
    simp only [mapTexts, texts, ParsedFile.mk.injEq, Except.ok.injEq, m.mapTexts_eq_self_iff,
      List.forall_mem_cons]
  | error e => simp [mapTexts, texts]

end

namespace Report

open Json Text

/-! ## Records of changed texts -/

section

variable (f : String → String)

theorem mapItems_eq (vs : List Json) : mapItems f vs = vs.map (Json.mapTexts f) := by
  induction vs with
  | nil => rfl
  | cons v vs ih => rw [mapItems, ih, List.map_cons]

theorem mapTexts_strings (ss : List String) :
    Json.mapTexts f (.strings ss) = .strings (ss.map f) := by
  rw [Json.strings, Json.mapTexts, mapItems_eq, List.map_map, Json.strings, List.map_map]
  rfl

theorem mapTexts_ofOption (o : Option String) :
    Json.mapTexts f (.ofOption o) = .ofOption (o.map f) := by
  cases o <;> rfl

/-- The records of a list are those of the changed list. -/
theorem mapTexts_records {α : Type} {toJson : α → Json} {g : α → α}
    (h : ∀ x, Json.mapTexts f (toJson x) = toJson (g x)) (xs : List α) :
    Json.mapTexts f (.array (xs.map toJson)) = .array ((xs.map g).map toJson) := by
  rw [Json.mapTexts, mapItems_eq, List.map_map, List.map_map]
  congr 1
  exact List.map_congr_left fun x _ => h x

theorem mapTexts_call (c : Call) : Json.mapTexts f c.toJson = (c.mapTexts f).toJson := by
  simp only [Call.toJson, Json.mapTexts, mapMembers, mapTexts_ofOption, mapTexts_strings,
    Call.mapTexts]

theorem mapTexts_method (m : MethodSummary) :
    Json.mapTexts f m.toJson = (m.mapTexts f).toJson := by
  have hcalls := mapTexts_records f (mapTexts_call f) m.calls
  rw [MethodSummary.toJson, Json.mapTexts]
  simp only [mapMembers, mapTexts_strings, hcalls]
  rfl

theorem mapTexts_metadata (m : Metadata) : Json.mapTexts f m.toJson = (m.mapTexts f).toJson := by
  have hmethods := mapTexts_records f (mapTexts_method f) m.methods
  rw [Metadata.toJson, Json.mapTexts]
  simp only [mapMembers, mapTexts_strings, hmethods]
  rfl

theorem mapTexts_entry (file : ParsedFile) :
    Json.mapTexts f (entry file) = entry (file.mapTexts f) := by
  obtain ⟨path, result⟩ := file
  cases result with
  | ok m => simp only [entry, Json.mapTexts, mapMembers, mapTexts_metadata, ParsedFile.mapTexts]
  | error e => rfl

theorem mapMembers_insertMember (k : String) (v : Json) (ms : List (String × Json)) :
    mapMembers f (insertMember (k, v) ms) =
      insertMember (k, Json.mapTexts f v) (mapMembers f ms) := by
  induction ms with
  | nil => rfl
  | cons m ms ih =>
    rw [insertMember, mapMembers, insertMember]
    split
    · rfl
    · rw [mapMembers, ih]

mutual

/-- Texts are changed in the same way before and after keys are sorted. -/
theorem mapTexts_sortKeys (v : Json) :
    Json.mapTexts f (sortKeys v) = sortKeys (Json.mapTexts f v) := by
  match v with
  | .null => rfl
  | .bool _ => rfl
  | .number _ => rfl
  | .string _ => rfl
  | .array vs => rw [sortKeys, Json.mapTexts, Json.mapTexts, sortKeys, mapItems_sortItems vs]
  | .object ms =>
    rw [sortKeys, Json.mapTexts, Json.mapTexts, sortKeys, mapMembers_sortMembers ms]

theorem mapItems_sortItems (vs : List Json) :
    mapItems f (sortItems vs) = sortItems (mapItems f vs) := by
  match vs with
  | [] => rfl
  | v :: vs =>
    rw [sortItems, mapItems, mapItems, sortItems, mapTexts_sortKeys v, mapItems_sortItems vs]

theorem mapMembers_sortMembers (ms : List (String × Json)) :
    mapMembers f (sortMembers ms) = sortMembers (mapMembers f ms) := by
  match ms with
  | [] => rfl
  | (k, v) :: ms =>
    rw [sortMembers, mapMembers, sortMembers, mapMembers_insertMember, mapTexts_sortKeys v,
      mapMembers_sortMembers ms]

end

end

/-! ## Reports without sequences -/

theorem isTextual_strings (ss : List String) : IsTextual (.strings ss) := by
  refine .array fun v hv => ?_
  obtain ⟨s, -, rfl⟩ := List.mem_map.mp hv
  exact .string s

theorem isTextual_records {α : Type} {toJson : α → Json} (h : ∀ x, IsTextual (toJson x))
    (xs : List α) : IsTextual (.array (xs.map toJson)) := by
  refine .array fun v hv => ?_
  obtain ⟨x, -, rfl⟩ := List.mem_map.mp hv
  exact h x

theorem isTextual_call (c : Call) : IsTextual c.toJson := by
  have hqualifier : IsTextual (.ofOption c.qualifier) := by
    cases c.qualifier with
    | none => exact .null
    | some s => exact .string s
  refine .object ?_ ?_ <;> simp only [List.forall_mem_cons]
  · exact ⟨by decide, by decide, by decide, fun _ h => absurd h List.not_mem_nil⟩
  · exact ⟨.string _, hqualifier, isTextual_strings _, fun _ h => absurd h List.not_mem_nil⟩

theorem isTextual_method (m : MethodSummary) : IsTextual m.toJson := by
  refine .object ?_ ?_ <;> simp only [List.forall_mem_cons]
  · exact ⟨by decide, by decide, by decide, fun _ h => absurd h List.not_mem_nil⟩
  · exact ⟨.string _, isTextual_strings _, isTextual_records isTextual_call _,
      fun _ h => absurd h List.not_mem_nil⟩

theorem isTextual_metadata (m : Metadata) : IsTextual m.toJson := by
  refine .object ?_ ?_ <;> simp only [List.forall_mem_cons]
  · exact ⟨by decide, by decide, by decide, by decide, by decide, by decide,
      fun _ h => absurd h List.not_mem_nil⟩
  · exact ⟨.string _, .string _, isTextual_strings _, isTextual_strings _, .bool _,
      isTextual_records isTextual_method _, fun _ h => absurd h List.not_mem_nil⟩

theorem isTextual_entry (file : ParsedFile) : IsTextual (entry file) := by
  obtain ⟨path, result⟩ := file
  cases result with
  | ok m =>
    refine .object ?_ ?_ <;> simp only [List.forall_mem_cons]
    · exact ⟨by decide, by decide, fun _ h => absurd h List.not_mem_nil⟩
    · exact ⟨.string _, isTextual_metadata m, fun _ h => absurd h List.not_mem_nil⟩
  | error e =>
    refine .object ?_ ?_ <;> simp only [List.forall_mem_cons]
    · exact ⟨by decide, by decide, fun _ h => absurd h List.not_mem_nil⟩
    · exact ⟨.string _, .string _, fun _ h => absurd h List.not_mem_nil⟩

theorem isTextual_sortKeys {v : Json} (h : IsTextual v) : IsTextual (sortKeys v) := by
  induction h with
  | null => exact .null
  | bool b => exact .bool b
  | string s => exact .string s
  | @array vs _ ih =>
    rw [sortKeys, sortItems_eq]
    refine .array fun w hw => ?_
    obtain ⟨v, hv, rfl⟩ := List.mem_map.mp hw
    exact ih v hv
  | @object ms hk _ ih =>
    have hmember : ∀ n ∈ sortMembers ms, ∃ m ∈ ms, (m.1, sortKeys m.2) = n :=
      fun n hn => List.mem_map.mp ((sortMembers_perm ms).mem_iff.mp hn)
    refine .object (fun n hn => ?_) fun n hn => ?_
    · obtain ⟨m, hm, rfl⟩ := hmember n hn
      exact hk m hm
    · obtain ⟨m, hm, rfl⟩ := hmember n hn
      exact ih m hm

theorem withoutEscapes_write {l : Layout} (hl : l.IsBlank) {v : Json} (hv : IsTextual v) :
    withoutEscapes (String.ofList (write l 0 v [])) =
      String.ofList (write l 0 (Json.mapTexts plain v) []) := by
  have hnil : unescaped [] = [] := unescaped_of_none fun _ h => absurd h List.not_mem_nil
  rw [withoutEscapes, String.toList_ofList, unescaped_write hl 0 hv, hnil]

/-- Without escape sequences the report of a file is the report of what is left of its texts. -/
theorem withoutEscapes_record {l : Layout} (hl : l.IsBlank) (m : Metadata) :
    withoutEscapes (String.ofList (write l 0 m.toJson [])) =
      String.ofList (write l 0 (m.mapTexts plain).toJson []) := by
  rw [withoutEscapes_write hl (isTextual_metadata m), mapTexts_metadata]

/-- Without escape sequences the report of several files is that of what is left of their texts. -/
theorem withoutEscapes_recordBatch (files : List ParsedFile) :
    withoutEscapes (recordBatch files) = recordBatch (files.map (ParsedFile.mapTexts plain)) := by
  have hentries : IsTextual (sortKeys (.array (files.map entry))) :=
    isTextual_sortKeys (isTextual_records isTextual_entry files)
  rw [recordBatch, Json.pretty, withoutEscapes_write Layout.isBlank_pretty hentries,
    mapTexts_sortKeys, mapTexts_records plain (mapTexts_entry plain), recordBatch, Json.pretty]

end Report

end TestConversion
