import TestConversion.Proofs.Json.ReadBack
import TestConversion.Report.Basic

/-!
# Reports are read back

The JSON reports of a file are read back as its metadata, on one line and on many, and so is what
the report of several files holds of it, where the members of objects stand in another order.

* `readsBack_metadata`: the record of a file is read back with its members in any order.
* `reports_decode`: every report decodes to what was reported.
-/

namespace TestConversion.Report

open Json

/-! ## Orders of members -/

/-- Nothing but the members of objects changes places, at any depth. -/
structure Rearranges (f : Json → Json) : Prop where
  null : f .null = .null
  bool (b : Bool) : f (.bool b) = .bool b
  string (s : String) : f (.string s) = .string s
  array (vs : List Json) : f (.array vs) = .array (vs.map f)
  object (ms : List (String × Json)) :
    ∃ ns, f (.object ms) = .object ns ∧ ns.Perm (ms.map fun m => (m.1, f m.2))

theorem rearranges_id : Rearranges id where
  null := rfl
  bool _ := rfl
  string _ := rfl
  array vs := by rw [List.map_id]; rfl
  object ms := ⟨ms, rfl, by simp⟩

theorem insertMember_perm (m : String × Json) (ms : List (String × Json)) :
    (insertMember m ms).Perm (m :: ms) := by
  induction ms with
  | nil => exact List.Perm.refl _
  | cons n ms ih =>
    rw [insertMember]
    split
    · exact List.Perm.refl _
    · exact (ih.cons n).trans (List.Perm.swap m n ms)

theorem sortMembers_perm (ms : List (String × Json)) :
    (sortMembers ms).Perm (ms.map fun m => (m.1, sortKeys m.2)) := by
  induction ms with
  | nil => exact List.Perm.refl _
  | cons m ms ih =>
    rw [sortMembers, List.map_cons]
    exact (insertMember_perm _ _).trans (ih.cons _)

theorem sortItems_eq (vs : List Json) : sortItems vs = vs.map sortKeys := by
  induction vs with
  | nil => rfl
  | cons v vs ih => rw [sortItems, ih, List.map_cons]

theorem rearranges_sortKeys : Rearranges sortKeys where
  null := rfl
  bool _ := rfl
  string _ := rfl
  array vs := by rw [sortKeys, sortItems_eq]
  object ms := ⟨sortMembers ms, rfl, sortMembers_perm ms⟩

variable {f : Json → Json}

theorem Rearranges.hasNumeral_object (hf : Rearranges f) (ms : List (String × Json)) :
    HasNumeral (f (.object ms)) := by
  obtain ⟨ns, hns, -⟩ := hf.object ms
  rw [hns]
  trivial

theorem Rearranges.strings (hf : Rearranges f) (ss : List String) :
    f (.strings ss) = .strings ss := by
  rw [Json.strings, hf.array, List.map_map]
  congr 1
  exact List.map_congr_left fun s _ => hf.string s

theorem Rearranges.ofOption (hf : Rearranges f) (o : Option String) :
    f (.ofOption o) = .ofOption o := by
  cases o with
  | none => exact hf.null
  | some s => exact hf.string s

/-! ## Records -/

variable {l : Layout}

theorem readsBack_strings (hl : l.IsBlank) (ss : List String) :
    ReadsBack l (read (.list .text)) (.strings ss) (.strings ss) := by
  apply readsBack_list hl
  rw [List.forall₂_same]
  intro v hv
  obtain ⟨s, -, rfl⟩ := List.mem_map.mp hv
  exact ⟨trivial, readsBack_text l s⟩

/-- A list of records is read back if each record is. -/
theorem readsBack_records (hl : l.IsBlank) (hf : Rearranges f) {α : Type} (toJson : α → Json)
    {s : Shape} (xs : List α) (hobject : ∀ x, ∃ ms, toJson x = .object ms)
    (h : ∀ x, ReadsBack l (read s) (f (toJson x)) (toJson x)) :
    ReadsBack l (read (.list s)) (f (.array (xs.map toJson))) (.array (xs.map toJson)) := by
  rw [hf.array, List.map_map]
  apply readsBack_list hl
  rw [List.forall₂_map_left_iff, List.forall₂_map_right_iff, List.forall₂_same]
  intro x _
  obtain ⟨ms, hms⟩ := hobject x
  refine ⟨?_, h x⟩
  rw [Function.comp_apply, hms]
  exact hf.hasNumeral_object ms

theorem readsBack_call (hl : l.IsBlank) (hf : Rearranges f) (c : Call) :
    ReadsBack l (read callShape) (f c.toJson) c.toJson := by
  obtain ⟨ms, hms, hp⟩ := hf.object [("method", .string c.method), ("qualifier", .ofOption c.qualifier),
    ("arguments", .strings c.arguments)]
  rw [Call.toJson, hms]
  apply readsBack_record hl hp rfl rfl (by decide)
  simp only [List.map_cons, List.map_nil, hf.string, hf.ofOption, hf.strings, List.forall_mem_cons]
  refine ⟨?_, ?_, ?_, fun _ h => absurd h List.not_mem_nil⟩
  · exact ⟨_, _, rfl, readsBack_text l _, by simp⟩
  · exact ⟨_, _, rfl, readsBack_optional_text l _, by simp⟩
  · exact ⟨_, _, rfl, readsBack_strings hl _, by simp⟩

theorem readsBack_method (hl : l.IsBlank) (hf : Rearranges f) (m : MethodSummary) :
    ReadsBack l (read methodShape) (f m.toJson) m.toJson := by
  obtain ⟨ms, hms, hp⟩ := hf.object [("name", .string m.name), ("annotations", .strings m.annotations),
    ("calls", .array (m.calls.map Call.toJson))]
  have hcalls := readsBack_records hl hf Call.toJson m.calls (fun c => ⟨_, rfl⟩) (readsBack_call hl hf)
  rw [MethodSummary.toJson, hms]
  apply readsBack_record hl hp rfl rfl (by decide)
  simp only [List.map_cons, List.map_nil, hf.string, hf.strings, List.forall_mem_cons]
  refine ⟨?_, ?_, ?_, fun _ h => absurd h List.not_mem_nil⟩
  · exact ⟨_, _, rfl, readsBack_text l _, by simp⟩
  · exact ⟨_, _, rfl, readsBack_strings hl _, by simp⟩
  · exact ⟨_, _, rfl, hcalls, by simp⟩

/-- The record of a file is read back with its members in any order. -/
theorem readsBack_metadata (hl : l.IsBlank) (hf : Rearranges f) (m : Metadata) :
    ReadsBack l (read metadataShape) (f m.toJson) m.toJson := by
  obtain ⟨ms, hms, hp⟩ := hf.object [("file_name", .string m.fileName),
    ("class_name", .string m.className), ("imports", .strings m.imports),
    ("automation_imports", .strings m.automationImports),
    ("uses_test_framework", .bool m.usesTestFramework),
    ("methods", .array (m.methods.map MethodSummary.toJson))]
  have hmethods := readsBack_records hl hf MethodSummary.toJson m.methods (fun c => ⟨_, rfl⟩) (readsBack_method hl hf)
  rw [Metadata.toJson, hms]
  apply readsBack_record hl hp rfl rfl (by decide)
  simp only [List.map_cons, List.map_nil, hf.string, hf.bool, hf.strings, List.forall_mem_cons]
  refine ⟨?_, ?_, ?_, ?_, ?_, ?_, fun _ h => absurd h List.not_mem_nil⟩
  · exact ⟨_, _, rfl, readsBack_text l _, by simp⟩
  · exact ⟨_, _, rfl, readsBack_text l _, by simp⟩
  · exact ⟨_, _, rfl, readsBack_strings hl _, by simp⟩
  · exact ⟨_, _, rfl, readsBack_strings hl _, by simp⟩
  · exact ⟨_, _, rfl, readsBack_truth l _, by simp⟩
  · exact ⟨_, _, rfl, hmethods, by simp⟩

/-! ## Values -/

/-- The texts of an array. -/
def textsOf (v : Json) : List String := v.items.map fun s => (s.string?).getD ""

theorem textsOf_strings (ss : List String) : textsOf (.strings ss) = ss := by
  rw [textsOf, Json.strings, Json.items, List.map_map]
  exact List.map_id' ss

theorem string?_ofOption (o : Option String) : (Json.ofOption o).string? = o := by
  cases o with
  | none => rfl
  | some s => rfl

theorem ofJson_toJson_call (c : Call) : Call.ofJson c.toJson = c := by
  have h : Call.ofJson c.toJson =
      ⟨c.method, (Json.ofOption c.qualifier).string?, textsOf (.strings c.arguments)⟩ := rfl
  rw [h, string?_ofOption, textsOf_strings]

theorem ofJson_toJson_method (m : MethodSummary) : MethodSummary.ofJson m.toJson = m := by
  have h : MethodSummary.ofJson m.toJson = ⟨m.name, textsOf (.strings m.annotations),
      (m.calls.map Call.toJson).map Call.ofJson⟩ := rfl
  have hcalls : m.calls.map (Call.ofJson ∘ Call.toJson) = m.calls :=
    List.map_id'' ofJson_toJson_call m.calls
  rw [h, textsOf_strings, List.map_map, hcalls]

theorem ofJson_toJson (m : Metadata) : Metadata.ofJson m.toJson = m := by
  have h : Metadata.ofJson m.toJson = ⟨m.fileName, m.className, textsOf (.strings m.imports),
      textsOf (.strings m.automationImports), m.usesTestFramework,
      (m.methods.map MethodSummary.toJson).map MethodSummary.ofJson⟩ := rfl
  have hmethods : m.methods.map (MethodSummary.ofJson ∘ MethodSummary.toJson) = m.methods :=
    List.map_id'' ofJson_toJson_method m.methods
  rw [h, textsOf_strings, textsOf_strings, List.map_map, hmethods]

/-- Metadata are read back from their record, whatever its layout and the order of its members. -/
theorem decode_write (hl : l.IsBlank) (hf : Rearranges f) (m : Metadata) :
    Metadata.decode (String.ofList (write l 0 (f m.toJson) [])) = .ok m := by
  rw [Metadata.decode, decode_of_readsBack (readsBack_metadata hl hf m), Except.map,
    ofJson_toJson]

/-! ## Reports of several files -/

mutual

theorem isNumberFree_sortKeys {v : Json} (h : isNumberFree v = true) :
    isNumberFree (sortKeys v) = true := by
  match v with
  | .null => exact h
  | .bool _ => exact h
  | .number _ => exact h
  | .string _ => exact h
  | .array vs => exact areNumberFree_sortItems h
  | .object ms => exact membersAreNumberFree_sortMembers h

theorem areNumberFree_sortItems {vs : List Json} (h : areNumberFree vs = true) :
    areNumberFree (sortItems vs) = true := by
  match vs with
  | [] => exact h
  | v :: vs =>
    rw [areNumberFree, Bool.and_eq_true] at h
    rw [sortItems, areNumberFree, Bool.and_eq_true]
    exact ⟨isNumberFree_sortKeys h.1, areNumberFree_sortItems h.2⟩

theorem membersAreNumberFree_sortMembers {ms : List (String × Json)}
    (h : membersAreNumberFree ms = true) : membersAreNumberFree (sortMembers ms) = true := by
  match ms with
  | [] => exact h
  | (k, v) :: ms =>
    rw [membersAreNumberFree, Bool.and_eq_true] at h
    have hp := insertMember_perm (k, sortKeys v) (sortMembers ms)
    have hrest := membersAreNumberFree_sortMembers h.2
    rw [membersAreNumberFree_eq] at hrest
    rw [sortMembers, membersAreNumberFree_eq, hp.all_eq, List.all_cons, Bool.and_eq_true]
    exact ⟨isNumberFree_sortKeys h.1, hrest⟩

end

theorem isNumberFree_strings (ss : List String) : isNumberFree (.strings ss) = true := by
  rw [Json.strings, isNumberFree, areNumberFree_eq, List.all_eq_true]
  intro v hv
  obtain ⟨s, -, rfl⟩ := List.mem_map.mp hv
  rfl

theorem isNumberFree_map {α : Type} {toJson : α → Json} (xs : List α)
    (h : ∀ x, isNumberFree (toJson x) = true) : isNumberFree (.array (xs.map toJson)) = true := by
  rw [isNumberFree, areNumberFree_eq, List.all_eq_true]
  intro v hv
  obtain ⟨x, -, rfl⟩ := List.mem_map.mp hv
  exact h x

theorem isNumberFree_call (c : Call) : isNumberFree c.toJson = true := by
  have hq : isNumberFree (.ofOption c.qualifier) = true := by cases c.qualifier <;> rfl
  simp [Call.toJson, isNumberFree, membersAreNumberFree, hq, isNumberFree_strings]

theorem isNumberFree_method (m : MethodSummary) : isNumberFree m.toJson = true := by
  have hcalls := isNumberFree_map m.calls isNumberFree_call
  simp only [MethodSummary.toJson, isNumberFree, membersAreNumberFree, isNumberFree_strings,
    Bool.and_true, Bool.true_and]
  exact hcalls

theorem isNumberFree_metadata (m : Metadata) : isNumberFree m.toJson = true := by
  have hmethods := isNumberFree_map m.methods isNumberFree_method
  simp only [Metadata.toJson, isNumberFree, membersAreNumberFree, isNumberFree_strings,
    Bool.and_true, Bool.true_and]
  exact hmethods

theorem isNumberFree_entry (f : ParsedFile) : isNumberFree (entry f) = true := by
  obtain ⟨path, result⟩ := f
  cases result with
  | ok m =>
    have hm := isNumberFree_metadata m
    simp [entry, isNumberFree, membersAreNumberFree, hm]
  | error e => simp [entry, isNumberFree, membersAreNumberFree]

/-- What the report of several files holds of a file: its path, and its metadata or what is wrong
with it. -/
def IsEntry (f : ParsedFile) (v : Json) : Prop :=
  v.member? "file" = some (.string f.path) ∧
    match f.result with
    | .ok m => v.member? "error" = none ∧
        ∃ w, v.member? "metadata" = some w ∧ Metadata.decode w.compact = .ok m
    | .error e => v.member? "metadata" = none ∧ v.member? "error" = some (.string e)

theorem isEntry_sortKeys (f : ParsedFile) : IsEntry f (sortKeys (entry f)) := by
  obtain ⟨path, result⟩ := f
  cases result with
  | ok m =>
    have hlt : "file" < "metadata" := by decide
    have hsorted : sortKeys (entry ⟨path, .ok m⟩) =
        .object [("file", .string path), ("metadata", sortKeys m.toJson)] := by
      simp only [entry, sortKeys, sortMembers, insertMember, hlt, if_true]
    rw [hsorted]
    exact ⟨rfl, rfl, sortKeys m.toJson, rfl,
      decode_write Layout.isBlank_compact rearranges_sortKeys m⟩
  | error e =>
    have hlt : "error" < "file" := by decide
    have hsorted : sortKeys (entry ⟨path, .error e⟩) =
        .object [("error", .string e), ("file", .string path)] := by
      simp only [entry, sortKeys, sortMembers, insertMember, hlt, if_true]
    rw [hsorted]
    exact ⟨rfl, rfl, rfl⟩

/-- The report of several files is read back as one entry a file. -/
theorem parse?_recordBatch (files : List ParsedFile) :
    ∃ vs, Json.parse? (recordBatch files) = some (.array vs) ∧ List.Forall₂ IsEntry files vs := by
  have hbatch : isNumberFree (sortKeys (.array (files.map entry))) = true :=
    isNumberFree_sortKeys (isNumberFree_map files isNumberFree_entry)
  have hdecode := decode_of_readsBack (readsBack_any Layout.isBlank_pretty hbatch)
  refine ⟨sortItems (files.map entry), ?_, ?_⟩
  · rw [Json.parse?, recordBatch, Json.pretty, hdecode]
    rfl
  · rw [sortItems_eq, List.map_map, List.forall₂_map_right_iff, List.forall₂_same]
    intro f _
    exact isEntry_sortKeys f

/-- Every JSON report decodes to what was reported. -/
theorem reports_decode (m : Metadata) (files : List ParsedFile) :
    (Metadata.decode (report .json m) = .ok m ∧ Metadata.decode (compactRecord m) = .ok m) ∧
      (∀ c ∈ (compactRecord m).toList, 0x20 ≤ c.toNat) ∧
        ∃ vs, Json.parse? (reportBatch .json files) = some (.array vs) ∧
          List.Forall₂ IsEntry files vs := by
  have hpretty : Metadata.decode (report .json m) = .ok m :=
    decode_write Layout.isBlank_pretty rearranges_id m
  have hcompact : Metadata.decode (compactRecord m) = .ok m :=
    decode_write Layout.isBlank_compact rearranges_id m
  refine ⟨⟨hpretty, hcompact⟩, fun c hc => ?_, parse?_recordBatch files⟩
  exact le_toNat_of_mem_compact (isNumberFree_metadata m) hc

end TestConversion.Report
