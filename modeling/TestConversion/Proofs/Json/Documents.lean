import TestConversion.Proofs.Json.Shapes

/-!
# Whole texts

What decodes against a shape is a JSON text from its beginning to its end: what is taken against a
shape is taken by a reading of any value as well, also where it is left out of the result. In what is
left out the escapes of a string need not be well-formed UTF-16.

* `read_follows`: a reading of any value takes what a reading against a shape takes.
* `isDocument_of_decode`: only whole JSON texts decode.
* `read_field_eq_ok`, `read_list_eq_ok`: what is read has the shape that it is read against.
-/

namespace TestConversion.Json

/-- The text is one JSON value with blanks around it. -/
def IsDocument (text : String) : Prop :=
  ∃ v rest, readAny false (anyFuel text.toList) text.toList = .ok (v, rest) ∧ skipSpace rest = []

variable {cs rest : List Char} {limit : Nat}

theorem Follows.leavesSuffix {f : List Char → Reading Json}
    (h : ∀ limit, Follows false limit f (readAny false (limit + 1))) : LeavesSuffix f := by
  intro cs v rest hf
  obtain ⟨w, hw, -⟩ := h cs.length cs v rest (Nat.le_refl _) hf
  exact readAny_suffix false (cs.length + 1) cs w rest hw

/-- Blanks in front of a value are passed over. -/
theorem readAny_skipSpace {strict : Bool} {fuel : Nat} {v : Json}
    (h : readAny strict (fuel + 1) (skipSpace cs) = .ok (v, rest)) :
    readAny strict (fuel + 1) cs = .ok (v, rest) := by
  have hstart := startsWith_of_readAny h
  rw [skipSpace_skipSpace] at hstart
  exact readAny_of_startsWith rfl hstart

theorem length_lt_of_nextItem {mid : List Char} (h : nextItem false cs = .ok (some mid)) :
    mid.length < cs.length := by
  have hcs := (skipSpace_suffix cs).length_le
  unfold nextItem at h
  split at h
  · cases h
  rename_i c tail hc
  rw [hc, List.length_cons] at hcs
  have htail := (skipSpace_suffix tail).length_le
  split at h
  · cases h
  split at h
  · rename_i hfirst
    cases hfirst
  split at h
  · split at h
    · cases h
    · cases h
    · cases h
      omega
  · cases h

theorem nextItem_of_expectClose {first : Bool} (h : expectClose ']' cs = .ok rest) :
    nextItem first cs = .ok none := by
  unfold expectClose at h
  unfold nextItem
  split at h
  · cases h
  · rename_i c tail hc
    split at h
    · rename_i hclose
      simp [hclose]
    · cases h

/-! ## Fields -/

/-- The fields of a record in an array are items of it. -/
theorem exists_readItems_of_readRow {g : List Char → Reading Json}
    {fields : List (String × Shape)} (h : ∀ s ∈ fields, Follows false limit (read s.2) g)
    (hf : ∀ s ∈ fields, LeavesSuffix (read s.2)) {fuel : Nat} {first : Bool}
    (hlimit : cs.length ≤ limit) (hfuel : cs.length + first.toNat ≤ fuel)
    {ws : List (String × Json)} {mid : List Char} (hread : readRow fields first cs = .ok (ws, mid))
    (hclose : expectClose ']' mid = .ok rest) (done : List Json) :
    ∃ vs, readItems g fuel first done cs = .ok (vs, mid) := by
  induction fields generalizing cs fuel first ws done with
  | nil =>
    rw [readRow] at hread
    cases hread
    have hpos : 0 < mid.length := by
      cases mid with
      | nil => cases hclose
      | cons c mid => exact Nat.succ_pos _
    obtain ⟨fuel, rfl⟩ := Nat.exists_eq_add_one_of_ne_zero (n := fuel) (by omega)
    rw [readItems, nextItem_of_expectClose hclose]
    exact ⟨_, rfl⟩
  | cons s fields ih =>
    obtain ⟨n, s⟩ := s
    rw [readRow] at hread
    split at hread
    · cases hread
    · cases hread
    rename_i mid' hnext
    split at hread
    · cases hread
    rename_i v after hvalue
    split at hread
    · cases hread
    rename_i vs rest' hrest
    cases hread
    have hafter := (hf (n, s) List.mem_cons_self mid' v after hvalue).length_le
    have hmid : mid'.length + 1 ≤ cs.length + first.toNat := by
      cases first with
      | true => exact Nat.succ_le_succ (nextItem_suffix hnext).length_le
      | false => exact length_lt_of_nextItem hnext
    have hmid' := (nextItem_suffix hnext).length_le
    obtain ⟨fuel, rfl⟩ := Nat.exists_eq_add_one_of_ne_zero (n := fuel) (by omega)
    obtain ⟨w, hw, -⟩ := h (n, s) List.mem_cons_self mid' v after (by omega) hvalue
    rw [readItems, hnext]
    simp only [hw]
    exact ih (fun s hs => h s (List.mem_cons_of_mem _ hs))
      (fun s hs => hf s (List.mem_cons_of_mem _ hs)) (by omega)
      (by rw [Bool.toNat_false]; omega) hrest (w :: done)

/-- The fields of a record in an object are members of it, as those are that are left out. -/
theorem exists_readMembers_of_readFields {g : List Char → Reading Json}
    {field : String → Option (List Char → Reading Json)}
    (h : ∀ name f, field name = some f → Follows false limit f g ∧ LeavesSuffix f)
    (hskip : Follows false limit (fun cs => readAny false (anyFuel cs) cs) g) {fuel : Nat}
    {first : Bool} (hlimit : cs.length ≤ limit) {found all : Found}
    (hread : readFields field fuel first found cs = .ok (all, rest)) (done : List (String × Json)) :
    ∃ ms, readMembers false g fuel first done cs = .ok (ms, rest) := by
  induction fuel generalizing cs first found done with
  | zero => cases hread
  | succ fuel ih =>
    rw [readFields] at hread
    rw [readMembers]
    rcases nextKey_cases first cs with hnext | ⟨e, hnext⟩ | ⟨quoted, hquoted, hnext⟩
    · rw [hnext] at hread ⊢
      cases hread
      exact ⟨_, rfl⟩
    · rw [hnext] at hread
      cases hread
    rw [hnext] at hread ⊢
    cases hkey : readString true quoted with
    | error e =>
      rw [hkey] at hread
      cases hread
    | ok key =>
    obtain ⟨k, colon⟩ := key
    obtain ⟨k', hk', -⟩ := readString_follows false (fun h => by cases h) quoted.length quoted k colon
      (Nat.le_refl _) hkey
    cases hcolon : expectColon colon with
    | error e =>
      rw [hkey] at hread
      simp only [Except.map, hcolon, Except.bind] at hread
      split at hread
      · cases hread
      · split at hread <;> cases hread
    | ok mid =>
    have hmid := (suffix_of_key hquoted hkey hcolon).length_le
    rw [hkey] at hread
    rw [hk']
    simp only [Except.map, hcolon, Except.bind] at hread ⊢
    split at hread
    · split at hread
      · cases hread
      · rename_i v after hvalue
        have hafter := (readAny_suffix false _ mid v after hvalue).length_le
        obtain ⟨w, hw, -⟩ := hskip mid v after (by omega) hvalue
        simp only [hw]
        exact ih (by omega) hread _
    · rename_i f hf
      split at hread
      · cases hread
      split at hread
      · cases hread
      · rename_i v after hvalue
        obtain ⟨hfollows, hsuffix⟩ := h k f hf
        have hafter := (hsuffix mid v after hvalue).length_le
        obtain ⟨w, hw, -⟩ := hfollows mid v after (by omega) hvalue
        simp only [hw]
        exact ih (by omega) hread _

theorem exists_of_fieldReader {fields : List (String × Shape)} {name : String}
    {f : List Char → Reading Json} (h : fieldReader fields name = some f) :
    ∃ s, (name, s) ∈ fields ∧ f = read s := by
  induction fields with
  | nil =>
    rw [fieldReader] at h
    cases h
  | cons s fields ih =>
    obtain ⟨n, s⟩ := s
    rw [fieldReader] at h
    split at h
    · rename_i hn
      obtain rfl := eq_of_beq hn
      cases h
      exact ⟨s, List.mem_cons_self, rfl⟩
    · obtain ⟨t, ht, hf⟩ := ih h
      exact ⟨t, List.mem_cons_of_mem _ ht, hf⟩

/-! ## Values -/

/-- A record starts an object or an array, whichever form it has. -/
theorem startsWith_of_record {fields : List (String × Shape)}
    (hfields : ∀ s ∈ fields, ∀ limit, Follows false limit (read s.2) (readAny false (limit + 1)))
    {v : Json} (hlimit : cs.length ≤ limit) (h : read (.record fields) cs = .ok (v, rest)) :
    ∃ w, StartsWith false limit (skipSpace cs) w rest := by
  have hcs := (skipSpace_suffix cs).length_le
  rw [read] at h
  split at h
  · rename_i tail htext
    split at h
    · cases h
    rename_i found mid hmembers
    split at h
    · cases h
    rename_i all hall
    obtain ⟨⟨all', r⟩, hr, hv⟩ := exists_of_map_eq_ok h
    cases hv
    obtain ⟨mid', hmid, hclose⟩ := closed_eq_ok hr
    cases hmid
    rw [htext, List.length_cons] at hcs
    obtain ⟨limit, rfl⟩ := Nat.exists_eq_add_one_of_ne_zero (n := limit) (by omega)
    have hread : ∀ name f, fieldReader fields name = some f →
        Follows false limit f (readAny false (limit + 1)) ∧ LeavesSuffix f := by
      intro name f hf
      obtain ⟨s, hs, rfl⟩ := exists_of_fieldReader hf
      exact ⟨hfields (name, s) hs limit, Follows.leavesSuffix (hfields (name, s) hs)⟩
    obtain ⟨ms, hms⟩ := exists_readMembers_of_readFields hread
      (fun cs v rest hcs hv => readAny_follows false (fun h => by cases h) _ limit cs v rest hcs hv)
      (by omega) hmembers []
    rw [htext]
    exact ⟨_, .object hms hclose⟩
  · rename_i tail htext
    obtain ⟨⟨all, r⟩, hr, hv⟩ := exists_of_map_eq_ok h
    cases hv
    obtain ⟨mid, hrow, hclose⟩ := closed_eq_ok hr
    rw [htext, List.length_cons] at hcs
    obtain ⟨limit, rfl⟩ := Nat.exists_eq_add_one_of_ne_zero (n := limit) (by omega)
    obtain ⟨vs, hvs⟩ := exists_readItems_of_readRow (fun s hs => hfields s hs limit)
      (fun s hs => Follows.leavesSuffix (hfields s hs)) (by omega) (Nat.le_refl _) hrow hclose []
    rw [htext]
    exact ⟨_, .array hvs hclose⟩
  · cases h

/-- What starts a value is taken by a reading of any value, whatever was read of it. -/
theorem taken_of_startsWith {text : List Char} (htext : skipSpace cs = text) {w : Json}
    (hw : StartsWith false limit text w rest) (v : Json) :
    ∃ w, readAny false (limit + 1) cs = .ok (w, rest) ∧ (false = true → w = v) :=
  ⟨_, readAny_of_startsWith htext hw, fun h => by cases h⟩

theorem read_text_follows : Follows false limit (read .text) (readAny false (limit + 1)) := by
  intro cs v rest hlimit h
  rw [read] at h
  split at h
  · rename_i tail htext
    obtain ⟨⟨t, r⟩, ht, hv⟩ := exists_of_map_eq_ok h
    cases hv
    obtain ⟨t', ht', -⟩ := readString_follows false (fun h => by cases h) tail.length tail t r
      (Nat.le_refl _) ht
    exact taken_of_startsWith htext (.string ht') _
  · cases h

theorem read_truth_follows : Follows false limit (read .truth) (readAny false (limit + 1)) := by
  intro cs v rest hlimit h
  rw [read] at h
  split at h
  · rename_i tail htext
    obtain ⟨r, hr, hv⟩ := exists_of_map_eq_ok h
    cases hv
    exact taken_of_startsWith htext (.yes hr) _
  · rename_i tail htext
    obtain ⟨r, hr, hv⟩ := exists_of_map_eq_ok h
    cases hv
    exact taken_of_startsWith htext (.no hr) _
  · cases h

theorem read_optional_follows {s : Shape}
    (hs : Follows false limit (read s) (readAny false (limit + 1))) :
    Follows false limit (read (.optional s)) (readAny false (limit + 1)) := by
  intro cs v rest hlimit h
  have hcs := (skipSpace_suffix cs).length_le
  rw [read] at h
  split at h
  · rename_i tail htext
    obtain ⟨r, hr, hv⟩ := exists_of_map_eq_ok h
    cases hv
    exact taken_of_startsWith htext (.null hr) _
  · obtain ⟨w, hw, -⟩ := hs (skipSpace cs) v rest (by omega) h
    exact ⟨w, readAny_skipSpace hw, fun h => by cases h⟩

theorem read_list_follows {s : Shape}
    (hs : ∀ limit, Follows false limit (read s) (readAny false (limit + 1))) :
    Follows false limit (read (.list s)) (readAny false (limit + 1)) := by
  intro cs v rest hlimit h
  have hcs := (skipSpace_suffix cs).length_le
  rw [read] at h
  split at h
  · rename_i tail htext
    obtain ⟨⟨vs, r⟩, hr, hv⟩ := exists_of_map_eq_ok h
    cases hv
    obtain ⟨mid, hitems, hclose⟩ := closed_eq_ok hr
    rw [htext, List.length_cons] at hcs
    obtain ⟨limit, rfl⟩ := Nat.exists_eq_add_one_of_ne_zero (n := limit) (by omega)
    obtain ⟨ws, hws, -⟩ := readItems_follows (hs limit) (Follows.leavesSuffix hs) _ true
      (fun _ => rfl) tail vs mid (by omega) hitems
    exact taken_of_startsWith htext (.array hws hclose) _
  · cases h

/-- A reading of any value takes what a reading against a shape takes. -/
theorem read_follows (s : Shape) (limit : Nat) :
    Follows false limit (read s) (readAny false (limit + 1)) := by
  match s with
  | .any =>
    intro cs v rest hlimit h
    rw [read] at h
    exact readAny_follows false (fun h => by cases h) _ limit cs v rest hlimit h
  | .text => exact read_text_follows
  | .truth => exact read_truth_follows
  | .optional s => exact read_optional_follows (read_follows s limit)
  | .list s => exact read_list_follows (read_follows s)
  | .record fields =>
    intro cs v rest hlimit h
    obtain ⟨w, hw⟩ := startsWith_of_record (fun s hs => read_follows s.2) hlimit h
    exact taken_of_startsWith rfl hw v
termination_by sizeOf s
decreasing_by
  all_goals simp
  have := List.sizeOf_lt_of_mem hs
  obtain ⟨n, s⟩ := s
  simp at this ⊢
  omega

theorem exists_read_of_decode {s : Shape} {text : String} {w : Json} (h : decode s text = .ok w) :
    ∃ rest, read s text.toList = .ok (w, rest) ∧ skipSpace rest = [] := by
  unfold decode at h
  split at h
  · cases h
  rename_i v rest hread
  split at h
  · rename_i hend
    cases h
    exact ⟨rest, hread, List.isEmpty_iff.mp hend⟩
  · cases h

/-- Only whole JSON texts decode. -/
theorem isDocument_of_decode {s : Shape} {text : String} {w : Json}
    (h : decode s text = .ok w) : IsDocument text := by
  obtain ⟨rest, hread, hend⟩ := exists_read_of_decode h
  obtain ⟨v, hv, -⟩ := read_follows s text.toList.length text.toList w rest (Nat.le_refl _) hread
  exact ⟨v, rest, hv, hend⟩

/-! ## The shapes of what is read -/

variable {s : Shape} {w : Json}

theorem read_text_eq_ok (h : read .text cs = .ok (w, rest)) : ∃ t, w = .string t := by
  rw [read] at h
  split at h
  · obtain ⟨⟨t, r⟩, -, hv⟩ := exists_of_map_eq_ok h
    cases hv
    exact ⟨t, rfl⟩
  · cases h

theorem forall_of_readItems {item : List Char → Reading Json} {P : Json → Prop}
    (h : ∀ cs v rest, item cs = .ok (v, rest) → P v) {fuel : Nat} {first : Bool}
    {done vs : List Json} (hdone : ∀ v ∈ done, P v)
    (hread : readItems item fuel first done cs = .ok (vs, rest)) : ∀ v ∈ vs, P v := by
  induction fuel generalizing first done cs with
  | zero => cases hread
  | succ fuel ih =>
    cases readItems_step hread with
    | stop hnext hvs hrest =>
      rw [hvs]
      exact fun v hv => hdone v (List.mem_reverse.mp hv)
    | more hnext hitem hrest =>
      exact ih (List.forall_mem_cons.mpr ⟨h _ _ _ hitem, hdone⟩) hrest

/-- What is read as a list are the items of it. -/
theorem read_list_eq_ok (h : read (.list s) cs = .ok (w, rest)) :
    ∃ vs, w = .array vs ∧ ∀ v ∈ vs, ∃ cs rest, read s cs = .ok (v, rest) := by
  rw [read] at h
  split at h
  · obtain ⟨⟨vs, r⟩, hr, hv⟩ := exists_of_map_eq_ok h
    cases hv
    obtain ⟨mid, hitems, -⟩ := closed_eq_ok hr
    exact ⟨vs, rfl, forall_of_readItems (fun cs v rest hv => ⟨cs, rest, hv⟩)
      (fun v hv => absurd hv List.not_mem_nil) hitems⟩
  · cases h

theorem forall_of_readFields {field : String → Option (List Char → Reading Json)}
    {P : String → Json → Prop}
    (h : ∀ k f, field k = some f → ∀ cs v rest, f cs = .ok (v, rest) → P k v) {fuel : Nat}
    {first : Bool} {found all : Found} (hfound : ∀ m ∈ found, P m.1 m.2)
    (hread : readFields field fuel first found cs = .ok (all, rest)) : ∀ m ∈ all, P m.1 m.2 := by
  induction fuel generalizing first found cs with
  | zero => cases hread
  | succ fuel ih =>
    rw [readFields] at hread
    split at hread
    · cases hread
    · cases hread
      exact hfound
    rename_i k colon hnext
    split at hread
    · split at hread
      · cases hread
      · exact ih hfound hread
    rename_i f hf
    split at hread
    · cases hread
    split at hread
    · cases hread
    rename_i v after hvalue
    cases hcolon : expectColon colon with
    | error e =>
      rw [hcolon] at hvalue
      cases hvalue
    | ok mid =>
      rw [hcolon] at hvalue
      refine ih ?_ hread
      intro m hm
      rcases List.mem_append.mp hm with hm | hm
      · exact hfound m hm
      · rw [List.mem_singleton.mp hm]
        exact h k f hf mid v after hvalue

theorem fieldReader_single {n k : String} {f : List Char → Reading Json}
    (h : fieldReader [(n, s)] k = some f) : n = k ∧ f = read s := by
  rw [fieldReader, fieldReader] at h
  split at h
  · rename_i hn
    cases h
    exact ⟨eq_of_beq hn, rfl⟩
  · cases h

/-- A record of one field is complete if the field was found. -/
theorem completeFields_single {n : String} (hs : ∀ t, s ≠ .optional t) {found : Found}
    {all : List (String × Json)} (h : completeFields found [(n, s)] = .ok all) :
    ∃ v, (n, v) ∈ found ∧ all = [(n, v)] := by
  cases hfind : found.find? fun f => f.1 == n with
  | none =>
    cases s with
    | optional t => exact absurd rfl (hs t)
    | _ =>
      simp only [completeFields, hfind, Option.map_none] at h
      cases h
  | some m =>
    simp only [completeFields, hfind, Option.map_some] at h
    cases h
    have hm := List.mem_of_find?_eq_some hfind
    have hn := List.find?_some hfind
    rw [beq_iff_eq] at hn
    subst hn
    exact ⟨m.2, hm, rfl⟩

/-- What is read as a record of one field is the field. -/
theorem read_field_eq_ok {n : String} (hs : ∀ t, s ≠ .optional t)
    (h : read (.record [(n, s)]) cs = .ok (w, rest)) :
    ∃ v, w = .object [(n, v)] ∧ ∃ cs rest, read s cs = .ok (v, rest) := by
  rw [read] at h
  split at h
  · split at h
    · cases h
    rename_i found mid hmembers
    split at h
    · cases h
    rename_i all hall
    obtain ⟨⟨all', r⟩, hr, hv⟩ := exists_of_map_eq_ok h
    cases hv
    obtain ⟨mid', hmid, -⟩ := closed_eq_ok hr
    cases hmid
    obtain ⟨v, hfound, rfl⟩ := completeFields_single hs hall
    have hfield : ∀ k f, fieldReader [(n, s)] k = some f → ∀ cs v rest, f cs = .ok (v, rest) →
        ∃ cs rest, read s cs = .ok (v, rest) := by
      intro k f hf cs v rest hv
      obtain ⟨-, rfl⟩ := fieldReader_single hf
      exact ⟨cs, rest, hv⟩
    exact ⟨v, rfl, forall_of_readFields hfield (fun m hm => absurd hm List.not_mem_nil) hmembers
      (n, v) hfound⟩
  · obtain ⟨⟨all, r⟩, hr, hv⟩ := exists_of_map_eq_ok h
    cases hv
    obtain ⟨mid, hrow, -⟩ := closed_eq_ok hr
    rw [readRow] at hrow
    split at hrow
    · cases hrow
    · cases hrow
    split at hrow
    · cases hrow
    rename_i v after hvalue
    rw [readRow] at hrow
    cases hrow
    exact ⟨v, rfl, _, _, hvalue⟩
  · cases h

end TestConversion.Json
