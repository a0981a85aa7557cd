import TestConversion.Proofs.Json.Remainders
import Mathlib.Data.List.DropRight

/-!
# Shapes of values

Reading a JSON text against a shape is the same as reading the value that it writes and fitting that
value to the shape. A member that a record has no field for is left out, whatever it holds, and a
field may stand in an object only once.

* `fit`: a value as a shape takes it.
* `decode_of_parse?`: a text of a value decodes to the value as the shape takes it.
-/

namespace TestConversion.Json

/-- The fields that are found among the members of an object. -/
def gather (field : String → Option (Json → Option Json)) :
    Found → List (String × Json) → Option Found
  | found, [] => some found
  | found, (k, v) :: ms =>
    match field k with
    | none => gather field found ms
    | some fit =>
      if found.any (·.1 == k) then none
      else (fit v).bind fun w => gather field (found ++ [(k, w)]) ms

mutual

/-- A value as a shape takes it. -/
def fit : Shape → Json → Option Json
  | .any, v => some v
  | .text, .string s => some (.string s)
  | .truth, .bool b => some (.bool b)
  | .optional _, .null => some .null
  | .optional s, v => fit s v
  | .list s, .array vs => (vs.mapM (fit s)).map .array
  | .record fields, .object ms =>
    (gather (fieldFit fields) [] ms).bind fun found =>
      (completeFields found fields).toOption.map .object
  | .record fields, .array vs => (fitRow fields vs).map .object
  | _, _ => none

/-- How the value of a field is taken. -/
def fieldFit (fields : List (String × Shape)) (name : String) : Option (Json → Option Json) :=
  match fields with
  | [] => none
  | (n, s) :: rest => if n == name then some (fit s) else fieldFit rest name

/-- The fields of a record from items in their order. -/
def fitRow : List (String × Shape) → List Json → Option (List (String × Json))
  | [], [] => some []
  | (n, s) :: rest, v :: vs =>
    (fit s v).bind fun w => (fitRow rest vs).map ((n, w) :: ·)
  | _, _ => none

end

/-- The second reader reads what the first one reads, as the function takes it. -/
def ReadsAs (f g : List Char → Reading Json) (k : Json → Option Json) : Prop :=
  ∀ cs v rest, f cs = .ok (v, rest) → (g cs).toOption = (k v).map fun w => (w, rest)

variable {f g : List Char → Reading Json} {k : Json → Option Json} {cs rest : List Char}

theorem reading_cases {α : Type} {x : Reading α} {o : Option α}
    (h : x.toOption = o.map fun v => (v, rest)) :
    (o = none ∧ ∃ e, x = .error e) ∨ ∃ v, o = some v ∧ x = .ok (v, rest) := by
  cases x with
  | error e =>
    cases o with
    | none => exact Or.inl ⟨rfl, e, rfl⟩
    | some v => cases h
  | ok r =>
    cases o with
    | none => cases h
    | some v =>
      cases h
      exact Or.inr ⟨v, rfl, rfl⟩

theorem ReadsAs.cases (hk : ReadsAs f g k) {v : Json} (h : f cs = .ok (v, rest)) :
    (k v = none ∧ ∃ e, g cs = .error e) ∨ ∃ w, k v = some w ∧ g cs = .ok (w, rest) :=
  reading_cases (hk cs v rest h)

/-! ## Lists and rows -/

theorem readItems_readsAs (hk : ReadsAs f g k) {fuel : Nat} {first : Bool} {done vs : List Json}
    (h : readItems f fuel first done cs = .ok (vs, rest)) (done' : List Json) :
    ∃ new, vs = done.reverse ++ new ∧ (readItems g fuel first done' cs).toOption =
      (new.mapM k).map fun ws => (done'.reverse ++ ws, rest) := by
  induction fuel generalizing first done done' cs with
  | zero => cases h
  | succ fuel ih =>
    rw [readItems]
    cases readItems_step h with
    | stop hnext hvs hrest =>
      rw [hnext, hrest, hvs]
      exact ⟨[], by simp, by simp [Except.toOption]⟩
    | @more mid after v hnext hitem hrest =>
      rw [hnext]
      rcases hk.cases hitem with ⟨hv, e, hg⟩ | ⟨w, hv, hg⟩
      · obtain ⟨new, hnew, -⟩ := ih hrest []
        exact ⟨v :: new, by simp [hnew], by simp [hg, hv, Except.toOption]⟩
      · obtain ⟨new, hnew, hread⟩ := ih hrest (w :: done')
        refine ⟨v :: new, by simp [hnew], ?_⟩
        simp only [hg, hread, List.mapM_cons, hv]
        cases new.mapM k <;> simp

theorem expectClose_of_nextItem {first : Bool} {mid : List Char}
    (h : nextItem first cs = .ok (some mid)) : ∃ e, expectClose ']' cs = .error e := by
  unfold nextItem at h
  unfold expectClose
  split at h
  · cases h
  · rename_i c after hc
    split at h
    · cases h
    · rename_i hclose
      exact ⟨.malformed, by simp [hclose]⟩

theorem closed_error {α : Type} (close : Char) (e : Failure) :
    (closed close (.error e : Reading α)).toOption = none := rfl

theorem closed_cons (close : Char) (m : String × Json)
    (reading : Reading (List (String × Json))) :
    (closed close (match reading with
      | .error e => .error e
      | .ok (ms, cs) => .ok (m :: ms, cs))).toOption =
        (closed close reading).toOption.map fun r => (m :: r.1, r.2) := by
  cases reading with
  | error e => rfl
  | ok r =>
    obtain ⟨ms, cs⟩ := r
    simp only [closed]
    cases expectClose close cs <;> rfl

/-- The fields of a record are taken from the items of an array if there is an item for each. -/
theorem closed_readRow {fields : List (String × Shape)}
    (hk : ∀ s ∈ fields, ReadsAs f (read s.2) (fit s.2)) {fuel : Nat} {first : Bool}
    {done vs : List Json} {mid : List Char} (h : readItems f fuel first done cs = .ok (vs, mid))
    (hclose : expectClose ']' mid = .ok rest) :
    ∃ new, vs = done.reverse ++ new ∧ (closed ']' (readRow fields first cs)).toOption =
      (fitRow fields new).map fun ws => (ws, rest) := by
  induction fuel generalizing fields first done cs with
  | zero => cases h
  | succ fuel ih =>
    cases readItems_step h with
    | stop hnext hvs hrest =>
      rw [hrest] at hclose
      refine ⟨[], by simpa using hvs, ?_⟩
      cases fields with
      | nil => simp [readRow, fitRow, closed, hclose, Except.map, Except.toOption]
      | cons s fields => simp [readRow, fitRow, hnext, closed_error]
    | @more mid' after v hnext hitem hrest =>
      cases fields with
      | nil =>
        have hnil : ∀ s ∈ ([] : List (String × Shape)), ReadsAs f (read s.2) (fit s.2) :=
          fun s h => absurd h List.not_mem_nil
        obtain ⟨new, hnew, -⟩ := ih hnil hrest
        obtain ⟨e, he⟩ := expectClose_of_nextItem hnext
        refine ⟨v :: new, by simp [hnew], ?_⟩
        simp [readRow, fitRow, closed, he, Except.map, Except.toOption]
      | cons s fields =>
        obtain ⟨n, s⟩ := s
        obtain ⟨new, hnew, hread⟩ := ih (fun s hs => hk s (List.mem_cons_of_mem _ hs)) hrest
        refine ⟨v :: new, by simp [hnew], ?_⟩
        rcases (hk (n, s) List.mem_cons_self).cases hitem with ⟨hv, e, hg⟩ | ⟨w, hv, hg⟩
        · simp [readRow, hnext, hg, fitRow, hv, closed_error]
        · rw [readRow, hnext]
          simp only [hg]
          refine (closed_cons ']' (n, w) (readRow fields false after)).trans ?_
          rw [hread, fitRow, hv, Option.bind_some, Option.map_map, Option.map_map]
          rfl

/-! ## Records -/

/-- Fields are found among the members as they are read. -/
theorem readFields_readsAs {field : String → Option (List Char → Reading Json)}
    {fit' : String → Option (Json → Option Json)}
    (hk : ∀ name, Option.Rel (ReadsAs f) (field name) (fit' name))
    (hskip : ∀ cs v rest, f cs = .ok (v, rest) → ∃ w, readAny false (anyFuel cs) cs = .ok (w, rest))
    {fuel : Nat} {first : Bool} {done ms : List (String × Json)}
    (h : readMembers true f fuel first done cs = .ok (ms, rest)) (found : Found) :
    ∃ new, ms = done.reverse ++ new ∧ (readFields field fuel first found cs).toOption =
      (gather fit' found new).map fun all => (all, rest) := by
  induction fuel generalizing first done found cs with
  | zero => cases h
  | succ fuel ih =>
    rw [readFields]
    cases readMembers_step h with
    | stop hnext hms hrest =>
      rw [hnext, hrest, hms]
      exact ⟨[], by simp, by simp [gather, Except.toOption]⟩
    | @more quoted colon mid after k v hquoted hnext hkey hcolon hvalue hrest =>
      rw [hnext, hkey]
      simp only [Except.map, hcolon, Except.bind]
      have hfield := hk k
      generalize field k = reader at hfield ⊢
      generalize hfit : fit' k = c at hfield
      cases hfield with
      | none =>
        obtain ⟨w, hw⟩ := hskip mid v after hvalue
        obtain ⟨new, hnew, hfound⟩ := ih hrest found
        refine ⟨(k, v) :: new, by simp [hnew], ?_⟩
        simp only [hw, gather, hfit]
        exact hfound
      | some hg =>
        by_cases hany : (found.any fun m => m.1 == k) = true
        · obtain ⟨new, hnew, -⟩ := ih hrest []
          refine ⟨(k, v) :: new, by simp [hnew], ?_⟩
          simp only [hany, gather, hfit, if_true]
          rfl
        · simp only [hany, Bool.false_eq_true, if_false]
          rcases hg.cases hvalue with ⟨hv, e, hg⟩ | ⟨w, hv, hg⟩
          · obtain ⟨new, hnew, -⟩ := ih hrest []
            refine ⟨(k, v) :: new, by simp [hnew], ?_⟩
            simp only [hg, gather, hfit, hany, Bool.false_eq_true, if_false, hv, Option.bind_none]
            rfl
          · obtain ⟨new, hnew, hfound⟩ := ih hrest (found ++ [(k, w)])
            refine ⟨(k, v) :: new, by simp [hnew], ?_⟩
            simp only [hg, gather, hfit, hany, Bool.false_eq_true, if_false, hv, Option.bind_some]
            exact hfound

theorem fieldReader_readsAs {fields : List (String × Shape)}
    (hk : ∀ s ∈ fields, ReadsAs f (read s.2) (fit s.2)) (name : String) :
    Option.Rel (ReadsAs f) (fieldReader fields name) (fieldFit fields name) := by
  induction fields with
  | nil =>
    rw [fieldReader, fieldFit]
    exact .none
  | cons s fields ih =>
    obtain ⟨n, s⟩ := s
    rw [fieldReader, fieldFit]
    by_cases hn : (n == name) = true
    · rw [if_pos hn, if_pos hn]
      exact .some (hk (n, s) List.mem_cons_self)
    · rw [if_neg hn, if_neg hn]
      exact ih fun s hs => hk s (List.mem_cons_of_mem _ hs)

/-! ## Values -/

theorem skipSpace_skipSpace (cs : List Char) : skipSpace (skipSpace cs) = skipSpace cs :=
  List.dropWhile_idempotent isSpace cs

theorem toOption_map {α β : Type} (x : Except Failure α) (h : α → β) :
    (x.map h).toOption = x.toOption.map h := by
  cases x <;> rfl

theorem closed_readsAs {α : Type} {close : Char} {reading : Reading α} {o : Option α}
    {mid : List Char} (h : reading.toOption = o.map fun v => (v, mid))
    (hclose : expectClose close mid = .ok rest) :
    (closed close reading).toOption = o.map fun v => (v, rest) := by
  rcases reading_cases h with ⟨rfl, e, rfl⟩ | ⟨v, rfl, rfl⟩
  · rfl
  · simp [closed, hclose, Except.map, Except.toOption]

/-! ### Values of each shape

What starts a value decides which shapes take it; a value that starts otherwise is a mismatch. -/

variable {fuel : Nat} {s : Shape} {fields : List (String × Shape)}

theorem read_any_readsAs : ReadsAs (readAny true (fuel + 1)) (read .any) (fit .any) := by
  intro cs v rest h
  obtain ⟨w, hw, heq⟩ :=
    readAny_follows true (fun _ => rfl) (fuel + 1) cs.length cs v rest (Nat.le_refl _) h
  rw [read, anyFuel, hw, heq rfl, fit]
  rfl

theorem read_text_readsAs : ReadsAs (readAny true (fuel + 1)) (read .text) (fit .text) := by
  intro cs v rest h
  have hstart := startsWith_of_readAny h
  rw [read]
  generalize skipSpace cs = text at hstart
  cases hstart with
  | string hs => simp [hs, fit, Except.map, Except.toOption]
  | number hc hn =>
    split
    · rename_i hquote
      exact absurd hquote (hc.cons_ne rfl (by decide) _ _)
    · rfl
  | _ => simp [fit, Except.toOption]

theorem read_truth_readsAs : ReadsAs (readAny true (fuel + 1)) (read .truth) (fit .truth) := by
  intro cs v rest h
  have hstart := startsWith_of_readAny h
  rw [read]
  generalize skipSpace cs = text at hstart
  cases hstart with
  | @yes tail _ hw =>
    change ((expectWord "rue".toList tail).map _).toOption = _
    rw [hw]
    rfl
  | @no tail _ hw =>
    change ((expectWord "alse".toList tail).map _).toOption = _
    rw [hw]
    rfl
  | number hc hn =>
    split
    · rename_i ht
      exact absurd ht (hc.cons_ne rfl (by decide) _ _)
    · rename_i hf
      exact absurd hf (hc.cons_ne rfl (by decide) _ _)
    · rfl
  | _ => simp [fit, Except.toOption]

theorem read_optional_readsAs (hs : ReadsAs (readAny true (fuel + 1)) (read s) (fit s)) :
    ReadsAs (readAny true (fuel + 1)) (read (.optional s)) (fit (.optional s)) := by
  intro cs v rest h
  have hstart := startsWith_of_readAny h
  have hskipped := hs (skipSpace cs) v rest
    (readAny_of_startsWith (skipSpace_skipSpace cs) hstart)
  rw [read]
  generalize skipSpace cs = text at hstart hskipped
  cases hstart with
  | @null tail _ hw =>
    change ((expectWord "ull".toList tail).map _).toOption = _
    rw [hw]
    rfl
  | number hc hn =>
    split
    · rename_i hnull
      exact absurd hnull (hc.cons_ne rfl (by decide) _ _)
    · exact hskipped
  | _ => exact hskipped

theorem read_list_readsAs (hs : ReadsAs (readAny true fuel) (read s) (fit s)) :
    ReadsAs (readAny true (fuel + 1)) (read (.list s)) (fit (.list s)) := by
  intro cs v rest h
  have hstart := startsWith_of_readAny h
  rw [read]
  generalize skipSpace cs = text at hstart
  cases hstart with
  | array hitems hclose =>
    obtain ⟨new, hnew, hread⟩ := readItems_readsAs hs hitems []
    rw [List.reverse_nil, List.nil_append] at hnew
    rw [hnew]
    simp only [toOption_map, closed_readsAs hread hclose, fit, Option.map_map]
    rfl
  | number hc hn =>
    split
    · rename_i hopen
      exact absurd hopen (hc.cons_ne rfl (by decide) _ _)
    · rfl
  | _ => simp [fit, Except.toOption]

/-- The members of an object are read as the fields of a record. -/
theorem closed_readFields_readsAs
    (hfields : ∀ s ∈ fields, ReadsAs (readAny true fuel) (read s.2) (fit s.2)) {limit : Nat}
    {ms : List (String × Json)} {mid : List Char}
    (hmembers : readMembers true (readAny true fuel) limit true [] cs = .ok (ms, mid))
    (hclose : expectClose '\x7d' mid = .ok rest) :
    (match readFields (fieldReader fields) limit true [] cs with
      | .error e => .error e
      | .ok (found, rest) =>
        match completeFields found fields with
        | .error e => .error e
        | .ok all => (closed '\x7d' (.ok (all, rest))).map fun r => (Json.object r.1, r.2)
      : Reading Json).toOption = (fit (.record fields) (.object ms)).map fun w => (w, rest) := by
  obtain ⟨new, hnew, hread⟩ := readFields_readsAs (fieldReader_readsAs hfields)
    (fun cs v rest h => (readAny_follows false (fun _ => rfl) fuel cs.length cs v rest
      (Nat.le_refl _) h).imp fun _ hw => hw.1) hmembers []
  rw [List.reverse_nil, List.nil_append] at hnew
  rw [hnew, fit]
  rcases reading_cases hread with ⟨hgather, e, hfound⟩ | ⟨found, hgather, hfound⟩
  · simp [hgather, hfound, Except.toOption]
  · simp only [hgather, hfound, Option.bind_some]
    cases completeFields found fields with
    | error e => rfl
    | ok all => simp [closed, hclose, Except.map, Except.toOption]

theorem read_record_readsAs
    (hfields : ∀ s ∈ fields, ReadsAs (readAny true fuel) (read s.2) (fit s.2)) :
    ReadsAs (readAny true (fuel + 1)) (read (.record fields)) (fit (.record fields)) := by
  intro cs v rest h
  have hstart := startsWith_of_readAny h
  rw [read]
  generalize skipSpace cs = text at hstart
  cases hstart with
  | array hitems hclose =>
    obtain ⟨new, hnew, hread⟩ := closed_readRow hfields hitems hclose
    rw [List.reverse_nil, List.nil_append] at hnew
    rw [hnew]
    simp only [toOption_map, hread, fit, Option.map_map]
    rfl
  | object hmembers hclose => exact closed_readFields_readsAs hfields hmembers hclose
  | number hc hn =>
    split
    · rename_i hopen
      exact absurd hopen (hc.cons_ne rfl (by decide) _ _)
    · rename_i hopen
      exact absurd hopen (hc.cons_ne rfl (by decide) _ _)
    · rfl
  | _ => simp [fit, Except.toOption]

/-- What is read as any value is read against a shape as the shape takes it. -/
theorem read_readsAs (s : Shape) (fuel : Nat) : ReadsAs (readAny true fuel) (read s) (fit s) := by
  cases fuel with
  | zero =>
    intro cs v rest h
    cases h
  | succ fuel =>
    match s with
    | .any => exact read_any_readsAs
    | .text => exact read_text_readsAs
    | .truth => exact read_truth_readsAs
    | .optional s => exact read_optional_readsAs (read_readsAs s (fuel + 1))
    | .list s => exact read_list_readsAs (read_readsAs s fuel)
    | .record fields => exact read_record_readsAs fun s hs => read_readsAs s.2 fuel
termination_by sizeOf s
decreasing_by
  · simp
  · simp
  · have := List.sizeOf_lt_of_mem hs
    obtain ⟨n, s⟩ := s
    simp at this ⊢
    omega

/-- A text of a value decodes to the value as the shape takes it. -/
theorem decode_of_parse? {text : String} {v : Json} (h : parse? text = some v) (s : Shape) :
    (fit s v = none ∧ ∃ e, decode s text = .error e) ∨
      ∃ w, fit s v = some w ∧ decode s text = .ok w := by
  have hany : decode .any text = .ok v := by
    rw [parse?] at h
    cases hd : decode .any text with
    | error e =>
      rw [hd] at h
      cases h
    | ok w =>
      rw [hd] at h
      cases h
      rfl
  rw [decode, read] at hany
  split at hany
  · cases hany
  · rename_i w rest hread
    split at hany
    · rename_i hend
      cases hany
      rw [decode]
      rcases (read_readsAs s _).cases hread with ⟨hv, e, hs⟩ | ⟨w, hv, hs⟩
      · exact Or.inl ⟨hv, e, by rw [hs]⟩
      · exact Or.inr ⟨w, hv, by simp [hs, hend]⟩
    · cases hany

/-! ## Fields -/

/-- The values of all members of a name. -/
def valuesOf (ms : List (String × Json)) (name : String) : List Json :=
  (ms.filter fun m => m.1 == name).map (·.2)

/-- The value of a field that has these values in an object. -/
def fieldValue : Shape → List Json → Option Json
  | s, [v] => fit s v
  | .optional _, [] => some .null
  | _, _ => none

theorem valuesOf_cons (m : String × Json) (ms : List (String × Json)) (name : String) :
    valuesOf (m :: ms) name = if m.1 = name then m.2 :: valuesOf ms name else valuesOf ms name := by
  rw [valuesOf, List.filter_cons]
  by_cases h : m.1 = name <;> simp [h, valuesOf]

variable {field : String → Option (Json → Option Json)} {found all : Found}
  {ms : List (String × Json)} {name : String} {c : Json → Option Json}

/-- A field is found where it stands in the object once. -/
theorem find?_of_gather (hc : field name = some c) (h : gather field found ms = some all) :
    (valuesOf ms name = [] ∧ all.find? (·.1 == name) = found.find? (·.1 == name)) ∨
      (found.any (·.1 == name) = false ∧ ∃ v w, valuesOf ms name = [v] ∧ c v = some w ∧
        all.find? (·.1 == name) = some (name, w)) := by
  induction ms generalizing found with
  | nil =>
    cases h
    exact Or.inl ⟨rfl, rfl⟩
  | cons m ms ih =>
    obtain ⟨k, v⟩ := m
    rw [valuesOf_cons]
    rw [gather] at h
    split at h
    · rename_i hk
      have hne : k ≠ name := by
        rintro rfl
        rw [hk] at hc
        cases hc
      simp only [hne, if_false]
      exact ih h
    · rename_i fit hk
      split at h
      · cases h
      · rename_i hany
        obtain ⟨w, hw, hrest⟩ := Option.bind_eq_some_iff.mp h
        by_cases hname : k = name
        · subst hname
          rw [hk] at hc
          cases hc
          simp only [if_true]
          have hnone : found.find? (·.1 == k) = none := by
            rw [List.find?_eq_none]
            intro f hf hfk
            exact hany (List.any_eq_true.mpr ⟨f, hf, hfk⟩)
          rcases ih hrest with ⟨hvs, hall⟩ | ⟨hfresh, -⟩
          · refine Or.inr ⟨Bool.eq_false_iff.mpr hany, v, w, by rw [hvs], hw, ?_⟩
            rw [hall, List.find?_append, hnone]
            simp
          · simp at hfresh
        · have hne : (k == name) = false := by simpa using hname
          simp only [hname, if_false]
          have hfind := ih hrest
          simpa [List.find?_append, List.any_append, hne] using hfind

/-- Fields are not found where one stands in the object twice or does not fit. -/
theorem exists_of_gather (h : gather field found ms = none) :
    ∃ name c, field name = some c ∧ ((found.any (·.1 == name) = true ∧ valuesOf ms name ≠ []) ∨
      ∃ v vs, valuesOf ms name = v :: vs ∧ (c v = none ∨ vs ≠ [])) := by
  induction ms generalizing found with
  | nil => cases h
  | cons m ms ih =>
    obtain ⟨k, v⟩ := m
    rw [gather] at h
    split at h
    · rename_i hk
      obtain ⟨name, c, hc, hbad⟩ := ih h
      have hne : k ≠ name := by
        rintro rfl
        rw [hk] at hc
        cases hc
      refine ⟨name, c, hc, ?_⟩
      rw [valuesOf_cons, if_neg hne]
      exact hbad
    · rename_i c hk
      split at h
      · rename_i hany
        refine ⟨k, c, hk, Or.inl ⟨hany, ?_⟩⟩
        rw [valuesOf_cons, if_pos rfl]
        exact List.cons_ne_nil _ _
      · rename_i hany
        rw [Option.bind_eq_none_iff] at h
        cases hv : c v with
        | none =>
          exact ⟨k, c, hk, Or.inr ⟨v, _, by rw [valuesOf_cons, if_pos rfl], Or.inl hv⟩⟩
        | some w =>
          obtain ⟨name, d, hd, hbad⟩ := ih (h w hv)
          by_cases hname : k = name
          · subst hname
            refine ⟨k, c, hk, Or.inr ⟨v, _, by rw [valuesOf_cons, if_pos rfl], Or.inr ?_⟩⟩
            rcases hbad with ⟨-, hvs⟩ | ⟨u, vs, hvs, -⟩
            · exact hvs
            · rw [hvs]
              exact List.cons_ne_nil _ _
          · have hne : (k == name) = false := by simpa using hname
            refine ⟨name, d, hd, ?_⟩
            rw [valuesOf_cons, if_neg hname]
            simpa [List.any_append, hne] using hbad

theorem exists_of_fieldFit {fields : List (String × Shape)} (h : fieldFit fields name = some c) :
    ∃ s, (name, s) ∈ fields ∧ c = fit s := by
  induction fields with
  | nil =>
    rw [fieldFit] at h
    cases h
  | cons f fields ih =>
    obtain ⟨n, s⟩ := f
    rw [fieldFit] at h
    split at h
    · rename_i hn
      obtain rfl := eq_of_beq hn
      cases h
      exact ⟨s, List.mem_cons_self, rfl⟩
    · obtain ⟨t, ht, hc⟩ := ih h
      exact ⟨t, List.mem_cons_of_mem _ ht, hc⟩

theorem fieldFit_of_mem {fields : List (String × Shape)} (hd : (fields.map Prod.fst).Nodup)
    {s : Shape} (h : (name, s) ∈ fields) : fieldFit fields name = some (fit s) := by
  induction fields with
  | nil => cases h
  | cons f fields ih =>
    obtain ⟨n, t⟩ := f
    rw [List.map_cons, List.nodup_cons] at hd
    rw [fieldFit]
    rcases List.mem_cons.mp h with heq | h
    · cases heq
      rw [if_pos (beq_self_eq_true name)]
    · have hne : n ≠ name := by
        rintro rfl
        exact hd.1 (List.mem_map.mpr ⟨_, h, rfl⟩)
      rw [if_neg (by simpa using hne)]
      exact ih hd.2 h

/-- The fields of a record with their values in an object. -/
def fieldValues (fields : List (String × Shape)) (ms : List (String × Json)) :
    Option (List (String × Json)) :=
  fields.mapM fun s => (fieldValue s.2 (valuesOf ms s.1)).map fun w => (s.1, w)

theorem fieldValues_nil (ms : List (String × Json)) : fieldValues [] ms = some [] := rfl

theorem fieldValues_cons (n : String) (s : Shape) (fields : List (String × Shape))
    (ms : List (String × Json)) : fieldValues ((n, s) :: fields) ms =
      (fieldValue s (valuesOf ms n)).bind fun w => (fieldValues fields ms).map ((n, w) :: ·) := by
  rw [fieldValues, List.mapM_cons, ← fieldValues]
  dsimp only
  cases fieldValue s (valuesOf ms n) with
  | none => rfl
  | some w => cases fieldValues fields ms <;> rfl

theorem completeFields_toOption {fields : List (String × Shape)}
    (h : ∀ s ∈ fields, (valuesOf ms s.1 = [] ∧ found.find? (·.1 == s.1) = none) ∨
      ∃ v w, valuesOf ms s.1 = [v] ∧ fit s.2 v = some w ∧
        found.find? (·.1 == s.1) = some (s.1, w)) :
    (completeFields found fields).toOption = fieldValues fields ms := by
  induction fields with
  | nil => rfl
  | cons s fields ih =>
    obtain ⟨n, s⟩ := s
    have hrest := ih fun s hs => h s (List.mem_cons_of_mem _ hs)
    rw [fieldValues_cons, ← hrest]
    rcases h (n, s) List.mem_cons_self with ⟨hvs, hfind⟩ | ⟨v, w, hvs, hv, hfind⟩
    · dsimp only at hvs hfind
      cases s with
      | optional s =>
        simp only [completeFields, hvs, hfind, fieldValue, Option.map_none, toOption_map]
        rfl
      | _ => simp [completeFields, hvs, hfind, fieldValue, Except.toOption]
    · dsimp only at hvs hv hfind
      simp only [completeFields, hvs, hfind, fieldValue, hv, Option.map_some, toOption_map]
      rfl

theorem mapM_eq_some_map {α β : Type} {h : α → Option β} {h' : α → β} {xs : List α}
    (hsome : ∀ x ∈ xs, h x = some (h' x)) : xs.mapM h = some (xs.map h') := by
  induction xs with
  | nil => rfl
  | cons x xs ih =>
    have hrest := ih fun y hy => hsome y (List.mem_cons_of_mem _ hy)
    rw [List.mapM_cons, hsome x List.mem_cons_self, hrest]
    rfl

theorem mapM_eq_none {α β : Type} {h : α → Option β} {xs : List α} {x : α} (hx : x ∈ xs)
    (hnone : h x = none) : xs.mapM h = none := by
  induction xs with
  | nil => cases hx
  | cons y ys ih =>
    rw [List.mapM_cons]
    rcases List.mem_cons.mp hx with rfl | hx
    · rw [hnone]
      rfl
    · rw [ih hx]
      cases h y <;> rfl

/-- An object fits a record if every field stands in it once and fits, but optional fields may be
missing. -/
theorem fit_record {fields : List (String × Shape)} (hd : (fields.map Prod.fst).Nodup)
    (ms : List (String × Json)) :
    fit (.record fields) (.object ms) = (fieldValues fields ms).map .object := by
  rw [fit]
  cases h : gather (fieldFit fields) [] ms with
  | none =>
    obtain ⟨name, c, hc, ⟨hfound, -⟩ | ⟨v, vs, hvs, hbad⟩⟩ := exists_of_gather h
    · cases hfound
    · obtain ⟨s, hs, rfl⟩ := exists_of_fieldFit hc
      have hnone : fieldValue s (valuesOf ms name) = none := by
        rw [hvs]
        rcases hbad with hv | hne
        · cases vs with
          | nil => rw [fieldValue, hv]
          | cons u vs => cases s <;> rfl
        · obtain ⟨u, vs, rfl⟩ := List.exists_cons_of_ne_nil hne
          cases s <;> rfl
      rw [fieldValues, mapM_eq_none hs (by rw [hnone]; rfl)]
      rfl
  | some found =>
    rw [Option.bind_some, completeFields_toOption]
    intro s hs
    rcases find?_of_gather (fieldFit_of_mem hd hs) h with ⟨hvs, hfind⟩ | ⟨-, v, w, hvs, hv, hfind⟩
    · exact Or.inl ⟨hvs, hfind⟩
    · exact Or.inr ⟨v, w, hvs, hv, hfind⟩

end TestConversion.Json
