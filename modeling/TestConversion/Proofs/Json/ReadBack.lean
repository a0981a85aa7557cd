import TestConversion.Proofs.Json.Remainders
import TestConversion.Proofs.Json.Strings
import Mathlib.Data.List.Forall2
import Mathlib.Data.List.Nodup

/-!
# Reading back what was written

A value whose numbers are numerals is read back from its written form, in every layout whose breaks
are blanks, and whatever text comes after it if it does not go on with a number. A record is read
back with its fields in any order.

* `readsBack_list`, `readsBack_record`: lists and records are read back if their parts are.
* `HasNumerals.readsBack_any`: without a shape, a value is read back as it is.
* `le_toNat_of_mem_compact`: on one line there is no control character.
-/

namespace TestConversion.Json

variable {l : Layout}

def IsNumber : Json → Prop
  | .number _ => True
  | _ => False

/-- The reader gives the second value for the written form of the first one, whatever comes before
it in blanks and after it in text that does not go on with a number. -/
def ReadsBack (l : Layout) (reader : List Char → Reading Json) (v w : Json) : Prop :=
  ∀ bs depth rest, IsBlank bs → (IsNumber v → EndsNumber rest) →
    reader (bs ++ write l depth v rest) = .ok (w, rest)

/-! ## Sizes -/

mutual

/-- How deep arrays and objects stand in each other. -/
def height : Json → Nat
  | .array vs => 1 + heights vs
  | .object ms => 1 + memberHeights ms
  | _ => 0

def heights : List Json → Nat
  | [] => 0
  | v :: vs => max (height v) (heights vs)

def memberHeights : List (String × Json) → Nat
  | [] => 0
  | (_, v) :: ms => max (height v) (memberHeights ms)

end

mutual

theorem height_le_write (l : Layout) (depth : Nat) (v : Json) (rest : List Char) :
    height v + rest.length ≤ (write l depth v rest).length := by
  match v with
  | .null => simp [height, write]; omega
  | .bool true => simp [height, write]; omega
  | .bool false => simp [height, write]; omega
  | .number t => simp [height, write]
  | .string s =>
    have := length_lt_afterQuote s.toList rest
    simp only [height, write, writeString_eq, List.length_cons]
    omega
  | .array [] => simp [height, heights, write]; omega
  | .array (v :: vs) =>
    have hvs := heights_le_writeItems l (depth + 1) vs (l.break_ depth ++ ']' :: rest)
    have hv := height_le_write l (depth + 1) v
      (writeItems l (depth + 1) vs (l.break_ depth ++ ']' :: rest))
    simp only [height, heights, write, List.length_cons, List.length_append] at hvs hv ⊢
    omega
  | .object [] => simp [height, memberHeights, write]; omega
  | .object ((k, v) :: ms) =>
    have hms := memberHeights_le_writeMembers l (depth + 1) ms (l.break_ depth ++ '\x7d' :: rest)
    have hv := height_le_write l (depth + 1) v
      (writeMembers l (depth + 1) ms (l.break_ depth ++ '\x7d' :: rest))
    have hk := length_lt_afterQuote k.toList (l.colon ++ write l (depth + 1) v
      (writeMembers l (depth + 1) ms (l.break_ depth ++ '\x7d' :: rest)))
    simp only [height, memberHeights, write, writeString_eq, List.length_cons,
      List.length_append] at hms hv hk ⊢
    omega

theorem heights_le_writeItems (l : Layout) (depth : Nat) (vs : List Json) (rest : List Char) :
    max vs.length (heights vs) + rest.length ≤ (writeItems l depth vs rest).length := by
  match vs with
  | [] => simp [heights, writeItems]
  | v :: vs =>
    have hvs := heights_le_writeItems l depth vs rest
    have hv := height_le_write l depth v (writeItems l depth vs rest)
    simp only [heights, writeItems, List.length_cons, List.length_append] at hvs hv ⊢
    omega

theorem memberHeights_le_writeMembers (l : Layout) (depth : Nat) (ms : List (String × Json))
    (rest : List Char) :
    max ms.length (memberHeights ms) + rest.length ≤ (writeMembers l depth ms rest).length := by
  match ms with
  | [] => simp [memberHeights, writeMembers]
  | (k, v) :: ms =>
    have hms := memberHeights_le_writeMembers l depth ms rest
    have hv := height_le_write l depth v (writeMembers l depth ms rest)
    have hk := length_lt_afterQuote k.toList (l.colon ++ write l depth v (writeMembers l depth ms rest))
    simp only [memberHeights, writeMembers, writeString_eq, List.length_cons,
      List.length_append] at hms hv hk ⊢
    omega

end

/-! ## Strings, truth values and options -/

theorem readsBack_text (l : Layout) (s : String) :
    ReadsBack l (read .text) (.string s) (.string s) := by
  intro bs depth rest hb _
  rw [read, write, writeString_eq, hb.skipSpace_append_cons rfl]
  simp only [readString_writeString]
  rfl

theorem readsBack_truth (l : Layout) (b : Bool) : ReadsBack l (read .truth) (.bool b) (.bool b) := by
  intro bs depth rest hb _
  cases b with
  | true =>
    have hw : write l depth (.bool true) rest = 't' :: ("rue".toList ++ rest) := rfl
    rw [read, hw, hb.skipSpace_append_cons rfl]
    rfl
  | false =>
    have hw : write l depth (.bool false) rest = 'f' :: ("alse".toList ++ rest) := rfl
    rw [read, hw, hb.skipSpace_append_cons rfl]
    rfl

theorem readsBack_optional_text (l : Layout) (o : Option String) :
    ReadsBack l (read (.optional .text)) (.ofOption o) (.ofOption o) := by
  intro bs depth rest hb _
  cases o with
  | none =>
    have hw : write l depth .null rest = 'n' :: ("ull".toList ++ rest) := rfl
    rw [read, Json.ofOption, hw, hb.skipSpace_append_cons rfl]
    rfl
  | some s =>
    have hread := readsBack_text l s [] depth rest isBlank_nil False.elim
    rw [List.nil_append, write, writeString_eq] at hread
    rw [read, Json.ofOption, write, writeString_eq, hb.skipSpace_append_cons rfl]
    exact hread

/-! ## Items -/

/-- A value that is a number is a numeral. -/
def HasNumeral : Json → Prop
  | .number t => IsNumeral t.toList
  | _ => True

theorem LeadsNumeral.isSpace {c : Char} (h : LeadsNumeral c) : isSpace c = false := by
  have hspace := h.ne (d := ' ') rfl (by decide)
  have hline := h.ne (d := '\n') rfl (by decide)
  have htab := h.ne (d := '\t') rfl (by decide)
  have hreturn := h.ne (d := '\r') rfl (by decide)
  simp [Json.isSpace, hspace, hline, htab, hreturn]

/-- No value starts with a blank or closes an array. -/
theorem exists_opener {v : Json} (hv : HasNumeral v) (l : Layout) (depth : Nat)
    (rest : List Char) :
    ∃ c cs, write l depth v rest = c :: cs ∧ isSpace c = false ∧ c ≠ ']' := by
  match v with
  | .null => exact ⟨'n', _, rfl, by decide⟩
  | .bool true => exact ⟨'t', _, rfl, by decide⟩
  | .bool false => exact ⟨'f', _, rfl, by decide⟩
  | .number t =>
    obtain ⟨c, cs, ht, hc⟩ := IsNumeral.exists_cons hv
    exact ⟨c, cs ++ rest, by rw [write, ht]; rfl, hc.isSpace, hc.ne rfl (by decide)⟩
  | .string s => exact ⟨'"', _, rfl, by decide⟩
  | .array [] => exact ⟨'[', _, rfl, by decide⟩
  | .array (v :: vs) => exact ⟨'[', _, rfl, by decide⟩
  | .object [] => exact ⟨'\x7b', _, rfl, by decide⟩
  | .object ((k, v) :: ms) => exact ⟨'\x7b', _, rfl, by decide⟩

theorem nextItem_close (first : Bool) {bs : List Char} (hb : IsBlank bs) (rest : List Char) :
    nextItem first (bs ++ ']' :: rest) = .ok none := by
  rw [nextItem, hb.skipSpace_append_cons rfl]
  rfl

theorem nextItem_first {v : Json} (hv : HasNumeral v) {bs : List Char} (hb : IsBlank bs)
    (depth : Nat) (rest : List Char) :
    nextItem true (bs ++ write l depth v rest) = .ok (some (write l depth v rest)) := by
  obtain ⟨c, cs, hw, hspace, hclose⟩ := exists_opener hv l depth rest
  rw [hw, nextItem, hb.skipSpace_append_cons hspace]
  simp [hclose]

theorem nextItem_next {v : Json} (hv : HasNumeral v) {bs : List Char} (hb : IsBlank bs)
    (depth : Nat) (rest : List Char) :
    nextItem false (',' :: (bs ++ write l depth v rest)) = .ok (some (write l depth v rest)) := by
  obtain ⟨c, cs, hw, hspace, hclose⟩ := exists_opener hv l depth rest
  rw [hw, nextItem, skipSpace_cons rfl]
  simp [hb.skipSpace_append_cons hspace, hclose]

/-- The reader of an item gives the second value back for the first one. -/
def ItemBack (l : Layout) (item : List Char → Reading Json) (v w : Json) : Prop :=
  HasNumeral v ∧ ReadsBack l item v w

theorem endsNumber_blank {bs : List Char} (hb : IsBlank bs) {cs : List Char}
    (hc : EndsNumber cs) : EndsNumber (bs ++ cs) := by
  cases bs with
  | nil => exact hc
  | cons b bs =>
    have hspace : ∀ c, isSpace c = true → c.isDigit = false ∧ c ≠ '.' ∧ c ≠ 'e' ∧ c ≠ 'E' := by
      intro c hc
      simp only [isSpace, Bool.or_eq_true, beq_iff_eq] at hc
      rcases hc with ((rfl | rfl) | rfl) | rfl <;> decide
    exact endsNumber_cons (hspace b (hb b List.mem_cons_self)) _

theorem endsNumber_writeItems (l : Layout) (depth : Nat) (vs : List Json) {rest : List Char}
    (hr : EndsNumber rest) : EndsNumber (writeItems l depth vs rest) := by
  cases vs with
  | nil => exact hr
  | cons v vs => exact endsNumber_cons (by decide) _

theorem endsNumber_writeMembers (l : Layout) (depth : Nat) (ms : List (String × Json))
    {rest : List Char} (hr : EndsNumber rest) : EndsNumber (writeMembers l depth ms rest) := by
  cases ms with
  | nil => exact hr
  | cons m ms => exact endsNumber_cons (by decide) _

variable {item : List Char → Reading Json} {vs ws : List Json}

theorem readItems_writeItems (hl : l.IsBlank) (h : List.Forall₂ (ItemBack l item) vs ws)
    (depth : Nat) {bs : List Char} (hb : IsBlank bs) (rest : List Char) (done : List Json)
    {fuel : Nat} (hf : vs.length < fuel) :
    readItems item fuel false done (writeItems l depth vs (bs ++ ']' :: rest)) =
      .ok (done.reverse ++ ws, bs ++ ']' :: rest) := by
  obtain ⟨fuel, rfl⟩ := Nat.exists_eq_add_one_of_ne_zero (Nat.ne_zero_of_lt hf)
  induction h generalizing done fuel with
  | nil =>
    rw [writeItems, readItems, nextItem_close false hb]
    simp
  | @cons v w vs ws hv _ ih =>
    have hf : vs.length < fuel := by simpa using hf
    obtain ⟨fuel, rfl⟩ := Nat.exists_eq_add_one_of_ne_zero (Nat.ne_zero_of_lt hf)
    have hends := endsNumber_blank hb (endsNumber_cons (c := ']') (by decide) rest)
    have hread := hv.2 [] depth (writeItems l depth vs (bs ++ ']' :: rest)) isBlank_nil
      fun _ => endsNumber_writeItems l depth vs hends
    rw [List.nil_append] at hread
    rw [writeItems, readItems, nextItem_next hv.1 (hl.break_ depth)]
    simp only [hread]
    rw [ih (w :: done) fuel hf]
    simp

theorem expectClose_append (close : Char) (hc : isSpace close = false) {bs : List Char}
    (hb : IsBlank bs) (rest : List Char) : expectClose close (bs ++ close :: rest) = .ok rest := by
  rw [expectClose, hb.skipSpace_append_cons hc]
  simp

/-- The first item is read as if a comma stood in front of it. -/
theorem readItems_first {v : Json} (hv : HasNumeral v) {bs : List Char} (hb : IsBlank bs)
    (item : List Char → Reading Json) (fuel : Nat) (done : List Json) (depth : Nat)
    (rest : List Char) : readItems item fuel true done (bs ++ write l depth v rest) =
      readItems item fuel false done (',' :: (bs ++ write l depth v rest)) := by
  cases fuel with
  | zero => rfl
  | succ fuel => rw [readItems, readItems, nextItem_first hv hb, nextItem_next hv hb]

/-- The items of an array are read back up to its end. -/
theorem closed_readItems (hl : l.IsBlank) (h : List.Forall₂ (ItemBack l item) vs ws) (depth : Nat)
    (rest : List Char) : ∃ t, write l depth (.array vs) rest = '[' :: t ∧
      closed ']' (readItems item (t.length + 1) true [] t) = .ok (ws, rest) := by
  have hclose := expectClose_append ']' rfl (hl.break_ depth) rest
  cases h with
  | nil =>
    have hnext := nextItem_close true isBlank_nil rest
    have hclose := expectClose_append ']' rfl isBlank_nil rest
    rw [List.nil_append] at hnext hclose
    refine ⟨']' :: rest, rfl, ?_⟩
    rw [readItems, hnext]
    simp [closed, hclose, Except.map]
  | @cons v w vs ws hv hvs =>
    have hlength := heights_le_writeItems l (depth + 1) (v :: vs) (l.break_ depth ++ ']' :: rest)
    have hread := fun (fuel : Nat) (hf : (v :: vs).length < fuel) => readItems_writeItems hl
      (.cons hv hvs) (depth + 1) (hl.break_ depth) rest [] hf
    refine ⟨_, rfl, ?_⟩
    rw [readItems_first hv.1 (hl.break_ (depth + 1)), ← writeItems, hread]
    · simp [closed, hclose, Except.map]
    · simp only [writeItems, List.length_cons, List.length_append] at hlength ⊢
      omega

theorem readsBack_list (hl : l.IsBlank) {s : Shape}
    (h : List.Forall₂ (ItemBack l (read s)) vs ws) :
    ReadsBack l (read (.list s)) (.array vs) (.array ws) := by
  intro bs depth rest hb _
  obtain ⟨t, hw, hread⟩ := closed_readItems hl h depth rest
  rw [read, hw, hb.skipSpace_append_cons rfl]
  simp only [hread]
  rfl

/-! ## Members -/

theorem nextKey_close (strict first : Bool) {bs : List Char} (hb : IsBlank bs)
    (rest : List Char) : nextKey strict first (bs ++ '\x7d' :: rest) = .ok none := by
  rw [nextKey, hb.skipSpace_append_cons rfl]
  rfl

theorem nextKey_first (strict : Bool) {bs : List Char} (hb : IsBlank bs) (k : String)
    (rest : List Char) :
    nextKey strict true (bs ++ writeString k rest) = .ok (some (k, rest)) := by
  rw [nextKey, writeString_eq, hb.skipSpace_append_cons rfl]
  simp [readString_writeString, bind, Except.bind, pure, Except.pure]

theorem nextKey_next (strict : Bool) {bs : List Char} (hb : IsBlank bs) (k : String)
    (rest : List Char) :
    nextKey strict false (',' :: (bs ++ writeString k rest)) = .ok (some (k, rest)) := by
  rw [nextKey, writeString_eq, skipSpace_cons rfl]
  simp [hb.skipSpace_append_cons (c := '"') rfl, readString_writeString, bind, Except.bind, pure,
    Except.pure]

/-- The value after a colon is read back. -/
theorem expectColon_bind (hl : l.IsBlank) {value : List Char → Reading Json} {v w : Json}
    (h : ReadsBack l value v w) (depth : Nat) {rest : List Char} (hr : EndsNumber rest) :
    (expectColon (l.colon ++ write l depth v rest)).bind value = .ok (w, rest) := by
  obtain ⟨bs, hcolon, hb⟩ := hl.colon
  have hexpect : expectColon (l.colon ++ write l depth v rest) =
      .ok (bs ++ write l depth v rest) := by
    rw [hcolon, List.cons_append, expectColon, skipSpace_cons rfl]
    rfl
  rw [hexpect]
  exact h bs depth rest hb fun _ => hr

/-- The members of an object start after its bracket as they would after a comma. -/
theorem write_object_cons (l : Layout) (depth : Nat) (m : String × Json)
    (ms : List (String × Json)) (rest : List Char) :
    ∃ t, write l depth (.object (m :: ms)) rest =
        '\x7b' :: (l.break_ (depth + 1) ++ writeString m.1 t) ∧
      writeMembers l (depth + 1) (m :: ms) (l.break_ depth ++ '\x7d' :: rest) =
        ',' :: (l.break_ (depth + 1) ++ writeString m.1 t) :=
  ⟨_, rfl, rfl⟩

/-! ### Records -/

variable {field : String → Option (List Char → Reading Json)} {ms ns : List (String × Json)}

/-- The first member is read as if a comma stood in front of it. -/
theorem readFields_first (field : String → Option (List Char → Reading Json)) {bs : List Char}
    (hb : IsBlank bs) (fuel : Nat) (found : Found) (k : String) (rest : List Char) :
    readFields field fuel true found (bs ++ writeString k rest) =
      readFields field fuel false found (',' :: (bs ++ writeString k rest)) := by
  cases fuel with
  | zero => rfl
  | succ fuel => rw [readFields, readFields, nextKey_first true hb, nextKey_next true hb]

/-- The reader of a member's field gives back the value that the field has in the second list. -/
def FieldBack (l : Layout) (field : String → Option (List Char → Reading Json))
    (ns : List (String × Json)) (m : String × Json) : Prop :=
  ∃ reader w, field m.1 = some reader ∧ ReadsBack l reader m.2 w ∧ (m.1, w) ∈ ns

theorem readFields_writeMembers (hl : l.IsBlank) (h : ∀ m ∈ ms, FieldBack l field ns m)
    (depth : Nat) {bs : List Char} (hb : IsBlank bs) (rest : List Char) (found : Found)
    (hk : (found.map Prod.fst ++ ms.map Prod.fst).Nodup) {fuel : Nat} (hf : ms.length < fuel) :
    ∃ new : Found, new.map Prod.fst = ms.map Prod.fst ∧ (∀ f ∈ new, f ∈ ns) ∧
      readFields field fuel false found (writeMembers l depth ms (bs ++ '\x7d' :: rest)) =
        .ok (found ++ new, bs ++ '\x7d' :: rest) := by
  obtain ⟨fuel, rfl⟩ := Nat.exists_eq_add_one_of_ne_zero (Nat.ne_zero_of_lt hf)
  induction ms generalizing found fuel with
  | nil =>
    refine ⟨[], rfl, fun f hf => absurd hf List.not_mem_nil, ?_⟩
    rw [writeMembers, readFields, nextKey_close true false hb]
    simp
  | cons m ms ih =>
    obtain ⟨k, v⟩ := m
    obtain ⟨reader, w, hfield, hread, hmem⟩ := h (k, v) List.mem_cons_self
    have hf : ms.length < fuel := by simpa using hf
    obtain ⟨fuel, rfl⟩ := Nat.exists_eq_add_one_of_ne_zero (Nat.ne_zero_of_lt hf)
    have hnew : (found.any fun f => f.1 == k) = false := by
      rw [List.any_eq_false]
      intro f hf heq
      rw [List.nodup_append] at hk
      exact hk.2.2 f.1 (List.mem_map_of_mem hf) k (by simp) (eq_of_beq heq)
    have hk : ((found ++ [(k, w)]).map Prod.fst ++ ms.map Prod.fst).Nodup := by simpa using hk
    have hends := endsNumber_writeMembers l depth ms
      (endsNumber_blank hb (endsNumber_cons (c := '\x7d') (by decide) rest))
    obtain ⟨new, hkeys, hnew', hrest⟩ := ih (fun m hm => h m (List.mem_cons_of_mem _ hm))
      (found ++ [(k, w)]) hk fuel hf
    refine ⟨(k, w) :: new, by simp [hkeys], ?_, ?_⟩
    · intro f hf
      rcases List.mem_cons.mp hf with rfl | hf
      · exact hmem
      · exact hnew' f hf
    · rw [writeMembers, readFields, nextKey_next true (hl.break_ depth)]
      simp only [hfield, hnew, expectColon_bind hl hread depth hends, Bool.false_eq_true, if_false]
      rw [hrest, List.append_assoc]
      rfl

/-- What is found under each name is all that a record needs. -/
theorem completeFields_eq {found : Found} {fields : List (String × Shape)}
    (hn : ns.map Prod.fst = fields.map Prod.fst)
    (hfound : ∀ n ∈ ns, found.find? (fun f => f.1 == n.1) = some n) :
    completeFields found fields = .ok ns := by
  induction fields generalizing ns with
  | nil =>
    rw [List.map_nil, List.map_eq_nil_iff] at hn
    rw [hn]
    rfl
  | cons f fields ih =>
    obtain ⟨name, shape⟩ := f
    rcases ns with _ | ⟨⟨name', w⟩, ns⟩
    · cases hn
    · simp only [List.map_cons, List.cons.injEq] at hn
      obtain ⟨rfl, hn⟩ := hn
      have hw := hfound (name', w) List.mem_cons_self
      have hrest := ih hn fun n hm => hfound n (List.mem_cons_of_mem _ hm)
      simp [completeFields, hw, hrest, Except.map]

theorem find?_eq_of_nodup {found : Found} (hk : (ns.map Prod.fst).Nodup)
    (hsub : ∀ f ∈ found, f ∈ ns) {n : String × Json} (hn : n ∈ ns)
    (hmem : n.1 ∈ found.map Prod.fst) : found.find? (fun f => f.1 == n.1) = some n := by
  obtain ⟨g, hg, hgn⟩ := List.mem_map.mp hmem
  have hsome : (found.find? fun f => f.1 == n.1).isSome = true :=
    List.find?_isSome.mpr ⟨g, hg, by simp [hgn]⟩
  obtain ⟨f, hf⟩ := Option.isSome_iff_exists.mp hsome
  have hname : f.1 = n.1 := by simpa using List.find?_some hf
  rw [hf, List.inj_on_of_nodup_map hk (hsub f (List.mem_of_find?_eq_some hf)) hn hname]

/-- The members of a record are read back up to its end. -/
theorem closed_readFields (hl : l.IsBlank) (h : ∀ m ∈ ms, FieldBack l field ns m)
    (hk : (ms.map Prod.fst).Nodup) (depth : Nat) (rest : List Char) :
    ∃ t found left, write l depth (.object ms) rest = '\x7b' :: t ∧
      readFields field (t.length + 1) true [] t = .ok (found, left) ∧
      expectClose '\x7d' left = .ok rest ∧
      found.map Prod.fst = ms.map Prod.fst ∧ ∀ f ∈ found, f ∈ ns := by
  cases ms with
  | nil =>
    have hnext := nextKey_close true true isBlank_nil rest
    have hclose := expectClose_append '\x7d' rfl isBlank_nil rest
    rw [List.nil_append] at hnext hclose
    refine ⟨'\x7d' :: rest, [], '\x7d' :: rest, rfl, ?_, hclose, rfl, fun f hf => ?_⟩
    · rw [readFields, hnext]
    · exact absurd hf List.not_mem_nil
  | cons m ms =>
    obtain ⟨t, hobject, hmembers⟩ := write_object_cons l depth m ms rest
    have hlength := memberHeights_le_writeMembers l (depth + 1) (m :: ms)
      (l.break_ depth ++ '\x7d' :: rest)
    rw [hmembers] at hlength
    have hfuel : (m :: ms).length < (l.break_ (depth + 1) ++ writeString m.1 t).length + 1 := by
      simp only [List.length_cons, List.length_append] at hlength ⊢
      omega
    obtain ⟨new, hkeys, hsub, hread⟩ := readFields_writeMembers hl h (depth + 1) (hl.break_ depth)
      rest [] (by simpa using hk) hfuel
    refine ⟨_, new, _, hobject, ?_, expectClose_append _ rfl (hl.break_ depth) rest, hkeys, hsub⟩
    rw [readFields_first field (hl.break_ (depth + 1)), ← hmembers]
    exact hread

/-- A record is read back with its members in the order of the fields. -/
theorem readsBack_record (hl : l.IsBlank) {fields : List (String × Shape)}
    {vs : List (String × Json)} (hp : ms.Perm vs) (hv : vs.map Prod.fst = fields.map Prod.fst)
    (hn : ns.map Prod.fst = fields.map Prod.fst) (hd : (fields.map Prod.fst).Nodup)
    (h : ∀ v ∈ vs, FieldBack l (fieldReader fields) ns v) :
    ReadsBack l (read (.record fields)) (.object ms) (.object ns) := by
  intro bs depth rest hb _
  have hkeys : (ms.map Prod.fst).Perm (ns.map Prod.fst) := by
    rw [hn, ← hv]
    exact hp.map Prod.fst
  have hdn : (ns.map Prod.fst).Nodup := by rwa [hn]
  obtain ⟨t, found, left, hw, hread, hclose, hfound, hsub⟩ := closed_readFields hl
    (fun m hm => h m (hp.mem_iff.mp hm)) (hkeys.nodup_iff.mpr hdn) depth rest
  have hcomplete : completeFields found fields = .ok ns := by
    apply completeFields_eq hn
    intro n hmem
    apply find?_eq_of_nodup hdn hsub hmem
    rw [hfound]
    exact hkeys.mem_iff.mpr (List.mem_map_of_mem hmem)
  rw [read, hw, hb.skipSpace_append_cons rfl]
  simp only [hread, hcomplete]
  simp [closed, hclose, Except.map]

/-! ## Values of any shape -/

mutual

/-- No number stands anywhere in the value. -/
def isNumberFree : Json → Bool
  | .number _ => false
  | .array vs => areNumberFree vs
  | .object ms => membersAreNumberFree ms
  | _ => true

def areNumberFree : List Json → Bool
  | [] => true
  | v :: vs => isNumberFree v && areNumberFree vs

def membersAreNumberFree : List (String × Json) → Bool
  | [] => true
  | (_, v) :: ms => isNumberFree v && membersAreNumberFree ms

end

theorem areNumberFree_eq (vs : List Json) : areNumberFree vs = vs.all isNumberFree := by
  induction vs with
  | nil => rfl
  | cons v vs ih => rw [areNumberFree, ih, List.all_cons]

theorem membersAreNumberFree_eq (ms : List (String × Json)) :
    membersAreNumberFree ms = ms.all fun m => isNumberFree m.2 := by
  induction ms with
  | nil => rfl
  | cons m ms ih => rw [membersAreNumberFree, ih, List.all_cons]

/-- Every number in the value is a numeral. -/
inductive HasNumerals : Json → Prop where
  | null : HasNumerals .null
  | bool (b : Bool) : HasNumerals (.bool b)
  | number {t : String} (h : IsNumeral t.toList) : HasNumerals (.number t)
  | string (s : String) : HasNumerals (.string s)
  | array {vs : List Json} (h : ∀ v ∈ vs, HasNumerals v) : HasNumerals (.array vs)
  | object {ms : List (String × Json)} (h : ∀ m ∈ ms, HasNumerals m.2) : HasNumerals (.object ms)

theorem HasNumerals.hasNumeral {v : Json} (h : HasNumerals v) : HasNumeral v := by
  cases h with
  | number h => exact h
  | _ => trivial

theorem HasNumerals.of_isNumberFree (v : Json) (hv : isNumberFree v = true) : HasNumerals v := by
  match v with
  | .null => exact .null
  | .bool b => exact .bool b
  | .number t => cases hv
  | .string s => exact .string s
  | .array vs =>
    rw [isNumberFree, areNumberFree_eq, List.all_eq_true] at hv
    exact .array fun w hw => .of_isNumberFree w (hv w hw)
  | .object ms =>
    rw [isNumberFree, membersAreNumberFree_eq, List.all_eq_true] at hv
    exact .object fun m hm => .of_isNumberFree m.2 (hv m hm)
termination_by sizeOf v
decreasing_by
  · have := List.sizeOf_lt_of_mem hw
    simp
    omega
  · have := List.sizeOf_lt_of_mem hm
    obtain ⟨k, w⟩ := m
    simp at this ⊢
    omega

/-- The first member is read as if a comma stood in front of it. -/
theorem readMembers_first (strict : Bool) (value : List Char → Reading Json) {bs : List Char}
    (hb : IsBlank bs) (fuel : Nat) (done : List (String × Json)) (k : String)
    (rest : List Char) :
    readMembers strict value fuel true done (bs ++ writeString k rest) =
      readMembers strict value fuel false done (',' :: (bs ++ writeString k rest)) := by
  cases fuel with
  | zero => rfl
  | succ fuel => rw [readMembers, readMembers, nextKey_first strict hb, nextKey_next strict hb]

theorem readMembers_writeMembers (hl : l.IsBlank) (strict : Bool)
    {value : List Char → Reading Json} (h : ∀ m ∈ ms, ReadsBack l value m.2 m.2)
    (depth : Nat) {bs : List Char} (hb : IsBlank bs) (rest : List Char)
    (done : List (String × Json)) {fuel : Nat} (hf : ms.length < fuel) :
    readMembers strict value fuel false done (writeMembers l depth ms (bs ++ '\x7d' :: rest)) =
      .ok (done.reverse ++ ms, bs ++ '\x7d' :: rest) := by
  obtain ⟨fuel, rfl⟩ := Nat.exists_eq_add_one_of_ne_zero (Nat.ne_zero_of_lt hf)
  induction ms generalizing done fuel with
  | nil =>
    rw [writeMembers, readMembers, nextKey_close strict false hb]
    simp
  | cons m ms ih =>
    obtain ⟨k, v⟩ := m
    have hread := h (k, v) List.mem_cons_self
    have hends := endsNumber_writeMembers l depth ms
      (endsNumber_blank hb (endsNumber_cons (c := '\x7d') (by decide) rest))
    have hf : ms.length < fuel := by simpa using hf
    obtain ⟨fuel, rfl⟩ := Nat.exists_eq_add_one_of_ne_zero (Nat.ne_zero_of_lt hf)
    rw [writeMembers, readMembers, nextKey_next strict (hl.break_ depth)]
    simp only [expectColon_bind hl hread depth hends]
    rw [ih (fun m hm => h m (List.mem_cons_of_mem _ hm)) ((k, v) :: done) fuel hf]
    simp

/-- The members of an object are read back up to its end. -/
theorem closed_readMembers (hl : l.IsBlank) (strict : Bool) {value : List Char → Reading Json}
    (h : ∀ m ∈ ms, ReadsBack l value m.2 m.2) (depth : Nat) (rest : List Char) :
    ∃ t, write l depth (.object ms) rest = '\x7b' :: t ∧
      closed '\x7d' (readMembers strict value (t.length + 1) true [] t) = .ok (ms, rest) := by
  cases ms with
  | nil =>
    have hnext := nextKey_close strict true isBlank_nil rest
    have hclose := expectClose_append '\x7d' rfl isBlank_nil rest
    rw [List.nil_append] at hnext hclose
    refine ⟨'\x7d' :: rest, rfl, ?_⟩
    rw [readMembers, hnext]
    simp [closed, hclose, Except.map]
  | cons m ms =>
    obtain ⟨t, hobject, hmembers⟩ := write_object_cons l depth m ms rest
    have hlength := memberHeights_le_writeMembers l (depth + 1) (m :: ms)
      (l.break_ depth ++ '\x7d' :: rest)
    rw [hmembers] at hlength
    have hfuel : (m :: ms).length < (l.break_ (depth + 1) ++ writeString m.1 t).length + 1 := by
      simp only [List.length_cons, List.length_append] at hlength ⊢
      omega
    have hread := readMembers_writeMembers hl strict h (depth + 1) (hl.break_ depth) rest [] hfuel
    have hclose := expectClose_append '\x7d' rfl (hl.break_ depth) rest
    refine ⟨_, hobject, ?_⟩
    rw [readMembers_first strict value (hl.break_ (depth + 1)), ← hmembers, hread]
    simp [closed, hclose, Except.map]

theorem height_le_of_mem {v : Json} {vs : List Json} (h : v ∈ vs) : height v ≤ heights vs := by
  induction vs with
  | nil => cases h
  | cons w vs ih =>
    rw [heights]
    rcases List.mem_cons.mp h with rfl | h
    · exact Nat.le_max_left _ _
    · exact Nat.le_trans (ih h) (Nat.le_max_right _ _)

theorem height_le_of_mem_members {m : String × Json} {ms : List (String × Json)} (h : m ∈ ms) :
    height m.2 ≤ memberHeights ms := by
  induction ms with
  | nil => cases h
  | cons n ms ih =>
    rw [memberHeights]
    rcases List.mem_cons.mp h with rfl | h
    · exact Nat.le_max_left _ _
    · exact Nat.le_trans (ih h) (Nat.le_max_right _ _)

theorem HasNumerals.readsBack_readAny (hl : l.IsBlank) (strict : Bool) {fuel : Nat} {v : Json}
    (hv : HasNumerals v) (hf : height v < fuel) : ReadsBack l (readAny strict fuel) v v := by
  induction fuel generalizing v with
  | zero => exact absurd hf (Nat.not_lt_zero _)
  | succ fuel ih =>
    intro bs depth rest hb hr
    cases hv with
    | null =>
      have hw : write l depth .null rest = 'n' :: ("ull".toList ++ rest) := rfl
      rw [readAny, hw, hb.skipSpace_append_cons rfl]
      rfl
    | bool b =>
      cases b with
      | true =>
        have hw : write l depth (.bool true) rest = 't' :: ("rue".toList ++ rest) := rfl
        rw [readAny, hw, hb.skipSpace_append_cons rfl]
        rfl
      | false =>
        have hw : write l depth (.bool false) rest = 'f' :: ("alse".toList ++ rest) := rfl
        rw [readAny, hw, hb.skipSpace_append_cons rfl]
        rfl
    | @number t ht =>
      have hread := readNumber_append .malformed ht (hr trivial)
      obtain ⟨c, cs, hcons, hc⟩ := ht.exists_cons
      rw [hcons, List.cons_append] at hread
      rw [write, hcons, List.cons_append,
        readAny_of_startsWith (hb.skipSpace_append_cons hc.isSpace _) (.number hc hread), ← hcons,
        String.ofList_toList]
    | string s =>
      rw [readAny, write, writeString_eq, hb.skipSpace_append_cons rfl]
      simp [readString_writeString, Except.map]
    | @array vs hv =>
      rw [height] at hf
      have hback : List.Forall₂ (ItemBack l (readAny strict fuel)) vs vs := by
        rw [List.forall₂_same]
        intro v hmem
        have := height_le_of_mem hmem
        exact ⟨(hv v hmem).hasNumeral, ih (hv v hmem) (by omega)⟩
      obtain ⟨t, hw, hread⟩ := closed_readItems hl hback depth rest
      rw [readAny, hw, hb.skipSpace_append_cons rfl]
      simp [hread, Except.map]
    | @object ms hv =>
      rw [height] at hf
      have hback : ∀ m ∈ ms, ReadsBack l (readAny strict fuel) m.2 m.2 := by
        intro m hmem
        have := height_le_of_mem_members hmem
        exact ih (hv m hmem) (by omega)
      obtain ⟨t, hw, hread⟩ := closed_readMembers hl strict hback depth rest
      rw [readAny, hw, hb.skipSpace_append_cons rfl]
      simp [hread, Except.map]

theorem HasNumerals.readsBack_any (hl : l.IsBlank) {v : Json} (hv : HasNumerals v) :
    ReadsBack l (read .any) v v := by
  intro bs depth rest hb hr
  have hheight := height_le_write l depth v rest
  rw [read, anyFuel]
  apply hv.readsBack_readAny hl true _ bs depth rest hb hr
  rw [List.length_append]
  omega

theorem readsBack_any (hl : l.IsBlank) {v : Json} (hv : isNumberFree v = true) :
    ReadsBack l (read .any) v v :=
  (HasNumerals.of_isNumberFree v hv).readsBack_any hl

/-! ## Control characters -/

mutual

/-- On one line a value without numbers has no control character. -/
theorem clear_write (depth : Nat) {v : Json} (hv : isNumberFree v = true) (rest : List Char) :
    Clear (write .compact depth v rest) rest := by
  match v with
  | .null => exact clear_append "null".toList (by decide) rest
  | .bool true => exact clear_append "true".toList (by decide) rest
  | .bool false => exact clear_append "false".toList (by decide) rest
  | .number t => cases hv
  | .string s => exact (clear_append ['"'] (by decide) _).trans (clear_afterQuote _ _)
  | .array [] => exact clear_append ['[', ']'] (by decide) rest
  | .array (v :: vs) =>
    simp only [isNumberFree, areNumberFree, Bool.and_eq_true] at hv
    have hclose : Clear (']' :: rest) rest := clear_append [']'] (by decide) rest
    have hvs := (clear_writeItems (depth + 1) hv.2 (']' :: rest)).trans hclose
    exact (clear_append ['['] (by decide) _).trans
      ((clear_write (depth + 1) hv.1 _).trans hvs)
  | .object [] => exact clear_append ['\x7b', '\x7d'] (by decide) rest
  | .object ((k, v) :: ms) =>
    simp only [isNumberFree, membersAreNumberFree, Bool.and_eq_true] at hv
    have hclose : Clear ('\x7d' :: rest) rest := clear_append ['\x7d'] (by decide) rest
    have hms := (clear_writeMembers (depth + 1) hv.2 ('\x7d' :: rest)).trans hclose
    have hvalue := (clear_append [':'] (by decide) _).trans
      ((clear_write (depth + 1) hv.1 _).trans hms)
    exact (clear_append ['\x7b', '"'] (by decide) _).trans
      ((clear_afterQuote k.toList _).trans hvalue)

theorem clear_writeItems (depth : Nat) {vs : List Json} (hv : areNumberFree vs = true)
    (rest : List Char) : Clear (writeItems .compact depth vs rest) rest := by
  match vs with
  | [] => exact Clear.refl rest
  | v :: vs =>
    simp only [areNumberFree, Bool.and_eq_true] at hv
    exact (clear_append [','] (by decide) _).trans
      ((clear_write depth hv.1 _).trans (clear_writeItems depth hv.2 rest))

theorem clear_writeMembers (depth : Nat) {ms : List (String × Json)}
    (hv : membersAreNumberFree ms = true) (rest : List Char) :
    Clear (writeMembers .compact depth ms rest) rest := by
  match ms with
  | [] => exact Clear.refl rest
  | (k, v) :: ms =>
    simp only [membersAreNumberFree, Bool.and_eq_true] at hv
    have hvalue := (clear_append [':'] (by decide) _).trans
      ((clear_write depth hv.1 _).trans (clear_writeMembers depth hv.2 rest))
    exact (clear_append [',', '"'] (by decide) _).trans
      ((clear_afterQuote k.toList _).trans hvalue)

end

/-- A value without numbers has no control character on one line. -/
theorem le_toNat_of_mem_compact {v : Json} (hv : isNumberFree v = true) {d : Char}
    (h : d ∈ v.compact.toList) : 0x20 ≤ d.toNat := by
  rw [compact, String.toList_ofList] at h
  rcases clear_write 0 hv [] d h with h | h
  · exact h
  · cases h

/-! ## Whole texts -/

theorem decode_of_readsBack {s : Shape} {v w : Json} (h : ReadsBack l (read s) v w) :
    decode s (String.ofList (write l 0 v [])) = .ok w := by
  have := h [] 0 [] isBlank_nil fun _ => endsNumber_nil
  rw [List.nil_append] at this
  rw [decode, String.toList_ofList, this]
  rfl

/-- A value is read back from one line. -/
theorem HasNumerals.parse?_compact {v : Json} (h : HasNumerals v) : parse? v.compact = some v := by
  rw [parse?, compact, decode_of_readsBack (h.readsBack_any Layout.isBlank_compact)]
  rfl

end TestConversion.Json
